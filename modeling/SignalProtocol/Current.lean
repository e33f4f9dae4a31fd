/-
# The current session

`session_cipher_encrypt` works with the current state of a record, and a message is tried on the
current state before all others.  So while the current state is a session whose answer to a
message is a plaintext or a code other than `SG_ERR_INVALID_MESSAGE`, the archived states do not
matter.  They may be anything that can be loaded.

* section 1: `World.Current` and what keeps it;
* section 2: encrypting and decrypting with the current session;
* section 3: a pre-key message whose base key is known, and one that sets up a session.
-/
import SignalProtocol.StateKeys

namespace SignalProtocol

variable {Addr Priv Pub B : Type}

/-! ## 1. The current state is a session -/

/-- **The record for the address has this session as its current state.** -/
def World.Current (P : Provider Priv Pub B) (address : Addr) (s : Session Priv Pub B)
    (previous : List (SessionState Priv Pub B)) (w : World Addr Priv Pub B) : Prop :=
  w.record P address = .ok ⟨s.toState P, previous, false⟩

section Current

variable {P : Provider Priv Pub B} {address : Addr} {s s' : Session Priv Pub B}
  {previous : List (SessionState Priv Pub B)} {w w' : World Addr Priv Pub B}
  {record : SessionRecord Priv Pub B}

/-- The record of an address depends on the session store only. -/
theorem World.record_congr (h : w'.sessions address = w.sessions address) :
    w'.record P address = w.record P address := by
  rw [World.record_eq, World.record_eq, h]

theorem current_of_record (hr : w.record P address = .ok record)
    (hs : record.state = s.toState P) : w.Current P address s record.previousStates := by
  obtain ⟨state, previous, isFresh⟩ := record
  rcases record_cases hr with ⟨-, hrecord⟩ | ⟨hfresh, -⟩
  · rw [hrecord] at hs
    cases hs
  · dsimp only at hs hfresh
    rw [World.Current, hr, hs, hfresh]

theorem World.Current.congr (h : w.Current P address s previous)
    (hw : w'.record P address = w.record P address) : w'.Current P address s previous :=
  hw.trans h

variable [DecidableEq Addr]

/-- A record that replaces the current one by another session is loaded as it is. -/
theorem World.Current.store (h : w.Current P address s previous) (s' : Session Priv Pub B)
    (isFresh : Bool) :
    (w.storeRecord P address ⟨s'.toState P, previous, isFresh⟩).Current P address s' previous :=
  record_storeRecord w ((readable_of_record h).setState (Session.storable_toState P s').readable)

/-- What is stored at the end of a call is loaded again. -/
theorem record_changed (hr : record.Readable P) (saved : Option Pub) (used : Option UInt32)
    (n : Nat) : (w.changed P address record saved used n).record P address =
      .ok { record with isFresh := false } := by
  rw [← record_storeRecord w hr]
  exact World.record_congr (by rw [World.changed_sessions]; rfl)

end Current

/-! ## 2. Encrypting and decrypting -/

section Cipher

variable {ctx : SignalContext Addr Priv Pub B} {address : Addr} {s s' : Session Priv Pub B}
  {previous : List (SessionState Priv Pub B)} {w : World Addr Priv Pub B} {p : B}

/-- **Encrypting sends with the current session.** -/
theorem encrypt_current [DecidableEq Addr] (h : w.Current ctx.provider address s previous) (p : B) :
    sessionCipherEncrypt ctx (SessionCipher.create address) p w =
      match s.send ctx.provider p with
      | .ok (c, s') => (.ok c, w.storeRecord ctx.provider address
          ⟨s'.toState ctx.provider, previous, false⟩)
      | .error e => (.error e, w) := by
  have hload : signalProtocolSessionLoadSession ctx.provider address w =
      (.ok ⟨s.toState ctx.provider, previous, false⟩, w) := by rw [load_eq, h]
  simp only [sessionCipherEncrypt, Threaded.sessionCipherEncrypt, Program.run_eqs]
  refine (Op.bind_of_ok hload).trans ?_
  dsimp only
  rw [encryptWithState_toState]
  cases s.send ctx.provider p with
  | error e => rfl
  | ok result => rfl

variable [DecidableEq Pub] [DecidableEq B] {P : Provider Priv Pub B} {rng : Rng Priv B}
  {record : SessionRecord Priv Pub B} {m : SignalMessage Pub B} {n n' : Nat}

/-- The answer of the current session ends the search, unless it is
`SG_ERR_INVALID_MESSAGE`. -/
theorem tryStates_current (hs : record.state = s.toState P) (hrange : s.InRange)
    {r : Except SgError (B × Session Priv Pub B)} (hr : r ≠ .error .invalidMessage)
    (h : s.receive P rng m n = (r, n')) :
    sessionCipherTryStates P rng m record.states n =
      (r.map fun result => (result.1, result.2.toState P, 0), n') := by
  have hcopy : record.state.copy P = .ok (s.toState P) := by
    rw [hs]
    exact SessionState.copy_of_storable (Session.storable_toState ..)
  have hdecrypt : sessionCipherDecryptFromState P rng (s.toState P) m n =
      (r.map fun result => (result.1, result.2.toState P), n') := by
    rw [decryptFromState_toState _ hrange, Op.bind_apply, h]
    cases r <;> rfl
  rw [SessionRecord.states, sessionCipherTryStates_cons, hcopy, Op.ofExcept_ok, Op.pure_bind_apply]
  cases r with
  | ok result => exact Op.recover_of_ok (Op.bind_of_ok hdecrypt)
  | error e => exact Op.recover_of_other (Op.bind_of_error hdecrypt) fun he => hr (by rw [he])

/-- **What the current session accepts, the record accepts.** -/
theorem decryptFromRecord_current (hs : record.state = s.toState P) (hrange : s.InRange)
    (h : s.receive P rng m n = (.ok (p, s'), n')) :
    sessionCipherDecryptFromRecord P rng record m n =
      (.ok (p, record.setState (s'.toState P)), n') := by
  rw [sessionCipherDecryptFromRecord_eq]
  exact (Op.bind_of_ok (tryStates_current hs hrange (by intro he; cases he) h)).trans rfl

/-- **What the current session refuses as a duplicate, the record refuses.** -/
theorem decryptFromRecord_duplicate (hs : record.state = s.toState P) (hrange : s.InRange)
    (h : s.receive P rng m n = (.error .duplicateMessage, n')) :
    sessionCipherDecryptFromRecord P rng record m n = (.error .duplicateMessage, n') := by
  rw [sessionCipherDecryptFromRecord_eq]
  exact Op.bind_of_error (tryStates_current hs hrange (by intro he; cases he) h)

/-- A signal message is decrypted with the record. -/
theorem decryptSignal_current [DecidableEq Addr] (hw : w.Current ctx.provider address s previous)
    {r : Except SgError (B × SessionRecord Priv Pub B)}
    (h : sessionCipherDecryptFromRecord ctx.provider ctx.rng
      ⟨s.toState ctx.provider, previous, false⟩ m w.drawn = (r, n)) :
    sessionCipherDecryptSignalMessage ctx (SessionCipher.create address) m w =
      match r with
      | .ok (p, record') => (.ok p, (w.at n).storeRecord ctx.provider address record')
      | .error e => (.error e, w.at n) := by
  have hload : signalProtocolSessionLoadSession ctx.provider address w =
      (.ok ⟨s.toState ctx.provider, previous, false⟩, w) := by rw [load_eq, hw]
  have hcontains : signalProtocolSessionContainsSession address w = (.ok true, w) := by
    rcases record_cases hw with ⟨-, hrecord⟩ | ⟨-, stored, hstored, -⟩
    · cases hrecord
    · rw [signalProtocolSessionContainsSession, Op.get_bind_apply, hstored]
      rfl
  simp only [sessionCipherDecryptSignalMessage, Threaded.sessionCipherDecryptSignalMessage,
    Program.run_eqs, run_drawing, Threaded.run_decryptFromRecord, Threaded.run_decryptCallback]
  refine (Op.bind_of_ok (a := ()) (Op.require_ok_iff.2 ⟨rfl, rfl⟩)).trans ?_
  refine (Op.bind_of_ok hcontains).trans ?_
  refine (Op.bind_of_ok (a := ()) (Op.require_ok_iff.2 ⟨rfl, rfl⟩)).trans ?_
  refine (Op.bind_of_ok hload).trans ?_
  cases r with
  | error e => exact Op.bind_of_error (atRandom_of h)
  | ok result =>
    refine (Op.bind_of_ok (atRandom_of h)).trans ?_
    rw [sessionCipherDecryptCallback_of_none rfl]
    rfl

end Cipher

/-! ## 3. Pre-key messages -/

section PreKey

variable [LinearOrder Pub] {ctx : SignalContext Addr Priv Pub B} {address : Addr}
  {w : World Addr Priv Pub B} {record built : SessionRecord Priv Pub B}
  {m : PreKeySignalMessage Pub B} {used : Option UInt32}

/-- A known base key leaves the record as it is. -/
theorem processV3_of_known
    (h : record.hasSessionState m.version.toUInt32 m.baseKey = true) :
    sessionBuilderProcessPreKeySignalMessageV3 ctx record m w = (.ok (record, none), w) := by
  simp only [sessionBuilderProcessPreKeySignalMessageV3,
    Threaded.sessionBuilderProcessPreKeySignalMessageV3, Program.run_eqs]
  rw [if_pos h]
  rfl

/-- **A new base key sets up a session** with the pre keys that the message names. -/
theorem processV3_of_new (hr : w.record ctx.provider address = .ok record)
    (h : ¬ record.hasSessionState m.version.toUInt32 m.baseKey = true)
    {signedPreKey : EcKeyPair Priv Pub} {oneTimePreKey : Option (EcKeyPair Priv Pub)}
    (hsigned : w.signedPreKeys m.signedPreKeyId = some signedPreKey)
    (honce : loadOneTimePreKey m.preKeyId w = (.ok oneTimePreKey, w)) :
    sessionBuilderProcessPreKeySignalMessageV3 ctx record m w =
      (.ok (record.makeRoom.setState ((Session.responded ctx.provider w.toStore signedPreKey
        oneTimePreKey m).toState ctx.provider),
        m.preKeyId.filter fun preKeyId => preKeyId ≠ preKeyMediumMaxValue), w) := by
  have hload : signalProtocolSignedPreKeyLoadKey m.signedPreKeyId w = (.ok signedPreKey, w) := by
    rw [signalProtocolSignedPreKeyLoadKey, Op.get_bind_apply, hsigned]
    rfl
  have hidentity : signalProtocolIdentityGetKeyPair w = (.ok w.identityKeyPair, w) := rfl
  simp only [sessionBuilderProcessPreKeySignalMessageV3,
    Threaded.sessionBuilderProcessPreKeySignalMessageV3, Program.run_eqs]
  rw [if_neg h]
  refine (Op.bind_of_ok hload).trans ?_
  refine (Op.bind_of_ok hidentity).trans ?_
  refine (Op.bind_of_ok honce).trans ?_
  rw [state_makeRoom hr]
  rfl

variable [DecidableEq Addr] [DecidableEq B]

/-- **Decrypting a pre-key message** from a trusted sender, once the builder is done. -/
theorem decryptPreKey_built (hr : w.record ctx.provider address = .ok record)
    (ht : ctx.trusted address (w.identities address) m.identityKey = true)
    (hb : sessionBuilderProcessPreKeySignalMessageV3 ctx record m w = (.ok (built, used), w))
    {r : Except SgError (B × SessionRecord Priv Pub B)} {n : Nat}
    (h : sessionCipherDecryptFromRecord ctx.provider ctx.rng built m.message w.drawn = (r, n)) :
    sessionCipherDecryptPreKeySignalMessage ctx (SessionCipher.create address) m w =
      match r with
      | .ok (p, record') =>
        (.ok p, w.changed ctx.provider address record' (some m.identityKey) used n)
      | .error e => (.error e, (w.saveIdentity address m.identityKey).at n) := by
  have hload : signalProtocolSessionLoadSession ctx.provider address w = (.ok record, w) := by
    rw [load_eq, hr]
  have hbuild : sessionBuilderProcessPreKeySignalMessage ctx address record m w =
      (.ok (built, used), w.saveIdentity address m.identityKey) := by
    simp only [sessionBuilderProcessPreKeySignalMessage,
      Threaded.sessionBuilderProcessPreKeySignalMessage, Program.run_eqs,
      Threaded.run_processPreKeySignalMessageV3]
    refine (Op.bind_of_ok (isTrusted_of rfl ht)).trans ?_
    refine (Op.bind_of_ok (a := ()) (Op.require_ok_iff.2 ⟨rfl, rfl⟩)).trans ?_
    exact (Op.bind_of_ok hb).trans rfl
  simp only [sessionCipherDecryptPreKeySignalMessage,
    Threaded.sessionCipherDecryptPreKeySignalMessage, Program.run_eqs, run_drawing,
    Threaded.run_processPreKeySignalMessage, Threaded.run_decryptFromRecord,
    Threaded.run_decryptCallback]
  refine (Op.bind_of_ok (a := ()) (Op.require_ok_iff.2 ⟨rfl, rfl⟩)).trans ?_
  refine (Op.bind_of_ok hload).trans ?_
  refine (Op.bind_of_ok hbuild).trans ?_
  have hdecrypt : (atRandom (sessionCipherDecryptFromRecord ctx.provider ctx.rng built m.message) :
      Op SgError (World Addr Priv Pub B) _) (w.saveIdentity address m.identityKey) =
        (r, (w.saveIdentity address m.identityKey).at n) := atRandom_of h
  cases r with
  | error e => exact Op.bind_of_error hdecrypt
  | ok result =>
    refine (Op.bind_of_ok hdecrypt).trans ?_
    rw [sessionCipherDecryptCallback_of_none rfl]
    cases used <;> rfl

end PreKey

end SignalProtocol
