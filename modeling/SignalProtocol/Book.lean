/-
# The sessions of one address

For one address, the session store holds either nothing or a record, and a record of sessions
is a list of them, current one first.  `World.Holds` says which list that is.  This module
states what the cipher's operations do to the list:

* `encrypt_ok`: the first session sends;
* `decryptFromRecord_recordOf`, `decrypt_ok`: one session receives and moves to the front.

Each comes with its failure half: what a call that fails may have changed.
-/
import SignalProtocol.Builder
import SignalProtocol.Receive

namespace SignalProtocol

variable {Addr Priv Pub B : Type}

/-! ## 1. New sessions -/

namespace Session

variable (P : Provider Priv Pub B)

/-- The session `ratcheting_session_alice_initialize` sets up in an empty state, with the
sending ratchet key it drew. -/
def alice (p : AliceParameters Priv Pub) (sending : Priv) : Session Priv Pub B where
  localIdentity := p.ourIdentityKey.publicKey
  remoteIdentity := p.theirIdentityKey
  root := P.ratchetRoot (P.initialRoot (p.secret P)) (P.agreement p.theirRatchetKey sending)
  previousCounter := 0
  sender := ⟨P.pair sending, P.ratchetStart (P.initialRoot (p.secret P))
    (P.agreement p.theirRatchetKey sending), 0⟩
  receivers := [⟨p.theirRatchetKey, P.initialStart (p.secret P), Window.empty⟩]
  pendingKeyExchange := none
  pendingPreKey := none
  remoteRegistrationId := 0
  localRegistrationId := 0
  needsRefresh := false
  aliceBaseKey := none
  receivers_le := Nat.le_add_left 1 4
  keys_nodup := List.nodup_singleton _

/-- The session `ratcheting_session_bob_initialize` sets up in an empty state. -/
def bob (p : BobParameters Priv Pub) : Session Priv Pub B where
  localIdentity := p.ourIdentityKey.publicKey
  remoteIdentity := p.theirIdentityKey
  root := P.initialRoot (p.secret P)
  previousCounter := 0
  sender := ⟨p.ourRatchetKey, P.initialStart (p.secret P), 0⟩
  receivers := []
  pendingKeyExchange := none
  pendingPreKey := none
  remoteRegistrationId := 0
  localRegistrationId := 0
  needsRefresh := false
  aliceBaseKey := none
  receivers_le := Nat.zero_le _
  keys_nodup := List.nodup_nil

variable {P}

theorem aliceInitialize_of_ok {rng : Rng Priv B} (p : AliceParameters Priv Pub) {n : Nat}
    {sending : Priv} (h : rng.privateKey n = .ok sending) :
    ratchetingSessionAliceInitialize P rng SessionState.create p n =
      (.ok ((alice P p sending).toState P), n + 1) :=
  (Op.bind_of_ok (curveGenerateKeyPair_of_ok h)).trans rfl

theorem aliceInitialize_of_error {rng : Rng Priv B} (p : AliceParameters Priv Pub) {n : Nat}
    {e : SgError} (h : rng.privateKey n = .error e) :
    ratchetingSessionAliceInitialize P rng SessionState.create p n = (.error e, n + 1) :=
  Op.bind_of_error (curveGenerateKeyPair_of_error h)

theorem inRange_alice (p : AliceParameters Priv Pub) (sending : Priv) :
    (alice P p sending).InRange where
  sender := Nat.two_pow_pos 32
  receivers := by
    intro c hc
    rw [List.mem_singleton.1 hc]
    exact Nat.two_pow_pos 32

theorem inRange_bob (p : BobParameters Priv Pub) : (bob P p).InRange where
  sender := Nat.two_pow_pos 32
  receivers := by
    rintro c ⟨⟩

end Session

/-! ## 2. Records of sessions -/

section Records

variable (P : Provider Priv Pub B)

/-- The record of a list of sessions with a first one. -/
def recordOf (isFresh : Bool) (s : Session Priv Pub B) (rest : List (Session Priv Pub B)) :
    SessionRecord Priv Pub B :=
  ⟨s.toState P, rest.map (Session.toState P), isFresh⟩

/-- What the store holds for a list of sessions. -/
def storedAs : List (Session Priv Pub B) → Option (RecordStructure B)
  | [] => none
  | s :: rest => some ((recordOf P false s rest).serialize P)

/-- What loading gives for a list of sessions. -/
def loadedAs : List (Session Priv Pub B) → SessionRecord Priv Pub B
  | [] => SessionRecord.create none
  | s :: rest => recordOf P false s rest

/-- **The store holds exactly these sessions for the address.** -/
def World.Holds (address : Addr) (l : List (Session Priv Pub B))
    (w : World Addr Priv Pub B) : Prop :=
  w.sessions address = storedAs P l

variable {P} {address : Addr} {l : List (Session Priv Pub B)} {w : World Addr Priv Pub B}

theorem storable_recordOf (isFresh : Bool) (s : Session Priv Pub B)
    (rest : List (Session Priv Pub B)) : (recordOf P isFresh s rest).Storable P := by
  intro state hstate
  rcases List.mem_cons.1 hstate with rfl | hmem
  · exact s.storable_toState P
  · obtain ⟨t, -, rfl⟩ := List.mem_map.1 hmem
    exact t.storable_toState P

theorem load_holds (h : w.Holds P address l) :
    signalProtocolSessionLoadSession P address w = (.ok (loadedAs P l), w) := by
  unfold signalProtocolSessionLoadSession
  rw [Op.get_bind_apply, show w.sessions address = storedAs P l from h]
  cases l with
  | nil => rfl
  | cons s rest =>
    have hd := SessionRecord.deserialize_serialize (storable_recordOf (P := P) false s rest)
    simp only [storedAs, hd, Op.ofExcept_ok]
    rfl

/-- The record that loading gives for an address. -/
def World.record (P : Provider Priv Pub B) (address : Addr) (w : World Addr Priv Pub B) :
    Except SgError (SessionRecord Priv Pub B) :=
  (signalProtocolSessionLoadSession P address w).1

theorem load_eq (P : Provider Priv Pub B) (address : Addr) (w : World Addr Priv Pub B) :
    signalProtocolSessionLoadSession P address w = (w.record P address, w) := by
  unfold World.record signalProtocolSessionLoadSession
  rw [Op.get_bind_apply]
  cases w.sessions address
  · rfl
  · simp only [Op.ofExcept_apply]

/-- The record of an address is the stored one, or a fresh one. -/
theorem World.record_eq (P : Provider Priv Pub B) (address : Addr) (w : World Addr Priv Pub B) :
    w.record P address =
      match w.sessions address with
      | none => .ok (SessionRecord.create none)
      | some stored => stored.deserialize P := by
  unfold World.record signalProtocolSessionLoadSession
  rw [Op.get_bind_apply]
  cases w.sessions address
  · rfl
  · simp only [Op.ofExcept_apply]

theorem World.record_at (P : Provider Priv Pub B) (address : Addr) (n : Nat)
    (w : World Addr Priv Pub B) : (w.at n).record P address = w.record P address := by
  rw [World.record_eq, World.record_eq]
  rfl

theorem record_of_holds (h : w.Holds P address l) : w.record P address = .ok (loadedAs P l) :=
  congrArg Prod.fst (load_holds h)

/-- A new session is always set up in an empty state. -/
theorem makeRoom_state (l : List (Session Priv Pub B)) :
    (loadedAs P l).makeRoom.state = SessionState.create := by
  cases l <;> rfl

/-- A new session goes in front of the 40 most recent ones. -/
theorem makeRoom_setState (l : List (Session Priv Pub B)) (s : Session Priv Pub B) :
    (loadedAs P l).makeRoom.setState (s.toState P) =
      recordOf P l.isEmpty s (l.take archivedStatesMaxLength) := by
  cases l with
  | nil => rfl
  | cons t rest =>
    simp only [loadedAs, recordOf, SessionRecord.makeRoom, SessionRecord.archiveCurrentState,
      SessionRecord.promoteState, SessionRecord.setState, ← List.map_take, ← List.map_cons]
    rfl

/-- Putting an accepting session in front drops none, as long as the record respects its
limit. -/
theorem accept_recordOf {isFresh : Bool} {s s' : Session Priv Pub B}
    {rest : List (Session Priv Pub B)} (hlen : rest.length ≤ archivedStatesMaxLength) {i : Nat}
    (hi : i < (s :: rest).length) :
    (recordOf P isFresh s rest).accept (s'.toState P) i =
      recordOf P isFresh s' ((s :: rest).eraseIdx i) := by
  cases i with
  | zero => rfl
  | succ i =>
    have hi' : i < rest.length := Nat.lt_of_succ_lt_succ hi
    have hle : (s.toState P :: (rest.eraseIdx i).map (Session.toState P)).length ≤
        archivedStatesMaxLength := by
      rw [List.length_cons, List.length_map, List.length_eraseIdx_of_lt hi']
      omega
    simp only [SessionRecord.accept, recordOf, SessionRecord.removePreviousState,
      SessionRecord.promoteState, List.eraseIdx_cons_succ, List.map_cons, List.eraseIdx_map,
      List.take_of_length_le hle]

end Records

/-! ## 3. Receiving with a record -/

section Receiving

variable [DecidableEq Pub] [DecidableEq B]

/-- **Decrypting against a record** is receiving with any of its sessions and moving the one
that accepted to the front. -/
theorem decryptFromRecord_recordOf (P : Provider Priv Pub B) (rng : Rng Priv B)
    (isFresh : Bool) {s : Session Priv Pub B} {rest : List (Session Priv Pub B)}
    (hr : ∀ t ∈ s :: rest, t.InRange)
    (hlen : rest.length ≤ archivedStatesMaxLength) (m : SignalMessage Pub B) :
    sessionCipherDecryptFromRecord P rng (recordOf P isFresh s rest) m = (do
      let result ← Session.receiveAny P rng m (s :: rest)
      return (result.1, recordOf P isFresh result.2.1 ((s :: rest).eraseIdx result.2.2))) := by
  rw [sessionCipherDecryptFromRecord_eq]
  have hstates : (recordOf P isFresh s rest).states = (s :: rest).map (Session.toState P) := rfl
  rw [hstates, tryStates_toState rng m hr, Op.bind_assoc]
  funext n
  rw [Op.bind_apply, Op.bind_apply]
  rcases ha : Session.receiveAny P rng m (s :: rest) n with ⟨_ | ⟨p, s', i⟩, n'⟩
  · rfl
  · obtain ⟨t, k, ht, -, -⟩ := Session.receiveAny_ok ha
    have hi : i < (s :: rest).length := (List.getElem?_eq_some_iff.1 ht).1
    simp only [Op.pure_bind_apply, accept_recordOf hlen hi]

end Receiving

/-! ## 4. Passive ciphers -/

/-- A cipher that is used from outside its callback, and whose callback touches no store: it
may look at the plaintext and refuse it. -/
structure SessionCipher.Passive (cipher : SessionCipher Addr Priv Pub B) : Prop where
  outside : cipher.insideCallback = false
  callback : ∀ p w, (sessionCipherDecryptCallback cipher p w).2 = w

theorem SessionCipher.passive_create (address : Addr) :
    (SessionCipher.create address : SessionCipher Addr Priv Pub B).Passive where
  outside := rfl
  callback := fun p _ => by
    rw [sessionCipherDecryptCallback_of_none rfl p]
    rfl

theorem SessionCipher.Passive.callback_cases {cipher : SessionCipher Addr Priv Pub B}
    (h : cipher.Passive) (p : B) (w : World Addr Priv Pub B) :
    sessionCipherDecryptCallback cipher p w = (.ok (), w) ∨
      ∃ e, sessionCipherDecryptCallback cipher p w = (.error e, w) := by
  have h2 := h.callback p w
  rcases hc : sessionCipherDecryptCallback cipher p w with ⟨e | u, w'⟩ <;> rw [hc] at h2 <;>
    cases h2
  · exact Or.inr ⟨e, rfl⟩
  · exact Or.inl rfl

/-! ## 5. Encrypting and decrypting -/

/-- The world with these sessions stored for the address and the random source at `n`. -/
def World.put [DecidableEq Addr] (P : Provider Priv Pub B) (address : Addr)
    (l : List (Session Priv Pub B)) (n : Nat) (w : World Addr Priv Pub B) :
    World Addr Priv Pub B :=
  { w with sessions := Function.update w.sessions address (storedAs P l), drawn := n }

theorem World.Holds.at {P : Provider Priv Pub B} {address : Addr}
    {l : List (Session Priv Pub B)} {w : World Addr Priv Pub B} (h : w.Holds P address l)
    (n : Nat) : (w.at n).Holds P address l := h

section Operations

variable [DecidableEq Addr]

theorem World.holds_put {P : Provider Priv Pub B} (address : Addr)
    (l : List (Session Priv Pub B)) (n : Nat) (w : World Addr Priv Pub B) :
    (w.put P address l n).Holds P address l := by
  simp only [World.Holds, World.put, Function.update_self]

variable {ctx : SignalContext Addr Priv Pub B} {cipher : SessionCipher Addr Priv Pub B}
  {l : List (Session Priv Pub B)} {w w' : World Addr Priv Pub B}

theorem store_recordOf {P : Provider Priv Pub B} {address : Addr} (isFresh : Bool)
    (s : Session Priv Pub B) (rest : List (Session Priv Pub B)) (w : World Addr Priv Pub B) :
    signalProtocolSessionStoreSession P address (recordOf P isFresh s rest) w =
      (.ok (), w.put P address (s :: rest) w.drawn) := rfl

/-- Without a session there is nothing to encrypt with. -/
theorem encrypt_nil (hw : w.Holds ctx.provider cipher.remoteAddress [])
    (hc : cipher.insideCallback = false) (p : B) :
    sessionCipherEncrypt ctx cipher p w = (.error .unknown, w) := by
  simp only [sessionCipherEncrypt, Threaded.sessionCipherEncrypt, Program.run_eqs]
  rw [Op.require_of hc, Op.pure_bind_apply, Op.bind_of_ok (load_holds hw)]
  rfl

/-- **Encrypting sends with the first session**, and a failure changes nothing. -/
theorem encrypt_cons {s : Session Priv Pub B} {rest : List (Session Priv Pub B)}
    (hw : w.Holds ctx.provider cipher.remoteAddress (s :: rest))
    (hc : cipher.insideCallback = false) (p : B) :
    sessionCipherEncrypt ctx cipher p w =
      match s.send ctx.provider p with
      | .ok (c, s') =>
        (.ok c, w.put ctx.provider cipher.remoteAddress (s' :: rest) w.drawn)
      | .error e => (.error e, w) := by
  simp only [sessionCipherEncrypt, Threaded.sessionCipherEncrypt, Program.run_eqs]
  rw [Op.require_of hc, Op.pure_bind_apply, Op.bind_of_ok (load_holds hw)]
  have henc : encryptWithState ctx.provider (loadedAs ctx.provider (s :: rest)).state p =
      (s.send ctx.provider p).map fun result => (result.1, result.2.toState ctx.provider) :=
    encryptWithState_toState s p
  rw [henc]
  rcases s.send ctx.provider p with e | ⟨c, s'⟩
  · rfl
  · rfl

theorem encrypt_ok (hw : w.Holds ctx.provider cipher.remoteAddress l)
    (hc : cipher.insideCallback = false) {p : B} {c : CiphertextMessage Pub B}
    (h : sessionCipherEncrypt ctx cipher p w = (.ok c, w')) :
    ∃ s rest s', l = s :: rest ∧ s.send ctx.provider p = .ok (c, s') ∧
      w' = w.put ctx.provider cipher.remoteAddress (s' :: rest) w.drawn := by
  cases l with
  | nil =>
    rw [encrypt_nil hw hc] at h
    cases h
  | cons s rest =>
    rw [encrypt_cons hw hc] at h
    rcases hs : s.send ctx.provider p with e | ⟨c', s'⟩ <;> rw [hs] at h <;> cases h
    exact ⟨s, rest, s', rfl, hs, rfl⟩

theorem encrypt_error (hw : w.Holds ctx.provider cipher.remoteAddress l)
    (hc : cipher.insideCallback = false) {p : B} {e : SgError}
    (h : sessionCipherEncrypt ctx cipher p w = (.error e, w')) : w' = w := by
  cases l with
  | nil =>
    rw [encrypt_nil hw hc] at h
    cases h
    rfl
  | cons s rest =>
    rw [encrypt_cons hw hc] at h
    rcases hs : s.send ctx.provider p with e | ⟨c', s'⟩ <;> rw [hs] at h <;> cases h
    rfl

section Decrypt

variable [DecidableEq Pub] [DecidableEq B]

theorem decrypt_nil (hw : w.Holds ctx.provider cipher.remoteAddress [])
    (hc : cipher.insideCallback = false) (m : SignalMessage Pub B) :
    sessionCipherDecryptSignalMessage ctx cipher m w = (.error .noSession, w) := by
  simp only [sessionCipherDecryptSignalMessage, Threaded.sessionCipherDecryptSignalMessage,
    Program.run_eqs, run_drawing, Threaded.run_decryptFromRecord, Threaded.run_decryptCallback]
  unfold signalProtocolSessionContainsSession
  rw [Op.require_of hc, Op.pure_bind_apply, Op.bind_assoc, Op.get_bind_apply,
    show w.sessions cipher.remoteAddress = none from hw]
  rfl

/-- **Decrypting receives with any session**, and stores the result if the callback agrees. -/
theorem decrypt_cons {s : Session Priv Pub B} {rest : List (Session Priv Pub B)}
    (hw : w.Holds ctx.provider cipher.remoteAddress (s :: rest))
    (hr : ∀ t ∈ s :: rest, t.InRange) (hlen : rest.length ≤ archivedStatesMaxLength)
    (hc : cipher.Passive) (m : SignalMessage Pub B) :
    sessionCipherDecryptSignalMessage ctx cipher m w =
      match Session.receiveAny ctx.provider ctx.rng m (s :: rest) w.drawn with
      | (.error e, n) => (.error e, w.at n)
      | (.ok (p, s', i), n) =>
        match (sessionCipherDecryptCallback cipher p (w.at n)).1 with
        | .error e => (.error e, w.at n)
        | .ok _ =>
          (.ok p, w.put ctx.provider cipher.remoteAddress (s' :: (s :: rest).eraseIdx i) n) := by
  have hsome : (storedAs ctx.provider (s :: rest)).isSome = true := rfl
  simp only [sessionCipherDecryptSignalMessage, Threaded.sessionCipherDecryptSignalMessage,
    Program.run_eqs, run_drawing, Threaded.run_decryptFromRecord, Threaded.run_decryptCallback]
  unfold signalProtocolSessionContainsSession
  rw [Op.require_of hc.outside, Op.pure_bind_apply, Op.bind_assoc, Op.get_bind_apply,
    show w.sessions cipher.remoteAddress = storedAs ctx.provider (s :: rest) from hw,
    Op.pure_bind_apply, Op.require_of hsome, Op.pure_bind_apply, Op.bind_of_ok (load_holds hw)]
  have hdec := decryptFromRecord_recordOf ctx.provider ctx.rng false hr hlen m
  rw [loadedAs, hdec, Op.bind_apply, atRandom_apply, Op.bind_apply]
  rcases Session.receiveAny ctx.provider ctx.rng m (s :: rest) w.drawn with ⟨_ | ⟨p, s', i⟩, n⟩
  · rfl
  · simp only [Op.pure_apply]
    rcases hc.callback_cases p (w.at n) with hcb | ⟨e, hcb⟩
    · rw [hcb, Op.bind_of_ok hcb]
      rfl
    · rw [hcb, Op.bind_of_error hcb]

/-- **What a successful decryption did.** -/
theorem decrypt_ok (hw : w.Holds ctx.provider cipher.remoteAddress l)
    (hr : ∀ t ∈ l, t.InRange) (hlen : l.length ≤ archivedStatesMaxLength + 1)
    (hc : cipher.Passive) {m : SignalMessage Pub B} {p : B}
    (h : sessionCipherDecryptSignalMessage ctx cipher m w = (.ok p, w')) :
    ∃ s' i n, Session.receiveAny ctx.provider ctx.rng m l w.drawn = (.ok (p, s', i), n) ∧
      w' = w.put ctx.provider cipher.remoteAddress (s' :: l.eraseIdx i) n := by
  cases l with
  | nil =>
    rw [decrypt_nil hw hc.outside] at h
    cases h
  | cons s rest =>
    rw [decrypt_cons hw hr (Nat.le_of_succ_le_succ hlen) hc] at h
    rcases ha : Session.receiveAny ctx.provider ctx.rng m (s :: rest) w.drawn with
      ⟨_ | ⟨q, s', i⟩, n⟩ <;> rw [ha] at h
    · cases h
    · rcases hc.callback_cases q (w.at n) with hcb | ⟨e, hcb⟩ <;> simp only [hcb] at h <;> cases h
      exact ⟨s', i, n, rfl, rfl⟩

/-- **A failed decryption leaves the stores alone.** -/
theorem decrypt_error (hw : w.Holds ctx.provider cipher.remoteAddress l)
    (hr : ∀ t ∈ l, t.InRange) (hlen : l.length ≤ archivedStatesMaxLength + 1)
    (hc : cipher.Passive) {m : SignalMessage Pub B} {e : SgError}
    (h : sessionCipherDecryptSignalMessage ctx cipher m w = (.error e, w')) :
    ∃ n, w.drawn ≤ n ∧ w' = w.at n := by
  cases l with
  | nil =>
    rw [decrypt_nil hw hc.outside] at h
    cases h
    exact ⟨w.drawn, Nat.le_refl _, rfl⟩
  | cons s rest =>
    have hmoves := Session.receiveAny_moves ctx.provider ctx.rng m (s :: rest) w.drawn
    rw [decrypt_cons hw hr (Nat.le_of_succ_le_succ hlen) hc] at h
    rcases ha : Session.receiveAny ctx.provider ctx.rng m (s :: rest) w.drawn with
      ⟨_ | ⟨q, s', i⟩, n⟩ <;> rw [ha] at h hmoves
    · cases h
      exact ⟨n, hmoves, rfl⟩
    · rcases hc.callback_cases q (w.at n) with hcb | ⟨e, hcb⟩ <;> simp only [hcb] at h <;> cases h
      exact ⟨n, hmoves, rfl⟩

end Decrypt

end Operations

end SignalProtocol
