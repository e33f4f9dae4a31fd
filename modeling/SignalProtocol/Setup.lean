/-
# Setting up a session asynchronously

The two ways in which a session comes to exist without an answer from the other side, as
operations on the list of sessions that the store holds for an address:

* `bundle_ok`: processing a pre-key bundle puts a session in Alice's role in front of the 40
  most recent ones;
* `decryptPreKey_eq`: a pre-key message with a new base key puts a session in Bob's role in
  front, and then the inner message is received with whichever session accepts it.

Both come with what a call that fails may have changed.  For a bundle that is nothing but the
random source; for a pre-key message it is also the saved identity.
-/
import SignalProtocol.Book

namespace SignalProtocol

variable {Addr Priv Pub B : Type}

/-! ## 1. Pre-key bundles -/

section Bundle

variable [DecidableEq Addr] {ctx : SignalContext Addr Priv Pub B} {address : Addr}
  {l : List (Session Priv Pub B)} {w w' : World Addr Priv Pub B}

/-- The parameters with which a bundle is processed. -/
def bundleParameters (identityKeyPair : EcKeyPair Priv Pub) (bundle : PreKeyBundle Pub B)
    (identity signedPreKey : Pub) (base : EcKeyPair Priv Pub) : AliceParameters Priv Pub where
  ourIdentityKey := identityKeyPair
  ourBaseKey := base
  theirIdentityKey := identity
  theirSignedPreKey := signedPreKey
  theirOneTimePreKey := bundle.preKeyPublic
  theirRatchetKey := signedPreKey

/-- The session that processing a bundle sets up. -/
def Session.initiated (P : Provider Priv Pub B) (store : Store Addr Priv Pub B)
    (bundle : PreKeyBundle Pub B) (identity signedPreKey : Pub) (base sending : Priv) :
    Session Priv Pub B :=
  { Session.alice P
      (bundleParameters store.identityKeyPair bundle identity signedPreKey (P.pair base))
      sending with
    pendingPreKey := some ⟨bundle.preKeyPublic.map fun _ => bundle.preKeyId,
      bundle.signedPreKeyId, some (P.publicKey base)⟩
    localRegistrationId := store.localRegistrationId
    remoteRegistrationId := bundle.registrationId
    aliceBaseKey := some (P.publicKey base) }

/-- The world in which an identity is saved for the address. -/
def World.saveIdentity (address : Addr) (identity : Pub) (w : World Addr Priv Pub B) :
    World Addr Priv Pub B :=
  { w with identities := Function.update w.identities address (some identity) }

/-- The checks that a bundle passes before anything is changed. -/
structure BundleAccepted (ctx : SignalContext Addr Priv Pub B) (address : Addr)
    (bundle : PreKeyBundle Pub B) (w : World Addr Priv Pub B) (identity signedPreKey : Pub) :
    Prop where
  identity_eq : bundle.identityKey = some identity
  trusted : ctx.trusted address (w.identities address) identity = true
  signed : bundle.checkedSignedPreKey ctx.provider identity = .ok signedPreKey

omit [DecidableEq Addr] in
theorem isTrusted_of {key : Option Pub} {identity : Pub} (hkey : key = some identity)
    (ht : ctx.trusted address (w.identities address) identity = true) :
    signalProtocolIdentityIsTrustedIdentity ctx address key w = (.ok true, w) := by
  unfold signalProtocolIdentityIsTrustedIdentity
  rw [hkey, Op.ofOption_some, Op.pure_bind_apply, Op.get_bind_apply, ht]
  rfl

/-- **Processing a bundle** that passes its checks draws two keys and puts a new session in
front. -/
theorem bundle_accepted (hw : w.Holds ctx.provider address l) {bundle : PreKeyBundle Pub B}
    {identity signedPreKey : Pub}
    (ha : BundleAccepted ctx address bundle w identity signedPreKey) :
    sessionBuilderProcessPreKeyBundle ctx address bundle w =
      match ctx.rng.privateKey w.drawn with
      | .error e => (.error e, w.at (w.drawn + 1))
      | .ok base =>
        match ctx.rng.privateKey (w.drawn + 1) with
        | .error e => (.error e, w.at (w.drawn + 2))
        | .ok sending =>
          (.ok (), (w.put ctx.provider address
            (Session.initiated ctx.provider w.toStore bundle identity signedPreKey base sending ::
              l.take archivedStatesMaxLength) (w.drawn + 2)).saveIdentity address identity) := by
  have htrust : signalProtocolIdentityIsTrustedIdentity ctx address bundle.identityKey w =
      (.ok true, w) := isTrusted_of ha.identity_eq ha.trusted
  simp only [sessionBuilderProcessPreKeyBundle, Threaded.sessionBuilderProcessPreKeyBundle,
    Program.run_eqs]
  rw [Op.bind_of_ok htrust, Op.require_of rfl, Op.pure_bind_apply, ha.identity_eq,
    Op.ofOption_some, Op.pure_bind_apply, ha.signed, Op.ofExcept_ok, Op.pure_bind_apply,
    Op.bind_of_ok (load_holds hw)]
  cases hb : ctx.rng.privateKey w.drawn with
  | error e => exact Op.bind_of_error (atRandom_of (curveGenerateKeyPair_of_error hb))
  | ok base =>
    rw [Op.bind_of_ok (atRandom_of (curveGenerateKeyPair_of_ok hb)),
      Op.bind_of_ok (show signalProtocolIdentityGetKeyPair (w.at (w.drawn + 1)) =
        (.ok w.identityKeyPair, w.at (w.drawn + 1)) from rfl)]
    cases hk : ctx.rng.privateKey (w.drawn + 1) with
    | error e =>
      simp only [makeRoom_state]
      exact Op.bind_of_error (atRandom_of (Session.aliceInitialize_of_error _ hk))
    | ok sending =>
      simp only [makeRoom_state]
      rw [Op.bind_of_ok (atRandom_of (Session.aliceInitialize_of_ok _ hk))]
      show (signalProtocolSessionStoreSession ctx.provider address
        ((loadedAs ctx.provider l).makeRoom.setState ((Session.initiated ctx.provider w.toStore
          bundle identity signedPreKey base sending).toState ctx.provider)) >>= fun _ =>
            signalProtocolIdentitySaveIdentity address identity) (w.at (w.drawn + 2)) = _
      rw [makeRoom_setState]
      rfl

/-- A bundle that does not pass its checks is refused before anything is changed. -/
theorem bundle_cases (ctx : SignalContext Addr Priv Pub B) (address : Addr)
    (bundle : PreKeyBundle Pub B) (w : World Addr Priv Pub B) :
    (∃ identity signedPreKey, BundleAccepted ctx address bundle w identity signedPreKey) ∨
      ∃ e, sessionBuilderProcessPreKeyBundle ctx address bundle w = (.error e, w) := by
  simp only [sessionBuilderProcessPreKeyBundle, Threaded.sessionBuilderProcessPreKeyBundle,
    Program.run_eqs]
  unfold signalProtocolIdentityIsTrustedIdentity
  cases hi : bundle.identityKey with
  | none => exact Or.inr ⟨.inval, rfl⟩
  | some identity =>
    simp only [Op.ofOption_some, Op.pure_bind_apply, Op.bind_assoc, Op.get_bind_apply]
    by_cases ht : ctx.trusted address (w.identities address) identity = true
    · rw [Op.require_of ht, Op.pure_bind_apply]
      cases hs : bundle.checkedSignedPreKey ctx.provider identity with
      | error e => exact Or.inr ⟨e, rfl⟩
      | ok signedPreKey => exact Or.inl ⟨identity, signedPreKey, hi, ht, hs⟩
    · rw [Op.require_of_not ht]
      exact Or.inr ⟨.untrustedIdentity, rfl⟩

/-- **What a successfully processed bundle did.** -/
theorem bundle_ok (hw : w.Holds ctx.provider address l) {bundle : PreKeyBundle Pub B} {u : Unit}
    (h : sessionBuilderProcessPreKeyBundle ctx address bundle w = (.ok u, w')) :
    ∃ identity signedPreKey base sending,
      BundleAccepted ctx address bundle w identity signedPreKey ∧
      ctx.rng.privateKey w.drawn = .ok base ∧ ctx.rng.privateKey (w.drawn + 1) = .ok sending ∧
      w' = (w.put ctx.provider address
        (Session.initiated ctx.provider w.toStore bundle identity signedPreKey base sending ::
          l.take archivedStatesMaxLength) (w.drawn + 2)).saveIdentity address identity := by
  rcases bundle_cases ctx address bundle w with
    ⟨identity, signedPreKey, ha⟩ | ⟨e, he⟩
  · rw [bundle_accepted hw ha] at h
    cases hb : ctx.rng.privateKey w.drawn with
    | error e => rw [hb] at h; cases h
    | ok base =>
      cases hk : ctx.rng.privateKey (w.drawn + 1) with
      | error e => simp only [hb, hk] at h; cases h
      | ok sending =>
        simp only [hb, hk] at h
        cases h
        exact ⟨identity, signedPreKey, base, sending, ha, rfl, rfl, rfl⟩
  · rw [he] at h
    cases h

/-- **A bundle that fails leaves the stores alone.** -/
theorem bundle_error (hw : w.Holds ctx.provider address l) {bundle : PreKeyBundle Pub B}
    {e : SgError} (h : sessionBuilderProcessPreKeyBundle ctx address bundle w = (.error e, w')) :
    ∃ n, w.drawn ≤ n ∧ w' = w.at n := by
  rcases bundle_cases ctx address bundle w with
    ⟨identity, signedPreKey, ha⟩ | ⟨e, he⟩
  · rw [bundle_accepted hw ha] at h
    cases hb : ctx.rng.privateKey w.drawn with
    | error e =>
      rw [hb] at h
      cases h
      exact ⟨w.drawn + 1, Nat.le_succ _, rfl⟩
    | ok base =>
      cases hk : ctx.rng.privateKey (w.drawn + 1) with
      | error e =>
        simp only [hb, hk] at h
        cases h
        exact ⟨w.drawn + 2, Nat.le_add_right _ _, rfl⟩
      | ok sending => simp only [hb, hk] at h; cases h
  · rw [he] at h
    cases h
    exact ⟨w.drawn, Nat.le_refl _, rfl⟩

end Bundle

/-! ## 2. Preparing for a pre-key message -/

section Prepare

/-- The parameters with which a pre-key message is answered. -/
def responseParameters (identityKeyPair signedPreKey : EcKeyPair Priv Pub)
    (oneTimePreKey : Option (EcKeyPair Priv Pub)) (m : PreKeySignalMessage Pub B) :
    BobParameters Priv Pub where
  ourIdentityKey := identityKeyPair
  ourSignedPreKey := signedPreKey
  ourOneTimePreKey := oneTimePreKey
  ourRatchetKey := signedPreKey
  theirIdentityKey := m.identityKey
  theirBaseKey := m.baseKey

/-- The session that a pre-key message sets up. -/
def Session.responded (P : Provider Priv Pub B) (store : Store Addr Priv Pub B)
    (signedPreKey : EcKeyPair Priv Pub) (oneTimePreKey : Option (EcKeyPair Priv Pub))
    (m : PreKeySignalMessage Pub B) : Session Priv Pub B :=
  { Session.bob P (responseParameters store.identityKeyPair signedPreKey oneTimePreKey m) with
    localRegistrationId := store.localRegistrationId
    remoteRegistrationId := m.registrationId
    aliceBaseKey := some m.baseKey }

theorem Session.inRange_responded (P : Provider Priv Pub B) (store : Store Addr Priv Pub B)
    (signedPreKey : EcKeyPair Priv Pub) (oneTimePreKey : Option (EcKeyPair Priv Pub))
    (m : PreKeySignalMessage Pub B) :
    (Session.responded P store signedPreKey oneTimePreKey m).InRange :=
  have h : (Session.bob P (responseParameters store.identityKeyPair signedPreKey oneTimePreKey
    m)).InRange := Session.inRange_bob _
  ⟨h.sender, h.receivers⟩

variable [LinearOrder Pub]

/-- Some session was set up from this base key. -/
def Known (l : List (Session Priv Pub B)) (m : PreKeySignalMessage Pub B) : Prop :=
  m.version = 3 ∧ ∃ s ∈ l, s.aliceBaseKey = some m.baseKey

instance (l : List (Session Priv Pub B)) (m : PreKeySignalMessage Pub B) :
    Decidable (Known l m) :=
  inferInstanceAs (Decidable (_ ∧ _))

/-- **The sessions against which the inner message is tried**, and the one-time pre key that
was used: the old sessions if the base key is known, otherwise a new one before them. -/
def prepare (P : Provider Priv Pub B) (store : Store Addr Priv Pub B)
    (l : List (Session Priv Pub B)) (m : PreKeySignalMessage Pub B) :
    Except SgError (List (Session Priv Pub B) × Option UInt32) :=
  if Known l m then .ok (l, none)
  else
    match store.signedPreKeys m.signedPreKeyId, m.preKeyId with
    | none, _ => .error .invalidKeyId
    | some signedPreKey, none =>
      .ok (Session.responded P store signedPreKey none m :: l.take archivedStatesMaxLength, none)
    | some signedPreKey, some preKeyId =>
      match store.preKeys preKeyId with
      | none => .error .invalidKeyId
      | some oneTimePreKey =>
        .ok (Session.responded P store signedPreKey (some oneTimePreKey) m ::
          l.take archivedStatesMaxLength,
          (some preKeyId).filter fun preKeyId => preKeyId ≠ preKeyMediumMaxValue)

/-- **What preparing can do.** -/
theorem prepare_ok {P : Provider Priv Pub B} {store : Store Addr Priv Pub B}
    {l l₁ : List (Session Priv Pub B)} {m : PreKeySignalMessage Pub B} {used : Option UInt32}
    (h : prepare P store l m = .ok (l₁, used)) :
    (Known l m ∧ l₁ = l ∧ used = none) ∨
      (¬ Known l m ∧ ∃ signedPreKey oneTimePreKey,
        store.signedPreKeys m.signedPreKeyId = some signedPreKey ∧
        l₁ = Session.responded P store signedPreKey oneTimePreKey m ::
          l.take archivedStatesMaxLength) := by
  unfold prepare at h
  split at h
  · rename_i hk
    cases h
    exact Or.inl ⟨hk, rfl, rfl⟩
  · rename_i hk
    refine Or.inr ⟨hk, ?_⟩
    cases hs : store.signedPreKeys m.signedPreKeyId with
    | none => simp only [hs] at h; cases h
    | some signedPreKey =>
      cases hp : m.preKeyId with
      | none =>
        simp only [hs, hp] at h
        cases h
        exact ⟨signedPreKey, none, rfl, rfl⟩
      | some preKeyId =>
        cases ho : store.preKeys preKeyId with
        | none => simp only [hs, hp, ho] at h; cases h
        | some oneTimePreKey =>
          simp only [hs, hp, ho] at h
          cases h
          exact ⟨signedPreKey, some oneTimePreKey, rfl, rfl⟩

theorem length_prepare {P : Provider Priv Pub B} {store : Store Addr Priv Pub B}
    {l l₁ : List (Session Priv Pub B)} {m : PreKeySignalMessage Pub B}
    {used : Option UInt32}
    (hlen : l.length ≤ archivedStatesMaxLength + 1)
    (h : prepare P store l m = .ok (l₁, used)) : l₁.length ≤ archivedStatesMaxLength + 1 := by
  rcases prepare_ok h with ⟨-, rfl, -⟩ | ⟨-, _, _, -, rfl⟩
  · exact hlen
  · rw [List.length_cons]
    exact Nat.succ_le_succ (List.length_take_le ..)

theorem inRange_prepare {P : Provider Priv Pub B} {store : Store Addr Priv Pub B}
    {l l₁ : List (Session Priv Pub B)} {m : PreKeySignalMessage Pub B}
    {used : Option UInt32} (hr : ∀ t ∈ l, t.InRange)
    (h : prepare P store l m = .ok (l₁, used)) : ∀ t ∈ l₁, t.InRange := by
  rcases prepare_ok h with ⟨-, rfl, -⟩ | ⟨-, signedPreKey, oneTimePreKey, -, rfl⟩
  · exact hr
  · intro t ht
    rcases List.mem_cons.1 ht with rfl | ht
    · exact Session.inRange_responded ..
    · exact hr t (List.mem_of_mem_take ht)

theorem hasSessionState_loadedAs (P : Provider Priv Pub B) (l : List (Session Priv Pub B))
    (m : PreKeySignalMessage Pub B) :
    (loadedAs P l).hasSessionState m.version.toUInt32 m.baseKey = decide (Known l m) := by
  rw [Bool.eq_iff_iff, decide_eq_true_iff]
  cases l with
  | nil =>
    simp [loadedAs, SessionRecord.create, SessionRecord.hasSessionState, SessionRecord.states,
      SessionState.create, Known]
  | cons s rest =>
    have hstates : (loadedAs P (s :: rest)).states = (s :: rest).map (Session.toState P) := rfl
    rw [SessionRecord.hasSessionState, hstates, List.any_map, List.any_eq_true, Known]
    constructor
    · rintro ⟨t, ht, h⟩
      obtain ⟨hv, hb⟩ := of_decide_eq_true h
      exact ⟨(toUInt32_eq_three _).1 hv.symm, t, ht, hb⟩
    · rintro ⟨hv, t, ht, hb⟩
      exact ⟨t, ht, decide_eq_true ⟨((toUInt32_eq_three _).2 hv).symm, hb⟩⟩

end Prepare

/-! ## 3. The pre keys of the store -/

section PreKeys

variable {w : World Addr Priv Pub B}

theorem loadOneTimePreKey_of_none {preKeyId : UInt32} (h : w.preKeys preKeyId = none) :
    loadOneTimePreKey (some preKeyId) w = (.error .invalidKeyId, w) := by
  refine Op.bind_of_error (?_ : signalProtocolPreKeyLoadKey preKeyId w = _)
  rw [signalProtocolPreKeyLoadKey, Op.get_bind_apply, h]
  rfl

theorem loadOneTimePreKey_of_some {preKeyId : UInt32} {key : EcKeyPair Priv Pub}
    (h : w.preKeys preKeyId = some key) :
    loadOneTimePreKey (some preKeyId) w = (.ok (some key), w) := by
  refine (Op.bind_of_ok (?_ : signalProtocolPreKeyLoadKey preKeyId w = _)).trans rfl
  rw [signalProtocolPreKeyLoadKey, Op.get_bind_apply, h]
  rfl

theorem loadOneTimePreKey_world {preKeyId : Option UInt32} {w' : World Addr Priv Pub B}
    {r : Except SgError (Option (EcKeyPair Priv Pub))}
    (h : loadOneTimePreKey preKeyId w = (r, w')) : w' = w := by
  cases preKeyId with
  | none => cases h; rfl
  | some preKeyId =>
    cases hk : w.preKeys preKeyId with
    | none => rw [loadOneTimePreKey_of_none hk] at h; cases h; rfl
    | some key => rw [loadOneTimePreKey_of_some hk] at h; cases h; rfl

theorem loadSigned_world {signedPreKeyId : UInt32} {w' : World Addr Priv Pub B}
    {r : Except SgError (EcKeyPair Priv Pub)}
    (h : signalProtocolSignedPreKeyLoadKey signedPreKeyId w = (r, w')) : w' = w := by
  cases hk : w.signedPreKeys signedPreKeyId <;>
    simp only [signalProtocolSignedPreKeyLoadKey, Op.get_bind_apply, hk] at h <;> cases h <;> rfl

/-- The world after the one-time pre key that was used is gone. -/
def World.dropPreKey (w : World Addr Priv Pub B) : Option UInt32 → World Addr Priv Pub B
  | none => w
  | some preKeyId => { w with preKeys := Function.update w.preKeys preKeyId none }

theorem removeOneTimePreKey_apply (used : Option UInt32) (w : World Addr Priv Pub B) :
    removeOneTimePreKey used w = (.ok (), w.dropPreKey used) := by
  cases used <;> rfl

end PreKeys

/-! ## 4. Decrypting a pre-key message -/

section PreKey

variable [LinearOrder Pub]

/-- **The builder's half of a pre-key message.** -/
theorem processV3_loadedAs (ctx : SignalContext Addr Priv Pub B)
    (l : List (Session Priv Pub B)) (m : PreKeySignalMessage Pub B)
    (w : World Addr Priv Pub B) :
    match prepare ctx.provider w.toStore l m with
    | .error e => sessionBuilderProcessPreKeySignalMessageV3 ctx (loadedAs ctx.provider l) m w =
        (.error e, w)
    | .ok (l₁, used) => ∃ isFresh s rest, l₁ = s :: rest ∧
        sessionBuilderProcessPreKeySignalMessageV3 ctx (loadedAs ctx.provider l) m w =
          (.ok (recordOf ctx.provider isFresh s rest, used), w) := by
  simp only [sessionBuilderProcessPreKeySignalMessageV3,
    Threaded.sessionBuilderProcessPreKeySignalMessageV3, Program.run_eqs]
  unfold prepare
  rw [hasSessionState_loadedAs]
  by_cases hk : Known l m
  · rw [if_pos hk, if_pos (decide_eq_true hk)]
    obtain ⟨-, s, hs, -⟩ := hk
    cases l with
    | nil => cases hs
    | cons t rest => exact ⟨false, t, rest, rfl, rfl⟩
  · rw [if_neg hk, if_neg (by rw [decide_eq_true_iff]; exact hk)]
    have hid : signalProtocolIdentityGetKeyPair w = (.ok w.identityKeyPair, w) := rfl
    simp only [makeRoom_state]
    unfold signalProtocolSignedPreKeyLoadKey
    rw [Op.bind_assoc, Op.get_bind_apply]
    cases hs : w.signedPreKeys m.signedPreKeyId with
    | none => rfl
    | some signedPreKey =>
      cases hp : m.preKeyId with
      | none =>
        refine ⟨l.isEmpty, _, _, rfl, ?_⟩
        rw [← makeRoom_setState]
        rfl
      | some preKeyId =>
        cases ho : w.preKeys preKeyId with
        | none =>
          simp only [ho]
          rw [Op.ofOption_some, Op.pure_bind_apply, Op.bind_of_ok hid,
            Op.bind_of_error (loadOneTimePreKey_of_none ho)]
        | some oneTimePreKey =>
          simp only [ho]
          refine ⟨l.isEmpty, _, _, rfl, ?_⟩
          rw [← makeRoom_setState, Op.ofOption_some, Op.pure_bind_apply, Op.bind_of_ok hid,
            Op.bind_of_ok (loadOneTimePreKey_of_some ho)]
          rfl

variable [DecidableEq Addr] [DecidableEq B] {ctx : SignalContext Addr Priv Pub B}
  {cipher : SessionCipher Addr Priv Pub B} {l : List (Session Priv Pub B)}
  {w w' : World Addr Priv Pub B}

/-- **Decrypting a pre-key message**, step by step: trust, preparing, saving the identity,
receiving the inner message, the callback, and only then the session and the pre key store. -/
theorem decryptPreKey_eq (hw : w.Holds ctx.provider cipher.remoteAddress l)
    (hr : ∀ t ∈ l, t.InRange) (hlen : l.length ≤ archivedStatesMaxLength + 1)
    (hc : cipher.Passive) (m : PreKeySignalMessage Pub B) :
    sessionCipherDecryptPreKeySignalMessage ctx cipher m w =
      if ctx.trusted cipher.remoteAddress (w.identities cipher.remoteAddress) m.identityKey then
        match prepare ctx.provider w.toStore l m with
        | .error e => (.error e, w)
        | .ok (l₁, used) =>
          let w₁ := w.saveIdentity cipher.remoteAddress m.identityKey
          match Session.receiveAny ctx.provider ctx.rng m.message l₁ w.drawn with
          | (.error e, n) => (.error e, w₁.at n)
          | (.ok (p, s', i), n) =>
            match (sessionCipherDecryptCallback cipher p (w₁.at n)).1 with
            | .error e => (.error e, w₁.at n)
            | .ok _ => (.ok p,
                (w₁.put ctx.provider cipher.remoteAddress (s' :: l₁.eraseIdx i) n).dropPreKey used)
      else (.error .untrustedIdentity, w) := by
  simp only [sessionCipherDecryptPreKeySignalMessage,
    Threaded.sessionCipherDecryptPreKeySignalMessage,
    Threaded.sessionBuilderProcessPreKeySignalMessage, Program.run_eqs, run_drawing,
    Threaded.run_decryptFromRecord, Threaded.run_decryptCallback,
    Threaded.run_processPreKeySignalMessageV3]
  unfold signalProtocolIdentityIsTrustedIdentity
  rw [Op.require_of hc.outside, Op.pure_bind_apply, Op.bind_of_ok (load_holds hw)]
  simp only [Op.ofOption_some, Op.pure_bind_apply, Op.bind_assoc, Op.get_bind_apply]
  split
  · rename_i ht
    rw [Op.require_of ht, Op.pure_bind_apply]
    have hv3 := processV3_loadedAs ctx l m w
    cases hp : prepare ctx.provider w.toStore l m with
    | error e =>
      rw [hp] at hv3
      exact Op.bind_of_error hv3
    | ok r =>
      obtain ⟨l₁, used⟩ := r
      rw [hp] at hv3
      obtain ⟨isFresh, s, rest, rfl, hv⟩ := hv3
      rw [Op.bind_of_ok hv]
      have hlen₁ := length_prepare hlen hp
      have hdec := decryptFromRecord_recordOf ctx.provider ctx.rng isFresh
        (inRange_prepare hr hp) (Nat.le_of_succ_le_succ hlen₁) m.message
      rw [Op.bind_of_ok (show signalProtocolIdentitySaveIdentity cipher.remoteAddress m.identityKey
        w = (.ok (), w.saveIdentity cipher.remoteAddress m.identityKey) from rfl), hdec,
        Op.bind_apply, atRandom_apply, Op.bind_apply]
      have hdrawn : (w.saveIdentity cipher.remoteAddress m.identityKey).drawn = w.drawn := rfl
      simp only [hdrawn]
      rcases Session.receiveAny ctx.provider ctx.rng m.message (s :: rest) w.drawn with
        ⟨_ | ⟨p, s', i⟩, n⟩
      · rfl
      · simp only [Op.pure_apply]
        rcases hc.callback_cases p ((w.saveIdentity cipher.remoteAddress m.identityKey).at n)
          with hcb | ⟨e, hcb⟩
        · rw [hcb, Op.bind_of_ok hcb, Op.bind_of_ok (store_recordOf ..),
            Op.bind_of_ok (removeOneTimePreKey_apply ..)]
          rfl
        · rw [hcb, Op.bind_of_error hcb]
  · rename_i ht
    rw [Op.require_of_not ht]
    rfl

/-- **What a successfully decrypted pre-key message did.** -/
theorem decryptPreKey_ok (hw : w.Holds ctx.provider cipher.remoteAddress l)
    (hr : ∀ t ∈ l, t.InRange) (hlen : l.length ≤ archivedStatesMaxLength + 1)
    (hc : cipher.Passive) {m : PreKeySignalMessage Pub B} {p : B}
    (h : sessionCipherDecryptPreKeySignalMessage ctx cipher m w = (.ok p, w')) :
    ∃ l₁ used s' i n, prepare ctx.provider w.toStore l m = .ok (l₁, used) ∧
      Session.receiveAny ctx.provider ctx.rng m.message l₁ w.drawn = (.ok (p, s', i), n) ∧
      w' = ((w.saveIdentity cipher.remoteAddress m.identityKey).put ctx.provider
        cipher.remoteAddress (s' :: l₁.eraseIdx i) n).dropPreKey used := by
  rw [decryptPreKey_eq hw hr hlen hc] at h
  split at h
  · rcases hp : prepare ctx.provider w.toStore l m with e | ⟨l₁, used⟩
    · simp only [hp] at h
      cases h
    · rcases ha : Session.receiveAny ctx.provider ctx.rng m.message l₁ w.drawn with
        ⟨_ | ⟨q, s', i⟩, n⟩ <;> simp only [hp, ha] at h
      · cases h
      · rcases hc.callback_cases q ((w.saveIdentity cipher.remoteAddress m.identityKey).at n)
          with hcb | ⟨e, hcb⟩ <;> simp only [hcb] at h <;> cases h
        exact ⟨l₁, used, s', i, n, rfl, ha, rfl⟩
  · cases h

/-- **A pre-key message that fails** changes at most the saved identity. -/
theorem decryptPreKey_error (hw : w.Holds ctx.provider cipher.remoteAddress l)
    (hr : ∀ t ∈ l, t.InRange) (hlen : l.length ≤ archivedStatesMaxLength + 1)
    (hc : cipher.Passive) {m : PreKeySignalMessage Pub B} {e : SgError}
    (h : sessionCipherDecryptPreKeySignalMessage ctx cipher m w = (.error e, w')) :
    ∃ n, w.drawn ≤ n ∧
      (w' = w.at n ∨ w' = (w.saveIdentity cipher.remoteAddress m.identityKey).at n) := by
  rw [decryptPreKey_eq hw hr hlen hc] at h
  split at h
  · rcases hp : prepare ctx.provider w.toStore l m with e | ⟨l₁, used⟩
    · simp only [hp] at h
      cases h
      exact ⟨w.drawn, Nat.le_refl _, Or.inl rfl⟩
    · have hmoves := Session.receiveAny_moves ctx.provider ctx.rng m.message l₁ w.drawn
      rcases ha : Session.receiveAny ctx.provider ctx.rng m.message l₁ w.drawn with
        ⟨_ | ⟨q, s', i⟩, n⟩ <;> simp only [hp, ha] at h <;> rw [ha] at hmoves
      · cases h
        exact ⟨n, hmoves, Or.inr rfl⟩
      · rcases hc.callback_cases q ((w.saveIdentity cipher.remoteAddress m.identityKey).at n)
          with hcb | ⟨e, hcb⟩ <;> simp only [hcb] at h <;> cases h
        exact ⟨n, hmoves, Or.inr rfl⟩
  · cases h
    exact ⟨w.drawn, Nat.le_refl _, Or.inl rfl⟩

end PreKey

end SignalProtocol
