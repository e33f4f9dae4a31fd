/-
# The first keys of a session (`ratcheting_session_*_initialize`)

Alice derives the first root and chain key from her three or four agreements and at once makes
one ratchet step with a new key of her own.  Bob derives the same two keys from his ends of the
agreements and makes that step when the first message arrives.  `InitialAgreement` says that the
two then hold the same chains in opposite roles, and the same root key between Bob's two steps.

It holds for matching parameters, and for `symmetric_initialize`, where the byte order of the base
keys picks the roles.  The states may be any that have no receiver chains yet, as those are which
the session builder sets up.
-/
import SignalProtocol.Cipher
import SignalProtocol.Symbolic

namespace SignalProtocol

variable {Priv Pub B : Type}

/-! ## 1. What the two states share -/

section Agreement

variable [DecidableEq Pub]

/-- **The states agree.**  Alice's receiver chain for Bob's ratchet key is Bob's sender chain;
the receiver chain that Bob makes for Alice's ratchet key is her sender chain; and the root key
that he has at that point, from which his own next step starts, is hers. -/
def InitialAgreement (P : Provider Priv Pub B) (rng : Rng Priv B)
    (alice bob : SessionState Priv Pub B) : Prop :=
  ∃ (aliceRatchet bobRatchet : EcKeyPair Priv Pub) (aliceChain bobChain : RatchetChainKey B)
    (root bobRoot : RatchetRootKey B),
    alice.senderChain = some ⟨some aliceRatchet, some aliceChain⟩ ∧
    bob.senderChain = some ⟨some bobRatchet, some bobChain⟩ ∧
    alice.getReceiverChainKey bobRatchet.publicKey = some bobChain ∧
    alice.rootKey = some root ∧ bob.rootKey = some bobRoot ∧
    bobRoot.createChain P aliceRatchet.publicKey bobRatchet.privateKey = (root, aliceChain) ∧
    ∀ n next, rng.privateKey n = .ok next → ∃ bob',
      sessionCipherGetOrCreateChainKey P rng bob aliceRatchet.publicKey n =
        (.ok (aliceChain, bob'), n + 1) ∧
      bob'.getReceiverChainKey aliceRatchet.publicKey = some aliceChain ∧
      bob'.rootKey = some (root.createChain P aliceRatchet.publicKey next).1

/-- The only receiver chain is found. -/
theorem getReceiverChainKey_addReceiverChain (state : SessionState Priv Pub B)
    (h : state.receiverChains = []) (key : Pub) (chainKey : RatchetChainKey B) :
    (state.addReceiverChain key chainKey).getReceiverChainKey key = some chainKey := by
  rw [SessionState.getReceiverChainKey, SessionState.findReceiverChain,
    SessionState.addReceiverChain, h]
  simp [List.rtake, maxReceiverChains, ReceiverChain.isFor]

theorem getReceiverChainKey_of_empty {state : SessionState Priv Pub B}
    (h : state.receiverChains = []) (key : Pub) : state.getReceiverChainKey key = none := by
  rw [SessionState.getReceiverChainKey, SessionState.findReceiverChain, h]
  rfl

/-- **Bob's step for Alice's ratchet key**, in a state without receiver chains. -/
theorem getOrCreateChainKey_first {P : Provider Priv Pub B} {rng : Rng Priv B}
    (state : SessionState Priv Pub B) (hnone : state.receiverChains = [])
    {ours : EcKeyPair Priv Pub} {chainKey : RatchetChainKey B}
    (hsender : state.senderChain = some ⟨some ours, some chainKey⟩)
    {rootKey : RatchetRootKey B} (hroot : state.rootKey = some rootKey) (theirs : Pub) {n : Nat}
    {next : Priv} (hnext : rng.privateKey n = .ok next) :
    ∃ state', sessionCipherGetOrCreateChainKey P rng state theirs n =
        (.ok ((rootKey.createChain P theirs ours.privateKey).2, state'), n + 1) ∧
      state'.getReceiverChainKey theirs =
        some (rootKey.createChain P theirs ours.privateKey).2 ∧
      state'.rootKey = some ((rootKey.createChain P theirs ours.privateKey).1.createChain P theirs
        next).1 := by
  have hkey : state.getSenderRatchetKeyPair = some ours := by
    rw [SessionState.getSenderRatchetKeyPair, hsender]
    rfl
  have hchain : ∀ (root : RatchetRootKey B) (key : Pub) (ck : RatchetChainKey B),
      SessionState.getSenderChainKey (SessionState.addReceiverChain key ck
        { state with rootKey := some root }) = some chainKey := by
    intro root key ck
    rw [SessionState.getSenderChainKey, SessionState.addReceiverChain, hsender]
    rfl
  unfold sessionCipherGetOrCreateChainKey
  simp only [getReceiverChainKey_of_empty hnone, hroot, hkey, Op.ofOption_some,
    Op.pure_bind_apply, hchain]
  rw [Op.bind_of_ok (curveGenerateKeyPair_of_ok hnext)]
  refine ⟨_, rfl, ?_, rfl⟩
  exact getReceiverChainKey_addReceiverChain { state with rootKey := _ } hnone theirs _

/-! ## 2. Alice and Bob -/

theorem aliceInitialize_spec {P : Provider Priv Pub B} {rng : Rng Priv B}
    {state : SessionState Priv Pub B} (hnone : state.receiverChains = [])
    (a : AliceParameters Priv Pub) {n : Nat} {sending : Priv}
    (hdraw : rng.privateKey n = .ok sending) :
    ∃ state', ratchetingSessionAliceInitialize P rng state a n = (.ok state', n + 1) ∧
      state'.senderChain = some ⟨some (P.pair sending),
        some ((ratchetingSessionCalculateDerivedKeys P (a.secret P)).1.createChain P
          a.theirRatchetKey sending).2⟩ ∧
      state'.getReceiverChainKey a.theirRatchetKey =
        some (ratchetingSessionCalculateDerivedKeys P (a.secret P)).2 ∧
      state'.rootKey = some ((ratchetingSessionCalculateDerivedKeys P (a.secret P)).1.createChain P
        a.theirRatchetKey sending).1 := by
  unfold ratchetingSessionAliceInitialize
  rw [Op.bind_of_ok (curveGenerateKeyPair_of_ok hdraw)]
  refine ⟨_, rfl, rfl, ?_, rfl⟩
  exact getReceiverChainKey_addReceiverChain { state with sessionVersion := _ } hnone ..

/-- **Matching parameters give states that agree.** -/
theorem initialAgreement_of_matching {P : Provider Priv Pub B} {rngA : Rng Priv B}
    (rngB : Rng Priv B) {a : AliceParameters Priv Pub} {b : BobParameters Priv Pub}
    (h : Matching P a b) {alice bob : SessionState Priv Pub B} (halice : alice.receiverChains = [])
    (hbob : bob.receiverChains = []) {n : Nat} {sending : Priv}
    (hdraw : rngA.privateKey n = .ok sending) :
    ∃ alice', ratchetingSessionAliceInitialize P rngA alice a n = (.ok alice', n + 1) ∧
      InitialAgreement P rngB alice' (ratchetingSessionBobInitialize P bob b) := by
  obtain ⟨alice', hinit, hsender, hreceiver, hroot⟩ := aliceInitialize_spec (P := P) halice a hdraw
  have hagreement : P.agreement (P.pair sending).publicKey b.ourRatchetKey.privateKey =
      P.agreement a.theirRatchetKey sending := by
    have hsending : (P.pair sending).Matched P := rfl
    rw [h.theirRatchet]
    exact hsending.agreement_eq h.bobRatchet
  have hstep : (ratchetingSessionCalculateDerivedKeys P (b.secret P)).1.createChain P
      (P.pair sending).publicKey b.ourRatchetKey.privateKey =
      (ratchetingSessionCalculateDerivedKeys P (a.secret P)).1.createChain P a.theirRatchetKey
        sending := by
    rw [RatchetRootKey.createChain, RatchetRootKey.createChain, hagreement, h.secret_eq]
  refine ⟨alice', hinit, P.pair sending, b.ourRatchetKey, _, _, _, _, hsender, rfl, ?_, hroot, rfl,
    hstep, fun m next hnext => ?_⟩
  · rw [← h.theirRatchet, hreceiver, h.secret_eq]
  · obtain ⟨bob', hchain, hkey, hbobRoot⟩ := getOrCreateChainKey_first (P := P)
      (ratchetingSessionBobInitialize P bob b) hbob rfl rfl (P.pair sending).publicKey
      hnext
    rw [hstep] at hchain hkey hbobRoot
    exact ⟨bob', hchain, hkey, hbobRoot⟩

end Agreement

/-! ## 3. The symmetric exchange -/

/-- **Mirrored parameters**: each names the other's keys, and every pair is a pair. -/
structure Mirrored (P : Provider Priv Pub B) (p q : SymmetricParameters Priv Pub) : Prop where
  identity : p.ourIdentityKey.Matched P
  base : p.ourBaseKey.Matched P
  ratchet : p.ourRatchetKey.Matched P
  theirIdentity : p.theirIdentityKey = q.ourIdentityKey.publicKey
  theirBase : p.theirBaseKey = q.ourBaseKey.publicKey
  theirRatchet : p.theirRatchetKey = q.ourRatchetKey.publicKey

/-- In opposite roles, mirrored parameters match. -/
theorem Mirrored.matching {P : Provider Priv Pub B} {p q : SymmetricParameters Priv Pub}
    (hpq : Mirrored P p q) (hqp : Mirrored P q p) : Matching P p.asAlice q.asBob where
  aliceIdentity := hpq.identity
  aliceBase := hpq.base
  bobIdentity := hqp.identity
  bobSigned := hqp.base
  bobOneTime := fun _ hk => absurd hk (Option.not_mem_none _)
  bobRatchet := hqp.ratchet
  theirIdentityA := hpq.theirIdentity
  theirSigned := hpq.theirBase
  theirOneTime := rfl
  theirRatchet := hpq.theirRatchet
  theirIdentityB := hqp.theirIdentity
  theirBase := hqp.theirBase

section Symmetric

variable [LinearOrder Pub]

/-- Of two parties with different base keys one plays Alice and the other Bob. -/
theorem isAlice_mirrored {P : Provider Priv Pub B} {p q : SymmetricParameters Priv Pub}
    (hpq : Mirrored P p q) (hqp : Mirrored P q p)
    (hne : p.ourBaseKey.publicKey ≠ q.ourBaseKey.publicKey) :
    ratchetingSessionSymmetricIsAlice p = !ratchetingSessionSymmetricIsAlice q := by
  rw [ratchetingSessionSymmetricIsAlice, ratchetingSessionSymmetricIsAlice, hpq.theirBase,
    hqp.theirBase]
  rcases lt_or_gt_of_ne hne with h | h
  · rw [decide_eq_true h, decide_eq_false (not_lt.2 h.le)]
    rfl
  · rw [decide_eq_true h, decide_eq_false (not_lt.2 h.le)]
    rfl

/-- One direction: `p` plays Alice. -/
theorem symmetricAgreement_of_alice {P : Provider Priv Pub B} {rngP : Rng Priv B}
    (rngQ : Rng Priv B) {p q : SymmetricParameters Priv Pub} (hpq : Mirrored P p q)
    (hqp : Mirrored P q p) (hp : ratchetingSessionSymmetricIsAlice p = true)
    (hq : ratchetingSessionSymmetricIsAlice q = false) {sp sq : SessionState Priv Pub B}
    (hsp : sp.receiverChains = []) (hsq : sq.receiverChains = []) {n : Nat} {sending : Priv}
    (hdraw : rngP.privateKey n = .ok sending) (m : Nat) :
    ∃ sp' sq', ratchetingSessionSymmetricInitialize P rngP sp p n = (.ok sp', n + 1) ∧
      ratchetingSessionSymmetricInitialize P rngQ sq q m = (.ok sq', m) ∧
      InitialAgreement P rngQ sp' sq' := by
  obtain ⟨sp', hinit, hagree⟩ :=
    initialAgreement_of_matching rngQ (hpq.matching hqp) hsp hsq hdraw
  refine ⟨sp', _, ?_, ?_, hagree⟩
  · rw [ratchetingSessionSymmetricInitialize, if_pos hp]
    exact hinit
  · rw [ratchetingSessionSymmetricInitialize, if_neg (by simp [hq])]
    rfl

/-- **Initial key agreement.**  For all keys of the two parties: on matching parameters Alice and
Bob get states that agree; and on mirrored symmetric parameters with different base keys exactly
one of the two plays Alice, and the states agree in the same way. -/
theorem initial_key_agreement (P : Provider Priv Pub B) (rng rng' : Rng Priv B)
    (hrng : ∀ n, ∃ key, rng.privateKey n = .ok key)
    (hrng' : ∀ n, ∃ key, rng'.privateKey n = .ok key) (s s' : SessionState Priv Pub B)
    (hs : s.receiverChains = []) (hs' : s'.receiverChains = [])
    {a : AliceParameters Priv Pub} {b : BobParameters Priv Pub} (hab : Matching P a b)
    {p q : SymmetricParameters Priv Pub} (hpq : Mirrored P p q) (hqp : Mirrored P q p)
    (hne : p.ourBaseKey.publicKey ≠ q.ourBaseKey.publicKey) (n m : Nat) :
    (∃ alice, ratchetingSessionAliceInitialize P rng s a n = (.ok alice, n + 1) ∧
        InitialAgreement P rng' alice (ratchetingSessionBobInitialize P s' b)) ∧
      ∃ sp sq n' m', ratchetingSessionSymmetricInitialize P rng s p n = (.ok sp, n') ∧
        ratchetingSessionSymmetricInitialize P rng' s' q m = (.ok sq, m') ∧
        (ratchetingSessionSymmetricIsAlice p = true ∧
            ratchetingSessionSymmetricIsAlice q = false ∧ InitialAgreement P rng' sp sq ∨
          ratchetingSessionSymmetricIsAlice p = false ∧
            ratchetingSessionSymmetricIsAlice q = true ∧ InitialAgreement P rng sq sp) := by
  obtain ⟨sending, hsending⟩ := hrng n
  obtain ⟨sending', hsending'⟩ := hrng' m
  refine ⟨initialAgreement_of_matching rng' hab hs hs' hsending, ?_⟩
  have hroles := isAlice_mirrored hpq hqp hne
  cases hq : ratchetingSessionSymmetricIsAlice q with
  | false =>
    rw [hq] at hroles
    obtain ⟨sp, sq, hsp, hsq, hagree⟩ := symmetricAgreement_of_alice rng' hpq hqp hroles
      hq hs hs' hsending m
    exact ⟨sp, sq, _, _, hsp, hsq, .inl ⟨hroles, rfl, hagree⟩⟩
  | true =>
    rw [hq] at hroles
    obtain ⟨sq, sp, hsq, hsp, hagree⟩ := symmetricAgreement_of_alice rng hqp hpq hq
      hroles hs' hs hsending' n
    exact ⟨sp, sq, _, _, hsp, hsq, .inr ⟨hroles, rfl, hagree⟩⟩

/-- Symmetric parameters of the party with keys from `ours` on, with the one from `theirs` on. -/
def sampleSymmetric (ours theirs : Nat) : SymmetricParameters Nat Nat where
  ourIdentityKey := symbolic.pair ours
  ourBaseKey := symbolic.pair (ours + 1)
  ourRatchetKey := symbolic.pair (ours + 2)
  theirBaseKey := theirs + 1
  theirRatchetKey := theirs + 2
  theirIdentityKey := theirs

theorem sampleSymmetric_mirrored (ours theirs : Nat) :
    Mirrored symbolic (sampleSymmetric ours theirs) (sampleSymmetric theirs ours) :=
  ⟨rfl, rfl, rfl, rfl, rfl, rfl⟩

theorem initial_key_agreement_two_parties :
    (∃ alice, ratchetingSessionAliceInitialize symbolic (symbolicRng 100 1) SessionState.create
          (sampleSymmetric 1 11).asAlice 0 = (.ok alice, 1) ∧
        InitialAgreement symbolic (symbolicRng 101 2) alice
          (ratchetingSessionBobInitialize symbolic SessionState.create
            (sampleSymmetric 11 1).asBob)) ∧
      (sampleSymmetric 1 11).ourBaseKey.publicKey ≠ (sampleSymmetric 11 1).ourBaseKey.publicKey :=
  have hagreement := initial_key_agreement symbolic (symbolicRng 100 1) (symbolicRng 101 2)
    (fun _ => ⟨_, rfl⟩) (fun _ => ⟨_, rfl⟩) SessionState.create SessionState.create rfl rfl
    ((sampleSymmetric_mirrored 1 11).matching (sampleSymmetric_mirrored 11 1))
    (sampleSymmetric_mirrored 1 11) (sampleSymmetric_mirrored 11 1) (by decide) 0 0
  ⟨hagreement.1, by decide⟩

end Symmetric

end SignalProtocol
