/-
# Pre-key bundles (`session_pre_key.c`, `session_builder.c`)

`session_pre_key_bundle_create` takes every key and the signature as optional, and keeps a
signature only if it has bytes.  `session_builder_process_pre_key_bundle` checks for a missing
identity and for a missing signed pre key, but it passes the signature on without looking.  A
trusted identity with a signed pre key and no signature makes it read through a null pointer.

In every other case the bundle is accepted exactly if it is authentic, and otherwise refused with
an error and without a change to the stores.
-/
import SignalProtocol.SenderKeys

namespace SignalProtocol

variable {Addr Priv Pub B : Type}

/-! ## 1. Making a bundle -/

/-- `session_pre_key_bundle_create`.  A signature of length 0 counts as none. -/
def sessionPreKeyBundleCreate (P : Provider Priv Pub B) (registrationId preKeyId : UInt32)
    (preKeyPublic : Option Pub) (signedPreKeyId : UInt32) (signedPreKeyPublic : Option Pub)
    (signedPreKeySignature : Option B) (identityKey : Option Pub) : PreKeyBundle Pub B where
  registrationId := registrationId
  preKeyId := preKeyId
  preKeyPublic := preKeyPublic
  signedPreKeyId := signedPreKeyId
  signedPreKeyPublic := signedPreKeyPublic
  signedPreKeySignature := signedPreKeySignature.filter fun signature => 0 < P.len signature
  identityKey := identityKey

/-! ## 2. What is accepted -/

section Process

variable {ctx : SignalContext Addr Priv Pub B} {address : Addr} {bundle : PreKeyBundle Pub B}
  {w : World Addr Priv Pub B}

/-- **An authentic bundle**: its identity is trusted, and it has a signed pre key and a 64-byte
signature over it that verifies under that identity. -/
def PreKeyBundle.Authentic (ctx : SignalContext Addr Priv Pub B) (address : Addr)
    (w : World Addr Priv Pub B) (bundle : PreKeyBundle Pub B) : Prop :=
  ∃ identity signedPreKey signature, bundle.identityKey = some identity ∧
    ctx.trusted address (w.identities address) identity = true ∧
    bundle.signedPreKeyPublic = some signedPreKey ∧
    bundle.signedPreKeySignature = some signature ∧ ctx.provider.len signature = 64 ∧
    ctx.provider.verifySignature identity (ctx.provider.encodePoint signedPreKey) signature = true

/-- A trusted identity with a signed pre key and no signature. -/
def PreKeyBundle.LacksSignature (ctx : SignalContext Addr Priv Pub B) (address : Addr)
    (w : World Addr Priv Pub B) (bundle : PreKeyBundle Pub B) : Prop :=
  (∃ identity, bundle.identityKey = some identity ∧
      ctx.trusted address (w.identities address) identity = true) ∧
    bundle.signedPreKeyPublic.isSome ∧ bundle.signedPreKeySignature = none

/-- The signature check passes for a 64-byte signature that verifies. -/
theorem checkedSignedPreKey_of {identity signedPreKey : Pub} {signature : B}
    (hkey : bundle.signedPreKeyPublic = some signedPreKey)
    (hsignature : bundle.signedPreKeySignature = some signature)
    (hlen : ctx.provider.len signature = 64)
    (hverified : ctx.provider.verifySignature identity (ctx.provider.encodePoint signedPreKey)
      signature = true) :
    bundle.checkedSignedPreKey ctx.provider identity = .ok signedPreKey := by
  have hlen' : ¬ ctx.provider.len signature ≠ curveSignatureLen := not_not.2 hlen
  rw [PreKeyBundle.checkedSignedPreKey, hkey, hsignature]
  simp only [curveVerifySignature, bind, Except.bind, if_neg hlen', hverified]
  rfl

/-- It fails for everything else, and dies on a missing signature. -/
theorem checkedSignedPreKey_error {identity : Pub}
    (hnot : ∀ signedPreKey signature, bundle.signedPreKeyPublic = some signedPreKey →
      bundle.signedPreKeySignature = some signature → ctx.provider.len signature = 64 →
      ctx.provider.verifySignature identity (ctx.provider.encodePoint signedPreKey) signature ≠
        true) :
    ∃ e, bundle.checkedSignedPreKey ctx.provider identity = .error e ∧
      (e = .nullDereference ↔
        bundle.signedPreKeyPublic.isSome ∧ bundle.signedPreKeySignature = none) := by
  rw [PreKeyBundle.checkedSignedPreKey]
  cases hkey : bundle.signedPreKeyPublic with
  | none => exact ⟨.invalidKey, rfl, by simp⟩
  | some key =>
    cases hsignature : bundle.signedPreKeySignature with
    | none => exact ⟨.nullDereference, rfl, by simp⟩
    | some signature =>
      simp only [curveVerifySignature, bind, Except.bind]
      by_cases hlen : ctx.provider.len signature = 64
      · have hlen' : ¬ ctx.provider.len signature ≠ curveSignatureLen := not_not.2 hlen
        have hverified : ctx.provider.verifySignature identity (ctx.provider.encodePoint key)
            signature = false := Bool.eq_false_iff.2 (hnot key signature hkey hsignature hlen)
        rw [if_neg hlen']
        dsimp only
        rw [hverified]
        exact ⟨.invalidKey, rfl, by simp⟩
      · have hlen' : ctx.provider.len signature ≠ curveSignatureLen := hlen
        rw [if_pos hlen']
        exact ⟨.inval, rfl, by simp⟩

/-- **A bundle that is not authentic is refused before anything is changed.** -/
theorem bundle_refused [DecidableEq Addr] (h : ¬ bundle.Authentic ctx address w) :
    ∃ e, sessionBuilderProcessPreKeyBundle ctx address bundle w = (.error e, w) ∧
      (e = .nullDereference ↔ bundle.LacksSignature ctx address w) := by
  simp only [sessionBuilderProcessPreKeyBundle, Threaded.sessionBuilderProcessPreKeyBundle,
    Program.run_eqs]
  unfold signalProtocolIdentityIsTrustedIdentity
  cases hi : bundle.identityKey with
  | none =>
    refine ⟨.inval, rfl, by simp, ?_⟩
    rintro ⟨⟨identity, hidentity, -⟩, -⟩
    rw [hi] at hidentity
    cases hidentity
  | some identity =>
    simp only [Op.ofOption_some, Op.pure_bind_apply, Op.bind_assoc, Op.get_bind_apply]
    by_cases ht : ctx.trusted address (w.identities address) identity = true
    · have hnot : ∀ signedPreKey signature, bundle.signedPreKeyPublic = some signedPreKey →
          bundle.signedPreKeySignature = some signature → ctx.provider.len signature = 64 →
          ctx.provider.verifySignature identity (ctx.provider.encodePoint signedPreKey)
            signature ≠ true :=
        fun signedPreKey signature hkey hsignature hlen hverified =>
          h ⟨identity, signedPreKey, signature, hi, ht, hkey, hsignature, hlen, hverified⟩
      obtain ⟨e, he, hnull⟩ := checkedSignedPreKey_error hnot
      rw [Op.require_of ht, Op.pure_bind_apply, he]
      exact ⟨e, rfl, hnull.trans ⟨fun hn => ⟨⟨identity, hi, ht⟩, hn⟩, And.right⟩⟩
    · rw [Op.require_of_not ht]
      refine ⟨.untrustedIdentity, rfl, by simp, ?_⟩
      rintro ⟨⟨identity', hidentity, htrusted⟩, -⟩
      rw [hi] at hidentity
      cases hidentity
      exact absurd htrusted ht

/-- **An authentic bundle is accepted**, if the stored record can be loaded. -/
theorem bundle_authentic [DecidableEq Addr] (h : bundle.Authentic ctx address w)
    {record : SessionRecord Priv Pub B} (hrecord : w.record ctx.provider address = .ok record)
    (hrng : ∀ n, ∃ key, ctx.rng.privateKey n = .ok key) :
    ∃ w', sessionBuilderProcessPreKeyBundle ctx address bundle w = (.ok (), w') := by
  obtain ⟨identity, signedPreKey, signature, hi, ht, hkey, hsignature, hlen, hverified⟩ := h
  obtain ⟨base, hbase⟩ := hrng w.drawn
  obtain ⟨sending, hsending⟩ := hrng (w.drawn + 1)
  have hload : signalProtocolSessionLoadSession ctx.provider address w = (.ok record, w) :=
    (load_eq ctx.provider address w).trans (by rw [hrecord])
  have htrust : signalProtocolIdentityIsTrustedIdentity ctx address bundle.identityKey w =
      (.ok true, w) := isTrusted_of hi ht
  have hidentityPair : signalProtocolIdentityGetKeyPair (w.at (w.drawn + 1)) =
      (.ok w.identityKeyPair, w.at (w.drawn + 1)) := rfl
  have hinit : ∀ (state : SessionState Priv Pub B) (a : AliceParameters Priv Pub),
      ∃ state', ratchetingSessionAliceInitialize ctx.provider ctx.rng state a (w.drawn + 1) =
        (.ok state', w.drawn + 2) := fun state a =>
    ⟨_, Op.bind_of_ok (curveGenerateKeyPair_of_ok hsending)⟩
  simp only [sessionBuilderProcessPreKeyBundle, Threaded.sessionBuilderProcessPreKeyBundle,
    Program.run_eqs]
  rw [Op.bind_of_ok htrust, Op.require_of rfl, Op.pure_bind_apply, hi, Op.ofOption_some,
    Op.pure_bind_apply, checkedSignedPreKey_of hkey hsignature hlen hverified, Op.ofExcept_ok,
    Op.pure_bind_apply, Op.bind_of_ok hload,
    Op.bind_of_ok (atRandom_of (curveGenerateKeyPair_of_ok hbase)), Op.bind_of_ok hidentityPair]
  obtain ⟨state', hstate⟩ := hinit record.makeRoom.state
    (bundleParameters w.identityKeyPair bundle identity signedPreKey (ctx.provider.pair base))
  rw [Op.bind_of_ok (atRandom_of hstate)]
  exact ⟨_, rfl⟩

end Process

/-! ## 3. The created bundles -/

/-- **A bundle is accepted exactly when it is authentic**, and otherwise refused with an error
and without a change to the stores: for every bundle that can be created, unless it is one with
a trusted identity, a signed pre key and no signature. -/
theorem bundle_authentic_iff [DecidableEq Addr] (ctx : SignalContext Addr Priv Pub B)
    (address : Addr) (w : World Addr Priv Pub B)
    (hrecord : ∃ record, w.record ctx.provider address = .ok record)
    (hrng : ∀ n, ∃ key, ctx.rng.privateKey n = .ok key)
    (registrationId preKeyId : UInt32) (preKeyPublic : Option Pub) (signedPreKeyId : UInt32)
    (signedPreKeyPublic : Option Pub) (signedPreKeySignature : Option B)
    (identityKey : Option Pub) :
    let bundle := sessionPreKeyBundleCreate ctx.provider registrationId preKeyId preKeyPublic
      signedPreKeyId signedPreKeyPublic signedPreKeySignature identityKey
    (((∃ w', sessionBuilderProcessPreKeyBundle ctx address bundle w = (.ok (), w')) ↔
        bundle.Authentic ctx address w) ∧
      (¬ bundle.Authentic ctx address w →
        ∃ e w', sessionBuilderProcessPreKeyBundle ctx address bundle w = (.error e, w') ∧
          e ≠ .nullDereference ∧ w'.sessions = w.sessions ∧ w'.identities = w.identities)) ↔
      ¬ bundle.LacksSignature ctx address w := by
  intro bundle
  obtain ⟨record, hrecord⟩ := hrecord
  have hlacks : bundle.LacksSignature ctx address w → ¬ bundle.Authentic ctx address w := by
    rintro ⟨-, -, hnone⟩ ⟨_, _, _, -, -, -, hsome, -⟩
    rw [hnone] at hsome
    cases hsome
  constructor
  · rintro ⟨-, hrefused⟩ hl
    obtain ⟨e, he, hnull⟩ := bundle_refused (hlacks hl)
    obtain ⟨e', w', he', hne, -⟩ := hrefused (hlacks hl)
    rw [he] at he'
    cases he'
    exact hne (hnull.2 hl)
  · intro hl
    refine ⟨⟨?_, fun h => bundle_authentic h hrecord hrng⟩, fun h => ?_⟩
    · rintro ⟨w', hw'⟩
      by_contra h
      obtain ⟨e, he, -⟩ := bundle_refused h
      rw [he] at hw'
      cases hw'
    · obtain ⟨e, he, hnull⟩ := bundle_refused h
      exact ⟨e, w, he, fun hn => hl (hnull.1 hn), rfl, rfl⟩

/-- The authentic bundle of a peer is accepted by a party without sessions. -/
theorem bundle_authentic_iff_accepted :
    ∃ w', sessionBuilderProcessPreKeyBundle sampleContext 0 (sessionPreKeyBundleCreate
      sampleContext.provider 6 0 none 3 (some 12) (some (.signed 11 (.point 12) .nil)) (some 11))
      sampleStore = (.ok (), w') := by
  have h := (bundle_authentic_iff sampleContext 0 sampleStore ⟨_, rfl⟩ (fun _ => ⟨_, rfl⟩)
    6 0 none 3 (some 12) (some (.signed 11 (.point 12) .nil)) (some 11)).2 fun hlacks =>
      absurd hlacks.2.2 (by decide)
  exact h.1.2 ⟨11, 12, .signed 11 (.point 12) .nil, rfl, rfl, rfl, rfl, rfl, rfl⟩

/-- **A bundle without a signature ends the process.**  Its identity is trusted, so it is neither
accepted nor refused. -/
theorem unsigned_bundle_crashes :
    (sessionBuilderProcessPreKeyBundle sampleContext 0 (sessionPreKeyBundleCreate
      sampleContext.provider 6 0 none 3 (some 12) none (some 11)) sampleStore).1 =
        .error .nullDereference := by
  decide +kernel

end SignalProtocol
