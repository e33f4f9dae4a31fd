/-
# A rejected delivery can be repeated

When the decryption callback runs, the three decrypting functions have ratcheted, used up
message keys and perhaps set up a session, all in memory.  If the callback refuses the
plaintext, the record is dropped.  So the stores are as before, with one exception: a pre-key
message has its sender's identity saved before it is decrypted.

* section 1: what is decrypted does not depend on the keys that are drawn meanwhile;
* section 2: a delivery is a part that reads, the callback, and a part that writes;
* section 3: any number of failing deliveries leaves the session, pre key and sender key stores
  alone, and the next delivery gives the same plaintext, unless another sender's identity has
  been saved meanwhile and this one is no longer trusted (`runAttempts_fail`);
* section 4: under trust on first use that cannot happen after the first refusal
  (`trusted_of_trustsOnFirstUse`);
* section 5: a party that also trusts an identity compared by hand, and a run in which it does.
-/
import SignalProtocol.Reentrancy
import SignalProtocol.PreKeyMessages
import SignalProtocol.Trust
import SignalProtocol.GroupDelivery

namespace SignalProtocol

variable {Addr Priv Pub B : Type}

/-! ## 1. The drawn keys do not matter -/

section Drawn

/-- Two states receive alike: they have the same receiver chains and identities. -/
structure SessionState.ReceivesAs (state state' : SessionState Priv Pub B) : Prop where
  chains : state.receiverChains = state'.receiverChains
  remote : state.remoteIdentityPublic = state'.remoteIdentityPublic
  own : state.localIdentityPublic = state'.localIdentityPublic

namespace SessionState.ReceivesAs

variable [DecidableEq Pub] {P : Provider Priv Pub B} {state state' : SessionState Priv Pub B}

theorem modifyReceiverChain (h : state.ReceivesAs state') (key : Pub)
    (f : ReceiverChain Pub B → ReceiverChain Pub B) :
    (state.modifyReceiverChain key f).ReceivesAs (state'.modifyReceiverChain key f) :=
  ⟨congrArg (modifyFirst (ReceiverChain.isFor key) f) h.chains, h.remote, h.own⟩

theorem findReceiverChain (h : state.ReceivesAs state') (key : Pub) :
    state.findReceiverChain key = state'.findReceiverChain key := by
  rw [SessionState.findReceiverChain, h.chains, SessionState.findReceiverChain]

theorem skipMessageKeys (key : Pub) (counter : UInt32) :
    ∀ (fuel : Nat) (chainKey : RatchetChainKey B) {state state' : SessionState Priv Pub B},
      state.ReceivesAs state' →
      (skipMessageKeys P key counter fuel chainKey state).1 =
          (skipMessageKeys P key counter fuel chainKey state').1 ∧
        (skipMessageKeys P key counter fuel chainKey state).2.ReceivesAs
          (skipMessageKeys P key counter fuel chainKey state').2
  | 0, _, _, _, h => ⟨rfl, h⟩
  | fuel + 1, chainKey, state, state', h => by
    rw [SignalProtocol.skipMessageKeys, SignalProtocol.skipMessageKeys]
    split
    · exact skipMessageKeys key counter fuel _ (h.modifyReceiverChain key _)
    · exact ⟨rfl, h⟩

/-- **The message keys are found alike.** -/
theorem getOrCreateMessageKeys (h : state.ReceivesAs state') (key : Pub)
    (chainKey : RatchetChainKey B) (counter : UInt32) :
    Op.SameResult (fun a b => a.1 = b.1 ∧ a.2.ReceivesAs b.2)
      ((sessionCipherGetOrCreateMessageKeys P key chainKey counter).onCopy state)
      ((sessionCipherGetOrCreateMessageKeys P key chainKey counter).onCopy state') := by
  rw [onCopy_getOrCreateMessageKeys, onCopy_getOrCreateMessageKeys]
  unfold SessionState.removeMessageKeys SessionState.setReceiverChainKey
  split
  · rw [h.findReceiverChain key]
    cases state'.findReceiverChain key with
    | none => exact .error _
    | some chain =>
      dsimp only [bind, Option.bind]
      cases chain.messageKeys.find? fun k => k.counter = counter with
      | none => exact .error _
      | some keys => exact .ok ⟨rfl, h.modifyReceiverChain key _⟩
  · split
    · exact .error _
    · obtain ⟨hkey, hstate⟩ := skipMessageKeys (P := P) key counter
        (counter - chainKey.index).toNat chainKey h
      dsimp only
      rw [hkey, hstate.findReceiverChain key]
      cases SessionState.findReceiverChain key (SignalProtocol.skipMessageKeys P key counter
        (counter - chainKey.index).toNat chainKey state').2 with
      | none => exact .error _
      | some chain => exact .ok ⟨rfl, hstate.modifyReceiverChain key _⟩

end SessionState.ReceivesAs

variable {P : Provider Priv Pub B} {rng : Rng Priv B}

theorem curveGenerateKeyPair_alike (hrng : ∀ n, ∃ key, rng.privateKey n = .ok key) :
    Op.Alike (fun _ _ => True) (fun _ _ => True) (curveGenerateKeyPair P rng)
      (curveGenerateKeyPair P rng) := by
  intro n n' _
  obtain ⟨key, hkey⟩ := hrng n
  obtain ⟨key', hkey'⟩ := hrng n'
  rw [curveGenerateKeyPair_of_ok hkey, curveGenerateKeyPair_of_ok hkey']
  exact ⟨.ok trivial, trivial⟩

variable [DecidableEq Pub]

/-- The chain of a message does not depend on the key that is drawn for the answer. -/
theorem getOrCreateChainKey_alike (hrng : ∀ n, ∃ key, rng.privateKey n = .ok key)
    (state : SessionState Priv Pub B) (key : Pub) :
    Op.Alike (fun _ _ => True) (fun a b => a.1 = b.1 ∧ a.2.ReceivesAs b.2)
      (sessionCipherGetOrCreateChainKey P rng state key)
      (sessionCipherGetOrCreateChainKey P rng state key) := by
  unfold sessionCipherGetOrCreateChainKey
  split
  · exact .pure ⟨rfl, rfl, rfl, rfl⟩
  · refine (Op.Alike.ofOption _ _).bind fun rootKey _ hroot => ?_
    subst hroot
    refine (Op.Alike.ofOption _ _).bind fun ourEphemeral _ hours => ?_
    subst hours
    refine (curveGenerateKeyPair_alike hrng).bind fun new new' _ => ?_
    refine (Op.Alike.ofOption _ _).bind fun previous _ hprevious => ?_
    subst hprevious
    exact .pure ⟨rfl, rfl, rfl, rfl⟩

variable [DecidableEq B]

/-- **The plaintext does not depend on the keys that are drawn.** -/
theorem decryptFromState_alike (hrng : ∀ n, ∃ key, rng.privateKey n = .ok key)
    (state : SessionState Priv Pub B) (m : SignalMessage Pub B) :
    Op.Alike (fun _ _ => True) (fun a b => a.1 = b.1) (sessionCipherDecryptFromState P rng state m)
      (sessionCipherDecryptFromState P rng state m) := by
  unfold sessionCipherDecryptFromState
  refine (Op.Alike.require _ _).bind fun _ _ _ => ?_
  refine (Op.Alike.require _ _).bind fun _ _ _ => ?_
  refine (getOrCreateChainKey_alike hrng _ _).bind fun chain chain' hchain => ?_
  rw [hchain.1]
  refine (Op.Alike.ofExcept (hchain.2.getOrCreateMessageKeys _ _ _)).bind fun keys keys' hkeys => ?_
  dsimp only
  rw [hkeys.1, hkeys.2.remote, hkeys.2.own]
  refine (Op.Alike.ofOption _ _).bind fun remote _ hremote => ?_
  subst hremote
  refine (Op.Alike.ofOption _ _).bind fun own _ hown => ?_
  subst hown
  refine (Op.Alike.require _ _).bind fun _ _ _ => ?_
  refine (Op.Alike.ofExcept (.refl _)).bind
    fun plaintext _ hplaintext => ?_
  exact .pure hplaintext

theorem tryStates_alike (hrng : ∀ n, ∃ key, rng.privateKey n = .ok key)
    (m : SignalMessage Pub B) : ∀ states : List (SessionState Priv Pub B),
      Op.Alike (fun _ _ => True) (fun a b => a.1 = b.1) (sessionCipherTryStates P rng m states)
        (sessionCipherTryStates P rng m states)
  | [] => by
    rw [sessionCipherTryStates_nil]
    exact .fail _
  | state :: rest => by
    rw [sessionCipherTryStates_cons]
    refine (Op.Alike.ofExcept (.refl _)).bind
      fun copy _ hcopy => ?_
    subst hcopy
    refine .recover ?_ ?_
    · exact (decryptFromState_alike hrng copy m).bind fun _ _ h => .pure h
    · exact (tryStates_alike hrng m rest).bind fun _ _ h => .pure h

/-- What a record makes of a message does not depend on the position in the random source. -/
theorem decryptFromRecord_alike (hrng : ∀ n, ∃ key, rng.privateKey n = .ok key)
    (record : SessionRecord Priv Pub B) (m : SignalMessage Pub B) :
    Op.Alike (fun _ _ => True) (fun a b => a.1 = b.1)
      (sessionCipherDecryptFromRecord P rng record m)
      (sessionCipherDecryptFromRecord P rng record m) := by
  rw [sessionCipherDecryptFromRecord_eq]
  exact (tryStates_alike hrng m _).bind fun _ _ h => .pure h

end Drawn

/-! ## 2. Deliveries -/

/-- Two worlds are the same but for the identities of the peers and the random source. -/
structure World.SameButIdentities (w w' : World Addr Priv Pub B) : Prop where
  sessions : w'.sessions = w.sessions
  preKeys : w'.preKeys = w.preKeys
  signedPreKeys : w'.signedPreKeys = w.signedPreKeys
  identityKeyPair : w'.identityKeyPair = w.identityKeyPair
  localRegistrationId : w'.localRegistrationId = w.localRegistrationId

instance : IsPreorder (World Addr Priv Pub B) World.SameButIdentities where
  refl _ := ⟨rfl, rfl, rfl, rfl, rfl⟩
  trans _ _ _ h h' := ⟨h'.1.trans h.1, h'.2.trans h.2, h'.3.trans h.3, h'.4.trans h.4,
    h'.5.trans h.5⟩

namespace Outer

variable [LinearOrder Pub] {ctx : SignalContext Addr Priv Pub B} {address : Addr}
  {w w' w₁ : World Addr Priv Pub B} {outer : Outer Pub B}

/-- The sender of a pre-key message is trusted.  The other messages are not asked for it. -/
def Trusted (ctx : SignalContext Addr Priv Pub B) (address : Addr) (w : World Addr Priv Pub B) :
    Outer Pub B → Prop
  | signal _ => True
  | preKey m => ctx.trusted address (w.identities address) m.identityKey = true

end Outer

section Same

variable {ctx : SignalContext Addr Priv Pub B} {address : Addr}

theorem load_alike : Op.Alike World.SameButIdentities (· = ·)
    (signalProtocolSessionLoadSession ctx.provider address)
    (signalProtocolSessionLoadSession ctx.provider address) := by
  intro w w' h
  rw [load_eq, load_eq, World.record_eq, World.record_eq, h.sessions]
  exact ⟨.refl _, h⟩

/-- The decryption in two such worlds. -/
theorem decrypt_alike [DecidableEq Pub] [DecidableEq B]
    (hrng : ∀ n, ∃ key, ctx.rng.privateKey n = .ok key) (record : SessionRecord Priv Pub B)
    (m : SignalMessage Pub B) :
    Op.Alike World.SameButIdentities (fun a b => a.1 = b.1)
      (atRandom (sessionCipherDecryptFromRecord ctx.provider ctx.rng record m) :
        Op SgError (World Addr Priv Pub B) _)
      (atRandom (sessionCipherDecryptFromRecord ctx.provider ctx.rng record m)) := by
  intro w w' h
  rw [atRandom_apply, atRandom_apply]
  exact ⟨(decryptFromRecord_alike hrng record m _ _ trivial).1,
    h.sessions, h.preKeys, h.signedPreKeys, h.identityKeyPair, h.localRegistrationId⟩

theorem loadOneTimePreKey_alike (preKeyId : Option UInt32) :
    Op.Alike World.SameButIdentities (· = ·)
      (loadOneTimePreKey preKeyId : Op SgError (World Addr Priv Pub B) _)
      (loadOneTimePreKey preKeyId) := by
  cases preKeyId with
  | none => exact .pure rfl
  | some preKeyId =>
    refine Op.Alike.bind (r := (· = ·)) (.reads fun w w' h => ?_) fun key _ hkey => ?_
    · rw [h.preKeys]
      exact .ofOption _ _
    · subst hkey
      exact .pure rfl

/-- The builder reads nothing of the peers' identities. -/
theorem processV3_alike [LinearOrder Pub] (record : SessionRecord Priv Pub B)
    (m : PreKeySignalMessage Pub B) :
    Op.Alike World.SameButIdentities (· = ·)
      (sessionBuilderProcessPreKeySignalMessageV3 ctx record m)
      (sessionBuilderProcessPreKeySignalMessageV3 ctx record m) := by
  simp only [sessionBuilderProcessPreKeySignalMessageV3,
    Threaded.sessionBuilderProcessPreKeySignalMessageV3, Program.run_eqs]
  split
  · exact .pure rfl
  · refine Op.Alike.bind (r := (· = ·)) (.reads fun w w' h => ?_) fun signedPreKey _ hsigned => ?_
    · rw [h.signedPreKeys]
      exact .ofOption _ _
    subst hsigned
    refine Op.Alike.bind (r := (· = ·)) (.reads fun w w' h => .pure h.identityKeyPair.symm)
      fun identity _ hidentity => ?_
    subst hidentity
    refine (loadOneTimePreKey_alike _).bind fun oneTimePreKey _ honeTime => ?_
    subst honeTime
    refine Op.Alike.bind (r := (· = ·)) (.reads fun w w' h => .pure h.localRegistrationId.symm)
      fun registrationId _ hregistration => ?_
    subst hregistration
    exact .pure rfl

end Same

namespace Outer

variable [DecidableEq Addr] [LinearOrder Pub] [DecidableEq B]
  {ctx : SignalContext Addr Priv Pub B} {address : Addr} {w w' w₁ : World Addr Priv Pub B}
  {outer : Outer Pub B}

/-- What is done with a pre-key message once its sender is trusted. -/
def receiveTrusted (ctx : SignalContext Addr Priv Pub B) (address : Addr)
    (m : PreKeySignalMessage Pub B) (record : SessionRecord Priv Pub B) :
    Op SgError (World Addr Priv Pub B) (B × SessionRecord Priv Pub B × Option UInt32) := do
  let built ← sessionBuilderProcessPreKeySignalMessageV3 ctx record m
  signalProtocolIdentitySaveIdentity address m.identityKey
  let result ← atRandom (sessionCipherDecryptFromRecord ctx.provider ctx.rng built.1 m.message)
  return (result.1, result.2, built.2)

theorem receive_preKey_apply (ctx : SignalContext Addr Priv Pub B) (address : Addr)
    (m : PreKeySignalMessage Pub B) (w : World Addr Priv Pub B) :
    (preKey m).receive ctx address w = (do
      let record ← signalProtocolSessionLoadSession ctx.provider address
      Op.require (ctx.trusted address (w.identities address) m.identityKey = true)
        .untrustedIdentity
      receiveTrusted ctx address m record) w := by
  simp only [receive, sessionBuilderProcessPreKeySignalMessage,
    Threaded.sessionBuilderProcessPreKeySignalMessage, Program.run_eqs,
    Threaded.run_processPreKeySignalMessageV3, signalProtocolIdentityIsTrustedIdentity,
    Op.bind_assoc, Op.ofOption_some, Op.pure_bind_apply]
  rw [Op.bind_apply, Op.bind_apply, load_eq]
  cases w.record ctx.provider address <;> rfl

theorem receiveTrusted_alike (hrng : ∀ n, ∃ key, ctx.rng.privateKey n = .ok key)
    (m : PreKeySignalMessage Pub B) (record : SessionRecord Priv Pub B) :
    Op.Alike World.SameButIdentities (fun a b => a.1 = b.1)
      (receiveTrusted ctx address m record) (receiveTrusted ctx address m record) := by
  refine (processV3_alike record m).bind fun built _ hbuilt => ?_
  subst hbuilt
  refine Op.Alike.bind (r := (· = ·)) (fun w w' h => ⟨.ok rfl, h.1, h.2, h.3, h.4, h.5⟩)
    fun _ _ _ => ?_
  exact (decrypt_alike hrng built.1 m.message).bind fun _ _ h => .pure h

/-- **What was received once is received again**, with the same plaintext, in a world with the
same stores, if the sender is still trusted. -/
theorem receive_again (hrng : ∀ n, ∃ key, ctx.rng.privateKey n = .ok key)
    (hsame : w.SameButIdentities w') (ht : outer.Trusted ctx address w')
    {received : B × SessionRecord Priv Pub B × Option UInt32}
    (h : outer.receive ctx address w = (.ok received, w₁)) :
    ∃ received' w₁', received.1 = received'.1 ∧
      outer.receive ctx address w' = (.ok received', w₁') := by
  cases outer with
  | signal m =>
    have halike : Op.Alike World.SameButIdentities (fun a b => a.1 = b.1)
        ((signal m).receive ctx address) ((signal m).receive ctx address) := by
      refine Op.Alike.bind (r := (· = ·)) (.reads fun w w' h => ?_) fun contains _ hc => ?_
      · rw [h.sessions]
        exact .pure rfl
      subst hc
      refine (Op.Alike.require _ _).bind fun _ _ _ => load_alike.bind fun record _ hrecord => ?_
      subst hrecord
      exact (decrypt_alike hrng record m).bind fun _ _ h => .pure h
    obtain ⟨received', w₁', hp, -, hagain⟩ := halike.ok hsame h
    exact ⟨received', w₁', hp, hagain⟩
  | preKey m =>
    have ht' : ctx.trusted address (w'.identities address) m.identityKey = true := ht
    rw [receive_preKey_apply] at h ⊢
    obtain ⟨record, w₀, hload, hrest⟩ := Op.bind_ok_iff.1 h
    obtain ⟨_, w₂, hrequire, hdone⟩ := Op.bind_ok_iff.1 hrest
    obtain ⟨-, rfl⟩ := Op.require_ok_iff.1 hrequire
    obtain ⟨_, w₀', rfl, hsame', hload'⟩ := load_alike.ok hsame hload
    obtain ⟨received', w₁', hp, -, hagain⟩ := (receiveTrusted_alike hrng m record).ok hsame' hdone
    refine ⟨received', w₁', hp, ?_⟩
    rw [Op.bind_of_ok hload', Op.require_of ht', Op.pure_bind_apply, hagain]

/-- A sender that is not trusted is refused. -/
theorem receive_untrusted (ht : ¬ outer.Trusted ctx address w) :
    ∃ e w', outer.receive ctx address w = (.error e, w') := by
  cases outer with
  | signal m => exact absurd trivial ht
  | preKey m =>
    have ht' : ¬ ctx.trusted address (w.identities address) m.identityKey = true := ht
    rw [receive_preKey_apply, Op.require_of_not ht', Op.bind_apply, load_eq]
    cases w.record ctx.provider address with
    | error e => exact ⟨e, w, rfl⟩
    | ok record => exact ⟨.untrustedIdentity, w, rfl⟩

/-- **Up to the callback only the sender's identity is written.** -/
theorem receive_moves (ctx : SignalContext Addr Priv Pub B) (address : Addr)
    (outer : Outer Pub B) : Op.Moves World.SameButIdentities (outer.receive ctx address) := by
  have hload : Op.Moves World.SameButIdentities
      (signalProtocolSessionLoadSession ctx.provider address) := fun w => by
    rw [load_eq]
    exact refl_of _ w
  have hdecrypt : ∀ record m, Op.Moves World.SameButIdentities
      (atRandom (sessionCipherDecryptFromRecord ctx.provider ctx.rng record m) :
        Op SgError (World Addr Priv Pub B) _) := fun _ _ w => ⟨rfl, rfl, rfl, rfl, rfl⟩
  cases outer with
  | signal m =>
    have hcontains : Op.Moves World.SameButIdentities
        (signalProtocolSessionContainsSession address :
          Op SgError (World Addr Priv Pub B) Bool) := fun w => refl_of _ w
    exact hcontains.bind fun _ => (Op.Moves.require _ _).bind fun _ => hload.bind fun record =>
      (hdecrypt record m).bind fun _ => Op.Moves.pure _
  | preKey m =>
    have htrusted : Op.Moves World.SameButIdentities
        (signalProtocolIdentityIsTrustedIdentity ctx address (some m.identityKey)) := fun w =>
      refl_of _ w
    have hbuild : ∀ record, Op.Moves World.SameButIdentities
        (sessionBuilderProcessPreKeySignalMessageV3 ctx record m) := fun record w => by
      rcases processV3_cases ctx record m w with ⟨-, r, hr⟩ | ⟨-, e, hr⟩ <;> rw [hr]
      · exact refl_of _ w
      · exact refl_of _ w
    have hsave : Op.Moves World.SameButIdentities
        (signalProtocolIdentitySaveIdentity address m.identityKey :
          Op SgError (World Addr Priv Pub B) Unit) := fun w => ⟨rfl, rfl, rfl, rfl, rfl⟩
    refine hload.bind fun record => Op.Moves.bind ?_ fun built =>
      (hdecrypt built.1 m.message).bind fun _ => Op.Moves.pure _
    simp only [sessionBuilderProcessPreKeySignalMessage,
      Threaded.sessionBuilderProcessPreKeySignalMessage, Program.run_eqs,
      Threaded.run_processPreKeySignalMessageV3]
    exact htrusted.bind fun _ => (Op.Moves.require _ _).bind fun _ =>
      (hbuild record).bind fun _ => hsave.bind fun _ => Op.Moves.pure _

/-- A cipher object whose callback answers each plaintext with a code. -/
def answeringCipher (address : Addr) (verdict : B → Except SgError Unit) :
    SessionCipher Addr Priv Pub B :=
  ⟨address, false, some fun plaintext => Op.ofExcept (verdict plaintext)⟩

omit [DecidableEq Addr] [LinearOrder Pub] [DecidableEq B] in
theorem decryptCallback_answering (address : Addr) (verdict : B → Except SgError Unit)
    (plaintext : B) :
    (sessionCipherDecryptCallback (answeringCipher address verdict) plaintext :
      Op SgError (World Addr Priv Pub B) Unit) = Op.ofExcept (verdict plaintext) :=
  (sessionCipherDecryptCallback_of_some rfl plaintext).trans rfl

/-- `session_cipher_decrypt_signal_message` and `session_cipher_decrypt_pre_key_signal_message`
through such an object. -/
def deliver (ctx : SignalContext Addr Priv Pub B) (address : Addr)
    (verdict : B → Except SgError Unit) :
    Outer Pub B → Op SgError (World Addr Priv Pub B) B
  | signal m => sessionCipherDecryptSignalMessage ctx (answeringCipher address verdict) m
  | preKey m => sessionCipherDecryptPreKeySignalMessage ctx (answeringCipher address verdict) m

/-- **A delivery is its first part, the callback and its second part.** -/
theorem deliver_eq (ctx : SignalContext Addr Priv Pub B) (address : Addr)
    (verdict : B → Except SgError Unit) (outer : Outer Pub B) :
    outer.deliver ctx address verdict = (do
      let received ← outer.receive ctx address
      Op.ofExcept (verdict received.1)
      signalProtocolSessionStoreSession ctx.provider address received.2.1
      removeOneTimePreKey received.2.2
      return received.1) := by
  cases outer with
  | signal m =>
    simp only [deliver, receive, sessionCipherDecryptSignalMessage,
      Threaded.sessionCipherDecryptSignalMessage, Program.run_eqs, run_drawing,
      Threaded.run_decryptFromRecord, Threaded.run_decryptCallback,
      decryptCallback_answering, Op.bind_assoc]
    rfl
  | preKey m =>
    simp only [deliver, receive, sessionCipherDecryptPreKeySignalMessage,
      Threaded.sessionCipherDecryptPreKeySignalMessage, Program.run_eqs, run_drawing,
      Threaded.run_processPreKeySignalMessage, Threaded.run_decryptFromRecord,
      Threaded.run_decryptCallback,
      decryptCallback_answering, Op.bind_assoc]
    rfl

/-- The callback decides about what was received. -/
theorem deliver_of_received {received : B × SessionRecord Priv Pub B × Option UInt32}
    (h : outer.receive ctx address w = (.ok received, w₁)) (verdict : B → Except SgError Unit) :
    (outer.deliver ctx address verdict w).1 = (verdict received.1).map fun _ => received.1 := by
  rw [deliver_eq, Op.bind_of_ok h]
  cases verdict received.1 with
  | error e => rfl
  | ok u =>
    rw [Op.ofExcept_ok, Op.pure_bind_apply]
    rw [Op.bind_of_ok (show signalProtocolSessionStoreSession ctx.provider address received.2.1 w₁ =
      (.ok (), _) from rfl), Op.bind_of_ok (removeOneTimePreKey_apply ..)]
    rfl

/-- What was not received does not get to the callback. -/
theorem deliver_of_not_received {e : SgError}
    (h : outer.receive ctx address w = (.error e, w₁)) (verdict : B → Except SgError Unit) :
    outer.deliver ctx address verdict w = (.error e, w₁) := by
  rw [deliver_eq, Op.bind_of_error h]

/-- A failing delivery leaves what it had written when the callback was due. -/
theorem state_of_deliver_error {verdict : B → Except SgError Unit} {e : SgError}
    (h : outer.deliver ctx address verdict w = (.error e, w')) :
    w' = (outer.receive ctx address w).2 := by
  rcases hr : outer.receive ctx address w with ⟨e' | received, w₁⟩
  · rw [deliver_of_not_received hr] at h
    cases h
    rfl
  · have hresult := deliver_of_received hr verdict
    rw [h] at hresult
    rw [deliver_eq, Op.bind_of_ok hr] at h
    cases hv : verdict received.1 with
    | error e₁ =>
      rw [hv] at h
      cases h
      rfl
    | ok u =>
      rw [hv] at hresult
      cases hresult

/-- **A failing delivery writes nothing but its sender's identity.** -/
theorem same_of_deliver_error {verdict : B → Except SgError Unit} {e : SgError}
    (h : outer.deliver ctx address verdict w = (.error e, w')) : w.SameButIdentities w' := by
  rw [state_of_deliver_error h]
  exact receive_moves ctx address outer w

end Outer

section Group

variable {Name : Type} [DecidableEq Name] {P : GroupProvider Priv Pub B} {name : Name}
  {m : SenderKeyMessage B} {w w' : GroupWorld Name B}

/-- What the callback of `group_cipher_decrypt` is handed. -/
def groupReceived (P : GroupProvider Priv Pub B) (name : Name) (m : SenderKeyMessage B)
    (w : GroupWorld Name B) : Except SgError B := do
  let record ← w.record P.toProvider name
  let received ← record.decrypt P m
  return received.1

/-- The callback decides about it. -/
theorem groupDecrypt_of_received {p : B} (h : groupReceived P name m w = .ok p)
    (verdict : B → Except SgError Unit) :
    (groupCipherDecrypt P (.answering name verdict) m w).1 =
      ((verdict p).map fun _ => p).mapError groupDecryptCode := by
  obtain ⟨record, hrecord, h⟩ := Op.exists_of_bind_eq_ok h
  obtain ⟨⟨plaintext, record'⟩, hdecrypt, h⟩ := Op.exists_of_bind_eq_ok h
  cases h
  rw [groupCipherDecrypt_answering hrecord, hdecrypt]
  dsimp only
  cases verdict plaintext with
  | error e => rfl
  | ok u => rfl

/-- What succeeds has been handed to the callback. -/
theorem received_of_groupDecrypt {p : B} {verdict : B → Except SgError Unit}
    (h : (groupCipherDecrypt P (.answering name verdict) m w).1 = .ok p) :
    groupReceived P name m w = .ok p := by
  rw [groupReceived]
  cases hrecord : w.record P.toProvider name with
  | error e =>
    rw [groupCipherDecrypt_answering_of_error hrecord] at h
    cases h
  | ok record =>
    rw [groupCipherDecrypt_answering hrecord] at h
    cases hdecrypt : record.decrypt P m with
    | error e =>
      rw [hdecrypt] at h
      cases h
    | ok received =>
      rw [hdecrypt] at h
      dsimp only at h
      cases hv : verdict received.1 with
      | error e =>
        rw [hv] at h
        cases h
      | ok u =>
        rw [hv] at h
        cases h
        simp only [bind, Except.bind, hdecrypt]
        rfl

/-- **A failing group delivery writes nothing.** -/
theorem same_of_groupDecrypt_error {verdict : B → Except SgError Unit} {e : SgError}
    (h : groupCipherDecrypt P (.answering name verdict) m w = (.error e, w')) : w' = w := by
  cases hrecord : w.record P.toProvider name with
  | error e =>
    rw [groupCipherDecrypt_answering_of_error hrecord] at h
    cases h
    rfl
  | ok record =>
    rw [groupCipherDecrypt_answering hrecord] at h
    cases hdecrypt : record.decrypt P m with
    | error e =>
      rw [hdecrypt] at h
      cases h
      rfl
    | ok received =>
      rw [hdecrypt] at h
      dsimp only at h
      cases hv : verdict received.1 with
      | error e =>
        rw [hv] at h
        cases h
        rfl
      | ok u =>
        rw [hv] at h
        cases h

end Group

/-! ## 3. Histories -/

/-- A party with its sessions and its groups. -/
structure Device (Addr Name Priv Pub B : Type) where
  world : World Addr Priv Pub B
  groups : GroupWorld Name B

/-- A message that arrives, for one of the three decrypting functions. -/
inductive Delivery (Addr Name Pub B : Type) where
  | session (address : Addr) (message : Outer Pub B)
  | group (name : Name) (message : SenderKeyMessage B)

/-- A delivery, and what the decryption callback answers to each plaintext. -/
structure Attempt (Addr Name Pub B : Type) where
  delivery : Delivery Addr Name Pub B
  verdict : B → Except SgError Unit

variable {Name : Type}

/-- Nothing but the peers' identities and the random source differs. -/
def Device.SameButIdentities (d d' : Device Addr Name Priv Pub B) : Prop :=
  d.world.SameButIdentities d'.world ∧ d'.groups = d.groups

/-- The sender is trusted, if the delivery asks for it. -/
def Delivery.Trusted (ctx : SignalContext Addr Priv Pub B) (d : Device Addr Name Priv Pub B) :
    Delivery Addr Name Pub B → Prop
  | session address message => message.Trusted ctx address d.world
  | group _ _ => True

section History

variable [DecidableEq Addr] [DecidableEq Name] [LinearOrder Pub] [DecidableEq B]

/-- Deliver a message. -/
def Delivery.run (ctx : SignalContext Addr Priv Pub B) (P : GroupProvider Priv Pub B)
    (verdict : B → Except SgError Unit) :
    Delivery Addr Name Pub B → Op SgError (Device Addr Name Priv Pub B) B
  | session address message =>
    Op.zoom Device.world (fun d w => { d with world := w }) (message.deliver ctx address verdict)
  | group name message =>
    Op.zoom Device.groups (fun d w => { d with groups := w })
      (groupCipherDecrypt P (.answering name verdict) message)

variable {ctx : SignalContext Addr Priv Pub B} {P : GroupProvider Priv Pub B}
  {d d' d₁ : Device Addr Name Priv Pub B} {delivery : Delivery Addr Name Pub B} {p : B}

/-- **A failing delivery writes nothing but its sender's identity.** -/
theorem Delivery.same_of_error {verdict : B → Except SgError Unit} {e : SgError}
    (h : (delivery.run ctx P verdict d).1 = .error e) :
    d.SameButIdentities (delivery.run ctx P verdict d).2 := by
  cases delivery with
  | session address message =>
    exact ⟨Outer.same_of_deliver_error (Prod.ext h rfl), rfl⟩
  | group name message =>
    exact ⟨refl_of World.SameButIdentities d.world,
      same_of_groupDecrypt_error (Prod.ext h rfl)⟩

/-- **What was accepted once is put to the callback again**, if the sender is still trusted, and
the callback decides. -/
theorem Delivery.again (hrng : ∀ n, ∃ key, ctx.rng.privateKey n = .ok key)
    (h : (delivery.run ctx P (fun _ => .ok ()) d).1 = .ok p) (hsame : d.SameButIdentities d')
    (ht : delivery.Trusted ctx d') (verdict : B → Except SgError Unit) :
    (verdict p = .ok () → (delivery.run ctx P verdict d').1 = .ok p) ∧
      ∀ e, verdict p = .error e → ∃ e', (delivery.run ctx P verdict d').1 = .error e' := by
  cases delivery with
  | session address message =>
    have h' : (message.deliver ctx address (fun _ => .ok ()) d.world).1 = .ok p := h
    rcases hr : message.receive ctx address d.world with ⟨e | received, w₁⟩
    · rw [Outer.deliver_of_not_received hr] at h'
      cases h'
    rw [Outer.deliver_of_received hr] at h'
    cases h'
    obtain ⟨received', w₁', hp, hr'⟩ := Outer.receive_again hrng hsame.1 ht hr
    have hagain : ((session address message : Delivery Addr Name Pub B).run ctx P verdict d').1 =
        (verdict received.1).map fun _ => received.1 := by
      rw [hp]
      exact Outer.deliver_of_received hr' verdict
    rw [hagain]
    refine ⟨fun hv => ?_, fun e hv => ⟨e, ?_⟩⟩
    · rw [hv]
      rfl
    · rw [hv]
      rfl
  | group name message =>
    have hr := received_of_groupDecrypt h
    have hagain : ((group name message : Delivery Addr Name Pub B).run ctx P verdict d').1 =
        ((verdict p).map fun _ => p).mapError groupDecryptCode :=
      groupDecrypt_of_received (by rw [hsame.2]; exact hr) verdict
    rw [hagain]
    refine ⟨fun hv => ?_, fun e hv => ⟨groupDecryptCode e, ?_⟩⟩
    · rw [hv]
      rfl
    · rw [hv]
      rfl

/-- A delivery whose sender is not trusted fails. -/
theorem Delivery.error_of_untrusted (ht : ¬ delivery.Trusted ctx d)
    (verdict : B → Except SgError Unit) : ∃ e, (delivery.run ctx P verdict d).1 = .error e := by
  cases delivery with
  | session address message =>
    obtain ⟨e, w', hr⟩ := Outer.receive_untrusted ht
    exact ⟨e, congrArg Prod.fst (Outer.deliver_of_not_received hr verdict)⟩
  | group name message => exact absurd trivial ht

/-- A delivery, with its callback. -/
def Attempt.run (ctx : SignalContext Addr Priv Pub B) (P : GroupProvider Priv Pub B)
    (a : Attempt Addr Name Pub B) : Op SgError (Device Addr Name Priv Pub B) B :=
  a.delivery.run ctx P a.verdict

/-- The device after some attempts. -/
def runAttempts (ctx : SignalContext Addr Priv Pub B) (P : GroupProvider Priv Pub B) :
    List (Attempt Addr Name Pub B) → Device Addr Name Priv Pub B → Device Addr Name Priv Pub B
  | [], d => d
  | a :: attempts, d => runAttempts ctx P attempts (a.run ctx P d).2

/-- Every attempt fails. -/
def AllFail (ctx : SignalContext Addr Priv Pub B) (P : GroupProvider Priv Pub B) :
    List (Attempt Addr Name Pub B) → Device Addr Name Priv Pub B → Prop
  | [], _ => True
  | a :: attempts, d =>
    (∃ e, (a.run ctx P d).1 = .error e) ∧ AllFail ctx P attempts (a.run ctx P d).2

/-- **The callback refuses the plaintext of the message whenever the message comes**, and what
else comes fails. -/
def RejectedOrFailing (ctx : SignalContext Addr Priv Pub B) (P : GroupProvider Priv Pub B)
    (delivery : Delivery Addr Name Pub B) (p : B) :
    List (Attempt Addr Name Pub B) → Device Addr Name Priv Pub B → Prop
  | [], _ => True
  | a :: attempts, d =>
    (a.delivery = delivery ∧ (∃ e, a.verdict p = .error e) ∨ ∃ e, (a.run ctx P d).1 = .error e) ∧
      RejectedOrFailing ctx P delivery p attempts (a.run ctx P d).2

/-- **One attempt**: it fails in either case. -/
theorem Attempt.fails (hrng : ∀ n, ∃ key, ctx.rng.privateKey n = .ok key)
    (h : (delivery.run ctx P (fun _ => .ok ()) d).1 = .ok p) (hsame : d.SameButIdentities d')
    {a : Attempt Addr Name Pub B}
    (ha : a.delivery = delivery ∧ (∃ e, a.verdict p = .error e) ∨
      ∃ e, (a.run ctx P d').1 = .error e) :
    ∃ e, (a.run ctx P d').1 = .error e := by
  rcases ha with ⟨rfl, e, he⟩ | hfails
  · by_cases ht : a.delivery.Trusted ctx d'
    · exact (Delivery.again hrng h hsame ht a.verdict).2 e he
    · exact Delivery.error_of_untrusted ht a.verdict
  · exact hfails

omit [DecidableEq Addr] [DecidableEq Name] [LinearOrder Pub] [DecidableEq B] in
theorem Device.SameButIdentities.trans (h : d.SameButIdentities d')
    (h' : d'.SameButIdentities d₁) : d.SameButIdentities d₁ :=
  ⟨trans_of World.SameButIdentities h.1 h'.1, h'.2.trans h.2⟩

/-- **Any number of attempts**: all fail, and nothing but identities is written. -/
theorem runAttempts_fail (hrng : ∀ n, ∃ key, ctx.rng.privateKey n = .ok key)
    (h : (delivery.run ctx P (fun _ => .ok ()) d).1 = .ok p) :
    ∀ (attempts : List (Attempt Addr Name Pub B)) {d' : Device Addr Name Priv Pub B},
      d.SameButIdentities d' → RejectedOrFailing ctx P delivery p attempts d' →
      AllFail ctx P attempts d' ∧ d.SameButIdentities (runAttempts ctx P attempts d')
  | [], _, hsame, _ => ⟨trivial, hsame⟩
  | a :: attempts, d', hsame, ⟨ha, hrest⟩ => by
    obtain ⟨e, he⟩ := Attempt.fails hrng h hsame ha
    have hstep := hsame.trans (Delivery.same_of_error he)
    obtain ⟨hfail, hend⟩ := runAttempts_fail hrng h attempts hstep hrest
    exact ⟨⟨⟨e, he⟩, hfail⟩, hend⟩

/-- **When a rejected delivery can be repeated.**  A message would be accepted, with plaintext
`p`.  It is delivered any number of times to callbacks that refuse `p`, and what else is
delivered fails.  Then all these calls fail and the session, pre key and sender key stores are as
they were, and every callback that takes `p` gets it from the next delivery, and so does the
caller: this is so exactly if the sender is still trusted at that time. -/
theorem rejected_delivery_repeatable_iff
    (hrng : ∀ n, ∃ key, ctx.rng.privateKey n = .ok key)
    (h : (delivery.run ctx P (fun _ => .ok ()) d).1 = .ok p)
    (attempts : List (Attempt Addr Name Pub B))
    (hattempts : RejectedOrFailing ctx P delivery p attempts d) :
    (AllFail ctx P attempts d ∧
      ((runAttempts ctx P attempts d).world.sessions = d.world.sessions ∧
        (runAttempts ctx P attempts d).world.preKeys = d.world.preKeys ∧
        (runAttempts ctx P attempts d).groups.senderKeys = d.groups.senderKeys) ∧
      ∀ verdict : B → Except SgError Unit, verdict p = .ok () →
        (delivery.run ctx P verdict (runAttempts ctx P attempts d)).1 = .ok p) ↔
      delivery.Trusted ctx (runAttempts ctx P attempts d) := by
  obtain ⟨hfail, hsame⟩ := runAttempts_fail hrng h attempts
    ⟨refl_of World.SameButIdentities d.world, rfl⟩ hattempts
  constructor
  · rintro ⟨-, -, hdelivered⟩
    by_contra ht
    obtain ⟨e, he⟩ := Delivery.error_of_untrusted (P := P) ht fun _ => .ok ()
    rw [hdelivered (fun _ => .ok ()) rfl] at he
    cases he
  · intro ht
    exact ⟨hfail, ⟨hsame.1.sessions, hsame.1.preKeys, by rw [hsame.2]⟩, fun verdict hv =>
      (Delivery.again hrng h hsame ht verdict).1 hv⟩

end History

/-! ## 4. Trust on first use -/

/-- The saved identities are as before. -/
def World.SameIdentities (w w' : World Addr Priv Pub B) : Prop := w'.identities = w.identities

instance : IsPreorder (World Addr Priv Pub B) World.SameIdentities where
  refl _ := rfl
  trans _ _ _ h h' := h'.trans h

section FirstUse

variable [DecidableEq Addr] [LinearOrder Pub] [DecidableEq B]

omit [DecidableEq Addr] in
/-- The decryption leaves the saved identities alone. -/
theorem sameIdentities_decrypt {α : Type} (ctx : SignalContext Addr Priv Pub B)
    (record : SessionRecord Priv Pub B) (m : SignalMessage Pub B)
    (f : B × SessionRecord Priv Pub B → α) :
    Op.Moves World.SameIdentities (do
      let result ← atRandom (sessionCipherDecryptFromRecord ctx.provider ctx.rng record m)
      return f result : Op SgError (World Addr Priv Pub B) α) :=
  Op.Moves.bind (fun _ => rfl) fun _ => Op.Moves.pure _

/-- What a delivery does to the saved identities before its callback. -/
theorem Outer.receive_identities (outer : Outer Pub B) (ctx : SignalContext Addr Priv Pub B)
    (address : Addr) (w : World Addr Priv Pub B) :
    (outer.receive ctx address w).2.identities = w.identities ∨
      ∃ m, outer = .preKey m ∧
        ctx.trusted address (w.identities address) m.identityKey = true ∧
        (outer.receive ctx address w).2.identities =
          Function.update w.identities address (some m.identityKey) := by
  cases outer with
  | signal m =>
    have hload : Op.Moves World.SameIdentities
        (signalProtocolSessionLoadSession ctx.provider address) := fun w => by
      rw [load_eq]
      exact refl_of World.SameIdentities w
    have hcontains : Op.Moves World.SameIdentities
        (signalProtocolSessionContainsSession address :
          Op SgError (World Addr Priv Pub B) Bool) := fun w => refl_of World.SameIdentities w
    have hmoves : Op.Moves World.SameIdentities ((signal m).receive ctx address) :=
      hcontains.bind fun _ => (Op.Moves.require _ _).bind fun _ => hload.bind fun record =>
        sameIdentities_decrypt ctx record m _
    exact Or.inl (hmoves w)
  | preKey m =>
    rw [receive_preKey_apply, Op.bind_apply, load_eq]
    cases w.record ctx.provider address with
    | error e => exact Or.inl rfl
    | ok record =>
      dsimp only
      by_cases ht : ctx.trusted address (w.identities address) m.identityKey = true
      swap
      · rw [Op.require_of_not ht]
        exact Or.inl rfl
      rw [Op.require_of ht, Op.pure_bind_apply, receiveTrusted]
      rcases processV3_cases ctx record m w with ⟨-, built, hbuilt⟩ | ⟨-, e, he⟩
      swap
      · rw [Op.bind_of_error he]
        exact Or.inl rfl
      rw [Op.bind_of_ok hbuilt]
      exact Or.inr ⟨m, rfl, ht, sameIdentities_decrypt ctx built.1 m.message _
        (w.saveIdentity address m.identityKey)⟩

/-- What gets to the callback has its sender's identity saved. -/
theorem Outer.identity_saved {m : PreKeySignalMessage Pub B}
    {ctx : SignalContext Addr Priv Pub B} {address : Addr} {w w₁ : World Addr Priv Pub B}
    {received : B × SessionRecord Priv Pub B × Option UInt32}
    (h : (preKey m).receive ctx address w = (.ok received, w₁)) :
    w₁.identities address = some m.identityKey := by
  rw [receive_preKey_apply] at h
  obtain ⟨record, w₀, -, hrest⟩ := Op.bind_ok_iff.1 h
  obtain ⟨_, w₂, -, hdone⟩ := Op.bind_ok_iff.1 hrest
  obtain ⟨built, w₃, -, hdone⟩ := Op.bind_ok_iff.1 hdone
  have hmoves := sameIdentities_decrypt ctx built.1 m.message
    (fun result => (result.1, result.2, built.2)) (w₃.saveIdentity address m.identityKey)
  have hdone' : (do
      let result ← atRandom (sessionCipherDecryptFromRecord ctx.provider ctx.rng built.1 m.message)
      return (result.1, result.2, built.2) : Op SgError (World Addr Priv Pub B) _)
        (w₃.saveIdentity address m.identityKey) = (.ok received, w₁) := hdone
  rw [hdone'] at hmoves
  exact (congrFun hmoves address).trans (Function.update_self ..)

variable [DecidableEq Name] {ctx : SignalContext Addr Priv Pub B} {P : GroupProvider Priv Pub B}
  {d : Device Addr Name Priv Pub B} {address : Addr} {m : PreKeySignalMessage Pub B}

/-- **A saved identity stays saved when a delivery fails**: another one for the same address is
not trusted, and those for other addresses do not matter. -/
theorem Attempt.saved (hfirst : TrustsOnFirstUse ctx) {a : Attempt Addr Name Pub B} {e : SgError}
    (ha : (a.run ctx P d).1 = .error e)
    (hsaved : d.world.identities address = some m.identityKey) :
    (a.run ctx P d).2.world.identities address = some m.identityKey := by
  obtain ⟨delivery, verdict⟩ := a
  cases delivery with
  | group name message => exact hsaved
  | session address' outer =>
    have hstate : ((⟨.session address' outer, verdict⟩ : Attempt Addr Name Pub B).run
        ctx P d).2.world = (outer.receive ctx address' d.world).2 :=
      Outer.state_of_deliver_error (Prod.ext ha rfl)
    rw [hstate]
    rcases outer.receive_identities ctx address' d.world with hids | ⟨m', -, ht, hids⟩
    · rw [hids, hsaved]
    · rw [hids]
      by_cases heq : address = address'
      · subst heq
        rw [hsaved] at ht
        rw [Function.update_self, hfirst.eq ht]
      · rw [Function.update_of_ne heq, hsaved]

theorem trusted_of_saved (hfirst : TrustsOnFirstUse ctx) :
    ∀ (attempts : List (Attempt Addr Name Pub B)) {d : Device Addr Name Priv Pub B},
      d.world.identities address = some m.identityKey → AllFail ctx P attempts d →
      (Delivery.session address (.preKey m)).Trusted ctx (runAttempts ctx P attempts d)
  | [], _, hsaved, _ => (hfirst _ _ _).2 (Or.inr hsaved)
  | _ :: attempts, _, hsaved, ⟨⟨_, he⟩, hrest⟩ =>
    trusted_of_saved hfirst attempts (Attempt.saved hfirst he hsaved) hrest

/-- **Under trust on first use the sender stays trusted**, once the message has been delivered
and refused.  So then it can always be repeated. -/
theorem trusted_of_trustsOnFirstUse (hfirst : TrustsOnFirstUse ctx)
    (hrng : ∀ n, ∃ key, ctx.rng.privateKey n = .ok key) {p : B} {a : Attempt Addr Name Pub B}
    (h : (a.delivery.run ctx P (fun _ => .ok ()) d).1 = .ok p) {e : SgError}
    (he : a.verdict p = .error e) (attempts : List (Attempt Addr Name Pub B))
    (hattempts : RejectedOrFailing ctx P a.delivery p attempts (a.run ctx P d).2) :
    a.delivery.Trusted ctx (runAttempts ctx P (a :: attempts) d) := by
  obtain ⟨hfail, -⟩ := runAttempts_fail hrng h (a :: attempts)
    ⟨refl_of World.SameButIdentities d.world, rfl⟩ ⟨Or.inl ⟨rfl, e, he⟩, hattempts⟩
  obtain ⟨delivery, verdict⟩ := a
  cases delivery with
  | group name message => trivial
  | session address outer =>
    cases outer with
    | signal message => trivial
    | preKey message =>
      have h' : ((Outer.preKey message).deliver ctx address (fun _ => .ok ()) d.world).1 = .ok p :=
        h
      rcases hr : (Outer.preKey message).receive ctx address d.world with ⟨e' | received, w₁⟩
      · rw [Outer.deliver_of_not_received hr] at h'
        cases h'
      obtain ⟨⟨e₁, he₁⟩, hrest⟩ := hfail
      have hstate : ((⟨.session address (.preKey message), verdict⟩ :
          Attempt Addr Name Pub B).run ctx P d).2.world = w₁ :=
        (Outer.state_of_deliver_error (Prod.ext he₁ rfl)).trans (congrArg Prod.snd hr)
      refine trusted_of_saved hfirst attempts ?_ hrest
      rw [hstate]
      exact Outer.identity_saved hr

end FirstUse

/-! ## 5. Two runs -/

/-- A party that trusts an identity if none is saved, if it is the saved one, or if it is 51, an
identity that was compared by hand. -/
def verifyingContext : SignalContext Nat Nat Nat Term :=
  { sampleContext with
    trusted := fun _ saved identity => saved = none ∨ saved = some identity ∨ identity = 51 }

/-- The sample party, in no group. -/
def sampleDevice : Device Nat Nat Nat Nat Term := ⟨sampleStore, ⟨fun _ => none, 0⟩⟩

/-- The stranger's honest message. -/
def honestDelivery : Delivery Nat Nat Nat Term := .session 0 (.preKey honestPreKeyMessage)

/-- It is delivered to a callback that refuses everything. -/
def refusedAttempt : Attempt Nat Nat Nat Term := ⟨honestDelivery, fun _ => .error .unknown⟩

/-- A message that names identity 51 and belongs to no session. -/
def forgedAttempt : Attempt Nat Nat Nat Term :=
  ⟨.session 0 (.preKey { strayPreKeyMessage with identityKey := 51 }), fun _ => .ok ()⟩

/-- Refused twice, the message is accepted at the third delivery. -/
theorem rejected_delivery_repeatable_iff_twice :
    (honestDelivery.run verifyingContext symbolicGroup (fun _ => .ok ())
      (runAttempts verifyingContext symbolicGroup [refusedAttempt, refusedAttempt]
        sampleDevice)).1 = .ok (.text 8) := by
  have htrusted : verifyingContext.trusted 0 ((runAttempts verifyingContext symbolicGroup
      [refusedAttempt, refusedAttempt] sampleDevice).world.identities 0) 50 = true := by
    decide +kernel
  exact ((rejected_delivery_repeatable_iff (fun _ => ⟨_, rfl⟩) (by decide +kernel)
    [refusedAttempt, refusedAttempt]
    ⟨Or.inl ⟨rfl, _, rfl⟩, Or.inl ⟨rfl, _, rfl⟩, trivial⟩).2 htrusted).2.2 _ rfl

/-- **A forged message in between.**  The callback refuses the honest message, then a message
with identity 51 fails.  No key of 51 was used to make it, but 51 is now the saved identity, and
the honest message is refused. -/
theorem forged_message_blocks_redelivery :
    (honestDelivery.run verifyingContext symbolicGroup (fun _ => .ok ()) sampleDevice).1 =
        .ok (.text 8) ∧
      (refusedAttempt.run verifyingContext symbolicGroup sampleDevice).1 = .error .unknown ∧
      (forgedAttempt.run verifyingContext symbolicGroup
        (runAttempts verifyingContext symbolicGroup [refusedAttempt] sampleDevice)).1 =
          .error .invalidMessage ∧
      (honestDelivery.run verifyingContext symbolicGroup (fun _ => .ok ())
        (runAttempts verifyingContext symbolicGroup [refusedAttempt, forgedAttempt]
          sampleDevice)).1 = .error .untrustedIdentity := by
  decide +kernel

end SignalProtocol
