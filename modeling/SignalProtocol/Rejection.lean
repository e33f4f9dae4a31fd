/-
# What a rejected message leaves behind

Two calls write to a store before they have authenticated what they were given.
`session_cipher_decrypt_pre_key_signal_message` saves the sender's identity as soon as the
builder is done, and only then decrypts the inner message.
`session_builder_process_key_exchange_message` stores the new session before it checks the
signature of a response, and before it signs the answer to an initiate.

Both theorems are about arbitrary stores and arbitrary messages, and say exactly when a
failed call has left the stores as they were.
-/
import SignalProtocol.KeyExchange
import SignalProtocol.Replay

namespace SignalProtocol

variable {Addr Priv Pub B : Type}

/-! ## 1. Pre-key messages -/

section PreKey

variable [LinearOrder Pub]

/-- The pre keys that a message names are in the store. -/
def PreKeySignalMessage.KeysPresent (m : PreKeySignalMessage Pub B) (w : World Addr Priv Pub B) :
    Prop :=
  w.signedPreKeys m.signedPreKeyId ≠ none ∧ ∀ i ∈ m.preKeyId, w.preKeys i ≠ none

/-- **The builder accepts the message**: the record can be read, the sender's identity is
trusted, and the record has a session for the base key or the pre keys are there. -/
def BuilderAccepts (ctx : SignalContext Addr Priv Pub B) (cipher : SessionCipher Addr Priv Pub B)
    (m : PreKeySignalMessage Pub B) (w : World Addr Priv Pub B) : Prop :=
  cipher.insideCallback = false ∧
    ctx.trusted cipher.remoteAddress (w.identities cipher.remoteAddress) m.identityKey = true ∧
    ∃ record, w.record ctx.provider cipher.remoteAddress = .ok record ∧
      (record.hasSessionState m.version.toUInt32 m.baseKey = true ∨ m.KeysPresent w)

variable {ctx : SignalContext Addr Priv Pub B} {cipher : SessionCipher Addr Priv Pub B}
  {m : PreKeySignalMessage Pub B} {w w' : World Addr Priv Pub B}

/-- The builder proper reads, and succeeds iff it finds what it needs. -/
theorem processV3_cases (ctx : SignalContext Addr Priv Pub B) (record : SessionRecord Priv Pub B)
    (m : PreKeySignalMessage Pub B) (w : World Addr Priv Pub B) :
    ((record.hasSessionState m.version.toUInt32 m.baseKey = true ∨ m.KeysPresent w) ∧
        ∃ r, sessionBuilderProcessPreKeySignalMessageV3 ctx record m w = (.ok r, w)) ∨
      (¬ (record.hasSessionState m.version.toUInt32 m.baseKey = true ∨ m.KeysPresent w) ∧
        ∃ e, sessionBuilderProcessPreKeySignalMessageV3 ctx record m w = (.error e, w)) := by
  simp only [sessionBuilderProcessPreKeySignalMessageV3,
    Threaded.sessionBuilderProcessPreKeySignalMessageV3, Program.run_eqs]
  unfold PreKeySignalMessage.KeysPresent
  split
  · rename_i hs
    exact Or.inl ⟨Or.inl hs, _, rfl⟩
  · rename_i hs
    unfold signalProtocolSignedPreKeyLoadKey
    rw [Op.bind_assoc, Op.get_bind_apply]
    cases hsigned : w.signedPreKeys m.signedPreKeyId with
    | none =>
      refine Or.inr ⟨?_, .invalidKeyId, rfl⟩
      rintro (h | ⟨h, -⟩)
      · exact hs h
      · exact h rfl
    | some signedPreKey =>
      have hid : signalProtocolIdentityGetKeyPair w = (.ok w.identityKeyPair, w) := rfl
      rw [Op.ofOption_some, Op.pure_bind_apply, Op.bind_of_ok hid]
      cases hp : m.preKeyId with
      | none =>
        refine Or.inl ⟨Or.inr ⟨Option.some_ne_none _, ?_⟩, _, rfl⟩
        rintro _ ⟨⟩
      | some preKeyId =>
        cases ho : w.preKeys preKeyId with
        | none =>
          refine Or.inr ⟨?_, .invalidKeyId, Op.bind_of_error (loadOneTimePreKey_of_none ho)⟩
          rintro (h | ⟨-, h⟩)
          · exact hs h
          · exact h preKeyId rfl ho
        | some oneTimePreKey =>
          refine Or.inl ⟨Or.inr ⟨Option.some_ne_none _, ?_⟩, _,
            (Op.bind_of_ok (loadOneTimePreKey_of_some ho)).trans rfl⟩
          rintro i ⟨⟩ hi
          rw [ho] at hi
          cases hi

variable [DecidableEq Addr] [DecidableEq B]

/-- **Where a failed call stopped.**  Either the builder accepted the message and its sender's
identity was saved, or nothing was written. -/
theorem decryptPreKey_stopped {e : SgError}
    (hcb : ∀ p w, (sessionCipherDecryptCallback cipher p w).2 = w)
    (h : sessionCipherDecryptPreKeySignalMessage ctx cipher m w = (.error e, w')) :
    (BuilderAccepts ctx cipher m w ∧
        w'.toStore = (w.saveIdentity cipher.remoteAddress m.identityKey).toStore) ∨
      (¬ BuilderAccepts ctx cipher m w ∧ w'.toStore = w.toStore) := by
  simp only [sessionCipherDecryptPreKeySignalMessage,
    Threaded.sessionCipherDecryptPreKeySignalMessage, Program.run_eqs, run_drawing,
    Threaded.run_decryptFromRecord, Threaded.run_decryptCallback,
    Threaded.run_processPreKeySignalMessage] at h
  by_cases hin : cipher.insideCallback = false
  swap
  · rw [Op.require_of_not hin] at h
    cases h
    exact Or.inr ⟨fun hb => hin hb.1, rfl⟩
  rw [Op.require_of hin, Op.pure_bind_apply] at h
  rcases hl : w.record ctx.provider cipher.remoteAddress with _ | record
  · rw [Op.bind_of_error ((load_eq ..).trans (by rw [hl]))] at h
    cases h
    refine Or.inr ⟨fun hb => ?_, rfl⟩
    obtain ⟨-, -, record, hr, -⟩ := hb
    rw [hl] at hr
    cases hr
  rw [Op.bind_of_ok ((load_eq ..).trans (by rw [hl]))] at h
  simp only [sessionBuilderProcessPreKeySignalMessage,
    Threaded.sessionBuilderProcessPreKeySignalMessage, Program.run_eqs,
    Threaded.run_processPreKeySignalMessageV3, signalProtocolIdentityIsTrustedIdentity,
    Op.ofOption_some, Op.pure_bind_apply, Op.bind_assoc, Op.get_bind_apply] at h
  by_cases ht : ctx.trusted cipher.remoteAddress (w.identities cipher.remoteAddress)
    m.identityKey = true
  swap
  · rw [Op.require_of_not ht] at h
    cases h
    exact Or.inr ⟨fun hb => ht hb.2.1, rfl⟩
  rw [Op.require_of ht, Op.pure_bind_apply] at h
  rcases processV3_cases ctx record m w with ⟨hv, r, hr⟩ | ⟨hv, e', hr⟩
  swap
  · rw [Op.bind_of_error hr] at h
    cases h
    refine Or.inr ⟨fun hb => ?_, rfl⟩
    obtain ⟨-, -, record', hr', hv'⟩ := hb
    rw [hl] at hr'
    cases hr'
    exact hv hv'
  refine Or.inl ⟨⟨hin, ht, record, hl, hv⟩, ?_⟩
  rw [Op.bind_of_ok hr, Op.bind_of_ok (show signalProtocolIdentitySaveIdentity
    cipher.remoteAddress m.identityKey w =
      (.ok (), w.saveIdentity cipher.remoteAddress m.identityKey) from rfl)] at h
  -- from here on the only failures are the decryption and the callback
  rcases Op.bind_error_iff.1 h with h | ⟨result, w₁, hdec, h⟩
  · exact stores_of_atRandom h
  · have hw₁ := stores_of_atRandom hdec
    rcases Op.bind_error_iff.1 h with h | ⟨_, w₂, -, h⟩
    · have hcb' := hcb result.1 w₁
      rw [h] at hcb'
      subst hcb'
      exact hw₁
    · rw [Op.bind_of_ok (show signalProtocolSessionStoreSession ctx.provider cipher.remoteAddress
        result.2 w₂ = (.ok (), _) from rfl), Op.bind_of_ok (removeOneTimePreKey_apply ..)] at h
      cases h

/-- **When a rejected pre-key message changes nothing.**  Whatever the stores hold, a call that
fails has left the session, pre key and identity stores as they were exactly if the identity
was saved already or the builder did not accept the message. -/
theorem rejected_preKey_message_unchanged_iff {e : SgError}
    (hcb : ∀ p w, (sessionCipherDecryptCallback cipher p w).2 = w)
    (h : sessionCipherDecryptPreKeySignalMessage ctx cipher m w = (.error e, w')) :
    (w'.sessions = w.sessions ∧ w'.preKeys = w.preKeys ∧ w'.identities = w.identities) ↔
      (w.identities cipher.remoteAddress = some m.identityKey ∨
        ¬ BuilderAccepts ctx cipher m w) := by
  rcases decryptPreKey_stopped hcb h with ⟨hb, hs⟩ | ⟨hb, hs⟩
  · have hid : w'.identities = Function.update w.identities cipher.remoteAddress
        (some m.identityKey) := congrArg Store.identities hs
    constructor
    · rintro ⟨-, -, hsame⟩
      rw [hid, Function.update_eq_self_iff] at hsame
      exact Or.inl hsame.symm
    · rintro (hsaved | hnot)
      · have hsessions : w'.sessions = w.sessions := (congrArg Store.sessions hs).trans rfl
        have hpreKeys : w'.preKeys = w.preKeys := (congrArg Store.preKeys hs).trans rfl
        refine ⟨hsessions, hpreKeys, ?_⟩
        rw [hid, ← hsaved, Function.update_eq_self]
      · exact absurd hb hnot
  · exact ⟨fun _ => Or.inr hb, fun _ => ⟨congrArg Store.sessions hs, congrArg Store.preKeys hs,
      congrArg Store.identities hs⟩⟩

/-- A message from a stranger whose inner message belongs to no session. -/
def strayPreKeyMessage : PreKeySignalMessage Nat Term where
  version := 3
  registrationId := 0
  preKeyId := none
  signedPreKeyId := 7
  baseKey := 60
  identityKey := 50
  message := sampleMessage samplePeerSession (.text 9)

/-- The stray message is rejected, and its sender's identity is saved all the same. -/
theorem rejected_preKey_message_saves_identity :
    (sessionCipherDecryptPreKeySignalMessage sampleContext (SessionCipher.create 0)
        strayPreKeyMessage sampleStore).1 = .error .invalidMessage ∧
      sampleStore.identities 0 = none ∧
      (sessionCipherDecryptPreKeySignalMessage sampleContext (SessionCipher.create 0)
        strayPreKeyMessage sampleStore).2.identities 0 = some 50 := by
  decide +kernel

/-- The sample store after the stranger's identity was saved. -/
def acquaintedStore : World Nat Nat Nat Term := sampleStore.saveIdentity 0 50

/-- Rejected again, the stray message changes nothing more. -/
theorem rejected_preKey_message_unchanged_when_saved :
    (sessionCipherDecryptPreKeySignalMessage sampleContext (SessionCipher.create 0)
      strayPreKeyMessage acquaintedStore).2.identities = acquaintedStore.identities := by
  have h : (sessionCipherDecryptPreKeySignalMessage sampleContext (SessionCipher.create 0)
      strayPreKeyMessage acquaintedStore).1 = .error .invalidMessage := by decide +kernel
  exact ((rejected_preKey_message_unchanged_iff (SessionCipher.passive_create 0).callback
    (Prod.ext h rfl)).2 (Or.inl rfl)).2.2

end PreKey

/-! ## 2. Key exchange messages -/

section Exchange

variable [DecidableEq Addr] [LinearOrder Pub] {ctx : SignalContext Addr Priv Pub B}
  {remoteAddress : Addr} {message : KeyExchangeMessage Pub B} {w w' : World Addr Priv Pub B}

/-- **The call has nothing left to write.**  Either it stops before it has agreed on a session,
or it answers an initiate and the record and the identity that it writes are there already. -/
def NothingToWrite (ctx : SignalContext Addr Priv Pub B) (remoteAddress : Addr)
    (message : KeyExchangeMessage Pub B) (w : World Addr Priv Pub B) : Prop :=
  ∀ record agreed n, Agrees ctx remoteAddress message w record agreed n →
    message.isInitiate = true ∧
      w.sessions remoteAddress = some (agreed.record.serialize ctx.provider) ∧
      w.identities remoteAddress = some message.identityKey

omit [DecidableEq Addr] in
/-- A response never finds the record it writes in the store: that record has no pending key
exchange, and the one it was made from has one. -/
theorem response_changes_record {record : SessionRecord Priv Pub B} {agreed : Agreed Priv Pub B}
    {n : Nat} (h : Agrees ctx remoteAddress message w record agreed n)
    (hi : message.isInitiate = false) :
    w.sessions remoteAddress ≠ some (agreed.record.serialize ctx.provider) := by
  intro hstored
  obtain ⟨-, hrecord, _, _, hfound, -⟩ := id h
  obtain ⟨pending, hfilter, -⟩ := hfound.of_response hi
  have hpending := (Option.filter_eq_some_iff.1 hfilter).1
  rcases record_cases hrecord with ⟨-, rfl⟩ | ⟨-, stored, hs, hdes⟩
  · cases hpending
  rw [hs] at hstored
  cases hstored
  have hsame : record.state.pendingKeyExchange = agreed.record.state.pendingKeyExchange :=
    (List.cons.inj (pendings_of_deserialize hdes)).1
  rw [hpending, h.state.2] at hsame
  cases hsame

/-- **When a rejected key exchange message changes nothing.** -/
theorem rejected_key_exchange_unchanged_iff {e : SgError}
    (h : sessionBuilderProcessKeyExchangeMessage ctx remoteAddress message w = (.error e, w')) :
    (w'.sessions = w.sessions ∧ w'.identities = w.identities) ↔
      NothingToWrite ctx remoteAddress message w := by
  rw [processKeyExchangeMessage_eq] at h
  have hdraws := onlyDraws_agreedSession ctx remoteAddress message w
  rcases hagreed : agreedSession ctx remoteAddress message w with ⟨e' | _ | agreed, w₁⟩ <;>
    rw [hagreed] at hdraws
  · -- it stopped before its first write
    rw [Op.bind_of_error hagreed] at h
    cases h
    refine ⟨fun _ record agreed n hn => ?_, fun _ => ⟨congrArg Store.sessions hdraws.stores,
      congrArg Store.identities hdraws.stores⟩⟩
    cases hagreed.symm.trans (agreedSession_iff.2 ⟨record, n, hn, rfl⟩)
  · rw [Op.bind_of_ok hagreed] at h
    cases h
  · rw [Op.bind_of_ok hagreed] at h
    obtain ⟨record, n, hagrees, -⟩ := agreedSession_iff.1 hagreed
    have hsessions : w₁.sessions = w.sessions := congrArg Store.sessions hdraws.stores
    have hidentities : w₁.identities = w.identities := congrArg Store.identities hdraws.stores
    have hiff : NothingToWrite ctx remoteAddress message w ↔ message.isInitiate = true ∧
        w.sessions remoteAddress = some (agreed.record.serialize ctx.provider) ∧
        w.identities remoteAddress = some message.identityKey := by
      refine ⟨fun hn => hn record agreed n hagrees, fun hn record' agreed' n' hn' => ?_⟩
      cases hagreed.symm.trans (agreedSession_iff.2 ⟨record', n', hn', rfl⟩)
      exact hn
    rw [hiff]
    cases hi : message.isInitiate with
    | true =>
      rw [writeAgreed_initiate hi] at h
      have hw' : w' = (w₁.commit ctx.provider remoteAddress message agreed).at (w₁.drawn + 1) :=
        (congrArg Prod.snd h).symm
      have hs : w'.sessions = Function.update w.sessions remoteAddress
          (some (agreed.record.serialize ctx.provider)) := by
        rw [hw', ← hsessions]
        rfl
      have hid : w'.identities = Function.update w.identities remoteAddress
          (some message.identityKey) := by
        rw [hw', ← hidentities]
        rfl
      rw [hs, hid, Function.update_eq_self_iff, Function.update_eq_self_iff]
      simp only [true_and, eq_comm]
    | false =>
      rw [writeAgreed_response hi agreed hagrees.state.1] at h
      refine ⟨fun hsame => ?_, fun hn => by cases hn.1⟩
      have hs : w'.sessions = Function.update w.sessions remoteAddress
          (some (agreed.record.serialize ctx.provider)) := by
        cases hc : message.checkSignature ctx.provider with
        | ok u =>
          rw [hc] at h
          cases h
        | error e' =>
          rw [hc] at h
          cases h
          rw [← hsessions]
          rfl
      rw [hs, Function.update_eq_self_iff] at hsame
      exact absurd hsame.1.symm (response_changes_record hagrees hi)

end Exchange

/-- The sample party after it has started a key exchange, with sequence number 1. -/
def exchangingStore : World Nat Nat Nat Term :=
  (sessionBuilderProcess sampleContext 0 sampleStore).2

/-- A response with a base key that nobody has signed. -/
def unsignedResponse (sequence : UInt32) : KeyExchangeMessage Nat Term where
  version := 3
  sequence := sequence
  flags := keyExchangeResponseFlag
  baseKey := 60
  baseKeySignature := .text 0
  ratchetKey := 61
  identityKey := 50

/-- The response is rejected for its signature, and the session made from it is stored all the
same. -/
theorem rejected_key_exchange_stores_session :
    (sessionBuilderProcessKeyExchangeMessage sampleContext 0 (unsignedResponse 1)
        exchangingStore).1 = .error .invalidKey ∧
      (sessionBuilderProcessKeyExchangeMessage sampleContext 0 (unsignedResponse 1)
        exchangingStore).2.sessions 0 ≠ exchangingStore.sessions 0 := by
  decide +kernel

/-- With another sequence number it is stale, and changes nothing. -/
theorem rejected_key_exchange_unchanged_when_stale :
    (sessionBuilderProcessKeyExchangeMessage sampleContext 0 (unsignedResponse 2)
      exchangingStore).2.sessions = exchangingStore.sessions := by
  have h : (sessionBuilderProcessKeyExchangeMessage sampleContext 0 (unsignedResponse 2)
      exchangingStore).1 = .error .staleKeyExchange := by decide +kernel
  refine ((rejected_key_exchange_unchanged_iff (Prod.ext h rfl)).2 ?_).1
  intro record agreed n hagrees
  have hstops : (agreedSession sampleContext 0 (unsignedResponse 2)
      exchangingStore).1.toOption.isNone = true := by decide +kernel
  rw [agreedSession_iff.2 ⟨record, n, hagrees, rfl⟩] at hstops
  cases hstops

end SignalProtocol
