/-
# Group messages (`group_cipher.c`, `group_session_builder.c`)

A member of a group keeps a sender key record for each sender, itself included, under the name
of the group and the sender.  `group_session_builder_create_session` makes a sender key when
there is none yet and describes it in a distribution message; the other members add it to their
record with `group_session_builder_process_session`.  `group_cipher_encrypt` and
`group_cipher_decrypt` move the chains.
-/
import SignalProtocol.GroupMessage
import SignalProtocol.SenderKeyRecord
import SignalProtocol.Symbolic

namespace SignalProtocol

variable {Name Priv Pub B : Type}

/-! ## 1. The store and the random source -/

/-- `Rng` with the random bytes of `signal_protocol_key_helper_generate_sender_key`. -/
structure GroupRng (Priv B : Type) extends Rng Priv B where
  senderKey : Nat → Except SgError B

/-- The sender key store and the position reached in the random source. -/
structure GroupWorld (Name B : Type) where
  senderKeys : Name → Option (List (SenderKeyStateStructure B))
  drawn : Nat

/-- The provider and the random source. -/
structure GroupContext (Priv Pub B : Type) where
  provider : GroupProvider Priv Pub B
  rng : GroupRng Priv B

/-- Run an operation that only consumes randomness. -/
def groupRandom {α : Type} (x : Op SgError Nat α) : Op SgError (GroupWorld Name B) α :=
  Op.zoom GroupWorld.drawn (fun w n => { w with drawn := n }) x

/-- `signal_protocol_sender_key_load_key`: a name without a record gets an empty one. -/
def signalProtocolSenderKeyLoadKey (P : Provider Priv Pub B) (name : Name) :
    Op SgError (GroupWorld Name B) (SenderKeyRecord Priv Pub B) := do
  let w ← Op.get
  match w.senderKeys name with
  | none => return ⟨[]⟩
  | some stored => Op.ofExcept (senderKeyRecordDeserialize P stored)

/-- `signal_protocol_sender_key_store_key`. -/
def signalProtocolSenderKeyStoreKey [DecidableEq Name] (P : Provider Priv Pub B) (name : Name)
    (record : SenderKeyRecord Priv Pub B) : Op SgError (GroupWorld Name B) Unit :=
  Op.modify fun w =>
    { w with senderKeys := Function.update w.senderKeys name (some (record.serialize P)) }

/-! ## 2. The builder -/

section Builder

variable [DecidableEq Name]

/-- `group_session_builder_process_session`. -/
def groupSessionBuilderProcessSession (P : Provider Priv Pub B) (name : Name)
    (message : SenderKeyDistributionMessage Pub B) : Op SgError (GroupWorld Name B) Unit := do
  let record ← signalProtocolSenderKeyLoadKey P name
  signalProtocolSenderKeyStoreKey P name
    (record.addSenderKeyState message.id message.iteration message.chainKey message.signatureKey)

/-- `signal_protocol_key_helper_generate_sender_key_id`. -/
def generateSenderKeyId (rng : Rng Priv B) : Op SgError Nat UInt32 :=
  signalProtocolKeyHelperGetRandomSequence rng 0x7FFFFFFF

/-- The part of `group_session_builder_create_session` for an empty record: a new sender key is
made and stored. -/
def createSenderKey (ctx : GroupContext Priv Pub B) (name : Name)
    (record : SenderKeyRecord Priv Pub B) :
    Op SgError (GroupWorld Name B) (SenderKeyRecord Priv Pub B) := do
  let senderKeyId ← groupRandom (generateSenderKeyId ctx.rng.toRng)
  let senderKey ← groupRandom (draw ctx.rng.senderKey)
  let senderSigningKey ←
    groupRandom (curveGenerateKeyPair ctx.provider.toProvider ctx.rng.toRng)
  let record := record.setSenderKeyState senderKeyId 0 senderKey senderSigningKey
  signalProtocolSenderKeyStoreKey ctx.provider.toProvider name record
  return record

/-- The distribution message for a state. -/
def SenderKeyState.distribution (state : SenderKeyState Priv Pub B) :
    SenderKeyDistributionMessage Pub B :=
  ⟨state.keyId, state.chainKey.iteration, state.chainKey.chainKey, state.signaturePublicKey⟩

/-- `group_session_builder_create_session`. -/
def groupSessionBuilderCreateSession (ctx : GroupContext Priv Pub B) (name : Name) :
    Op SgError (GroupWorld Name B) (SenderKeyDistributionMessage Pub B) := do
  let record ← signalProtocolSenderKeyLoadKey ctx.provider.toProvider name
  let record ← if record.isEmpty then createSenderKey ctx name record else pure record
  let state ← Op.ofExcept record.getSenderKeyState
  return state.distribution

end Builder

/-! ## 3. The cipher -/

/-- `group_cipher`. -/
structure GroupCipher (Name B : Type) where
  senderKeyId : Name
  insideCallback : Bool
  decryptCallback : Option (B → Op SgError (GroupWorld Name B) Unit)

/-- `group_cipher_create`. -/
def GroupCipher.create (senderKeyId : Name) : GroupCipher Name B := ⟨senderKeyId, false, none⟩

/-- How far ahead of its chain a group message may be. -/
def maxFutureMessages : UInt32 := 2000

/-- The loop of `group_cipher_get_sender_key`: the message keys up to an iteration are kept.
The number of rounds is the distance. -/
def skipSenderKeys (P : Provider Priv Pub B) (iteration : UInt32) :
    Nat → SenderChainKey B → SenderKeyState Priv Pub B →
      SenderChainKey B × SenderKeyState Priv Pub B
  | 0, chainKey, state => (chainKey, state)
  | rounds + 1, chainKey, state =>
    if chainKey.iteration < iteration then
      skipSenderKeys P iteration rounds (chainKey.createNext P)
        (state.addSenderMessageKey (chainKey.createMessageKey P))
    else (chainKey, state)

/-- `group_cipher_get_sender_key`, which works on the state in place. -/
def groupCipherGetSenderKey (P : Provider Priv Pub B) (iteration : UInt32) :
    Op SgError (SenderKeyState Priv Pub B) (SenderMessageKey B) := do
  let state ← Op.get
  if state.chainKey.iteration > iteration then
    if state.hasSenderMessageKey iteration then do
      let key ← Op.update fun state => state.removeSenderMessageKey iteration
      Op.ofOption .unknown key
    else Op.fail .duplicateMessage
  else if iteration - state.chainKey.iteration > maxFutureMessages then Op.fail .invalidMessage
  else do
    let current ← Op.update <|
      skipSenderKeys P iteration (iteration - state.chainKey.iteration).toNat state.chainKey
    Op.modify fun state => { state with chainKey := current.createNext P }
    return current.createMessageKey P

/-- What the caller has of it, whose record goes with a failure. -/
theorem onCopy_getSenderKey (P : Provider Priv Pub B) (state : SenderKeyState Priv Pub B)
    (iteration : UInt32) :
    (groupCipherGetSenderKey P iteration).onCopy state =
      if state.chainKey.iteration > iteration then
        if state.hasSenderMessageKey iteration then
          match state.removeSenderMessageKey iteration with
          | (some key, state) => .ok (key, state)
          | (none, _) => .error .unknown
        else .error .duplicateMessage
      else if iteration - state.chainKey.iteration > maxFutureMessages then
        .error .invalidMessage
      else
        let skipped := skipSenderKeys P iteration (iteration - state.chainKey.iteration).toNat
          state.chainKey state
        .ok (skipped.1.createMessageKey P,
          { skipped.2 with chainKey := skipped.1.createNext P }) := by
  unfold groupCipherGetSenderKey Op.onCopy
  rw [Op.get_bind_apply]
  split_ifs with hiteration hhas hfar
  · rw [Op.update_bind_apply]
    rcases state.removeSenderMessageKey iteration with ⟨_ | key, state'⟩ <;> rfl
  · rfl
  · rfl
  · rfl

/-- `group_cipher_decrypt_callback`. -/
def groupCipherDecryptCallback (cipher : GroupCipher Name B) (plaintext : B) :
    Op SgError (GroupWorld Name B) Unit :=
  match cipher.decryptCallback with
  | some callback => callback plaintext
  | none => pure ()

section Cipher

variable [DecidableEq Name]

/-- `group_cipher_encrypt`. -/
def groupCipherEncrypt (ctx : GroupContext Priv Pub B) (cipher : GroupCipher Name B)
    (paddedPlaintext : B) : Op SgError (GroupWorld Name B) (SenderKeyMessage B) :=
  Op.mapError (fun e => if e = .invalidKeyId then .noSession else e) do
    Op.require (cipher.insideCallback = false) .inval
    let record ← signalProtocolSenderKeyLoadKey ctx.provider.toProvider cipher.senderKeyId
    let state ← Op.ofExcept record.getSenderKeyState
    let signingKeyPrivate ← Op.ofOption .noSession state.signaturePrivateKey
    let senderKey := state.chainKey.createMessageKey ctx.provider.toProvider
    let ciphertext ← Op.ofExcept <|
      ctx.provider.encrypt .cbcPkcs5 senderKey.cipherKey senderKey.iv paddedPlaintext
    let message ← groupRandom <|
      senderKeyMessageCreate ctx.provider ctx.rng.toRng state.keyId senderKey.iteration ciphertext
        signingKeyPrivate
    signalProtocolSenderKeyStoreKey ctx.provider.toProvider cipher.senderKeyId
      (record.setFirstState
        { state with chainKey := state.chainKey.createNext ctx.provider.toProvider })
    return message

/-- `group_cipher_decrypt`. -/
def groupCipherDecrypt (P : GroupProvider Priv Pub B) (cipher : GroupCipher Name B)
    (message : SenderKeyMessage B) : Op SgError (GroupWorld Name B) B :=
  Op.mapError (fun e => if e = .invalidKey ∨ e = .invalidKeyId then .invalidMessage else e) do
    Op.require (cipher.insideCallback = false) .inval
    let record ← signalProtocolSenderKeyLoadKey P.toProvider cipher.senderKeyId
    Op.require (record.isEmpty = false) .noSession
    let state ← Op.ofExcept (record.getSenderKeyStateById message.keyId)
    Op.ofExcept (message.verifySignature P state.signaturePublicKey)
    let result ← Op.ofExcept <|
      (groupCipherGetSenderKey P.toProvider message.iteration).onCopy state
    let plaintext ← Op.ofExcept <|
      P.decrypt .cbcPkcs5 result.1.cipherKey result.1.iv
        message.ciphertext
    groupCipherDecryptCallback cipher plaintext
    signalProtocolSenderKeyStoreKey P.toProvider cipher.senderKeyId
      (record.setStateById message.keyId result.2)
    return plaintext

end Cipher

/-! ## 4. The ideal provider -/

/-- `symbolic` for groups. -/
def symbolicGroup : GroupProvider Nat Nat Term where
  toProvider := symbolic
  frame version body := .cons (.bytes version 1) body
  packSenderKeyMessage m := .packed .nil m.id m.iteration (.ofOption m.ciphertext)
  unpackSenderKeyMessage
    | .packed _ id iteration ciphertext => .ok ⟨id, iteration, ciphertext.toOption⟩
    | _ => .error .invalidProtoBuf
  packSenderKeyDistributionMessage m :=
    .packed (.ofOption m.signingKey) m.id m.iteration (.ofOption m.chainKey)
  unpackSenderKeyDistributionMessage
    | .packed signingKey id iteration chainKey =>
      .ok ⟨id, iteration, chainKey.toOption, signingKey.toOption⟩
    | _ => .error .invalidProtoBuf
  unpack_packSenderKeyMessage m := by
    simp only [Term.toOption_ofOption]
  unpack_packSenderKeyDistributionMessage m := by
    simp only [Term.toOption_ofOption]
  verify_calculateSignature k m r := by
    simp [symbolic]

/-- A sender that computes with it. -/
def symbolicGroupContext : GroupContext Nat Nat Term where
  provider := symbolicGroup
  rng := { symbolicRng 100 1 with senderKey := fun n => .ok (.text n) }

end SignalProtocol
