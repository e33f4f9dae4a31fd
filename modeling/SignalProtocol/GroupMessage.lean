/-
# Group messages (`protocol.c`, second half)

A sender key message carries one encrypted group message: the id of the sender key, the
iteration of its chain, the ciphertext, and a signature over everything before it.  A sender
key distribution message hands a sender key to the other members of the group.

`GroupProvider` is `Provider` with the packing of these two messages.
-/
import SignalProtocol.Store

namespace SignalProtocol

variable {Priv Pub B : Type}

/-- `Textsecure__SenderKeyMessage`; a field of the message is present iff it is `some`. -/
structure SenderKeyMessageStructure (B : Type) where
  id : Option UInt32
  iteration : Option UInt32
  ciphertext : Option B
  deriving DecidableEq, Repr

/-- `Textsecure__SenderKeyDistributionMessage`. -/
structure SenderKeyDistributionMessageStructure (B : Type) where
  id : Option UInt32
  iteration : Option UInt32
  chainKey : Option B
  signingKey : Option B
  deriving DecidableEq, Repr

/-- What the group part of the library calls on top of `Provider`. -/
structure GroupProvider (Priv Pub B : Type) extends Provider Priv Pub B where
  /-- A version byte and a packed body, as one buffer. -/
  frame : UInt8 → B → B
  /-- `textsecure__sender_key_message__pack`. -/
  packSenderKeyMessage : SenderKeyMessageStructure B → B
  /-- `textsecure__sender_key_message__unpack`. -/
  unpackSenderKeyMessage : B → Except SgError (SenderKeyMessageStructure B)
  /-- `textsecure__sender_key_distribution_message__pack`. -/
  packSenderKeyDistributionMessage : SenderKeyDistributionMessageStructure B → B
  /-- `textsecure__sender_key_distribution_message__unpack`. -/
  unpackSenderKeyDistributionMessage :
    B → Except SgError (SenderKeyDistributionMessageStructure B)
  unpack_packSenderKeyMessage : ∀ m, unpackSenderKeyMessage (packSenderKeyMessage m) = .ok m
  unpack_packSenderKeyDistributionMessage : ∀ m,
    unpackSenderKeyDistributionMessage (packSenderKeyDistributionMessage m) = .ok m
  verify_calculateSignature : ∀ k m r,
    verifySignature (publicKey k) m (calculateSignature k m r) = true

/-! ## 1. Sender key messages -/

/-- The three sections of a serialized sender key message. -/
structure SignedMessage (B : Type) where
  version : UInt8
  body : B
  signature : B
  deriving DecidableEq, Repr

/-- `sender_key_message`. -/
structure SenderKeyMessage (B : Type) where
  messageVersion : UInt8
  keyId : UInt32
  iteration : UInt32
  ciphertext : B
  serialized : SignedMessage B
  deriving DecidableEq, Repr

/-- `SIGNATURE_LENGTH`. -/
def signatureLength : Nat := 64

/-- The buffer that `sender_key_message_serialize` signs. -/
def senderKeyMessageSigned (P : GroupProvider Priv Pub B) (keyId iteration : UInt32)
    (ciphertext : B) : B :=
  P.frame (versionByte ciphertextCurrentVersion)
    (P.packSenderKeyMessage ⟨some keyId, some iteration, some ciphertext⟩)

/-- The message with a given signature. -/
def SenderKeyMessage.signedWith (P : GroupProvider Priv Pub B) (keyId iteration : UInt32)
    (ciphertext signature : B) : SenderKeyMessage B where
  messageVersion := ciphertextCurrentVersion
  keyId := keyId
  iteration := iteration
  ciphertext := ciphertext
  serialized :=
    { version := versionByte ciphertextCurrentVersion
      body := P.packSenderKeyMessage ⟨some keyId, some iteration, some ciphertext⟩
      signature := signature }

/-- `sender_key_message_create`, with `sender_key_message_serialize`. -/
def senderKeyMessageCreate (P : GroupProvider Priv Pub B) (rng : Rng Priv B)
    (keyId iteration : UInt32) (ciphertext : B) (signatureKey : Priv) :
    Op SgError Nat (SenderKeyMessage B) := do
  let signature ← Op.mapError (fun e => if e = .invalidKey then .unknown else e) <|
    curveCalculateSignature P.toProvider rng signatureKey
      (senderKeyMessageSigned P keyId iteration ciphertext)
  Op.require (P.len signature = signatureLength) .unknown
  return .signedWith P keyId iteration ciphertext signature

/-- `sender_key_message_deserialize` of the bytes with these sections. -/
def SignedMessage.deserialize (P : GroupProvider Priv Pub B) (s : SignedMessage B) :
    Except SgError (SenderKeyMessage B) := do
  let version := (s.version &&& 0xF0) >>> 4
  if version < ciphertextCurrentVersion then
    throw .legacyMessage
  if version > ciphertextCurrentVersion then
    throw .invalidVersion
  match P.unpackSenderKeyMessage s.body with
  | .error e => throw e
  | .ok ⟨some id, some iteration, some ciphertext⟩ =>
    return ⟨version, id, iteration, ciphertext, s⟩
  | .ok _ => throw .invalidMessage

theorem SignedMessage.deserialize_serialized {P : GroupProvider Priv Pub B} {s : SignedMessage B}
    {m : SenderKeyMessage B} (h : s.deserialize P = .ok m) : m.serialized = s := by
  simp only [SignedMessage.deserialize, bind, Except.bind, pure, Except.pure, throw, throwThe,
    MonadExceptOf.throw] at h
  split at h
  · cases h
  split at h
  · cases h
  split at h
  · cases h
  · cases h
    rfl
  · cases h

/-- `sender_key_message_verify_signature`. -/
def SenderKeyMessage.verifySignature (P : GroupProvider Priv Pub B) (signatureKey : Pub)
    (message : SenderKeyMessage B) : Except SgError Unit :=
  match curveVerifySignature P.toProvider signatureKey
      (P.frame message.serialized.version message.serialized.body) message.serialized.signature
      signatureLength with
  | .ok true => .ok ()
  | _ => .error .invalidMessage

/-- **A message with a signature reads back as itself.** -/
theorem SenderKeyMessage.deserialize_signedWith (P : GroupProvider Priv Pub B)
    (keyId iteration : UInt32) (ciphertext signature : B) :
    (SenderKeyMessage.signedWith P keyId iteration ciphertext signature).serialized.deserialize P =
      .ok (.signedWith P keyId iteration ciphertext signature) := by
  have hv : (versionByte ciphertextCurrentVersion &&& 0xF0) >>> 4 = 3 := by decide
  simp only [SignedMessage.deserialize, SenderKeyMessage.signedWith, hv,
    P.unpack_packSenderKeyMessage]
  rfl

/-- **A signature made with a private key verifies** under its public key. -/
theorem SenderKeyMessage.verifySignature_signedWith (P : GroupProvider Priv Pub B)
    (keyId iteration : UInt32) (ciphertext : B) (key : Priv) (random : B) :
    (SenderKeyMessage.signedWith P keyId iteration ciphertext
      (P.calculateSignature key (senderKeyMessageSigned P keyId iteration ciphertext)
        random)).verifySignature P (P.publicKey key) = .ok () := by
  have h := P.verify_calculateSignature key (senderKeyMessageSigned P keyId iteration ciphertext)
    random
  simp only [verifySignature, curveVerifySignature, signedWith, signatureLength,
    curveSignatureLen, ne_eq, not_true_eq_false, if_false]
  rw [senderKeyMessageSigned] at h ⊢
  rw [h]

/-- What creating a message comes to: the one draw of randomness decides. -/
theorem senderKeyMessageCreate_of_ok {P : GroupProvider Priv Pub B} {rng : Rng Priv B}
    {keyId iteration : UInt32} {ciphertext : B} {signatureKey : Priv} {n : Nat} {random : B}
    (h : rng.signatureRandom n = .ok random) :
    senderKeyMessageCreate P rng keyId iteration ciphertext signatureKey n =
      (.ok (.signedWith P keyId iteration ciphertext (P.calculateSignature signatureKey
        (senderKeyMessageSigned P keyId iteration ciphertext) random)), n + 1) := by
  have hsign : Op.mapError (fun e => if e = .invalidKey then .unknown else e)
      (curveCalculateSignature P.toProvider rng signatureKey
        (senderKeyMessageSigned P keyId iteration ciphertext)) n =
      (.ok (P.calculateSignature signatureKey
        (senderKeyMessageSigned P keyId iteration ciphertext) random), n + 1) := by
    simp only [Op.mapError, curveCalculateSignature, draw, Op.bind_apply, h, Op.pure_apply]
  have hlen : P.len (P.calculateSignature signatureKey
      (senderKeyMessageSigned P keyId iteration ciphertext) random) = signatureLength :=
    P.len_calculateSignature ..
  rw [senderKeyMessageCreate, Op.bind_of_ok hsign]
  exact Op.bind_of_ok ((Op.require_ok_iff (u := ())).2 ⟨hlen, rfl⟩)

theorem senderKeyMessageCreate_of_error {P : GroupProvider Priv Pub B} {rng : Rng Priv B}
    {keyId iteration : UInt32} {ciphertext : B} {signatureKey : Priv} {n : Nat} {e : SgError}
    (h : rng.signatureRandom n = .error e) :
    senderKeyMessageCreate P rng keyId iteration ciphertext signatureKey n =
      (.error (if e = .invalidKey then .unknown else e), n + 1) := by
  refine Op.bind_of_error ?_
  simp only [Op.mapError, curveCalculateSignature, draw, Op.bind_apply, h]

/-! ## 2. Sender key distribution messages -/

/-- `sender_key_distribution_message`. -/
structure SenderKeyDistributionMessage (Pub B : Type) where
  id : UInt32
  iteration : UInt32
  chainKey : B
  signatureKey : Pub
  deriving DecidableEq, Repr

/-- The body of `sender_key_distribution_message_serialize`. -/
def SenderKeyDistributionMessage.body (P : GroupProvider Priv Pub B)
    (message : SenderKeyDistributionMessage Pub B) : B :=
  P.packSenderKeyDistributionMessage
    ⟨some message.id, some message.iteration, some message.chainKey,
      some (P.encodePoint message.signatureKey)⟩

/-- `sender_key_distribution_message_deserialize` of a version byte and a packed body. -/
def senderKeyDistributionMessageDeserialize (P : GroupProvider Priv Pub B) (versionByte : UInt8)
    (body : B) : Except SgError (SenderKeyDistributionMessage Pub B) := do
  let version := (versionByte &&& 0xF0) >>> 4
  if version < ciphertextCurrentVersion then
    throw .legacyMessage
  if version > ciphertextCurrentVersion then
    throw .invalidVersion
  match P.unpackSenderKeyDistributionMessage body with
  | .error e => throw e
  | .ok ⟨some id, some iteration, some chainKey, some signingKey⟩ =>
    let signatureKey ← P.decodePoint signingKey
    return ⟨id, iteration, chainKey, signatureKey⟩
  | .ok _ => throw .invalidMessage

/-- **A distribution message reads back as itself.** -/
theorem senderKeyDistributionMessage_deserialize_body (P : GroupProvider Priv Pub B)
    (message : SenderKeyDistributionMessage Pub B) :
    senderKeyDistributionMessageDeserialize P (versionByte ciphertextCurrentVersion)
      (message.body P) = .ok message := by
  have hv : (versionByte ciphertextCurrentVersion &&& 0xF0) >>> 4 = 3 := by decide
  simp only [senderKeyDistributionMessageDeserialize, SenderKeyDistributionMessage.body, hv,
    P.unpack_packSenderKeyDistributionMessage, P.decodePoint_encodePoint]
  rfl

end SignalProtocol
