/-
# Messages (`protocol.c`)

Three kinds of message concern a session: the signal message with its MAC, the pre-key message
that wraps one together with what Bob needs to set up the session, and the key exchange
message.

The serialized form of a signal message matters, because the MAC is computed over it: it is
kept as its three sections, version byte, packed body and MAC.  A message that was received
was read from such bytes by `signal_message_deserialize`; `SignalMessage.Parsed` says so, and
`SignalMessage.parsed_create` that the messages this library creates read back as themselves.
-/
import SignalProtocol.Ratchet

namespace SignalProtocol

variable {Priv Pub B : Type}

/-! ## 1. Signal messages -/

/-- The three sections of a serialized signal message. -/
structure SerializedMessage (B : Type) where
  version : UInt8
  body : B
  mac : B
  deriving DecidableEq, Repr

/-- `signal_message`. -/
structure SignalMessage (Pub B : Type) where
  messageVersion : UInt8
  senderRatchetKey : Pub
  counter : UInt32
  previousCounter : UInt32
  ciphertext : B
  serialized : SerializedMessage B
  deriving DecidableEq, Repr

/-- `CIPHERTEXT_CURRENT_VERSION`. -/
def ciphertextCurrentVersion : UInt8 := 3

/-- `CIPHERTEXT_UNSUPPORTED_VERSION`. -/
def ciphertextUnsupportedVersion : UInt8 := 1

/-- `SIGNAL_MESSAGE_MAC_LENGTH`. -/
def signalMessageMacLength : Nat := 8

section Provider

variable (P : Provider Priv Pub B)

/-- `signal_message_get_mac`: the two identity keys enter from version 3 on. -/
def signalMessageGetMac (messageVersion : UInt8) (senderIdentityKey receiverIdentityKey : Pub)
    (macKey : B) (version : UInt8) (body : B) : B :=
  P.truncate signalMessageMacLength <| P.hmacSha256 macKey <|
    (if messageVersion ≥ 3 then
      [P.encodePoint senderIdentityKey, P.encodePoint receiverIdentityKey] else []) ++
    [P.fill version 1, body]

/-- The version byte of `signal_message_serialize`. -/
def versionByte (messageVersion : UInt8) : UInt8 :=
  messageVersion <<< 4 ||| ciphertextCurrentVersion

/-- `signal_message_create`. -/
def SignalMessage.create (messageVersion : UInt8) (macKey : B) (senderRatchetKey : Pub)
    (counter previousCounter : UInt32) (ciphertext : B)
    (senderIdentityKey receiverIdentityKey : Pub) : SignalMessage Pub B :=
  let version := versionByte messageVersion
  let body := P.packSignalMessage
    ⟨some (P.encodePoint senderRatchetKey), some counter, some previousCounter, some ciphertext⟩
  { messageVersion := messageVersion
    senderRatchetKey := senderRatchetKey
    counter := counter
    previousCounter := previousCounter
    ciphertext := ciphertext
    serialized :=
      { version := version
        body := body
        mac := signalMessageGetMac P messageVersion senderIdentityKey receiverIdentityKey macKey
          version body } }

/-- `signal_message_deserialize` of the bytes with these sections. -/
def SerializedMessage.deserialize (s : SerializedMessage B) :
    Except SgError (SignalMessage Pub B) := do
  let version := (s.version &&& 0xF0) >>> 4
  if version ≤ ciphertextUnsupportedVersion then
    throw .legacyMessage
  if version > ciphertextCurrentVersion then
    throw .invalidMessage
  match P.unpackSignalMessage s.body with
  | .error e => throw e
  | .ok ⟨some ratchetKey, some counter, previousCounter, some ciphertext⟩ =>
    let senderRatchetKey ← P.decodePoint ratchetKey
    return ⟨version, senderRatchetKey, counter, previousCounter.getD 0, ciphertext, s⟩
  | .ok _ => throw .invalidMessage

/-- `signal_message_verify_mac`: the MAC of the received bytes under this key is the one they
end with. -/
def SignalMessage.verifyMac [DecidableEq B] (senderIdentityKey receiverIdentityKey : Pub)
    (macKey : B) (message : SignalMessage Pub B) : Bool :=
  signalMessageGetMac P message.messageVersion senderIdentityKey receiverIdentityKey macKey
    message.serialized.version message.serialized.body = message.serialized.mac

/-- **A message as it is received**: its fields are what its bytes say. -/
def SignalMessage.Parsed (message : SignalMessage Pub B) : Prop :=
  message.serialized.deserialize P = .ok message

variable {P}

/-- The bytes of a received message determine it. -/
theorem SignalMessage.Parsed.eq_of_serialized {m m' : SignalMessage Pub B} (h : m.Parsed P)
    (h' : m'.Parsed P) (he : m.serialized = m'.serialized) : m = m' := by
  unfold SignalMessage.Parsed at h h'
  rw [he, h'] at h
  exact (Except.ok.inj h).symm

/-- **A created message reads back as itself.** -/
theorem SignalMessage.parsed_create (macKey : B) (ratchetKey : Pub) (counter previous : UInt32)
    (ciphertext : B) (sender receiver : Pub) :
    (SignalMessage.create P 3 macKey ratchetKey counter previous ciphertext sender
      receiver).Parsed P := by
  have hv : (versionByte 3 &&& 0xF0) >>> 4 = 3 := by decide
  simp only [SignalMessage.Parsed, SerializedMessage.deserialize, SignalMessage.create, hv,
    P.unpack_packSignalMessage, P.decodePoint_encodePoint]
  rfl

end Provider

/-! ## 2. Pre-key messages and bundles -/

/-- `pre_key_signal_message`. -/
structure PreKeySignalMessage (Pub B : Type) where
  version : UInt8
  registrationId : UInt32
  preKeyId : Option UInt32
  signedPreKeyId : UInt32
  baseKey : Pub
  identityKey : Pub
  message : SignalMessage Pub B
  deriving DecidableEq, Repr

/-- `Textsecure__PreKeySignalMessage`; the inner message is given by its sections. -/
structure PreKeySignalMessageStructure (B : Type) where
  registrationId : Option UInt32
  preKeyId : Option UInt32
  signedPreKeyId : Option UInt32
  baseKey : Option B
  identityKey : Option B
  message : Option (SerializedMessage B)
  deriving DecidableEq, Repr

/-- `pre_key_signal_message_deserialize` of a version byte and an unpacked body.  Only the
current version is accepted, and the inner message must have it too. -/
def PreKeySignalMessageStructure.deserialize (P : Provider Priv Pub B) (versionByte : UInt8)
    (s : PreKeySignalMessageStructure B) : Except SgError (PreKeySignalMessage Pub B) := do
  let version := (versionByte &&& 0xF0) >>> 4
  if version < ciphertextCurrentVersion then
    throw .legacyMessage
  if version > ciphertextCurrentVersion then
    throw .invalidVersion
  match s with
  | ⟨registrationId, preKeyId, some signedPreKeyId, some baseKey, some identityKey,
      some message⟩ =>
    let baseKey ← P.decodePoint baseKey
    let identityKey ← P.decodePoint identityKey
    let message ← message.deserialize P
    if message.messageVersion ≠ version then
      throw .invalidVersion
    return ⟨version, registrationId.getD 0, preKeyId, signedPreKeyId, baseKey, identityKey,
      message⟩
  | _ => throw .invalidMessage

/-- **A pre-key message as it is received**: it was read from some bytes. -/
def PreKeySignalMessage.Parsed (P : Provider Priv Pub B) (message : PreKeySignalMessage Pub B) :
    Prop :=
  ∃ versionByte s, PreKeySignalMessageStructure.deserialize P versionByte s = .ok message

theorem SerializedMessage.deserialize_serialized {P : Provider Priv Pub B}
    {s : SerializedMessage B} {m : SignalMessage Pub B} (h : s.deserialize P = .ok m) :
    m.serialized = s := by
  simp only [SerializedMessage.deserialize, bind, Except.bind, pure, Except.pure, throw,
    throwThe, MonadExceptOf.throw] at h
  split at h
  · cases h
  split at h
  · cases h
  split at h
  · cases h
  · split at h
    · cases h
    · cases h
      rfl
  · cases h

/-- What reading a pre-key message has checked. -/
theorem PreKeySignalMessage.Parsed.spec {P : Provider Priv Pub B}
    {m : PreKeySignalMessage Pub B} (h : m.Parsed P) : m.version = 3 ∧ m.message.Parsed P := by
  obtain ⟨versionByte, s, h⟩ := h
  simp only [PreKeySignalMessageStructure.deserialize, bind, Except.bind, pure, Except.pure, throw,
    throwThe, MonadExceptOf.throw] at h
  split at h
  · cases h
  rename_i hlow
  split at h
  · cases h
  rename_i hhigh
  have hv : (versionByte &&& 0xF0) >>> 4 = 3 :=
    UInt8.le_antisymm (UInt8.not_lt.1 hhigh) (UInt8.not_lt.1 hlow)
  split at h
  · split at h
    · cases h
    split at h
    · cases h
    split at h
    · cases h
    rename_i message hm
    split at h
    · cases h
    · cases h
      refine ⟨hv, ?_⟩
      rw [SignalMessage.Parsed, SerializedMessage.deserialize_serialized hm]
      exact hm
  · cases h

/-- A `ciphertext_message` as `session_cipher_encrypt` returns it: `CIPHERTEXT_SIGNAL_TYPE` or
`CIPHERTEXT_PREKEY_TYPE`. -/
inductive CiphertextMessage (Pub B : Type) where
  | signal (message : SignalMessage Pub B)
  | preKey (message : PreKeySignalMessage Pub B)
  deriving DecidableEq, Repr

/-- The signal message that a ciphertext message is or carries. -/
def CiphertextMessage.inner : CiphertextMessage Pub B → SignalMessage Pub B
  | .signal message => message
  | .preKey message => message.message

/-- `session_pre_key_bundle`.  Every key may be missing. -/
structure PreKeyBundle (Pub B : Type) where
  registrationId : UInt32
  preKeyId : UInt32
  preKeyPublic : Option Pub
  signedPreKeyId : UInt32
  signedPreKeyPublic : Option Pub
  signedPreKeySignature : Option B
  identityKey : Option Pub
  deriving DecidableEq, Repr

/-! ## 3. Key exchange messages -/

/-- `KEY_EXCHANGE_INITIATE_FLAG`. -/
def keyExchangeInitiateFlag : UInt32 := 0x01

/-- `KEY_EXCHANGE_RESPONSE_FLAG`. -/
def keyExchangeResponseFlag : UInt32 := 0x02

/-- `KEY_EXCHANGE_SIMULTAENOUS_INITIATE_FLAG`. -/
def keyExchangeSimultaneousInitiateFlag : UInt32 := 0x04

/-- `key_exchange_message`. -/
structure KeyExchangeMessage (Pub B : Type) where
  version : UInt8
  sequence : UInt32
  flags : UInt32
  baseKey : Pub
  baseKeySignature : B
  ratchetKey : Pub
  identityKey : Pub
  deriving DecidableEq, Repr

namespace KeyExchangeMessage

/-- `key_exchange_message_is_initiate`. -/
def isInitiate (message : KeyExchangeMessage Pub B) : Bool :=
  message.flags &&& keyExchangeInitiateFlag ≠ 0

/-- `key_exchange_message_is_response_for_simultaneous_initiate`. -/
def isResponseForSimultaneousInitiate (message : KeyExchangeMessage Pub B) : Bool :=
  message.flags &&& keyExchangeSimultaneousInitiateFlag ≠ 0

end KeyExchangeMessage

end SignalProtocol
