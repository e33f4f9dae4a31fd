/-
# Messages as bytes (`protocol.c`)

`Message.lean` and `GroupMessage.lean` keep a serialized message as its sections.  Here are the
bytes: the version nibble in front, the packed body, and the MAC or the signature, which is cut
off by its offset from the end.  The five create functions and the five deserialize functions
are written over a `ByteProvider`, and reading is connected to the sections by
`signalMessage_parsed`: what is read from bytes is a message as the rest of the development
receives it.

A message that is created and read again has the same fields, with one exception:
`key_exchange_message_deserialize` copies the bytes over the `signal_buffer` and not into it,
so the `serialized` of the parsed message has lost its length and its first bytes.
`SignalBuffer.overwrite` is that copy; sections 8 and 10 say what follows for a message that is
created and read, and for the bytes that a parsed message gives back.
-/
import SignalProtocol.Packing

namespace SignalProtocol

open Wire

variable {Priv Pub : Type}

/-! ## 1. Buffers in memory -/

/-- `signal_buffer`: a length and, behind it, the bytes. -/
structure SignalBuffer where
  len : Nat
  data : Bytes
  deriving DecidableEq, Repr

namespace SignalBuffer

/-- `sizeof(size_t)`. -/
def sizeofSizeT : Nat := 8

/-- `signal_buffer_create`. -/
def create (data : Bytes) : SignalBuffer := ⟨data.length, data⟩

/-- A number as it lies in memory, least significant byte first. -/
def sizeBytes (n : Nat) : Bytes :=
  (List.range sizeofSizeT).map fun i => UInt8.ofNat (n / 256 ^ i)

/-- The number that lies in memory. -/
def ofSizeBytes : Bytes → Nat
  | [] => 0
  | b :: rest => b.toNat + 256 * ofSizeBytes rest

/-- A buffer as it lies in memory. -/
def image (buffer : SignalBuffer) : Bytes := sizeBytes buffer.len ++ buffer.data

/-- The buffer that lies in memory. -/
def ofImage (memory : Bytes) : SignalBuffer :=
  ⟨ofSizeBytes (memory.take sizeofSizeT), memory.drop sizeofSizeT⟩

/-- `memcpy(buffer, data, len)`: the bytes go over the buffer, length first. -/
def overwrite (buffer : SignalBuffer) (data : Bytes) : SignalBuffer :=
  ofImage (data ++ buffer.image.drop data.length)

/-- The length that is left consists of the first bytes of the data. -/
theorem len_overwrite {data : Bytes} (buffer : SignalBuffer)
    (h : sizeofSizeT ≤ data.length) :
    (buffer.overwrite data).len = ofSizeBytes (data.take sizeofSizeT) := by
  rw [overwrite, ofImage, List.take_append_of_le_length h]

theorem le_ofSizeBytes (a b : UInt8) (rest : Bytes) :
    256 * b.toNat ≤ ofSizeBytes (a :: b :: rest) := by
  simp only [ofSizeBytes]
  omega

end SignalBuffer

/-- A message with its bytes. -/
structure Serialized (α : Type) where
  message : α
  serialized : SignalBuffer
  deriving DecidableEq, Repr

/-! ## 2. Key exchange messages -/

/-- `key_exchange_message` with all its fields. -/
structure SerializedKeyExchange (Pub : Type) extends
    Serialized (KeyExchangeMessage Pub Bytes) where
  supportedVersion : UInt8
  deriving DecidableEq, Repr

/-- `key_exchange_message_serialize`. -/
def keyExchangeMessageSerialize (P : ByteProvider Priv Pub) (supportedVersion : UInt8)
    (m : KeyExchangeMessage Pub Bytes) : Bytes :=
  (m.version <<< 4 ||| supportedVersion) ::
    KeyExchangeMessageStructure.pack
      { id := some (m.sequence <<< 5 ||| m.flags)
        baseKey := some (P.encodePoint m.baseKey)
        ratchetKey := some (P.encodePoint m.ratchetKey)
        identityKey := some (P.encodePoint m.identityKey)
        baseKeySignature := if m.version ≥ 3 then some m.baseKeySignature else none }

/-- `key_exchange_message_create`. -/
def keyExchangeMessageCreate (P : ByteProvider Priv Pub) (messageVersion : UInt8)
    (sequence flags : UInt32) (baseKey : Pub)
    (baseKeySignature : { b : Bytes // b.length = curveSignatureLen })
    (ratchetKey identityKey : Pub) : SerializedKeyExchange Pub :=
  let message : KeyExchangeMessage Pub Bytes :=
    { version := messageVersion
      sequence := sequence
      flags := flags
      baseKey := baseKey
      baseKeySignature := baseKeySignature
      ratchetKey := ratchetKey
      identityKey := identityKey }
  { message := message
    supportedVersion := ciphertextCurrentVersion
    serialized := .create (keyExchangeMessageSerialize P ciphertextCurrentVersion message) }

/-- `key_exchange_message_deserialize`.  `fresh` is what the newly allocated buffer happens to
hold. -/
def keyExchangeMessageDeserialize (P : ByteProvider Priv Pub) (fresh data : Bytes) :
    Except SgError (SerializedKeyExchange Pub) := do
  if data.length ≤ 1 then
    throw .inval
  let version := (data.headD 0 &&& 0xF0) >>> 4
  let supportedVersion := data.headD 0 &&& 0x0F
  if version < ciphertextCurrentVersion then
    throw .legacyMessage
  if version > ciphertextCurrentVersion then
    throw .invalidVersion
  match KeyExchangeMessageStructure.unpack data.tail with
  | .error fault => throw (faultCode fault)
  | .ok ⟨some id, some baseKey, some ratchetKey, some identityKey, some baseKeySignature⟩ =>
    if baseKeySignature.length ≠ curveSignatureLen then
      throw .invalidMessage
    let baseKey ← P.decodePoint baseKey
    let ratchetKey ← P.decodePoint ratchetKey
    let identityKey ← P.decodePoint identityKey
    return {
      message :=
        { version := version
          sequence := id >>> 5
          flags := id &&& 0x1F
          baseKey := baseKey
          baseKeySignature := baseKeySignature
          ratchetKey := ratchetKey
          identityKey := identityKey }
      supportedVersion := supportedVersion
      -- the source passes the buffer itself to memcpy, not its data
      serialized := SignalBuffer.overwrite ⟨data.length, fresh⟩ data }
  | .ok _ => throw .invalidMessage

/-! ## 3. Signal messages -/

/-- The bytes of a serialized signal message. -/
def SerializedMessage.bytes (s : SerializedMessage Bytes) : Bytes :=
  s.version :: (s.body ++ s.mac)

/-- `signal_message_deserialize`. -/
def signalMessageDeserialize (P : ByteProvider Priv Pub) (data : Bytes) :
    Except SgError (SignalMessage Pub Bytes) :=
  if data.length ≤ 1 + signalMessageMacLength then .error .inval
  else
    let messageLen := data.length - 1 - signalMessageMacLength
    SerializedMessage.deserialize P.toProvider
      ⟨data.headD 0, data.tail.take messageLen, data.tail.drop messageLen⟩

/-- `signal_message_verify_mac`. -/
def signalMessageVerifyMac (P : ByteProvider Priv Pub)
    (senderIdentityKey receiverIdentityKey : Pub) (macKey : Bytes)
    (message : SignalMessage Pub Bytes) : Bool :=
  let serialized := message.serialized.bytes
  let messageLen := serialized.length - signalMessageMacLength
  let ourMac := (P.hmacSha256 macKey <|
    (if message.messageVersion ≥ 3 then
      [P.encodePoint senderIdentityKey, P.encodePoint receiverIdentityKey] else []) ++
    [serialized.take messageLen]).take signalMessageMacLength
  ourMac = serialized.drop messageLen

/-! ## 4. Pre-key signal messages -/

/-- `pre_key_signal_message_create`, with `pre_key_signal_message_serialize`. -/
def preKeySignalMessageCreate (P : ByteProvider Priv Pub) (messageVersion : UInt8)
    (registrationId : UInt32) (preKeyId : Option UInt32) (signedPreKeyId : UInt32)
    (baseKey identityKey : Pub) (message : SignalMessage Pub Bytes) :
    Serialized (PreKeySignalMessage Pub Bytes) where
  message :=
    { version := messageVersion
      registrationId := registrationId
      preKeyId := preKeyId
      signedPreKeyId := signedPreKeyId
      baseKey := baseKey
      identityKey := identityKey
      message := message }
  serialized := .create <| versionByte messageVersion ::
    PackedPreKeySignalMessage.pack
      { registrationId := some registrationId
        preKeyId := preKeyId
        signedPreKeyId := some signedPreKeyId
        baseKey := some (P.encodePoint baseKey)
        identityKey := some (P.encodePoint identityKey)
        message := some message.serialized.bytes }

/-- `pre_key_signal_message_deserialize`. -/
def preKeySignalMessageDeserialize (P : ByteProvider Priv Pub) (data : Bytes) :
    Except SgError (Serialized (PreKeySignalMessage Pub Bytes)) := do
  if data.length ≤ 1 then
    throw .inval
  let version := (data.headD 0 &&& 0xF0) >>> 4
  if version < ciphertextCurrentVersion then
    throw .legacyMessage
  if version > ciphertextCurrentVersion then
    throw .invalidVersion
  match P.unpackPreKeySignalMessage data.tail with
  | .error e => throw e
  | .ok ⟨registrationId, preKeyId, some signedPreKeyId, some baseKey, some identityKey,
      some message⟩ =>
    let baseKey ← P.decodePoint baseKey
    let identityKey ← P.decodePoint identityKey
    let message ← signalMessageDeserialize P message
    if message.messageVersion ≠ version then
      throw .invalidVersion
    return {
      message :=
        { version := version
          registrationId := registrationId.getD 0
          preKeyId := preKeyId
          signedPreKeyId := signedPreKeyId
          baseKey := baseKey
          identityKey := identityKey
          message := message }
      serialized := .create data }
  | .ok _ => throw .invalidMessage

/-! ## 5. Group messages -/

/-- The bytes of a serialized sender key message. -/
def SignedMessage.bytes (s : SignedMessage Bytes) : Bytes :=
  s.version :: (s.body ++ s.signature)

/-- `sender_key_message_deserialize`. -/
def senderKeyMessageDeserialize (P : ByteProvider Priv Pub) (data : Bytes) :
    Except SgError (SenderKeyMessage Bytes) :=
  if data.length ≤ 1 + signatureLength then .error .inval
  else
    let messageLen := data.length - 1 - signatureLength
    SignedMessage.deserialize P.toGroupProvider
      ⟨data.headD 0, data.tail.take messageLen, data.tail.drop messageLen⟩

/-- `sender_key_message_verify_signature`. -/
def senderKeyMessageVerifySignature (P : ByteProvider Priv Pub) (signatureKey : Pub)
    (message : SenderKeyMessage Bytes) : Except SgError Unit :=
  let data := message.serialized.bytes
  let dataLen := data.length - signatureLength
  match curveVerifySignature P.toProvider signatureKey (data.take dataLen) (data.drop dataLen)
      signatureLength with
  | .ok true => .ok ()
  | _ => .error .invalidMessage

/-- `sender_key_distribution_message_create`. -/
def senderKeyDistributionMessageCreate (P : ByteProvider Priv Pub) (id iteration : UInt32)
    (chainKey : Bytes) (signatureKey : Pub) :
    Serialized (SenderKeyDistributionMessage Pub Bytes) :=
  let message : SenderKeyDistributionMessage Pub Bytes := ⟨id, iteration, chainKey, signatureKey⟩
  { message := message
    serialized := .create
      (versionByte ciphertextCurrentVersion :: message.body P.toGroupProvider) }

/-- `sender_key_distribution_message_deserialize`. -/
def senderKeyDistributionMessageRead (P : ByteProvider Priv Pub) (data : Bytes) :
    Except SgError (Serialized (SenderKeyDistributionMessage Pub Bytes)) := do
  if data.length ≤ 1 then
    throw .inval
  let message ← senderKeyDistributionMessageDeserialize P.toGroupProvider (data.headD 0) data.tail
  return { message := message, serialized := .create data }

/-! ## 6. Sections and bytes -/

section Sections

variable (P : ByteProvider Priv Pub)

theorem cut_body {tail : Bytes} {k : Nat} (version : UInt8) (body : Bytes)
    (h : tail.length = k) :
    ((version :: (body ++ tail)).tail.take ((version :: (body ++ tail)).length - 1 - k) = body) ∧
      (version :: (body ++ tail)).tail.drop ((version :: (body ++ tail)).length - 1 - k) =
        tail := by
  have hlen : (version :: (body ++ tail)).length - 1 - k = body.length := by
    simp only [List.length_cons, List.length_append]
    omega
  rw [hlen]
  exact ⟨List.take_left' rfl, List.drop_left' rfl⟩

theorem cut_end {tail : Bytes} {k : Nat} (version : UInt8) (body : Bytes) (h : tail.length = k) :
    ((version :: (body ++ tail)).take ((version :: (body ++ tail)).length - k) =
        version :: body) ∧
      (version :: (body ++ tail)).drop ((version :: (body ++ tail)).length - k) = tail := by
  have hlen : (version :: (body ++ tail)).length - k = (version :: body).length := by
    simp only [List.length_cons, List.length_append]
    omega
  rw [hlen, ← List.cons_append]
  exact ⟨List.take_left' rfl, List.drop_left' rfl⟩

/-- **Reading the bytes is reading the sections.** -/
theorem signalMessageDeserialize_bytes {s : SerializedMessage Bytes} (hbody : s.body ≠ [])
    (hmac : s.mac.length = signalMessageMacLength) :
    signalMessageDeserialize P s.bytes = s.deserialize P.toProvider := by
  have hpos := List.length_pos_of_ne_nil hbody
  obtain ⟨htake, hdrop⟩ := cut_body s.version s.body hmac
  unfold signalMessageDeserialize SerializedMessage.bytes
  rw [if_neg (by simp only [List.length_cons, List.length_append]; omega)]
  dsimp only
  rw [htake, hdrop]
  rfl

theorem senderKeyMessageDeserialize_bytes {s : SignedMessage Bytes} (hbody : s.body ≠ [])
    (hsignature : s.signature.length = signatureLength) :
    senderKeyMessageDeserialize P s.bytes = s.deserialize P.toGroupProvider := by
  have hpos := List.length_pos_of_ne_nil hbody
  obtain ⟨htake, hdrop⟩ := cut_body s.version s.body hsignature
  unfold senderKeyMessageDeserialize SignedMessage.bytes
  rw [if_neg (by simp only [List.length_cons, List.length_append]; omega)]
  dsimp only
  rw [htake, hdrop]
  rfl

/-- **The MAC over the bytes is the MAC over the sections.** -/
theorem signalMessageVerifyMac_eq {m : SignalMessage Pub Bytes}
    (hmac : m.serialized.mac.length = signalMessageMacLength) (sender receiver : Pub)
    (macKey : Bytes) :
    signalMessageVerifyMac P sender receiver macKey m =
      m.verifyMac P.toProvider sender receiver macKey := by
  obtain ⟨htake, hdrop⟩ := cut_end m.serialized.version m.serialized.body hmac
  have hpieces : ∀ keys : List Bytes,
      P.hmacSha256 macKey (keys ++ [m.serialized.version :: m.serialized.body]) =
        P.hmacSha256 macKey (keys ++ [P.fill m.serialized.version 1, m.serialized.body]) := by
    intro keys
    rw [P.hmacSha256_flatten, P.hmacSha256_flatten macKey (keys ++ [_, _]), P.fill_eq]
    simp
  simp only [signalMessageVerifyMac, SerializedMessage.bytes, htake, hdrop,
    SignalMessage.verifyMac, signalMessageGetMac, P.truncate_eq, hpieces]

theorem senderKeyMessageVerifySignature_eq {m : SenderKeyMessage Bytes}
    (hsignature : m.serialized.signature.length = signatureLength) (key : Pub) :
    senderKeyMessageVerifySignature P key m = m.verifySignature P.toGroupProvider key := by
  obtain ⟨htake, hdrop⟩ := cut_end m.serialized.version m.serialized.body hsignature
  rcases h : curveVerifySignature P.toProvider key (m.serialized.version :: m.serialized.body)
      m.serialized.signature signatureLength with _ | _ | _ <;>
    simp only [senderKeyMessageVerifySignature, SignedMessage.bytes, htake, hdrop,
      SenderKeyMessage.verifySignature, P.frame_eq, h]

/-! What is read from bytes is a message as it is received. -/

theorem signalMessage_parsed {data : Bytes} {m : SignalMessage Pub Bytes}
    (h : signalMessageDeserialize P data = .ok m) :
    m.Parsed P.toProvider ∧ m.serialized.bytes = data := by
  unfold signalMessageDeserialize at h
  split at h
  · cases h
  · rename_i hlen
    have hs := SerializedMessage.deserialize_serialized h
    refine ⟨by rw [SignalMessage.Parsed, hs]; exact h, ?_⟩
    obtain ⟨version, rest, rfl⟩ := List.exists_cons_of_ne_nil
      (show data ≠ [] by rintro rfl; exact hlen (Nat.zero_le _))
    rw [hs, SerializedMessage.bytes]
    simp only [List.headD_cons, List.tail_cons, List.take_append_drop]

end Sections

/-! ## 7. Creating a message -/

/-- The arguments of `signal_message_create`, apart from the version. -/
structure SignalArguments (Pub : Type) where
  macKey : Bytes
  senderRatchetKey : Pub
  counter : UInt32
  previousCounter : UInt32
  ciphertext : Bytes
  senderIdentityKey : Pub
  receiverIdentityKey : Pub

/-- The message that they create. -/
def SignalArguments.create (P : ByteProvider Priv Pub) (a : SignalArguments Pub) :
    SignalMessage Pub Bytes :=
  SignalMessage.create P.toProvider ciphertextCurrentVersion a.macKey a.senderRatchetKey
    a.counter a.previousCounter a.ciphertext a.senderIdentityKey a.receiverIdentityKey

/-- A call of one of the five create functions, for version 3. -/
inductive Creation (Priv Pub : Type) where
  | keyExchange (sequence flags : UInt32) (baseKey : Pub)
      (baseKeySignature : { b : Bytes // b.length = curveSignatureLen })
      (ratchetKey identityKey : Pub)
  | signal (arguments : SignalArguments Pub)
  | preKey (registrationId : UInt32) (preKeyId : Option UInt32) (signedPreKeyId : UInt32)
      (baseKey identityKey : Pub) (message : SignalArguments Pub)
  | senderKey (rng : Rng Priv Bytes) (drawn : Nat) (keyId iteration : UInt32)
      (ciphertext : Bytes) (signatureKey : Priv)
  | distribution (id iteration : UInt32) (chainKey : Bytes) (signatureKey : Pub)

namespace Creation

/-- The sequence of a key exchange has 27 bits and its flags have 5. -/
def InRange : Creation Priv Pub → Prop
  | keyExchange sequence flags _ _ _ _ => sequence.toNat < 2 ^ 27 ∧ flags.toNat < 2 ^ 5
  | _ => True

/-- A key exchange message. -/
def isKeyExchange : Creation Priv Pub → Bool
  | keyExchange .. => true
  | _ => false

/-- **The message reads back as it was created**, every field of it, and passes the check of
its MAC or signature. -/
def RoundTrips (P : ByteProvider Priv Pub) : Creation Priv Pub → Prop
  | keyExchange sequence flags baseKey signature ratchetKey identityKey =>
    let m := keyExchangeMessageCreate P ciphertextCurrentVersion sequence flags baseKey signature
      ratchetKey identityKey
    ∀ fresh, fresh.length = m.serialized.data.length →
      keyExchangeMessageDeserialize P fresh m.serialized.data = .ok m
  | signal a =>
    signalMessageDeserialize P (a.create P).serialized.bytes = .ok (a.create P) ∧
      signalMessageVerifyMac P a.senderIdentityKey a.receiverIdentityKey a.macKey (a.create P) =
        true
  | preKey registrationId preKeyId signedPreKeyId baseKey identityKey a =>
    let m := preKeySignalMessageCreate P ciphertextCurrentVersion registrationId preKeyId
      signedPreKeyId baseKey identityKey (a.create P)
    preKeySignalMessageDeserialize P m.serialized.data = .ok m ∧
      signalMessageVerifyMac P a.senderIdentityKey a.receiverIdentityKey a.macKey
        m.message.message = true
  | senderKey rng drawn keyId iteration ciphertext signatureKey =>
    ∀ m drawn', senderKeyMessageCreate P.toGroupProvider rng keyId iteration ciphertext
        signatureKey drawn = (.ok m, drawn') →
      senderKeyMessageDeserialize P m.serialized.bytes = .ok m ∧
        senderKeyMessageVerifySignature P (P.publicKey signatureKey) m = .ok ()
  | distribution id iteration chainKey signatureKey =>
    let m := senderKeyDistributionMessageCreate P id iteration chainKey signatureKey
    senderKeyDistributionMessageRead P m.serialized.data = .ok m

/-- The message is accepted and reads back as it was created, apart from the `serialized` of a
key exchange message. -/
def FieldsKept (P : ByteProvider Priv Pub) : Creation Priv Pub → Prop
  | keyExchange sequence flags baseKey signature ratchetKey identityKey =>
    let m := keyExchangeMessageCreate P ciphertextCurrentVersion sequence flags baseKey signature
      ratchetKey identityKey
    ∀ fresh, ∃ serialized, keyExchangeMessageDeserialize P fresh m.serialized.data =
      .ok { m with serialized := serialized }
  | c => c.RoundTrips P

end Creation

/-! ## 8. Round trips -/

section RoundTrips

variable (P : ByteProvider Priv Pub)

theorem versionByte_high : (versionByte ciphertextCurrentVersion &&& 0xF0) >>> 4 = 3 := by decide

theorem sequence_flags {sequence flags : UInt32} (hs : sequence.toNat < 2 ^ 27)
    (hf : flags.toNat < 2 ^ 5) :
    (sequence <<< 5 ||| flags) >>> 5 = sequence ∧
      (sequence <<< 5 ||| flags) &&& 0x1F = flags := by
  have hid : (sequence <<< 5 ||| flags).toNat = 2 ^ 5 * sequence.toNat + flags.toNat := by
    rw [UInt32.toNat_or, UInt32.toNat_shiftLeft, Nat.two_pow_add_eq_or_of_lt hf,
      Nat.shiftLeft_eq]
    have hshift : (5 : UInt32).toNat % 32 = 5 := by decide
    rw [hshift, Nat.mod_eq_of_lt (by omega), Nat.mul_comm]
  constructor
  · apply UInt32.toNat_inj.1
    have hshift : (5 : UInt32).toNat % 32 = 5 := by decide
    rw [UInt32.toNat_shiftRight, hid, hshift, Nat.shiftRight_eq_div_pow]
    omega
  · apply UInt32.toNat_inj.1
    have hmask : (0x1F : UInt32).toNat = 2 ^ 5 - 1 := by decide
    rw [UInt32.toNat_and, hid, hmask, Nat.and_two_pow_sub_one_eq_mod]
    omega

theorem length_signalMessageGetMac (version : UInt8) (sender receiver : Pub) (macKey : Bytes)
    (v : UInt8) (body : Bytes) :
    (signalMessageGetMac P.toProvider version sender receiver macKey v body).length =
      signalMessageMacLength := by
  rw [signalMessageGetMac, P.truncate_eq, List.length_take, P.length_hmacSha256]
  rfl

theorem SignalArguments.body_ne_nil (a : SignalArguments Pub) :
    (a.create P).serialized.body ≠ [] := by
  show P.packSignalMessage _ ≠ []
  rw [P.packSignalMessage_eq]
  exact pack_ne_nil (by simp [SignalMessageStructure.fields, Wire.optional, repeated])

/-- A created message reads back. -/
theorem SignalArguments.deserialize_create (a : SignalArguments Pub) :
    signalMessageDeserialize P (a.create P).serialized.bytes = .ok (a.create P) := by
  rw [signalMessageDeserialize_bytes P (a.body_ne_nil P) (length_signalMessageGetMac P ..)]
  exact SignalMessage.parsed_create ..

/-- A created message passes the check of its MAC. -/
theorem SignalArguments.verifyMac_create (a : SignalArguments Pub) :
    signalMessageVerifyMac P a.senderIdentityKey a.receiverIdentityKey a.macKey (a.create P) =
      true := by
  rw [signalMessageVerifyMac_eq P (length_signalMessageGetMac P ..)]
  exact decide_eq_true rfl

theorem preKeySignalMessage_deserialize_create (registrationId : UInt32)
    (preKeyId : Option UInt32) (signedPreKeyId : UInt32) (baseKey identityKey : Pub)
    (a : SignalArguments Pub) :
    preKeySignalMessageDeserialize P (preKeySignalMessageCreate P ciphertextCurrentVersion
        registrationId preKeyId signedPreKeyId baseKey identityKey (a.create P)).serialized.data =
      .ok (preKeySignalMessageCreate P ciphertextCurrentVersion registrationId preKeyId
        signedPreKeyId baseKey identityKey (a.create P)) := by
  have hlong : ∀ packed : PackedPreKeySignalMessage, packed.fields ≠ [] →
      ¬ (versionByte ciphertextCurrentVersion :: packed.pack).length ≤ 1 := by
    intro packed h
    have := List.length_pos_of_ne_nil (pack_ne_nil h)
    simp only [List.length_cons, PackedPreKeySignalMessage.pack]
    omega
  unfold preKeySignalMessageDeserialize preKeySignalMessageCreate SignalBuffer.create
  dsimp only
  rw [if_neg (hlong _ (by simp [PackedPreKeySignalMessage.fields, Wire.optional, repeated]))]
  simp only [List.headD_cons, List.tail_cons, versionByte_high,
    P.unpack_packPreKeySignalMessage, P.decodePoint_encodePoint, a.deserialize_create P]
  rfl

theorem senderKeyMessage_body_ne_nil (keyId iteration : UInt32) (ciphertext signature : Bytes) :
    (SenderKeyMessage.signedWith P.toGroupProvider keyId iteration ciphertext
      signature).serialized.body ≠ [] := by
  show P.packSenderKeyMessage _ ≠ []
  rw [P.packSenderKeyMessage_eq]
  exact pack_ne_nil (by simp [SenderKeyMessageStructure.fields, Wire.optional, repeated])

theorem senderKeyMessage_round_trip {rng : Rng Priv Bytes} {drawn drawn' : Nat}
    {keyId iteration : UInt32} {ciphertext : Bytes} {signatureKey : Priv}
    {m : SenderKeyMessage Bytes}
    (h : senderKeyMessageCreate P.toGroupProvider rng keyId iteration ciphertext signatureKey
      drawn = (.ok m, drawn')) :
    senderKeyMessageDeserialize P m.serialized.bytes = .ok m ∧
      senderKeyMessageVerifySignature P (P.publicKey signatureKey) m = .ok () := by
  cases hr : rng.signatureRandom drawn with
  | error e =>
    simp only [senderKeyMessageCreate, Op.mapError, curveCalculateSignature, draw,
      Op.bind_apply, hr] at h
    cases h
  | ok random =>
    rw [senderKeyMessageCreate_of_ok hr] at h
    cases h
    have hlen : (P.calculateSignature signatureKey (senderKeyMessageSigned P.toGroupProvider
        keyId iteration ciphertext) random).length = signatureLength := by
      rw [← P.len_eq]
      exact P.len_calculateSignature ..
    constructor
    · rw [senderKeyMessageDeserialize_bytes P (senderKeyMessage_body_ne_nil P keyId
        iteration ciphertext _) hlen]
      exact SenderKeyMessage.deserialize_signedWith ..
    · rw [senderKeyMessageVerifySignature_eq P hlen]
      exact SenderKeyMessage.verifySignature_signedWith ..

theorem senderKeyDistributionMessage_round_trip (id iteration : UInt32) (chainKey : Bytes)
    (signatureKey : Pub) :
    senderKeyDistributionMessageRead P
        (senderKeyDistributionMessageCreate P id iteration chainKey signatureKey).serialized.data =
      .ok (senderKeyDistributionMessageCreate P id iteration chainKey signatureKey) := by
  have hbody : (SenderKeyDistributionMessage.body P.toGroupProvider
      ⟨id, iteration, chainKey, signatureKey⟩) ≠ [] := by
    rw [SenderKeyDistributionMessage.body, P.packSenderKeyDistributionMessage_eq]
    exact pack_ne_nil (by simp [SenderKeyDistributionMessageStructure.fields, Wire.optional,
      repeated])
  have hpos := List.length_pos_of_ne_nil hbody
  unfold senderKeyDistributionMessageRead senderKeyDistributionMessageCreate SignalBuffer.create
  dsimp only
  rw [if_neg (by simp only [List.length_cons]; omega)]
  simp only [List.headD_cons, List.tail_cons, senderKeyDistributionMessage_deserialize_body]
  rfl

/-! ### Key exchange messages -/

section KeyExchange

variable (sequence flags : UInt32) (baseKey : Pub)
  (signature : { b : Bytes // b.length = curveSignatureLen }) (ratchetKey identityKey : Pub)

/-- The packed body of a created message, byte by byte up to the keys and the signature. -/
theorem keyExchangeMessage_pack (id : UInt32) :
    KeyExchangeMessageStructure.pack ⟨some id, some (P.encodePoint baseKey),
      some (P.encodePoint ratchetKey), some (P.encodePoint identityKey), some signature.1⟩ =
    8 :: (encodeVarint id.toNat ++ 18 :: 33 :: (P.encodePoint baseKey ++ 26 :: 33 ::
      (P.encodePoint ratchetKey ++ 34 :: 33 :: (P.encodePoint identityKey ++ 42 :: 64 ::
        signature.1)))) := by
  have htag : ∀ k, k < 128 → encodeVarint k = [UInt8.ofNat k] := fun k h => encodeVarint_of_lt h
  have hsignature : signature.1.length = 64 := signature.2
  simp [KeyExchangeMessageStructure.pack, KeyExchangeMessageStructure.fields, Wire.optional,
    repeated, uint32Codec, bytesCodec, Wire.pack, Field.pack, Value.wireType, Value.pack,
    P.length_encodePoint, hsignature, htag]

/-- It has no more than 174 bytes. -/
theorem keyExchangeMessage_pack_lt (id : UInt32) :
    (KeyExchangeMessageStructure.pack ⟨some id, some (P.encodePoint baseKey),
      some (P.encodePoint ratchetKey), some (P.encodePoint identityKey),
      some signature.1⟩).length < 2 ^ 32 := by
  have hid := length_encodeVarint_le (k := 4) (lt_of_lt_of_le id.toNat_lt (by decide))
  have hsignature : signature.1.length = 64 := signature.2
  rw [keyExchangeMessage_pack]
  simp only [List.length_append, List.length_cons, P.length_encodePoint, hsignature]
  omega

theorem keyExchangeMessage_data :
    (keyExchangeMessageCreate P ciphertextCurrentVersion sequence flags baseKey signature
      ratchetKey identityKey).serialized.data = 0x33 :: KeyExchangeMessageStructure.pack
        ⟨some (sequence <<< 5 ||| flags), some (P.encodePoint baseKey),
          some (P.encodePoint ratchetKey), some (P.encodePoint identityKey),
          some signature.1⟩ := by
  simp only [keyExchangeMessageCreate, keyExchangeMessageSerialize, SignalBuffer.create]
  rw [if_pos (by decide)]
  congr 1

/-- The bytes of a created message: the version, the tag of the id, and no more than 178 in
all. -/
theorem keyExchangeMessage_bytes :
    ∃ rest, (keyExchangeMessageCreate P ciphertextCurrentVersion sequence flags baseKey signature
        ratchetKey identityKey).serialized.data = 0x33 :: 8 :: rest ∧
      16 ≤ rest.length ∧ rest.length ≤ 176 := by
  have hid := length_encodeVarint_le (k := 4) (n := (sequence <<< 5 ||| flags).toNat)
    (lt_of_lt_of_le (sequence <<< 5 ||| flags).toNat_lt (by decide))
  have hsignature : signature.1.length = 64 := signature.2
  rw [keyExchangeMessage_data, keyExchangeMessage_pack]
  refine ⟨_, rfl, ?_⟩
  simp only [List.length_append, List.length_cons, P.length_encodePoint, hsignature]
  omega

/-- **All fields but one read back.** -/
theorem keyExchangeMessage_deserialize_create (hs : sequence.toNat < 2 ^ 27)
    (hf : flags.toNat < 2 ^ 5) (fresh : Bytes) :
    let m := keyExchangeMessageCreate P ciphertextCurrentVersion sequence flags baseKey signature
      ratchetKey identityKey
    keyExchangeMessageDeserialize P fresh m.serialized.data =
      .ok { m with
        serialized := SignalBuffer.overwrite ⟨m.serialized.data.length, fresh⟩
          m.serialized.data } := by
  obtain ⟨hsequence, hflags⟩ := sequence_flags hs hf
  obtain ⟨rest, hbytes, hlen, -⟩ := keyExchangeMessage_bytes P sequence flags baseKey signature
    ratchetKey identityKey
  intro m
  have hlong : ¬ m.serialized.data.length ≤ 1 := by
    rw [hbytes, List.length_cons, List.length_cons]
    omega
  have hdata : m.serialized.data = _ := keyExchangeMessage_data P sequence flags baseKey signature
    ratchetKey identityKey
  have hsignature : signature.1.length = curveSignatureLen := signature.2
  have hunpack : KeyExchangeMessageStructure.unpack _ = .ok _ :=
    KeyExchangeMessageStructure.unpack_pack (keyExchangeMessage_pack_lt P baseKey signature
      ratchetKey identityKey (sequence <<< 5 ||| flags))
  have hhigh : (0x33 &&& 0xF0 : UInt8) >>> 4 = 3 := by decide
  have hlow : (0x33 &&& 0x0F : UInt8) = 3 := by decide
  unfold keyExchangeMessageDeserialize
  rw [if_neg hlong, hdata]
  simp only [List.headD_cons, List.tail_cons, hunpack, P.decodePoint_encodePoint, hhigh, hlow,
    hsequence, hflags, hsignature, ne_eq, not_true_eq_false, if_false]
  rfl

/-- **The length of the parsed buffer is wrong**: its second byte is the tag of the id, which
makes it more than 2000. -/
theorem keyExchangeMessage_overwritten (fresh : Bytes) :
    let m := keyExchangeMessageCreate P ciphertextCurrentVersion sequence flags baseKey signature
      ratchetKey identityKey
    SignalBuffer.overwrite ⟨m.serialized.data.length, fresh⟩ m.serialized.data ≠
      m.serialized := by
  intro m he
  obtain ⟨rest, hbytes, hlong, hshort⟩ := keyExchangeMessage_bytes P sequence flags baseKey
    signature ratchetKey identityKey
  have hdata : m.serialized.data = 0x33 :: 8 :: rest := hbytes
  have hlen : m.serialized.len = m.serialized.data.length := rfl
  have hsize : SignalBuffer.sizeofSizeT ≤ m.serialized.data.length := by
    rw [hdata]
    simp only [List.length_cons, SignalBuffer.sizeofSizeT]
    omega
  have hover := SignalBuffer.len_overwrite ⟨m.serialized.data.length, fresh⟩ hsize
  rw [he, hlen, hdata] at hover
  have hbig := SignalBuffer.le_ofSizeBytes 0x33 8 (rest.take 6)
  have htake : (0x33 :: 8 :: rest).take SignalBuffer.sizeofSizeT = 0x33 :: 8 :: rest.take 6 := rfl
  rw [htake] at hover
  rw [← hover] at hbig
  simp only [List.length_cons, show (8 : UInt8).toNat = 8 from rfl] at hbig
  omega

end KeyExchange

/-- **What reads back**: every message but a key exchange message reads back with all its
fields and passes its check.  A key exchange message is accepted with all fields but one; its
`serialized` never is what it was. -/
theorem message_round_trip_iff (c : Creation Priv Pub) (h : c.InRange) :
    (c.RoundTrips P ↔ c.isKeyExchange = false) ∧ c.FieldsKept P := by
  cases c with
  | keyExchange sequence flags baseKey signature ratchetKey identityKey =>
    have hread := keyExchangeMessage_deserialize_create P sequence flags baseKey signature
      ratchetKey identityKey h.1 h.2
    refine ⟨⟨fun hround => ?_, nofun⟩, fun fresh => ⟨_, hread fresh⟩⟩
    -- whatever the new buffer holds, for example the message itself
    have he := (hread _).symm.trans (hround _ rfl)
    have hs := congrArg (fun m => m.serialized) (Except.ok.inj he)
    exact absurd hs (keyExchangeMessage_overwritten P sequence flags baseKey signature ratchetKey
      identityKey _)
  | signal a =>
    have hround := And.intro (a.deserialize_create P) (a.verifyMac_create P)
    exact ⟨⟨fun _ => rfl, fun _ => hround⟩, hround⟩
  | preKey registrationId preKeyId signedPreKeyId baseKey identityKey a =>
    have hround := And.intro (preKeySignalMessage_deserialize_create P registrationId preKeyId
      signedPreKeyId baseKey identityKey a) (a.verifyMac_create P)
    exact ⟨⟨fun _ => rfl, fun _ => hround⟩, hround⟩
  | senderKey rng drawn keyId iteration ciphertext signatureKey =>
    have hround : (Creation.senderKey rng drawn keyId iteration ciphertext
        signatureKey).RoundTrips P := fun _ _ hm => senderKeyMessage_round_trip P hm
    exact ⟨⟨fun _ => rfl, fun _ => hround⟩, hround⟩
  | distribution id iteration chainKey signatureKey =>
    have hround := senderKeyDistributionMessage_round_trip P id iteration chainKey signatureKey
    exact ⟨⟨fun _ => rfl, fun _ => hround⟩, hround⟩

end RoundTrips

/-! ## 9. A provider over bytes -/

/-- A key of 32 bytes. -/
abbrev PlainKey := { b : Bytes // b.length = 32 }

/-- The first bytes of a buffer, filled up with zeros. -/
def padded (n : Nat) (b : Bytes) : Bytes := (b ++ List.replicate n 0).take n

theorem length_padded (n : Nat) (b : Bytes) : (padded n b).length = n := by
  simp [padded]

/-- Limits that are those of protobuf-c below 4 GiB. -/
def plainLimits (data : Bytes) : Limits :=
  if data.length < 2 ^ 32 then protobufC else .wide data.length

/-- Unpacking with these limits. -/
def plainUnpack {S : Type} (parse : S → Member → Except Fault S) (init : S) (data : Bytes) :
    Except SgError S :=
  (unpackMessage (plainLimits data) parse init data).mapError faultCode

theorem plainUnpack_pack {S : Type} {parse : S → Member → Except Fault S} {init s : S}
    {fields : List Field} (hcount : fields.length ≤ protobufC.members)
    (h : Reads parse init fields s) : plainUnpack parse init (Wire.pack fields) = .ok s := by
  have hallows : (plainLimits (Wire.pack fields)).Allows fields := by
    unfold plainLimits
    split
    · exact allows_of_count hcount ‹_›
    · exact allows_wide (Nat.le_refl _)
  rw [plainUnpack, unpackMessage_pack hallows h]
  rfl

theorem plainUnpack_of_lt {S : Type} (parse : S → Member → Except Fault S) (init : S)
    {data : Bytes} (h : data.length < 2 ^ 32) :
    plainUnpack parse init data =
      (unpackMessage protobufC parse init data).mapError faultCode := by
  rw [plainUnpack, plainLimits, if_pos h]

/-- A provider that computes on bytes.  It has no secrets; it only shows that the format needs
no more than what `ByteProvider` asks for. -/
def plainProvider : ByteProvider PlainKey PlainKey where
  publicKey := id
  agreement a b := List.zipWith (· ^^^ ·) a.1 b.1
  verifySignature key message signature := signature = padded 64 (key.1 ++ message)
  calculateSignature key message _ := padded 64 (key.1 ++ message)
  encodePoint key := 5 :: key.1
  decodePoint
    | 5 :: b => if h : b.length = 32 then .ok ⟨b, h⟩ else .error .invalidKey
    | _ => .error .invalidKey
  encodePrivate key := key.1
  decodePrivate b := if h : b.length = 32 then .ok ⟨b, h⟩ else .error .invalidKey
  len := List.length
  fill value n := List.replicate n value
  hmacSha256 key data := padded 32 (key ++ data.flatten)
  truncate n b := b.take n
  hkdfDeriveSecrets _ ikm salt _ _ offset length :=
    padded length ((ikm.flatten ++ salt).drop offset)
  encrypt _ _ _ plaintext := .ok plaintext
  decrypt _ _ _ ciphertext := .ok ciphertext
  counterIv _ := List.replicate 16 0
  packSignalMessage := SignalMessageStructure.pack
  unpackSignalMessage := plainUnpack SignalMessageStructure.parseMember ⟨none, none, none, none⟩
  frame := List.cons
  packSenderKeyMessage := SenderKeyMessageStructure.pack
  unpackSenderKeyMessage := plainUnpack SenderKeyMessageStructure.parseMember ⟨none, none, none⟩
  packSenderKeyDistributionMessage := SenderKeyDistributionMessageStructure.pack
  unpackSenderKeyDistributionMessage :=
    plainUnpack SenderKeyDistributionMessageStructure.parseMember ⟨none, none, none, none⟩
  unpackPreKeySignalMessage :=
    plainUnpack PackedPreKeySignalMessage.parseMember ⟨none, none, none, none, none, none⟩
  agreement_comm a b := List.zipWith_comm_of_comm UInt8.xor_comm
  decodePoint_encodePoint key := dif_pos key.2
  decodePrivate_encodePrivate key := dif_pos key.2
  decrypt_encrypt h := h ▸ rfl
  unpack_packSignalMessage m :=
    plainUnpack_pack (m.length_fields_le.trans (by decide)) m.reads
  len_hkdfDeriveSecrets _ _ _ _ _ _ _ := length_padded _ _
  len_calculateSignature _ _ _ := length_padded _ _
  unpack_packSenderKeyMessage m :=
    plainUnpack_pack (m.length_fields_le.trans (by decide)) m.reads
  unpack_packSenderKeyDistributionMessage m :=
    plainUnpack_pack (m.length_fields_le.trans (by decide)) m.reads
  unpack_packPreKeySignalMessage m :=
    plainUnpack_pack (m.length_fields_le.trans (by decide)) m.reads
  verify_calculateSignature _ _ _ := decide_eq_true rfl
  len_eq _ := rfl
  truncate_eq _ _ := rfl
  fill_eq _ _ := rfl
  frame_eq _ _ := rfl
  length_hmacSha256 _ _ := length_padded _ _
  hmacSha256_flatten _ _ := by simp
  length_encodePoint key := congrArg Nat.succ key.2
  packSignalMessage_eq _ := rfl
  unpackPreKeySignalMessage_eq _ h := plainUnpack_of_lt _ _ h
  unpackSignalMessage_eq _ h := plainUnpack_of_lt _ _ h
  packSenderKeyMessage_eq _ := rfl
  unpackSenderKeyMessage_eq _ h := plainUnpack_of_lt _ _ h
  packSenderKeyDistributionMessage_eq _ := rfl
  unpackSenderKeyDistributionMessage_eq _ h := plainUnpack_of_lt _ _ h

/-- A key of equal bytes. -/
def plainKey (value : UInt8) : PlainKey := ⟨List.replicate 32 value, List.length_replicate⟩

/-- An initiate message with sequence 7. -/
def plainExchange : Creation PlainKey PlainKey :=
  .keyExchange 7 1 (plainKey 1) ⟨List.replicate 64 9, List.length_replicate⟩ (plainKey 2)
    (plainKey 3)

/-- It is accepted, with all fields but one. -/
theorem message_round_trip_iff_exchange :
    plainExchange.InRange ∧ plainExchange.FieldsKept plainProvider :=
  have hrange : plainExchange.InRange := ⟨by decide, by decide⟩
  ⟨hrange, (message_round_trip_iff plainProvider plainExchange hrange).2⟩

/-- **The bytes of a parsed key exchange message are lost.**  The message has 175 bytes; the
buffer of the parsed one claims to have more than 7 * 10 ^ 16. -/
theorem exchange_bytes_lost :
    let m := keyExchangeMessageCreate plainProvider 3 7 1 (plainKey 1)
      ⟨List.replicate 64 9, List.length_replicate⟩ (plainKey 2) (plainKey 3)
    m.serialized.len = 175 ∧
      (keyExchangeMessageDeserialize plainProvider (List.replicate 175 0)
        m.serialized.data).toOption.map (fun parsed => parsed.serialized.len) =
          some 73501330146134067 ∧
      ¬ plainExchange.RoundTrips plainProvider := by
  intro m
  have hparsed : (keyExchangeMessageDeserialize plainProvider (List.replicate 175 0)
      m.serialized.data).toOption.map (fun parsed => parsed.serialized.len) =
        some 73501330146134067 := by decide +kernel
  refine ⟨by decide +kernel, hparsed, fun hround => ?_⟩
  have hread : keyExchangeMessageDeserialize plainProvider (List.replicate 175 0)
      m.serialized.data = .ok m := hround _ (by decide +kernel)
  rw [hread] at hparsed
  revert hparsed
  decide +kernel

/-! ## 10. The bytes of a parsed message -/

/-- The five deserialize functions. -/
inductive Parser where
  | keyExchange
  | signal
  | preKey
  | senderKey
  | distribution
  deriving DecidableEq, Repr

namespace Parser

variable (P : ByteProvider Priv Pub)

/-- The `serialized` of the message that a parser makes of the data, which is what
`key_exchange_message_get_serialized` or `ciphertext_message_get_serialized` returns.  `fresh` is
what newly allocated memory happens to hold. -/
def serialized (fresh data : Bytes) : Parser → Except SgError SignalBuffer
  | keyExchange => (keyExchangeMessageDeserialize P fresh data).map fun m => m.serialized
  | signal => (signalMessageDeserialize P data).map fun m => .create m.serialized.bytes
  | preKey => (preKeySignalMessageDeserialize P data).map fun m => m.serialized
  | senderKey => (senderKeyMessageDeserialize P data).map fun m => .create m.serialized.bytes
  | distribution => (senderKeyDistributionMessageRead P data).map fun m => m.serialized

/-- The parser accepts the data. -/
def Accepts (parser : Parser) (data : Bytes) : Prop :=
  ∃ fresh buffer, fresh.length = data.length ∧ parser.serialized P fresh data = .ok buffer

/-- **The parsed message has the bytes that were received**, whatever the memory held. -/
def KeepsBytes (parser : Parser) (data : Bytes) : Prop :=
  ∀ fresh buffer, fresh.length = data.length → parser.serialized P fresh data = .ok buffer →
    buffer.len = data.length ∧ buffer.data = data

end Parser

section ParsedBytes

variable (P : ByteProvider Priv Pub) {data : Bytes}

theorem exists_of_map_ok {α β : Type} {x : Except SgError α} {f : α → β} {b : β}
    (h : x.map f = .ok b) : ∃ a, x = .ok a ∧ f a = b := by
  cases x with
  | error e => cases h
  | ok a =>
    cases h
    exact ⟨a, rfl, rfl⟩

/-- **What newly allocated memory holds** enters a parsed key exchange message through the copy
over the buffer, and only there. -/
theorem keyExchangeMessageDeserialize_fresh (fresh fresh' data : Bytes) :
    keyExchangeMessageDeserialize P fresh' data =
      (keyExchangeMessageDeserialize P fresh data).map fun m =>
        { m with serialized := SignalBuffer.overwrite ⟨data.length, fresh'⟩ data } := by
  simp only [keyExchangeMessageDeserialize, bind, Except.bind, pure, Except.pure, throw, throwThe,
    MonadExceptOf.throw]
  split
  · rfl
  split
  · rfl
  split
  · rfl
  rcases KeyExchangeMessageStructure.unpack data.tail with
    _ | ⟨_ | id, _ | baseKey, _ | ratchetKey, _ | identityKey, _ | signature⟩
  all_goals try rfl
  dsimp only
  split
  · rfl
  cases P.decodePoint baseKey with
  | error e => rfl
  | ok baseKey =>
    cases P.decodePoint ratchetKey with
    | error e => rfl
    | ok ratchetKey =>
      cases P.decodePoint identityKey with
      | error e => rfl
      | ok identityKey => rfl

theorem preKeySignalMessage_serialized {m : Serialized (PreKeySignalMessage Pub Bytes)}
    (h : preKeySignalMessageDeserialize P data = .ok m) : m.serialized = .create data := by
  simp only [preKeySignalMessageDeserialize, bind, Except.bind, pure, Except.pure, throw,
    throwThe, MonadExceptOf.throw] at h
  repeat' split at h
  all_goals cases h
  rfl

theorem senderKeyMessage_serialized {m : SenderKeyMessage Bytes}
    (h : senderKeyMessageDeserialize P data = .ok m) : m.serialized.bytes = data := by
  unfold senderKeyMessageDeserialize at h
  split at h
  · cases h
  · rename_i hlen
    obtain ⟨version, rest, rfl⟩ := List.exists_cons_of_ne_nil
      (show data ≠ [] by rintro rfl; exact hlen (Nat.zero_le _))
    rw [SignedMessage.deserialize_serialized h, SignedMessage.bytes]
    simp only [List.headD_cons, List.tail_cons, List.take_append_drop]

theorem senderKeyDistributionMessage_serialized
    {m : Serialized (SenderKeyDistributionMessage Pub Bytes)}
    (h : senderKeyDistributionMessageRead P data = .ok m) : m.serialized = .create data := by
  simp only [senderKeyDistributionMessageRead, bind, Except.bind, pure, Except.pure, throw,
    throwThe, MonadExceptOf.throw] at h
  repeat' split at h
  all_goals cases h
  rfl

/-- The last byte of a buffer that was copied over is what the memory held. -/
theorem SignalBuffer.getLast?_overwrite {fresh data : Bytes} (h : fresh.length = data.length)
    (hd : data ≠ []) :
    (SignalBuffer.overwrite ⟨data.length, fresh⟩ data).data.getLast? = fresh.getLast? := by
  have hsize : (sizeBytes data.length).length = sizeofSizeT := by
    rw [sizeBytes, List.length_map, List.length_range]
  have hpos : 0 < data.length := List.length_pos_iff.2 hd
  have himage : (image ⟨data.length, fresh⟩).length = sizeofSizeT + data.length := by
    rw [image, List.length_append, hsize, h]
  have hfresh : fresh ≠ [] := List.length_pos_iff.1 (h ▸ hpos)
  have hrest : ((image ⟨data.length, fresh⟩).drop data.length).getLast? = fresh.getLast? := by
    rw [List.getLast?_drop, if_neg (by rw [himage, sizeofSizeT]; omega), image,
      List.getLast?_append_of_ne_nil _ hfresh]
  have hne : (image ⟨data.length, fresh⟩).drop data.length ≠ [] := by
    rw [← List.length_pos_iff, List.length_drop, himage, sizeofSizeT]
    omega
  rw [overwrite, ofImage]
  dsimp only
  rw [List.getLast?_drop, if_neg, List.getLast?_append_of_ne_nil _ hne, hrest]
  rw [List.length_append, List.length_drop, himage]
  omega

/-- Two memories that differ in their last byte. -/
theorem exists_fresh_getLast? {n : Nat} (hn : 0 < n) (last : Option UInt8) :
    ∃ fresh : Bytes, fresh.length = n ∧ fresh.getLast? ≠ last := by
  have hlast : ∀ value : UInt8, (List.replicate n value).getLast? = some value := by
    intro value
    rw [List.getLast?_replicate, if_neg (Nat.pos_iff_ne_zero.1 hn)]
  by_cases h : last = some 0
  · exact ⟨List.replicate n 1, List.length_replicate, by rw [hlast, h]; decide⟩
  · exact ⟨List.replicate n 0, List.length_replicate, fun he => h ((hlast 0).symm.trans he).symm⟩

/-- **A parsed message keeps its exact bytes** unless it is a key exchange message, whose bytes
depend on what the memory held before. -/
theorem parsed_bytes_kept_iff (parser : Parser) {data : Bytes} (h : parser.Accepts P data) :
    parser.KeepsBytes P data ↔ parser ≠ .keyExchange := by
  obtain ⟨fresh, buffer, -, hbuffer⟩ := h
  cases parser with
  | keyExchange =>
    refine iff_of_false (fun hkeeps => ?_) fun hne => hne rfl
    obtain ⟨m, hm, -⟩ := exists_of_map_ok hbuffer
    have hd : data ≠ [] := by
      rintro rfl
      cases hm
    obtain ⟨fresh', hlen, hlast⟩ :=
      exists_fresh_getLast? (List.length_pos_iff.2 hd) data.getLast?
    have hread := keyExchangeMessageDeserialize_fresh P fresh fresh' data
    rw [hm] at hread
    have hdata := (hkeeps fresh' _ hlen (congrArg (Except.map _) hread)).2
    exact hlast ((SignalBuffer.getLast?_overwrite hlen hd).symm.trans (congrArg _ hdata))
  | signal =>
    refine iff_of_true (fun fresh buffer _ hb => ?_) (by decide)
    obtain ⟨m, hm, rfl⟩ := exists_of_map_ok hb
    rw [(signalMessage_parsed P hm).2]
    exact ⟨rfl, rfl⟩
  | preKey =>
    refine iff_of_true (fun fresh buffer _ hb => ?_) (by decide)
    obtain ⟨m, hm, rfl⟩ := exists_of_map_ok hb
    rw [preKeySignalMessage_serialized P hm]
    exact ⟨rfl, rfl⟩
  | senderKey =>
    refine iff_of_true (fun fresh buffer _ hb => ?_) (by decide)
    obtain ⟨m, hm, rfl⟩ := exists_of_map_ok hb
    rw [senderKeyMessage_serialized P hm]
    exact ⟨rfl, rfl⟩
  | distribution =>
    refine iff_of_true (fun fresh buffer _ hb => ?_) (by decide)
    obtain ⟨m, hm, rfl⟩ := exists_of_map_ok hb
    rw [senderKeyDistributionMessage_serialized P hm]
    exact ⟨rfl, rfl⟩

end ParsedBytes

/-- The bytes of the sample key exchange message. -/
def plainExchangeBytes : Bytes :=
  (keyExchangeMessageCreate plainProvider 3 7 1 (plainKey 1)
    ⟨List.replicate 64 9, List.length_replicate⟩ (plainKey 2) (plainKey 3)).serialized.data

/-- The bytes of a distribution message. -/
def plainDistributionBytes : Bytes :=
  (senderKeyDistributionMessageCreate plainProvider 4 0 (List.replicate 32 1)
    (plainKey 2)).serialized.data

/-- A distribution message keeps its bytes. -/
theorem parsed_bytes_kept_iff_distribution :
    Parser.distribution.Accepts plainProvider plainDistributionBytes ∧
      Parser.distribution.KeepsBytes plainProvider plainDistributionBytes := by
  have haccepts : Parser.distribution.Accepts plainProvider plainDistributionBytes :=
    ⟨plainDistributionBytes, .create plainDistributionBytes, rfl, by decide +kernel⟩
  exact ⟨haccepts, (parsed_bytes_kept_iff plainProvider .distribution haccepts).2 (by decide)⟩

/-- **A parsed key exchange message has other bytes than the ones received.**  Its 175 bytes are
accepted, and its buffer claims to have more than 7 * 10 ^ 16. -/
theorem parsed_exchange_bytes_lost :
    plainExchangeBytes.length = 175 ∧
      (Parser.keyExchange.serialized plainProvider (List.replicate 175 0)
        plainExchangeBytes).toOption.map SignalBuffer.len = some 73501330146134067 := by
  decide +kernel

end SignalProtocol
