/-
# Packed messages (`WhisperTextProtocol.pb-c.c`)

The five message structures of the protocol as protobuf packs them: which fields they have,
under which numbers, in which order.  `parseMember` is what the generated descriptor makes of a
member: it goes to the field of its number, and a member with an unknown number goes nowhere.
Whatever has less than 4 GiB is read back from its bytes (`unpack_pack`).

`ByteProvider` is a provider whose buffers are lists of bytes and whose packing is this one.  It
unpacks as protobuf-c does, with one idealisation: what was packed is read back also if it has
4 GiB or more.
-/
import SignalProtocol.Lib.Wire
import SignalProtocol.GroupMessage

namespace SignalProtocol

open Wire

/-- A buffer. -/
abbrev Bytes := List UInt8

/-- What becomes of a message that is not read: all callers answer a null pointer in the same
way. -/
def faultCode : Fault → SgError
  | .refused => .invalidProtoBuf
  | .overrun => .invalidAccess

/-! ## 1. The structures -/

/-- `Textsecure__KeyExchangeMessage`. -/
structure KeyExchangeMessageStructure where
  id : Option UInt32
  baseKey : Option Bytes
  ratchetKey : Option Bytes
  identityKey : Option Bytes
  baseKeySignature : Option Bytes
  deriving DecidableEq, Repr

/-- `Textsecure__PreKeySignalMessage`, with the inner message as it is packed. -/
structure PackedPreKeySignalMessage where
  registrationId : Option UInt32
  preKeyId : Option UInt32
  signedPreKeyId : Option UInt32
  baseKey : Option Bytes
  identityKey : Option Bytes
  message : Option Bytes
  deriving DecidableEq, Repr

theorem length_optional_le {α : Type} (c : Codec α) (number : Fin 16) (value : Option α) :
    (optional c number value).length ≤ 1 := by
  cases value <;> simp [Wire.optional, repeated]

theorem length_append_optional_le {α : Type} {fields : List Field} {c : Codec α} {number : Fin 16}
    {value : Option α} {k : Nat} (h : fields.length ≤ k) :
    (fields ++ optional c number value).length ≤ k + 1 := by
  have := length_optional_le c number value
  rw [List.length_append]
  omega

namespace KeyExchangeMessageStructure

/-- The fields in the order of their numbers. -/
def fields (m : KeyExchangeMessageStructure) : List Field :=
  optional uint32Codec 1 m.id ++ optional bytesCodec 2 m.baseKey ++
    optional bytesCodec 3 m.ratchetKey ++ optional bytesCodec 4 m.identityKey ++
    optional bytesCodec 5 m.baseKeySignature

/-- `textsecure__key_exchange_message__pack`. -/
def pack (m : KeyExchangeMessageStructure) : Bytes := Wire.pack m.fields

/-- A member, parsed. -/
def parseMember (m : KeyExchangeMessageStructure) (f : Member) :
    Except Fault KeyExchangeMessageStructure := do
  match f.tag with
  | 1 => return { m with id := some (← uint32Codec.read f) }
  | 2 => return { m with baseKey := some (← bytesCodec.read f) }
  | 3 => return { m with ratchetKey := some (← bytesCodec.read f) }
  | 4 => return { m with identityKey := some (← bytesCodec.read f) }
  | 5 => return { m with baseKeySignature := some (← bytesCodec.read f) }
  | _ => return m

/-- `textsecure__key_exchange_message__unpack`. -/
def unpack (data : Bytes) : Except Fault KeyExchangeMessageStructure :=
  unpackMessage protobufC parseMember ⟨none, none, none, none, none⟩ data

theorem reads (m : KeyExchangeMessageStructure) :
    Reads parseMember ⟨none, none, none, none, none⟩ m.fields m := by
  refine ((((Reads.optional (mk · none none none none) ?_).append
    (.optional (mk m.id · none none none) ?_)).append
    (.optional (mk m.id m.baseKey · none none) ?_)).append
    (.optional (mk m.id m.baseKey m.ratchetKey · none) ?_)).append
    (.optional (mk m.id m.baseKey m.ratchetKey m.identityKey ·) ?_)
  all_goals
    intro f h
    simp [parseMember, h]

theorem length_fields_le (m : KeyExchangeMessageStructure) : m.fields.length ≤ 5 := by
  iterate 4 apply length_append_optional_le
  exact length_optional_le ..

/-- **A message below 4 GiB is read back.** -/
theorem unpack_pack {m : KeyExchangeMessageStructure} (h : m.pack.length < 2 ^ 32) :
    unpack m.pack = .ok m :=
  unpackMessage_pack (allows_of_count (m.length_fields_le.trans (by decide)) h) m.reads

end KeyExchangeMessageStructure

namespace SignalMessageStructure

/-- The fields in the order of their numbers. -/
def fields (m : SignalMessageStructure Bytes) : List Field :=
  optional bytesCodec 1 m.ratchetKey ++ optional uint32Codec 2 m.counter ++
    optional uint32Codec 3 m.previousCounter ++ optional bytesCodec 4 m.ciphertext

/-- `textsecure__signal_message__pack`. -/
def pack (m : SignalMessageStructure Bytes) : Bytes := Wire.pack m.fields

/-- A member, parsed. -/
def parseMember (m : SignalMessageStructure Bytes) (f : Member) :
    Except Fault (SignalMessageStructure Bytes) := do
  match f.tag with
  | 1 => return { m with ratchetKey := some (← bytesCodec.read f) }
  | 2 => return { m with counter := some (← uint32Codec.read f) }
  | 3 => return { m with previousCounter := some (← uint32Codec.read f) }
  | 4 => return { m with ciphertext := some (← bytesCodec.read f) }
  | _ => return m

/-- `textsecure__signal_message__unpack`. -/
def unpack (data : Bytes) : Except Fault (SignalMessageStructure Bytes) :=
  unpackMessage protobufC parseMember ⟨none, none, none, none⟩ data

theorem reads (m : SignalMessageStructure Bytes) :
    Reads parseMember ⟨none, none, none, none⟩ m.fields m := by
  refine (((Reads.optional (mk · none none none) ?_).append
    (.optional (mk m.ratchetKey · none none) ?_)).append
    (.optional (mk m.ratchetKey m.counter · none) ?_)).append
    (.optional (mk m.ratchetKey m.counter m.previousCounter ·) ?_)
  all_goals
    intro f h
    simp [parseMember, h]

theorem length_fields_le (m : SignalMessageStructure Bytes) : m.fields.length ≤ 4 := by
  iterate 3 apply length_append_optional_le
  exact length_optional_le ..

/-- **A message below 4 GiB is read back.** -/
theorem unpack_pack {m : SignalMessageStructure Bytes} (h : m.pack.length < 2 ^ 32) :
    unpack m.pack = .ok m :=
  unpackMessage_pack (allows_of_count (m.length_fields_le.trans (by decide)) h) m.reads

end SignalMessageStructure

namespace PackedPreKeySignalMessage

/-- The fields in the order of their numbers. -/
def fields (m : PackedPreKeySignalMessage) : List Field :=
  optional uint32Codec 1 m.preKeyId ++ optional bytesCodec 2 m.baseKey ++
    optional bytesCodec 3 m.identityKey ++ optional bytesCodec 4 m.message ++
    optional uint32Codec 5 m.registrationId ++ optional uint32Codec 6 m.signedPreKeyId

/-- `textsecure__pre_key_signal_message__pack`. -/
def pack (m : PackedPreKeySignalMessage) : Bytes := Wire.pack m.fields

/-- A member, parsed. -/
def parseMember (m : PackedPreKeySignalMessage) (f : Member) :
    Except Fault PackedPreKeySignalMessage := do
  match f.tag with
  | 1 => return { m with preKeyId := some (← uint32Codec.read f) }
  | 2 => return { m with baseKey := some (← bytesCodec.read f) }
  | 3 => return { m with identityKey := some (← bytesCodec.read f) }
  | 4 => return { m with message := some (← bytesCodec.read f) }
  | 5 => return { m with registrationId := some (← uint32Codec.read f) }
  | 6 => return { m with signedPreKeyId := some (← uint32Codec.read f) }
  | _ => return m

/-- `textsecure__pre_key_signal_message__unpack`. -/
def unpack (data : Bytes) : Except Fault PackedPreKeySignalMessage :=
  unpackMessage protobufC parseMember ⟨none, none, none, none, none, none⟩ data

theorem reads (m : PackedPreKeySignalMessage) :
    Reads parseMember ⟨none, none, none, none, none, none⟩ m.fields m := by
  refine (((((Reads.optional (mk none · none none none none) ?_).append
    (.optional (mk none m.preKeyId none · none none) ?_)).append
    (.optional (mk none m.preKeyId none m.baseKey · none) ?_)).append
    (.optional (mk none m.preKeyId none m.baseKey m.identityKey ·) ?_)).append
    (.optional (mk · m.preKeyId none m.baseKey m.identityKey m.message) ?_)).append
    (.optional (mk m.registrationId m.preKeyId · m.baseKey m.identityKey m.message) ?_)
  all_goals
    intro f h
    simp [parseMember, h]

theorem length_fields_le (m : PackedPreKeySignalMessage) : m.fields.length ≤ 6 := by
  iterate 5 apply length_append_optional_le
  exact length_optional_le ..

/-- **A message below 4 GiB is read back.** -/
theorem unpack_pack {m : PackedPreKeySignalMessage} (h : m.pack.length < 2 ^ 32) :
    unpack m.pack = .ok m :=
  unpackMessage_pack (allows_of_count (m.length_fields_le.trans (by decide)) h) m.reads

end PackedPreKeySignalMessage

namespace SenderKeyMessageStructure

/-- The fields in the order of their numbers. -/
def fields (m : SenderKeyMessageStructure Bytes) : List Field :=
  optional uint32Codec 1 m.id ++ optional uint32Codec 2 m.iteration ++
    optional bytesCodec 3 m.ciphertext

/-- `textsecure__sender_key_message__pack`. -/
def pack (m : SenderKeyMessageStructure Bytes) : Bytes := Wire.pack m.fields

/-- A member, parsed. -/
def parseMember (m : SenderKeyMessageStructure Bytes) (f : Member) :
    Except Fault (SenderKeyMessageStructure Bytes) := do
  match f.tag with
  | 1 => return { m with id := some (← uint32Codec.read f) }
  | 2 => return { m with iteration := some (← uint32Codec.read f) }
  | 3 => return { m with ciphertext := some (← bytesCodec.read f) }
  | _ => return m

/-- `textsecure__sender_key_message__unpack`. -/
def unpack (data : Bytes) : Except Fault (SenderKeyMessageStructure Bytes) :=
  unpackMessage protobufC parseMember ⟨none, none, none⟩ data

theorem reads (m : SenderKeyMessageStructure Bytes) :
    Reads parseMember ⟨none, none, none⟩ m.fields m := by
  refine ((Reads.optional (mk · none none) ?_).append
    (.optional (mk m.id · none) ?_)).append
    (.optional (mk m.id m.iteration ·) ?_)
  all_goals
    intro f h
    simp [parseMember, h]

theorem length_fields_le (m : SenderKeyMessageStructure Bytes) : m.fields.length ≤ 3 := by
  iterate 2 apply length_append_optional_le
  exact length_optional_le ..

/-- **A message below 4 GiB is read back.** -/
theorem unpack_pack {m : SenderKeyMessageStructure Bytes} (h : m.pack.length < 2 ^ 32) :
    unpack m.pack = .ok m :=
  unpackMessage_pack (allows_of_count (m.length_fields_le.trans (by decide)) h) m.reads

end SenderKeyMessageStructure

namespace SenderKeyDistributionMessageStructure

/-- The fields in the order of their numbers. -/
def fields (m : SenderKeyDistributionMessageStructure Bytes) : List Field :=
  optional uint32Codec 1 m.id ++ optional uint32Codec 2 m.iteration ++
    optional bytesCodec 3 m.chainKey ++ optional bytesCodec 4 m.signingKey

/-- `textsecure__sender_key_distribution_message__pack`. -/
def pack (m : SenderKeyDistributionMessageStructure Bytes) : Bytes := Wire.pack m.fields

/-- A member, parsed. -/
def parseMember (m : SenderKeyDistributionMessageStructure Bytes) (f : Member) :
    Except Fault (SenderKeyDistributionMessageStructure Bytes) := do
  match f.tag with
  | 1 => return { m with id := some (← uint32Codec.read f) }
  | 2 => return { m with iteration := some (← uint32Codec.read f) }
  | 3 => return { m with chainKey := some (← bytesCodec.read f) }
  | 4 => return { m with signingKey := some (← bytesCodec.read f) }
  | _ => return m

/-- `textsecure__sender_key_distribution_message__unpack`. -/
def unpack (data : Bytes) : Except Fault (SenderKeyDistributionMessageStructure Bytes) :=
  unpackMessage protobufC parseMember ⟨none, none, none, none⟩ data

theorem reads (m : SenderKeyDistributionMessageStructure Bytes) :
    Reads parseMember ⟨none, none, none, none⟩ m.fields m := by
  refine (((Reads.optional (mk · none none none) ?_).append
    (.optional (mk m.id · none none) ?_)).append
    (.optional (mk m.id m.iteration · none) ?_)).append
    (.optional (mk m.id m.iteration m.chainKey ·) ?_)
  all_goals
    intro f h
    simp [parseMember, h]

theorem length_fields_le (m : SenderKeyDistributionMessageStructure Bytes) :
    m.fields.length ≤ 4 := by
  iterate 3 apply length_append_optional_le
  exact length_optional_le ..

/-- **A message below 4 GiB is read back.** -/
theorem unpack_pack {m : SenderKeyDistributionMessageStructure Bytes} (h : m.pack.length < 2 ^ 32) :
    unpack m.pack = .ok m :=
  unpackMessage_pack (allows_of_count (m.length_fields_le.trans (by decide)) h) m.reads

end SenderKeyDistributionMessageStructure

/-! ## 2. Providers over bytes -/

/-- **A provider whose buffers are bytes.**  Below 4 GiB it unpacks as protobuf-c does. -/
structure ByteProvider (Priv Pub : Type) extends GroupProvider Priv Pub Bytes where
  /-- `textsecure__pre_key_signal_message__unpack`. -/
  unpackPreKeySignalMessage : Bytes → Except SgError PackedPreKeySignalMessage
  len_eq : ∀ b, len b = b.length
  truncate_eq : ∀ n b, truncate n b = b.take n
  fill_eq : ∀ value n, fill value n = List.replicate n value
  frame_eq : ∀ version body, frame version body = version :: body
  length_hmacSha256 : ∀ key data, (hmacSha256 key data).length = 32
  /-- The pieces of a hashed buffer are hashed as one. -/
  hmacSha256_flatten : ∀ key data, hmacSha256 key data = hmacSha256 key [data.flatten]
  length_encodePoint : ∀ key, (encodePoint key).length = 33
  packSignalMessage_eq : ∀ m, packSignalMessage m = m.pack
  unpackSignalMessage_eq : ∀ data, data.length < 2 ^ 32 →
    unpackSignalMessage data = (SignalMessageStructure.unpack data).mapError faultCode
  packSenderKeyMessage_eq : ∀ m, packSenderKeyMessage m = m.pack
  unpackSenderKeyMessage_eq : ∀ data, data.length < 2 ^ 32 →
    unpackSenderKeyMessage data = (SenderKeyMessageStructure.unpack data).mapError faultCode
  packSenderKeyDistributionMessage_eq : ∀ m, packSenderKeyDistributionMessage m = m.pack
  unpackSenderKeyDistributionMessage_eq : ∀ data, data.length < 2 ^ 32 →
    unpackSenderKeyDistributionMessage data =
      (SenderKeyDistributionMessageStructure.unpack data).mapError faultCode
  unpack_packPreKeySignalMessage : ∀ m, unpackPreKeySignalMessage m.pack = .ok m
  unpackPreKeySignalMessage_eq : ∀ data, data.length < 2 ^ 32 →
    unpackPreKeySignalMessage data = (PackedPreKeySignalMessage.unpack data).mapError faultCode

end SignalProtocol
