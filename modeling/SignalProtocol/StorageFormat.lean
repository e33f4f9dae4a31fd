/-
# The bytes of stored records (`LocalStorageProtocol.pb-c.c`)

`Storage`, `Record` and `SenderKeyRecord` go from states to the generated C structs.  Here the
structs go to bytes and back, so that the store may hold what it really holds.

Two things stand between a struct and its bytes.  An empty run of bytes has a null pointer when
it is read, and the functions that create root and chain keys refuse a null pointer: a struct
is read back iff no such key is empty (`Packable`).  And a message inside a message may occur
several times in foreign bytes; the occurrences are merged (`merge_messages`), where a run of
bytes is taken from the later one unless that is null.

`sessionRecord_foreign_bytes` says that whatever bytes are accepted, what is made of them is read
back as it is.
-/
import SignalProtocol.Compare
import SignalProtocol.Lib.Wire
import SignalProtocol.SenderKeyRecord

namespace SignalProtocol

open Wire

/-! ## 1. Sessions -/

namespace ChainKeyStructure

/-- The fields in the order of their numbers. -/
def fields (m : ChainKeyStructure Bytes) : List Field :=
  optional uint32Codec 1 m.index ++ optional pointerCodec 2 m.key

/-- `ChainKey`, packed. -/
def pack (m : ChainKeyStructure Bytes) : Bytes := Wire.pack m.fields

/-- Two occurrences. -/
def merge (earlier later : ChainKeyStructure Bytes) : ChainKeyStructure Bytes where
  index := later.index <|> earlier.index
  key := mergePointer earlier.key later.key

/-- A member, parsed. -/
def parseMember (m : ChainKeyStructure Bytes) (f : Member) :
    Except Fault (ChainKeyStructure Bytes) := do
  match f.tag with
  | 1 => return { m with index := some (← uint32Codec.read f) }
  | 2 => return { m with key := some (← pointerCodec.read f) }
  | _ => return m

/-- `ChainKey`, unpacked. -/
def unpack (data : Bytes) : Except Fault (ChainKeyStructure Bytes) :=
  unpackMessage protobufC parseMember ⟨none, none⟩ data

/-- The key is not an empty run. -/
def Packable (m : ChainKeyStructure Bytes) : Prop := ∀ key ∈ m.key, key ≠ some []

theorem unpack_pack {m : ChainKeyStructure Bytes} (h : m.Packable)
    (hlen : m.pack.length ≤ safeLen) : unpack m.pack = .ok m := by
  refine unpackMessage_pack (allows_of_length hlen) ?_
  refine (Reads.optional (mk · none) ?_).append
    (.optional_of (fun b hb => pointerCodec_keeps (h b hb)) (mk m.index ·) ?_)
  all_goals
    intro f h
    simp [parseMember, h]

end ChainKeyStructure

/-- `ChainKey` as a field. -/
def chainKeyCodec : Codec (ChainKeyStructure Bytes) :=
  messageCodec ChainKeyStructure.pack ChainKeyStructure.unpack

namespace MessageKeyStructure

/-- The fields in the order of their numbers. -/
def fields (m : MessageKeyStructure Bytes) : List Field :=
  optional uint32Codec 1 m.index ++ optional bytesCodec 2 m.cipherKey ++
    optional bytesCodec 3 m.macKey ++ optional bytesCodec 4 m.iv

/-- `MessageKey`, packed. -/
def pack (m : MessageKeyStructure Bytes) : Bytes := Wire.pack m.fields

/-- A member, parsed. -/
def parseMember (m : MessageKeyStructure Bytes) (f : Member) :
    Except Fault (MessageKeyStructure Bytes) := do
  match f.tag with
  | 1 => return { m with index := some (← uint32Codec.read f) }
  | 2 => return { m with cipherKey := some (← bytesCodec.read f) }
  | 3 => return { m with macKey := some (← bytesCodec.read f) }
  | 4 => return { m with iv := some (← bytesCodec.read f) }
  | _ => return m

/-- `MessageKey`, unpacked. -/
def unpack (data : Bytes) : Except Fault (MessageKeyStructure Bytes) :=
  unpackMessage protobufC parseMember ⟨none, none, none, none⟩ data

theorem unpack_pack {m : MessageKeyStructure Bytes} (hlen : m.pack.length ≤ safeLen) :
    unpack m.pack = .ok m := by
  refine unpackMessage_pack (allows_of_length hlen) ?_
  refine (((Reads.optional (mk · none none none) ?_).append
    (.optional (mk m.index · none none) ?_)).append
    (.optional (mk m.index m.cipherKey · none) ?_)).append
    (.optional (mk m.index m.cipherKey m.macKey ·) ?_)
  all_goals
    intro f h
    simp [parseMember, h]

end MessageKeyStructure

/-- `MessageKey` as a field. -/
def messageKeyCodec : Codec (MessageKeyStructure Bytes) :=
  messageCodec MessageKeyStructure.pack MessageKeyStructure.unpack

namespace ChainStructure

/-- The fields in the order of their numbers. -/
def fields (m : ChainStructure Bytes) : List Field :=
  optional bytesCodec 1 m.senderRatchetKey ++ optional bytesCodec 2 m.senderRatchetKeyPrivate ++
    optional chainKeyCodec 3 m.chainKey ++ repeated messageKeyCodec 4 m.messageKeys

/-- `Chain`, packed. -/
def pack (m : ChainStructure Bytes) : Bytes := Wire.pack m.fields

/-- Two occurrences. -/
def merge (earlier later : ChainStructure Bytes) : ChainStructure Bytes where
  senderRatchetKey := mergeBytes earlier.senderRatchetKey later.senderRatchetKey
  senderRatchetKeyPrivate :=
    mergeBytes earlier.senderRatchetKeyPrivate later.senderRatchetKeyPrivate
  chainKey := mergeMessage ChainKeyStructure.merge earlier.chainKey later.chainKey
  messageKeys := earlier.messageKeys ++ later.messageKeys

/-- A member, parsed. -/
def parseMember (m : ChainStructure Bytes) (f : Member) : Except Fault (ChainStructure Bytes) := do
  match f.tag with
  | 1 => return { m with senderRatchetKey := some (← bytesCodec.read f) }
  | 2 => return { m with senderRatchetKeyPrivate := some (← bytesCodec.read f) }
  | 3 =>
    let value ← chainKeyCodec.read f
    return { m with chainKey := mergeMessage ChainKeyStructure.merge m.chainKey (some value) }
  | 4 =>
    let value ← messageKeyCodec.read f
    return { m with messageKeys := m.messageKeys ++ [value] }
  | _ => return m

/-- `Chain`, unpacked. -/
def unpack (data : Bytes) : Except Fault (ChainStructure Bytes) :=
  unpackMessage protobufC parseMember ⟨none, none, none, []⟩ data

/-- The chain key is not an empty run. -/
def Packable (m : ChainStructure Bytes) : Prop := ∀ k ∈ m.chainKey, k.Packable

theorem unpack_pack {m : ChainStructure Bytes} (h : m.Packable) (hlen : m.pack.length ≤ safeLen) :
    unpack m.pack = .ok m := by
  have hkey : ∀ k ∈ m.chainKey, chainKeyCodec.Keeps k := fun k hk =>
    messageCodec_keeps_of_mem hlen (ChainKeyStructure.unpack_pack (h k hk))
      (List.mem_append_left _ (List.mem_append_right _ (mem_optional chainKeyCodec 3 hk)))
  have hkeys : ∀ k ∈ m.messageKeys, messageKeyCodec.Keeps k := fun k hk =>
    messageCodec_keeps_of_mem hlen MessageKeyStructure.unpack_pack
      (List.mem_append_right _ (mem_repeated messageKeyCodec 4 hk))
  refine unpackMessage_pack (allows_of_length hlen) ?_
  refine (((Reads.optional (mk · none none []) ?_).append
    (.optional (mk m.senderRatchetKey · none []) ?_)).append
    (.optional_of hkey (mk m.senderRatchetKey m.senderRatchetKeyPrivate · []) ?_)).append
    (.repeated_of hkeys (mk m.senderRatchetKey m.senderRatchetKeyPrivate m.chainKey ·) ?_ [])
  all_goals
    intros
    simp [parseMember, mergeMessage, *]

end ChainStructure

/-- `Chain` as a field. -/
def chainCodec : Codec (ChainStructure Bytes) :=
  messageCodec ChainStructure.pack ChainStructure.unpack

namespace PendingKeyExchangeStructure

/-- The fields in the order of their numbers. -/
def fields (m : PendingKeyExchangeStructure Bytes) : List Field :=
  optional uint32Codec 1 m.sequence ++ optional bytesCodec 2 m.localBaseKey ++
    optional bytesCodec 3 m.localBaseKeyPrivate ++ optional bytesCodec 4 m.localRatchetKey ++
    optional bytesCodec 5 m.localRatchetKeyPrivate ++ optional bytesCodec 7 m.localIdentityKey ++
    optional bytesCodec 8 m.localIdentityKeyPrivate

/-- `PendingKeyExchange`, packed. -/
def pack (m : PendingKeyExchangeStructure Bytes) : Bytes := Wire.pack m.fields

/-- Two occurrences. -/
def merge (earlier later : PendingKeyExchangeStructure Bytes) :
    PendingKeyExchangeStructure Bytes where
  sequence := later.sequence <|> earlier.sequence
  localBaseKey := mergeBytes earlier.localBaseKey later.localBaseKey
  localBaseKeyPrivate := mergeBytes earlier.localBaseKeyPrivate later.localBaseKeyPrivate
  localRatchetKey := mergeBytes earlier.localRatchetKey later.localRatchetKey
  localRatchetKeyPrivate := mergeBytes earlier.localRatchetKeyPrivate later.localRatchetKeyPrivate
  localIdentityKey := mergeBytes earlier.localIdentityKey later.localIdentityKey
  localIdentityKeyPrivate :=
    mergeBytes earlier.localIdentityKeyPrivate later.localIdentityKeyPrivate

/-- A member, parsed. -/
def parseMember (m : PendingKeyExchangeStructure Bytes) (f : Member) :
    Except Fault (PendingKeyExchangeStructure Bytes) := do
  match f.tag with
  | 1 => return { m with sequence := some (← uint32Codec.read f) }
  | 2 => return { m with localBaseKey := some (← bytesCodec.read f) }
  | 3 => return { m with localBaseKeyPrivate := some (← bytesCodec.read f) }
  | 4 => return { m with localRatchetKey := some (← bytesCodec.read f) }
  | 5 => return { m with localRatchetKeyPrivate := some (← bytesCodec.read f) }
  | 7 => return { m with localIdentityKey := some (← bytesCodec.read f) }
  | 8 => return { m with localIdentityKeyPrivate := some (← bytesCodec.read f) }
  | _ => return m

/-- `PendingKeyExchange`, unpacked. -/
def unpack (data : Bytes) : Except Fault (PendingKeyExchangeStructure Bytes) :=
  unpackMessage protobufC parseMember ⟨none, none, none, none, none, none, none⟩ data

theorem unpack_pack {m : PendingKeyExchangeStructure Bytes} (hlen : m.pack.length ≤ safeLen) :
    unpack m.pack = .ok m := by
  refine unpackMessage_pack (allows_of_length hlen) ?_
  refine ((((((Reads.optional (mk · none none none none none none) ?_).append
    (.optional (mk m.sequence · none none none none none) ?_)).append
    (.optional (mk m.sequence m.localBaseKey · none none none none) ?_)).append
    (.optional (mk m.sequence m.localBaseKey m.localBaseKeyPrivate · none none none) ?_)).append
    (.optional (mk m.sequence m.localBaseKey m.localBaseKeyPrivate m.localRatchetKey · none none)
      ?_)).append
    (.optional (mk m.sequence m.localBaseKey m.localBaseKeyPrivate m.localRatchetKey
      m.localRatchetKeyPrivate · none) ?_)).append
    (.optional (mk m.sequence m.localBaseKey m.localBaseKeyPrivate m.localRatchetKey
      m.localRatchetKeyPrivate m.localIdentityKey ·) ?_)
  all_goals
    intro f h
    simp [parseMember, h]

end PendingKeyExchangeStructure

/-- `PendingKeyExchange` as a field. -/
def pendingKeyExchangeCodec : Codec (PendingKeyExchangeStructure Bytes) :=
  messageCodec PendingKeyExchangeStructure.pack PendingKeyExchangeStructure.unpack

namespace PendingPreKeyStructure

/-- The fields in the order of their numbers. -/
def fields (m : PendingPreKeyStructure Bytes) : List Field :=
  optional uint32Codec 1 m.preKeyId ++ optional bytesCodec 2 m.baseKey ++
    optional int32Codec 3 m.signedPreKeyId

/-- `PendingPreKey`, packed. -/
def pack (m : PendingPreKeyStructure Bytes) : Bytes := Wire.pack m.fields

/-- Two occurrences. -/
def merge (earlier later : PendingPreKeyStructure Bytes) : PendingPreKeyStructure Bytes where
  preKeyId := later.preKeyId <|> earlier.preKeyId
  signedPreKeyId := later.signedPreKeyId <|> earlier.signedPreKeyId
  baseKey := mergeBytes earlier.baseKey later.baseKey

/-- A member, parsed. -/
def parseMember (m : PendingPreKeyStructure Bytes) (f : Member) :
    Except Fault (PendingPreKeyStructure Bytes) := do
  match f.tag with
  | 1 => return { m with preKeyId := some (← uint32Codec.read f) }
  | 2 => return { m with baseKey := some (← bytesCodec.read f) }
  | 3 => return { m with signedPreKeyId := some (← int32Codec.read f) }
  | _ => return m

/-- `PendingPreKey`, unpacked. -/
def unpack (data : Bytes) : Except Fault (PendingPreKeyStructure Bytes) :=
  unpackMessage protobufC parseMember ⟨none, none, none⟩ data

theorem unpack_pack {m : PendingPreKeyStructure Bytes} (hlen : m.pack.length ≤ safeLen) :
    unpack m.pack = .ok m := by
  refine unpackMessage_pack (allows_of_length hlen) ?_
  refine ((Reads.optional (mk · none none) ?_).append
    (.optional (mk m.preKeyId none ·) ?_)).append
    (.optional (mk m.preKeyId · m.baseKey) ?_)
  all_goals
    intro f h
    simp [parseMember, h]

end PendingPreKeyStructure

/-- `PendingPreKey` as a field. -/
def pendingPreKeyCodec : Codec (PendingPreKeyStructure Bytes) :=
  messageCodec PendingPreKeyStructure.pack PendingPreKeyStructure.unpack

namespace SessionStructure

/-- The fields in the order of their numbers. -/
def fields (m : SessionStructure Bytes) : List Field :=
  optional uint32Codec 1 m.sessionVersion ++ optional bytesCodec 2 m.localIdentityPublic ++
    optional bytesCodec 3 m.remoteIdentityPublic ++ optional pointerCodec 4 m.rootKey ++
    optional uint32Codec 5 m.previousCounter ++ optional chainCodec 6 m.senderChain ++
    repeated chainCodec 7 m.receiverChains ++
    optional pendingKeyExchangeCodec 8 m.pendingKeyExchange ++
    optional pendingPreKeyCodec 9 m.pendingPreKey ++
    optional uint32Codec 10 m.remoteRegistrationId ++
    optional uint32Codec 11 m.localRegistrationId ++ optional boolCodec 12 m.needsRefresh ++
    optional bytesCodec 13 m.aliceBaseKey

/-- `textsecure__session_structure__pack`. -/
def pack (m : SessionStructure Bytes) : Bytes := Wire.pack m.fields

/-- Two occurrences. -/
def merge (earlier later : SessionStructure Bytes) : SessionStructure Bytes where
  sessionVersion := later.sessionVersion <|> earlier.sessionVersion
  localIdentityPublic := mergeBytes earlier.localIdentityPublic later.localIdentityPublic
  remoteIdentityPublic := mergeBytes earlier.remoteIdentityPublic later.remoteIdentityPublic
  rootKey := mergePointer earlier.rootKey later.rootKey
  previousCounter := later.previousCounter <|> earlier.previousCounter
  senderChain := mergeMessage ChainStructure.merge earlier.senderChain later.senderChain
  receiverChains := earlier.receiverChains ++ later.receiverChains
  pendingKeyExchange := mergeMessage PendingKeyExchangeStructure.merge earlier.pendingKeyExchange
    later.pendingKeyExchange
  pendingPreKey :=
    mergeMessage PendingPreKeyStructure.merge earlier.pendingPreKey later.pendingPreKey
  remoteRegistrationId := later.remoteRegistrationId <|> earlier.remoteRegistrationId
  localRegistrationId := later.localRegistrationId <|> earlier.localRegistrationId
  needsRefresh := later.needsRefresh <|> earlier.needsRefresh
  aliceBaseKey := mergeBytes earlier.aliceBaseKey later.aliceBaseKey

/-- A member, parsed. -/
def parseMember (m : SessionStructure Bytes) (f : Member) :
    Except Fault (SessionStructure Bytes) := do
  match f.tag with
  | 1 => return { m with sessionVersion := some (← uint32Codec.read f) }
  | 2 => return { m with localIdentityPublic := some (← bytesCodec.read f) }
  | 3 => return { m with remoteIdentityPublic := some (← bytesCodec.read f) }
  | 4 => return { m with rootKey := some (← pointerCodec.read f) }
  | 5 => return { m with previousCounter := some (← uint32Codec.read f) }
  | 6 =>
    let value ← chainCodec.read f
    return { m with senderChain := mergeMessage ChainStructure.merge m.senderChain (some value) }
  | 7 =>
    let value ← chainCodec.read f
    return { m with receiverChains := m.receiverChains ++ [value] }
  | 8 =>
    let value ← pendingKeyExchangeCodec.read f
    return { m with
      pendingKeyExchange :=
        mergeMessage PendingKeyExchangeStructure.merge m.pendingKeyExchange (some value) }
  | 9 =>
    let value ← pendingPreKeyCodec.read f
    return { m with
      pendingPreKey := mergeMessage PendingPreKeyStructure.merge m.pendingPreKey (some value) }
  | 10 => return { m with remoteRegistrationId := some (← uint32Codec.read f) }
  | 11 => return { m with localRegistrationId := some (← uint32Codec.read f) }
  | 12 => return { m with needsRefresh := some (← boolCodec.read f) }
  | 13 => return { m with aliceBaseKey := some (← bytesCodec.read f) }
  | _ => return m

/-- `textsecure__session_structure__unpack`. -/
def unpack (data : Bytes) : Except Fault (SessionStructure Bytes) :=
  unpackMessage protobufC parseMember
    ⟨none, none, none, none, none, none, [], none, none, none, none, none, none⟩ data

/-- **No root key and no chain key is an empty run.** -/
structure Packable (m : SessionStructure Bytes) : Prop where
  rootKey : ∀ key ∈ m.rootKey, key ≠ some []
  senderChain : ∀ c ∈ m.senderChain, c.Packable
  receiverChains : ∀ c ∈ m.receiverChains, c.Packable

theorem unpack_pack {m : SessionStructure Bytes} (h : m.Packable)
    (hlen : m.pack.length ≤ safeLen) : unpack m.pack = .ok m := by
  have hroot : ∀ key ∈ m.rootKey, pointerCodec.Keeps key := fun key hkey =>
    pointerCodec_keeps (h.rootKey key hkey)
  have hsender : ∀ c ∈ m.senderChain, chainCodec.Keeps c := fun c hc =>
    have hmem : ⟨6, chainCodec.write c⟩ ∈ m.fields := by simp [fields, mem_optional chainCodec 6 hc]
    messageCodec_keeps_of_mem hlen (ChainStructure.unpack_pack (h.senderChain c hc)) hmem
  have hreceivers : ∀ c ∈ m.receiverChains, chainCodec.Keeps c := fun c hc =>
    have hmem : ⟨7, chainCodec.write c⟩ ∈ m.fields := by simp [fields, mem_repeated chainCodec 7 hc]
    messageCodec_keeps_of_mem hlen (ChainStructure.unpack_pack (h.receiverChains c hc)) hmem
  have hexchange : ∀ e ∈ m.pendingKeyExchange, pendingKeyExchangeCodec.Keeps e := fun e he =>
    have hmem : ⟨8, pendingKeyExchangeCodec.write e⟩ ∈ m.fields := by
      simp [fields, mem_optional pendingKeyExchangeCodec 8 he]
    messageCodec_keeps_of_mem hlen PendingKeyExchangeStructure.unpack_pack hmem
  have hpreKey : ∀ k ∈ m.pendingPreKey, pendingPreKeyCodec.Keeps k := fun k hk =>
    have hmem : ⟨9, pendingPreKeyCodec.write k⟩ ∈ m.fields := by
      simp [fields, mem_optional pendingPreKeyCodec 9 hk]
    messageCodec_keeps_of_mem hlen PendingPreKeyStructure.unpack_pack hmem
  refine unpackMessage_pack (allows_of_length hlen) ?_
  refine ((((((((((((Reads.optional (mk · none none none none none [] none none none none none
      none) ?_).append
    (.optional (mk m.sessionVersion · none none none none [] none none none none none none)
      ?_)).append
    (.optional (mk m.sessionVersion m.localIdentityPublic · none none none [] none none none none
      none none) ?_)).append
    (.optional_of hroot (mk m.sessionVersion m.localIdentityPublic m.remoteIdentityPublic · none
      none [] none none none none none none) ?_)).append
    (.optional (mk m.sessionVersion m.localIdentityPublic m.remoteIdentityPublic m.rootKey · none
      [] none none none none none none) ?_)).append
    (.optional_of hsender (mk m.sessionVersion m.localIdentityPublic m.remoteIdentityPublic
      m.rootKey m.previousCounter · [] none none none none none none) ?_)).append
    (.repeated_of hreceivers (mk m.sessionVersion m.localIdentityPublic m.remoteIdentityPublic
      m.rootKey m.previousCounter m.senderChain · none none none none none none) ?_ [])).append
    (.optional_of hexchange (mk m.sessionVersion m.localIdentityPublic m.remoteIdentityPublic
      m.rootKey m.previousCounter m.senderChain m.receiverChains · none none none none none)
      ?_)).append
    (.optional_of hpreKey (mk m.sessionVersion m.localIdentityPublic m.remoteIdentityPublic
      m.rootKey m.previousCounter m.senderChain m.receiverChains m.pendingKeyExchange · none none
      none none) ?_)).append
    (.optional (mk m.sessionVersion m.localIdentityPublic m.remoteIdentityPublic m.rootKey
      m.previousCounter m.senderChain m.receiverChains m.pendingKeyExchange m.pendingPreKey ·
      none none none) ?_)).append
    (.optional (mk m.sessionVersion m.localIdentityPublic m.remoteIdentityPublic m.rootKey
      m.previousCounter m.senderChain m.receiverChains m.pendingKeyExchange m.pendingPreKey
      m.remoteRegistrationId · none none) ?_)).append
    (.optional (mk m.sessionVersion m.localIdentityPublic m.remoteIdentityPublic m.rootKey
      m.previousCounter m.senderChain m.receiverChains m.pendingKeyExchange m.pendingPreKey
      m.remoteRegistrationId m.localRegistrationId · none) ?_)).append
    (.optional (mk m.sessionVersion m.localIdentityPublic m.remoteIdentityPublic m.rootKey
      m.previousCounter m.senderChain m.receiverChains m.pendingKeyExchange m.pendingPreKey
      m.remoteRegistrationId m.localRegistrationId m.needsRefresh ·) ?_)
  all_goals
    intros
    simp [parseMember, mergeMessage, *]

end SessionStructure

/-- `SessionStructure` as a field. -/
def sessionCodec : Codec (SessionStructure Bytes) :=
  messageCodec SessionStructure.pack SessionStructure.unpack

namespace RecordStructure

/-- The fields in the order of their numbers. -/
def fields (m : RecordStructure Bytes) : List Field :=
  optional sessionCodec 1 m.currentSession ++ repeated sessionCodec 2 m.previousSessions

/-- `textsecure__record_structure__pack`. -/
def pack (m : RecordStructure Bytes) : Bytes := Wire.pack m.fields

/-- A member, parsed. -/
def parseMember (m : RecordStructure Bytes) (f : Member) :
    Except Fault (RecordStructure Bytes) := do
  match f.tag with
  | 1 =>
    let value ← sessionCodec.read f
    return { m with
      currentSession := mergeMessage SessionStructure.merge m.currentSession (some value) }
  | 2 =>
    let value ← sessionCodec.read f
    return { m with previousSessions := m.previousSessions ++ [value] }
  | _ => return m

/-- `textsecure__record_structure__unpack`. -/
def unpack (data : Bytes) : Except Fault (RecordStructure Bytes) :=
  unpackMessage protobufC parseMember ⟨none, []⟩ data

/-- No key of a state is an empty run. -/
structure Packable (m : RecordStructure Bytes) : Prop where
  currentSession : ∀ s ∈ m.currentSession, s.Packable
  previousSessions : ∀ s ∈ m.previousSessions, s.Packable

/-- **A record is read back from its bytes.** -/
theorem unpack_pack {m : RecordStructure Bytes} (h : m.Packable)
    (hlen : m.pack.length ≤ safeLen) : unpack m.pack = .ok m := by
  have hcurrent : ∀ s ∈ m.currentSession, sessionCodec.Keeps s := fun s hs =>
    messageCodec_keeps_of_mem hlen (SessionStructure.unpack_pack (h.currentSession s hs))
      (List.mem_append_left _ (mem_optional sessionCodec 1 hs))
  have hprevious : ∀ s ∈ m.previousSessions, sessionCodec.Keeps s := fun s hs =>
    messageCodec_keeps_of_mem hlen (SessionStructure.unpack_pack (h.previousSessions s hs))
      (List.mem_append_right _ (mem_repeated sessionCodec 2 hs))
  refine unpackMessage_pack (allows_of_length hlen) ?_
  refine (Reads.optional_of hcurrent (mk · []) ?_).append
    (.repeated_of hprevious (mk m.currentSession ·) ?_ [])
  all_goals
    intros
    simp [parseMember, mergeMessage, *]

end RecordStructure

/-! ## 2. Sender keys -/

/-- The fields of an iteration with its seed (`SenderChainKey`, `SenderMessageKey`). -/
def iterationFields (m : Option UInt32 × Option Bytes) : List Field :=
  optional uint32Codec 1 m.1 ++ optional bytesCodec 2 m.2

/-- `SenderChainKey` and `SenderMessageKey`, packed. -/
def packIteration (m : Option UInt32 × Option Bytes) : Bytes := Wire.pack (iterationFields m)

/-- A member of one of them, parsed. -/
def parseIteration (m : Option UInt32 × Option Bytes) (f : Member) :
    Except Fault (Option UInt32 × Option Bytes) := do
  match f.tag with
  | 1 => return (some (← uint32Codec.read f), m.2)
  | 2 => return (m.1, some (← bytesCodec.read f))
  | _ => return m

/-- `SenderChainKey` and `SenderMessageKey`, unpacked. -/
def unpackIteration (data : Bytes) : Except Fault (Option UInt32 × Option Bytes) :=
  unpackMessage protobufC parseIteration (none, none) data

/-- Two occurrences. -/
def mergeIteration (earlier later : Option UInt32 × Option Bytes) : Option UInt32 × Option Bytes :=
  (later.1 <|> earlier.1, mergeBytes earlier.2 later.2)

theorem unpackIteration_pack {m : Option UInt32 × Option Bytes}
    (hlen : (packIteration m).length ≤ safeLen) : unpackIteration (packIteration m) = .ok m := by
  refine unpackMessage_pack (allows_of_length hlen) ?_
  refine (Reads.optional (Prod.mk · none) ?_).append (.optional (Prod.mk m.1 ·) ?_)
  all_goals
    intro f h
    simp [parseIteration, h]

/-- `SenderChainKey` and `SenderMessageKey` as a field. -/
def iterationCodec : Codec (Option UInt32 × Option Bytes) :=
  messageCodec packIteration unpackIteration

/-- The fields of a key with its private half (`SenderSigningKey`). -/
def signingKeyFields (m : Option Bytes × Option Bytes) : List Field :=
  optional bytesCodec 1 m.1 ++ optional bytesCodec 2 m.2

/-- `SenderSigningKey`, packed. -/
def packSigningKey (m : Option Bytes × Option Bytes) : Bytes := Wire.pack (signingKeyFields m)

/-- A member of it, parsed. -/
def parseSigningKey (m : Option Bytes × Option Bytes) (f : Member) :
    Except Fault (Option Bytes × Option Bytes) := do
  match f.tag with
  | 1 => return (some (← bytesCodec.read f), m.2)
  | 2 => return (m.1, some (← bytesCodec.read f))
  | _ => return m

/-- `SenderSigningKey`, unpacked. -/
def unpackSigningKey (data : Bytes) : Except Fault (Option Bytes × Option Bytes) :=
  unpackMessage protobufC parseSigningKey (none, none) data

/-- Two occurrences. -/
def mergeSigningKey (earlier later : Option Bytes × Option Bytes) : Option Bytes × Option Bytes :=
  (mergeBytes earlier.1 later.1, mergeBytes earlier.2 later.2)

theorem unpackSigningKey_pack {m : Option Bytes × Option Bytes}
    (hlen : (packSigningKey m).length ≤ safeLen) :
    unpackSigningKey (packSigningKey m) = .ok m := by
  refine unpackMessage_pack (allows_of_length hlen) ?_
  refine (Reads.optional (Prod.mk · none) ?_).append (.optional (Prod.mk m.1 ·) ?_)
  all_goals
    intro f h
    simp [parseSigningKey, h]

/-- `SenderSigningKey` as a field. -/
def signingKeyCodec : Codec (Option Bytes × Option Bytes) :=
  messageCodec packSigningKey unpackSigningKey

namespace SenderKeyStateStructure

/-- The fields in the order of their numbers. -/
def fields (m : SenderKeyStateStructure Bytes) : List Field :=
  optional uint32Codec 1 m.senderKeyId ++ optional iterationCodec 2 m.senderChainKey ++
    optional signingKeyCodec 3 m.senderSigningKey ++ repeated iterationCodec 4 m.senderMessageKeys

/-- `textsecure__sender_key_state_structure__pack`. -/
def pack (m : SenderKeyStateStructure Bytes) : Bytes := Wire.pack m.fields

/-- A member, parsed. -/
def parseMember (m : SenderKeyStateStructure Bytes) (f : Member) :
    Except Fault (SenderKeyStateStructure Bytes) := do
  match f.tag with
  | 1 => return { m with senderKeyId := some (← uint32Codec.read f) }
  | 2 =>
    let value ← iterationCodec.read f
    return { m with senderChainKey := mergeMessage mergeIteration m.senderChainKey (some value) }
  | 3 =>
    let value ← signingKeyCodec.read f
    return { m with
      senderSigningKey := mergeMessage mergeSigningKey m.senderSigningKey (some value) }
  | 4 =>
    let value ← iterationCodec.read f
    return { m with senderMessageKeys := m.senderMessageKeys ++ [value] }
  | _ => return m

/-- `textsecure__sender_key_state_structure__unpack`. -/
def unpack (data : Bytes) : Except Fault (SenderKeyStateStructure Bytes) :=
  unpackMessage protobufC parseMember ⟨none, none, none, []⟩ data

theorem unpack_pack {m : SenderKeyStateStructure Bytes} (hlen : m.pack.length ≤ safeLen) :
    unpack m.pack = .ok m := by
  have hchain : ∀ k ∈ m.senderChainKey, iterationCodec.Keeps k := fun k hk =>
    have hmem : ⟨2, iterationCodec.write k⟩ ∈ m.fields := by
      simp [fields, mem_optional iterationCodec 2 hk]
    messageCodec_keeps_of_mem hlen unpackIteration_pack hmem
  have hsigning : ∀ k ∈ m.senderSigningKey, signingKeyCodec.Keeps k := fun k hk =>
    have hmem : ⟨3, signingKeyCodec.write k⟩ ∈ m.fields := by
      simp [fields, mem_optional signingKeyCodec 3 hk]
    messageCodec_keeps_of_mem hlen unpackSigningKey_pack hmem
  have hkeys : ∀ k ∈ m.senderMessageKeys, iterationCodec.Keeps k := fun k hk =>
    have hmem : ⟨4, iterationCodec.write k⟩ ∈ m.fields := by
      simp [fields, mem_repeated iterationCodec 4 hk]
    messageCodec_keeps_of_mem hlen unpackIteration_pack hmem
  refine unpackMessage_pack (allows_of_length hlen) ?_
  refine (((Reads.optional (mk · none none []) ?_).append
    (.optional_of hchain (mk m.senderKeyId · none []) ?_)).append
    (.optional_of hsigning (mk m.senderKeyId m.senderChainKey · []) ?_)).append
    (.repeated_of hkeys (mk m.senderKeyId m.senderChainKey m.senderSigningKey ·) ?_ [])
  all_goals
    intros
    simp [parseMember, mergeMessage, *]

end SenderKeyStateStructure

/-- `SenderKeyStateStructure` as a field. -/
def senderKeyStateCodec : Codec (SenderKeyStateStructure Bytes) :=
  messageCodec SenderKeyStateStructure.pack SenderKeyStateStructure.unpack

/-- `textsecure__sender_key_record_structure__pack`. -/
def packSenderKeyRecord (states : List (SenderKeyStateStructure Bytes)) : Bytes :=
  Wire.pack (repeated senderKeyStateCodec 1 states)

/-- A member of a sender key record, parsed. -/
def parseSenderKeyRecord (states : List (SenderKeyStateStructure Bytes)) (f : Member) :
    Except Fault (List (SenderKeyStateStructure Bytes)) := do
  match f.tag with
  | 1 => return states ++ [← senderKeyStateCodec.read f]
  | _ => return states

/-- `textsecure__sender_key_record_structure__unpack`. -/
def unpackSenderKeyRecord (data : Bytes) : Except Fault (List (SenderKeyStateStructure Bytes)) :=
  unpackMessage protobufC parseSenderKeyRecord [] data

/-- **A sender key record is read back from its bytes.** -/
theorem unpackSenderKeyRecord_pack {states : List (SenderKeyStateStructure Bytes)}
    (hlen : (packSenderKeyRecord states).length ≤ safeLen) :
    unpackSenderKeyRecord (packSenderKeyRecord states) = .ok states := by
  have hstates : ∀ s ∈ states, senderKeyStateCodec.Keeps s := fun s hs =>
    messageCodec_keeps_of_mem hlen SenderKeyStateStructure.unpack_pack
      (mem_repeated senderKeyStateCodec 1 hs)
  refine unpackMessage_pack (allows_of_length hlen) (Reads.repeated_of hstates id ?_ [])
  intro xs f h
  simp [parseSenderKeyRecord, h]

/-! ## 3. Records in bytes -/

section Bytes

variable {Priv Pub : Type} {P : Provider Priv Pub Bytes}

/-- `session_record_serialize`. -/
def sessionRecordSerialize (P : Provider Priv Pub Bytes) (record : SessionRecord Priv Pub Bytes) :
    Bytes :=
  (record.serialize P).pack

/-- `session_record_deserialize`. -/
def sessionRecordDeserialize (P : Provider Priv Pub Bytes) (data : Bytes) :
    Except SgError (SessionRecord Priv Pub Bytes) :=
  match RecordStructure.unpack data with
  | .error fault => .error (faultCode fault)
  | .ok s => s.deserialize P

/-- `sender_key_record_serialize`. -/
def senderKeyRecordSerializeBytes (P : Provider Priv Pub Bytes)
    (record : SenderKeyRecord Priv Pub Bytes) : Bytes :=
  packSenderKeyRecord (record.serialize P)

/-- `sender_key_record_deserialize`. -/
def senderKeyRecordDeserializeBytes (P : Provider Priv Pub Bytes) (data : Bytes) :
    Except SgError (SenderKeyRecord Priv Pub Bytes) :=
  match unpackSenderKeyRecord data with
  | .error fault => .error (faultCode fault)
  | .ok stored => senderKeyRecordDeserialize P stored

/-- **No root key and no chain key of the state is empty.** -/
structure SessionState.Filled (state : SessionState Priv Pub Bytes) : Prop where
  rootKey : ∀ k ∈ state.rootKey, k.key ≠ []
  senderChain : ∀ c ∈ state.senderChain, ∀ k ∈ c.chainKey, k.key ≠ []
  receiverChains : ∀ c ∈ state.receiverChains, ∀ k ∈ c.chainKey, k.key ≠ []

theorem RatchetChainKey.packable_serialize {k : RatchetChainKey Bytes} (h : k.key ≠ []) :
    k.serialize.Packable := by
  rintro _ ⟨⟩ he
  exact h (Option.some.inj he)

/-- Then its struct is read back. -/
theorem SessionState.Filled.packable {state : SessionState Priv Pub Bytes} (h : state.Filled) :
    (state.serialize P).Packable where
  rootKey key hkey he := by
    obtain ⟨k, hk, rfl⟩ := Option.map_eq_some_iff.1 hkey
    exact h.rootKey k hk (Option.some.inj he)
  senderChain c hc k hk := by
    obtain ⟨chain, hchain, rfl⟩ := Option.map_eq_some_iff.1 hc
    obtain ⟨key, hkey, rfl⟩ := Option.map_eq_some_iff.1 hk
    exact RatchetChainKey.packable_serialize (h.senderChain chain hchain key hkey)
  receiverChains c hc k hk := by
    obtain ⟨chain, hchain, rfl⟩ := List.mem_map.1 hc
    obtain ⟨key, hkey, rfl⟩ := Option.map_eq_some_iff.1 hk
    exact RatchetChainKey.packable_serialize (h.receiverChains chain hchain key hkey)

/-- **A record of at most 256 MiB is read back from its bytes**, no longer fresh. -/
theorem sessionRecordDeserialize_serialize {record : SessionRecord Priv Pub Bytes}
    (hr : record.Readable P) (hf : ∀ state ∈ record.states, state.Filled)
    (hlen : (sessionRecordSerialize P record).length ≤ safeLen) :
    sessionRecordDeserialize P (sessionRecordSerialize P record) =
      .ok { record with isFresh := false } := by
  have hpack : (record.serialize P).Packable := by
    refine ⟨fun s hs => ?_, fun s hs => ?_⟩
    · cases hs
      exact (hf record.state List.mem_cons_self).packable
    · obtain ⟨state, hstate, rfl⟩ := List.mem_map.1 hs
      exact (hf state (List.mem_cons_of_mem _ hstate)).packable
  rw [sessionRecordDeserialize, sessionRecordSerialize, RecordStructure.unpack_pack hpack hlen]
  exact hr.deserialize

/-! ## 4. Bytes from anywhere -/

theorem ChainKeyStructure.packable_of_unpack {data : Bytes} {m : ChainKeyStructure Bytes}
    (h : unpack data = .ok m) : m.Packable := by
  refine unpackMessage_induction h (P := Packable) (fun _ => nofun) fun m f m' hm hparse => ?_
  unfold parseMember at hparse
  split at hparse
  · obtain ⟨_, -, hparse⟩ := Op.exists_of_bind_eq_ok hparse
    cases hparse
    exact hm
  · obtain ⟨key, hkey, hparse⟩ := Op.exists_of_bind_eq_ok hparse
    cases hparse
    rintro _ ⟨⟩
    exact pointerCodec_read_ne hkey
  · cases hparse
    exact hm

theorem ChainKeyStructure.Packable.merge {e l : ChainKeyStructure Bytes} (he : e.Packable)
    (hl : l.Packable) : (e.merge l).Packable :=
  mergePointer_ne he hl

theorem ChainStructure.packable_of_unpack {data : Bytes} {m : ChainStructure Bytes}
    (h : unpack data = .ok m) : m.Packable := by
  refine unpackMessage_induction h (P := Packable) (fun _ => nofun) fun m f m' hm hparse => ?_
  unfold parseMember at hparse
  split at hparse
  case h_3 =>
    obtain ⟨k, hk, hparse⟩ := Op.exists_of_bind_eq_ok hparse
    cases hparse
    obtain ⟨b, hb⟩ := messageCodec_read_ok hk
    refine mem_mergeMessage (fun _ _ => ChainKeyStructure.Packable.merge) hm ?_
    rintro _ ⟨⟩
    exact ChainKeyStructure.packable_of_unpack hb
  case h_5 =>
    cases hparse
    exact hm
  all_goals
    obtain ⟨_, -, hparse⟩ := Op.exists_of_bind_eq_ok hparse
    cases hparse
    exact hm

theorem ChainStructure.Packable.merge {e l : ChainStructure Bytes} (he : e.Packable)
    (hl : l.Packable) : (e.merge l).Packable :=
  mem_mergeMessage (fun _ _ => ChainKeyStructure.Packable.merge) he hl

theorem packable_of_chainCodec {f : Member} {c : ChainStructure Bytes}
    (h : chainCodec.read f = .ok c) : c.Packable := by
  obtain ⟨b, hb⟩ := messageCodec_read_ok h
  exact ChainStructure.packable_of_unpack hb

theorem SessionStructure.packable_of_unpack {data : Bytes} {m : SessionStructure Bytes}
    (h : unpack data = .ok m) : m.Packable := by
  refine unpackMessage_induction h (P := Packable)
    ⟨fun _ => nofun, fun _ => nofun, fun _ => nofun⟩ fun m f m' hm hparse => ?_
  unfold parseMember at hparse
  -- only three of the fields hold keys that must not be empty
  split at hparse
  case h_4 =>
    obtain ⟨key, hkey, hparse⟩ := Op.exists_of_bind_eq_ok hparse
    cases hparse
    refine ⟨?_, hm.senderChain, hm.receiverChains⟩
    rintro _ ⟨⟩
    exact pointerCodec_read_ne hkey
  case h_6 =>
    obtain ⟨c, hc, hparse⟩ := Op.exists_of_bind_eq_ok hparse
    cases hparse
    refine ⟨hm.rootKey, mem_mergeMessage (fun _ _ => ChainStructure.Packable.merge)
      hm.senderChain ?_, hm.receiverChains⟩
    rintro _ ⟨⟩
    exact packable_of_chainCodec hc
  case h_7 =>
    obtain ⟨c, hc, hparse⟩ := Op.exists_of_bind_eq_ok hparse
    cases hparse
    refine ⟨hm.rootKey, hm.senderChain, fun d hd => ?_⟩
    rcases List.mem_append.1 hd with hd | hd
    · exact hm.receiverChains d hd
    · rw [List.mem_singleton.1 hd]
      exact packable_of_chainCodec hc
  case h_14 =>
    cases hparse
    exact hm
  all_goals
    obtain ⟨_, -, hparse⟩ := Op.exists_of_bind_eq_ok hparse
    cases hparse
    exact ⟨hm.rootKey, hm.senderChain, hm.receiverChains⟩

theorem SessionStructure.Packable.merge {e l : SessionStructure Bytes} (he : e.Packable)
    (hl : l.Packable) : (e.merge l).Packable where
  rootKey := mergePointer_ne he.rootKey hl.rootKey
  senderChain :=
    mem_mergeMessage (fun _ _ => ChainStructure.Packable.merge) he.senderChain hl.senderChain
  receiverChains c hc :=
    (List.mem_append.1 hc).elim (he.receiverChains c) (hl.receiverChains c)

/-- **A record that was unpacked has no empty key**: an empty run of bytes has become a null
pointer. -/
theorem RecordStructure.packable_of_unpack {data : Bytes} {m : RecordStructure Bytes}
    (h : unpack data = .ok m) : m.Packable := by
  refine unpackMessage_induction h (P := Packable) ⟨fun _ => nofun, fun _ => nofun⟩
    fun m f m' hm hparse => ?_
  unfold parseMember at hparse
  split at hparse
  · obtain ⟨s, hs, hparse⟩ := Op.exists_of_bind_eq_ok hparse
    cases hparse
    obtain ⟨b, hb⟩ := messageCodec_read_ok hs
    refine ⟨mem_mergeMessage (fun _ _ => SessionStructure.Packable.merge) hm.currentSession ?_,
      hm.previousSessions⟩
    rintro _ ⟨⟩
    exact SessionStructure.packable_of_unpack hb
  · obtain ⟨s, hs, hparse⟩ := Op.exists_of_bind_eq_ok hparse
    cases hparse
    obtain ⟨b, hb⟩ := messageCodec_read_ok hs
    refine ⟨hm.currentSession, fun d hd => ?_⟩
    rcases List.mem_append.1 hd with hd | hd
    · exact hm.previousSessions d hd
    · rw [List.mem_singleton.1 hd]
      exact SessionStructure.packable_of_unpack hb
  · cases hparse
    exact hm

theorem decodeRootKey_ne {version : UInt32} {key : Option Bytes} {rootKey : RatchetRootKey Bytes}
    (h : decodeRootKey version key = .ok rootKey) (hkey : key ≠ some []) : rootKey.key ≠ [] := by
  obtain ⟨kdf, -, h⟩ := Op.exists_of_bind_eq_ok h
  obtain ⟨k, hk, h⟩ := Op.exists_of_bind_eq_ok h
  cases h
  rintro rfl
  cases key with
  | none => cases hk
  | some b =>
    cases hk
    exact hkey rfl

theorem decodeChainKey_ne {version : UInt32} {o : Option (ChainKeyStructure Bytes)}
    {chainKey : Option (RatchetChainKey Bytes)} (h : decodeChainKey version o = .ok chainKey)
    (ho : ∀ m ∈ o, m.Packable) : ∀ k ∈ chainKey, k.key ≠ [] := by
  unfold decodeChainKey at h
  split at h
  · rename_i index key
    -- the test for a null key is the same as for a root key
    obtain ⟨kdf, hkdf, h⟩ := Op.exists_of_bind_eq_ok h
    obtain ⟨b, hb, h⟩ := Op.exists_of_bind_eq_ok h
    cases h
    rintro k ⟨⟩
    have hroot : decodeRootKey version key = .ok ⟨kdf, b⟩ := by
      rw [decodeRootKey, ok_of_mapError hkdf, hb]
      rfl
    exact decodeRootKey_ne hroot (ho _ rfl key rfl)
  · cases h
    exact fun k hk => absurd hk (Option.not_mem_none k)

/-- What is read from a struct without empty keys has no empty key. -/
theorem SessionStructure.Packable.filled {s : SessionStructure Bytes} (hs : s.Packable)
    {state : SessionState Priv Pub Bytes} (h : s.deserialize P = .ok state) : state.Filled := by
  have hparts := decodesTo_of_deserialize h
  refine ⟨fun k hk => ?_, fun c hc k hk => ?_, fun c hc => ?_⟩
  · obtain ⟨key, hmem, hkey⟩ := exists_of_decodeOptional hparts.rootKey hk
    exact decodeRootKey_ne hkey (hs.rootKey key hmem)
  · obtain ⟨a, ha, hchain⟩ := exists_of_decodeOptional hparts.senderChain hc
    rcases ChainStructure.deserializeSenderUnchecked_cases hchain with hchain | rfl
    · obtain ⟨pair, -, hchain⟩ := Op.exists_of_bind_eq_ok hchain
      obtain ⟨chainKey, hkey, hchain⟩ := Op.exists_of_bind_eq_ok hchain
      cases hchain
      exact decodeChainKey_ne hkey (hs.senderChain a ha) k hk
    · exact absurd hk (Option.not_mem_none k)
  · obtain ⟨a, ha, hchain⟩ := Op.exists_of_mem_mapM hparts.receiverChains hc
    obtain ⟨key, -, hchain⟩ := Op.exists_of_bind_eq_ok hchain
    obtain ⟨chainKey, hkey, hchain⟩ := Op.exists_of_bind_eq_ok hchain
    cases hchain
    exact decodeChainKey_ne hkey (hs.receiverChains a ha)

theorem SessionState.filled_create :
    (SessionState.create : SessionState Priv Pub Bytes).Filled := by
  constructor <;> simp [SessionState.create]

theorem RecordStructure.Packable.filled {s : RecordStructure Bytes} (hs : s.Packable)
    {record : SessionRecord Priv Pub Bytes} (h : s.deserialize P = .ok record) :
    ∀ state ∈ record.states, state.Filled := by
  intro state hstate
  rcases RecordStructure.origin_of_deserialize h hstate with rfl | ⟨a, ha | ha, hread⟩
  · exact SessionState.filled_create
  · exact (hs.currentSession a ha).filled hread
  · exact (hs.previousSessions a ha).filled hread

/-- **Whatever bytes a record was read from, it is read back from its own**, if these have at
most 256 MiB: what foreign bytes hold twice, out of order, in unknown fields or with lengths that
are cut is settled by the first reading. -/
theorem sessionRecord_foreign_bytes (data : Bytes) (record : SessionRecord Priv Pub Bytes)
    (h : sessionRecordDeserialize P data = .ok record)
    (hlen : (sessionRecordSerialize P record).length ≤ safeLen) :
    sessionRecordDeserialize P (sessionRecordSerialize P record) = .ok record := by
  unfold sessionRecordDeserialize at h
  split at h
  · cases h
  · rename_i s hs
    have hfresh : record.isFresh = false := by
      obtain ⟨current, -, h⟩ := Op.exists_of_bind_eq_ok h
      obtain ⟨previous, -, h⟩ := Op.exists_of_bind_eq_ok h
      cases h
      rfl
    have hback := sessionRecordDeserialize_serialize
      (RecordStructure.readable_of_deserialize h)
      ((RecordStructure.packable_of_unpack hs).filled h) hlen
    rwa [← hfresh] at hback

/-- A session whose bytes come in two halves. -/
def mergedRecord : SessionRecord PlainKey PlainKey Bytes where
  state := { SessionState.create with sessionVersion := 3, previousCounter := 7 }
  previousStates := []
  isFresh := false

/-- The bytes of the two halves.  The length of the second is written in five bytes, of which 32
bits count. -/
def mergedBytes : Bytes := [10, 2, 8, 3, 10, 130, 128, 128, 128, 16, 40, 7]

/-- The halves are merged, and the record is read back from its own bytes. -/
theorem sessionRecord_foreign_bytes_merged :
    sessionRecordDeserialize plainProvider.toProvider mergedBytes = .ok mergedRecord ∧
      sessionRecordDeserialize plainProvider.toProvider
        (sessionRecordSerialize plainProvider.toProvider mergedRecord) = .ok mergedRecord :=
  ⟨rfl, sessionRecord_foreign_bytes mergedBytes mergedRecord rfl (by decide)⟩

/-- The same for sender keys. -/
theorem senderKeyRecord_foreign_bytes (data : Bytes) (record : SenderKeyRecord Priv Pub Bytes)
    (h : senderKeyRecordDeserializeBytes P data = .ok record)
    (hlen : (senderKeyRecordSerializeBytes P record).length ≤ safeLen) :
    senderKeyRecordDeserializeBytes P (senderKeyRecordSerializeBytes P record) = .ok record := by
  have hstorable : record.Storable P := by
    unfold senderKeyRecordDeserializeBytes at h
    split at h
    · cases h
    · obtain ⟨states, hstates, h⟩ := Op.exists_of_bind_eq_ok h
      cases h
      intro state hstate
      obtain ⟨a, -, ha⟩ := Op.exists_of_mem_mapM hstates hstate
      exact SenderKeyState.storable_of_deserialize ha
  rw [senderKeyRecordDeserializeBytes, senderKeyRecordSerializeBytes,
    unpackSenderKeyRecord_pack hlen]
  exact SenderKeyRecord.deserialize_serialize P hstorable

end Bytes


/-! ## 5. Staying in the buffer -/

instance : InBounds KeyExchangeMessageStructure.unpack :=
  inBounds_unpackMessage (fun _ f hf => by
    unfold KeyExchangeMessageStructure.parseMember
    split
    all_goals first | exact Codec.read_ne_overrun _ hf _ | nofun) _

instance : InBounds SignalMessageStructure.unpack :=
  inBounds_unpackMessage (fun _ f hf => by
    unfold SignalMessageStructure.parseMember
    split
    all_goals first | exact Codec.read_ne_overrun _ hf _ | nofun) _

instance : InBounds PackedPreKeySignalMessage.unpack :=
  inBounds_unpackMessage (fun _ f hf => by
    unfold PackedPreKeySignalMessage.parseMember
    split
    all_goals first | exact Codec.read_ne_overrun _ hf _ | nofun) _

instance : InBounds SenderKeyMessageStructure.unpack :=
  inBounds_unpackMessage (fun _ f hf => by
    unfold SenderKeyMessageStructure.parseMember
    split
    all_goals first | exact Codec.read_ne_overrun _ hf _ | nofun) _

instance : InBounds SenderKeyDistributionMessageStructure.unpack :=
  inBounds_unpackMessage (fun _ f hf => by
    unfold SenderKeyDistributionMessageStructure.parseMember
    split
    all_goals first | exact Codec.read_ne_overrun _ hf _ | nofun) _

instance : InBounds ChainKeyStructure.unpack :=
  inBounds_unpackMessage (fun _ f hf => by
    unfold ChainKeyStructure.parseMember
    split
    all_goals first | exact Codec.read_ne_overrun _ hf _ | nofun) _

instance : chainKeyCodec.InBounds :=
  inferInstanceAs (messageCodec _ ChainKeyStructure.unpack).InBounds

instance : InBounds MessageKeyStructure.unpack :=
  inBounds_unpackMessage (fun _ f hf => by
    unfold MessageKeyStructure.parseMember
    split
    all_goals first | exact Codec.read_ne_overrun _ hf _ | nofun) _

instance : messageKeyCodec.InBounds :=
  inferInstanceAs (messageCodec _ MessageKeyStructure.unpack).InBounds

instance : InBounds ChainStructure.unpack :=
  inBounds_unpackMessage (fun _ f hf => by
    unfold ChainStructure.parseMember
    split
    all_goals first | exact Codec.read_ne_overrun _ hf _ | nofun) _

instance : chainCodec.InBounds :=
  inferInstanceAs (messageCodec _ ChainStructure.unpack).InBounds

instance : InBounds PendingKeyExchangeStructure.unpack :=
  inBounds_unpackMessage (fun _ f hf => by
    unfold PendingKeyExchangeStructure.parseMember
    split
    all_goals first | exact Codec.read_ne_overrun _ hf _ | nofun) _

instance : pendingKeyExchangeCodec.InBounds :=
  inferInstanceAs (messageCodec _ PendingKeyExchangeStructure.unpack).InBounds

instance : InBounds PendingPreKeyStructure.unpack :=
  inBounds_unpackMessage (fun _ f hf => by
    unfold PendingPreKeyStructure.parseMember
    split
    all_goals first | exact Codec.read_ne_overrun _ hf _ | nofun) _

instance : pendingPreKeyCodec.InBounds :=
  inferInstanceAs (messageCodec _ PendingPreKeyStructure.unpack).InBounds

instance : InBounds SessionStructure.unpack :=
  inBounds_unpackMessage (fun _ f hf => by
    unfold SessionStructure.parseMember
    split
    all_goals first | exact Codec.read_ne_overrun _ hf _ | nofun) _

instance : sessionCodec.InBounds :=
  inferInstanceAs (messageCodec _ SessionStructure.unpack).InBounds

instance : InBounds RecordStructure.unpack :=
  inBounds_unpackMessage (fun _ f hf => by
    unfold RecordStructure.parseMember
    split
    all_goals first | exact Codec.read_ne_overrun _ hf _ | nofun) _

instance : InBounds unpackIteration :=
  inBounds_unpackMessage (fun _ f hf => by
    unfold parseIteration
    split
    all_goals first | exact Codec.read_ne_overrun _ hf _ | nofun) _

instance : iterationCodec.InBounds :=
  inferInstanceAs (messageCodec _ unpackIteration).InBounds

instance : InBounds unpackSigningKey :=
  inBounds_unpackMessage (fun _ f hf => by
    unfold parseSigningKey
    split
    all_goals first | exact Codec.read_ne_overrun _ hf _ | nofun) _

instance : signingKeyCodec.InBounds :=
  inferInstanceAs (messageCodec _ unpackSigningKey).InBounds

instance : InBounds SenderKeyStateStructure.unpack :=
  inBounds_unpackMessage (fun _ f hf => by
    unfold SenderKeyStateStructure.parseMember
    split
    all_goals first | exact Codec.read_ne_overrun _ hf _ | nofun) _

instance : senderKeyStateCodec.InBounds :=
  inferInstanceAs (messageCodec _ SenderKeyStateStructure.unpack).InBounds

instance : InBounds unpackSenderKeyRecord :=
  inBounds_unpackMessage (fun _ f hf => by
    unfold parseSenderKeyRecord
    split
    all_goals first | exact Codec.read_ne_overrun _ hf _ | nofun) _

/-- A length that wraps: the member would have one byte, and the rest of the length is refused as
a tag. -/
example : RecordStructure.unpack [10, 252, 255, 255, 255, 15, 8, 3] = .error .refused := rfl

end SignalProtocol
