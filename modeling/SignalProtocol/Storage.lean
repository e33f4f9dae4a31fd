/-
# Session states in storage (`session_state_serialize`, `session_state_deserialize`)

A session state goes to the store as a protobuf message and comes back from one, and
`session_state_copy` is that same trip without the store in between.  The trip is part of the
behaviour, not plumbing: loading re-creates the key derivation of every key from the session
version, drops whatever the format does not carry, and reports some decoding errors while it
swallows others (the result of decoding the sender chain is never looked at).

The structures below are the generated C structs, a `has_` flag with its value being an
`Option`.  A field that is present and empty has a null pointer in the unpacked structure; only
the functions that create root and chain keys look at the pointer, so only their fields have
it, as a second `Option`.  Packing such a structure to bytes and unpacking it again is
protobuf-c's work and is taken to give the structure back, so the store holds structures.

The result used everywhere else is `SessionState.deserialize_serialize`: on a state whose keys
all use the key derivation of its version, the trip is the identity.
-/
import SignalProtocol.State

namespace SignalProtocol

variable {Priv Pub B : Type}

/-! ## 1. The stored structures -/

/-- `Textsecure__SessionStructure__Chain__ChainKey`. -/
structure ChainKeyStructure (B : Type) where
  index : Option UInt32
  key : Option (Option B)
  deriving DecidableEq, Repr

/-- `Textsecure__SessionStructure__Chain__MessageKey`. -/
structure MessageKeyStructure (B : Type) where
  index : Option UInt32
  cipherKey : Option B
  macKey : Option B
  iv : Option B
  deriving DecidableEq, Repr

/-- `Textsecure__SessionStructure__Chain`. -/
structure ChainStructure (B : Type) where
  senderRatchetKey : Option B
  senderRatchetKeyPrivate : Option B
  chainKey : Option (ChainKeyStructure B)
  messageKeys : List (MessageKeyStructure B)
  deriving DecidableEq, Repr

/-- `Textsecure__SessionStructure__PendingKeyExchange`. -/
structure PendingKeyExchangeStructure (B : Type) where
  sequence : Option UInt32
  localBaseKey : Option B
  localBaseKeyPrivate : Option B
  localRatchetKey : Option B
  localRatchetKeyPrivate : Option B
  localIdentityKey : Option B
  localIdentityKeyPrivate : Option B
  deriving DecidableEq, Repr

/-- `Textsecure__SessionStructure__PendingPreKey`; the signed pre key id is an `int32`. -/
structure PendingPreKeyStructure (B : Type) where
  preKeyId : Option UInt32
  signedPreKeyId : Option Int32
  baseKey : Option B
  deriving DecidableEq

/-- `Textsecure__SessionStructure`. -/
structure SessionStructure (B : Type) where
  sessionVersion : Option UInt32
  localIdentityPublic : Option B
  remoteIdentityPublic : Option B
  rootKey : Option (Option B)
  previousCounter : Option UInt32
  senderChain : Option (ChainStructure B)
  receiverChains : List (ChainStructure B)
  pendingKeyExchange : Option (PendingKeyExchangeStructure B)
  pendingPreKey : Option (PendingPreKeyStructure B)
  remoteRegistrationId : Option UInt32
  localRegistrationId : Option UInt32
  needsRefresh : Option Bool
  aliceBaseKey : Option B
  deriving DecidableEq

variable (P : Provider Priv Pub B)

/-! ## 2. Serializing -/

/-- `session_state_serialize_prepare_chain_chain_key`. -/
def RatchetChainKey.serialize (chainKey : RatchetChainKey B) : ChainKeyStructure B :=
  ⟨some chainKey.index, some (some chainKey.key)⟩

/-- `session_state_serialize_prepare_message_keys`. -/
def RatchetMessageKeys.serialize (keys : RatchetMessageKeys B) : MessageKeyStructure B :=
  ⟨some keys.counter, some keys.cipherKey, some keys.macKey, some keys.iv⟩

/-- `session_state_serialize_prepare_sender_chain`. -/
def SenderChain.serialize (chain : SenderChain Priv Pub B) : ChainStructure B where
  senderRatchetKey := chain.senderRatchetKeyPair.map fun k => P.encodePoint k.publicKey
  senderRatchetKeyPrivate := chain.senderRatchetKeyPair.map fun k => P.encodePrivate k.privateKey
  chainKey := chain.chainKey.map RatchetChainKey.serialize
  messageKeys := []

/-- `session_state_serialize_prepare_receiver_chain`. -/
def ReceiverChain.serialize (chain : ReceiverChain Pub B) : ChainStructure B where
  senderRatchetKey := chain.senderRatchetKey.map P.encodePoint
  senderRatchetKeyPrivate := none
  chainKey := chain.chainKey.map RatchetChainKey.serialize
  messageKeys := chain.messageKeys.map RatchetMessageKeys.serialize

/-- `session_state_serialize_prepare_pending_key_exchange`. -/
def PendingKeyExchange.serialize (exchange : PendingKeyExchange Priv Pub) :
    PendingKeyExchangeStructure B where
  sequence := some exchange.sequence
  localBaseKey := exchange.localBaseKey.map fun k => P.encodePoint k.publicKey
  localBaseKeyPrivate := exchange.localBaseKey.map fun k => P.encodePrivate k.privateKey
  localRatchetKey := exchange.localRatchetKey.map fun k => P.encodePoint k.publicKey
  localRatchetKeyPrivate := exchange.localRatchetKey.map fun k => P.encodePrivate k.privateKey
  localIdentityKey := exchange.localIdentityKey.map fun k => P.encodePoint k.publicKey
  localIdentityKeyPrivate := exchange.localIdentityKey.map fun k => P.encodePrivate k.privateKey

/-- `session_state_serialize_prepare_pending_pre_key`. -/
def PendingPreKey.serialize (preKey : PendingPreKey Pub) : PendingPreKeyStructure B where
  preKeyId := preKey.preKeyId
  signedPreKeyId := some preKey.signedPreKeyId.toInt32
  baseKey := preKey.baseKey.map P.encodePoint

/-- `session_state_serialize_prepare`. -/
def SessionState.serialize (state : SessionState Priv Pub B) : SessionStructure B where
  sessionVersion := some state.sessionVersion
  localIdentityPublic := state.localIdentityPublic.map P.encodePoint
  remoteIdentityPublic := state.remoteIdentityPublic.map P.encodePoint
  rootKey := state.rootKey.map fun k => some k.key
  previousCounter := some state.previousCounter
  senderChain := state.senderChain.map (SenderChain.serialize P)
  receiverChains := state.receiverChains.map (ReceiverChain.serialize P)
  pendingKeyExchange := state.pendingKeyExchange.map (PendingKeyExchange.serialize P)
  pendingPreKey := state.pendingPreKey.map (PendingPreKey.serialize P)
  remoteRegistrationId := some state.remoteRegistrationId
  localRegistrationId := some state.localRegistrationId
  needsRefresh := some state.needsRefresh
  aliceBaseKey := state.aliceBaseKey.map P.encodePoint

/-! ## 3. Deserializing -/

/-- Decode a field that may be absent. -/
def decodeOptional {α β : Type} (decode : α → Except SgError β) :
    Option α → Except SgError (Option β)
  | none => .ok none
  | some a => do return some (← decode a)

/-- Decode a key pair stored as two fields; a pair with one half missing is absent. -/
def decodeKeyPair : Option B → Option B → Except SgError (Option (EcKeyPair Priv Pub))
  | some publicKey, some privateKey => do
    let publicKey ← P.decodePoint publicKey
    let privateKey ← P.decodePrivate privateKey
    return some ⟨publicKey, privateKey⟩
  | _, _ => .ok none

/-- The check for a null key in `ratchet_root_key_create` and `ratchet_chain_key_create`. -/
def requirePointer : Option B → Except SgError B
  | some key => .ok key
  | none => .error .inval

/-- The chain key of a stored chain, with the key derivation of the session version; a chain
key with one half missing is absent.  For an unknown version `hkdf_create` frees the context but
leaves the pointer to it, and both decoders of chains then release the freed context. -/
def decodeChainKey (sessionVersion : UInt32) :
    Option (ChainKeyStructure B) → Except SgError (Option (RatchetChainKey B))
  | some ⟨some index, some key⟩ => do
    let kdf ← (hkdfCreate sessionVersion).mapError fun _ => .invalidAccess
    let key ← requirePointer key
    return some ⟨kdf, key, index⟩
  | _ => .ok none

/-- The root key of a stored state, with the key derivation of the session version. -/
def decodeRootKey (sessionVersion : UInt32) (key : Option B) :
    Except SgError (RatchetRootKey B) := do
  let kdf ← hkdfCreate sessionVersion
  let key ← requirePointer key
  return ⟨kdf, key⟩

/-- A key array of a message key node: the zeroes of `memset` unless the stored bytes have
exactly the array's length. -/
def decodeKeyArray (size : Nat) : Option B → B
  | some key => if P.len key = size then key else P.fill 0 size
  | none => P.fill 0 size

/-- One skipped message key of `session_state_deserialize_protobuf_receiver_chain`. -/
def MessageKeyStructure.deserialize (s : MessageKeyStructure B) : RatchetMessageKeys B where
  cipherKey := decodeKeyArray P 32 s.cipherKey
  macKey := decodeKeyArray P 32 s.macKey
  iv := decodeKeyArray P 16 s.iv
  counter := s.index.getD 0

/-- `session_state_deserialize_protobuf_sender_chain`. -/
def ChainStructure.deserializeSender (sessionVersion : UInt32) (s : ChainStructure B) :
    Except SgError (SenderChain Priv Pub B) := do
  let pair ← decodeKeyPair P s.senderRatchetKey s.senderRatchetKeyPrivate
  let chainKey ← decodeChainKey sessionVersion s.chainKey
  return ⟨pair, chainKey⟩

/-- `session_state_deserialize_protobuf_receiver_chain`. -/
def ChainStructure.deserializeReceiver (sessionVersion : UInt32) (s : ChainStructure B) :
    Except SgError (ReceiverChain Pub B) := do
  let key ← decodeOptional P.decodePoint s.senderRatchetKey
  let chainKey ← decodeChainKey sessionVersion s.chainKey
  return ⟨key, chainKey, s.messageKeys.map (MessageKeyStructure.deserialize P)⟩

/-- `session_state_deserialize_protobuf_pending_key_exchange`.  The sequence is read without
a look at its `has_` flag. -/
def PendingKeyExchangeStructure.deserialize (s : PendingKeyExchangeStructure B) :
    Except SgError (PendingKeyExchange Priv Pub) := do
  let base ← decodeKeyPair P s.localBaseKey s.localBaseKeyPrivate
  let ratchet ← decodeKeyPair P s.localRatchetKey s.localRatchetKeyPrivate
  let identity ← decodeKeyPair P s.localIdentityKey s.localIdentityKeyPrivate
  return ⟨s.sequence.getD 0, base, ratchet, identity⟩

/-- `session_state_deserialize_protobuf_pending_pre_key`. -/
def PendingPreKeyStructure.deserialize (s : PendingPreKeyStructure B) :
    Except SgError (PendingPreKey Pub) := do
  let baseKey ← decodeOptional P.decodePoint s.baseKey
  return ⟨s.preKeyId, (s.signedPreKeyId.map Int32.toUInt32).getD 0, baseKey⟩

/-- The sender chain of a stored state.  The result of decoding it is dropped: `result` still
holds the code of the step before, so a chain that does not decode leaves a sender chain that is
present and empty. -/
def ChainStructure.deserializeSenderUnchecked (sessionVersion : UInt32) (s : ChainStructure B) :
    Except SgError (SenderChain Priv Pub B) :=
  match s.deserializeSender P sessionVersion with
  | .error .invalidAccess => .error .invalidAccess
  | .error _ => .ok ⟨none, none⟩
  | .ok chain => .ok chain

/-- `session_state_deserialize_protobuf`. -/
def SessionStructure.deserialize (s : SessionStructure B) :
    Except SgError (SessionState Priv Pub B) := do
  let sessionVersion := s.sessionVersion.getD 2
  let localIdentityPublic ← decodeOptional P.decodePoint s.localIdentityPublic
  let remoteIdentityPublic ← decodeOptional P.decodePoint s.remoteIdentityPublic
  let rootKey ← decodeOptional (decodeRootKey sessionVersion) s.rootKey
  let senderChain ←
    decodeOptional (ChainStructure.deserializeSenderUnchecked P sessionVersion) s.senderChain
  let receiverChains ← s.receiverChains.mapM (ChainStructure.deserializeReceiver P sessionVersion)
  let pendingKeyExchange ←
    decodeOptional (PendingKeyExchangeStructure.deserialize P) s.pendingKeyExchange
  let pendingPreKey ← decodeOptional (PendingPreKeyStructure.deserialize P) s.pendingPreKey
  let aliceBaseKey ← decodeOptional P.decodePoint s.aliceBaseKey
  return {
    sessionVersion := sessionVersion
    localIdentityPublic := localIdentityPublic
    remoteIdentityPublic := remoteIdentityPublic
    rootKey := rootKey
    previousCounter := s.previousCounter.getD 0
    senderChain := senderChain
    receiverChains := receiverChains
    pendingKeyExchange := pendingKeyExchange
    pendingPreKey := pendingPreKey
    remoteRegistrationId := s.remoteRegistrationId.getD 0
    localRegistrationId := s.localRegistrationId.getD 0
    needsRefresh := s.needsRefresh.getD false
    aliceBaseKey := aliceBaseKey }

/-- `session_state_copy`: serialize, then deserialize. -/
def SessionState.copy (state : SessionState Priv Pub B) :
    Except SgError (SessionState Priv Pub B) :=
  (state.serialize P).deserialize P

/-! ## 4. The round trip -/

/-- What a state needs so that storage gives it back: its keys use the key derivation of its
version, and its skipped message keys fill their arrays. -/
structure SessionState.Storable (state : SessionState Priv Pub B) : Prop where
  rootKey : ∀ k ∈ state.rootKey, hkdfCreate state.sessionVersion = .ok k.kdf
  senderChain : ∀ c ∈ state.senderChain, ∀ k ∈ c.chainKey,
    hkdfCreate state.sessionVersion = .ok k.kdf
  receiverChains : ∀ c ∈ state.receiverChains, ∀ k ∈ c.chainKey,
    hkdfCreate state.sessionVersion = .ok k.kdf
  messageKeys : ∀ c ∈ state.receiverChains, ∀ k ∈ c.messageKeys,
    P.len k.cipherKey = 32 ∧ P.len k.macKey = 32 ∧ P.len k.iv = 16

section RoundTrip

variable {P}

theorem decodeOptional_map {α β : Type} {decode : α → Except SgError β} {encode : β → α} :
    ∀ {o : Option β}, (∀ b ∈ o, decode (encode b) = .ok b) →
      decodeOptional decode (o.map encode) = .ok o
  | none, _ => rfl
  | some b, h => by
    simp only [Option.map_some, decodeOptional, h b rfl]
    rfl

theorem decodePoint_optional (o : Option Pub) :
    decodeOptional P.decodePoint (o.map P.encodePoint) = .ok o :=
  decodeOptional_map fun b _ => P.decodePoint_encodePoint b

theorem decodeKeyPair_map (o : Option (EcKeyPair Priv Pub)) :
    decodeKeyPair P (o.map fun k => P.encodePoint k.publicKey)
      (o.map fun k => P.encodePrivate k.privateKey) = .ok o := by
  cases o with
  | none => rfl
  | some k =>
    simp only [Option.map_some, decodeKeyPair, P.decodePoint_encodePoint,
      P.decodePrivate_encodePrivate]
    rfl

theorem decodeChainKey_map {version : UInt32} {o : Option (RatchetChainKey B)}
    (h : ∀ k ∈ o, hkdfCreate version = .ok k.kdf) :
    decodeChainKey version (o.map RatchetChainKey.serialize) = .ok o := by
  cases o with
  | none => rfl
  | some k =>
    simp only [Option.map_some, RatchetChainKey.serialize, decodeChainKey, h k rfl]
    rfl

/-- A failure with another code is a failure. -/
theorem ok_of_mapError {α : Type} {f : SgError → SgError} {x : Except SgError α} {a : α}
    (h : x.mapError f = .ok a) : x = .ok a := by
  cases x with
  | error e => cases h
  | ok b => exact h

theorem RatchetMessageKeys.deserialize_serialize {k : RatchetMessageKeys B}
    (h : P.len k.cipherKey = 32 ∧ P.len k.macKey = 32 ∧ P.len k.iv = 16) :
    k.serialize.deserialize P = k := by
  simp only [RatchetMessageKeys.serialize, MessageKeyStructure.deserialize, decodeKeyArray,
    h.1, h.2.1, h.2.2, if_true, Option.getD_some]

theorem mapM_map_ok {α β : Type} {f : α → Except SgError β} {g : β → α} :
    ∀ {l : List β}, (∀ b ∈ l, f (g b) = .ok b) → (l.map g).mapM f = .ok l
  | [], _ => rfl
  | b :: l, h => by
    rw [List.map_cons, List.mapM_cons, h b (by simp),
      mapM_map_ok fun c hc => h c (List.mem_cons_of_mem _ hc)]
    rfl

theorem SenderChain.deserialize_serialize {version : UInt32} {c : SenderChain Priv Pub B}
    (h : ∀ k ∈ c.chainKey, hkdfCreate version = .ok k.kdf) :
    (c.serialize P).deserializeSender P version = .ok c := by
  simp only [SenderChain.serialize, ChainStructure.deserializeSender, decodeKeyPair_map,
    decodeChainKey_map h]
  rfl

theorem ReceiverChain.deserialize_serialize {version : UInt32} {c : ReceiverChain Pub B}
    (h : ∀ k ∈ c.chainKey, hkdfCreate version = .ok k.kdf)
    (hm : ∀ k ∈ c.messageKeys, k.serialize.deserialize P = k) :
    (c.serialize P).deserializeReceiver P version = .ok c := by
  have hkeys : (c.messageKeys.map RatchetMessageKeys.serialize).map
      (MessageKeyStructure.deserialize P) = c.messageKeys := by
    rw [List.map_map]
    exact (List.map_congr_left hm).trans (List.map_id _)
  simp only [ReceiverChain.serialize, ChainStructure.deserializeReceiver, decodePoint_optional,
    decodeChainKey_map h, hkeys]
  rfl

theorem PendingKeyExchange.deserialize_serialize (e : PendingKeyExchange Priv Pub) :
    (e.serialize P).deserialize P = .ok e := by
  simp only [PendingKeyExchange.serialize, PendingKeyExchangeStructure.deserialize,
    decodeKeyPair_map]
  rfl

theorem PendingPreKey.deserialize_serialize (k : PendingPreKey Pub) :
    (k.serialize P).deserialize P = .ok k := by
  simp only [PendingPreKey.serialize, PendingPreKeyStructure.deserialize, decodePoint_optional,
    Option.map_some, UInt32.toUInt32_toInt32]
  rfl

variable (P) in
/-- **What is read back as it is**: the keys use the key derivation of the version, and the
skipped message keys survive storage. -/
structure SessionState.Readable (state : SessionState Priv Pub B) : Prop where
  rootKey : ∀ k ∈ state.rootKey, hkdfCreate state.sessionVersion = .ok k.kdf
  senderChain : ∀ c ∈ state.senderChain, ∀ k ∈ c.chainKey,
    hkdfCreate state.sessionVersion = .ok k.kdf
  receiverChains : ∀ c ∈ state.receiverChains, ∀ k ∈ c.chainKey,
    hkdfCreate state.sessionVersion = .ok k.kdf
  messageKeys : ∀ c ∈ state.receiverChains, ∀ k ∈ c.messageKeys, k.serialize.deserialize P = k

theorem SessionState.Storable.readable {state : SessionState Priv Pub B} (h : state.Storable P) :
    state.Readable P where
  rootKey := h.rootKey
  senderChain := h.senderChain
  receiverChains := h.receiverChains
  messageKeys c hc k hk := RatchetMessageKeys.deserialize_serialize (h.messageKeys c hc k hk)

/-- **Storage gives a state back**, field by field. -/
theorem SessionState.Readable.copy {state : SessionState Priv Pub B}
    (h : state.Readable P) : state.copy P = .ok state := by
  have hroot : decodeOptional (decodeRootKey state.sessionVersion)
      (state.rootKey.map fun k => some k.key) = .ok state.rootKey :=
    decodeOptional_map fun k hk => by rw [decodeRootKey, h.rootKey k hk]; rfl
  have hsender : decodeOptional
      (ChainStructure.deserializeSenderUnchecked P state.sessionVersion)
      (state.senderChain.map (SenderChain.serialize P)) = .ok state.senderChain :=
    decodeOptional_map fun c hc => by
      rw [ChainStructure.deserializeSenderUnchecked,
        SenderChain.deserialize_serialize (h.senderChain c hc)]
  have hreceivers : (state.receiverChains.map (ReceiverChain.serialize P)).mapM
      (ChainStructure.deserializeReceiver P state.sessionVersion) = .ok state.receiverChains :=
    mapM_map_ok fun c hc =>
      ReceiverChain.deserialize_serialize (h.receiverChains c hc) (h.messageKeys c hc)
  have hexchange : decodeOptional (PendingKeyExchangeStructure.deserialize P)
      (state.pendingKeyExchange.map (PendingKeyExchange.serialize P)) =
        .ok state.pendingKeyExchange :=
    decodeOptional_map fun e _ => PendingKeyExchange.deserialize_serialize e
  have hpre : decodeOptional (PendingPreKeyStructure.deserialize P)
      (state.pendingPreKey.map (PendingPreKey.serialize P)) = .ok state.pendingPreKey :=
    decodeOptional_map fun k _ => PendingPreKey.deserialize_serialize k
  simp only [SessionState.copy, SessionState.serialize, SessionStructure.deserialize,
    Option.getD_some, decodePoint_optional, hroot, hsender, hreceivers, hexchange, hpre]
  rfl

/-- **Storage gives a storable state back.** -/
theorem SessionState.deserialize_serialize {state : SessionState Priv Pub B}
    (h : state.Storable P) : (state.serialize P).deserialize P = .ok state :=
  h.readable.copy

theorem SessionState.copy_of_storable {state : SessionState Priv Pub B}
    (h : state.Storable P) : state.copy P = .ok state :=
  SessionState.deserialize_serialize h

/-- A state without any key is storable. -/
theorem SessionState.storable_create :
    (SessionState.create : SessionState Priv Pub B).Storable P where
  rootKey := by simp [SessionState.create]
  senderChain := by simp [SessionState.create]
  receiverChains := by simp [SessionState.create]
  messageKeys := by simp [SessionState.create]

/-! What was read from storage can be read again, whatever the stored bytes were. -/

theorem decodeKeyArray_decodeKeyArray (size : Nat) (key : Option B) :
    decodeKeyArray P size (some (decodeKeyArray P size key)) = decodeKeyArray P size key := by
  have hfill : decodeKeyArray P size (some (P.fill 0 size)) = P.fill 0 size := ite_id _
  cases key with
  | none => exact hfill
  | some key =>
    by_cases h : P.len key = size
    · simp only [decodeKeyArray, if_pos h]
    · have hkey : decodeKeyArray P size (some key) = P.fill 0 size := if_neg h
      rw [hkey, hfill]

theorem exists_of_decodeOptional {α β : Type} {decode : α → Except SgError β} {o : Option α}
    {o' : Option β} (h : decodeOptional decode o = .ok o') {b : β} (hb : b ∈ o') :
    ∃ a ∈ o, decode a = .ok b := by
  cases o with
  | none =>
    cases h
    exact absurd hb (Option.not_mem_none b)
  | some a =>
    obtain ⟨c, hc, h⟩ := Op.exists_of_bind_eq_ok h
    cases h
    cases hb
    exact ⟨a, rfl, hc⟩

theorem decodeRootKey_kdf {version : UInt32} {key : Option B} {rootKey : RatchetRootKey B}
    (h : decodeRootKey version key = .ok rootKey) : hkdfCreate version = .ok rootKey.kdf := by
  obtain ⟨kdf, hkdf, h⟩ := Op.exists_of_bind_eq_ok h
  obtain ⟨k, -, h⟩ := Op.exists_of_bind_eq_ok h
  cases h
  exact hkdf

theorem decodeChainKey_kdf {version : UInt32} {o : Option (ChainKeyStructure B)}
    {chainKey : Option (RatchetChainKey B)} (h : decodeChainKey version o = .ok chainKey) :
    ∀ k ∈ chainKey, hkdfCreate version = .ok k.kdf := by
  unfold decodeChainKey at h
  split at h
  · obtain ⟨kdf, hkdf, h⟩ := Op.exists_of_bind_eq_ok h
    obtain ⟨key, -, h⟩ := Op.exists_of_bind_eq_ok h
    cases h
    rintro k ⟨⟩
    exact ok_of_mapError hkdf
  · cases h
    exact fun k hk => absurd hk (Option.not_mem_none k)

/-- A sender chain that was read decoded, or it is empty. -/
theorem ChainStructure.deserializeSenderUnchecked_cases {version : UInt32} {c : ChainStructure B}
    {chain : SenderChain Priv Pub B} (h : c.deserializeSenderUnchecked P version = .ok chain) :
    c.deserializeSender P version = .ok chain ∨ chain = ⟨none, none⟩ := by
  unfold deserializeSenderUnchecked at h
  split at h
  · cases h
  · cases h
    exact Or.inr rfl
  · rename_i hc
    cases h
    exact Or.inl hc

theorem ChainStructure.deserializeSenderUnchecked_kdf {version : UInt32} {c : ChainStructure B}
    {chain : SenderChain Priv Pub B} (h : c.deserializeSenderUnchecked P version = .ok chain) :
    ∀ k ∈ chain.chainKey, hkdfCreate version = .ok k.kdf := by
  rcases deserializeSenderUnchecked_cases h with h | rfl
  · obtain ⟨pair, -, h⟩ := Op.exists_of_bind_eq_ok h
    obtain ⟨chainKey, hkey, h⟩ := Op.exists_of_bind_eq_ok h
    cases h
    exact decodeChainKey_kdf hkey
  · exact fun k hk => absurd hk (Option.not_mem_none k)

theorem ChainStructure.deserializeReceiver_spec {version : UInt32} {c : ChainStructure B}
    {chain : ReceiverChain Pub B} (h : c.deserializeReceiver P version = .ok chain) :
    (∀ k ∈ chain.chainKey, hkdfCreate version = .ok k.kdf) ∧
      ∀ k ∈ chain.messageKeys, k.serialize.deserialize P = k := by
  obtain ⟨key, -, h⟩ := Op.exists_of_bind_eq_ok h
  obtain ⟨chainKey, hkey, h⟩ := Op.exists_of_bind_eq_ok h
  cases h
  refine ⟨decodeChainKey_kdf hkey, fun k hk => ?_⟩
  obtain ⟨s, -, rfl⟩ := List.mem_map.1 hk
  simp only [RatchetMessageKeys.serialize, MessageKeyStructure.deserialize,
    decodeKeyArray_decodeKeyArray, Option.getD_some]

/-- The version that the decoder uses: `session_state_create` sets 2. -/
def SessionStructure.version (s : SessionStructure B) : UInt32 := s.sessionVersion.getD 2

/-- Each part of the state is what its decoder returned. -/
structure SessionStructure.DecodesTo (P : Provider Priv Pub B) (s : SessionStructure B)
    (state : SessionState Priv Pub B) : Prop where
  localIdentity : decodeOptional P.decodePoint s.localIdentityPublic =
    .ok state.localIdentityPublic
  remoteIdentity : decodeOptional P.decodePoint s.remoteIdentityPublic =
    .ok state.remoteIdentityPublic
  rootKey : decodeOptional (decodeRootKey s.version) s.rootKey = .ok state.rootKey
  senderChain : decodeOptional (ChainStructure.deserializeSenderUnchecked P s.version)
    s.senderChain = .ok state.senderChain
  receiverChains : s.receiverChains.mapM (ChainStructure.deserializeReceiver P s.version) =
    .ok state.receiverChains
  pendingKeyExchange : decodeOptional (PendingKeyExchangeStructure.deserialize P)
    s.pendingKeyExchange = .ok state.pendingKeyExchange
  pendingPreKey : decodeOptional (PendingPreKeyStructure.deserialize P) s.pendingPreKey =
    .ok state.pendingPreKey
  aliceBaseKey : decodeOptional P.decodePoint s.aliceBaseKey = .ok state.aliceBaseKey

section Decoded

variable {s : SessionStructure B} {state : SessionState Priv Pub B}

/-- What a successful reading has done. -/
theorem SessionStructure.deserialize_ok (h : s.deserialize P = .ok state) :
    s.DecodesTo P state ∧ state.sessionVersion = s.version := by
  obtain ⟨localIdentity, hl, h⟩ := Op.exists_of_bind_eq_ok h
  obtain ⟨remoteIdentity, hr, h⟩ := Op.exists_of_bind_eq_ok h
  obtain ⟨rootKey, hk, h⟩ := Op.exists_of_bind_eq_ok h
  obtain ⟨senderChain, hs, h⟩ := Op.exists_of_bind_eq_ok h
  obtain ⟨receiverChains, hc, h⟩ := Op.exists_of_bind_eq_ok h
  obtain ⟨pendingKeyExchange, he, h⟩ := Op.exists_of_bind_eq_ok h
  obtain ⟨pendingPreKey, hp, h⟩ := Op.exists_of_bind_eq_ok h
  obtain ⟨aliceBaseKey, ha, h⟩ := Op.exists_of_bind_eq_ok h
  cases h
  exact ⟨⟨hl, hr, hk, hs, hc, he, hp, ha⟩, rfl⟩

theorem decodesTo_of_deserialize (h : s.deserialize P = .ok state) : s.DecodesTo P state :=
  (SessionStructure.deserialize_ok h).1

/-- **A state that was read is read back as it is.** -/
theorem SessionStructure.readable_of_deserialize (h : s.deserialize P = .ok state) :
    state.Readable P := by
  obtain ⟨hparts, hversion⟩ := deserialize_ok h
  refine ⟨fun k hk => ?_, fun c hc k hk => ?_, fun c hc => ?_, fun c hc => ?_⟩
  · obtain ⟨key, -, hkey⟩ := exists_of_decodeOptional hparts.rootKey hk
    rw [hversion]
    exact decodeRootKey_kdf hkey
  · obtain ⟨a, -, ha⟩ := exists_of_decodeOptional hparts.senderChain hc
    rw [hversion]
    exact ChainStructure.deserializeSenderUnchecked_kdf ha k hk
  · obtain ⟨a, -, ha⟩ := Op.exists_of_mem_mapM hparts.receiverChains hc
    rw [hversion]
    exact (ChainStructure.deserializeReceiver_spec ha).1
  · obtain ⟨a, -, ha⟩ := Op.exists_of_mem_mapM hparts.receiverChains hc
    exact (ChainStructure.deserializeReceiver_spec ha).2

end Decoded

end RoundTrip

end SignalProtocol
