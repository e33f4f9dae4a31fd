/-
# What loading a session state lets through (`session_state_deserialize_protobuf`)

A stored message may hold anything: it was written by another version, cut short, or edited.
This module says what the decoder does with every such message, and compares it with what a
reader of a store would want: a message is either refused, or each key in it is in the loaded
state.

Three predicates on a message, none of which runs the decoder:

1. `SessionStructure.Sound`: each key that is present is well formed by itself.
2. `SessionStructure.Accepted`: the decoders whose result is looked at have nothing to object
   to.  This is when the call succeeds (`deserialize_ok_iff`).
3. `SessionStructure.Unhidden`: the parts on which the decoder is silent (the sender chain, the
   lengths of secrets, key pairs and chain keys with one half missing) are in order.

A fourth, `SessionStructure.UsesFreed`, describes the messages on which the call does not return:
a session version that has no key derivation is noticed only after the context for it was freed,
and the decoders of chains then release that context once more.

The decoder hides nothing exactly where acceptance entails the third and the fourth is false
(`hidesNothing_iff`).
-/
import SignalProtocol.Symbolic
import SignalProtocol.Record

namespace SignalProtocol

variable {Priv Pub B : Type}

/-! ## 1. What a message should become -/

section Represented

variable (P : Provider Priv Pub B)

/-- The point in a field is the key of the state. -/
def PointKept (field : Option B) (key : Option Pub) : Prop :=
  ∀ b ∈ field, ∃ k ∈ key, P.decodePoint b = .ok k

/-- Each half of a stored key pair is that half of the pair of the state. -/
def PairKept (publicKey privateKey : Option B) (pair : Option (EcKeyPair Priv Pub)) : Prop :=
  (∀ b ∈ publicKey, ∃ k ∈ pair, P.decodePoint b = .ok k.publicKey) ∧
    ∀ b ∈ privateKey, ∃ k ∈ pair, P.decodePrivate b = .ok k.privateKey

/-- A stored chain key is what the chain key of the state would be stored as. -/
def ChainKeyKept (field : Option (ChainKeyStructure B)) (chainKey : Option (RatchetChainKey B)) :
    Prop :=
  ∀ c ∈ field, ∃ k ∈ chainKey, c = k.serialize

/-- The sender chain of the message is the one of the state.  Its message keys are left out:
no version of the library writes any. -/
def SenderKept (c : ChainStructure B) (chain : SenderChain Priv Pub B) : Prop :=
  PairKept P c.senderRatchetKey c.senderRatchetKeyPrivate chain.senderRatchetKeyPair ∧
    ChainKeyKept c.chainKey chain.chainKey

/-- A receiver chain of the message is the one of the state; there is no place in the state for
a private key. -/
structure ReceiverKept (c : ChainStructure B) (chain : ReceiverChain Pub B) : Prop where
  ratchetKey : PointKept P c.senderRatchetKey chain.senderRatchetKey
  noPrivate : c.senderRatchetKeyPrivate = none
  chainKey : ChainKeyKept c.chainKey chain.chainKey
  messageKeys : c.messageKeys = chain.messageKeys.map RatchetMessageKeys.serialize

/-- The three key pairs of a stored key exchange are those of the state. -/
structure ExchangeKept (e : PendingKeyExchangeStructure B)
    (exchange : PendingKeyExchange Priv Pub) : Prop where
  base : PairKept P e.localBaseKey e.localBaseKeyPrivate exchange.localBaseKey
  ratchet : PairKept P e.localRatchetKey e.localRatchetKeyPrivate exchange.localRatchetKey
  identity : PairKept P e.localIdentityKey e.localIdentityKeyPrivate exchange.localIdentityKey

/-- **Every key of the message is in the state, unchanged.** -/
structure SessionStructure.RepresentedBy (s : SessionStructure B)
    (state : SessionState Priv Pub B) : Prop where
  localIdentity : PointKept P s.localIdentityPublic state.localIdentityPublic
  remoteIdentity : PointKept P s.remoteIdentityPublic state.remoteIdentityPublic
  rootKey : ∀ b ∈ s.rootKey, ∃ k ∈ state.rootKey, b = some k.key
  senderChain : ∀ c ∈ s.senderChain, ∃ chain ∈ state.senderChain, SenderKept P c chain
  receiverChains : List.Forall₂ (ReceiverKept P) s.receiverChains state.receiverChains
  pendingKeyExchange :
    ∀ e ∈ s.pendingKeyExchange, ∃ exchange ∈ state.pendingKeyExchange, ExchangeKept P e exchange
  pendingPreKey :
    ∀ k ∈ s.pendingPreKey, ∃ preKey ∈ state.pendingPreKey, PointKept P k.baseKey preKey.baseKey
  aliceBaseKey : PointKept P s.aliceBaseKey state.aliceBaseKey

/-- A sender chain that is there can be used. -/
def SessionState.SenderReady (state : SessionState Priv Pub B) : Prop :=
  ∀ chain ∈ state.senderChain,
    chain.senderRatchetKeyPair.isSome = true ∧ chain.chainKey.isSome = true

end Represented

/-! ## 2. Well-formed keys -/

section Sound

variable (P : Provider Priv Pub B)

/-- The field is absent or holds a point. -/
def PointSound (field : Option B) : Prop := ∀ b ∈ field, ∃ k, P.decodePoint b = .ok k

/-- The field is absent or holds a private key. -/
def PrivateSound (field : Option B) : Prop := ∀ b ∈ field, ∃ k, P.decodePrivate b = .ok k

/-- The field is absent or holds a secret of 32 bytes. -/
def SecretSound (field : Option (Option B)) : Prop := ∀ b ∈ field, ∃ key ∈ b, P.len key = 32

/-- The field is absent or holds an array of this size. -/
def ArraySound (size : Nat) (field : Option B) : Prop := ∀ b ∈ field, P.len b = size

/-- The key arrays of a skipped message key have their sizes. -/
def MessageKeyStructure.Sound (m : MessageKeyStructure B) : Prop :=
  ArraySound P 32 m.cipherKey ∧ ArraySound P 32 m.macKey ∧ ArraySound P 16 m.iv

/-- The ratchet key, its private half and the chain key of a chain are well formed. -/
def ChainStructure.Sound (c : ChainStructure B) : Prop :=
  PointSound P c.senderRatchetKey ∧ PrivateSound P c.senderRatchetKeyPrivate ∧
    ∀ k ∈ c.chainKey, SecretSound P k.key

/-- The six key fields of a stored key exchange are well formed. -/
structure PendingKeyExchangeStructure.Sound (e : PendingKeyExchangeStructure B) : Prop where
  base : PointSound P e.localBaseKey
  basePrivate : PrivateSound P e.localBaseKeyPrivate
  ratchet : PointSound P e.localRatchetKey
  ratchetPrivate : PrivateSound P e.localRatchetKeyPrivate
  identity : PointSound P e.localIdentityKey
  identityPrivate : PrivateSound P e.localIdentityKeyPrivate

/-- **Every key that is present is well formed**: points and private keys decode, secrets and
key arrays have their lengths. -/
structure SessionStructure.Sound (s : SessionStructure B) : Prop where
  localIdentity : PointSound P s.localIdentityPublic
  remoteIdentity : PointSound P s.remoteIdentityPublic
  rootKey : SecretSound P s.rootKey
  senderChain : ∀ c ∈ s.senderChain, c.Sound P
  receiverChains : ∀ c ∈ s.receiverChains, c.Sound P ∧ ∀ m ∈ c.messageKeys, m.Sound P
  pendingKeyExchange : ∀ e ∈ s.pendingKeyExchange, e.Sound P
  pendingPreKey : ∀ k ∈ s.pendingPreKey, PointSound P k.baseKey
  aliceBaseKey : PointSound P s.aliceBaseKey

end Sound

/-! ## 3. Hiding nothing -/

section Statement

variable (P : Provider Priv Pub B)

/-- **Loading a state hides no corruption.** -/
structure SessionStructure.HidesNothing (s : SessionStructure B) : Prop where
  /-- Success means that every key is there. -/
  represented : ∀ state, s.deserialize P = .ok state → s.RepresentedBy P state
  /-- Success means that a sender chain can be used. -/
  ready : ∀ state, s.deserialize P = .ok state → s.senderChain.isSome = true →
    state.senderChain.isSome = true ∧ state.SenderReady
  /-- A malformed key is an error. -/
  refused : ¬ s.Sound P → ∃ e, s.deserialize P = .error e
  /-- An error is a code: the call returns. -/
  returns : Returning (s.deserialize P)

/-- The states that a stored record holds, the current one first. -/
def RecordStructure.sessions (r : RecordStructure B) : List (SessionStructure B) :=
  r.currentSession.toList ++ r.previousSessions

/-- **Loading a record hides no corruption.** -/
structure RecordStructure.HidesNothing (r : RecordStructure B) : Prop where
  represented : ∀ record, r.deserialize P = .ok record →
    (∀ s ∈ r.currentSession, s.RepresentedBy P record.state) ∧
      List.Forall₂ (SessionStructure.RepresentedBy P) r.previousSessions record.previousStates
  ready : ∀ record, r.deserialize P = .ok record → ∀ state ∈ record.states, state.SenderReady
  refused : (∃ s ∈ r.sessions, ¬ s.Sound P) → ∃ e, r.deserialize P = .error e
  returns : Returning (r.deserialize P)

/-! ## 4. What the decoder checks, and what it does not -/

/-- The session version has a key derivation. -/
def VersionKnown (version : UInt32) : Prop := version = 2 ∨ version = 3

/-- The decoder of a key pair objects to a malformed half only if both are present. -/
def PairAccepted (publicKey privateKey : Option B) : Prop :=
  ∀ a ∈ publicKey, ∀ b ∈ privateKey,
    (∃ k, P.decodePoint a = .ok k) ∧ ∃ k, P.decodePrivate b = .ok k

/-- The decoder of a chain key objects to an unknown version and to an empty key, if index and
key are both present. -/
def ChainKeyAccepted (version : UInt32) (field : Option (ChainKeyStructure B)) : Prop :=
  ∀ c ∈ field, c.index.isSome = true → ∀ b ∈ c.key, VersionKnown version ∧ b.isSome = true

/-- Index and key of a chain key are both present, so that a key derivation is made for it. -/
def ChainKeyComplete (field : Option (ChainKeyStructure B)) : Prop :=
  ∃ c ∈ field, c.index.isSome = true ∧ c.key.isSome = true

/-- The decoders of a stored key exchange have nothing to object to. -/
structure PendingKeyExchangeStructure.Accepted (e : PendingKeyExchangeStructure B) : Prop where
  base : PairAccepted P e.localBaseKey e.localBaseKeyPrivate
  ratchet : PairAccepted P e.localRatchetKey e.localRatchetKeyPrivate
  identity : PairAccepted P e.localIdentityKey e.localIdentityKeyPrivate

/-- **The decoders whose result is looked at have nothing to object to.**  The sender chain is
not among them, but a key derivation that was freed is not survived there either. -/
structure SessionStructure.Accepted (s : SessionStructure B) : Prop where
  localIdentity : PointSound P s.localIdentityPublic
  remoteIdentity : PointSound P s.remoteIdentityPublic
  rootKey : ∀ b ∈ s.rootKey, VersionKnown s.version ∧ b.isSome = true
  senderChain : ∀ c ∈ s.senderChain, PairAccepted P c.senderRatchetKey c.senderRatchetKeyPrivate →
    ChainKeyComplete c.chainKey → VersionKnown s.version
  receiverChains : ∀ c ∈ s.receiverChains,
    PointSound P c.senderRatchetKey ∧ ChainKeyAccepted s.version c.chainKey
  pendingKeyExchange : ∀ e ∈ s.pendingKeyExchange, e.Accepted P
  pendingPreKey : ∀ k ∈ s.pendingPreKey, PointSound P k.baseKey
  aliceBaseKey : PointSound P s.aliceBaseKey

/-- Some receiver chain has a complete chain key, and the ratchet keys up to it are points. -/
def ReceiversUseFreed : List (ChainStructure B) → Prop
  | [] => False
  | c :: chains =>
    PointSound P c.senderRatchetKey ∧ (ChainKeyComplete c.chainKey ∨ ReceiversUseFreed chains)

/-- **The decoder uses freed memory**: the version has no key derivation, which no root key
reveals in time, and the decoder of a chain gets as far as its chain key. -/
structure SessionStructure.UsesFreed (s : SessionStructure B) : Prop where
  version : ¬ VersionKnown s.version
  localIdentity : PointSound P s.localIdentityPublic
  remoteIdentity : PointSound P s.remoteIdentityPublic
  rootKey : s.rootKey = none
  chain : (∃ c ∈ s.senderChain, PairAccepted P c.senderRatchetKey c.senderRatchetKeyPrivate ∧
      ChainKeyComplete c.chainKey) ∨ ReceiversUseFreed P s.receiverChains

/-- The decoder of a record uses freed memory in one of its states, the ones before it having
been accepted. -/
def SessionsUseFreed : List (SessionStructure B) → Prop
  | [] => False
  | s :: sessions => s.UsesFreed P ∨ s.Accepted P ∧ SessionsUseFreed sessions

/-- Both halves of a pair are present, or neither. -/
def PairWhole (publicKey privateKey : Option B) : Prop :=
  publicKey.isSome = privateKey.isSome

/-- A chain key that is there has an index, and a key of 32 bytes. -/
def ChainKeyWhole (field : Option (ChainKeyStructure B)) : Prop :=
  ∀ c ∈ field, c.index.isSome = true ∧ ∃ key, c.key = some (some key) ∧ P.len key = 32

/-- A skipped message key has its index and all three arrays, each of its size. -/
structure MessageKeyStructure.Whole (m : MessageKeyStructure B) : Prop where
  index : m.index.isSome = true
  cipherKey : ∃ b, m.cipherKey = some b ∧ P.len b = 32
  macKey : ∃ b, m.macKey = some b ∧ P.len b = 32
  iv : ∃ b, m.iv = some b ∧ P.len b = 16

/-- A sender chain with a key pair that decodes and a whole chain key. -/
structure ChainStructure.SenderWhole (version : UInt32) (c : ChainStructure B) : Prop where
  ratchetKey : ∃ a k, c.senderRatchetKey = some a ∧ P.decodePoint a = .ok k
  ratchetKeyPrivate : ∃ b k, c.senderRatchetKeyPrivate = some b ∧ P.decodePrivate b = .ok k
  present : c.chainKey.isSome = true
  chainKey : ChainKeyWhole P c.chainKey
  version : VersionKnown version

/-- A receiver chain without a private key, with a whole chain key if any, and whole skipped
message keys. -/
structure ChainStructure.ReceiverWhole (c : ChainStructure B) : Prop where
  noPrivate : c.senderRatchetKeyPrivate = none
  chainKey : ChainKeyWhole P c.chainKey
  messageKeys : ∀ m ∈ c.messageKeys, m.Whole P

/-- The three key pairs of a stored key exchange are whole. -/
structure PendingKeyExchangeStructure.Whole (e : PendingKeyExchangeStructure B) : Prop where
  base : PairWhole e.localBaseKey e.localBaseKeyPrivate
  ratchet : PairWhole e.localRatchetKey e.localRatchetKeyPrivate
  identity : PairWhole e.localIdentityKey e.localIdentityKeyPrivate

/-- **What the decoder never checks is in order.** -/
structure SessionStructure.Unhidden (s : SessionStructure B) : Prop where
  rootKey : SecretSound P s.rootKey
  senderChain : ∀ c ∈ s.senderChain, c.SenderWhole P s.version
  receiverChains : ∀ c ∈ s.receiverChains, c.ReceiverWhole P
  pendingKeyExchange : ∀ e ∈ s.pendingKeyExchange, e.Whole

end Statement

/-! ## 5. The decoders, one by one -/

section Decoders

variable {P : Provider Priv Pub B}

theorem decodeOptional_ok {α β : Type} {decode : α → Except SgError β} {o : Option α}
    {o' : Option β} (h : decodeOptional decode o = .ok o') :
    o'.isSome = o.isSome ∧ ∀ a ∈ o, ∃ b ∈ o', decode a = .ok b := by
  cases o with
  | none =>
    cases h
    simp
  | some a =>
    obtain ⟨b, hb, h⟩ := Op.exists_of_bind_eq_ok h
    cases h
    simpa using hb

theorem exists_decodeOptional_iff {α β : Type} {decode : α → Except SgError β} {o : Option α} :
    (∃ o', decodeOptional decode o = .ok o') ↔ ∀ a ∈ o, ∃ b, decode a = .ok b := by
  constructor
  · rintro ⟨o', h⟩ a ha
    obtain ⟨b, -, hb⟩ := (decodeOptional_ok h).2 a ha
    exact ⟨b, hb⟩
  · intro h
    cases o with
    | none => exact ⟨none, rfl⟩
    | some a =>
      obtain ⟨b, hb⟩ := h a rfl
      exact ⟨some b, by rw [decodeOptional, hb]; rfl⟩

theorem exists_mapM_iff {α β : Type} {f : α → Except SgError β} {l : List α} :
    (∃ l', l.mapM f = .ok l') ↔ ∀ a ∈ l, ∃ b, f a = .ok b := by
  constructor
  · rintro ⟨l', h⟩ a ha
    obtain ⟨i, hi, rfl⟩ := List.getElem_of_mem ha
    have hf := Op.mapM_ok_forall₂ h
    exact ⟨_, hf.get hi (hf.length_eq ▸ hi)⟩
  · intro h
    induction l with
    | nil => exact ⟨[], rfl⟩
    | cons a l ih =>
      obtain ⟨b, hb⟩ := h a (by simp)
      obtain ⟨bs, hbs⟩ := ih fun c hc => h c (List.mem_cons_of_mem _ hc)
      exact ⟨b :: bs, by rw [List.mapM_cons, hb, hbs]; rfl⟩

theorem exists_hkdfCreate_iff {version : UInt32} :
    (∃ kdf, hkdfCreate version = .ok kdf) ↔ VersionKnown version := by
  unfold hkdfCreate VersionKnown
  split_ifs <;> simp_all

theorem requirePointer_ok {b : Option B} {key : B} (h : requirePointer b = .ok key) :
    b = some key := by
  cases b with
  | none => cases h
  | some k =>
    cases h
    rfl

/-- A key pair that was decoded was whole, and one that was whole is decoded. -/
theorem decodeKeyPair_ok {a b : Option B} {pair : Option (EcKeyPair Priv Pub)}
    (h : decodeKeyPair P a b = .ok pair) :
    pair.isSome = (a.isSome && b.isSome) ∧
      ∀ k ∈ pair, ∃ x ∈ a, ∃ y ∈ b,
        P.decodePoint x = .ok k.publicKey ∧ P.decodePrivate y = .ok k.privateKey := by
  match a, b with
  | some x, some y =>
    obtain ⟨publicKey, hx, h⟩ := Op.exists_of_bind_eq_ok h
    obtain ⟨privateKey, hy, h⟩ := Op.exists_of_bind_eq_ok h
    cases h
    simp [hx, hy]
  | none, _ =>
    cases h
    simp
  | some _, none =>
    cases h
    simp

theorem exists_decodeKeyPair_iff {a b : Option B} :
    (∃ pair, decodeKeyPair P a b = .ok pair) ↔ PairAccepted P a b := by
  match a, b with
  | some x, some y =>
    constructor
    · rintro ⟨pair, h⟩ x hx y hy
      cases hx
      cases hy
      obtain ⟨publicKey, hx, h⟩ := Op.exists_of_bind_eq_ok h
      obtain ⟨privateKey, hy, -⟩ := Op.exists_of_bind_eq_ok h
      exact ⟨⟨publicKey, hx⟩, privateKey, hy⟩
    · intro h
      obtain ⟨⟨publicKey, hx⟩, privateKey, hy⟩ := h x rfl y rfl
      exact ⟨some ⟨publicKey, privateKey⟩, by rw [decodeKeyPair, hx, hy]; rfl⟩
  | none, _ => exact ⟨fun _ x hx => absurd hx (Option.not_mem_none x), fun _ => ⟨none, rfl⟩⟩
  | some _, none =>
    exact ⟨fun _ _ _ y hy => absurd hy (Option.not_mem_none y), fun _ => ⟨none, rfl⟩⟩

/-- A chain key that was decoded was whole, up to its length. -/
theorem decodeChainKey_ok {version : UInt32} {field : Option (ChainKeyStructure B)}
    {chainKey : Option (RatchetChainKey B)} (h : decodeChainKey version field = .ok chainKey) :
    ∀ k ∈ chainKey, VersionKnown version ∧ field = some k.serialize := by
  match field with
  | some ⟨some index, some b⟩ =>
    obtain ⟨kdf, hkdf, h⟩ := Op.exists_of_bind_eq_ok h
    obtain ⟨key, hkey, h⟩ := Op.exists_of_bind_eq_ok h
    cases h
    rintro k ⟨⟩
    exact ⟨exists_hkdfCreate_iff.1 ⟨kdf, ok_of_mapError hkdf⟩,
      by rw [requirePointer_ok hkey]; rfl⟩
  | none =>
    cases h
    exact nofun
  | some ⟨none, _⟩ =>
    cases h
    exact nofun
  | some ⟨some _, none⟩ =>
    cases h
    exact nofun

theorem decodeChainKey_whole {version : UInt32} {index : UInt32} {key : B}
    {chainKey : Option (RatchetChainKey B)}
    (h : decodeChainKey version (some ⟨some index, some (some key)⟩) = .ok chainKey) :
    chainKey.isSome = true := by
  obtain ⟨kdf, -, h⟩ := Op.exists_of_bind_eq_ok h
  obtain ⟨key, -, h⟩ := Op.exists_of_bind_eq_ok h
  cases h
  rfl

theorem exists_decodeChainKey_iff {version : UInt32} {field : Option (ChainKeyStructure B)} :
    (∃ chainKey, decodeChainKey version field = .ok chainKey) ↔
      ChainKeyAccepted version field := by
  match field with
  | some ⟨some index, some b⟩ =>
    constructor
    · rintro ⟨chainKey, h⟩ c hc - b hb
      cases hc
      cases hb
      obtain ⟨kdf, hkdf, h⟩ := Op.exists_of_bind_eq_ok h
      obtain ⟨key, hkey, -⟩ := Op.exists_of_bind_eq_ok h
      exact ⟨exists_hkdfCreate_iff.1 ⟨kdf, ok_of_mapError hkdf⟩,
        by rw [requirePointer_ok hkey]; rfl⟩
    · intro h
      obtain ⟨hv, hb⟩ := h _ rfl rfl b rfl
      obtain ⟨kdf, hkdf⟩ := exists_hkdfCreate_iff.2 hv
      obtain ⟨key, rfl⟩ := Option.isSome_iff_exists.1 hb
      exact ⟨some ⟨kdf, key, index⟩, by rw [decodeChainKey, hkdf]; rfl⟩
  | none => exact ⟨fun _ c hc => absurd hc (Option.not_mem_none c), fun _ => ⟨none, rfl⟩⟩
  | some ⟨none, _⟩ =>
    refine ⟨fun _ c hc hi => ?_, fun _ => ⟨none, rfl⟩⟩
    cases hc
    cases hi
  | some ⟨some _, none⟩ =>
    refine ⟨fun _ c hc _ b hb => ?_, fun _ => ⟨none, rfl⟩⟩
    cases hc
    cases hb

/-! When a decoder returns.  Only the two decoders of chains may not: the ones of keys, which are
those of `curve.c`, are taken to return (`Provider.DecodersReturn`). -/

/-- The decoders of points and private keys return. -/
structure Provider.DecodersReturn (P : Provider Priv Pub B) : Prop where
  point : ∀ b, Returning (P.decodePoint b)
  privateKey : ∀ b, Returning (P.decodePrivate b)

theorem returns_ok {α : Type} (a : α) : Returning (.ok a) := by
  intro e he
  cases he

theorem returns_bind_iff {α β : Type} {x : Except SgError α} {f : α → Except SgError β} :
    Returning (x >>= f) ↔ Returning x ∧ ∀ a, x = .ok a → Returning (f a) := by
  cases x with
  | error e =>
    refine ⟨fun h => ⟨fun e' he => ?_, fun a ha => ?_⟩, fun h e' he => ?_⟩
    · cases he
      exact h e rfl
    · cases ha
    · cases he
      exact h.1 e rfl
  | ok a =>
    refine ⟨fun h => ⟨returns_ok a, fun b hb => ?_⟩, fun h => h.2 a rfl⟩
    cases hb
    exact h

theorem returns_decodeOptional_iff {α β : Type} {decode : α → Except SgError β} {o : Option α} :
    Returning (decodeOptional decode o) ↔ ∀ a ∈ o, Returning (decode a) := by
  cases o with
  | none => exact ⟨fun _ => nofun, fun _ => returns_ok _⟩
  | some a =>
    simp only [decodeOptional, returns_bind_iff, Option.mem_def, Option.some.injEq, forall_eq']
    exact and_iff_left fun _ _ => returns_ok _

/-- A list is decoded up to the first element that fails. -/
theorem returns_mapM_cons_iff {α β : Type} {f : α → Except SgError β} {a : α} {l : List α} :
    Returning ((a :: l).mapM f) ↔
      Returning (f a) ∧ ((∃ b, f a = .ok b) → Returning (l.mapM f)) := by
  rw [List.mapM_cons, returns_bind_iff, forall_exists_index]
  refine and_congr_right fun _ => forall₂_congr fun b _ => ?_
  rw [returns_bind_iff]
  exact and_iff_left fun _ _ => returns_ok _

theorem Provider.DecodersReturn.decodeKeyPair (hP : P.DecodersReturn) (a b : Option B) :
    Returning (decodeKeyPair P a b) := by
  match a, b with
  | some x, some y =>
    exact returns_bind_iff.2 ⟨hP.point x, fun _ _ => returns_bind_iff.2 ⟨hP.privateKey y,
      fun _ _ => returns_ok _⟩⟩
  | none, _ => exact returns_ok _
  | some _, none => exact returns_ok _

theorem returns_requirePointer (b : Option B) : Returning (requirePointer b) := by
  cases b with
  | none =>
    rintro e ⟨⟩
    exact ⟨nofun, nofun⟩
  | some key => exact returns_ok key

theorem returns_decodeRootKey (version : UInt32) (b : Option B) :
    Returning (decodeRootKey version b) := by
  refine returns_bind_iff.2 ⟨?_, fun _ _ => returns_bind_iff.2 ⟨returns_requirePointer b,
    fun _ _ => returns_ok _⟩⟩
  unfold hkdfCreate
  split_ifs
  · exact returns_ok _
  · exact returns_ok _
  · rintro e ⟨⟩
    exact ⟨nofun, nofun⟩

/-- A complete chain key under an unknown version: the freed context is released. -/
theorem decodeChainKey_freed {version : UInt32} {field : Option (ChainKeyStructure B)}
    (hc : ChainKeyComplete field) (hv : ¬ VersionKnown version) :
    decodeChainKey version field = .error .invalidAccess := by
  obtain ⟨⟨_ | index, _ | key⟩, ⟨⟩, hi, hk⟩ := hc
  · cases hi
  · cases hi
  · cases hk
  · cases hkdf : hkdfCreate version with
    | ok kdf => exact absurd (exists_hkdfCreate_iff.1 ⟨kdf, hkdf⟩) hv
    | error e =>
      rw [decodeChainKey, hkdf]
      rfl

/-- The decoder of a chain key returns if there is a key derivation, or none is asked for. -/
theorem returns_decodeChainKey_iff {version : UInt32} {field : Option (ChainKeyStructure B)} :
    Returning (decodeChainKey version field) ↔ (ChainKeyComplete field → VersionKnown version) := by
  match field with
  | some ⟨some index, some b⟩ =>
    have hcomplete : ChainKeyComplete (some ⟨some index, some b⟩) := ⟨_, rfl, rfl, rfl⟩
    rw [imp_iff_right hcomplete]
    constructor
    · intro h
      by_contra hv
      exact (h _ (decodeChainKey_freed hcomplete hv)).2 rfl
    · intro hv
      obtain ⟨kdf, hkdf⟩ := exists_hkdfCreate_iff.2 hv
      rw [decodeChainKey, hkdf]
      exact returns_bind_iff.2 ⟨returns_ok _, fun _ _ => returns_bind_iff.2
        ⟨returns_requirePointer b, fun _ _ => returns_ok _⟩⟩
  | none =>
    refine ⟨?_, fun _ => returns_ok _⟩
    rintro _ ⟨c, hc, -⟩
    exact (Option.not_mem_none c hc).elim
  | some ⟨none, _⟩ =>
    refine ⟨?_, fun _ => returns_ok _⟩
    rintro _ ⟨c, ⟨⟩, hi, -⟩
    cases hi
  | some ⟨some _, none⟩ =>
    refine ⟨?_, fun _ => returns_ok _⟩
    rintro _ ⟨c, ⟨⟩, -, hk⟩
    cases hk

/-- The unchecked decoder has no codes: where it returns, it gives a chain. -/
theorem exists_senderUnchecked_iff {version : UInt32} {c : ChainStructure B} :
    (∃ chain, c.deserializeSenderUnchecked P version = .ok chain) ↔
      Returning (c.deserializeSenderUnchecked P version) := by
  constructor
  · rintro ⟨chain, h⟩
    rw [h]
    exact returns_ok chain
  · intro h
    unfold ChainStructure.deserializeSenderUnchecked at h ⊢
    split at h
    · exact ((h _ rfl).2 rfl).elim
    · exact ⟨_, rfl⟩
    · exact ⟨_, rfl⟩

theorem returns_senderUnchecked_iff (hP : P.DecodersReturn) {version : UInt32}
    {c : ChainStructure B} :
    Returning (c.deserializeSenderUnchecked P version) ↔
      (PairAccepted P c.senderRatchetKey c.senderRatchetKeyPrivate →
        ChainKeyComplete c.chainKey → VersionKnown version) := by
  constructor
  · intro h hpair hcomplete
    by_contra hv
    obtain ⟨pair, hpair⟩ := exists_decodeKeyPair_iff.2 hpair
    refine (h .invalidAccess ?_).2 rfl
    rw [ChainStructure.deserializeSenderUnchecked, ChainStructure.deserializeSender, hpair,
      decodeChainKey_freed hcomplete hv]
    rfl
  · intro h
    have hreturns : Returning (c.deserializeSender P version) :=
      returns_bind_iff.2 ⟨hP.decodeKeyPair _ _, fun pair hpair => returns_bind_iff.2
        ⟨returns_decodeChainKey_iff.2 (h (exists_decodeKeyPair_iff.1 ⟨pair, hpair⟩)),
          fun _ _ => returns_ok _⟩⟩
    unfold ChainStructure.deserializeSenderUnchecked
    split
    · exact ((hreturns _ (by assumption)).2 rfl).elim
    · exact returns_ok _
    · exact returns_ok _

theorem returns_deserializeReceiver_iff (hP : P.DecodersReturn) {version : UInt32}
    {c : ChainStructure B} :
    Returning (c.deserializeReceiver P version) ↔
      (PointSound P c.senderRatchetKey → ChainKeyComplete c.chainKey → VersionKnown version) := by
  have hpoint : Returning (decodeOptional P.decodePoint c.senderRatchetKey) :=
    returns_decodeOptional_iff.2 fun b _ => hP.point b
  rw [ChainStructure.deserializeReceiver, returns_bind_iff, and_iff_right hpoint, PointSound,
    ← exists_decodeOptional_iff, forall_exists_index]
  refine forall₂_congr fun key _ => ?_
  rw [returns_bind_iff, returns_decodeChainKey_iff]
  exact and_iff_left fun _ _ => returns_ok _

theorem Provider.DecodersReturn.exchange (hP : P.DecodersReturn)
    (e : PendingKeyExchangeStructure B) : Returning (e.deserialize P) :=
  returns_bind_iff.2 ⟨hP.decodeKeyPair _ _, fun _ _ => returns_bind_iff.2
    ⟨hP.decodeKeyPair _ _, fun _ _ => returns_bind_iff.2
      ⟨hP.decodeKeyPair _ _, fun _ _ => returns_ok _⟩⟩⟩

theorem Provider.DecodersReturn.preKey (hP : P.DecodersReturn) (k : PendingPreKeyStructure B) :
    Returning (k.deserialize P) :=
  returns_bind_iff.2 ⟨returns_decodeOptional_iff.2 fun b _ => hP.point b,
    fun _ _ => returns_ok _⟩

end Decoders

/-! ## 6. When a state loads, and what it then is -/

section States

variable {P : Provider Priv Pub B} {s : SessionStructure B} {state : SessionState Priv Pub B}

theorem exists_decodeRootKey_iff {version : UInt32} {b : Option B} :
    (∃ k, decodeRootKey version b = .ok k) ↔ VersionKnown version ∧ b.isSome = true := by
  constructor
  · rintro ⟨k, h⟩
    obtain ⟨kdf, hkdf, h⟩ := Op.exists_of_bind_eq_ok h
    obtain ⟨key, hkey, -⟩ := Op.exists_of_bind_eq_ok h
    exact ⟨exists_hkdfCreate_iff.1 ⟨kdf, hkdf⟩, by rw [requirePointer_ok hkey]; rfl⟩
  · rintro ⟨hv, hb⟩
    obtain ⟨kdf, hkdf⟩ := exists_hkdfCreate_iff.2 hv
    obtain ⟨key, rfl⟩ := Option.isSome_iff_exists.1 hb
    exact ⟨⟨kdf, key⟩, by rw [decodeRootKey, hkdf]; rfl⟩

theorem exists_deserializeReceiver_iff {version : UInt32} {c : ChainStructure B} :
    (∃ chain, c.deserializeReceiver P version = .ok chain) ↔
      PointSound P c.senderRatchetKey ∧ ChainKeyAccepted version c.chainKey := by
  constructor
  · rintro ⟨chain, h⟩
    obtain ⟨key, hk, h⟩ := Op.exists_of_bind_eq_ok h
    obtain ⟨chainKey, hc, -⟩ := Op.exists_of_bind_eq_ok h
    exact ⟨exists_decodeOptional_iff.1 ⟨key, hk⟩, exists_decodeChainKey_iff.1 ⟨chainKey, hc⟩⟩
  · rintro ⟨hk, hc⟩
    obtain ⟨key, hk⟩ := exists_decodeOptional_iff.2 hk
    obtain ⟨chainKey, hc⟩ := exists_decodeChainKey_iff.2 hc
    exact ⟨_, by rw [ChainStructure.deserializeReceiver, hk, hc]; rfl⟩

theorem exists_exchange_deserialize_iff {e : PendingKeyExchangeStructure B} :
    (∃ exchange, e.deserialize P = .ok exchange) ↔ e.Accepted P := by
  constructor
  · rintro ⟨exchange, h⟩
    obtain ⟨base, hb, h⟩ := Op.exists_of_bind_eq_ok h
    obtain ⟨ratchet, hr, h⟩ := Op.exists_of_bind_eq_ok h
    obtain ⟨identity, hi, -⟩ := Op.exists_of_bind_eq_ok h
    exact ⟨exists_decodeKeyPair_iff.1 ⟨base, hb⟩, exists_decodeKeyPair_iff.1 ⟨ratchet, hr⟩,
      exists_decodeKeyPair_iff.1 ⟨identity, hi⟩⟩
  · intro h
    obtain ⟨base, hb⟩ := exists_decodeKeyPair_iff.2 h.base
    obtain ⟨ratchet, hr⟩ := exists_decodeKeyPair_iff.2 h.ratchet
    obtain ⟨identity, hi⟩ := exists_decodeKeyPair_iff.2 h.identity
    exact ⟨_, by rw [PendingKeyExchangeStructure.deserialize, hb, hr, hi]; rfl⟩

theorem exists_preKey_deserialize_iff {k : PendingPreKeyStructure B} :
    (∃ preKey, k.deserialize P = .ok preKey) ↔ PointSound P k.baseKey := by
  constructor
  · rintro ⟨preKey, h⟩
    obtain ⟨baseKey, hb, -⟩ := Op.exists_of_bind_eq_ok h
    exact exists_decodeOptional_iff.1 ⟨baseKey, hb⟩
  · intro h
    obtain ⟨baseKey, hb⟩ := exists_decodeOptional_iff.2 h
    exact ⟨_, by rw [PendingPreKeyStructure.deserialize, hb]; rfl⟩

/-- **Loading succeeds exactly on the messages that the checked decoders accept.** -/
theorem deserialize_ok_iff (hP : P.DecodersReturn) :
    (∃ state, s.deserialize P = .ok state) ↔ s.Accepted P := by
  constructor
  · rintro ⟨state, h⟩
    have hd := decodesTo_of_deserialize h
    exact {
      localIdentity := exists_decodeOptional_iff.1 ⟨_, hd.localIdentity⟩
      remoteIdentity := exists_decodeOptional_iff.1 ⟨_, hd.remoteIdentity⟩
      rootKey := fun b hb =>
        exists_decodeRootKey_iff.1 (exists_decodeOptional_iff.1 ⟨_, hd.rootKey⟩ b hb)
      senderChain := fun c hc => (returns_senderUnchecked_iff hP).1
        (exists_senderUnchecked_iff.1 (exists_decodeOptional_iff.1 ⟨_, hd.senderChain⟩ c hc))
      receiverChains := fun c hc =>
        exists_deserializeReceiver_iff.1 (exists_mapM_iff.1 ⟨_, hd.receiverChains⟩ c hc)
      pendingKeyExchange := fun e he => exists_exchange_deserialize_iff.1
        (exists_decodeOptional_iff.1 ⟨_, hd.pendingKeyExchange⟩ e he)
      pendingPreKey := fun k hk => exists_preKey_deserialize_iff.1
        (exists_decodeOptional_iff.1 ⟨_, hd.pendingPreKey⟩ k hk)
      aliceBaseKey := exists_decodeOptional_iff.1 ⟨_, hd.aliceBaseKey⟩ }
  · intro h
    obtain ⟨_, hl⟩ := exists_decodeOptional_iff.2 h.localIdentity
    obtain ⟨_, hr⟩ := exists_decodeOptional_iff.2 h.remoteIdentity
    obtain ⟨_, hk⟩ := exists_decodeOptional_iff.2 fun b hb =>
      exists_decodeRootKey_iff.2 (h.rootKey b hb)
    obtain ⟨_, hs⟩ := exists_decodeOptional_iff.2 fun c hc =>
      exists_senderUnchecked_iff.2 ((returns_senderUnchecked_iff hP).2 (h.senderChain c hc))
    obtain ⟨_, hc⟩ := exists_mapM_iff.2 fun c hc =>
      exists_deserializeReceiver_iff.2 (h.receiverChains c hc)
    obtain ⟨_, he⟩ := exists_decodeOptional_iff.2 fun e he =>
      exists_exchange_deserialize_iff.2 (h.pendingKeyExchange e he)
    obtain ⟨_, hp⟩ := exists_decodeOptional_iff.2 fun k hk =>
      exists_preKey_deserialize_iff.2 (h.pendingPreKey k hk)
    obtain ⟨_, ha⟩ := exists_decodeOptional_iff.2 h.aliceBaseKey
    rw [SessionStructure.version] at hk hs hc
    cases hd : s.deserialize P with
    | ok state => exact ⟨state, rfl⟩
    | error e =>
      simp only [SessionStructure.deserialize, hl, hr, hk, hs, hc, he, hp, ha] at hd
      cases hd

/-- Without a key derivation a chain key is accepted only if it is not complete. -/
theorem chainKeyAccepted_iff {version : UInt32} (hv : ¬ VersionKnown version)
    {field : Option (ChainKeyStructure B)} :
    ChainKeyAccepted version field ↔ ¬ ChainKeyComplete field := by
  constructor
  · rintro h ⟨k, hk, hi, hkey⟩
    obtain ⟨b, hb⟩ := Option.isSome_iff_exists.1 hkey
    exact hv (h k hk hi b hb).1
  · intro h k hk hi b hb
    exact absurd ⟨k, hk, hi, Option.isSome_iff_exists.2 ⟨b, hb⟩⟩ h

theorem returns_receivers_iff (hP : P.DecodersReturn) (version : UInt32) :
    ∀ chains : List (ChainStructure B),
      Returning (chains.mapM (ChainStructure.deserializeReceiver P version)) ↔
        (ReceiversUseFreed P chains → VersionKnown version)
  | [] => ⟨fun _ h => h.elim, fun _ => returns_ok _⟩
  | c :: chains => by
    have ih := returns_receivers_iff hP version chains
    by_cases hv : VersionKnown version
    · rw [returns_mapM_cons_iff, returns_deserializeReceiver_iff hP, ih]
      tauto
    · rw [returns_mapM_cons_iff, returns_deserializeReceiver_iff hP,
        exists_deserializeReceiver_iff, chainKeyAccepted_iff hv, ih, ReceiversUseFreed]
      tauto

/-- **Loading returns unless it uses freed memory.** -/
theorem returns_deserialize_iff (hP : P.DecodersReturn) :
    Returning (s.deserialize P) ↔ ¬ s.UsesFreed P := by
  have hpoint (field : Option B) : Returning (decodeOptional P.decodePoint field) :=
    returns_decodeOptional_iff.2 fun b _ => hP.point b
  constructor
  · rintro h ⟨hv, hlocal, hremote, hroot, hchain⟩
    obtain ⟨_, hlocal⟩ := exists_decodeOptional_iff.2 hlocal
    obtain ⟨_, hremote⟩ := exists_decodeOptional_iff.2 hremote
    have hroot : decodeOptional (decodeRootKey s.version) s.rootKey = .ok none := by
      rw [hroot]
      rfl
    -- the call gets as far as the sender chain, and past it only to the receiver chains
    have h := (returns_bind_iff.1 ((returns_bind_iff.1 ((returns_bind_iff.1 h).2 _ hlocal)).2 _
      hremote)).2 _ hroot
    obtain ⟨hsender, h⟩ := returns_bind_iff.1 h
    have hsender := returns_decodeOptional_iff.1 hsender
    rcases hchain with ⟨c, hc, hpair, hcomplete⟩ | hreceivers
    · exact hv ((returns_senderUnchecked_iff hP).1 (hsender c hc) hpair hcomplete)
    · obtain ⟨_, hsender⟩ := exists_decodeOptional_iff.2 fun c hc =>
        exists_senderUnchecked_iff.2 (hsender c hc)
      exact hv ((returns_receivers_iff hP _ _).1 (returns_bind_iff.1 (h _ hsender)).1 hreceivers)
  · intro hno
    have hroot : Returning (decodeOptional (decodeRootKey s.version) s.rootKey) :=
      returns_decodeOptional_iff.2 fun b _ => returns_decodeRootKey s.version b
    refine returns_bind_iff.2 ⟨hpoint _, fun _ hlocal => returns_bind_iff.2 ⟨hpoint _,
      fun _ hremote => returns_bind_iff.2 ⟨hroot, fun _ hrootKey => ?_⟩⟩⟩
    have hlocal := exists_decodeOptional_iff.1 ⟨_, hlocal⟩
    have hremote := exists_decodeOptional_iff.1 ⟨_, hremote⟩
    have hnone (hv : ¬ VersionKnown s.version) : s.rootKey = none := by
      refine Option.eq_none_iff_forall_not_mem.2 fun b hb => hv ?_
      exact (exists_decodeRootKey_iff.1 (exists_decodeOptional_iff.1 ⟨_, hrootKey⟩ b hb)).1
    refine returns_bind_iff.2 ⟨returns_decodeOptional_iff.2 fun c hc =>
      (returns_senderUnchecked_iff hP).2 fun hpair hcomplete => ?_, fun _ _ =>
        returns_bind_iff.2 ⟨(returns_receivers_iff hP _ _).2 fun hreceivers => ?_, fun _ _ => ?_⟩⟩
    · by_contra hv
      exact hno ⟨hv, hlocal, hremote, hnone hv, .inl ⟨c, hc, hpair, hcomplete⟩⟩
    · by_contra hv
      exact hno ⟨hv, hlocal, hremote, hnone hv, .inr hreceivers⟩
    · exact returns_bind_iff.2 ⟨returns_decodeOptional_iff.2 fun e _ => hP.exchange e,
        fun _ _ => returns_bind_iff.2 ⟨returns_decodeOptional_iff.2 fun k _ => hP.preKey k,
          fun _ _ => returns_bind_iff.2 ⟨hpoint _, fun _ _ => returns_ok _⟩⟩⟩

theorem pointKept_of_decode {field : Option B} {key : Option Pub}
    (h : decodeOptional P.decodePoint field = .ok key) : PointKept P field key :=
  (decodeOptional_ok h).2

/-- A decoded pair keeps its halves, and they are well formed, exactly if the pair is whole. -/
theorem pairKept_iff {a b : Option B} {pair : Option (EcKeyPair Priv Pub)}
    (h : decodeKeyPair P a b = .ok pair) :
    PairKept P a b pair ∧ PointSound P a ∧ PrivateSound P b ↔ PairWhole a b := by
  obtain ⟨hsome, hpair⟩ := decodeKeyPair_ok h
  constructor
  · rintro ⟨⟨ha, hb⟩, -⟩
    rw [PairWhole]
    match a, b with
    | none, none => rfl
    | some _, some _ => rfl
    | some x, none =>
      obtain ⟨k, hk, -⟩ := ha x rfl
      simp [Option.mem_def.1 hk] at hsome
    | none, some y =>
      obtain ⟨k, hk, -⟩ := hb y rfl
      simp [Option.mem_def.1 hk] at hsome
  · intro hwhole
    match a, b, hwhole with
    | none, none, _ => exact ⟨⟨nofun, nofun⟩, nofun, nofun⟩
    | some x, some y, _ =>
      obtain ⟨k, hk⟩ := Option.isSome_iff_exists.1 hsome
      obtain ⟨x, ⟨⟩, y, ⟨⟩, hx, hy⟩ := hpair k hk
      refine ⟨⟨?_, ?_⟩, ?_, ?_⟩
      · rintro _ ⟨⟩
        exact ⟨k, hk, hx⟩
      · rintro _ ⟨⟩
        exact ⟨k, hk, hy⟩
      · rintro _ ⟨⟩
        exact ⟨_, hx⟩
      · rintro _ ⟨⟩
        exact ⟨_, hy⟩

/-- A decoded chain key is kept, and has its length, exactly if it was stored whole. -/
theorem chainKeyKept_iff {version : UInt32} {field : Option (ChainKeyStructure B)}
    {chainKey : Option (RatchetChainKey B)} (h : decodeChainKey version field = .ok chainKey) :
    ChainKeyKept field chainKey ∧ (∀ c ∈ field, SecretSound P c.key) ↔ ChainKeyWhole P field := by
  constructor
  · rintro ⟨hkept, hsound⟩ c hc
    obtain ⟨k, -, rfl⟩ := hkept c hc
    obtain ⟨key, ⟨⟩, hlen⟩ := hsound _ hc _ rfl
    exact ⟨rfl, k.key, rfl, hlen⟩
  · intro hwhole
    refine ⟨fun c hc => ?_, fun c hc b hb => ?_⟩
    · obtain ⟨hi, key, hkey, -⟩ := hwhole c hc
      obtain ⟨index, hindex⟩ := Option.isSome_iff_exists.1 hi
      obtain ⟨index', key'⟩ := c
      subst hindex hkey
      rw [Option.mem_def.1 hc] at h
      obtain ⟨k, hk⟩ := Option.isSome_iff_exists.1 (decodeChainKey_whole h)
      refine ⟨k, hk, ?_⟩
      obtain ⟨-, hf⟩ := decodeChainKey_ok h k hk
      exact Option.some.inj hf
    · obtain ⟨-, key, hkey, hlen⟩ := hwhole c hc
      rw [hkey] at hb
      cases hb
      exact ⟨key, rfl, hlen⟩

/-- A skipped message key is kept, and has its lengths, exactly if it was stored whole. -/
theorem messageKey_kept_iff {m : MessageKeyStructure B} :
    m = (m.deserialize P).serialize ∧ m.Sound P ↔ m.Whole P := by
  constructor
  · rintro ⟨h, hc, hm, hi⟩
    obtain ⟨index, cipherKey, macKey, iv⟩ := m
    injection h with hindex hcipher hmac hiv
    exact ⟨by rw [hindex]; rfl, ⟨_, hcipher, hc _ hcipher⟩, ⟨_, hmac, hm _ hmac⟩,
      ⟨_, hiv, hi _ hiv⟩⟩
  · rintro ⟨hindex, ⟨a, ha, hla⟩, ⟨b, hb, hlb⟩, ⟨c, hc, hlc⟩⟩
    obtain ⟨index, cipherKey, macKey, iv⟩ := m
    obtain ⟨index, rfl⟩ := Option.isSome_iff_exists.1 hindex
    subst ha hb hc
    refine ⟨?_, ?_, ?_, ?_⟩
    · simp [MessageKeyStructure.deserialize, RatchetMessageKeys.serialize, decodeKeyArray, hla,
        hlb, hlc]
    · rintro _ ⟨⟩
      exact hla
    · rintro _ ⟨⟩
      exact hlb
    · rintro _ ⟨⟩
      exact hlc

theorem messageKeys_kept_iff {l : List (MessageKeyStructure B)} :
    l = (l.map (MessageKeyStructure.deserialize P)).map RatchetMessageKeys.serialize ∧
        (∀ m ∈ l, m.Sound P) ↔ ∀ m ∈ l, m.Whole P := by
  have hmap : l = (l.map (MessageKeyStructure.deserialize P)).map RatchetMessageKeys.serialize ↔
      ∀ m ∈ l, m = (m.deserialize P).serialize := by
    rw [List.map_map]
    conv_lhs => lhs; rw [← List.map_id l]
    exact List.map_inj_left
  rw [hmap, ← forall₂_and]
  exact forall₂_congr fun m _ => messageKey_kept_iff

theorem receiverKept_iff {version : UInt32} {c : ChainStructure B} {chain : ReceiverChain Pub B}
    (h : c.deserializeReceiver P version = .ok chain) :
    ReceiverKept P c chain ∧ c.Sound P ∧ (∀ m ∈ c.messageKeys, m.Sound P) ↔
      c.ReceiverWhole P := by
  obtain ⟨key, hk, h⟩ := Op.exists_of_bind_eq_ok h
  obtain ⟨chainKey, hc, h⟩ := Op.exists_of_bind_eq_ok h
  cases h
  constructor
  · rintro ⟨hkept, ⟨-, -, hsecret⟩, hsound⟩
    exact ⟨hkept.noPrivate, (chainKeyKept_iff hc).1 ⟨hkept.chainKey, hsecret⟩,
      messageKeys_kept_iff.1 ⟨hkept.messageKeys, hsound⟩⟩
  · intro hwhole
    obtain ⟨hchain, hsecret⟩ := (chainKeyKept_iff hc).2 hwhole.chainKey
    obtain ⟨hkeys, hsound⟩ := messageKeys_kept_iff.2 hwhole.messageKeys
    refine ⟨⟨pointKept_of_decode hk, hwhole.noPrivate, hchain, hkeys⟩,
      ⟨exists_decodeOptional_iff.1 ⟨_, hk⟩, ?_, hsecret⟩, hsound⟩
    rw [hwhole.noPrivate]
    exact nofun

theorem exchangeKept_iff {e : PendingKeyExchangeStructure B}
    {exchange : PendingKeyExchange Priv Pub}
    (h : e.deserialize P = .ok exchange) : ExchangeKept P e exchange ∧ e.Sound P ↔ e.Whole := by
  obtain ⟨base, hb, h⟩ := Op.exists_of_bind_eq_ok h
  obtain ⟨ratchet, hr, h⟩ := Op.exists_of_bind_eq_ok h
  obtain ⟨identity, hi, h⟩ := Op.exists_of_bind_eq_ok h
  cases h
  constructor
  · rintro ⟨hk, hs⟩
    exact ⟨(pairKept_iff hb).1 ⟨hk.base, hs.base, hs.basePrivate⟩,
      (pairKept_iff hr).1 ⟨hk.ratchet, hs.ratchet, hs.ratchetPrivate⟩,
      (pairKept_iff hi).1 ⟨hk.identity, hs.identity, hs.identityPrivate⟩⟩
  · intro hw
    obtain ⟨hb, hb₁, hb₂⟩ := (pairKept_iff hb).2 hw.base
    obtain ⟨hr, hr₁, hr₂⟩ := (pairKept_iff hr).2 hw.ratchet
    obtain ⟨hi, hi₁, hi₂⟩ := (pairKept_iff hi).2 hw.identity
    exact ⟨⟨hb, hr, hi⟩, hb₁, hb₂, hr₁, hr₂, hi₁, hi₂⟩

theorem ChainKeyWhole.accepted {version : UInt32} {field : Option (ChainKeyStructure B)}
    (h : ChainKeyWhole P field) (hv : VersionKnown version) : ChainKeyAccepted version field := by
  intro c hc _ b hb
  obtain ⟨-, key, hkey, -⟩ := h c hc
  rw [hkey] at hb
  cases hb
  exact ⟨hv, rfl⟩

/-- The sender chain is kept, can be used and is well formed exactly if it was stored whole:
here the decoder gives no sign, so nothing is left over from its success. -/
theorem senderKept_iff {version : UInt32} {c : ChainStructure B} {chain : SenderChain Priv Pub B}
    (h : c.deserializeSenderUnchecked P version = .ok chain) :
    SenderKept P c chain ∧
        (chain.senderRatchetKeyPair.isSome = true ∧ chain.chainKey.isSome = true) ∧ c.Sound P ↔
      c.SenderWhole P version := by
  constructor
  · rintro ⟨hkept, ⟨hpair, hchain⟩, hsound⟩
    rcases ChainStructure.deserializeSenderUnchecked_cases h with hd | rfl
    · obtain ⟨pair, hp, hd⟩ := Op.exists_of_bind_eq_ok hd
      obtain ⟨chainKey, hc, hd⟩ := Op.exists_of_bind_eq_ok hd
      cases hd
      obtain ⟨k, hk⟩ := Option.isSome_iff_exists.1 hpair
      obtain ⟨x, hx, y, hy, hdx, hdy⟩ := (decodeKeyPair_ok hp).2 k hk
      obtain ⟨ck, hck⟩ := Option.isSome_iff_exists.1 hchain
      obtain ⟨hv, hfield⟩ := decodeChainKey_ok hc ck hck
      exact ⟨⟨x, _, hx, hdx⟩, ⟨y, _, hy, hdy⟩, by rw [hfield]; rfl,
        (chainKeyKept_iff hc).1 ⟨hkept.2, hsound.2.2⟩, hv⟩
    · cases hpair
  · intro hw
    obtain ⟨x, kx, hx, hdx⟩ := hw.ratchetKey
    obtain ⟨y, ky, hy, hdy⟩ := hw.ratchetKeyPrivate
    obtain ⟨pair, hp⟩ : ∃ pair, decodeKeyPair P c.senderRatchetKey c.senderRatchetKeyPrivate =
        .ok pair := by
      refine exists_decodeKeyPair_iff.2 fun a ha b hb => ?_
      cases hx.symm.trans ha
      cases hy.symm.trans hb
      exact ⟨⟨kx, hdx⟩, ky, hdy⟩
    obtain ⟨chainKey, hc⟩ := exists_decodeChainKey_iff.2 (hw.chainKey.accepted hw.version)
    obtain rfl : chain = ⟨pair, chainKey⟩ := by
      rw [ChainStructure.deserializeSenderUnchecked, ChainStructure.deserializeSender, hp, hc] at h
      exact (Except.ok.inj h).symm
    have hwhole : PairWhole c.senderRatchetKey c.senderRatchetKeyPrivate := by
      rw [PairWhole, hx, hy]
      rfl
    obtain ⟨hkept, hpoint, hprivate⟩ := (pairKept_iff hp).2 hwhole
    obtain ⟨hchain, hsecret⟩ := (chainKeyKept_iff hc).2 hw.chainKey
    obtain ⟨ck, hck⟩ := Option.isSome_iff_exists.1 hw.present
    obtain ⟨k, hk, -⟩ := hchain ck hck
    refine ⟨⟨hkept, hchain⟩, ⟨?_, ?_⟩, hpoint, hprivate, hsecret⟩
    · rw [(decodeKeyPair_ok hp).1, hx, hy]
      rfl
    · rw [Option.mem_def.1 hk]
      rfl

/-- A property of two lists, element by element, next to one of the first list alone. -/
theorem forall₂_and_forall_iff {α β : Type} {R S : α → β → Prop} {p q : α → Prop} {l : List α}
    {l' : List β} (h : List.Forall₂ R l l') (hR : ∀ a b, R a b → (S a b ∧ p a ↔ q a)) :
    List.Forall₂ S l l' ∧ (∀ a ∈ l, p a) ↔ ∀ a ∈ l, q a := by
  induction h with
  | nil => simp
  | cons hab _ ih =>
    rw [List.forall₂_cons, List.forall_mem_cons, List.forall_mem_cons, ← ih, ← hR _ _ hab]
    tauto

/-- The same for two optional values. -/
theorem option_and_forall_iff {α β : Type} {decode : α → Except SgError β} {S : α → β → Prop}
    {p q : α → Prop} {o : Option α} {o' : Option β} (h : decodeOptional decode o = .ok o')
    (hR : ∀ a b, decode a = .ok b → (S a b ∧ p a ↔ q a)) :
    (∀ a ∈ o, ∃ b ∈ o', S a b) ∧ (∀ a ∈ o, p a) ↔ ∀ a ∈ o, q a := by
  cases o with
  | none => exact ⟨fun _ => nofun, fun _ => ⟨nofun, nofun⟩⟩
  | some a =>
    obtain ⟨b, hb, hab⟩ := (decodeOptional_ok h).2 a rfl
    rw [Option.mem_def.1 hb]
    simpa using hR a b hab

theorem rootKey_of_decode {version : UInt32} {b : Option B} {k : RatchetRootKey B}
    (h : decodeRootKey version b = .ok k) : b = some k.key := by
  obtain ⟨kdf, -, h⟩ := Op.exists_of_bind_eq_ok h
  obtain ⟨key, hkey, h⟩ := Op.exists_of_bind_eq_ok h
  cases h
  exact requirePointer_ok hkey

/-- **A loaded state has all keys of the message, and they are well formed, exactly if what the
decoder never checks is in order.** -/
theorem represented_iff (h : s.DecodesTo P state) :
    s.RepresentedBy P state ∧ state.SenderReady ∧ s.Sound P ↔ s.Unhidden P := by
  have hreceivers := forall₂_and_forall_iff (S := ReceiverKept P)
    (Op.mapM_ok_forall₂ h.receiverChains) fun _ _ hc => receiverKept_iff hc
  have hexchange := option_and_forall_iff (S := ExchangeKept P) h.pendingKeyExchange
    fun _ _ he => exchangeKept_iff he
  constructor
  · rintro ⟨hrep, hready, hsound⟩
    refine ⟨hsound.rootKey, fun c hc => ?_, hreceivers.1 ⟨hrep.receiverChains,
      hsound.receiverChains⟩, hexchange.1 ⟨hrep.pendingKeyExchange, hsound.pendingKeyExchange⟩⟩
    obtain ⟨chain, hload, hd⟩ := (decodeOptional_ok h.senderChain).2 c hc
    obtain ⟨chain', hchain, hkept⟩ := hrep.senderChain c hc
    cases hload.symm.trans hchain
    exact (senderKept_iff hd).1 ⟨hkept, hready _ hload, hsound.senderChain c hc⟩
  · intro hu
    obtain ⟨hrk, hrs⟩ := hreceivers.2 hu.receiverChains
    obtain ⟨hek, hes⟩ := hexchange.2 hu.pendingKeyExchange
    refine ⟨⟨pointKept_of_decode h.localIdentity, pointKept_of_decode h.remoteIdentity, ?_, ?_,
      hrk, hek, ?_, pointKept_of_decode h.aliceBaseKey⟩, ?_, ?_⟩
    · intro b hb
      obtain ⟨k, hk, hd⟩ := (decodeOptional_ok h.rootKey).2 b hb
      exact ⟨k, hk, rootKey_of_decode hd⟩
    · intro c hc
      obtain ⟨chain, hchain, hd⟩ := (decodeOptional_ok h.senderChain).2 c hc
      exact ⟨chain, hchain, ((senderKept_iff hd).2 (hu.senderChain c hc)).1⟩
    · intro k hk
      obtain ⟨preKey, hp, hd⟩ := (decodeOptional_ok h.pendingPreKey).2 k hk
      obtain ⟨baseKey, hb, hd⟩ := Op.exists_of_bind_eq_ok hd
      cases hd
      exact ⟨_, hp, pointKept_of_decode hb⟩
    · intro chain hchain
      obtain ⟨c, hc, hd⟩ := exists_of_decodeOptional h.senderChain hchain
      exact ((senderKept_iff hd).2 (hu.senderChain c hc)).2.1
    · exact {
        localIdentity := exists_decodeOptional_iff.1 ⟨_, h.localIdentity⟩
        remoteIdentity := exists_decodeOptional_iff.1 ⟨_, h.remoteIdentity⟩
        rootKey := hu.rootKey
        senderChain := fun c hc => by
          obtain ⟨chain, -, hd⟩ := (decodeOptional_ok h.senderChain).2 c hc
          exact ((senderKept_iff hd).2 (hu.senderChain c hc)).2.2
        receiverChains := hrs
        pendingKeyExchange := hes
        pendingPreKey := fun k hk => exists_preKey_deserialize_iff.1
          (exists_decodeOptional_iff.1 ⟨_, h.pendingPreKey⟩ k hk)
        aliceBaseKey := exists_decodeOptional_iff.1 ⟨_, h.aliceBaseKey⟩ }

theorem SessionStructure.DecodesTo.isSome_senderChain (h : s.DecodesTo P state) :
    state.senderChain.isSome = s.senderChain.isSome :=
  (decodeOptional_ok h.senderChain).1

/-- Loading either fails, or gives a state; nothing else happens. -/
theorem exists_error_of_forall {α : Type} {x : Except SgError α} (h : ∀ a, x ≠ .ok a) :
    ∃ e, x = .error e := by
  cases x with
  | ok a => exact absurd rfl (h a)
  | error e => exact ⟨e, rfl⟩

/-- **Loading a state hides nothing exactly where acceptance entails the unchecked parts**, and
no freed memory is used. -/
theorem hidesNothing_iff (hP : P.DecodersReturn) :
    s.HidesNothing P ↔ (s.Accepted P → s.Unhidden P) ∧ ¬ s.UsesFreed P := by
  constructor
  · refine fun h => ⟨fun haccepted => ?_, (returns_deserialize_iff hP).1 h.returns⟩
    obtain ⟨state, hs⟩ := (deserialize_ok_iff hP).2 haccepted
    have hd := decodesTo_of_deserialize hs
    have hsound : s.Sound P := by
      by_contra hno
      obtain ⟨e, he⟩ := h.refused hno
      cases hs.symm.trans he
    refine (represented_iff hd).1 ⟨h.represented state hs, fun chain hchain => ?_, hsound⟩
    have hsome : s.senderChain.isSome = true := by
      rw [← hd.isSome_senderChain, Option.mem_def.1 hchain]
      rfl
    exact (h.ready state hs hsome).2 chain hchain
  · rintro ⟨h, hfreed⟩
    have key : ∀ state, s.deserialize P = .ok state →
        s.RepresentedBy P state ∧ state.SenderReady ∧ s.Sound P := fun state hs =>
      (represented_iff (decodesTo_of_deserialize hs)).2
        (h ((deserialize_ok_iff hP).1 ⟨state, hs⟩))
    refine ⟨fun state hs => (key state hs).1, fun state hs hsome => ?_, fun hno => ?_,
      (returns_deserialize_iff hP).2 hfreed⟩
    · exact ⟨(decodesTo_of_deserialize hs).isSome_senderChain.trans hsome, (key state hs).2.1⟩
    · exact exists_error_of_forall fun state hs => hno (key state hs).2.2

end States

/-! ## 7. Records -/

section Records

variable {P : Provider Priv Pub B} {r : RecordStructure B} {record : SessionRecord Priv Pub B}

/-- Each state of a loaded record is a loaded state; a record without a current one gets an
empty one. -/
theorem record_of_deserialize (h : r.deserialize P = .ok record) :
    (∀ s ∈ r.currentSession, s.deserialize P = .ok record.state) ∧
      (r.currentSession = none → record.state = SessionState.create) ∧
      List.Forall₂ (fun s state => s.deserialize P = .ok state) r.previousSessions
        record.previousStates := by
  obtain ⟨current, hc, h⟩ := Op.exists_of_bind_eq_ok h
  obtain ⟨previous, hp, h⟩ := Op.exists_of_bind_eq_ok h
  cases h
  refine ⟨fun s hs => ?_, fun hnone => ?_, Op.mapM_ok_forall₂ hp⟩
  · obtain ⟨state, hstate, hd⟩ := (decodeOptional_ok hc).2 s hs
    rw [Option.mem_def.1 hstate]
    exact hd
  · rw [hnone] at hc
    cases hc
    rfl

theorem record_ok_iff (hP : P.DecodersReturn) :
    (∃ record, r.deserialize P = .ok record) ↔ ∀ s ∈ r.sessions, s.Accepted P := by
  have hsessions : (∀ s ∈ r.sessions, s.Accepted P) ↔
      (∀ s ∈ r.currentSession, s.Accepted P) ∧ ∀ s ∈ r.previousSessions, s.Accepted P := by
    simp only [RecordStructure.sessions, List.forall_mem_append, Option.mem_toList,
      Option.mem_def]
  rw [hsessions]
  constructor
  · rintro ⟨record, h⟩
    obtain ⟨current, hc, h⟩ := Op.exists_of_bind_eq_ok h
    obtain ⟨previous, hp, -⟩ := Op.exists_of_bind_eq_ok h
    exact ⟨fun s hs => (deserialize_ok_iff hP).1 (exists_decodeOptional_iff.1 ⟨current, hc⟩ s hs),
      fun s hs => (deserialize_ok_iff hP).1 (exists_mapM_iff.1 ⟨previous, hp⟩ s hs)⟩
  · rintro ⟨hc, hp⟩
    obtain ⟨current, hc⟩ := exists_decodeOptional_iff.2 fun s hs =>
      (deserialize_ok_iff hP).2 (hc s hs)
    obtain ⟨previous, hp⟩ := exists_mapM_iff.2 fun s hs => (deserialize_ok_iff hP).2 (hp s hs)
    exact ⟨_, by rw [RecordStructure.deserialize, hc, hp]; rfl⟩

theorem senderReady_create : (SessionState.create : SessionState Priv Pub B).SenderReady := by
  intro chain hchain
  cases hchain

/-- The current state of a record, which the message may lack. -/
theorem current_represented_iff {current : Option (SessionStructure B)}
    {state : SessionState Priv Pub B}
    (hcurrent : ∀ s ∈ current, s.deserialize P = .ok state)
    (hempty : current = none → state = SessionState.create) :
    (∀ s ∈ current, s.RepresentedBy P state) ∧ state.SenderReady ∧ (∀ s ∈ current, s.Sound P) ↔
      ∀ s ∈ current, s.Unhidden P := by
  cases current with
  | none =>
    rw [hempty rfl]
    simp [senderReady_create]
  | some s =>
    simpa using represented_iff (decodesTo_of_deserialize (hcurrent s rfl))

/-- A property of two lists, element by element, with one of the second list alone. -/
theorem forall₂_and_right_iff {α β : Type} {S : α → β → Prop} {p : β → Prop} {l : List α}
    {l' : List β} :
    List.Forall₂ (fun a b => S a b ∧ p b) l l' ↔ List.Forall₂ S l l' ∧ ∀ b ∈ l', p b := by
  constructor
  · intro h
    induction h with
    | nil => simp
    | cons hab _ ih =>
      rw [List.forall₂_cons, List.forall_mem_cons]
      exact ⟨⟨hab.1, ih.1⟩, hab.2, ih.2⟩
  · rintro ⟨h, hp⟩
    induction h with
    | nil => exact .nil
    | cons hab _ ih =>
      rw [List.forall_mem_cons] at hp
      exact .cons ⟨hab, hp.1⟩ (ih hp.2)

/-- **A loaded record has all keys of its message exactly if each of its states does.** -/
theorem record_represented_iff (h : r.deserialize P = .ok record) :
    ((∀ s ∈ r.currentSession, s.RepresentedBy P record.state) ∧
        List.Forall₂ (SessionStructure.RepresentedBy P) r.previousSessions
          record.previousStates) ∧
      (∀ state ∈ record.states, state.SenderReady) ∧ (∀ s ∈ r.sessions, s.Sound P) ↔
        ∀ s ∈ r.sessions, s.Unhidden P := by
  obtain ⟨hcurrent, hempty, hprevious⟩ := record_of_deserialize h
  have hfront := current_represented_iff hcurrent hempty
  have hrest : List.Forall₂ (fun s state => s.RepresentedBy P state ∧ state.SenderReady)
      r.previousSessions record.previousStates ∧ (∀ s ∈ r.previousSessions, s.Sound P) ↔
        ∀ s ∈ r.previousSessions, s.Unhidden P :=
    forall₂_and_forall_iff hprevious fun s state hs => by
      rw [and_assoc]
      exact represented_iff (decodesTo_of_deserialize hs)
  simp only [RecordStructure.sessions, SessionRecord.states, List.forall_mem_append,
    Option.mem_toList, Option.mem_def, List.forall_mem_cons] at hfront hrest ⊢
  rw [← hfront, ← hrest, forall₂_and_right_iff]
  tauto

theorem returns_sessions_iff (hP : P.DecodersReturn) :
    ∀ sessions : List (SessionStructure B),
      Returning (sessions.mapM (SessionStructure.deserialize P)) ↔ ¬ SessionsUseFreed P sessions
  | [] => ⟨fun _ h => h, fun _ => returns_ok _⟩
  | s :: sessions => by
    rw [returns_mapM_cons_iff, returns_deserialize_iff hP, deserialize_ok_iff hP,
      returns_sessions_iff hP sessions, SessionsUseFreed]
    tauto

theorem returns_record_iff (hP : P.DecodersReturn) :
    Returning (r.deserialize P) ↔ ¬ SessionsUseFreed P r.sessions := by
  have hparts : Returning (r.deserialize P) ↔
      Returning (decodeOptional (SessionStructure.deserialize P) r.currentSession) ∧
        ((∃ current, decodeOptional (SessionStructure.deserialize P) r.currentSession =
          .ok current) → Returning (r.previousSessions.mapM (SessionStructure.deserialize P))) := by
    rw [RecordStructure.deserialize, returns_bind_iff, forall_exists_index]
    refine and_congr_right fun _ => forall₂_congr fun _ _ => ?_
    rw [returns_bind_iff]
    exact and_iff_left fun _ _ => returns_ok _
  rw [hparts, returns_decodeOptional_iff, exists_decodeOptional_iff, ← returns_sessions_iff hP,
    RecordStructure.sessions]
  cases r.currentSession with
  | none => simp
  | some s =>
    rw [Option.toList_some, List.cons_append, List.nil_append, returns_mapM_cons_iff]
    simp

theorem record_hidesNothing_iff (hP : P.DecodersReturn) :
    r.HidesNothing P ↔
      ((∀ s ∈ r.sessions, s.Accepted P) → ∀ s ∈ r.sessions, s.Unhidden P) ∧
        ¬ SessionsUseFreed P r.sessions := by
  constructor
  · refine fun h => ⟨fun haccepted => ?_, (returns_record_iff hP).1 h.returns⟩
    obtain ⟨record, hr⟩ := (record_ok_iff hP).2 haccepted
    refine (record_represented_iff hr).1 ⟨h.represented record hr, h.ready record hr, ?_⟩
    intro s hs
    by_contra hno
    obtain ⟨e, he⟩ := h.refused ⟨s, hs, hno⟩
    cases hr.symm.trans he
  · rintro ⟨h, hfreed⟩
    have key := fun (record : SessionRecord Priv Pub B) (hr : r.deserialize P = .ok record) =>
      (record_represented_iff hr).2 (h ((record_ok_iff hP).1 ⟨record, hr⟩))
    refine ⟨fun record hr => (key record hr).1, fun record hr => (key record hr).2.1, ?_,
      (returns_record_iff hP).2 hfreed⟩
    rintro ⟨s, hs, hno⟩
    exact exists_error_of_forall fun record hr => hno ((key record hr).2.2 s hs)

/-- **Exactly which stored messages are loaded without hiding corruption**, for a state and for
a record: those on which no freed memory is used and which are either refused, or have a sender
chain, secret lengths, key pairs, chain keys and skipped message keys that are whole. -/
theorem loading_hides_nothing_iff (P : Provider Priv Pub B) (hP : P.DecodersReturn)
    (s : SessionStructure B) (r : RecordStructure B) :
    (s.HidesNothing P ↔ (s.Accepted P → s.Unhidden P) ∧ ¬ s.UsesFreed P) ∧
      (r.HidesNothing P ↔
        ((∀ s ∈ r.sessions, s.Accepted P) → ∀ s ∈ r.sessions, s.Unhidden P) ∧
          ¬ SessionsUseFreed P r.sessions) :=
  ⟨hidesNothing_iff hP, record_hidesNothing_iff hP⟩

theorem symbolic_decodersReturn : symbolic.DecodersReturn where
  point b := by
    cases b <;> rintro e ⟨⟩ <;> exact ⟨nofun, nofun⟩
  privateKey b := by
    cases b <;> rintro e ⟨⟩ <;> exact ⟨nofun, nofun⟩

/-- A stored state of version 4, whose receiver chain has a chain key. -/
def laterVersion : SessionStructure Term where
  sessionVersion := some 4
  localIdentityPublic := some (.point 1)
  remoteIdentityPublic := some (.point 2)
  rootKey := none
  previousCounter := some 0
  senderChain := none
  receiverChains :=
    [{ senderRatchetKey := some (.point 3)
       senderRatchetKeyPrivate := none
       chainKey := some ⟨some 5, some (some (.bytes 8 32))⟩
       messageKeys := [] }]
  pendingKeyExchange := none
  pendingPreKey := none
  remoteRegistrationId := some 0
  localRegistrationId := some 0
  needsRefresh := some false
  aliceBaseKey := none

theorem laterVersion_usesFreed : laterVersion.UsesFreed symbolic where
  version := by
    rintro (h | h) <;> cases h
  localIdentity := by
    rintro b ⟨⟩
    exact ⟨1, rfl⟩
  remoteIdentity := by
    rintro b ⟨⟩
    exact ⟨2, rfl⟩
  rootKey := rfl
  chain := by
    refine .inr ⟨?_, .inl ⟨_, rfl, rfl, rfl⟩⟩
    rintro b ⟨⟩
    exact ⟨3, rfl⟩

/-- The decoder does not return on it, nor on a record that holds it. -/
theorem loading_hides_nothing_iff_laterVersion :
    laterVersion.deserialize symbolic = .error .invalidAccess ∧
      ¬ laterVersion.HidesNothing symbolic ∧
      ¬ (⟨some laterVersion, []⟩ : RecordStructure Term).HidesNothing symbolic := by
  obtain ⟨hstate, hrecord⟩ := loading_hides_nothing_iff symbolic symbolic_decodersReturn
    laterVersion ⟨some laterVersion, []⟩
  exact ⟨rfl, fun h => (hstate.1 h).2 laterVersion_usesFreed,
    fun h => (hrecord.1 h).2 (.inl laterVersion_usesFreed)⟩

/-- A stored state whose sender chain has a private key of the wrong length; everything else
is in order. -/
def cutSenderChain : SessionStructure Term where
  sessionVersion := some 3
  localIdentityPublic := some (.point 1)
  remoteIdentityPublic := some (.point 2)
  rootKey := some (some (.bytes 7 32))
  previousCounter := some 0
  senderChain := some
    { senderRatchetKey := some (.point 3)
      senderRatchetKeyPrivate := some (.bytes 9 31)
      chainKey := some ⟨some 5, some (some (.bytes 8 32))⟩
      messageKeys := [] }
  receiverChains := []
  pendingKeyExchange := none
  pendingPreKey := none
  remoteRegistrationId := some 0
  localRegistrationId := some 0
  needsRefresh := some false
  aliceBaseKey := none

/-- **A cut sender chain is loaded as an empty one**: the call succeeds, and both the ratchet
key pair and the chain key of the message are gone. -/
theorem cut_sender_chain_loaded :
    (∃ state, cutSenderChain.deserialize symbolic = .ok state ∧
      state.senderChain = some ⟨none, none⟩) ∧
      ¬ cutSenderChain.HidesNothing symbolic ∧
      ¬ (⟨some cutSenderChain, []⟩ : RecordStructure Term).HidesNothing symbolic := by
  have hstate : ∃ state, cutSenderChain.deserialize symbolic = .ok state ∧
      state.senderChain = some ⟨none, none⟩ := ⟨_, rfl, rfl⟩
  refine ⟨hstate, fun h => ?_, fun h => ?_⟩
  · obtain ⟨state, hs, hchain⟩ := hstate
    have hready := (h.ready state hs rfl).2 _ hchain
    cases hready.1
  · have hready := h.ready _ rfl _ (List.mem_cons_self ..) _ rfl
    cases hready.1

end Records

end SignalProtocol
