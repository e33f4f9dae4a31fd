/-
# The bytes of what a party stores

`StorageFormat` reads a record back from its bytes if no key in it is empty and the bytes are not
too many.  Both hold of every record that the library comes to store.

* section 1: the sizes of the keys in a state are rules that the derivations respect
  (`storedRules_closed`), and so are the limits on chains and skipped keys;
* section 2: a struct with such keys within such limits has less than 100 MB, less than half of
  what protobuf-c is sure to read;
* section 3: hence after any history of calls, for any number of addresses, what is stored gives
  the record back from its bytes (`sessionRecord_stored_bytes`).
-/
import SignalProtocol.StorageFormat
import SignalProtocol.WellFormed

namespace SignalProtocol

open Wire

variable {Addr Priv Pub : Type}

/-! ## 1. The sizes of keys -/

/-- Root and chain keys of 32 bytes under the key derivation of the version, message keys of 32,
32 and 16 bytes, five receiver chains and 2000 skipped keys in each. -/
def storedRules : KeyRules Bytes where
  rootKey version k := hkdfCreate version = .ok k.kdf ∧ k.key.length = 32
  chainKey version k := hkdfCreate version = .ok k.kdf ∧ k.key.length = 32
  messageKeys k := k.cipherKey.length = 32 ∧ k.macKey.length = 32 ∧ k.iv.length = 16
  chains := maxReceiverChains
  skipped := maxMessageKeys

section Rules

variable {P : ByteProvider Priv Pub} {state : SessionState Priv Pub Bytes}

theorem SessionState.Obeys.readable (h : state.Obeys storedRules) :
    state.Readable P.toProvider where
  rootKey k hk := (h.rootKey k hk).1
  senderChain c hc k hk := (h.senderChain c hc k hk).1
  receiverChains c hc k hk := ((h.receiverChains c hc).chainKey k hk).1
  messageKeys c hc k hk := by
    obtain ⟨hcipher, hmac, hiv⟩ := (h.receiverChains c hc).messageKeys k hk
    rw [← P.len_eq] at hcipher hmac hiv
    exact RatchetMessageKeys.deserialize_serialize ⟨hcipher, hmac, hiv⟩

theorem SessionState.Obeys.filled (h : state.Obeys storedRules) : state.Filled := by
  have hne : ∀ key : Bytes, key.length = 32 → key ≠ [] := by
    rintro _ hlen rfl
    cases hlen
  exact ⟨fun k hk => hne _ (h.rootKey k hk).2, fun c hc k hk => hne _ (h.senderChain c hc k hk).2,
    fun c hc k hk => hne _ ((h.receiverChains c hc).chainKey k hk).2⟩

/-- **The derivations respect the sizes.** -/
theorem storedRules_closed (P : ByteProvider Priv Pub) : storedRules.Closed P.toProvider := by
  have hderived : ∀ kdf ikm salt info n off l,
      (P.hkdfDeriveSecrets kdf ikm salt info n off l).length = l := by
    intros
    rw [← P.len_eq, P.len_hkdfDeriveSecrets]
  exact {
    initial := fun _ => ⟨⟨rfl, hderived ..⟩, rfl, hderived ..⟩
    createChain := fun h _ _ => ⟨⟨h.1, hderived ..⟩, h.1, hderived ..⟩
    createNext := fun h => ⟨h.1, P.length_hmacSha256 ..⟩
    getMessageKeys := fun _ => ⟨hderived .., hderived .., hderived ..⟩
    chains := le_rfl
    skipped := le_rfl
    copy := fun h hcopy => by
      rw [h.readable.copy] at hcopy
      cases hcopy
      exact h }

end Rules

/-! ## 2. The sizes of structs -/

/-- At most 33 bytes, the length of a serialized public key. -/
def ShortBytes (o : Option Bytes) : Prop := ∀ b ∈ o, b.length ≤ 33

theorem ShortBytes.length_pack_le {o : Option Bytes} (h : ShortBytes o) (number : Fin 16) :
    (Wire.pack (optional bytesCodec number o)).length ≤ 44 :=
  length_pack_optional_le (k := 33) (by decide) fun b hb => h b hb

theorem length_pack_uint32_le (number : Fin 16) (o : Option UInt32) :
    (Wire.pack (optional uint32Codec number o)).length ≤ 11 :=
  length_pack_optional_le (k := 0) (by decide) fun _ _ => le_rfl

/-- A field that holds a key which must not be null. -/
theorem length_pack_pointer_le (number : Fin 16) {o : Option (Option Bytes)}
    (h : ∀ key ∈ o, ShortBytes key) :
    (Wire.pack (optional pointerCodec number o)).length ≤ 44 := by
  refine length_pack_optional_le (k := 33) (by decide) fun key hkey => ?_
  cases key with
  | none => exact Nat.zero_le _
  | some b => exact h _ hkey b rfl

/-- The key is short. -/
def ChainKeyStructure.Short (m : ChainKeyStructure Bytes) : Prop := ∀ key ∈ m.key, ShortBytes key

theorem ChainKeyStructure.Short.length_pack_le {m : ChainKeyStructure Bytes} (h : m.Short) :
    m.pack.length ≤ 55 := by
  have hindex := length_pack_uint32_le 1 m.index
  have hkey := length_pack_pointer_le 2 h
  simp only [pack, fields, pack_append, List.length_append]
  omega

/-- The three keys are short. -/
structure MessageKeyStructure.Short (m : MessageKeyStructure Bytes) : Prop where
  cipherKey : ShortBytes m.cipherKey
  macKey : ShortBytes m.macKey
  iv : ShortBytes m.iv

theorem MessageKeyStructure.Short.length_pack_le {m : MessageKeyStructure Bytes} (h : m.Short) :
    m.pack.length ≤ 143 := by
  have hindex := length_pack_uint32_le 1 m.index
  have hcipher := h.cipherKey.length_pack_le 2
  have hmac := h.macKey.length_pack_le 3
  have hiv := h.iv.length_pack_le 4
  simp only [pack, fields, pack_append, List.length_append]
  omega

/-- The keys are short and the skipped ones at most 2000. -/
structure ChainStructure.Short (m : ChainStructure Bytes) : Prop where
  senderRatchetKey : ShortBytes m.senderRatchetKey
  senderRatchetKeyPrivate : ShortBytes m.senderRatchetKeyPrivate
  chainKey : ∀ k ∈ m.chainKey, k.Short
  messageKeys : ∀ k ∈ m.messageKeys, k.Short
  length : m.messageKeys.length ≤ 2000

theorem ChainStructure.Short.length_pack_le {m : ChainStructure Bytes} (h : m.Short) :
    m.pack.length ≤ 308154 := by
  have hpublic := h.senderRatchetKey.length_pack_le 1
  have hprivate := h.senderRatchetKeyPrivate.length_pack_le 2
  have hkey : (Wire.pack (optional chainKeyCodec 3 m.chainKey)).length ≤ 11 + 55 :=
    length_pack_optional_le (by decide) fun k hk => (h.chainKey k hk).length_pack_le
  have hkeys : (Wire.pack (repeated messageKeyCodec 4 m.messageKeys)).length ≤
      m.messageKeys.length * (11 + 143) :=
    length_pack_repeated_le (by decide) fun k hk => (h.messageKeys k hk).length_pack_le
  have hcount := Nat.mul_le_mul_right (11 + 143) h.length
  simp only [pack, fields, pack_append, List.length_append]
  omega

/-- The six halves of key pairs are short. -/
structure PendingKeyExchangeStructure.Short (m : PendingKeyExchangeStructure Bytes) : Prop where
  base : ShortBytes m.localBaseKey
  basePrivate : ShortBytes m.localBaseKeyPrivate
  ratchet : ShortBytes m.localRatchetKey
  ratchetPrivate : ShortBytes m.localRatchetKeyPrivate
  identity : ShortBytes m.localIdentityKey
  identityPrivate : ShortBytes m.localIdentityKeyPrivate

theorem PendingKeyExchangeStructure.Short.length_pack_le {m : PendingKeyExchangeStructure Bytes}
    (h : m.Short) : m.pack.length ≤ 275 := by
  have hsequence := length_pack_uint32_le 1 m.sequence
  have hbase := h.base.length_pack_le 2
  have hbasePrivate := h.basePrivate.length_pack_le 3
  have hratchet := h.ratchet.length_pack_le 4
  have hratchetPrivate := h.ratchetPrivate.length_pack_le 5
  have hidentity := h.identity.length_pack_le 7
  have hidentityPrivate := h.identityPrivate.length_pack_le 8
  simp only [pack, fields, pack_append, List.length_append]
  omega

theorem PendingPreKeyStructure.length_pack_le {m : PendingPreKeyStructure Bytes}
    (h : ShortBytes m.baseKey) : m.pack.length ≤ 66 := by
  have hpreKey := length_pack_uint32_le 1 m.preKeyId
  have hbase := h.length_pack_le 2
  have hsigned : (Wire.pack (optional int32Codec 3 m.signedPreKeyId)).length ≤ 11 :=
    length_pack_optional_le (k := 0) (by decide) fun _ _ => le_rfl
  simp only [pack, fields, pack_append, List.length_append]
  omega

/-- The keys are short and the receiver chains at most five. -/
structure SessionStructure.Short (m : SessionStructure Bytes) : Prop where
  localIdentity : ShortBytes m.localIdentityPublic
  remoteIdentity : ShortBytes m.remoteIdentityPublic
  rootKey : ∀ key ∈ m.rootKey, ShortBytes key
  senderChain : ∀ c ∈ m.senderChain, c.Short
  receiverChains : ∀ c ∈ m.receiverChains, c.Short
  length : m.receiverChains.length ≤ 5
  pendingKeyExchange : ∀ e ∈ m.pendingKeyExchange, e.Short
  pendingPreKey : ∀ k ∈ m.pendingPreKey, ShortBytes k.baseKey
  aliceBaseKey : ShortBytes m.aliceBaseKey

theorem SessionStructure.Short.length_pack_le {m : SessionStructure Bytes} (h : m.Short) :
    m.pack.length ≤ 1849584 := by
  have h1 := length_pack_uint32_le 1 m.sessionVersion
  have h2 := h.localIdentity.length_pack_le 2
  have h3 := h.remoteIdentity.length_pack_le 3
  have h4 := length_pack_pointer_le 4 h.rootKey
  have h5 := length_pack_uint32_le 5 m.previousCounter
  have h6 : (Wire.pack (optional chainCodec 6 m.senderChain)).length ≤ 11 + 308154 :=
    length_pack_optional_le (by decide) fun c hc => (h.senderChain c hc).length_pack_le
  have h7 : (Wire.pack (repeated chainCodec 7 m.receiverChains)).length ≤
      m.receiverChains.length * (11 + 308154) :=
    length_pack_repeated_le (by decide) fun c hc => (h.receiverChains c hc).length_pack_le
  have hcount := Nat.mul_le_mul_right (11 + 308154) h.length
  have h8 : (Wire.pack (optional pendingKeyExchangeCodec 8 m.pendingKeyExchange)).length ≤
      11 + 275 :=
    length_pack_optional_le (by decide) fun e he => (h.pendingKeyExchange e he).length_pack_le
  have h9 : (Wire.pack (optional pendingPreKeyCodec 9 m.pendingPreKey)).length ≤ 11 + 66 :=
    length_pack_optional_le (by decide) fun k hk =>
      PendingPreKeyStructure.length_pack_le (h.pendingPreKey k hk)
  have h10 := length_pack_uint32_le 10 m.remoteRegistrationId
  have h11 := length_pack_uint32_le 11 m.localRegistrationId
  have h12 : (Wire.pack (optional boolCodec 12 m.needsRefresh)).length ≤ 11 :=
    length_pack_optional_le (k := 0) (by decide) fun _ _ => le_rfl
  have h13 := h.aliceBaseKey.length_pack_le 13
  simp only [pack, fields, pack_append, List.length_append]
  omega

/-- **A record with 40 archived states of this size is within the limits of protobuf-c.** -/
theorem RecordStructure.length_pack_le {m : RecordStructure Bytes}
    (hcurrent : ∀ s ∈ m.currentSession, s.Short) (hprevious : ∀ s ∈ m.previousSessions, s.Short)
    (hlength : m.previousSessions.length ≤ 40) : m.pack.length ≤ safeLen := by
  have h1 : (Wire.pack (optional sessionCodec 1 m.currentSession)).length ≤ 11 + 1849584 :=
    length_pack_optional_le (by decide) fun s hs => (hcurrent s hs).length_pack_le
  have h2 : (Wire.pack (repeated sessionCodec 2 m.previousSessions)).length ≤
      m.previousSessions.length * (11 + 1849584) :=
    length_pack_repeated_le (by decide) fun s hs => (hprevious s hs).length_pack_le
  have hcount := Nat.mul_le_mul_right (11 + 1849584) hlength
  have hsafe : 41 * (11 + 1849584) ≤ safeLen := by decide
  simp only [pack, fields, pack_append, List.length_append]
  omega

section Short

variable {P : ByteProvider Priv Pub}

theorem shortBytes_map {α : Type} {f : α → Bytes} {o : Option α}
    (h : ∀ a ∈ o, (f a).length ≤ 33) : ShortBytes (o.map f) := by
  intro b hb
  obtain ⟨a, ha, rfl⟩ := Option.map_eq_some_iff.1 hb
  exact h a ha

theorem shortBytes_point (o : Option Pub) : ShortBytes (o.map P.encodePoint) :=
  shortBytes_map fun key _ => (P.length_encodePoint key).le

theorem shortBytes_publicKey (o : Option (EcKeyPair Priv Pub)) :
    ShortBytes (o.map fun k => P.encodePoint k.publicKey) :=
  shortBytes_map fun k _ => (P.length_encodePoint k.publicKey).le

section Private

variable (hprivate : ∀ key, (P.encodePrivate key).length = 32)
include hprivate

theorem shortBytes_privateKey (o : Option (EcKeyPair Priv Pub)) :
    ShortBytes (o.map fun k => P.encodePrivate k.privateKey) :=
  shortBytes_map fun k _ => by
    rw [hprivate]
    exact Nat.le_add_right 32 1

/-- **The struct of a state whose keys have their sizes.** -/
theorem SessionState.Obeys.short {state : SessionState Priv Pub Bytes}
    (h : state.Obeys storedRules) : (state.serialize P.toProvider).Short := by
  have hkey : ∀ {version : UInt32} {k : RatchetChainKey Bytes}, storedRules.chainKey version k →
      k.serialize.Short := by
    rintro version k ⟨-, hlen⟩ _ ⟨⟩ _ ⟨⟩
    exact hlen.le.trans (Nat.le_add_right 32 1)
  refine {
    localIdentity := shortBytes_point _
    remoteIdentity := shortBytes_point _
    rootKey := fun key hmem => ?_
    senderChain := fun c hc => ?_
    receiverChains := fun c hc => ?_
    length := ?_
    pendingKeyExchange := fun e he => ?_
    pendingPreKey := fun k hk => ?_
    aliceBaseKey := shortBytes_point _ }
  · obtain ⟨k, hk, rfl⟩ := Option.map_eq_some_iff.1 hmem
    rintro _ ⟨⟩
    exact (h.rootKey k hk).2.le.trans (Nat.le_add_right 32 1)
  · obtain ⟨chain, hchain, rfl⟩ := Option.map_eq_some_iff.1 hc
    refine ⟨shortBytes_publicKey _, shortBytes_privateKey hprivate _, fun k hk => ?_,
      fun k hk => absurd hk List.not_mem_nil, Nat.zero_le _⟩
    obtain ⟨k, hmem, rfl⟩ := Option.map_eq_some_iff.1 hk
    exact hkey (h.senderChain chain hchain k hmem)
  · obtain ⟨chain, hchain, rfl⟩ := List.mem_map.1 hc
    obtain ⟨hchainKey, hkeys, hcount⟩ := h.receiverChains chain hchain
    refine ⟨shortBytes_point _, fun _ => nofun, fun k hk => ?_, fun k hk => ?_, ?_⟩
    · obtain ⟨k, hmem, rfl⟩ := Option.map_eq_some_iff.1 hk
      exact hkey (hchainKey k hmem)
    · obtain ⟨k, hmem, rfl⟩ := List.mem_map.1 hk
      obtain ⟨hcipher, hmac, hiv⟩ := hkeys k hmem
      refine ⟨?_, ?_, ?_⟩ <;> rintro _ ⟨⟩ <;> omega
    · have hcount' : chain.messageKeys.length ≤ maxMessageKeys := Nat.cast_le.1 hcount
      rw [ReceiverChain.serialize, List.length_map]
      unfold maxMessageKeys at hcount'
      exact hcount'
  · rw [SessionState.serialize, List.length_map]
    exact Nat.cast_le.1 h.chains
  · obtain ⟨exchange, -, rfl⟩ := Option.map_eq_some_iff.1 he
    exact ⟨shortBytes_publicKey _, shortBytes_privateKey hprivate _, shortBytes_publicKey _,
      shortBytes_privateKey hprivate _, shortBytes_publicKey _, shortBytes_privateKey hprivate _⟩
  · obtain ⟨preKey, -, rfl⟩ := Option.map_eq_some_iff.1 hk
    exact shortBytes_point _

/-- **A record that obeys the rules is read back from its bytes.** -/
theorem SessionRecord.Obeys.deserializeBytes {record : SessionRecord Priv Pub Bytes}
    (h : record.Obeys storedRules)
    (hlength : record.previousStates.length ≤ archivedStatesMaxLength) :
    sessionRecordDeserialize P.toProvider (sessionRecordSerialize P.toProvider record) =
      .ok { record with isFresh := false } := by
  refine sessionRecordDeserialize_serialize (fun state hs => (h state hs).readable)
    (fun state hs => (h state hs).filled) (RecordStructure.length_pack_le ?_ ?_ ?_)
  · rintro _ ⟨⟩
    exact (h _ List.mem_cons_self).short hprivate
  · intro s hs
    obtain ⟨state, hstate, rfl⟩ := List.mem_map.1 hs
    exact (h state (List.mem_cons_of_mem _ hstate)).short hprivate
  · rw [SessionRecord.serialize, List.length_map]
    exact hlength

end Private

end Short

/-! ## 3. Histories -/

/-- A record as it is stored: its keys have their sizes, and at most 40 states are archived. -/
structure Filed (record : SessionRecord Priv Pub Bytes) : Prop where
  obeys : record.Obeys storedRules
  length : record.previousStates.length ≤ archivedStatesMaxLength

section History

variable {P : ByteProvider Priv Pub} {ctx : SignalContext Addr Priv Pub Bytes}
  {w : World Addr Priv Pub Bytes} {record : SessionRecord Priv Pub Bytes}

theorem Filed.readable (hP : ctx.provider = P.toProvider) (h : Filed record) :
    record.Readable ctx.provider := fun state hs => by
  rw [hP]
  exact (h.obeys state hs).readable

/-- What is loaded from a store of filed records is filed. -/
theorem World.All.filed (hP : ctx.provider = P.toProvider) (h : w.All ctx Filed) {address : Addr}
    (hr : w.record ctx.provider address = .ok record) : Filed record := by
  rcases record_cases hr with ⟨-, rfl⟩ | ⟨-, stored, hstored, hread⟩
  · exact ⟨SessionRecord.obeys_create _, Nat.zero_le _⟩
  · obtain ⟨record₀, rfl, hfiled⟩ := h address stored hstored
    rw [(hfiled.readable hP).deserialize] at hread
    cases hread
    exact ⟨hfiled.obeys, hfiled.length⟩

variable [LinearOrder Pub]

/-- Every change files a record if it loaded one. -/
theorem Filed.change (hP : ctx.provider = P.toProvider) {c : Call Addr Priv Pub Bytes}
    {r : Except SgError (Reply Pub Bytes)} {record' : SessionRecord Priv Pub Bytes}
    {saved : Option Pub} {used : Option UInt32} {n : Nat} (h : Filed record)
    (hc : Change ctx w record c r record' saved used n) : Filed record' :=
  ⟨Change.obeys (hP ▸ storedRules_closed P) h.obeys hc, hc.length_le h.length⟩

variable [DecidableEq Addr]

theorem filed_step (hP : ctx.provider = P.toProvider) {a : Action Addr Priv Pub Bytes}
    (hw : w.All ctx Filed) (hs : (a.step ctx w).Atomic) : (a.step ctx w).after.All ctx Filed := by
  cases a with
  | call c =>
    rcases hrun : c.run ctx w with ⟨r, w'⟩
    rw [Action.step_call hrun] at hs ⊢
    exact (Call.run_outcome (hs c rfl) hrun).all hw (fun _ h => h) fun hr hchange _ =>
      (hw.filed hP hr).change hP hchange
  | storePreKey preKeyId keyPair => exact hw
  | replaceIdentity address identityKey => exact hw

/-- **Every record that a party comes to store is read back from its bytes.**  From an empty
session store, in any history of calls on any messages for any number of addresses, the record
that a step loads or stores is given back by its bytes, no longer fresh; and the bytes of whatever
the session store then holds are read as the record that is loaded from it. -/
theorem sessionRecord_stored_bytes (hP : ctx.provider = P.toProvider)
    (hprivate : ∀ key, (P.encodePrivate key).length = 32)
    (hw : ∀ address, w.sessions address = none) (actions : List (Action Addr Priv Pub Bytes))
    (hs : ∀ s ∈ history ctx actions w, s.Atomic) :
    ∀ s ∈ history ctx actions w,
      (∀ record, s.Handles ctx record →
        sessionRecordDeserialize ctx.provider (sessionRecordSerialize ctx.provider record) =
          .ok { record with isFresh := false }) ∧
      ∀ address stored, s.after.sessions address = some stored →
        ∃ record, s.after.record ctx.provider address = .ok record ∧
          sessionRecordDeserialize ctx.provider stored.pack = .ok record := by
  intro s hmem
  obtain ⟨hbefore, hafter, -⟩ := history_invariant (G := fun s => s.Atomic)
    (I := fun w => w.All ctx Filed) (fun _ _ hfiled hatomic => filed_step hP hfiled hatomic)
    actions w (fun address stored h => by rw [hw] at h; cases h) hs s hmem
  have hback : ∀ {record : SessionRecord Priv Pub Bytes}, Filed record →
      sessionRecordDeserialize ctx.provider (sessionRecordSerialize ctx.provider record) =
        .ok { record with isFresh := false } := by
    intro record hfiled
    rw [hP]
    exact hfiled.obeys.deserializeBytes hprivate hfiled.length
  refine ⟨fun record hhandles => hback ?_, fun address stored hstored => ?_⟩
  · cases hhandles with
    | loaded h => exact hbefore.filed hP h
    | stored hc hr h => exact (hbefore.filed hP hr).change hP h
  · have hrecord := record_of_sessions (P := ctx.provider) hstored
    obtain ⟨record, rfl, hfiled⟩ := hafter address stored hstored
    exact ⟨_, hrecord.trans (hfiled.readable hP).deserialize, hback hfiled⟩

end History

/-- A party whose keys are bytes. -/
def plainContext : SignalContext Nat PlainKey PlainKey Bytes where
  provider := plainProvider.toProvider
  rng :=
    { privateKey := fun n => .ok (plainKey (UInt8.ofNat (100 + n)))
      word := fun n => .ok (UInt32.ofNat n)
      signatureRandom := fun _ => .ok (List.replicate 64 0) }
  trusted _ _ _ := true

/-- Its store, without sessions. -/
def plainStore : World Nat PlainKey PlainKey Bytes where
  sessions _ := none
  preKeys _ := none
  signedPreKeys _ := none
  identityKeyPair := ⟨plainKey 1, plainKey 1⟩
  localRegistrationId := 5
  identities _ := none
  drawn := 0

/-- The bundle of a peer with identity 3 and signed pre key 4. -/
def plainBundle : PreKeyBundle PlainKey Bytes where
  registrationId := 6
  preKeyId := 0
  preKeyPublic := none
  signedPreKeyId := 3
  signedPreKeyPublic := some (plainKey 4)
  signedPreKeySignature := some (plainProvider.calculateSignature (plainKey 3)
    (plainProvider.encodePoint (plainKey 4)) [])
  identityKey := some (plainKey 3)

/-- A session, a message, and the offer of a key exchange. -/
def plainActions : List (Action Nat PlainKey PlainKey Bytes) :=
  [.call (.processPreKeyBundle 0 plainBundle), .call (.encrypt (.create 0) [7]),
    .call (.process 0)]

theorem history_plainActions_ne_nil : history plainContext plainActions plainStore ≠ [] :=
  List.cons_ne_nil _ _

/-- The last of the calls. -/
def plainLast : Step Nat PlainKey PlainKey Bytes :=
  (history plainContext plainActions plainStore).getLast history_plainActions_ne_nil

/-- In the end the record carries the offer, and its bytes are read as what is loaded. -/
theorem sessionRecord_stored_bytes_plain :
    ∃ stored, plainLast.after.sessions 0 = some stored ∧
      ∃ record, plainLast.after.record plainProvider.toProvider 0 = .ok record ∧
        sessionRecordDeserialize plainProvider.toProvider stored.pack = .ok record ∧
        (record.state.pendingKeyExchange).isSome = true := by
  have hatomic : ∀ a ∈ plainActions, ∀ c, a = .call c → c.Atomic := by
    simp only [plainActions, List.forall_mem_cons, Action.call.injEq, forall_eq']
    exact ⟨trivial, SessionCipher.passive_create 0, trivial, nofun⟩
  have hoffer : (plainLast.after.record plainProvider.toProvider 0).toOption.map
      (fun record : SessionRecord PlainKey PlainKey Bytes =>
        (record.state.pendingKeyExchange).isSome) = some true := by
    decide +kernel
  have hstored : (plainLast.after.sessions 0).isSome = true := by decide +kernel
  obtain ⟨stored, hstored⟩ := Option.isSome_iff_exists.1 hstored
  obtain ⟨record, hrecord, hbytes⟩ := (sessionRecord_stored_bytes (P := plainProvider) rfl
    (fun key => key.2) (fun _ => rfl) plainActions
    (fun s hs => hatomic _ (action_mem_of_history hs)) plainLast (List.getLast_mem _)).2
    0 stored hstored
  rw [show plainLast.after.record plainProvider.toProvider 0 = .ok record from hrecord] at hoffer
  exact ⟨stored, hstored, record, hrecord, hbytes, Option.some.inj hoffer⟩

end SignalProtocol
