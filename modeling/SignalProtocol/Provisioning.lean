/-
# Installing a client

At install time a client makes its keys (README, "Client install time"):

    signal_protocol_key_helper_generate_identity_key_pair(&identity_key_pair, global_context);
    signal_protocol_key_helper_generate_registration_id(&registration_id, 0, global_context);
    signal_protocol_key_helper_generate_pre_keys(&pre_keys_head, start_id, 100, global_context);
    signal_protocol_key_helper_generate_last_resort_pre_key(&last_resort_key, global_context);
    signal_protocol_key_helper_generate_signed_pre_key(&signed_pre_key, ..., global_context);

and stores them as bytes.  Peers see the public halves in a bundle.  Much later a message names
some of the ids, and the keys are loaded from their bytes.

`installed_establishment` says that this works from end to end: whichever of the pre keys a
bundle names, a party that trusts the identity accepts the bundle, the store still holds the
keys it names, and the messages that follow set up one session.  It needs that the ids of the
pre keys do not wrap around within the list, since a key stored under the id of another one
takes its place.
-/
import SignalProtocol.Bundles
import SignalProtocol.Establishment
import SignalProtocol.KeyHelper
import SignalProtocol.StoredBytes

namespace SignalProtocol

open Wire

variable {Addr Priv Pub : Type}

/-! ## 1. Key records in bytes -/

/-- `Textsecure__PreKeyRecordStructure`. -/
structure PreKeyRecordStructure where
  id : Option UInt32
  publicKey : Option Bytes
  privateKey : Option Bytes

namespace PreKeyRecordStructure

/-- The fields in the order of their numbers. -/
def fields (m : PreKeyRecordStructure) : List Field :=
  optional uint32Codec 1 m.id ++ optional bytesCodec 2 m.publicKey ++
    optional bytesCodec 3 m.privateKey

/-- `textsecure__pre_key_record_structure__pack`. -/
def pack (m : PreKeyRecordStructure) : Bytes := Wire.pack m.fields

/-- A member, parsed. -/
def parseMember (m : PreKeyRecordStructure) (f : Member) : Except Fault PreKeyRecordStructure := do
  match f.tag with
  | 1 => return { m with id := some (← uint32Codec.read f) }
  | 2 => return { m with publicKey := some (← bytesCodec.read f) }
  | 3 => return { m with privateKey := some (← bytesCodec.read f) }
  | _ => return m

/-- `textsecure__pre_key_record_structure__unpack`. -/
def unpack (data : Bytes) : Except Fault PreKeyRecordStructure :=
  unpackMessage protobufC parseMember ⟨none, none, none⟩ data

theorem unpack_pack {m : PreKeyRecordStructure} (hlen : m.pack.length ≤ safeLen) :
    unpack m.pack = .ok m := by
  refine unpackMessage_pack (allows_of_length hlen) ?_
  refine ((Reads.optional (mk · none none) ?_).append (.optional (mk m.id · none) ?_)).append
    (.optional (mk m.id m.publicKey ·) ?_)
  all_goals
    intro f h
    simp [parseMember, h]

theorem length_pack_le {m : PreKeyRecordStructure} (hpublic : ShortBytes m.publicKey)
    (hprivate : ShortBytes m.privateKey) : m.pack.length ≤ 99 := by
  have hid := length_pack_uint32_le 1 m.id
  have hpublic := hpublic.length_pack_le 2
  have hprivate := hprivate.length_pack_le 3
  simp only [pack, fields, pack_append, List.length_append]
  omega

end PreKeyRecordStructure

/-- `Textsecure__SignedPreKeyRecordStructure`; the signature with its pointer. -/
structure SignedPreKeyRecordStructure where
  id : Option UInt32
  publicKey : Option Bytes
  privateKey : Option Bytes
  signature : Option (Option Bytes)
  timestamp : Option UInt64

namespace SignedPreKeyRecordStructure

/-- The fields in the order of their numbers. -/
def fields (m : SignedPreKeyRecordStructure) : List Field :=
  optional uint32Codec 1 m.id ++ optional bytesCodec 2 m.publicKey ++
    optional bytesCodec 3 m.privateKey ++ optional pointerCodec 4 m.signature ++
    optional fixed64Codec 5 m.timestamp

/-- `textsecure__signed_pre_key_record_structure__pack`. -/
def pack (m : SignedPreKeyRecordStructure) : Bytes := Wire.pack m.fields

/-- A member, parsed. -/
def parseMember (m : SignedPreKeyRecordStructure) (f : Member) :
    Except Fault SignedPreKeyRecordStructure := do
  match f.tag with
  | 1 => return { m with id := some (← uint32Codec.read f) }
  | 2 => return { m with publicKey := some (← bytesCodec.read f) }
  | 3 => return { m with privateKey := some (← bytesCodec.read f) }
  | 4 => return { m with signature := some (← pointerCodec.read f) }
  | 5 => return { m with timestamp := some (← fixed64Codec.read f) }
  | _ => return m

/-- `textsecure__signed_pre_key_record_structure__unpack`. -/
def unpack (data : Bytes) : Except Fault SignedPreKeyRecordStructure :=
  unpackMessage protobufC parseMember ⟨none, none, none, none, none⟩ data

theorem unpack_pack {m : SignedPreKeyRecordStructure} (h : ∀ b ∈ m.signature, b ≠ some [])
    (hlen : m.pack.length ≤ safeLen) : unpack m.pack = .ok m := by
  refine unpackMessage_pack (allows_of_length hlen) ?_
  refine ((((Reads.optional (mk · none none none none) ?_).append
    (.optional (mk m.id · none none none) ?_)).append
    (.optional (mk m.id m.publicKey · none none) ?_)).append
    (.optional_of (fun b hb => pointerCodec_keeps (h b hb))
      (mk m.id m.publicKey m.privateKey · none) ?_)).append
    (.optional (mk m.id m.publicKey m.privateKey m.signature ·) ?_)
  all_goals
    intro f h
    simp [parseMember, h]

theorem length_pack_le {m : SignedPreKeyRecordStructure} (hpublic : ShortBytes m.publicKey)
    (hprivate : ShortBytes m.privateKey)
    (hsignature : ∀ b ∈ m.signature, (pointerCodec.write b).run ≤ 64) : m.pack.length ≤ 185 := by
  have hid := length_pack_uint32_le 1 m.id
  have hpublic := hpublic.length_pack_le 2
  have hprivate := hprivate.length_pack_le 3
  have hsignature : (Wire.pack (optional pointerCodec 4 m.signature)).length ≤ 11 + 64 :=
    length_pack_optional_le (by decide) hsignature
  have htimestamp : (Wire.pack (optional fixed64Codec 5 m.timestamp)).length ≤ 11 + 0 :=
    length_pack_optional_le (by decide) fun _ _ => le_rfl
  simp only [pack, fields, pack_append, List.length_append]
  omega

end SignedPreKeyRecordStructure

section Records

variable (P : Provider Priv Pub Bytes)

/-- `session_pre_key_serialize`. -/
def sessionPreKeySerialize (preKey : SessionPreKey Priv Pub) : Bytes :=
  PreKeyRecordStructure.pack ⟨some preKey.id, some (P.encodePoint preKey.keyPair.publicKey),
    some (P.encodePrivate preKey.keyPair.privateKey)⟩

/-- `session_pre_key_deserialize`. -/
def sessionPreKeyDeserialize (data : Bytes) : Except SgError (SessionPreKey Priv Pub) :=
  match PreKeyRecordStructure.unpack data with
  | .error fault => .error (faultCode fault)
  | .ok ⟨some id, some publicKey, some privateKey⟩ => do
    let publicKey ← P.decodePoint publicKey
    let privateKey ← P.decodePrivate privateKey
    return ⟨id, publicKey, privateKey⟩
  | .ok _ => .error .invalidKey

/-- `session_signed_pre_key`: there are no keys without a signature. -/
structure SessionSignedPreKey (Priv Pub : Type) where
  id : UInt32
  keyPair : EcKeyPair Priv Pub
  timestamp : UInt64
  signature : Bytes
  signature_ne : signature ≠ []

/-- `session_signed_pre_key_create`.  Without a signature an assertion fails. -/
def sessionSignedPreKeyCreate (id : UInt32) (timestamp : UInt64) (keyPair : EcKeyPair Priv Pub)
    (signature : Option Bytes) : Except SgError (SessionSignedPreKey Priv Pub) :=
  match signature with
  | some (x :: signature) => .ok ⟨id, keyPair, timestamp, x :: signature, List.cons_ne_nil _ _⟩
  | _ => .error .nullDereference

/-- `session_signed_pre_key_serialize`. -/
def sessionSignedPreKeySerialize (preKey : SessionSignedPreKey Priv Pub) : Bytes :=
  SignedPreKeyRecordStructure.pack ⟨some preKey.id,
    some (P.encodePoint preKey.keyPair.publicKey),
    some (P.encodePrivate preKey.keyPair.privateKey), some (some preKey.signature),
    some preKey.timestamp⟩

/-- `session_signed_pre_key_deserialize`. -/
def sessionSignedPreKeyDeserialize (data : Bytes) :
    Except SgError (SessionSignedPreKey Priv Pub) :=
  match SignedPreKeyRecordStructure.unpack data with
  | .error fault => .error (faultCode fault)
  | .ok ⟨some id, some publicKey, some privateKey, some signature, some timestamp⟩ => do
    let publicKey ← P.decodePoint publicKey
    let privateKey ← P.decodePrivate privateKey
    sessionSignedPreKeyCreate id timestamp ⟨publicKey, privateKey⟩ signature
  | .ok _ => .error .invalidKey

end Records

section ReadBack

variable {P : ByteProvider Priv Pub} (hprivate : ∀ key, (P.encodePrivate key).length = 32)
include hprivate

theorem sessionPreKeyDeserialize_serialize (preKey : SessionPreKey Priv Pub) :
    sessionPreKeyDeserialize P.toProvider (sessionPreKeySerialize P.toProvider preKey) =
      .ok preKey := by
  have hlen : (sessionPreKeySerialize P.toProvider preKey).length ≤ safeLen :=
    Nat.le_trans (PreKeyRecordStructure.length_pack_le (shortBytes_publicKey (some preKey.keyPair))
      (shortBytes_privateKey hprivate (some preKey.keyPair))) (by decide)
  rw [sessionPreKeyDeserialize, sessionPreKeySerialize, PreKeyRecordStructure.unpack_pack hlen]
  simp only [P.decodePoint_encodePoint, P.decodePrivate_encodePrivate]
  rfl

theorem sessionSignedPreKeyDeserialize_serialize {preKey : SessionSignedPreKey Priv Pub}
    (hsignature : preKey.signature.length ≤ 64) :
    sessionSignedPreKeyDeserialize P.toProvider
      (sessionSignedPreKeySerialize P.toProvider preKey) = .ok preKey := by
  have hlen : (sessionSignedPreKeySerialize P.toProvider preKey).length ≤ safeLen := by
    refine Nat.le_trans (SignedPreKeyRecordStructure.length_pack_le
      (shortBytes_publicKey (some preKey.keyPair))
      (shortBytes_privateKey hprivate (some preKey.keyPair)) ?_) (by decide)
    rintro _ ⟨⟩
    exact hsignature
  rw [sessionSignedPreKeyDeserialize, sessionSignedPreKeySerialize,
    SignedPreKeyRecordStructure.unpack_pack ?_ hlen]
  · obtain ⟨id, keyPair, timestamp, signature, hne⟩ := preKey
    simp only [P.decodePoint_encodePoint, P.decodePrivate_encodePrivate]
    cases signature with
    | nil => exact absurd rfl hne
    | cons x signature => rfl
  · rintro _ ⟨⟩ he
    exact preKey.signature_ne (Option.some.inj he)

end ReadBack

/-! ## 2. Making keys -/

section KeyHelper

variable (P : Provider Priv Pub Bytes) (rng : Rng Priv Bytes)

/-- `signal_protocol_key_helper_generate_identity_key_pair`. -/
def signalProtocolKeyHelperGenerateIdentityKeyPair : Op SgError Nat (EcKeyPair Priv Pub) :=
  curveGenerateKeyPair P rng

/-- `signal_protocol_key_helper_generate_registration_id`. -/
def signalProtocolKeyHelperGenerateRegistrationId (extendedRange : Int) : Op SgError Nat UInt32 :=
  if extendedRange = 0 then do
    let value ← draw rng.word
    return value % 16380 + 1
  else if extendedRange = 1 then do
    let value ← draw rng.word
    return value % (0x7FFFFFFF - 1) + 1
  else Op.fail .inval

/-- `signal_protocol_key_helper_generate_last_resort_pre_key`. -/
def signalProtocolKeyHelperGenerateLastResortPreKey : Op SgError Nat (SessionPreKey Priv Pub) := do
  let keyPair ← curveGenerateKeyPair P rng
  return ⟨preKeyMediumMaxValue, keyPair⟩

/-- `signal_protocol_key_helper_generate_signed_pre_key`. -/
def signalProtocolKeyHelperGenerateSignedPreKey (identityKeyPair : EcKeyPair Priv Pub)
    (signedPreKeyId : UInt32) (timestamp : UInt64) :
    Op SgError Nat (SessionSignedPreKey Priv Pub) := do
  let keyPair ← curveGenerateKeyPair P rng
  let signature ← curveCalculateSignature P rng identityKeyPair.privateKey
    (P.encodePoint keyPair.publicKey)
  Op.ofExcept (sessionSignedPreKeyCreate signedPreKeyId timestamp keyPair (some signature))

/-- What a client has made at install time. -/
structure Installation (Priv Pub : Type) where
  identityKeyPair : EcKeyPair Priv Pub
  registrationId : UInt32
  preKeys : List (SessionPreKey Priv Pub)
  lastResort : SessionPreKey Priv Pub
  signedPreKey : SessionSignedPreKey Priv Pub

/-- **The calls at install time.** -/
def install (start count signedPreKeyId : UInt32) (timestamp : UInt64) :
    Op SgError Nat (Installation Priv Pub) := do
  let identityKeyPair ← signalProtocolKeyHelperGenerateIdentityKeyPair P rng
  let registrationId ← signalProtocolKeyHelperGenerateRegistrationId rng 0
  let preKeys ← signalProtocolKeyHelperGeneratePreKeys P rng start count
  let lastResort ← signalProtocolKeyHelperGenerateLastResortPreKey P rng
  let signedPreKey ←
    signalProtocolKeyHelperGenerateSignedPreKey P rng identityKeyPair signedPreKeyId timestamp
  return ⟨identityKeyPair, registrationId, preKeys, lastResort, signedPreKey⟩

end KeyHelper

/-! ## 3. Storing and loading them -/

/-- What the stores hold of the client's own keys. -/
structure KeyFiles where
  identityPublic : Bytes
  identityPrivate : Bytes
  registrationId : UInt32
  preKeys : UInt32 → Option Bytes
  signedPreKeys : UInt32 → Option Bytes

section Files

variable (P : Provider Priv Pub Bytes)

/-- `signal_protocol_pre_key_store_key`. -/
def KeyFiles.preKeyStoreKey (files : KeyFiles) (preKey : SessionPreKey Priv Pub) : KeyFiles :=
  { files with
    preKeys := Function.update files.preKeys preKey.id (some (sessionPreKeySerialize P preKey)) }

/-- `signal_protocol_signed_pre_key_store_key`. -/
def KeyFiles.signedPreKeyStoreKey (files : KeyFiles)
    (preKey : SessionSignedPreKey Priv Pub) : KeyFiles :=
  { files with
    signedPreKeys := Function.update files.signedPreKeys preKey.id
      (some (sessionSignedPreKeySerialize P preKey)) }

/-- `signal_protocol_pre_key_load_key`. -/
def KeyFiles.preKeyLoadKey (files : KeyFiles) (id : UInt32) :
    Except SgError (SessionPreKey Priv Pub) :=
  match files.preKeys id with
  | none => .error .invalidKeyId
  | some data => sessionPreKeyDeserialize P data

/-- `signal_protocol_signed_pre_key_load_key`. -/
def KeyFiles.signedPreKeyLoadKey (files : KeyFiles) (id : UInt32) :
    Except SgError (SessionSignedPreKey Priv Pub) :=
  match files.signedPreKeys id with
  | none => .error .invalidKeyId
  | some data => sessionSignedPreKeyDeserialize P data

/-- `signal_protocol_identity_get_key_pair`. -/
def KeyFiles.identityGetKeyPair (files : KeyFiles) : Except SgError (EcKeyPair Priv Pub) := do
  let publicKey ← P.decodePoint files.identityPublic
  let privateKey ← P.decodePrivate files.identityPrivate
  return ⟨publicKey, privateKey⟩

/-- Everything is stored, the one-time pre keys in their order. -/
def Installation.files (inst : Installation Priv Pub) : KeyFiles :=
  let files : KeyFiles := ⟨P.encodePoint inst.identityKeyPair.publicKey,
    P.encodePrivate inst.identityKeyPair.privateKey, inst.registrationId, fun _ => none,
    fun _ => none⟩
  let files := inst.preKeys.foldl (KeyFiles.preKeyStoreKey P) files
  let files := KeyFiles.preKeyStoreKey P files inst.lastResort
  KeyFiles.signedPreKeyStoreKey P files inst.signedPreKey

/-- **The stores of the model are those of the bytes.** -/
structure KeyFiles.OpensAs (files : KeyFiles) (w : World Addr Priv Pub Bytes) : Prop where
  identity : KeyFiles.identityGetKeyPair P files = .ok w.identityKeyPair
  registrationId : w.localRegistrationId = files.registrationId
  preKeys : ∀ id, w.preKeys id =
    (KeyFiles.preKeyLoadKey P files id).toOption.map SessionPreKey.keyPair
  signedPreKeys : ∀ id, w.signedPreKeys id =
    (KeyFiles.signedPreKeyLoadKey P files id).toOption.map SessionSignedPreKey.keyPair

/-- **The bundle that a peer is given**, with or without a one-time pre key. -/
def Installation.bundle (inst : Installation Priv Pub) (preKey : Option (SessionPreKey Priv Pub)) :
    PreKeyBundle Pub Bytes :=
  sessionPreKeyBundleCreate P inst.registrationId ((preKey.map SessionPreKey.id).getD 0)
    (preKey.map fun preKey => preKey.keyPair.publicKey) inst.signedPreKey.id
    (some inst.signedPreKey.keyPair.publicKey) (some inst.signedPreKey.signature)
    (some inst.identityKeyPair.publicKey)

/-! A stored key is loaded until another one is stored under its id. -/

variable {P}

theorem KeyFiles.preKeyLoadKey_store_of_ne (files : KeyFiles) (preKey : SessionPreKey Priv Pub)
    {id : UInt32} (h : id ≠ preKey.id) :
    (files.preKeyStoreKey P preKey).preKeyLoadKey P id = files.preKeyLoadKey P id := by
  simp only [preKeyLoadKey, preKeyStoreKey, Function.update_of_ne h]

theorem KeyFiles.preKeyLoadKey_storeAll_of_notMem {keys : List (SessionPreKey Priv Pub)}
    {id : UInt32} (h : id ∉ keys.map SessionPreKey.id) (files : KeyFiles) :
    (keys.foldl (preKeyStoreKey P) files).preKeyLoadKey P id = files.preKeyLoadKey P id := by
  induction keys generalizing files with
  | nil => rfl
  | cons key keys ih =>
    rw [List.map_cons, List.mem_cons, not_or] at h
    rw [List.foldl_cons, ih h.2, preKeyLoadKey_store_of_ne _ _ h.1]

/-- Storing pre keys leaves the rest. -/
theorem KeyFiles.storeAll_rest (keys : List (SessionPreKey Priv Pub)) (files : KeyFiles) :
    (keys.foldl (preKeyStoreKey P) files).identityPublic = files.identityPublic ∧
      (keys.foldl (preKeyStoreKey P) files).identityPrivate = files.identityPrivate := by
  induction keys generalizing files with
  | nil => exact ⟨rfl, rfl⟩
  | cons key keys ih => exact ih _

end Files

section Loading

variable {P : ByteProvider Priv Pub} (hprivate : ∀ key, (P.encodePrivate key).length = 32)
include hprivate

theorem KeyFiles.preKeyLoadKey_store_self (files : KeyFiles) (preKey : SessionPreKey Priv Pub) :
    (files.preKeyStoreKey P.toProvider preKey).preKeyLoadKey P.toProvider preKey.id =
      .ok preKey := by
  simp only [preKeyLoadKey, preKeyStoreKey, Function.update_self,
    sessionPreKeyDeserialize_serialize hprivate]

/-- **Keys with different ids do not disturb each other.** -/
theorem KeyFiles.preKeyLoadKey_storeAll {keys : List (SessionPreKey Priv Pub)}
    (hnodup : (keys.map SessionPreKey.id).Nodup) {key : SessionPreKey Priv Pub} (hkey : key ∈ keys)
    (files : KeyFiles) :
    (keys.foldl (preKeyStoreKey P.toProvider) files).preKeyLoadKey P.toProvider key.id =
      .ok key := by
  induction keys generalizing files with
  | nil => cases hkey
  | cons first keys ih =>
    rw [List.map_cons, List.nodup_cons] at hnodup
    rw [List.foldl_cons]
    rcases List.mem_cons.1 hkey with rfl | hkey
    · rw [preKeyLoadKey_storeAll_of_notMem hnodup.1, preKeyLoadKey_store_self hprivate]
    · exact ih hnodup.2 hkey _

end Loading

/-! ## 4. What an installation is -/

/-- **The keys belong together**: every pair is a pair, the pre keys have the ids of the list, and
the signed pre key is signed by the identity. -/
structure Installation.Valid (P : Provider Priv Pub Bytes) (start count signedPreKeyId : UInt32)
    (inst : Installation Priv Pub) : Prop where
  identity : inst.identityKeyPair.Matched P
  ids : inst.preKeys.map SessionPreKey.id = preKeyIds (start - 1) count.toNat
  preKeys : ∀ key ∈ inst.preKeys, key.keyPair.Matched P
  lastResort : inst.lastResort.id = preKeyMediumMaxValue ∧ inst.lastResort.keyPair.Matched P
  signedPreKey : inst.signedPreKey.id = signedPreKeyId ∧ inst.signedPreKey.keyPair.Matched P
  signature : ∃ random, inst.signedPreKey.signature = P.calculateSignature
    inst.identityKeyPair.privateKey (P.encodePoint inst.signedPreKey.keyPair.publicKey) random

/-- Every random draw succeeds. -/
structure Rng.Supplies (rng : Rng Priv Bytes) : Prop where
  privateKey : ∀ n, ∃ k, rng.privateKey n = .ok k
  word : ∀ n, ∃ v, rng.word n = .ok v
  signatureRandom : ∀ n, ∃ r, rng.signatureRandom n = .ok r

section Install

variable {P : Provider Priv Pub Bytes} {rng : Rng Priv Bytes}

/-- The loop makes pairs. -/
theorem generatePreKeysFrom_matched {startIndex count : UInt32} {rounds : Nat} {i : UInt32}
    {n n' : Nat} {keys : List (SessionPreKey Priv Pub)}
    (h : generatePreKeysFrom P rng startIndex count rounds i n = (.ok keys, n')) :
    ∀ key ∈ keys, key.keyPair.Matched P := by
  induction rounds generalizing i n keys with
  | zero =>
    cases h
    exact fun key hkey => absurd hkey List.not_mem_nil
  | succ rounds ih =>
    rw [generatePreKeysFrom] at h
    split at h
    · obtain ⟨pair, _, hpair, h⟩ := Op.bind_ok_iff.1 h
      obtain ⟨rest, _, hrest, h⟩ := Op.bind_ok_iff.1 h
      cases h
      obtain ⟨k, _, -, hk⟩ := Op.bind_ok_iff.1 hpair
      cases hk
      exact List.forall_mem_cons.2 ⟨rfl, ih hrest⟩
    · cases h
      exact fun key hkey => absurd hkey List.not_mem_nil

/-- A signature has bytes, so the signed pre key is created. -/
theorem generateSignedPreKey_ok (P : ByteProvider Priv Pub) (h : rng.Supplies)
    (identityKeyPair : EcKeyPair Priv Pub) (signedPreKeyId : UInt32) (timestamp : UInt64)
    (n : Nat) :
    ∃ key, signalProtocolKeyHelperGenerateSignedPreKey P.toProvider rng identityKeyPair
        signedPreKeyId timestamp n = (.ok key, n + 2) ∧
      (key.id = signedPreKeyId ∧ key.keyPair.Matched P.toProvider) ∧
      ∃ random, key.signature = P.calculateSignature identityKeyPair.privateKey
        (P.encodePoint key.keyPair.publicKey) random := by
  obtain ⟨k, hk⟩ := h.privateKey n
  obtain ⟨random, hrandom⟩ := h.signatureRandom (n + 1)
  have hsign : ∀ message, curveCalculateSignature P.toProvider rng identityKeyPair.privateKey
      message (n + 1) =
        (.ok (P.calculateSignature identityKeyPair.privateKey message random), n + 2) :=
    fun message => Op.bind_of_ok (by rw [draw, hrandom])
  have hlen : (P.calculateSignature identityKeyPair.privateKey
      (P.encodePoint (P.toProvider.pair k).publicKey) random).length = 64 := by
    rw [← P.len_eq, P.len_calculateSignature]
  rw [signalProtocolKeyHelperGenerateSignedPreKey, Op.bind_of_ok (curveGenerateKeyPair_of_ok hk),
    Op.bind_of_ok (hsign _)]
  cases hs : P.calculateSignature identityKeyPair.privateKey
      (P.encodePoint (P.toProvider.pair k).publicKey) random with
  | nil =>
    rw [hs] at hlen
    cases hlen
  | cons x signature => exact ⟨_, rfl, ⟨rfl, rfl⟩, random, hs.symm⟩

/-- **Installing gives keys that belong together.** -/
theorem install_ok (P : ByteProvider Priv Pub) (h : rng.Supplies)
    (start count signedPreKeyId : UInt32) (timestamp : UInt64) (n : Nat) :
    ∃ inst n', install P.toProvider rng start count signedPreKeyId timestamp n = (.ok inst, n') ∧
      inst.Valid P.toProvider start count signedPreKeyId := by
  obtain ⟨identity, hidentity⟩ := h.privateKey n
  obtain ⟨v, hv⟩ := h.word (n + 1)
  obtain ⟨keys, hkeys, hids⟩ := generatePreKeysFrom_ok (P := P.toProvider) h.privateKey (start - 1)
    count count.toNat 0 (n + 2) (Nat.zero_add _)
  obtain ⟨last, hlast⟩ := h.privateKey (n + 2 + count.toNat)
  obtain ⟨signedPreKey, hsigned, hpair, hsignature⟩ := generateSignedPreKey_ok P h
    (P.toProvider.pair identity) signedPreKeyId timestamp (n + 2 + count.toNat + 1)
  have hregistration : signalProtocolKeyHelperGenerateRegistrationId rng 0 (n + 1) =
      (.ok (v % 16380 + 1), n + 2) := Op.bind_of_ok (by rw [draw, hv])
  have hlastResort : signalProtocolKeyHelperGenerateLastResortPreKey P.toProvider rng
      (n + 2 + count.toNat) =
        (.ok ⟨preKeyMediumMaxValue, P.toProvider.pair last⟩, n + 2 + count.toNat + 1) :=
    Op.bind_of_ok (curveGenerateKeyPair_of_ok hlast)
  refine ⟨⟨P.toProvider.pair identity, v % 16380 + 1, keys,
    ⟨preKeyMediumMaxValue, P.toProvider.pair last⟩, signedPreKey⟩, n + 2 + count.toNat + 1 + 2, ?_,
    rfl, ?_,
    generatePreKeysFrom_matched hkeys, ⟨rfl, rfl⟩, hpair, hsignature⟩
  · rw [install, signalProtocolKeyHelperGenerateIdentityKeyPair,
      Op.bind_of_ok (curveGenerateKeyPair_of_ok hidentity), Op.bind_of_ok hregistration,
      signalProtocolKeyHelperGeneratePreKeys, Op.bind_of_ok hkeys, Op.bind_of_ok hlastResort,
      Op.bind_of_ok hsigned]
    rfl
  · rw [hids, preKeyIds]
    refine List.map_congr_left fun j _ => ?_
    rw [show (0 : UInt32).toNat = 0 from rfl, Nat.zero_add]

end Install

/-! ## 5. From the installation to the first messages -/

section Establishment

variable {P : ByteProvider Priv Pub} {inst : Installation Priv Pub}
  {start count signedPreKeyId : UInt32}

/-- The key may be named in a bundle. -/
def Installation.Has (inst : Installation Priv Pub) (key : SessionPreKey Priv Pub) : Prop :=
  key ∈ inst.preKeys ∨ key = inst.lastResort

/-- The ids of the one-time pre keys are different, and not that of the last resort. -/
theorem Installation.Valid.ids_nodup (h : inst.Valid P.toProvider start count signedPreKeyId)
    (hcount : count ≤ 0xFFFFFE) (hwrap : (start - 1).toNat + count.toNat ≤ 2 ^ 32) :
    (inst.preKeys.map SessionPreKey.id).Nodup ∧
      inst.lastResort.id ∉ inst.preKeys.map SessionPreKey.id := by
  have hrun := (circularRun_preKeyIds_iff start (UInt32.le_iff_toNat_le.1 hcount)).2 hwrap
  rw [h.ids, h.lastResort.1]
  exact ⟨hrun.nodup, fun hmem => absurd (hrun.range _ hmem).2 (by decide)⟩

/-- The signature has 64 bytes. -/
theorem Installation.Valid.length_signature
    (h : inst.Valid P.toProvider start count signedPreKeyId) :
    inst.signedPreKey.signature.length = 64 := by
  obtain ⟨random, hrandom⟩ := h.signature
  rw [hrandom, ← P.len_eq]
  exact P.len_calculateSignature ..

section Loading

variable (hprivate : ∀ key, (P.encodePrivate key).length = 32)
include hprivate

/-- **Every pre key is loaded as it was made.** -/
theorem Installation.Valid.preKeyLoadKey (h : inst.Valid P.toProvider start count signedPreKeyId)
    (hcount : count ≤ 0xFFFFFE) (hwrap : (start - 1).toNat + count.toNat ≤ 2 ^ 32)
    {key : SessionPreKey Priv Pub} (hkey : inst.Has key) :
    (inst.files P.toProvider).preKeyLoadKey P.toProvider key.id = .ok key := by
  obtain ⟨hnodup, hlast⟩ := h.ids_nodup hcount hwrap
  rcases hkey with hmem | rfl
  · have hne : key.id ≠ inst.lastResort.id :=
      fun he => hlast (he ▸ List.mem_map_of_mem hmem)
    exact (KeyFiles.preKeyLoadKey_store_of_ne _ _ hne).trans
      (KeyFiles.preKeyLoadKey_storeAll hprivate hnodup hmem _)
  · exact KeyFiles.preKeyLoadKey_store_self hprivate _ _

theorem Installation.Valid.signedPreKeyLoadKey
    (h : inst.Valid P.toProvider start count signedPreKeyId) :
    (inst.files P.toProvider).signedPreKeyLoadKey P.toProvider inst.signedPreKey.id =
      .ok inst.signedPreKey := by
  simp only [KeyFiles.signedPreKeyLoadKey, files, KeyFiles.signedPreKeyStoreKey,
    Function.update_self, sessionSignedPreKeyDeserialize_serialize hprivate h.length_signature.le]

end Loading

theorem Installation.identityGetKeyPair (inst : Installation Priv Pub)
    (P : Provider Priv Pub Bytes) :
    (inst.files P).identityGetKeyPair P = .ok inst.identityKeyPair := by
  obtain ⟨hpublic, hprivate⟩ := KeyFiles.storeAll_rest (P := P) inst.preKeys
    ⟨P.encodePoint inst.identityKeyPair.publicKey, P.encodePrivate inst.identityKeyPair.privateKey,
      inst.registrationId, fun _ => none, fun _ => none⟩
  simp only [KeyFiles.identityGetKeyPair, files, KeyFiles.signedPreKeyStoreKey,
    KeyFiles.preKeyStoreKey, hpublic, hprivate, P.decodePoint_encodePoint,
    P.decodePrivate_encodePrivate]
  rfl

variable {bob : World Addr Priv Pub Bytes}

/-- **The stores hold the keys that a bundle names.** -/
theorem Installation.Valid.offers (h : inst.Valid P.toProvider start count signedPreKeyId)
    (hprivate : ∀ key, (P.encodePrivate key).length = 32) (hcount : count ≤ 0xFFFFFE)
    (hwrap : (start - 1).toNat + count.toNat ≤ 2 ^ 32)
    (hopens : (inst.files P.toProvider).OpensAs P.toProvider bob)
    {preKey : Option (SessionPreKey Priv Pub)} (hpreKey : ∀ key ∈ preKey, inst.Has key) :
    bob.Offers P.toProvider (inst.bundle P.toProvider preKey) := by
  have hidentity : bob.identityKeyPair = inst.identityKeyPair :=
    Except.ok.inj (hopens.identity.symm.trans (inst.identityGetKeyPair P.toProvider))
  refine ⟨?_, ?_, ⟨inst.signedPreKey.keyPair, ?_, h.signedPreKey.2, rfl⟩, ?_⟩
  · rw [hidentity]
    rfl
  · rw [hidentity]
    exact h.identity
  · have hload := hopens.signedPreKeys inst.signedPreKey.id
    rw [h.signedPreKeyLoadKey hprivate] at hload
    exact hload
  · intro k hk
    obtain ⟨key, hmem, rfl⟩ := Option.map_eq_some_iff.1 hk
    have hload := hopens.preKeys key.id
    rw [h.preKeyLoadKey hprivate hcount hwrap (hpreKey key hmem)] at hload
    refine ⟨key.keyPair, ?_, ?_, rfl⟩
    · cases hmem
      exact hload
    · rcases hpreKey key hmem with hkey | rfl
      · exact h.preKeys key hkey
      · exact h.lastResort.2

/-- **The bundle is authentic** for whoever trusts the identity. -/
theorem Installation.Valid.authentic (h : inst.Valid P.toProvider start count signedPreKeyId)
    {ctx : SignalContext Addr Priv Pub Bytes} (hP : ctx.provider = P.toProvider) {address : Addr}
    {w : World Addr Priv Pub Bytes}
    (htrusted : ctx.trusted address (w.identities address) inst.identityKeyPair.publicKey = true)
    (preKey : Option (SessionPreKey Priv Pub)) :
    (inst.bundle P.toProvider preKey).Authentic ctx address w := by
  obtain ⟨random, hrandom⟩ := h.signature
  have hlen : P.len inst.signedPreKey.signature = 64 := (P.len_eq _).trans h.length_signature
  refine ⟨_, _, inst.signedPreKey.signature, rfl, htrusted, rfl, ?_, ?_, ?_⟩
  · have hpos : 0 < P.len inst.signedPreKey.signature := by omega
    simp only [bundle, sessionPreKeyBundleCreate, Option.filter_some, hpos, decide_true, if_true]
  · rw [hP]
    exact hlen
  · rw [hP, hrandom, h.identity]
    exact P.verify_calculateSignature ..

/-- **A bundle is fetched**: it names one of the pre keys or none; Bob's stores hold what the bytes
say and no session, and the signed pre key is not drawn again; Alice's record can be loaded, and
she trusts the identity. -/
structure Installation.Fetched (P : Provider Priv Pub Bytes) (peers : Peers Addr Priv Pub Bytes)
    (inst : Installation Priv Pub) (preKey : Option (SessionPreKey Priv Pub))
    (alice bob : World Addr Priv Pub Bytes) : Prop where
  preKey : ∀ key ∈ preKey, inst.Has key
  opens : (inst.files P).OpensAs P bob
  noSession : bob.sessions (peers.address .bob) = none
  old : OldKey (peers.context .bob) bob.drawn inst.signedPreKey.keyPair.publicKey
  record : ∃ record, alice.record P (peers.address .alice) = .ok record
  identity : alice.identityKeyPair.Matched P
  trusted : peers.trusted .alice (peers.address .alice) (alice.identities (peers.address .alice))
    inst.identityKeyPair.publicKey = true

/-- Two parties before the first message. -/
def Introduction.opening (alice bob : World Addr Priv Pub Bytes) :
    Introduction Addr Priv Pub Bytes where
  world
    | .alice => alice
    | .bob => bob
  forth := Lane.empty
  back := Lane.empty
  later := []
  onward := false

variable [DecidableEq Addr] [LinearOrder Pub] {peers : Peers Addr Priv Pub Bytes}

/-- Alice accepts the bundle, and the introduction has started. -/
theorem Installation.Valid.started (h : inst.Valid P.toProvider start count signedPreKeyId)
    (hP : peers.provider = P.toProvider) (hrng : (peers.rng .alice).Supplies)
    {preKey : Option (SessionPreKey Priv Pub)} {alice : World Addr Priv Pub Bytes}
    (hfetched : inst.Fetched P.toProvider peers preKey alice bob) :
    ∃ alice' base,
      peers.call .alice (.processPreKeyBundle (inst.bundle P.toProvider preKey)) alice =
        (.ok .nothing, alice') ∧
      (Introduction.opening alice' bob).Started peers (inst.bundle P.toProvider preKey) alice
        base := by
  obtain ⟨record, hrecord⟩ := hfetched.record
  obtain ⟨base, hbase⟩ := hrng.privateKey alice.drawn
  have hauthentic : (inst.bundle P.toProvider preKey).Authentic (peers.context .alice)
      (peers.address .alice) alice := h.authentic hP hfetched.trusted preKey
  have hloads : alice.record (peers.context .alice).provider (peers.address .alice) =
      .ok record := by
    rw [← hrecord]
    exact congrArg (fun Q => alice.record Q (peers.address .alice)) hP
  obtain ⟨alice', haccepted⟩ := bundle_authentic hauthentic hloads hrng.privateKey
  have hcall : peers.call .alice (.processPreKeyBundle (inst.bundle P.toProvider preKey)) alice =
      (.ok .nothing, alice') := Op.bind_of_ok haccepted
  refine ⟨alice', base, hcall, ⟨.nothing, hcall⟩, hbase, hP ▸ hfetched.identity,
    ⟨SessionRecord.create none, ?_, ?_⟩, ?_, rfl, rfl, rfl, rfl⟩
  · have hbob : (Introduction.opening alice' bob).world .bob = bob := rfl
    rw [hbob, World.record, signalProtocolSessionLoadSession, Op.get_bind_apply,
      hfetched.noSession]
    rfl
  · intro state hstate
    rw [List.mem_singleton.1 hstate]
    exact (Option.some_ne_none _).symm
  · rintro key ⟨⟩
    exact hfetched.old

/-- **An installed client can be reached.**  A client makes its keys and stores them as bytes.
Whichever of the pre keys a bundle names, when a peer fetches it the stores hold the keys that the
bundle names, the peer accepts the bundle, and any run of messages, answers and repetitions within
the limits sets up one session and delivers every message once. -/
theorem installed_establishment (P : ByteProvider Priv Pub)
    (hprivate : ∀ key, (P.encodePrivate key).length = 32) (peers : Peers Addr Priv Pub Bytes)
    (hP : peers.provider = P.toProvider) (hrng : ∀ x, (peers.rng x).Supplies)
    (start count signedPreKeyId : UInt32) (timestamp : UInt64) (hcount : count ≤ 0xFFFFFE)
    (hwrap : (start - 1).toNat + count.toNat ≤ 2 ^ 32) (n : Nat) :
    ∃ inst n', install P.toProvider (peers.rng .bob) start count signedPreKeyId timestamp n =
        (.ok inst, n') ∧
      ∀ preKey alice bob, inst.Fetched P.toProvider peers preKey alice bob →
        bob.Offers P.toProvider (inst.bundle P.toProvider preKey) ∧
        ∃ alice' base,
          peers.call .alice (.processPreKeyBundle (inst.bundle P.toProvider preKey)) alice =
            (.ok .nothing, alice') ∧
          ∀ acts,
            (Introduction.opening alice' bob).Regular peers (inst.bundle P.toProvider preKey) acts →
            ((Introduction.opening alice' bob).run peers acts).Established peers
              (inst.bundle P.toProvider preKey) (peers.provider.publicKey base) := by
  obtain ⟨inst, n', hinstall, hvalid⟩ :=
    install_ok P (hrng .bob) start count signedPreKeyId timestamp n
  refine ⟨inst, n', hinstall, fun preKey alice bob hfetched => ?_⟩
  obtain ⟨alice', base, hcall, hstarted⟩ := hvalid.started hP (hrng .alice) hfetched
  refine ⟨hvalid.offers hprivate hcount hwrap hfetched.opens hfetched.preKey, alice', base, hcall,
    fun acts hacts => ?_⟩
  obtain ⟨s₀, hs₀, hsound⟩ := hstarted.sound
  obtain ⟨s, hrun⟩ := hsound.run (fun x => (hrng x).privateKey) hs₀ acts hacts
  exact hrun.established

end Establishment

/-- Two parties whose keys are bytes.  The keys repeat in the end, as there are only so many. -/
def plainPeers : Peers Nat PlainKey PlainKey Bytes where
  provider := plainProvider.toProvider
  rng _ := { plainContext.rng with privateKey := fun n => .ok (plainKey (UInt8.ofNat (min n 200))) }
  trusted _ _ _ _ := true
  address _ := 0

theorem plainPeers_supplies (x : Party) : (plainPeers.rng x).Supplies :=
  ⟨fun _ => ⟨_, rfl⟩, fun _ => ⟨_, rfl⟩, fun _ => ⟨_, rfl⟩⟩

/-- Stores that hold what an installation has stored. -/
def Installation.stores (P : Provider Priv Pub Bytes) (inst : Installation Priv Pub) (drawn : Nat) :
    World Addr Priv Pub Bytes where
  sessions _ := none
  preKeys id := ((inst.files P).preKeyLoadKey P id).toOption.map SessionPreKey.keyPair
  signedPreKeys id :=
    ((inst.files P).signedPreKeyLoadKey P id).toOption.map SessionSignedPreKey.keyPair
  identityKeyPair := inst.identityKeyPair
  localRegistrationId := (inst.files P).registrationId
  identities _ := none
  drawn := drawn

theorem Installation.opensAs_stores (P : Provider Priv Pub Bytes) (inst : Installation Priv Pub)
    (drawn : Nat) : (inst.files P).OpensAs P (inst.stores P drawn : World Addr Priv Pub Bytes) :=
  ⟨inst.identityGetKeyPair P, rfl, fun _ => rfl, fun _ => rfl⟩

/-- Two messages that arrive out of order, and an answer. -/
def plainActs : List (IntroductionAct Nat PlainKey PlainKey Bytes) :=
  [.write [7], .write [8], .deliver 1, .deliver 0, .reply [9], .answer 0]

open Introduction in
/-- A client with two pre keys is reached through the last resort. -/
theorem installed_establishment_plain :
    ∃ inst n', install plainProvider.toProvider (plainPeers.rng .bob) 1 2 5 0 0 = (.ok inst, n') ∧
      ∃ alice' base,
        plainPeers.call .alice (.processPreKeyBundle
          (inst.bundle plainProvider.toProvider (some inst.lastResort))) plainStore =
            (.ok .nothing, alice') ∧
        ∃ d, d = (Introduction.opening alice' (inst.stores plainProvider.toProvider n')).run
            plainPeers plainActs ∧
          d.forth.accepted.length = 2 ∧ d.back.accepted.length = 1 ∧
          d.Established plainPeers (inst.bundle plainProvider.toProvider (some inst.lastResort))
            (plainPeers.provider.publicKey base) := by
  obtain ⟨inst, n', hinst, hall⟩ := installed_establishment plainProvider (fun key => key.2)
    plainPeers rfl plainPeers_supplies 1 2 5 0 (by decide) (by decide) 0
  have hkey : ∀ m, n' ≤ m → plainKey (UInt8.ofNat (min m 200)) ≠
      inst.signedPreKey.keyPair.publicKey := by
    cases hinst
    intro m hm he
    have hbyte : UInt8.ofNat (min m 200) = 5 := congrArg (fun k => k.1.headD 0) he
    have hnat := congrArg UInt8.toNat hbyte
    simp only [UInt8.toNat_ofNat', UInt8.reduceToNat] at hnat
    omega
  obtain ⟨hoffers, alice', base, hcall, hrun⟩ := hall (some inst.lastResort) plainStore
    (inst.stores plainProvider.toProvider n')
    ⟨fun key hkey => Or.inr (Option.some.inj hkey).symm, inst.opensAs_stores _ _, rfl,
      fun m hm k hk => Except.ok.inj hk ▸ hkey m hm, ⟨_, rfl⟩, rfl, rfl⟩
  have hoffers' : ((((Introduction.opening alice' (inst.stores plainProvider.toProvider n')).step
      plainPeers (.write [7])).step plainPeers (.write [8])).world .bob).Offers
        plainPeers.provider (inst.bundle plainProvider.toProvider (some inst.lastResort)) := by
    rw [step_write_world_bob, step_write_world_bob]
    exact hoffers
  have halice : alice' = (plainPeers.call .alice (.processPreKeyBundle
      (inst.bundle plainProvider.toProvider (some inst.lastResort))) plainStore).2 := by
    rw [hcall]
  subst halice
  have hregular := hrun plainActs ⟨allows_write ?_, allows_write ?_,
    allows_deliver rfl ?_ fun _ => hoffers',
    allows_deliver rfl ?_ fun h => absurd (congrArg List.length h) ?_, allows_reply ?_,
    allows_answer ?_, trivial⟩
  · refine ⟨inst, n', hinst, _, base, hcall, _, rfl, ?_, ?_, ?_⟩
    · cases hinst
      decide +kernel
    · cases hinst
      decide +kernel
    · convert hregular
  all_goals
    cases hinst
    decide +kernel

end SignalProtocol
