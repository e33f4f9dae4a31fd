/-
# Scanned fingerprints (`fingerprint.c`)

The bytes to scan hold a version and, for each side, an identifier and a public key.  On the wire
an identifier is a run of bytes with its length in front; in memory it is a C string.  So an
identifier that was scanned ends at its first NUL, and what stands behind it is not compared.

A scan answers 1 exactly for the own contents with the sides exchanged, unless an identifier in
the scanned bytes has something behind a NUL.
-/
import SignalProtocol.Fingerprint

namespace SignalProtocol

open Wire

/-! ## 1. The packed form (`FingerprintProtocol.pb-c.c`) -/

/-- `Textsecure__FingerprintData`. -/
structure FingerprintData where
  publickey : Option Bytes
  identifier : Option Bytes
  deriving DecidableEq, Repr

/-- `Textsecure__CombinedFingerprint`. -/
structure CombinedFingerprint where
  version : Option UInt32
  localfingerprint : Option FingerprintData
  remotefingerprint : Option FingerprintData
  deriving DecidableEq, Repr

namespace FingerprintData

/-- The fields in the order of their numbers. -/
def fields (m : FingerprintData) : List Field :=
  optional bytesCodec 1 m.publickey ++ optional bytesCodec 2 m.identifier

/-- `textsecure__fingerprint_data__pack`. -/
def pack (m : FingerprintData) : Bytes := Wire.pack m.fields

/-- A member, parsed. -/
def parseMember (m : FingerprintData) (f : Member) : Except Fault FingerprintData := do
  match f.tag with
  | 1 => return { m with publickey := some (← bytesCodec.read f) }
  | 2 => return { m with identifier := some (← bytesCodec.read f) }
  | _ => return m

/-- `textsecure__fingerprint_data__unpack`. -/
def unpack (data : Bytes) : Except Fault FingerprintData :=
  unpackMessage protobufC parseMember ⟨none, none⟩ data

/-- Two occurrences of the message. -/
def merge (earlier later : FingerprintData) : FingerprintData where
  publickey := mergeBytes earlier.publickey later.publickey
  identifier := mergeBytes earlier.identifier later.identifier

theorem reads (m : FingerprintData) : Reads parseMember ⟨none, none⟩ m.fields m := by
  refine (Reads.optional (mk · none) ?_).append (.optional (mk m.publickey ·) ?_)
  all_goals
    intro f h
    simp [parseMember, h]

theorem length_fields_le (m : FingerprintData) : m.fields.length ≤ 2 := by
  apply length_append_optional_le
  exact length_optional_le ..

theorem unpack_pack {m : FingerprintData} (h : m.pack.length < 2 ^ 32) :
    unpack m.pack = .ok m :=
  unpackMessage_pack (allows_of_count (m.length_fields_le.trans (by decide)) h) m.reads

end FingerprintData

/-- One side, packed. -/
def fingerprintCodec : Codec FingerprintData :=
  messageCodec FingerprintData.pack FingerprintData.unpack

namespace CombinedFingerprint

/-- The fields in the order of their numbers. -/
def fields (m : CombinedFingerprint) : List Field :=
  optional uint32Codec 1 m.version ++ optional fingerprintCodec 2 m.localfingerprint ++
    optional fingerprintCodec 3 m.remotefingerprint

/-- `textsecure__combined_fingerprint__pack`. -/
def pack (m : CombinedFingerprint) : Bytes := Wire.pack m.fields

/-- A member, parsed. -/
def parseMember (m : CombinedFingerprint) (f : Member) : Except Fault CombinedFingerprint := do
  match f.tag with
  | 1 => return { m with version := some (← uint32Codec.read f) }
  | 2 =>
    let side ← fingerprintCodec.read f
    return { m with
      localfingerprint := mergeMessage FingerprintData.merge m.localfingerprint (some side) }
  | 3 =>
    let side ← fingerprintCodec.read f
    return { m with
      remotefingerprint := mergeMessage FingerprintData.merge m.remotefingerprint (some side) }
  | _ => return m

/-- `textsecure__combined_fingerprint__unpack`. -/
def unpack (data : Bytes) : Except Fault CombinedFingerprint :=
  unpackMessage protobufC parseMember ⟨none, none, none⟩ data

theorem length_fields_le (m : CombinedFingerprint) : m.fields.length ≤ 3 := by
  iterate 2 apply length_append_optional_le
  exact length_optional_le ..

/-- **Bytes below 4 GiB are read back.** -/
theorem unpack_pack {m : CombinedFingerprint} (h : m.pack.length < 2 ^ 32) :
    unpack m.pack = .ok m := by
  have hkeeps : ∀ {number : Fin 16} {side : FingerprintData},
      ⟨number, fingerprintCodec.write side⟩ ∈ m.fields → fingerprintCodec.Keeps side :=
    fun hmem => messageCodec_keeps (FingerprintData.unpack_pack ((length_lt_of_mem hmem).trans h))
  have hlocal : ∀ side ∈ m.localfingerprint, fingerprintCodec.Keeps side := fun side hs =>
    hkeeps (List.mem_append_left _ (List.mem_append_right _ (mem_optional fingerprintCodec 2 hs)))
  have hremote : ∀ side ∈ m.remotefingerprint, fingerprintCodec.Keeps side := fun side hs =>
    hkeeps (List.mem_append_right _ (mem_optional fingerprintCodec 3 hs))
  refine unpackMessage_pack (allows_of_count (m.length_fields_le.trans (by decide)) h) ?_
  refine ((Reads.optional (mk · none none) ?_).append
    (.optional_of hlocal (mk m.version · none) ?_)).append
    (.optional_of hremote (mk m.version m.localfingerprint ·) ?_)
  all_goals
    intro f h
    simp [parseMember, h, mergeMessage]

end CombinedFingerprint

/-! ## 2. The functions -/

/-- `curve_decode_point`. -/
def curveDecodePoint (keyData : Bytes) : Except SgError EcPublicKey :=
  match keyData with
  | [] => .error .invalidKey
  | type :: data =>
    if type ≠ djbType then .error .invalidKey
    else if h : data.length = 32 then .ok ⟨data, h⟩
    else .error .invalidKey

/-- `signal_protocol_str_deserialize_protobuf`: the bytes go to a buffer with a NUL behind them. -/
def strDeserializeProtobuf (buffer : Bytes) : CString := CString.ofBuffer (buffer ++ [0])

/-- `scannable_fingerprint_serialize`. -/
def scannableFingerprintSerialize (scannable : ScannableFingerprint) : Bytes :=
  CombinedFingerprint.pack
    { version := some scannable.version
      localfingerprint := some
        { publickey := some (ecPublicKeySerialize scannable.localIdentityKey)
          identifier := some scannable.localStableIdentifier.bytes }
      remotefingerprint := some
        { publickey := some (ecPublicKeySerialize scannable.remoteIdentityKey)
          identifier := some scannable.remoteStableIdentifier.bytes } }

/-- One side of `scannable_fingerprint_deserialize`. -/
def fingerprintSide (side : Option FingerprintData) :
    Except SgError (Option CString × Option EcPublicKey) :=
  match side with
  | none => .ok (none, none)
  | some fingerprintData => do
    let stableIdentifier := fingerprintData.identifier.map strDeserializeProtobuf
    match fingerprintData.publickey with
    | none => return (stableIdentifier, none)
    | some keyData =>
      let identityKey ← curveDecodePoint keyData
      return (stableIdentifier, some identityKey)

/-- `scannable_fingerprint_deserialize`. -/
def scannableFingerprintDeserialize (data : Bytes) : Except SgError ScannableFingerprint :=
  match CombinedFingerprint.unpack data with
  | .error fault => .error (faultCode fault)
  | .ok combinedFingerprint => do
    let version := combinedFingerprint.version.getD 0
    let (localStableIdentifier, localIdentityKey) ←
      fingerprintSide combinedFingerprint.localfingerprint
    let (remoteStableIdentifier, remoteIdentityKey) ←
      fingerprintSide combinedFingerprint.remotefingerprint
    scannableFingerprintCreate version localStableIdentifier localIdentityKey
      remoteStableIdentifier remoteIdentityKey

/-- The answers of `scannable_fingerprint_compare`. -/
inductive Comparison where
  /-- `SG_ERR_FP_VERSION_MISMATCH`. -/
  | versionMismatch
  /-- `SG_ERR_FP_IDENT_MISMATCH`. -/
  | identMismatch
  /-- 0: other keys. -/
  | differs
  /-- 1. -/
  | matched
  deriving DecidableEq, Repr

/-- `scannable_fingerprint_compare`; the keys that it looks for are never missing. -/
def scannableFingerprintCompare (scannable other : ScannableFingerprint) : Comparison :=
  if other.version ≠ scannable.version then .versionMismatch
  else if strcmp scannable.localStableIdentifier other.remoteStableIdentifier ≠ 0 then
    .identMismatch
  else if strcmp scannable.remoteStableIdentifier other.localStableIdentifier ≠ 0 then
    .identMismatch
  else if scannable.localIdentityKey ≠ other.remoteIdentityKey then .differs
  else if scannable.remoteIdentityKey ≠ other.localIdentityKey then .differs
  else .matched

/-! ## 3. What bytes encode -/

/-- The version (a missing one reads as 0), and an identifier and a key for each side. -/
def Encodes (data : Bytes) (version : UInt32) (localIdentifier : Bytes) (localKey : EcPublicKey)
    (remoteIdentifier : Bytes) (remoteKey : EcPublicKey) : Prop :=
  ∃ m, CombinedFingerprint.unpack data = .ok m ∧ m.version.getD 0 = version ∧
    m.localfingerprint = some ⟨some (ecPublicKeySerialize localKey), some localIdentifier⟩ ∧
    m.remotefingerprint = some ⟨some (ecPublicKeySerialize remoteKey), some remoteIdentifier⟩

/-- The bytes encode exactly the contents of `f` with the sides exchanged. -/
def ExactlySwapped (f : ScannableFingerprint) (data : Bytes) : Prop :=
  Encodes data f.version f.remoteStableIdentifier.bytes f.remoteIdentityKey
    f.localStableIdentifier.bytes f.localIdentityKey

/-- They encode them up to what stands behind a NUL in an identifier. -/
def SwappedUpToNul (f : ScannableFingerprint) (data : Bytes) : Prop :=
  ∃ localIdentifier remoteIdentifier,
    Encodes data f.version localIdentifier f.remoteIdentityKey remoteIdentifier
      f.localIdentityKey ∧
    CString.ofBuffer localIdentifier = f.remoteStableIdentifier ∧
    CString.ofBuffer remoteIdentifier = f.localStableIdentifier

/-- They encode them up to that, and there is a NUL in an identifier. -/
def SwappedBeforeNul (f : ScannableFingerprint) (data : Bytes) : Prop :=
  ∃ localIdentifier remoteIdentifier,
    Encodes data f.version localIdentifier f.remoteIdentityKey remoteIdentifier
      f.localIdentityKey ∧
    CString.ofBuffer localIdentifier = f.remoteStableIdentifier ∧
    CString.ofBuffer remoteIdentifier = f.localStableIdentifier ∧
    (0 ∈ localIdentifier ∨ 0 ∈ remoteIdentifier)

theorem ecPublicKeySerialize_injective {k k' : EcPublicKey}
    (h : ecPublicKeySerialize k = ecPublicKeySerialize k') : k = k' := by
  cases k
  cases k'
  cases h
  rfl

/-- **Bytes encode one version, and one identifier and key for each side.** -/
theorem Encodes.unique {data : Bytes} {v v' : UInt32} {l l' r r' : Bytes}
    {lk lk' rk rk' : EcPublicKey} (h : Encodes data v l lk r rk)
    (h' : Encodes data v' l' lk' r' rk') :
    v = v' ∧ l = l' ∧ lk = lk' ∧ r = r' ∧ rk = rk' := by
  obtain ⟨m, hm, hv, hl, hr⟩ := h
  obtain ⟨m', hm', hv', hl', hr'⟩ := h'
  obtain rfl : m = m' := Except.ok.inj (hm.symm.trans hm')
  have hleft := FingerprintData.mk.inj (Option.some.inj (hl.symm.trans hl'))
  have hright := FingerprintData.mk.inj (Option.some.inj (hr.symm.trans hr'))
  exact ⟨hv.symm.trans hv', Option.some.inj hleft.2,
    ecPublicKeySerialize_injective (Option.some.inj hleft.1), Option.some.inj hright.2,
    ecPublicKeySerialize_injective (Option.some.inj hright.1)⟩

/-- **Decoding accepts exactly the serialized keys.** -/
theorem curveDecodePoint_ok_iff {keyData : Bytes} {key : EcPublicKey} :
    curveDecodePoint keyData = .ok key ↔ keyData = ecPublicKeySerialize key := by
  constructor
  · intro h
    unfold curveDecodePoint at h
    split at h
    · cases h
    · next type data =>
      split at h
      · cases h
      · next htype =>
        split at h
        · cases h
          rw [not_not.1 htype]
          rfl
        · cases h
  · rintro rfl
    rw [ecPublicKeySerialize, curveDecodePoint, if_neg (not_not.2 rfl), dif_pos key.length_data]

theorem fingerprintSide_ok {side : Option FingerprintData} {identifier : CString}
    {key : EcPublicKey} (h : fingerprintSide side = .ok (some identifier, some key)) :
    ∃ bytes, side = some ⟨some (ecPublicKeySerialize key), some bytes⟩ ∧
      identifier = CString.ofBuffer bytes := by
  unfold fingerprintSide at h
  split at h
  · cases h
  · next fingerprintData =>
    obtain ⟨publickey, bytes⟩ := fingerprintData
    simp only [bind, Except.bind, pure, Except.pure] at h
    split at h
    · injection h with h
      injection h with _ hkey
      cases hkey
    · next keyData =>
      split at h
      · cases h
      · next identityKey hdecode =>
        injection h with h
        injection h with hid hkey
        obtain ⟨bytes, rfl, hbytes⟩ := Option.map_eq_some_iff.1 hid
        cases hkey
        rw [curveDecodePoint_ok_iff.1 hdecode]
        exact ⟨bytes, rfl, hbytes.symm.trans (CString.ofBuffer_terminated bytes)⟩

/-- **What is accepted is well formed**: both sides are there, and each identifier is kept up to
its first NUL. -/
theorem deserialize_ok {data : Bytes} {s : ScannableFingerprint}
    (h : scannableFingerprintDeserialize data = .ok s) :
    ∃ localIdentifier remoteIdentifier,
      Encodes data s.version localIdentifier s.localIdentityKey remoteIdentifier
        s.remoteIdentityKey ∧
      s.localStableIdentifier = CString.ofBuffer localIdentifier ∧
      s.remoteStableIdentifier = CString.ofBuffer remoteIdentifier := by
  unfold scannableFingerprintDeserialize at h
  split at h
  · cases h
  · next m hm =>
    simp only [bind, Except.bind] at h
    rcases hl : fingerprintSide m.localfingerprint with _ | ⟨lid, lkey⟩
    · rw [hl] at h
      cases h
    rcases hr : fingerprintSide m.remotefingerprint with _ | ⟨rid, rkey⟩
    · rw [hl, hr] at h
      cases h
    rw [hl, hr] at h
    dsimp only at h
    unfold scannableFingerprintCreate at h
    split at h
    · cases h
      obtain ⟨l, hlside, hlid⟩ := fingerprintSide_ok hl
      obtain ⟨r, hrside, hrid⟩ := fingerprintSide_ok hr
      exact ⟨l, r, ⟨m, hm, rfl, hlside, hrside⟩, hlid, hrid⟩
    · cases h

/-- **What is serialized to less than 4 GiB is read back.** -/
theorem deserialize_serialize {s : ScannableFingerprint}
    (h : (scannableFingerprintSerialize s).length < 2 ^ 32) :
    scannableFingerprintDeserialize (scannableFingerprintSerialize s) = .ok s := by
  have hside : ∀ (identifier : CString) (key : EcPublicKey),
      fingerprintSide (some ⟨some (ecPublicKeySerialize key), some identifier.bytes⟩) =
        .ok (some identifier, some key) := by
    intro identifier key
    have hid : strDeserializeProtobuf identifier.bytes = identifier :=
      CString.ofBuffer_append identifier []
    have hkey : curveDecodePoint (ecPublicKeySerialize key) = .ok key :=
      curveDecodePoint_ok_iff.2 rfl
    simp only [fingerprintSide, bind, Except.bind, hkey, Option.map_some, hid]
    rfl
  rw [scannableFingerprintDeserialize, scannableFingerprintSerialize,
    CombinedFingerprint.unpack_pack h]
  simp only [bind, Except.bind, hside]
  rfl

/-! ## 4. Comparison -/

theorem compare_matched_iff {f s : ScannableFingerprint} :
    scannableFingerprintCompare f s = .matched ↔
      s.version = f.version ∧ f.localStableIdentifier = s.remoteStableIdentifier ∧
        f.remoteStableIdentifier = s.localStableIdentifier ∧
        f.localIdentityKey = s.remoteIdentityKey ∧ f.remoteIdentityKey = s.localIdentityKey := by
  unfold scannableFingerprintCompare
  rw [← strcmp_eq_zero_iff (s := f.localStableIdentifier),
    ← strcmp_eq_zero_iff (s := f.remoteStableIdentifier)]
  split_ifs <;> simp_all

/-- **The answer 1 is symmetric.** -/
theorem compare_matched_comm (f s : ScannableFingerprint) :
    scannableFingerprintCompare f s = .matched ↔ scannableFingerprintCompare s f = .matched := by
  rw [compare_matched_iff, compare_matched_iff]
  constructor
  · rintro ⟨hv, hl, hr, hlk, hrk⟩
    exact ⟨hv.symm, hr.symm, hl.symm, hrk.symm, hlk.symm⟩
  · rintro ⟨hv, hl, hr, hlk, hrk⟩
    exact ⟨hv.symm, hr.symm, hl.symm, hrk.symm, hlk.symm⟩

/-- **A scan answers 1 exactly for contents that are swapped up to what is behind a NUL.** -/
theorem scan_matched_iff {f s : ScannableFingerprint} {data : Bytes}
    (h : scannableFingerprintDeserialize data = .ok s) :
    scannableFingerprintCompare f s = .matched ↔ SwappedUpToNul f data := by
  obtain ⟨l, r, hencodes, hl, hr⟩ := deserialize_ok h
  rw [compare_matched_iff]
  constructor
  · rintro ⟨hv, hfl, hfr, hflk, hfrk⟩
    rw [hv, ← hfrk, ← hflk] at hencodes
    exact ⟨l, r, hencodes, (hfr.trans hl).symm, (hfl.trans hr).symm⟩
  · rintro ⟨l', r', hencodes', hl', hr'⟩
    obtain ⟨hv, rfl, hlk, rfl, hrk⟩ := hencodes.unique hencodes'
    exact ⟨hv, hr'.symm.trans hr.symm, hl'.symm.trans hl.symm, hrk.symm, hlk.symm⟩

theorem ExactlySwapped.upToNul {f : ScannableFingerprint} {data : Bytes}
    (h : ExactlySwapped f data) : SwappedUpToNul f data :=
  ⟨_, _, h, CString.ofBuffer_bytes _, CString.ofBuffer_bytes _⟩

/-- What is swapped up to a NUL is swapped exactly, unless there is a NUL. -/
theorem exactlySwapped_iff {f : ScannableFingerprint} {data : Bytes} :
    ExactlySwapped f data ↔ SwappedUpToNul f data ∧ ¬ SwappedBeforeNul f data := by
  constructor
  · intro h
    refine ⟨h.upToNul, ?_⟩
    rintro ⟨l, r, hencodes, -, -, hnul⟩
    obtain ⟨-, rfl, -, rfl, -⟩ := Encodes.unique h hencodes
    rcases hnul with hnul | hnul
    · exact f.remoteStableIdentifier.noNul hnul
    · exact f.localStableIdentifier.noNul hnul
  · rintro ⟨⟨l, r, hencodes, hl, hr⟩, hnul⟩
    have hl0 : (0 : UInt8) ∉ l := fun h => hnul ⟨l, r, hencodes, hl, hr, .inl h⟩
    have hr0 : (0 : UInt8) ∉ r := fun h => hnul ⟨l, r, hencodes, hl, hr, .inr h⟩
    rw [ExactlySwapped, ← hl, ← hr, CString.bytes_ofBuffer hl0, CString.bytes_ofBuffer hr0]
    exact hencodes

theorem SwappedBeforeNul.upToNul {f : ScannableFingerprint} {data : Bytes}
    (h : SwappedBeforeNul f data) : SwappedUpToNul f data := by
  obtain ⟨l, r, hencodes, hl, hr, -⟩ := h
  exact ⟨l, r, hencodes, hl, hr⟩

/-- **Scanned fingerprints.**  A scan answers 1 exactly for contents that are swapped, apart from
bytes in which an identifier goes on behind a NUL.  What the peer serializes is always matched, if
it has less than 4 GiB, and the answer 1 is the same from both sides. -/
theorem scanned_fingerprints_iff (S S' : Sha512) (M M' : Memory) (iterations iterations' : Int)
    (a b : CString) (ka kb : EcPublicKey) {f : Fingerprint}
    (hf : fingerprintGeneratorCreateFor S M iterations a ka b kb = .ok f) {data : Bytes}
    {s : ScannableFingerprint} (hs : scannableFingerprintDeserialize data = .ok s) :
    ((scannableFingerprintCompare f.scannable s = .matched ↔ ExactlySwapped f.scannable data) ↔
        ¬ SwappedBeforeNul f.scannable data) ∧
      (∃ g, fingerprintGeneratorCreateFor S' M' iterations' b kb a ka = .ok g ∧
        ((scannableFingerprintSerialize g.scannable).length < 2 ^ 32 → ∃ s',
          scannableFingerprintDeserialize (scannableFingerprintSerialize g.scannable) = .ok s' ∧
          scannableFingerprintCompare f.scannable s' = .matched)) ∧
      (scannableFingerprintCompare f.scannable s = .matched ↔
        scannableFingerprintCompare s f.scannable = .matched) := by
  refine ⟨?_, ?_, compare_matched_comm ..⟩
  · rw [scan_matched_iff hs, exactlySwapped_iff]
    constructor
    · intro h hnul
      exact (h.1 hnul.upToNul).2 hnul
    · intro hnul
      exact ⟨fun h => ⟨h, hnul⟩, And.left⟩
  · obtain rfl := Except.ok.inj ((createFor_eq ..).symm.trans hf)
    refine ⟨_, createFor_eq .., fun hlen => ⟨_, deserialize_serialize hlen, ?_⟩⟩
    exact compare_matched_iff.2 ⟨rfl, rfl, rfl, rfl, rfl⟩

/-! ## 5. Scans -/

/-- A digest that is always zero. -/
def zeroDigest : Sha512 := ⟨fun _ => List.replicate 64 0, fun _ => rfl⟩

/-- Memory that is zero. -/
def zeroMemory : Memory := ⟨fun len => List.replicate len 0, fun _ => List.length_replicate⟩

theorem length_repeated (value : UInt8) : (List.replicate 32 value).length = 32 :=
  List.length_replicate

/-- The key with this byte in all places. -/
def repeatedKey (value : UInt8) : EcPublicKey := ⟨List.replicate 32 value, length_repeated value⟩

/-- The strings `A` and `B`. -/
def alice : CString := ⟨[65], by decide⟩
@[inherit_doc alice] def bob : CString := ⟨[66], by decide⟩

/-- What Alice's device shows to the one that scans it. -/
def aliceOwn : Fingerprint := madeFor zeroDigest 0 alice (repeatedKey 1) bob (repeatedKey 2)

/-- The bytes that Bob's device would show, but with `A`, a NUL and `x` for the remote
identifier. -/
def lengthened : CombinedFingerprint :=
  ⟨some 0, some ⟨some (ecPublicKeySerialize (repeatedKey 2)), some [66]⟩,
    some ⟨some (ecPublicKeySerialize (repeatedKey 1)), some [65, 0, 120]⟩⟩

theorem deserialize_lengthened :
    scannableFingerprintDeserialize lengthened.pack =
      .ok ⟨0, bob, repeatedKey 2, alice, repeatedKey 1⟩ := by
  rw [scannableFingerprintDeserialize, CombinedFingerprint.unpack_pack (by decide)]
  rfl

theorem scanned_fingerprints_iff_lengthened :
    fingerprintGeneratorCreateFor zeroDigest zeroMemory 0 alice (repeatedKey 1) bob
        (repeatedKey 2) = .ok aliceOwn ∧
      ((scannableFingerprintCompare aliceOwn.scannable ⟨0, bob, repeatedKey 2, alice,
          repeatedKey 1⟩ = .matched ↔ ExactlySwapped aliceOwn.scannable lengthened.pack) ↔
        ¬ SwappedBeforeNul aliceOwn.scannable lengthened.pack) :=
  ⟨createFor_eq .., (scanned_fingerprints_iff zeroDigest zeroDigest zeroMemory zeroMemory 0 0
    alice bob (repeatedKey 1) (repeatedKey 2) (createFor_eq ..) deserialize_lengthened).1⟩

/-- **Bytes with something behind a NUL match**, though they do not encode the contents. -/
theorem lengthened_identifier_matches :
    fingerprintGeneratorCreateFor zeroDigest zeroMemory 0 alice (repeatedKey 1) bob
        (repeatedKey 2) = .ok aliceOwn ∧
      (∃ s, scannableFingerprintDeserialize lengthened.pack = .ok s ∧
        scannableFingerprintCompare aliceOwn.scannable s = .matched) ∧
      ¬ ExactlySwapped aliceOwn.scannable lengthened.pack := by
  refine ⟨createFor_eq .., ⟨_, deserialize_lengthened, by decide⟩, ?_⟩
  rintro ⟨m, hm, -, -, hremote⟩
  rw [CombinedFingerprint.unpack_pack (by decide)] at hm
  obtain rfl := Except.ok.inj hm
  revert hremote
  decide

end SignalProtocol
