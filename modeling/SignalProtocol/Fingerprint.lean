/-
# Fingerprints (`fingerprint.c`)

A fingerprint shows that two parties hold the same pair of identity keys.  It has a text to read
out (`displayable_fingerprint`) and bytes to scan (`scannable_fingerprint`).  Section 1 has the
functions that make one, section 2 what the text is meant to be, section 3 the work buffer, the
chunks and the sorted text one by one.

The text has sixty digits, its halves are the values of section 2, it is the same for both
parties, and it determines its two halves up to their order.
-/
import SignalProtocol.Lib.Block
import SignalProtocol.Lib.CString
import SignalProtocol.Packing
import Mathlib.Data.Sym.Sym2

namespace SignalProtocol

open Block

/-! ## 1. The functions

`memcpy(buffer + offset, data, len)` is `Block.overwrite`. -/

/-- `ec_public_key`. -/
structure EcPublicKey where
  data : Bytes
  length_data : data.length = 32
  deriving DecidableEq

/-- `DJB_TYPE`. -/
def djbType : UInt8 := 5

/-- `ec_public_key_serialize`. -/
def ecPublicKeySerialize (key : EcPublicKey) : Bytes := djbType :: key.data

/-- `SHA512_DIGEST_LENGTH`. -/
def sha512DigestLength : Nat := 64

/-- The digest callback. -/
structure Sha512 where
  digest : Bytes → Bytes
  length_digest : ∀ data, (digest data).length = sha512DigestLength

/-- What `malloc` returns: as many bytes as were asked for, with any content. -/
structure Memory where
  malloc : Nat → Bytes
  length_malloc : ∀ len, (malloc len).length = len

/-- `VERSION`. -/
def fingerprintVersion : UInt32 := 0

/-- The rounds of `fingerprint_generator_create_display_string`: the last hash and the identity go
to the start of the work buffer, and that part of it is hashed. -/
def hashRounds (S : Sha512) (identity : Bytes) : Nat → Bytes → Bytes → Except SgError Bytes
  | 0, hash, _ => .ok hash
  | rounds + 1, hash, work =>
    let work := overwrite (overwrite work 0 hash) hash.length identity
    let out := S.digest (work.take (hash.length + identity.length))
    if out.length = sha512DigestLength then hashRounds S identity rounds out work
    else .error .inval

/-- Five bytes as one number. -/
def chunkAt (data : Bytes) (i : Nat) : UInt64 :=
  ((data.getD i 0).toUInt64 &&& 0xFF) <<< 32 |||
    ((data.getD (i + 1) 0).toUInt64 &&& 0xFF) <<< 24 |||
    ((data.getD (i + 2) 0).toUInt64 &&& 0xFF) <<< 16 |||
    ((data.getD (i + 3) 0).toUInt64 &&& 0xFF) <<< 8 ||| ((data.getD (i + 4) 0).toUInt64 &&& 0xFF)

/-- The chunks from `i = 0` in steps of 5: each `snprintf` writes five digits and a NUL, and the
next one writes over the NUL. -/
def writeChunks (data buffer : Bytes) (chunks : Nat) : Bytes :=
  (List.range chunks).foldl (fun result j =>
    overwrite result (5 * j) (formatDecimal 5 (chunkAt data (5 * j) % 100000).toNat ++ [0])) buffer

/-- `fingerprint_generator_create_display_string`. -/
def fingerprintGeneratorCreateDisplayString (S : Sha512) (M : Memory) (iterations : Int)
    (stableIdentifier : CString) (identityKey : EcPublicKey) : Except SgError CString := do
  let identity := ecPublicKeySerialize identityKey
  let hash := [0, fingerprintVersion.toUInt8] ++ identity ++ stableIdentifier.bytes
  let work := M.malloc (max hash.length sha512DigestLength + identity.length)
  -- a count that is not positive gives no round
  let hash ← hashRounds S identity iterations.toNat hash work
  if hash.length < 30 then throw .unknown
  return CString.ofBuffer (writeChunks hash (M.malloc 31) 6)

/-- `displayable_fingerprint`. -/
structure DisplayableFingerprint where
  localFingerprint : CString
  remoteFingerprint : CString
  displayText : CString
  deriving DecidableEq

/-- `displayable_fingerprint_create`. -/
def displayableFingerprintCreate (M : Memory) :
    Option CString → Option CString → Except SgError DisplayableFingerprint
  | some localFingerprint, some remoteFingerprint =>
    let localBytes := localFingerprint.bytes
    let remoteBytes := remoteFingerprint.bytes
    let text := M.malloc (localBytes.length + remoteBytes.length + 1)
    let text :=
      if strcmp localFingerprint remoteFingerprint ≤ 0 then
        overwrite (overwrite text 0 localBytes) localBytes.length (remoteBytes ++ [0])
      else
        overwrite (overwrite text 0 remoteBytes) remoteBytes.length (localBytes ++ [0])
    .ok ⟨localFingerprint, remoteFingerprint, CString.ofBuffer text⟩
  | _, _ => .error .inval

/-- `scannable_fingerprint`; `scannable_fingerprint_create` lets none of its parts be missing. -/
structure ScannableFingerprint where
  version : UInt32
  localStableIdentifier : CString
  localIdentityKey : EcPublicKey
  remoteStableIdentifier : CString
  remoteIdentityKey : EcPublicKey
  deriving DecidableEq

/-- `scannable_fingerprint_create`. -/
def scannableFingerprintCreate (version : UInt32) :
    Option CString → Option EcPublicKey → Option CString → Option EcPublicKey →
      Except SgError ScannableFingerprint
  | some localStableIdentifier, some localIdentityKey,
      some remoteStableIdentifier, some remoteIdentityKey =>
    .ok ⟨version, localStableIdentifier, localIdentityKey, remoteStableIdentifier,
      remoteIdentityKey⟩
  | _, _, _, _ => .error .inval

/-- `fingerprint`. -/
structure Fingerprint where
  displayable : DisplayableFingerprint
  scannable : ScannableFingerprint
  deriving DecidableEq

/-- `fingerprint_generator_create_for`. -/
def fingerprintGeneratorCreateFor (S : Sha512) (M : Memory) (iterations : Int)
    (localStableIdentifier : CString) (localIdentityKey : EcPublicKey)
    (remoteStableIdentifier : CString) (remoteIdentityKey : EcPublicKey) :
    Except SgError Fingerprint := do
  let displayableLocal ← fingerprintGeneratorCreateDisplayString S M iterations
    localStableIdentifier localIdentityKey
  let displayableRemote ← fingerprintGeneratorCreateDisplayString S M iterations
    remoteStableIdentifier remoteIdentityKey
  let displayable ← displayableFingerprintCreate M displayableLocal displayableRemote
  let scannable ← scannableFingerprintCreate fingerprintVersion localStableIdentifier
    localIdentityKey remoteStableIdentifier remoteIdentityKey
  return ⟨displayable, scannable⟩

/-! ## 2. What the text is meant to be -/

namespace DisplayReference

/-- The initial bytes, then the digest of the last digest and the key, again and again. -/
def digest (S : Sha512) (iterations : Int) (identifier : CString) (key : EcPublicKey) : Bytes :=
  (fun d => S.digest (d ++ ecPublicKeySerialize key))^[iterations.toNat]
    ([0, 0] ++ ecPublicKeySerialize key ++ identifier.bytes)

/-- A run of bytes as a number, the first byte being the most significant. -/
def bigEndian (bytes : Bytes) : Nat := bytes.foldl (fun n b => 256 * n + b.toNat) 0

/-- A number in five digits. -/
def fiveDigits (n : Nat) : Bytes :=
  [n / 10000, n / 1000, n / 100, n / 10, n].map fun d => digitChar (d % 10)

/-- Six chunks of five bytes, modulo 100000, with five digits each. -/
def digits (data : Bytes) : Bytes :=
  (List.range 6).flatMap fun j =>
    fiveDigits (bigEndian ((data.drop (5 * j)).take 5) % 100000)

/-- The half of the text that stands for one party. -/
def half (S : Sha512) (iterations : Int) (identifier : CString) (key : EcPublicKey) : Bytes :=
  digits (digest S iterations identifier key)

theorem length_digits (data : Bytes) : (digits data).length = 30 := rfl

theorem isDigit_of_mem_digits {data : Bytes} {c : UInt8} (h : c ∈ digits data) : IsDigit c := by
  obtain ⟨j, -, hc⟩ := List.mem_flatMap.1 h
  obtain ⟨d, -, rfl⟩ := List.mem_map.1 hc
  exact isDigit_digitChar (Nat.mod_lt _ (by decide))

end DisplayReference

/-! ## 3. The parts -/

section Display

variable {S : Sha512}

/-- **The rounds iterate the digest**: the work buffer has room for the hash and the identity,
at first and from the first digest on. -/
theorem hashRounds_eq (identity : Bytes) {room : Nat} (hroom : sha512DigestLength ≤ room)
    (rounds : Nat) :
    ∀ (hash work : Bytes), hash.length ≤ room → work.length = room + identity.length →
      hashRounds S identity rounds hash work =
        .ok ((fun d => S.digest (d ++ identity))^[rounds] hash) := by
  induction rounds with
  | zero => exact fun _ _ _ _ => rfl
  | succ rounds ih =>
    intro hash work hhash hwork
    have hfits : hash.length + identity.length ≤ work.length := by omega
    have hin : (overwrite (overwrite work 0 hash) hash.length identity).take
        (hash.length + identity.length) = hash ++ identity := by
      rw [overwrite_overwrite, ← List.length_append, List.take_left]
    have hlen : (overwrite (overwrite work 0 hash) hash.length identity).length = work.length := by
      rw [overwrite_overwrite]
      simp only [List.length_append, List.length_drop]
      omega
    rw [hashRounds, hin, if_pos (S.length_digest _), Function.iterate_succ_apply]
    refine ih _ _ ?_ (hlen.trans hwork)
    rw [S.length_digest]
    exact hroom

/-- A byte below a multiple of 256 is added by `|`. -/
theorem or_eq_add {x y k : Nat} (hx : 2 ^ k ∣ x) (hy : y < 2 ^ k) : x ||| y = x + y := by
  obtain ⟨q, rfl⟩ := hx
  rw [Nat.mul_comm, ← Nat.shiftLeft_eq, Nat.shiftLeft_add_eq_or_of_lt hy]

theorem or_bytes {a b c d e : Nat} (hb : b < 256) (hc : c < 256) (hd : d < 256) (he : e < 256) :
    a * 2 ^ 32 ||| b * 2 ^ 24 ||| c * 2 ^ 16 ||| d * 2 ^ 8 ||| e =
      a * 2 ^ 32 + b * 2 ^ 24 + c * 2 ^ 16 + d * 2 ^ 8 + e := by
  have h1 : a * 2 ^ 32 ||| b * 2 ^ 24 = a * 2 ^ 32 + b * 2 ^ 24 :=
    or_eq_add (k := 32) (by omega) (by omega)
  have h2 : (a * 2 ^ 32 + b * 2 ^ 24) ||| c * 2 ^ 16 = a * 2 ^ 32 + b * 2 ^ 24 + c * 2 ^ 16 :=
    or_eq_add (k := 24) (by omega) (by omega)
  have h3 : (a * 2 ^ 32 + b * 2 ^ 24 + c * 2 ^ 16) ||| d * 2 ^ 8 =
      a * 2 ^ 32 + b * 2 ^ 24 + c * 2 ^ 16 + d * 2 ^ 8 :=
    or_eq_add (k := 16) (by omega) (by omega)
  rw [h1, h2, h3, or_eq_add (k := 8) (by omega) (by omega)]

theorem toNat_byte_shiftLeft (b : UInt8) {k : UInt64} (hk : k.toNat ≤ 56) :
    ((b.toUInt64 &&& 0xFF) <<< k).toNat = b.toNat * 2 ^ k.toNat := by
  have hb : b.toNat < 2 ^ 8 := b.toNat_lt
  have hpow : 2 ^ k.toNat ≤ 2 ^ 56 := Nat.pow_le_pow_right (by decide) hk
  have hlt : b.toNat * 2 ^ k.toNat < 2 ^ 64 := by nlinarith
  have hmask : b.toNat &&& 255 = b.toNat := Nat.and_two_pow_sub_one_of_lt_two_pow hb
  rw [UInt64.toNat_shiftLeft, UInt64.toNat_and, UInt8.toNat_toUInt64,
    Nat.mod_eq_of_lt (show k.toNat < 64 by omega), Nat.shiftLeft_eq]
  have h255 : (0xFF : UInt64).toNat = 255 := rfl
  rw [h255, hmask, Nat.mod_eq_of_lt hlt]

/-- **A chunk is its five bytes as one number.** -/
theorem toNat_chunkAt {data : Bytes} {i : Nat} (h : i + 5 ≤ data.length) :
    (chunkAt data i).toNat = DisplayReference.bigEndian ((data.drop i).take 5) := by
  have hdrop : ∀ j, j < data.length → data.drop j = data.getD j 0 :: data.drop (j + 1) := by
    intro j hj
    rw [List.drop_eq_getElem_cons hj, List.getD_eq_getElem _ _ hj]
  have hbyte : ∀ j, (data.getD j 0).toNat < 256 := fun j => (data.getD j 0).toNat_lt
  rw [hdrop i (by omega), hdrop (i + 1) (by omega), hdrop (i + 2) (by omega),
    hdrop (i + 3) (by omega), hdrop (i + 4) (by omega)]
  have hlast : ((data.getD (i + 4) 0).toUInt64 &&& 0xFF).toNat = (data.getD (i + 4) 0).toNat := by
    have hshift := toNat_byte_shiftLeft (data.getD (i + 4) 0) (k := 0) (by decide)
    simpa using hshift
  rw [chunkAt, UInt64.toNat_or, UInt64.toNat_or, UInt64.toNat_or, UInt64.toNat_or, hlast,
    toNat_byte_shiftLeft _ (by decide), toNat_byte_shiftLeft _ (by decide),
    toNat_byte_shiftLeft _ (by decide), toNat_byte_shiftLeft _ (by decide)]
  refine (or_bytes (hbyte _) (hbyte _) (hbyte _) (hbyte _)).trans ?_
  simp only [DisplayReference.bigEndian, List.take_succ_cons, List.take_zero, List.foldl_cons,
    List.foldl_nil]
  omega

theorem formatDecimal_five {n : Nat} (h : n < 100000) :
    formatDecimal 5 n = DisplayReference.fiveDigits n := by
  rw [formatDecimal_eq (n := n) h]
  simp [DisplayReference.fiveDigits, List.range_succ]

/-- What the chunk at `5 * j` is printed as. -/
theorem formatDecimal_chunkAt (data : Bytes) {j : Nat} (h : 5 * j + 5 ≤ data.length) :
    formatDecimal 5 (chunkAt data (5 * j) % 100000).toNat =
      DisplayReference.fiveDigits
        (DisplayReference.bigEndian ((data.drop (5 * j)).take 5) % 100000) := by
  have hmod : (100000 : UInt64).toNat = 100000 := rfl
  rw [UInt64.toNat_mod, toNat_chunkAt h, hmod, formatDecimal_five (Nat.mod_lt _ (by decide))]

/-- The digits of the first chunks. -/
def chunkDigits (data : Bytes) (chunks : Nat) : Bytes :=
  (List.range chunks).flatMap fun j =>
    DisplayReference.fiveDigits (DisplayReference.bigEndian ((data.drop (5 * j)).take 5) % 100000)

theorem length_chunkDigits (data : Bytes) (chunks : Nat) :
    (chunkDigits data chunks).length = 5 * chunks := by
  induction chunks with
  | zero => rfl
  | succ chunks ih =>
    rw [chunkDigits, List.range_succ, List.flatMap_append, List.length_append, ← chunkDigits, ih]
    rfl

theorem writeChunks_succ (data buffer : Bytes) (chunks : Nat) :
    writeChunks data buffer (chunks + 1) =
      overwrite (writeChunks data buffer chunks) (5 * chunks)
        (formatDecimal 5 (chunkAt data (5 * chunks) % 100000).toNat ++ [0]) := by
  rw [writeChunks, List.range_succ, List.foldl_append]
  rfl

/-- **The chunks stand one behind the other, and behind the last one is a NUL.** -/
theorem writeChunks_eq {data : Bytes} (buffer : Bytes) (chunks : Nat)
    (hdata : 5 * chunks ≤ data.length)
    (hbuffer : 5 * chunks + 1 ≤ buffer.length) :
    (writeChunks data buffer chunks).take (5 * chunks) = chunkDigits data chunks ∧
      (writeChunks data buffer chunks).length = buffer.length ∧
      (0 < chunks →
        ∃ rest, writeChunks data buffer chunks = chunkDigits data chunks ++ 0 :: rest) := by
  induction chunks with
  | zero => exact ⟨rfl, rfl, fun h => absurd h (lt_irrefl 0)⟩
  | succ chunks ih =>
    obtain ⟨htake, hlen, -⟩ := ih (by omega) (by omega)
    have hdigits := formatDecimal_chunkAt data (j := chunks) (by omega)
    have hsucc : chunkDigits data (chunks + 1) = chunkDigits data chunks ++
        formatDecimal 5 (chunkAt data (5 * chunks) % 100000).toNat := by
      rw [hdigits, chunkDigits, List.range_succ, List.flatMap_append, List.flatMap_singleton]
      rfl
    have hfive : (formatDecimal 5 (chunkAt data (5 * chunks) % 100000).toNat).length = 5 := by
      rw [hdigits]
      rfl
    have hall : writeChunks data buffer (chunks + 1) = chunkDigits data (chunks + 1) ++
        0 :: (writeChunks data buffer chunks).drop (5 * chunks + 6) := by
      rw [writeChunks_succ, overwrite, htake, hsucc, List.length_append, hfive]
      simp only [List.append_assoc, List.singleton_append]
      rfl
    refine ⟨?_, ?_, fun _ => ⟨_, hall⟩⟩
    · rw [hall, ← length_chunkDigits data (chunks + 1), List.take_left]
    · rw [writeChunks_succ, length_overwrite, hlen]
      rw [List.length_append, hfive, hlen]
      simp only [List.length_singleton]
      omega

theorem noNul_digits (data : Bytes) : (0 : UInt8) ∉ DisplayReference.digits data :=
  fun h => (DisplayReference.isDigit_of_mem_digits h).ne_zero rfl

/-- The half of the text for one party, as a string. -/
def halfString (S : Sha512) (iterations : Int) (identifier : CString) (key : EcPublicKey) :
    CString :=
  ⟨DisplayReference.half S iterations identifier key, noNul_digits _⟩

theorem length_digest (iterations : Int) (identifier : CString) (key : EcPublicKey) :
    30 ≤ (DisplayReference.digest S iterations identifier key).length := by
  rw [DisplayReference.digest]
  cases iterations.toNat with
  | zero =>
    simp only [Function.iterate_zero, id, List.length_append, ecPublicKeySerialize,
      List.length_cons, key.length_data]
    omega
  | succ rounds =>
    rw [Function.iterate_succ_apply', S.length_digest]
    decide

/-- **Each half is the value of the specification.** -/
theorem createDisplayString_eq (M : Memory) (iterations : Int) (identifier : CString)
    (key : EcPublicKey) :
    fingerprintGeneratorCreateDisplayString S M iterations identifier key =
      .ok (halfString S iterations identifier key) := by
  have hrounds := hashRounds_eq (S := S) (ecPublicKeySerialize key)
    (le_max_right ([0, 0] ++ ecPublicKeySerialize key ++ identifier.bytes).length
      sha512DigestLength) iterations.toNat
    ([0, 0] ++ ecPublicKeySerialize key ++ identifier.bytes) _ (le_max_left ..)
    (M.length_malloc _)
  have hlen := length_digest (S := S) iterations identifier key
  obtain ⟨-, -, hwrite⟩ := writeChunks_eq (M.malloc 31) 6 hlen
    (M.length_malloc 31).ge
  obtain ⟨rest, hrest⟩ := hwrite (by decide)
  have hstring : CString.ofBuffer (writeChunks (DisplayReference.digest S iterations identifier key)
      (M.malloc 31) 6) = halfString S iterations identifier key := by
    rw [hrest]
    exact CString.ofBuffer_append (halfString S iterations identifier key) rest
  have hversion : fingerprintVersion.toUInt8 = 0 := rfl
  simp only [fingerprintGeneratorCreateDisplayString, hversion, bind, Except.bind, hrounds]
  rw [← DisplayReference.digest, if_neg (Nat.not_lt.2 hlen), hstring]
  rfl

/-! ## 4. The text -/

/-- The two strings in their order. -/
def sortedText (s t : CString) : Bytes :=
  if strcmp s t ≤ 0 then s.bytes ++ t.bytes else t.bytes ++ s.bytes

theorem sortedText_cases (s t : CString) :
    sortedText s t = s.bytes ++ t.bytes ∨ sortedText s t = t.bytes ++ s.bytes := by
  rw [sortedText]
  split
  · exact .inl rfl
  · exact .inr rfl

theorem sortedText_comm (s t : CString) : sortedText s t = sortedText t s := by
  have hswap := strcmp_swap s t
  unfold sortedText
  rcases lt_trichotomy (strcmp s t) 0 with h | h | h
  · rw [if_pos h.le, if_neg (by omega)]
  · obtain rfl := strcmp_eq_zero_iff.1 h
    rfl
  · rw [if_neg (by omega), if_pos (by omega)]

/-- The halves of a sorted text are the two strings. -/
theorem halves_sortedText {s t : CString} {n : Nat} (hs : s.bytes.length = n)
    (ht : t.bytes.length = n) :
    s((sortedText s t).take n, (sortedText s t).drop n) = s(s.bytes, t.bytes) := by
  rcases sortedText_cases s t with h | h
  · rw [h, List.take_left' hs, List.drop_left' hs]
  · rw [h, List.take_left' ht, List.drop_left' ht, Sym2.eq_swap]

/-- **Sorted concatenation is injective on unordered pairs** of strings of one length. -/
theorem sortedText_inj {s t s' t' : CString} {n : Nat} (hs : s.bytes.length = n)
    (ht : t.bytes.length = n) (hs' : s'.bytes.length = n) (ht' : t'.bytes.length = n) :
    sortedText s t = sortedText s' t' ↔ s(s.bytes, t.bytes) = s(s'.bytes, t'.bytes) := by
  constructor
  · intro h
    rw [← halves_sortedText hs ht, ← halves_sortedText hs' ht', h]
  · intro h
    rcases Sym2.eq_iff.1 h with ⟨h₁, h₂⟩ | ⟨h₁, h₂⟩
    · rw [CString.bytes_injective h₁, CString.bytes_injective h₂]
    · rw [CString.bytes_injective h₁, CString.bytes_injective h₂, sortedText_comm]

theorem noNul_sortedText (s t : CString) : (0 : UInt8) ∉ sortedText s t := by
  have happend : (0 : UInt8) ∉ s.bytes ++ t.bytes ∧ (0 : UInt8) ∉ t.bytes ++ s.bytes := by
    simp [s.noNul, t.noNul]
  rcases sortedText_cases s t with h | h
  · exact h ▸ happend.1
  · exact h ▸ happend.2

theorem displayableFingerprintCreate_eq (M : Memory) (s t : CString) :
    displayableFingerprintCreate M (some s) (some t) =
      .ok ⟨s, t, ⟨sortedText s t, noNul_sortedText s t⟩⟩ := by
  have hcopy : ∀ u v : CString, ∃ rest, overwrite (overwrite (M.malloc (s.bytes.length +
      t.bytes.length + 1)) 0 u.bytes) u.bytes.length (v.bytes ++ [0]) =
      (u.bytes ++ v.bytes) ++ 0 :: rest := by
    intro u v
    rw [overwrite_overwrite, ← List.append_assoc, List.append_assoc]
    exact ⟨_, rfl⟩
  have htext : ∃ rest, (if strcmp s t ≤ 0 then
      overwrite (overwrite (M.malloc (s.bytes.length + t.bytes.length + 1)) 0 s.bytes) s.bytes.length
        (t.bytes ++ [0])
      else overwrite (overwrite (M.malloc (s.bytes.length + t.bytes.length + 1)) 0 t.bytes)
        t.bytes.length (s.bytes ++ [0])) = sortedText s t ++ 0 :: rest := by
    rw [sortedText]
    split
    · exact hcopy s t
    · exact hcopy t s
  obtain ⟨rest, hrest⟩ := htext
  rw [displayableFingerprintCreate, hrest]
  exact congrArg (fun text => Except.ok (DisplayableFingerprint.mk s t text))
    (CString.ofBuffer_append ⟨sortedText s t, noNul_sortedText s t⟩ rest)

/-- What a generator makes. -/
def madeFor (S : Sha512) (iterations : Int) (a : CString) (ka : EcPublicKey) (b : CString)
    (kb : EcPublicKey) : Fingerprint where
  displayable :=
    { localFingerprint := halfString S iterations a ka
      remoteFingerprint := halfString S iterations b kb
      displayText := ⟨sortedText (halfString S iterations a ka) (halfString S iterations b kb),
        noNul_sortedText _ _⟩ }
  scannable := ⟨fingerprintVersion, a, ka, b, kb⟩

/-- **A generator makes a fingerprint for all arguments**, whatever its memory holds. -/
theorem createFor_eq (M : Memory) (iterations : Int) (a : CString) (ka : EcPublicKey)
    (b : CString) (kb : EcPublicKey) :
    fingerprintGeneratorCreateFor S M iterations a ka b kb =
      .ok (madeFor S iterations a ka b kb) := by
  rw [fingerprintGeneratorCreateFor, createDisplayString_eq, createDisplayString_eq]
  simp only [bind, Except.bind, displayableFingerprintCreate_eq]
  rfl

theorem length_halfString (iterations : Int) (a : CString) (ka : EcPublicKey) :
    (halfString S iterations a ka).bytes.length = 30 := DisplayReference.length_digits _

theorem isDigit_of_mem_sortedText {iterations : Int} {a b : CString} {ka kb : EcPublicKey}
    {c : UInt8}
    (h : c ∈ sortedText (halfString S iterations a ka) (halfString S iterations b kb)) :
    IsDigit c := by
  have hmem : c ∈ (halfString S iterations a ka).bytes ∨
      c ∈ (halfString S iterations b kb).bytes := by
    rcases sortedText_cases (halfString S iterations a ka) (halfString S iterations b kb)
      with htext | htext
    · exact List.mem_append.1 (htext ▸ h)
    · exact (List.mem_append.1 (htext ▸ h)).symm
  rcases hmem with hmem | hmem
  · exact DisplayReference.isDigit_of_mem_digits hmem
  · exact DisplayReference.isDigit_of_mem_digits hmem

theorem length_sortedText {s t : CString} {n : Nat} (hs : s.bytes.length = n)
    (ht : t.bytes.length = n) : (sortedText s t).length = 2 * n := by
  rcases sortedText_cases s t with h | h
  · rw [h, List.length_append]
    omega
  · rw [h, List.length_append]
    omega

/-- The two halves of a displayed text, in no order. -/
def Fingerprint.halves (f : Fingerprint) : Sym2 Bytes :=
  s(f.displayable.displayText.bytes.take 30, f.displayable.displayText.bytes.drop 30)

theorem halves_madeFor (iterations : Int) (a : CString) (ka : EcPublicKey) (b : CString)
    (kb : EcPublicKey) :
    (madeFor S iterations a ka b kb).halves =
      s((halfString S iterations a ka).bytes, (halfString S iterations b kb).bytes) :=
  halves_sortedText (length_halfString ..) (length_halfString ..)

theorem displayText_madeFor_inj (iterations iterations' : Int) (a b c d : CString)
    (ka kb kc kd : EcPublicKey) :
    (madeFor S iterations a ka b kb).displayable.displayText =
        (madeFor S iterations' c kc d kd).displayable.displayText ↔
      (madeFor S iterations a ka b kb).halves = (madeFor S iterations' c kc d kd).halves := by
  rw [halves_madeFor, halves_madeFor, ← sortedText_inj (length_halfString ..)
    (length_halfString ..) (length_halfString ..) (length_halfString ..)]
  exact ⟨fun h => congrArg CString.bytes h, fun h => CString.bytes_injective h⟩

end Display

/-- **Displayed fingerprints.**  Both parties get the same text of sixty digits, its halves are
the values of the specification, and another text is equal to it exactly if it has the same two
halves. -/
theorem displayed_fingerprints (S : Sha512) (M M' M'' : Memory) (iterations iterations' : Int)
    (a b c d : CString) (ka kb kc kd : EcPublicKey) :
    ∃ own peers other : Fingerprint,
      fingerprintGeneratorCreateFor S M iterations a ka b kb = .ok own ∧
      fingerprintGeneratorCreateFor S M' iterations b kb a ka = .ok peers ∧
      fingerprintGeneratorCreateFor S M'' iterations' c kc d kd = .ok other ∧
      own.displayable.displayText = peers.displayable.displayText ∧
      own.displayable.displayText.bytes.length = 60 ∧
      (∀ x ∈ own.displayable.displayText.bytes, IsDigit x) ∧
      own.displayable.localFingerprint.bytes = DisplayReference.half S iterations a ka ∧
      own.displayable.remoteFingerprint.bytes = DisplayReference.half S iterations b kb ∧
      own.halves =
        s(DisplayReference.half S iterations a ka, DisplayReference.half S iterations b kb) ∧
      (own.displayable.displayText = other.displayable.displayText ↔
        own.halves = other.halves) := by
  refine ⟨_, _, _, createFor_eq .., createFor_eq .., createFor_eq .., ?_, ?_, ?_, rfl, rfl,
    halves_madeFor .., displayText_madeFor_inj ..⟩
  · exact CString.bytes_injective (sortedText_comm ..)
  · exact length_sortedText (length_halfString ..) (length_halfString ..)
  · exact fun x hx => isDigit_of_mem_sortedText hx

end SignalProtocol
