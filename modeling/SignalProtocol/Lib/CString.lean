/-
# C strings

A C string is the bytes in front of the first NUL of a buffer.  `CString` carries that it has no
NUL, `ofBuffer` reads one from a buffer, `strcmp` compares two, and `formatDecimal` is what
`snprintf` writes for a number with leading zeros.
-/
import Mathlib.Data.List.GetD
import Mathlib.Data.List.TakeWhile
import Mathlib.Data.Nat.Digits.Defs
import Mathlib.Data.Nat.Digits.Lemmas
import Mathlib.Tactic.Common

namespace SignalProtocol

/-! ## 1. Strings and buffers -/

/-- The bytes of a C string, without the NUL that ends it. -/
structure CString where
  bytes : List UInt8
  noNul : (0 : UInt8) ∉ bytes
  deriving DecidableEq

namespace CString

theorem bytes_injective {s t : CString} (h : s.bytes = t.bytes) : s = t := by
  cases s
  cases t
  cases h
  rfl

/-- The string at the start of a buffer. -/
def ofBuffer (buffer : List UInt8) : CString where
  bytes := buffer.takeWhile (· != 0)
  noNul h := by simpa using List.mem_takeWhile_imp h

theorem takeWhile_of_noNul {b : List UInt8} (h : (0 : UInt8) ∉ b) :
    b.takeWhile (· != 0) = b :=
  List.takeWhile_eq_self_iff.2 fun _ hc => bne_iff_ne.2 fun hzero => h (hzero ▸ hc)

theorem bytes_ofBuffer {b : List UInt8} (h : (0 : UInt8) ∉ b) : (ofBuffer b).bytes = b :=
  takeWhile_of_noNul h

/-- **A string ends at the first NUL**, whatever is behind it. -/
theorem ofBuffer_append (s : CString) (rest : List UInt8) :
    ofBuffer (s.bytes ++ 0 :: rest) = s := by
  refine bytes_injective ?_
  dsimp only [ofBuffer]
  rw [List.takeWhile_append_of_pos]
  · rw [List.takeWhile_cons_of_neg (by decide), List.append_nil]
  · exact fun _ hc => bne_iff_ne.2 fun hzero => s.noNul (hzero ▸ hc)

/-- Behind the bytes that a buffer is filled with stands the NUL that ends them. -/
theorem ofBuffer_terminated (b : List UInt8) : ofBuffer (b ++ [0]) = ofBuffer b := by
  refine bytes_injective ?_
  dsimp only [ofBuffer]
  induction b with
  | nil => rfl
  | cons c b ih =>
    rcases eq_or_ne c 0 with rfl | hc
    · rfl
    · have hpos : (c != 0) = true := bne_iff_ne.2 hc
      rw [List.cons_append, List.takeWhile_cons, List.takeWhile_cons, if_pos hpos, if_pos hpos, ih]

theorem ofBuffer_bytes (s : CString) : ofBuffer s.bytes = s :=
  bytes_injective (bytes_ofBuffer s.noNul)

end CString

/-! ## 2. Comparison -/

/-- `strcmp` on the bytes in front of the NULs: the difference at the first place where the two
strings differ, the end counting as 0. -/
def strcmpBytes : List UInt8 → List UInt8 → Int
  | [], [] => 0
  | [], d :: _ => -d.toNat
  | c :: _, [] => c.toNat
  | c :: s, d :: t => if c = d then strcmpBytes s t else c.toNat - d.toNat

/-- `strcmp`. -/
def strcmp (s t : CString) : Int := strcmpBytes s.bytes t.bytes

theorem strcmpBytes_swap (s : List UInt8) : ∀ t, strcmpBytes t s = -strcmpBytes s t := by
  induction s with
  | nil =>
    intro t
    cases t with
    | nil => rfl
    | cons d t => exact (Int.neg_neg _).symm
  | cons c s ih =>
    intro t
    cases t with
    | nil => rfl
    | cons d t =>
      rcases eq_or_ne c d with rfl | hne
      · rw [strcmpBytes, strcmpBytes, if_pos rfl, if_pos rfl, ih t]
      · rw [strcmpBytes, strcmpBytes, if_neg hne, if_neg hne.symm, Int.neg_sub]

theorem toNat_ne_zero_of_mem {s : List UInt8} (h : (0 : UInt8) ∉ s) {c : UInt8} (hc : c ∈ s) :
    c.toNat ≠ 0 := fun hzero => by
  have hc0 : c = 0 := UInt8.toNat_inj.1 hzero
  exact h (hc0 ▸ hc)

theorem eq_of_strcmpBytes (s : List UInt8) :
    ∀ t, (0 : UInt8) ∉ s → (0 : UInt8) ∉ t → strcmpBytes s t = 0 → s = t := by
  induction s with
  | nil =>
    intro t _ ht h
    cases t with
    | nil => rfl
    | cons d t =>
      have hd := toNat_ne_zero_of_mem ht List.mem_cons_self
      rw [strcmpBytes] at h
      omega
  | cons c s ih =>
    intro t hs ht h
    cases t with
    | nil =>
      have hc := toNat_ne_zero_of_mem hs List.mem_cons_self
      rw [strcmpBytes] at h
      omega
    | cons d t =>
      rcases eq_or_ne c d with rfl | hne
      · rw [strcmpBytes, if_pos rfl] at h
        rw [ih t (fun hmem => hs (List.mem_cons_of_mem _ hmem))
          (fun hmem => ht (List.mem_cons_of_mem _ hmem)) h]
      · rw [strcmpBytes, if_neg hne] at h
        exact absurd (UInt8.toNat_inj.1 (by omega)) hne

/-- **`strcmp` answers 0 only for equal strings.** -/
theorem strcmp_eq_zero_iff {s t : CString} : strcmp s t = 0 ↔ s = t := by
  constructor
  · intro h
    exact CString.bytes_injective (eq_of_strcmpBytes _ _ s.noNul t.noNul h)
  · rintro rfl
    have hswap := strcmpBytes_swap s.bytes s.bytes
    rw [strcmp]
    omega

theorem strcmp_swap (s t : CString) : strcmp t s = -strcmp s t := strcmpBytes_swap ..

/-! ## 3. Decimal numbers -/

/-- The digit characters. -/
def digitChar (d : Nat) : UInt8 := UInt8.ofNat (48 + d)

/-- `snprintf` with `%0<width>d`. -/
def formatDecimal (width n : Nat) : List UInt8 :=
  (((Nat.digits 10 n).reverse).leftpad width 0).map digitChar

/-- **A number that fits is written with exactly that many digits**, most significant first. -/
theorem formatDecimal_eq {width n : Nat} (h : n < 10 ^ width) :
    formatDecimal width n =
      (List.range width).map fun j => digitChar (n / 10 ^ (width - 1 - j) % 10) := by
  have hlen : (Nat.digits 10 n).length ≤ width := by
    rcases Nat.eq_zero_or_pos n with rfl | hn
    · exact Nat.zero_le _
    · exact (Nat.digits_length_le_iff (by decide) n).2 h
  have hpad : (List.leftpad width 0 (Nat.digits 10 n).reverse) =
      (List.range width).map fun j => n / 10 ^ (width - 1 - j) % 10 := by
    refine List.ext_getElem ?_ fun j hj hj' => ?_
    · rw [List.length_leftpad, List.length_reverse, List.length_map, List.length_range]
      omega
    · have hjw : j < width := by simpa using hj'
      rw [List.getElem_map, List.getElem_range, ← Nat.getD_digits _ _ (by decide)]
      -- in front of the digits stand the zeros that the default gives
      simp only [List.leftpad, List.length_reverse]
      rcases Nat.lt_or_ge j (width - (Nat.digits 10 n).length) with hzero | hdigit
      · rw [List.getElem_append_left (by simpa using hzero), List.getElem_replicate,
          List.getD_eq_default _ _ (by omega)]
      · rw [List.getElem_append_right (by simpa using hdigit), List.getElem_reverse,
          List.getD_eq_getElem _ _ (by omega)]
        congr 1
        simp only [List.length_replicate]
        omega
  rw [formatDecimal, hpad, List.map_map]
  rfl

/-- A decimal digit. -/
def IsDigit (c : UInt8) : Prop := 48 ≤ c.toNat ∧ c.toNat ≤ 57

theorem isDigit_digitChar {d : Nat} (h : d < 10) : IsDigit (digitChar d) := by
  rw [IsDigit, digitChar, UInt8.toNat_ofNat_of_lt' (by simp only [UInt8.size]; omega)]
  omega

theorem IsDigit.ne_zero {c : UInt8} (h : IsDigit c) : c ≠ 0 := by
  rintro rfl
  exact absurd h.1 (by decide)

end SignalProtocol
