/-
# Comparing keys and buffers

The model compares public keys with `=` and `<`.  The code has bytes: where it asks whether two
keys, buffers or MACs are the same it calls `signal_constant_memcmp`, which looks at every byte
whatever it finds, and where it needs an order (`ratcheting_session_symmetric_is_alice`) it
calls `memcmp`.

`comparisons_sound` says that these are the model's `=` and `<`: the accumulated differences
are zero iff the bytes are equal, and `memcmp` of two keys is negative iff the first is smaller
in the lexicographic order, which is total, with a null key below all others.  The constant-time
comparison cannot stand in for the other one: it gives the same result for both orders of its arguments
(`signalConstantMemcmp_comm`), so that both parties of a symmetric session would play the same
role.
-/
import Mathlib.Data.List.Lex
import Mathlib.Data.List.Zip
import Mathlib.Order.WithBot
import SignalProtocol.Cipher
import SignalProtocol.Codec

namespace SignalProtocol

/-! ## 1. The comparisons -/

/-- `signal_constant_memcmp`: the differences of all bytes, accumulated. -/
def signalConstantMemcmp (s₁ s₂ : Bytes) (n : Nat) : UInt8 :=
  ((s₁.zip s₂).take n).foldl (fun result c => result ||| (c.1 ^^^ c.2)) 0

/-- `memcmp`: the difference of the first bytes that differ.  Callers use the sign only. -/
def memcmp : Bytes → Bytes → Nat → Int
  | a :: s₁, b :: s₂, n + 1 => if a = b then memcmp s₁ s₂ n else (a.toNat : Int) - b.toNat
  | _, _, _ => 0

/-- The comparison of two pointers, with the null pointer first. -/
def comparePointers {α : Type} (compare : α → α → Int) : Option α → Option α → Int
  | none, none => 0
  | none, some _ => -1
  | some _, none => 1
  | some a, some b => compare a b

/-- `ec_public_key_compare`. -/
def ecPublicKeyCompare : Option PlainKey → Option PlainKey → Int :=
  comparePointers fun key₁ key₂ => (signalConstantMemcmp key₁.1 key₂.1 32).toNat

/-- `ec_public_key_memcmp`. -/
def ecPublicKeyMemcmp : Option PlainKey → Option PlainKey → Int :=
  comparePointers fun key₁ key₂ => memcmp key₁.1 key₂.1 32

/-- `ec_private_key_compare`. -/
def ecPrivateKeyCompare : Option PlainKey → Option PlainKey → Int :=
  comparePointers fun key₁ key₂ => (signalConstantMemcmp key₁.1 key₂.1 32).toNat

/-- Two runs of bytes: the shorter one first, then by the differences. -/
def compareRuns (data₁ data₂ : Bytes) : Int :=
  if data₁.length < data₂.length then -1
  else if data₁.length > data₂.length then 1
  else (signalConstantMemcmp data₁ data₂ data₁.length).toNat

/-- `signal_buffer_compare`. -/
def signalBufferCompare : Option Bytes → Option Bytes → Int := comparePointers compareRuns

/-! ## 2. Equality -/

theorem foldl_or_eq_zero_iff {l : List (UInt8 × UInt8)} {acc : UInt8} :
    l.foldl (fun result c => result ||| (c.1 ^^^ c.2)) acc = 0 ↔
      acc = 0 ∧ ∀ c ∈ l, c.1 = c.2 := by
  induction l generalizing acc with
  | nil => simp
  | cons c l ih => rw [List.foldl_cons, ih, UInt8.or_eq_zero_iff, UInt8.xor_eq_zero_iff,
      List.forall_mem_cons, and_assoc]

/-- **No difference is left iff the bytes are equal.** -/
theorem signalConstantMemcmp_eq_zero_iff {s₁ s₂ : Bytes} (h : s₁.length = s₂.length) :
    signalConstantMemcmp s₁ s₂ s₁.length = 0 ↔ s₁ = s₂ := by
  rw [signalConstantMemcmp, foldl_or_eq_zero_iff, List.take_of_length_le (by simp)]
  constructor
  · rintro ⟨-, hall⟩
    refine List.ext_getElem h fun i h₁ h₂ => ?_
    exact hall (s₁[i], s₂[i]) (List.mem_iff_getElem.2 ⟨i, by simp [h₁, h₂], by simp⟩)
  · rintro rfl
    refine ⟨rfl, fun c hc => ?_⟩
    obtain ⟨i, hi, rfl⟩ := List.mem_iff_getElem.1 hc
    simp

/-- The order of the arguments does not matter. -/
theorem signalConstantMemcmp_comm (s₁ s₂ : Bytes) (n : Nat) :
    signalConstantMemcmp s₁ s₂ n = signalConstantMemcmp s₂ s₁ n := by
  have hswap : (s₁.zip s₂).take n = ((s₂.zip s₁).take n).map Prod.swap := by
    rw [List.map_take, List.zip_swap]
  rw [signalConstantMemcmp, signalConstantMemcmp, hswap, List.foldl_map]
  simp only [Prod.fst_swap, Prod.snd_swap, UInt8.xor_comm]

theorem comparePointers_eq_zero_iff {α : Type} {compare : α → α → Int}
    (h : ∀ a b, compare a b = 0 ↔ a = b) (a b : Option α) :
    comparePointers compare a b = 0 ↔ a = b := by
  cases a with
  | none => cases b <;> simp [comparePointers]
  | some a =>
    cases b with
    | none => simp [comparePointers]
    | some b => simp [comparePointers, h]

theorem compareRuns_eq_zero_iff (data₁ data₂ : Bytes) :
    compareRuns data₁ data₂ = 0 ↔ data₁ = data₂ := by
  unfold compareRuns
  split
  · rename_i h
    exact ⟨fun h' => absurd h' (by decide), fun h' => absurd (h' ▸ h) (Nat.lt_irrefl _)⟩
  · split
    · rename_i h
      exact ⟨fun h' => absurd h' (by decide), fun h' => absurd (h' ▸ h) (Nat.lt_irrefl _)⟩
    · rw [← signalConstantMemcmp_eq_zero_iff (by omega), Int.natCast_eq_zero,
        ← UInt8.toNat_inj]
      rfl

/-! ## 3. Order -/

instance byteOrder : LinearOrder UInt8 where
  le_refl := UInt8.le_refl
  le_trans _ _ _ := UInt8.le_trans
  lt_iff_le_not_ge a b := by
    rw [UInt8.le_iff_toNat_le, UInt8.le_iff_toNat_le, UInt8.lt_iff_toNat_lt]
    omega
  le_antisymm _ _ := UInt8.le_antisymm
  le_total := UInt8.le_total
  toDecidableLE := inferInstance
  toDecidableLT := inferInstance

/-- **`memcmp` orders runs of one length by their first difference.** -/
theorem memcmp_neg_iff {s t : Bytes} (hlen : s.length = t.length) :
    memcmp s t s.length < 0 ↔ s < t := by
  induction s generalizing t with
  | nil =>
    rw [List.eq_nil_of_length_eq_zero hlen.symm]
    simp [memcmp]
  | cons x s ih =>
    cases t with
    | nil => cases hlen
    | cons y t =>
      rw [List.length_cons, memcmp, List.cons_lt_cons_iff]
      by_cases hxy : x = y
      · rw [if_pos hxy, ih (Nat.succ.inj hlen), hxy]
        simp
      · have hdiff : ((x.toNat : Int) - y.toNat < 0) ↔ x < y := by
          rw [UInt8.lt_iff_toNat_lt]
          omega
        rw [if_neg hxy, hdiff]
        simp [hxy]

theorem memcmp_key_neg_iff (a b : PlainKey) : memcmp a.1 b.1 32 < 0 ↔ a < b := by
  have hlt := memcmp_neg_iff (a.2.trans b.2.symm)
  rwa [a.2] at hlt

/-- The null key is below all others. -/
theorem ecPublicKeyMemcmp_neg_iff (a b : WithBot PlainKey) : ecPublicKeyMemcmp a b < 0 ↔ a < b := by
  cases a with
  | bot =>
    cases b with
    | bot => exact iff_of_false (by decide) (lt_irrefl _)
    | coe b => exact iff_of_true (Int.negSucc_lt_zero 0) (WithBot.bot_lt_coe b)
  | coe a =>
    cases b with
    | bot => exact iff_of_false (Int.not_lt_of_ge Int.one_nonneg) not_lt_bot
    | coe b =>
      have hcoe : (a : WithBot PlainKey) < b ↔ a < b := WithBot.coe_lt_coe
      exact (memcmp_key_neg_iff a b).trans hcoe.symm

/-- **The comparisons of the code are those of the model**: `ec_public_key_compare`,
`ec_private_key_compare` and `signal_buffer_compare` tell equal arguments from different ones,
and `ec_public_key_memcmp` is negative iff the first key is smaller, or only the first is
null.  So the party with the smaller base key plays Alice. -/
theorem comparisons_sound :
    (∀ a b, ecPublicKeyCompare a b = 0 ↔ a = b) ∧ (∀ a b, ecPrivateKeyCompare a b = 0 ↔ a = b) ∧
      (∀ a b, signalBufferCompare a b = 0 ↔ a = b) ∧
      (∀ a b : WithBot PlainKey, ecPublicKeyMemcmp a b < 0 ↔ a < b) ∧
      ∀ p : SymmetricParameters PlainKey PlainKey, ratchetingSessionSymmetricIsAlice p =
        decide (ecPublicKeyMemcmp (some p.ourBaseKey.publicKey) (some p.theirBaseKey) < 0) := by
  have hkeys : ∀ a b : PlainKey, ((signalConstantMemcmp a.1 b.1 32).toNat : Int) = 0 ↔ a = b := by
    intro a b
    have heq := signalConstantMemcmp_eq_zero_iff (a.2.trans b.2.symm)
    rw [a.2] at heq
    rw [Int.natCast_eq_zero, Subtype.ext_iff, ← heq, ← UInt8.toNat_inj]
    rfl
  refine ⟨comparePointers_eq_zero_iff hkeys, comparePointers_eq_zero_iff hkeys,
    comparePointers_eq_zero_iff compareRuns_eq_zero_iff, ecPublicKeyMemcmp_neg_iff, fun p => ?_⟩
  rw [ratchetingSessionSymmetricIsAlice]
  exact decide_eq_decide.2 (memcmp_key_neg_iff ..).symm

end SignalProtocol
