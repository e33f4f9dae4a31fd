/-
# The key derivation (`hkdf.c`)

`hkdf_derive_secrets` is HKDF with a block counter that starts at 1 for message version 3, as
RFC 5869 has it, and at 0 for version 2.  The counter of the expand loop is one byte, and the
loop ends when it has reached the number of blocks plus the start: for version 3 and 255 blocks
that is 256, which no byte reaches.  The functions of the source are followed step for step in
section 1, with fuel for the loop; section 2 is the specification.

Within the lengths that HKDF permits, the function returns the specified bytes for version 2, and
for version 3 up to 254 blocks; beyond that it does not return.
-/
import SignalProtocol.Crypto
import SignalProtocol.Packing

namespace SignalProtocol

/-! ## 1. The functions -/

/-- `HASH_OUTPUT_SIZE`. -/
def hashOutputSize : Nat := 32

/-- The HMAC callbacks: what `final` returns for a key and all that `update` was given. -/
structure HmacSha256 where
  mac : Bytes → Bytes → Bytes
  length_mac : ∀ key data, (mac key data).length = hashOutputSize

section Functions

variable (H : HmacSha256)

/-- `hkdf_extract`. -/
def hkdfExtract (salt inputKeyMaterial : Bytes) : Bytes := H.mac salt inputKeyMaterial

/-- The loop of `hkdf_expand`.  The counter `i` is a `uint8_t`, the bound an `int`; a `step` or an
`info` that is missing is not hashed. -/
def hkdfExpandLoop (prk : Bytes) (info : Option Bytes) (bound : Nat) :
    Nat → UInt8 → Nat → Option Bytes → Bytes → Option Bytes
  | 0, _, _, _, _ => none
  | fuel + 1, i, remainingLen, step, result =>
    if i.toNat < bound then
      let step := H.mac prk (step.getD [] ++ info.getD [] ++ [i])
      let stepSize := min remainingLen step.length
      hkdfExpandLoop prk info bound fuel (i + 1) (remainingLen - stepSize) (some step)
        (result ++ step.take stepSize)
    else some result

/-- `hkdf_expand`. -/
def hkdfExpand (context : HkdfContext) (fuel : Nat) (prk : Bytes) (info : Option Bytes)
    (outputLen : Nat) : Option Bytes :=
  let iterations := (outputLen + hashOutputSize - 1) / hashOutputSize
  hkdfExpandLoop H prk info (iterations + context.iterationStartOffset) fuel
    (UInt8.ofNat context.iterationStartOffset) outputLen none []

/-- `hkdf_derive_secrets`. -/
def hkdfDeriveSecrets (context : HkdfContext) (fuel : Nat) (inputKeyMaterial salt : Bytes)
    (info : Option Bytes) (outputLen : Nat) : Option Bytes :=
  hkdfExpand H context fuel (hkdfExtract H salt inputKeyMaterial) info outputLen

end Functions

/-! ## 2. The specification -/

namespace Rfc5869

variable (H : HmacSha256)

/-- `T(n)` of RFC 5869, with a block counter that starts at `first`. -/
def block (first : Nat) (prk info : Bytes) : Nat → Bytes
  | 0 => []
  | n + 1 => H.mac prk (block first prk info n ++ info ++ [UInt8.ofNat (first + n)])

/-- `T(1) | T(2) | ... | T(n)`. -/
def blocks (first : Nat) (prk info : Bytes) (n : Nat) : Bytes :=
  (List.range n).flatMap fun j => block H first prk info (j + 1)

/-- HKDF: extract, then the first `length` bytes of as many blocks as that takes. -/
def hkdf (first : Nat) (inputKeyMaterial salt info : Bytes) (length : Nat) : Bytes :=
  (blocks H first (H.mac salt inputKeyMaterial) info ((length + 31) / 32)).take length

variable {H} {first : Nat} {prk info : Bytes}

theorem length_block (n : Nat) : (block H first prk info (n + 1)).length = 32 := H.length_mac ..

theorem blocks_zero : blocks H first prk info 0 = [] := rfl

theorem blocks_succ (n : Nat) :
    blocks H first prk info (n + 1) =
      blocks H first prk info n ++ block H first prk info (n + 1) := by
  rw [blocks, List.range_succ, List.flatMap_append, List.flatMap_singleton]
  rfl

theorem length_blocks (n : Nat) : (blocks H first prk info n).length = 32 * n := by
  induction n with
  | zero => rfl
  | succ n ih => rw [blocks_succ, List.length_append, ih, length_block, Nat.mul_succ]

theorem length_hkdf (inputKeyMaterial salt info : Bytes) (length : Nat) :
    (hkdf H first inputKeyMaterial salt info length).length = length := by
  rw [hkdf, List.length_take, length_blocks]
  omega

/-- One more block adds what is still missing. -/
theorem take_blocks_succ (length n : Nat) :
    (blocks H first prk info (n + 1)).take length =
      (blocks H first prk info n).take length ++
        (block H first prk info (n + 1)).take (min (length - 32 * n) 32) := by
  have hblock : (block H first prk info (n + 1)).length = 32 := length_block n
  rw [blocks_succ, List.take_append, length_blocks]
  refine congrArg _ ?_
  rcases Nat.le_total (length - 32 * n) 32 with h | h
  · rw [Nat.min_eq_left h]
  · rw [Nat.min_eq_right h, List.take_of_length_le (by omega), List.take_of_length_le (by omega)]

end Rfc5869

/-! ## 3. The loop -/

section Loop

variable {H : HmacSha256} {prk : Bytes} {info : Option Bytes} {first length : Nat}

open Rfc5869

/-- The step buffer after `n` blocks. -/
def stepBuffer (H : HmacSha256) (first : Nat) (prk info : Bytes) : Nat → Option Bytes
  | 0 => none
  | n + 1 => some (block H first prk info (n + 1))

theorem getD_stepBuffer (info : Bytes) (n : Nat) :
    (stepBuffer H first prk info n).getD [] = block H first prk info n := by
  cases n with
  | zero => rfl
  | succ n => rfl

/-- **The loop computes the missing blocks**, as long as its counter can reach the bound. -/
theorem hkdfExpandLoop_eq {total : Nat} (hbound : first + total < 256) (rounds : Nat) :
    ∀ (n fuel : Nat), n + rounds = total → rounds < fuel →
      hkdfExpandLoop H prk info (total + first) fuel (UInt8.ofNat (first + n)) (length - 32 * n)
          (stepBuffer H first prk (info.getD []) n)
          ((blocks H first prk (info.getD []) n).take length) =
        some ((blocks H first prk (info.getD []) total).take length) := by
  induction rounds with
  | zero =>
    intro n fuel hn hfuel
    obtain ⟨fuel, rfl⟩ := Nat.exists_eq_succ_of_ne_zero (Nat.ne_of_gt hfuel)
    obtain rfl : n = total := hn
    have hi : (UInt8.ofNat (first + n)).toNat = first + n :=
      UInt8.toNat_ofNat_of_lt' hbound
    rw [hkdfExpandLoop, hi, if_neg (by omega)]
  | succ rounds ih =>
    intro n fuel hn hfuel
    obtain ⟨fuel, rfl⟩ := Nat.exists_eq_succ_of_ne_zero (Nat.ne_of_gt (Nat.zero_lt_of_lt hfuel))
    have hi : (UInt8.ofNat (first + n)).toNat = first + n :=
      UInt8.toNat_ofNat_of_lt' (show first + n < 256 by omega)
    have hnext : UInt8.ofNat (first + n) + 1 = UInt8.ofNat (first + (n + 1)) :=
      (UInt8.ofNat_add (first + n) 1).symm
    have hstep : H.mac prk ((stepBuffer H first prk (info.getD []) n).getD [] ++ info.getD [] ++
        [UInt8.ofNat (first + n)]) = block H first prk (info.getD []) (n + 1) := by
      rw [getD_stepBuffer]
      rfl
    have hremaining : length - 32 * n - min (length - 32 * n) 32 = length - 32 * (n + 1) := by
      omega
    rw [hkdfExpandLoop, hi, if_pos (by omega)]
    dsimp only
    rw [hstep, hnext, length_block, hremaining, ← take_blocks_succ]
    exact ih (n + 1) fuel (by omega) (by omega)

/-- **A loop whose bound no byte reaches does not end.** -/
theorem hkdfExpandLoop_none {bound : Nat} (hbound : 256 ≤ bound) (fuel : Nat) :
    ∀ (i : UInt8) (remainingLen : Nat) (step : Option Bytes) (result : Bytes),
      hkdfExpandLoop H prk info bound fuel i remainingLen step result = none := by
  induction fuel with
  | zero => exact fun _ _ _ _ => rfl
  | succ fuel ih =>
    intro i remainingLen step result
    have hi : i.toNat < bound := i.toNat_lt.trans_le hbound
    rw [hkdfExpandLoop, if_pos hi]
    exact ih ..

end Loop

/-! ## 4. The derivation -/

section Derive

variable {H : HmacSha256}

/-- The call returns `output`, however much more time it is given. -/
def Returns (H : HmacSha256) (context : HkdfContext) (inputKeyMaterial salt : Bytes)
    (info : Option Bytes) (outputLen : Nat) (output : Bytes) : Prop :=
  ∃ enough, ∀ fuel, enough ≤ fuel →
    hkdfDeriveSecrets H context fuel inputKeyMaterial salt info outputLen = some output

theorem returns_of_counter {context : HkdfContext} {outputLen : Nat}
    (hcounter : context.iterationStartOffset + (outputLen + 31) / 32 < 256)
    (inputKeyMaterial salt : Bytes) (info : Option Bytes) :
    Returns H context inputKeyMaterial salt info outputLen
      (Rfc5869.hkdf H context.iterationStartOffset inputKeyMaterial salt (info.getD [])
        outputLen) := by
  refine ⟨(outputLen + 31) / 32 + 1, fun fuel hfuel => ?_⟩
  have hloop := @hkdfExpandLoop_eq H (H.mac salt inputKeyMaterial) info
    context.iterationStartOffset outputLen _ hcounter _ 0 fuel (Nat.zero_add _) hfuel
  rw [Rfc5869.blocks_zero, List.take_nil] at hloop
  exact hloop

theorem not_returns_of_counter {context : HkdfContext} {outputLen : Nat}
    (hcounter : 256 ≤ (outputLen + 31) / 32 + context.iterationStartOffset)
    (inputKeyMaterial salt : Bytes) (info : Option Bytes) (output : Bytes) :
    ¬ Returns H context inputKeyMaterial salt info outputLen output := by
  rintro ⟨enough, h⟩
  have hnone : hkdfDeriveSecrets H context enough inputKeyMaterial salt info outputLen = none :=
    hkdfExpandLoop_none hcounter enough ..
  exact absurd ((h enough le_rfl).symm.trans hnone) (Option.some_ne_none _)

theorem hkdfCreate_cases {messageVersion : UInt32} {context : HkdfContext}
    (h : hkdfCreate messageVersion = .ok context) :
    messageVersion = 2 ∧ context = ⟨0⟩ ∨ messageVersion = 3 ∧ context = ⟨1⟩ := by
  unfold hkdfCreate at h
  split at h
  · next hversion => exact .inl ⟨hversion, (Except.ok.inj h).symm⟩
  · split at h
    · next hversion => exact .inr ⟨hversion, (Except.ok.inj h).symm⟩
    · cases h

/-- **The derivation returns the bytes of the specification** for message version 2 at every
permitted length, and for version 3 exactly when the last block counter is below 255. -/
theorem hkdf_correct_iff (H : HmacSha256) {messageVersion : UInt32} {context : HkdfContext}
    (hcreate : hkdfCreate messageVersion = .ok context) (inputKeyMaterial salt : Bytes)
    (info : Option Bytes) {outputLen : Nat} (hpos : 1 ≤ outputLen)
    (hpermitted : outputLen ≤ 255 * 32) :
    (∃ output, Returns H context inputKeyMaterial salt info outputLen output ∧
        output.length = outputLen ∧
        output = Rfc5869.hkdf H (if messageVersion = 3 then 1 else 0) inputKeyMaterial salt
          (info.getD []) outputLen) ↔
      (messageVersion = 3 → outputLen ≤ 254 * 32) := by
  rcases hkdfCreate_cases hcreate with ⟨rfl, rfl⟩ | ⟨rfl, rfl⟩
  · -- version 2: the last counter is 254
    refine iff_of_true ⟨_, returns_of_counter ?_ inputKeyMaterial salt info,
      Rfc5869.length_hkdf .., rfl⟩ fun h => absurd h (by decide)
    dsimp only
    omega
  · constructor
    · rintro ⟨output, hreturns, -, -⟩ -
      by_contra hlong
      refine not_returns_of_counter ?_ inputKeyMaterial salt info output hreturns
      dsimp only
      omega
    · intro hshort
      have hlen := hshort rfl
      refine ⟨_, returns_of_counter ?_ inputKeyMaterial salt info, Rfc5869.length_hkdf .., rfl⟩
      dsimp only
      omega

/-- A MAC that is always zero. -/
def zeroMac : HmacSha256 := ⟨fun _ _ => List.replicate 32 0, fun _ _ => rfl⟩

theorem hkdf_correct_iff_partial_block :
    hkdfCreate 3 = .ok ⟨1⟩ ∧
      ((∃ output, Returns zeroMac ⟨1⟩ [11] [0, 1] (some [240]) 42 output ∧ output.length = 42 ∧
          output = Rfc5869.hkdf zeroMac 1 [11] [0, 1] [240] 42) ↔
        ((3 : UInt32) = 3 → 42 ≤ 254 * 32)) :=
  ⟨rfl, hkdf_correct_iff zeroMac rfl [11] [0, 1] (some [240]) (by decide) (by decide)⟩

/-- **255 blocks for version 3**: permitted by the specification, and the call never returns. -/
theorem hkdf_last_block_diverges :
    hkdfCreate 3 = .ok ⟨1⟩ ∧ 254 * 32 + 1 ≤ 255 * 32 ∧
      ∀ fuel, hkdfDeriveSecrets zeroMac ⟨1⟩ fuel [11] [0, 1] (some [240]) (254 * 32 + 1) = none :=
  ⟨rfl, by decide, fun fuel => hkdfExpandLoop_none (by decide) fuel ..⟩

end Derive

end SignalProtocol
