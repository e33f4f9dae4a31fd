/-
# Lists of pre keys (`key_helper.c`)

`signal_protocol_key_helper_generate_pre_keys` numbers the pre keys it makes by a circular run
of ids: it starts at a given id and goes back to 1 after 0xFFFFFE, since 0xFFFFFF is the id of
the last-resort key.  The ids come from `start - 1 + i`, computed in 32 bits, and are reduced
modulo 0xFFFFFE.  The modulus does not divide `2 ^ 32`, so the run is circular only as long as
the sum does not wrap around.
-/
import SignalProtocol.Builder
import SignalProtocol.Symbolic

namespace SignalProtocol

variable {Priv Pub B : Type}

/-! ## 1. The function -/

/-- `session_pre_key`. -/
structure SessionPreKey (Priv Pub : Type) where
  id : UInt32
  keyPair : EcKeyPair Priv Pub
  deriving DecidableEq, Repr

/-- The id of pre key number `i`. -/
def preKeyIdAt (startIndex i : UInt32) : UInt32 :=
  (startIndex + i) % (preKeyMediumMaxValue - 1) + 1

/-- The loop of `signal_protocol_key_helper_generate_pre_keys` from `i` on.  The number of rounds
is what is left. -/
def generatePreKeysFrom (P : Provider Priv Pub B) (rng : Rng Priv B) (startIndex count : UInt32) :
    Nat → UInt32 → Op SgError Nat (List (SessionPreKey Priv Pub))
  | 0, _ => pure []
  | rounds + 1, i =>
    if i < count then do
      let keyPair ← curveGenerateKeyPair P rng
      let rest ← generatePreKeysFrom P rng startIndex count rounds (i + 1)
      return ⟨preKeyIdAt startIndex i, keyPair⟩ :: rest
    else pure []

/-- `signal_protocol_key_helper_generate_pre_keys`. -/
def signalProtocolKeyHelperGeneratePreKeys (P : Provider Priv Pub B) (rng : Rng Priv B)
    (start count : UInt32) : Op SgError Nat (List (SessionPreKey Priv Pub)) :=
  generatePreKeysFrom P rng (start - 1) count count.toNat 0

/-! ## 2. What is returned -/

/-- The ids of a list of `count` pre keys. -/
def preKeyIds (startIndex : UInt32) (count : Nat) : List UInt32 :=
  (List.range count).map fun i => preKeyIdAt startIndex (UInt32.ofNat i)

section Generate

variable {P : Provider Priv Pub B} {rng : Rng Priv B}

/-- The loop makes one pre key for each number that is left. -/
theorem generatePreKeysFrom_ok (hgen : ∀ n, ∃ k, rng.privateKey n = .ok k)
    (startIndex count : UInt32) (rounds : Nat) :
    ∀ (i : UInt32) (n : Nat), i.toNat + rounds = count.toNat →
      ∃ keys, generatePreKeysFrom P rng startIndex count rounds i n = (.ok keys, n + rounds) ∧
        keys.map SessionPreKey.id = (List.range rounds).map fun j =>
          preKeyIdAt startIndex (UInt32.ofNat (i.toNat + j)) := by
  induction rounds with
  | zero => exact fun i n _ => ⟨[], rfl, rfl⟩
  | succ rounds ih =>
    intro i n hi
    obtain ⟨k, hk⟩ := hgen n
    have hcount := count.toNat_lt
    have hlt : i < count := by
      rw [UInt32.lt_iff_toNat_lt]
      omega
    have hsucc : (i + 1).toNat = i.toNat + 1 := by
      rw [UInt32.toNat_add]
      exact Nat.mod_eq_of_lt (show i.toNat + 1 < 2 ^ 32 by omega)
    obtain ⟨keys, hkeys, hids⟩ := ih (i + 1) (n + 1) (by omega)
    refine ⟨⟨preKeyIdAt startIndex i, P.pair k⟩ :: keys, ?_, ?_⟩
    · rw [generatePreKeysFrom, if_pos hlt, Op.bind_of_ok (curveGenerateKeyPair_of_ok hk),
        Op.bind_of_ok hkeys, Nat.add_right_comm]
      rfl
    · rw [List.map_cons, hids, List.range_succ_eq_map, List.map_cons, List.map_map,
        Nat.add_zero, UInt32.ofNat_toNat]
      refine congrArg _ (List.map_congr_left fun j _ => ?_)
      rw [Function.comp_apply, hsucc, Nat.succ_eq_add_one, Nat.add_right_comm, Nat.add_assoc]

end Generate

/-! ## 3. Circular runs of ids -/

/-- The id after an id; the last one is followed by 1. -/
def nextPreKeyId (id : UInt32) : UInt32 := if id = 0xFFFFFE then 1 else id + 1

/-- **A circular run of ids**: as many as asked for, all different, none of them the last-resort
id, one after the other, and from the start on if the start is an id. -/
structure CircularRun (start : UInt32) (count : Nat) (ids : List UInt32) : Prop where
  length : ids.length = count
  nodup : ids.Nodup
  range : ∀ id ∈ ids, 1 ≤ id ∧ id ≤ 0xFFFFFE
  succ : ids.IsChain fun a b => b = nextPreKeyId a
  first : 1 ≤ start → start ≤ 0xFFFFFE → ∀ id ∈ ids.head?, id = start

section Ids

variable {startIndex i : UInt32}

theorem toNat_preKeyIdAt (startIndex i : UInt32) :
    (preKeyIdAt startIndex i).toNat = (startIndex.toNat + i.toNat) % 2 ^ 32 % 0xFFFFFE + 1 := by
  have hmod : (startIndex.toNat + i.toNat) % 2 ^ 32 % 0xFFFFFE < 0xFFFFFE :=
    Nat.mod_lt _ (by decide)
  have hsum : ((startIndex + i) % (preKeyMediumMaxValue - 1)).toNat =
      (startIndex.toNat + i.toNat) % 2 ^ 32 % 0xFFFFFE := by
    rw [UInt32.toNat_mod, UInt32.toNat_add]
    rfl
  rw [preKeyIdAt, UInt32.toNat_add, hsum]
  exact Nat.mod_eq_of_lt (show _ + 1 < 2 ^ 32 by omega)

theorem preKeyIdAt_range (startIndex i : UInt32) :
    1 ≤ preKeyIdAt startIndex i ∧ preKeyIdAt startIndex i ≤ 0xFFFFFE := by
  have hmod : (startIndex.toNat + i.toNat) % 2 ^ 32 % 0xFFFFFE < 0xFFFFFE :=
    Nat.mod_lt _ (by decide)
  have hid := toNat_preKeyIdAt startIndex i
  constructor
  · rw [UInt32.le_iff_toNat_le]
    show 1 ≤ _
    omega
  · rw [UInt32.le_iff_toNat_le]
    show _ ≤ 0xFFFFFE
    omega

/-- The id after an id, as a number. -/
theorem toNat_nextPreKeyId {id : UInt32} (h : id ≤ 0xFFFFFE) :
    (nextPreKeyId id).toNat = id.toNat % 0xFFFFFE + 1 := by
  have hle : id.toNat ≤ 0xFFFFFE := UInt32.le_iff_toNat_le.1 h
  rw [nextPreKeyId]
  split
  · rename_i he
    rw [he]
    rfl
  · rename_i hne
    have hne' : id.toNat ≠ 0xFFFFFE := fun he => hne (UInt32.toNat_inj.1 he)
    rw [UInt32.toNat_add, Nat.mod_eq_of_lt (show id.toNat < 0xFFFFFE by omega)]
    exact Nat.mod_eq_of_lt (show id.toNat + 1 < 2 ^ 32 by omega)

/-- **One id follows the other** unless the sum wraps around between them: the modulus leaves
512 of `2 ^ 32`, so that the id at the end of the range is 512 and the next one is 1. -/
theorem preKeyIdAt_succ_iff (hi : i.toNat + 1 < 2 ^ 32) :
    preKeyIdAt startIndex (i + 1) = nextPreKeyId (preKeyIdAt startIndex i) ↔
      startIndex.toNat + i.toNat + 1 ≠ 2 ^ 32 := by
  have hs := startIndex.toNat_lt
  have hsucc : (i + 1).toNat = i.toNat + 1 := by
    rw [UInt32.toNat_add]
    exact Nat.mod_eq_of_lt hi
  rw [← UInt32.toNat_inj, toNat_nextPreKeyId (preKeyIdAt_range startIndex i).2,
    toNat_preKeyIdAt, toNat_preKeyIdAt, hsucc]
  omega

end Ids

/-- **The ids are a circular run iff `start - 1 + i` does not wrap around.** -/
theorem circularRun_preKeyIds_iff (start : UInt32) {count : Nat} (hcount : count ≤ 0xFFFFFE) :
    CircularRun start count (preKeyIds (start - 1) count) ↔
      (start - 1).toNat + count ≤ 2 ^ 32 := by
  have hofNat : ∀ i < count, (UInt32.ofNat i).toNat = i := fun i hi =>
    UInt32.toNat_ofNat_of_lt' (show i < 2 ^ 32 by omega)
  have hstart := (start - 1).toNat_lt
  have hchain : ((preKeyIds (start - 1) count).IsChain fun a b => b = nextPreKeyId a) ↔
      (start - 1).toNat + count ≤ 2 ^ 32 := by
    have hstep : ∀ i < count - 1,
        (preKeyIdAt (start - 1) (UInt32.ofNat (i + 1)) =
          nextPreKeyId (preKeyIdAt (start - 1) (UInt32.ofNat i)) ↔
            (start - 1).toNat + i + 1 ≠ 2 ^ 32) := by
      intro i hi
      have hi' := hofNat i (by omega)
      have hadd : UInt32.ofNat (i + 1) = UInt32.ofNat i + 1 := UInt32.ofNat_add ..
      rw [hadd, preKeyIdAt_succ_iff (by omega), hi']
    rw [preKeyIds, List.isChain_map, List.isChain_range]
    constructor
    · intro h
      by_contra hwrap
      have hlast := h (2 ^ 32 - 1 - (start - 1).toNat) (by omega)
      exact (hstep _ (by omega)).1 hlast (by omega)
    · intro h i hi
      exact (hstep i hi).2 (by omega)
  refine ⟨fun h => hchain.1 h.succ, fun h => ?_⟩
  refine ⟨by rw [preKeyIds, List.length_map, List.length_range], ?_, ?_, hchain.2 h, ?_⟩
  · refine List.Nodup.map_on (fun i hi j hj he => ?_) List.nodup_range
    have hi' := List.mem_range.1 hi
    have hj' := List.mem_range.1 hj
    rw [← UInt32.toNat_inj, toNat_preKeyIdAt, toNat_preKeyIdAt, hofNat i hi', hofNat j hj'] at he
    omega
  · intro id hid
    obtain ⟨i, -, rfl⟩ := List.mem_map.1 hid
    exact preKeyIdAt_range ..
  · intro hlow hhigh id hid
    have hlow' : 1 ≤ start.toNat := UInt32.le_iff_toNat_le.1 hlow
    have hhigh' : start.toNat ≤ 0xFFFFFE := UInt32.le_iff_toNat_le.1 hhigh
    have hsub : (start - 1).toNat = start.toNat - 1 := UInt32.toNat_sub_of_le _ _ hlow
    cases count with
    | zero => cases hid
    | succ count =>
      rw [preKeyIds, List.range_succ_eq_map, List.map_cons, List.head?_cons,
        Option.mem_some_iff] at hid
      rw [← UInt32.toNat_inj, ← hid, toNat_preKeyIdAt, hsub, hofNat 0 (by omega)]
      omega

/-! ## 4. The pre keys -/

/-- **Pre key ids are a circular run** as long as `start - 1 + i` does not wrap around in 32
bits.  The call always returns its list; the ids are a circular run exactly then. -/
theorem preKeyIds_circular_iff (P : Provider Priv Pub B) (rng : Rng Priv B)
    (hgen : ∀ n, ∃ k, rng.privateKey n = .ok k) (start count : UInt32)
    (hcount : count ≤ 0xFFFFFE) (n : Nat) :
    ∃ keys n', signalProtocolKeyHelperGeneratePreKeys P rng start count n = (.ok keys, n') ∧
      (CircularRun start count.toNat (keys.map SessionPreKey.id) ↔
        (start - 1).toNat + count.toNat ≤ 2 ^ 32) := by
  obtain ⟨keys, hkeys, hids⟩ :=
    generatePreKeysFrom_ok (P := P) hgen (start - 1) count count.toNat 0 n (Nat.zero_add _)
  refine ⟨keys, _, hkeys, ?_⟩
  have hrun : keys.map SessionPreKey.id = preKeyIds (start - 1) count.toNat := by
    rw [hids, preKeyIds]
    refine List.map_congr_left fun j _ => ?_
    rw [show (0 : UInt32).toNat = 0 from rfl, Nat.zero_add]
  rw [hrun]
  exact circularRun_preKeyIds_iff start (UInt32.le_iff_toNat_le.1 hcount)

/-- A run that goes back to 1. -/
theorem preKeyIds_circular_iff_back_to_one :
    ∃ keys n', signalProtocolKeyHelperGeneratePreKeys symbolic (symbolicRng 100 1) 0xFFFFFE 2 0 =
        (.ok keys, n') ∧
      CircularRun 0xFFFFFE 2 (keys.map SessionPreKey.id) := by
  obtain ⟨keys, n', hkeys, hrun⟩ := preKeyIds_circular_iff symbolic (symbolicRng 100 1)
    (fun n => ⟨100 + 1 * n, rfl⟩) 0xFFFFFE 2 (by decide) 0
  exact ⟨keys, n', hkeys, hrun.2 (by decide)⟩

/-- **From start 0 the ids begin with 512 and 1.** -/
theorem preKeyIds_from_zero :
    (signalProtocolKeyHelperGeneratePreKeys symbolic (symbolicRng 100 1) 0 2 0).1.toOption.map
        (List.map SessionPreKey.id) = some [512, 1] ∧
      ¬ CircularRun 0 2 [512, 1] := by
  refine ⟨by decide +kernel, fun h => ?_⟩
  have hsucc := h.succ
  revert hsucc
  decide

end SignalProtocol
