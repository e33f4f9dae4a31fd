/-
# The pool that collects a secret

`vpool` is a buffer of bytes that grows: a block from `malloc`, in which the contents need not
start at the front.  Bytes are inserted anywhere, a part is cut out or kept, and the block is
replaced by a larger one, rounded up to a block size, when the room does not suffice.

The model keeps the block and does the arithmetic of `size_t`; an access outside of the block
gives nothing.  `VpoolSpec` says what the calls are for, in terms of the contents and of the room
there is for more: it fixes which calls allocate, how much, and what follows if that fails.
`vpool_refines` says that in every sequence of calls, whatever `malloc` does, no access is outside
and the contents are as said.  A pool can be asked for so much room that its arithmetic wraps
(`vpool_wraps`); the theorem is about those that are not.
-/
import SignalProtocol.Lib.Block
import SignalProtocol.Codec

namespace SignalProtocol

open Block

/-! ## 1. The pool -/

/-- The codes that a pool reports. -/
inductive Errno where
  | efbig
  | enomem
  | erange
  deriving DecidableEq, Repr

/-- `struct vpool`: `base` is the block at `v_basebuf`, unless that is `NULL`, and `buf` is the
distance of `v_buf` from it. -/
structure Vpool where
  base : Option (List UInt8)
  buf : UInt64
  off : UInt64
  size : UInt64
  blksize : UInt64
  limit : UInt64
  lasterr : Option Errno
  deriving DecidableEq, Repr

/-- `malloc` during one call: `NULL`, or a block of the size asked for. -/
def Malloc : Type :=
  (size : UInt64) → Option { b : List UInt8 // b.length = size.toNat }

/-- The cells that the pool may access. -/
def Vpool.mem (p : Vpool) : List UInt8 := p.base.getD []

/-- The pool with other bytes in its block. -/
def Vpool.setMem (p : Vpool) (mem : List UInt8) : Vpool :=
  { p with base := p.base.map fun _ => mem }

/-- `vpool_shift`. -/
def vpoolShift (p : Vpool) : Option Vpool :=
  if p.buf ≠ 0 then do
    let mem ← move p.mem 0 p.buf.toNat p.off.toNat
    return { p.setMem mem with buf := 0 }
  else return p

/-- `vpool_new_size`. -/
def vpoolNewSize (p : Vpool) (datsize : UInt64) : Except Errno UInt64 :=
  if datsize ≤ p.size - p.off then .ok p.size
  else if p.limit - p.off < datsize then .error .efbig
  else
    let need := p.off + datsize
    let rem := need % p.blksize
    if rem ≠ 0 then
      if p.limit - p.off ≥ datsize + (p.blksize - rem) then .ok (need + (p.blksize - rem))
      else .ok p.limit
    else .ok need

/-- `vpool_resize`: the code and the pool. -/
def vpoolResize (malloc : Malloc) (p : Vpool) (datsize : UInt64) :
    Option (Option Errno × Vpool) :=
  match vpoolNewSize p datsize with
  | .error e => some (some e, p)
  | .ok size =>
    if size > p.size then
      match malloc size with
      | none => some (some .enomem, p)
      | some ret => do
        let data ← read p.mem p.buf.toNat p.off.toNat
        let mem ← write ret.1 0 data
        return (none, { p with base := some mem, buf := 0, size := size })
    else if p.size - p.off - p.buf < datsize then do
      let p ← vpoolShift p
      return (none, p)
    else return (none, p)

/-- `vpool_init`. -/
def vpoolInit (blksize limit : UInt64) : Vpool where
  base := none
  buf := 0
  off := 0
  size := 0
  blksize := if blksize = 0 then 4096 else blksize
  limit := if limit = 0 then UInt64.ofNat (2 ^ 64 - 1) else limit
  lasterr := none

/-- `vpool_reset`. -/
def vpoolReset (p : Vpool) : Vpool :=
  { p with base := none, buf := 0, off := 0, size := 0, lasterr := none }

/-- `vpool_wipe`: the block stays, and so does the place where the contents start. -/
def vpoolWipe (p : Vpool) : Vpool :=
  { p with off := 0, lasterr := none }

/-- The pointer to a cell, as its distance from `v_basebuf`; `NULL` if there is no block. -/
def Vpool.pointer (p : Vpool) (i : UInt64) : Option UInt64 :=
  p.base.map fun _ => i

/-- The pool with `n` more bytes of contents. -/
def Vpool.grown (p : Vpool) (mem : List UInt8) (n : UInt64) : Vpool :=
  { p.setMem mem with off := p.off + n, lasterr := none }

/-- The part that `vpool_insert` and `vpool_expand` share: `size` cells are made free at
`pos`.  The result is the place. -/
def Vpool.makeRoom (p : Vpool) (pos size : UInt64) : Option (UInt64 × Vpool) := do
  let w := if pos > p.off then p.off else pos
  let ret := p.buf + w
  let mem ←
    if p.off - w > 0 then move p.mem (ret + size).toNat ret.toNat (p.off - w).toNat
    else some p.mem
  return (ret, p.grown mem size)

/-- `vpool_insert`. -/
def vpoolInsert (malloc : Malloc) (p : Vpool) (pos : UInt64) (data : List UInt8)
    (datsize : UInt64) : Option (Option UInt64 × Vpool) := do
  match ← vpoolResize malloc p datsize with
  | (some e, p) => return (none, { p with lasterr := some e })
  | (none, p) =>
    let (ret, p) ← p.makeRoom pos datsize
    let bytes ← read data 0 datsize.toNat
    let mem ← write p.mem ret.toNat bytes
    return (p.pointer ret, p.setMem mem)

/-- `vpool_expand`. -/
def vpoolExpand (malloc : Malloc) (p : Vpool) (pos size : UInt64) :
    Option (Option UInt64 × Vpool) := do
  match ← vpoolResize malloc p size with
  | (some e, p) => return (none, { p with lasterr := some e })
  | (none, p) =>
    let (ret, p) ← p.makeRoom pos size
    return (p.pointer ret, p)

/-- `enum vpool_trunc`. -/
inductive VpoolTrunc where
  | vpoolExclude
  | vpoolInclude
  deriving DecidableEq, Repr

/-- `vpool_truncate`. -/
def vpoolTruncate (p : Vpool) (pos size : UInt64) (how : VpoolTrunc) :
    Option (Option Errno × Vpool) :=
  if pos ≥ p.off ∨ size > p.off ∨ p.off - size < pos then
    some (some .erange, { p with lasterr := some .erange })
  else
    match how with
    | .vpoolExclude =>
      if pos = 0 then
        -- nothing is moved, only the start
        some (none, { p with buf := p.buf + size, off := p.off - size, lasterr := none })
      else do
        let mem ← move p.mem (p.buf + pos).toNat (p.buf + pos + size).toNat
          (p.off - size - pos).toNat
        return (none, { p.setMem mem with off := p.off - size, lasterr := none })
    | .vpoolInclude => some (none, { p with buf := p.buf + pos, off := size, lasterr := none })

/-- `vpool_export`: the block goes to the caller. -/
def vpoolExport (p : Vpool) : Option ((Option (List UInt8) × UInt64) × Vpool) := do
  let p ← vpoolShift p
  return ((p.base, p.off), vpoolReset p)

/-! ## 2. What the calls are for -/

/-- A call of the pool's owner. -/
inductive VpoolCall where
  | insert (pos : UInt64) (data : List UInt8) (datsize : UInt64)
  | expand (pos size : UInt64)
  | truncate (pos size : UInt64) (how : VpoolTrunc)
  | wipe
  | reset
  | exportBuf
  deriving DecidableEq, Repr

/-- What a call returns. -/
inductive VpoolAnswer where
  | pointer (at? : Option UInt64)
  | code (e : Option Errno)
  | exported (block : Option (List UInt8)) (size : UInt64)
  | nothing
  deriving DecidableEq, Repr

/-- A call of the pool.  The owner sees a pointer as its distance from `v_buf`. -/
def Vpool.call (malloc : Malloc) (p : Vpool) : VpoolCall → Option (VpoolAnswer × Vpool)
  | .insert pos data datsize =>
    (vpoolInsert malloc p pos data datsize).map fun r => (.pointer (r.1.map (· - r.2.buf)), r.2)
  | .expand pos size =>
    (vpoolExpand malloc p pos size).map fun r => (.pointer (r.1.map (· - r.2.buf)), r.2)
  | .truncate pos size how => (vpoolTruncate p pos size how).map fun r => (.code r.1, r.2)
  | .wipe => some (.nothing, vpoolWipe p)
  | .reset => some (.nothing, vpoolReset p)
  | .exportBuf => (vpoolExport p).map fun r => (.exported r.1.1 r.1.2, r.2)

/-- The contents. -/
def Vpool.contents (p : Vpool) : List UInt8 :=
  slice p.mem p.buf.toNat p.off.toNat

/-- The number of bytes by which a call wants to grow the contents. -/
def VpoolCall.growth : VpoolCall → Nat
  | .insert _ _ datsize => datsize.toNat
  | .expand _ size => size.toNat
  | _ => 0

/-- The bytes that are handed over exist. -/
def VpoolCall.Proper : VpoolCall → Prop
  | .insert _ data datsize => datsize.toNat ≤ data.length
  | _ => True

/-- The pointer to room that was made: `NULL` only for no room in an empty pool. -/
def VpoolPlace (c : List UInt8) (pos n : UInt64) (at? : Option UInt64) : Prop :=
  (at? = none → c = [] ∧ n = 0) ∧ ∀ i ∈ at?, i.toNat = min pos.toNat c.length

/-- The size of the block that `n` bytes get: the next multiple of the block size, or the limit
if that is beyond it. -/
def blockFor (blksize limit n : Nat) : Nat :=
  min (if n % blksize = 0 then n else n + (blksize - n % blksize)) limit

/-- **Room for `n` bytes in all**: what fits into the capacity needs no allocation, and what is
beyond the limit gets none.  The result is the capacity afterwards. -/
def vpoolRoom (blksize limit : Nat) (malloc : Malloc) (capacity n : Nat) : Except Errno Nat :=
  if n ≤ capacity then .ok capacity
  else if limit < n then .error .efbig
  else if malloc (UInt64.ofNat (blockFor blksize limit n)) = none then .error .enomem
  else .ok (blockFor blksize limit n)

/-- What a pool is to its owner: its contents, and how many bytes it can hold as it is. -/
structure VpoolView where
  contents : List UInt8
  capacity : Nat

/-- What the pool is to its owner. -/
def Vpool.view (p : Vpool) : VpoolView := ⟨p.contents, p.size.toNat⟩

/-- **What a call does to the pool**, what it returns, and the error it leaves. -/
inductive VpoolSpec (blksize limit : Nat) (malloc : Malloc) (v : VpoolView) :
    VpoolCall → VpoolAnswer → VpoolView → Option Errno → Prop where
  | inserted {pos data datsize at? capacity}
      (hroom : vpoolRoom blksize limit malloc v.capacity (v.contents.length + datsize.toNat) =
        .ok capacity)
      (hplace : VpoolPlace v.contents pos datsize at?) :
      VpoolSpec blksize limit malloc v (.insert pos data datsize) (.pointer at?)
        ⟨v.contents.take pos.toNat ++ data.take datsize.toNat ++ v.contents.drop pos.toNat,
          capacity⟩ none
  | expanded {pos size at? capacity} {gap : List UInt8}
      (hroom : vpoolRoom blksize limit malloc v.capacity (v.contents.length + size.toNat) =
        .ok capacity)
      (hplace : VpoolPlace v.contents pos size at?) (hgap : gap.length = size.toNat) :
      VpoolSpec blksize limit malloc v (.expand pos size) (.pointer at?)
        ⟨v.contents.take pos.toNat ++ gap ++ v.contents.drop pos.toNat, capacity⟩ none
  | noRoom {call e} (hgrow : 0 < call.growth)
      (hroom : vpoolRoom blksize limit malloc v.capacity (v.contents.length + call.growth) =
        .error e) :
      VpoolSpec blksize limit malloc v call (.pointer none) v (some e)
  | excluded {pos size} (hpos : pos.toNat < v.contents.length)
      (hsize : pos.toNat + size.toNat ≤ v.contents.length) :
      VpoolSpec blksize limit malloc v (.truncate pos size .vpoolExclude) (.code none)
        { v with contents := v.contents.take pos.toNat ++
            v.contents.drop (pos.toNat + size.toNat) } none
  | included {pos size} (hpos : pos.toNat < v.contents.length)
      (hsize : pos.toNat + size.toNat ≤ v.contents.length) :
      VpoolSpec blksize limit malloc v (.truncate pos size .vpoolInclude) (.code none)
        { v with contents := (v.contents.drop pos.toNat).take size.toNat } none
  | outOfRange {pos size how}
      (h : v.contents.length ≤ pos.toNat ∨ v.contents.length < pos.toNat + size.toNat) :
      VpoolSpec blksize limit malloc v (.truncate pos size how) (.code (some .erange)) v
        (some .erange)
  | wiped : VpoolSpec blksize limit malloc v .wipe .nothing { v with contents := [] } none
  | reset : VpoolSpec blksize limit malloc v .reset .nothing ⟨[], 0⟩ none
  | exported {block : Option (List UInt8)} {size} (hsize : size.toNat = v.contents.length)
      (hblock : (block.getD []).take size.toNat = v.contents) :
      VpoolSpec blksize limit malloc v .exportBuf (.exported block size) ⟨[], 0⟩ none

/-! ## 3. One call -/

/-- **The pool's invariant**: the block has the size that is recorded, the contents are inside,
and the size respects the limit. -/
structure Vpool.WellFormed (p : Vpool) : Prop where
  block : p.mem.length = p.size.toNat
  inside : p.buf.toNat + p.off.toNat ≤ p.size.toNat
  limited : p.size.toNat ≤ p.limit.toNat
  blksize : 0 < p.blksize.toNat

/-- A pool that differs in its block only, the contents being the same. -/
structure Vpool.Moved (p p' : Vpool) : Prop where
  wellFormed : p'.WellFormed
  contents : p'.contents = p.contents
  off : p'.off = p.off
  blksize : p'.blksize = p.blksize
  limit : p'.limit = p.limit

theorem toNat_add_of_lt {a b : UInt64} (h : a.toNat + b.toNat < 2 ^ 64) :
    (a + b).toNat = a.toNat + b.toNat := by
  rw [UInt64.toNat_add, Nat.mod_eq_of_lt h]

theorem toNat_sub_of_le {a b : UInt64} (h : b.toNat ≤ a.toNat) :
    (a - b).toNat = a.toNat - b.toNat :=
  UInt64.toNat_sub_of_le _ _ (UInt64.le_iff_toNat_le.2 h)

/-- A pool without a block has no cells to write to. -/
theorem Vpool.mem_setMem {p : Vpool} {mem : List UInt8} (h : mem.length = p.mem.length) :
    (p.setMem mem).mem = mem := by
  cases hb : p.base with
  | none =>
    rw [Vpool.mem, hb] at h
    rw [Vpool.mem, Vpool.setMem, hb]
    exact (List.length_eq_zero_iff.1 h).symm
  | some b => simp only [Vpool.mem, Vpool.setMem, hb, Option.map_some, Option.getD_some]

section Call

variable {malloc : Malloc} {p : Vpool} (h : p.WellFormed)
include h

theorem Vpool.WellFormed.length_contents : p.contents.length = p.off.toNat :=
  length_slice (by rw [h.block]; exact h.inside)

theorem Vpool.WellFormed.moved_self : p.Moved p :=
  ⟨h, rfl, rfl, rfl, rfl⟩

/-- Shifting moves the contents to the front. -/
theorem Vpool.WellFormed.shift : ∃ p', vpoolShift p = some p' ∧ p.Moved p' ∧ p'.buf = 0 ∧
    p'.size = p.size := by
  by_cases hbuf : p.buf ≠ 0
  · have hin : p.buf.toNat + p.off.toNat ≤ p.mem.length := by
      rw [h.block]
      exact h.inside
    have hlen : (slice p.mem p.buf.toNat p.off.toNat).length = p.off.toNat := length_slice hin
    have hover : (overwrite p.mem 0 (slice p.mem p.buf.toNat p.off.toNat)).length =
        p.mem.length := length_overwrite (by omega)
    refine ⟨{ p.setMem (overwrite p.mem 0 (slice p.mem p.buf.toNat p.off.toNat)) with buf := 0 },
      ?_, ⟨⟨?_, ?_, h.limited, h.blksize⟩, ?_, rfl, rfl, rfl⟩, rfl, rfl⟩
    · rw [vpoolShift, if_pos hbuf, move_of_le hin (by omega)]
      rfl
    · exact (congrArg List.length (Vpool.mem_setMem hover)).trans (hover.trans h.block)
    · have := h.inside
      show (0 : Nat) + p.off.toNat ≤ p.size.toNat
      omega
    · show slice (Vpool.mem (p.setMem _)) 0 p.off.toNat = p.contents
      rw [Vpool.mem_setMem hover]
      nth_rewrite 2 [← hlen]
      exact slice_overwrite (Nat.zero_le _)
  · refine ⟨p, by rw [vpoolShift, if_neg hbuf]; rfl, h.moved_self, not_not.1 hbuf, rfl⟩

omit h in
theorem le_blockFor {blksize limit n : Nat} (hn : n ≤ limit) : n ≤ blockFor blksize limit n := by
  rw [blockFor]
  split <;> omega

/-- **The new size**: the one there is, if that suffices, and else the size of a block, unless that
would be beyond the limit. -/
theorem Vpool.WellFormed.newSize {n : UInt64}
    (hn : p.off.toNat + n.toNat + p.blksize.toNat ≤ 2 ^ 64) :
    vpoolNewSize p n =
      if p.off.toNat + n.toNat ≤ p.size.toNat then .ok p.size
      else if p.limit.toNat < p.off.toNat + n.toNat then .error .efbig
      else .ok (UInt64.ofNat
        (blockFor p.blksize.toNat p.limit.toNat (p.off.toNat + n.toNat))) := by
  have hin := h.inside
  have hlim := h.limited
  have hblk := h.blksize
  have hmax := p.limit.toNat_lt
  have hfree : (p.size - p.off).toNat = p.size.toNat - p.off.toNat := toNat_sub_of_le (by omega)
  have hrest : (p.limit - p.off).toNat = p.limit.toNat - p.off.toNat := toNat_sub_of_le (by omega)
  have hneed : (p.off + n).toNat = p.off.toNat + n.toNat := toNat_add_of_lt (by omega)
  have hmod : ((p.off + n) % p.blksize).toNat =
      (p.off.toNat + n.toNat) % p.blksize.toNat := by
    rw [UInt64.toNat_mod, hneed]
  have hrem := Nat.mod_lt (p.off.toNat + n.toNat) hblk
  have hpad : (p.blksize - (p.off + n) % p.blksize).toNat =
      p.blksize.toNat - (p.off.toNat + n.toNat) % p.blksize.toNat := by
    rw [toNat_sub_of_le (by omega), hmod]
  have hzero : (p.off + n) % p.blksize = 0 ↔
      (p.off.toNat + n.toNat) % p.blksize.toNat = 0 := by
    rw [← hmod]
    exact UInt64.toNat_inj.symm
  unfold vpoolNewSize blockFor
  simp only [UInt64.le_iff_toNat_le, UInt64.lt_iff_toNat_lt, hfree, hrest, ge_iff_le, ne_eq, hzero]
  by_cases hfits : p.off.toNat + n.toNat ≤ p.size.toNat
  · rw [if_pos (by omega), if_pos hfits]
  rw [if_neg (by omega), if_neg hfits]
  by_cases hbig : p.limit.toNat < p.off.toNat + n.toNat
  · rw [if_pos (by omega), if_pos hbig]
  rw [if_neg (by omega), if_neg hbig]
  by_cases hwhole : (p.off.toNat + n.toNat) % p.blksize.toNat = 0
  · rw [if_neg (not_not.2 hwhole), if_pos hwhole, Nat.min_eq_left (by omega), ← hneed,
      UInt64.ofNat_toNat]
  rw [if_pos hwhole, if_neg hwhole, toNat_add_of_lt (by omega), hpad]
  split
  · rw [Nat.min_eq_left (by omega), ← hpad, ← hneed, ← toNat_add_of_lt (by omega),
      UInt64.ofNat_toNat]
  · rw [Nat.min_eq_right (by omega), UInt64.ofNat_toNat]

/-- Where the block is large enough, the contents may have to go to its front. -/
theorem Vpool.WellFormed.stay {n : UInt64} (hfits : p.off.toNat + n.toNat ≤ p.size.toNat) :
    ∃ p', (if p.size - p.off - p.buf < n then do
        let p ← vpoolShift p
        return (none, p)
      else return (none, p) : Option (Option Errno × Vpool)) = some (none, p') ∧ p.Moved p' ∧
      p'.buf.toNat + p'.off.toNat + n.toNat ≤ p'.size.toNat ∧ p'.size = p.size := by
  have hin := h.inside
  have hbehind : (p.size - p.off - p.buf).toNat = p.size.toNat - p.off.toNat - p.buf.toNat := by
    have hfree : (p.size - p.off).toNat = p.size.toNat - p.off.toNat := toNat_sub_of_le (by omega)
    rw [toNat_sub_of_le (by omega), hfree]
  by_cases hshift : p.size - p.off - p.buf < n
  · obtain ⟨p', hp', hmoved, hbuf, hsize⟩ := h.shift
    refine ⟨p', by rw [if_pos hshift, hp']; rfl, hmoved, ?_, hsize⟩
    rw [hbuf, hmoved.off, hsize]
    show 0 + p.off.toNat + n.toNat ≤ p.size.toNat
    omega
  · refine ⟨p, by rw [if_neg hshift]; rfl, h.moved_self, ?_, rfl⟩
    rw [UInt64.lt_iff_toNat_lt, hbehind] at hshift
    omega

/-- The contents are copied to the front of another block. -/
theorem Vpool.WellFormed.relocate {size : UInt64} {block : List UInt8}
    (hblock : block.length = size.toNat) (hroom : p.off.toNat ≤ size.toNat)
    (hlimit : size.toNat ≤ p.limit.toNat) :
    ∃ mem, (read p.mem p.buf.toNat p.off.toNat).bind (write block 0) = some mem ∧
      p.Moved { p with base := some mem, buf := 0, size := size } := by
  have hlen := h.length_contents
  have hread : read p.mem p.buf.toNat p.off.toNat = some p.contents :=
    read_of_le (by rw [h.block]; exact h.inside)
  have hfit : 0 + p.contents.length ≤ block.length := by omega
  refine ⟨overwrite block 0 p.contents, by rw [hread]; exact write_of_le hfit,
    ⟨?_, ?_, hlimit, h.blksize⟩, ?_, rfl, rfl, rfl⟩
  · exact (length_overwrite hfit).trans hblock
  · show 0 + p.off.toNat ≤ size.toNat
    omega
  · show slice (overwrite block 0 p.contents) 0 p.off.toNat = p.contents
    rw [← hlen]
    exact slice_overwrite (Nat.zero_le _)

/-- **Making the block large enough**: there is no room, or there is room behind the contents,
which are the same. -/
theorem Vpool.WellFormed.resize (malloc : Malloc) {n : UInt64}
    (hn : p.off.toNat + n.toNat + p.blksize.toNat ≤ 2 ^ 64) :
    match vpoolRoom p.blksize.toNat p.limit.toNat malloc p.size.toNat (p.off.toNat + n.toNat) with
    | .error e => vpoolResize malloc p n = some (some e, p) ∧ 0 < n.toNat
    | .ok capacity => ∃ p', vpoolResize malloc p n = some (none, p') ∧ p.Moved p' ∧
        p'.buf.toNat + p'.off.toNat + n.toNat ≤ p'.size.toNat ∧ p'.size.toNat = capacity := by
  have hin := h.inside
  have hmax := p.limit.toNat_lt
  simp only [vpoolRoom, vpoolResize, h.newSize hn]
  by_cases hfits : p.off.toNat + n.toNat ≤ p.size.toNat
  · simp only [if_pos hfits, gt_iff_lt, UInt64.lt_irrefl, if_false]
    obtain ⟨p', hp', hmoved, hbehind, hsize⟩ := h.stay hfits
    exact ⟨p', hp', hmoved, hbehind, congrArg UInt64.toNat hsize⟩
  have hpos : 0 < n.toNat := by omega
  simp only [if_neg hfits]
  by_cases hbig : p.limit.toNat < p.off.toNat + n.toNat
  · simp only [if_pos hbig]
    exact ⟨trivial, hpos⟩
  simp only [if_neg hbig]
  generalize hblock : blockFor p.blksize.toNat p.limit.toNat (p.off.toNat + n.toNat) = block
  have hroom : p.off.toNat + n.toNat ≤ block := hblock ▸ le_blockFor (by omega)
  have hlimit : block ≤ p.limit.toNat := hblock ▸ Nat.min_le_right ..
  have hnat : (UInt64.ofNat block).toNat = block :=
    UInt64.toNat_ofNat_of_lt' (show block < 2 ^ 64 by omega)
  have hgrow : UInt64.ofNat block > p.size := by
    rw [gt_iff_lt, UInt64.lt_iff_toNat_lt, hnat]
    omega
  rw [if_pos hgrow]
  cases hm : malloc (UInt64.ofNat block) with
  | none => exact ⟨rfl, hpos⟩
  | some ret =>
    obtain ⟨mem, hmem, hmoved⟩ := h.relocate ret.2 (by omega) (by omega)
    obtain ⟨data, hread, hwrite⟩ := Option.bind_eq_some_iff.1 hmem
    refine ⟨{ p with base := some mem, buf := 0, size := .ofNat block }, ?_, hmoved, ?_, hnat⟩
    · simp only [hread, hwrite, bind, Option.bind, pure]
    · show 0 + p.off.toNat + n.toNat ≤ (UInt64.ofNat block).toNat
      omega

/-- **Making room** inside the contents. -/
theorem Vpool.WellFormed.makeRoom {n : UInt64} (pos : UInt64)
    (hroom : p.buf.toNat + p.off.toNat + n.toNat ≤ p.size.toNat) :
    ∃ ret mem, p.makeRoom pos n = some (ret, p.grown mem n) ∧
      mem.length = p.mem.length ∧ ret.toNat = p.buf.toNat + min pos.toNat p.off.toNat ∧
      slice mem p.buf.toNat (min pos.toNat p.off.toNat) = p.contents.take pos.toNat ∧
      slice mem (ret.toNat + n.toNat) (p.off.toNat - min pos.toNat p.off.toNat) =
        p.contents.drop pos.toNat := by
  have hin := h.inside
  have hblock := h.block
  have hlt : p.size.toNat < 2 ^ 64 := p.size.toNat_lt
  have hlen := h.length_contents
  obtain ⟨w, hw, hmin⟩ : ∃ w, (if pos > p.off then p.off else pos) = w ∧
      w.toNat = min pos.toNat p.off.toNat := by
    refine ⟨_, rfl, ?_⟩
    split
    · rename_i hpos
      rw [gt_iff_lt, UInt64.lt_iff_toNat_lt] at hpos
      omega
    · rename_i hpos
      rw [gt_iff_lt, UInt64.lt_iff_toNat_lt] at hpos
      omega
  have hret : (p.buf + w).toNat = p.buf.toNat + w.toNat := toNat_add_of_lt (by omega)
  have hplace : (p.buf + w + n).toNat = p.buf.toNat + w.toNat + n.toNat := by
    rw [toNat_add_of_lt (by omega), hret]
  have htail : (p.off - w).toNat = p.off.toNat - w.toNat := toNat_sub_of_le (by omega)
  have htake : p.contents.take pos.toNat = slice p.mem p.buf.toNat w.toNat := by
    rw [List.take_eq_take_min, hlen, ← hmin]
    exact take_slice (by omega)
  have hdrop : p.contents.drop pos.toNat =
      slice p.mem (p.buf.toNat + w.toNat) (p.off.toNat - w.toNat) := by
    rw [List.drop_eq_drop_min, hlen, ← hmin]
    exact drop_slice ..
  rw [htake, hdrop, ← hmin]
  simp only [Vpool.makeRoom, hw]
  by_cases hmove : p.off - w > 0
  · have hsrc : (p.buf + w).toNat + (p.off - w).toNat ≤ p.mem.length := by omega
    have hdst : (p.buf + w + n).toNat + (p.off - w).toNat ≤ p.mem.length := by omega
    have hslice := length_slice hsrc
    refine ⟨p.buf + w, _, by rw [if_pos hmove, move_of_le hsrc hdst]; rfl, ?_, hret, ?_, ?_⟩
    · exact length_overwrite (by omega)
    · exact slice_overwrite_of_le (by omega) (by omega)
    · have hself : slice (overwrite p.mem (p.buf + w + n).toNat
          (slice p.mem (p.buf + w).toNat (p.off - w).toNat)) (p.buf + w + n).toNat
            (slice p.mem (p.buf + w).toNat (p.off - w).toNat).length = _ :=
        slice_overwrite (by omega)
      rw [hslice, htail, hplace, hret] at hself
      rw [hret, hplace, htail]
      exact hself
  · have hzero : p.off.toNat - w.toNat = 0 := by
      rw [gt_iff_lt, UInt64.lt_iff_toNat_lt, htail] at hmove
      exact Nat.eq_zero_of_not_pos hmove
    refine ⟨p.buf + w, p.mem, by rw [if_neg hmove]; rfl, rfl, hret, rfl, ?_⟩
    rw [hzero, slice_zero, slice_zero]

omit h in
/-- The contents around the room that was made. -/
theorem slice_around {buf off w ret n : Nat} (hret : ret = buf + w) (hw : w ≤ off)
    (mem : List UInt8) : slice mem buf (off + n) =
      slice mem buf w ++ slice mem ret n ++ slice mem (ret + n) (off - w) := by
  rw [hret, ← slice_add, Nat.add_assoc, ← slice_add]
  congr 1
  omega

omit h in
/-- The same when the room is filled. -/
theorem slice_around_overwrite {buf off w ret : Nat} {mem data : List UInt8}
    (hret : ret = buf + w) (hw : w ≤ off) (hfit : ret + data.length ≤ mem.length) :
    slice (overwrite mem ret data) buf (off + data.length) =
      slice mem buf w ++ data ++ slice mem (ret + data.length) (off - w) := by
  rw [slice_around hret hw, slice_overwrite (by omega), slice_overwrite_of_le (by omega)
    (by omega), slice_overwrite_of_ge (by omega) (by omega)]

/-- **A call that was answered as said.** -/
structure Vpool.Answers (malloc : Malloc) (p : Vpool) (call : VpoolCall) (a : VpoolAnswer)
    (p' : Vpool) : Prop where
  wellFormed : p'.WellFormed
  spec : VpoolSpec p.blksize.toNat p.limit.toNat malloc p.view call a p'.view p'.lasterr
  blksize : p'.blksize = p.blksize
  limit : p'.limit = p.limit

/-- A call that fails. -/
theorem Vpool.WellFormed.refused {call : VpoolCall} {a : VpoolAnswer} {e : Errno}
    (hspec : VpoolSpec p.blksize.toNat p.limit.toNat malloc p.view call a p.view (some e)) :
    p.Answers malloc call a { p with lasterr := some e } :=
  ⟨⟨h.block, h.inside, h.limited, h.blksize⟩, hspec, rfl, rfl⟩

/-- A pool with more contents in the same block. -/
theorem Vpool.WellFormed.grown {n : UInt64} {mem : List UInt8}
    (hroom : p.buf.toNat + p.off.toNat + n.toNat ≤ p.size.toNat)
    (hmem : mem.length = p.mem.length) : (p.grown mem n).WellFormed ∧
      (p.grown mem n).contents = slice mem p.buf.toNat (p.off.toNat + n.toNat) := by
  have hset : (p.grown mem n).mem = mem := Vpool.mem_setMem hmem
  have hoff : (p.off + n).toNat = p.off.toNat + n.toNat :=
    toNat_add_of_lt (by have := p.size.toNat_lt; omega)
  refine ⟨⟨?_, ?_, h.limited, h.blksize⟩, ?_⟩
  · rw [hset, hmem]
    exact h.block
  · show p.buf.toNat + (p.off + n).toNat ≤ p.size.toNat
    omega
  · rw [Vpool.contents, hset]
    exact congrArg (slice mem p.buf.toNat) hoff

/-- Where the room is. -/
theorem Vpool.Moved.place {p' : Vpool} {n pos ret : UInt64} (hm : p.Moved p')
    (hroom : p'.buf.toNat + p'.off.toNat + n.toNat ≤ p'.size.toNat)
    (hret : ret.toNat = p'.buf.toNat + min pos.toNat p'.off.toNat) :
    VpoolPlace p.contents pos n ((p'.pointer ret).map (· - p'.buf)) := by
  have hlen := h.length_contents
  refine ⟨fun hnull => ?_, fun i hi => ?_⟩
  · have hbase : p'.base = none := by simpa [Vpool.pointer] using hnull
    have hzero : p'.size.toNat = 0 := by
      rw [← hm.wellFormed.block, Vpool.mem, hbase]
      rfl
    refine ⟨List.length_eq_zero_iff.1 ?_, UInt64.toNat_inj.1 ?_⟩
    · rw [hlen, ← hm.off]
      omega
    · show n.toNat = 0
      omega
  · obtain ⟨j, hj, rfl⟩ := Option.map_eq_some_iff.1 hi
    obtain ⟨b, -, rfl⟩ := Option.map_eq_some_iff.1 hj
    rw [toNat_sub_of_le (by omega), hret, hlen, ← hm.off]
    omega

omit h in
/-- Inserting into a block that is large enough. -/
theorem vpoolInsert_of_resize {p' : Vpool} {n : UInt64} (pos : UInt64) {data : List UInt8}
    (hr : vpoolResize malloc p n = some (none, p')) (hw : p'.WellFormed)
    (hroom : p'.buf.toNat + p'.off.toNat + n.toNat ≤ p'.size.toNat)
    (hdata : n.toNat ≤ data.length) :
    ∃ ret mem, vpoolInsert malloc p pos data n = some (p'.pointer ret, p'.grown mem n) ∧
      ret.toNat = p'.buf.toNat + min pos.toNat p'.off.toNat ∧ (p'.grown mem n).WellFormed ∧
      (p'.grown mem n).contents = p'.contents.take pos.toNat ++ data.take n.toNat ++
        p'.contents.drop pos.toNat := by
  have hblock := hw.block
  obtain ⟨ret, mem, hmake, hmem, hret, htake, hdrop⟩ := hw.makeRoom pos hroom
  have hread : read data 0 n.toNat = some (data.take n.toNat) := by
    rw [read_of_le (by omega)]
    rfl
  have hbytes : (data.take n.toNat).length = n.toNat := List.length_take_of_le hdata
  have hfit : ret.toNat + (data.take n.toNat).length ≤ mem.length := by omega
  have hset : (overwrite mem ret.toNat (data.take n.toNat)).length = p'.mem.length :=
    (length_overwrite hfit).trans hmem
  obtain ⟨hwell, hcontents⟩ := hw.grown hroom hset
  refine ⟨ret, overwrite mem ret.toNat (data.take n.toNat), ?_, hret, hwell, ?_⟩
  · have hgrown : (p'.grown mem n).mem = mem := Vpool.mem_setMem hmem
    simp only [vpoolInsert, hr, hmake, hread, hgrown, write_of_le hfit, bind, Option.bind, pure]
    simp only [Vpool.pointer, Vpool.grown, Vpool.setMem, Option.map_map, Function.comp_def]
  · have hfilled := slice_around_overwrite hret (Nat.min_le_right ..) hfit
    rw [hbytes, htake, hdrop] at hfilled
    rw [hcontents, hfilled]

/-- **Inserting.** -/
theorem Vpool.WellFormed.insert {n : UInt64} (pos : UInt64) {data : List UInt8}
    (hn : p.off.toNat + n.toNat + p.blksize.toNat ≤ 2 ^ 64) (hdata : n.toNat ≤ data.length) :
    ∃ a p', p.call malloc (.insert pos data n) = some (a, p') ∧
      p.Answers malloc (.insert pos data n) a p' := by
  have hresize := h.resize malloc hn
  rw [← h.length_contents] at hresize
  split at hresize
  · rename_i e hroom
    refine ⟨.pointer none, { p with lasterr := some e }, ?_, h.refused (.noRoom hresize.2 hroom)⟩
    simp only [Vpool.call, vpoolInsert, hresize.1]
    rfl
  · rename_i capacity hroom
    obtain ⟨p', hr, hmoved, hfit, rfl⟩ := hresize
    obtain ⟨ret, mem, hinsert, hret, hw, hcontents⟩ :=
      vpoolInsert_of_resize pos hr hmoved.wellFormed hfit hdata
    refine ⟨.pointer ((p'.pointer ret).map (· - p'.buf)), p'.grown mem n,
      by simp only [Vpool.call, hinsert, Option.map_some]; rfl, hw, ?_, hmoved.blksize,
      hmoved.limit⟩
    have hview : (p'.grown mem n).view = ⟨p.contents.take pos.toNat ++ data.take n.toNat ++
        p.contents.drop pos.toNat, p'.size.toNat⟩ := by
      rw [← hmoved.contents, ← hcontents]
      rfl
    rw [hview]
    exact .inserted hroom (hmoved.place h hfit hret)

/-- **Expanding.** -/
theorem Vpool.WellFormed.expand {n : UInt64} (pos : UInt64)
    (hn : p.off.toNat + n.toNat + p.blksize.toNat ≤ 2 ^ 64) :
    ∃ a p', p.call malloc (.expand pos n) = some (a, p') ∧
      p.Answers malloc (.expand pos n) a p' := by
  have hresize := h.resize malloc hn
  rw [← h.length_contents] at hresize
  split at hresize
  · rename_i e hroom
    refine ⟨.pointer none, { p with lasterr := some e }, ?_, h.refused (.noRoom hresize.2 hroom)⟩
    simp only [Vpool.call, vpoolExpand, hresize.1]
    rfl
  · rename_i capacity hroom
    obtain ⟨p', hr, hmoved, hfit, rfl⟩ := hresize
    have hw := hmoved.wellFormed
    have hblock := hw.block
    obtain ⟨ret, mem, hmake, hmem, hret, htake, hdrop⟩ := hw.makeRoom pos hfit
    obtain ⟨hwell, hcontents⟩ := hw.grown hfit hmem
    refine ⟨.pointer ((p'.pointer ret).map (· - p'.buf)), p'.grown mem n, ?_, hwell, ?_,
      hmoved.blksize, hmoved.limit⟩
    · simp only [Vpool.call, vpoolExpand, hr, hmake, bind, Option.bind, pure, Option.map]
      simp only [Vpool.pointer, Vpool.grown, Vpool.setMem, Option.map_map, Function.comp_def]
    · have hview : (p'.grown mem n).view = ⟨p.contents.take pos.toNat ++
          slice mem ret.toNat n.toNat ++ p.contents.drop pos.toNat, p'.size.toNat⟩ := by
        rw [← hmoved.contents, ← htake, ← hdrop, ← slice_around hret (Nat.min_le_right ..),
          ← hcontents]
        rfl
      rw [hview]
      exact .expanded hroom (hmoved.place h hfit hret) (length_slice (by omega))

omit h in
/-- The range check, in terms of numbers. -/
theorem outOfRange_iff {off pos n : UInt64} : (pos ≥ off ∨ n > off ∨ off - n < pos) ↔
    off.toNat ≤ pos.toNat ∨ off.toNat < pos.toNat + n.toNat := by
  simp only [ge_iff_le, gt_iff_lt, UInt64.le_iff_toNat_le, UInt64.lt_iff_toNat_lt]
  by_cases hn : n.toNat ≤ off.toNat
  · rw [toNat_sub_of_le hn]
    omega
  · omega

section Range

variable {pos n : UInt64} (hpos : pos.toNat < p.off.toNat)
  (hn : pos.toNat + n.toNat ≤ p.off.toNat)
include hpos hn

/-- **Cutting out.**  At the front nothing is moved. -/
theorem Vpool.WellFormed.exclude :
    ∃ p', vpoolTruncate p pos n .vpoolExclude = some (none, p') ∧ p'.WellFormed ∧
      p'.contents = p.contents.take pos.toNat ++ p.contents.drop (pos.toNat + n.toNat) ∧
      p'.size = p.size ∧ p'.blksize = p.blksize ∧ p'.limit = p.limit ∧ p'.lasterr = none := by
  have hin := h.inside
  have hblock := h.block
  have hlt : p.size.toNat < 2 ^ 64 := p.size.toNat_lt
  have hrange : ¬ (pos ≥ p.off ∨ n > p.off ∨ p.off - n < pos) := by
    rw [outOfRange_iff]
    omega
  have hoff : (p.off - n).toNat = p.off.toNat - n.toNat := toNat_sub_of_le (by omega)
  have hdrop : p.contents.drop (pos.toNat + n.toNat) =
      slice p.mem (p.buf.toNat + pos.toNat + n.toNat) (p.off.toNat - n.toNat - pos.toNat) := by
    rw [Vpool.contents, drop_slice]
    congr 1 <;> omega
  simp only [vpoolTruncate, if_neg hrange]
  by_cases hzero : pos = 0
  · have hbuf : (p.buf + n).toNat = p.buf.toNat + n.toNat := toNat_add_of_lt (by omega)
    refine ⟨{ p with buf := p.buf + n, off := p.off - n, lasterr := none }, if_pos hzero,
      ⟨hblock, ?_, h.limited, h.blksize⟩, ?_, rfl, rfl, rfl, rfl⟩
    · show (p.buf + n).toNat + (p.off - n).toNat ≤ p.size.toNat
      omega
    · show slice p.mem (p.buf + n).toNat (p.off - n).toNat = _
      subst hzero
      rw [hdrop, hbuf, hoff]
      rfl
  · have hstart : (p.buf + pos).toNat = p.buf.toNat + pos.toNat := toNat_add_of_lt (by omega)
    have hafter : (p.buf + pos + n).toNat = p.buf.toNat + pos.toNat + n.toNat := by
      rw [toNat_add_of_lt (by omega), hstart]
    have htail : (p.off - n - pos).toNat = p.off.toNat - n.toNat - pos.toNat := by
      rw [toNat_sub_of_le (by omega), hoff]
    rw [if_neg hzero, hstart, hafter, htail, move_of_le (by omega) (by omega), ← hdrop]
    have hlen : (p.contents.drop (pos.toNat + n.toNat)).length =
        p.off.toNat - n.toNat - pos.toNat := by
      rw [List.length_drop, h.length_contents]
      omega
    have hmem := length_overwrite (b := p.mem) (i := p.buf.toNat + pos.toNat)
      (show _ + (p.contents.drop (pos.toNat + n.toNat)).length ≤ _ by omega)
    refine ⟨_, rfl, ⟨?_, ?_, h.limited, h.blksize⟩, ?_, rfl, rfl, rfl, rfl⟩
    · exact (congrArg List.length (Vpool.mem_setMem hmem)).trans (hmem.trans hblock)
    · show p.buf.toNat + (p.off - n).toNat ≤ p.size.toNat
      omega
    · show slice (p.setMem _).mem p.buf.toNat (p.off - n).toNat = _
      have hsplit : (p.off - n).toNat =
          pos.toNat + (p.contents.drop (pos.toNat + n.toNat)).length := by omega
      rw [Vpool.mem_setMem hmem, hsplit, slice_add, slice_overwrite (by omega),
        slice_overwrite_of_le (by omega) (Nat.le_refl _)]
      congr 1
      exact (take_slice (by omega)).symm

/-- **Keeping.** -/
theorem Vpool.WellFormed.keep :
    ∃ p', vpoolTruncate p pos n .vpoolInclude = some (none, p') ∧ p'.WellFormed ∧
      p'.contents = (p.contents.drop pos.toNat).take n.toNat ∧
      p'.size = p.size ∧ p'.blksize = p.blksize ∧ p'.limit = p.limit ∧ p'.lasterr = none := by
  have hin := h.inside
  have hlt : p.size.toNat < 2 ^ 64 := p.size.toNat_lt
  have hrange : ¬ (pos ≥ p.off ∨ n > p.off ∨ p.off - n < pos) := by
    rw [outOfRange_iff]
    omega
  have hstart : (p.buf + pos).toNat = p.buf.toNat + pos.toNat := toNat_add_of_lt (by omega)
  refine ⟨_, if_neg hrange, ⟨h.block, ?_, h.limited, h.blksize⟩, ?_, rfl, rfl, rfl, rfl⟩
  · show (p.buf + pos).toNat + n.toNat ≤ p.size.toNat
    omega
  · show slice p.mem (p.buf + pos).toNat n.toNat = _
    rw [Vpool.contents, drop_slice, take_slice (by omega), hstart]

end Range

/-- **Truncating.** -/
theorem Vpool.WellFormed.truncate (pos n : UInt64) (how : VpoolTrunc) :
    ∃ a p', p.call malloc (.truncate pos n how) = some (a, p') ∧
      p.Answers malloc (.truncate pos n how) a p' := by
  have hlen := h.length_contents
  by_cases hrange : pos ≥ p.off ∨ n > p.off ∨ p.off - n < pos
  · refine ⟨.code (some .erange), { p with lasterr := some .erange }, ?_,
      h.refused (.outOfRange ?_)⟩
    · simp only [Vpool.call, vpoolTruncate, if_pos hrange, Option.map_some]
    · rw [Vpool.view, hlen]
      exact outOfRange_iff.1 hrange
  rw [outOfRange_iff, not_or, Nat.not_le, Nat.not_lt] at hrange
  obtain ⟨hpos, hn⟩ := hrange
  cases how with
  | vpoolExclude =>
    obtain ⟨p', hp', hw, hcontents, hsize, hblk, hlim, herr⟩ := h.exclude hpos hn
    refine ⟨.code none, p', by simp only [Vpool.call, hp', Option.map_some], hw, ?_, hblk, hlim⟩
    have hview : p'.view = { p.view with
        contents := p.contents.take pos.toNat ++ p.contents.drop (pos.toNat + n.toNat) } := by
      rw [Vpool.view, hcontents, hsize]
      rfl
    rw [hview, herr]
    exact .excluded (hlen.symm ▸ hpos) (hlen.symm ▸ hn)
  | vpoolInclude =>
    obtain ⟨p', hp', hw, hcontents, hsize, hblk, hlim, herr⟩ := h.keep hpos hn
    refine ⟨.code none, p', by simp only [Vpool.call, hp', Option.map_some], hw, ?_, hblk, hlim⟩
    have hview : p'.view = { p.view with
        contents := (p.contents.drop pos.toNat).take n.toNat } := by
      rw [Vpool.view, hcontents, hsize]
      rfl
    rw [hview, herr]
    exact .included (hlen.symm ▸ hpos) (hlen.symm ▸ hn)

/-- **Every call is answered as said**, if what it asks for does not make the sizes wrap. -/
theorem Vpool.WellFormed.call (malloc : Malloc) {call : VpoolCall} (hproper : call.Proper)
    (hn : p.contents.length + call.growth + p.blksize.toNat ≤ 2 ^ 64) :
    ∃ a p', p.call malloc call = some (a, p') ∧ p.Answers malloc call a p' := by
  rw [h.length_contents] at hn
  have hlim := h.limited
  have hin := h.inside
  cases call with
  | insert pos data n => exact h.insert pos hn hproper
  | expand pos n => exact h.expand pos hn
  | truncate pos n how => exact h.truncate pos n how
  | wipe =>
    refine ⟨.nothing, vpoolWipe p, rfl, ⟨h.block, ?_, hlim, h.blksize⟩, .wiped, rfl, rfl⟩
    show p.buf.toNat + 0 ≤ p.size.toNat
    omega
  | reset =>
    exact ⟨.nothing, vpoolReset p, rfl, ⟨rfl, Nat.le_refl 0, Nat.zero_le _, h.blksize⟩, .reset,
      rfl, rfl⟩
  | exportBuf =>
    obtain ⟨p', hp', hmoved, hbuf, -⟩ := h.shift
    refine ⟨.exported p'.base p'.off, vpoolReset p', ?_,
      ⟨rfl, Nat.le_refl 0, Nat.zero_le _, hmoved.wellFormed.blksize⟩, .exported ?_ ?_,
      hmoved.blksize, hmoved.limit⟩
    · simp only [Vpool.call, vpoolExport, hp', bind, Option.bind, pure, Option.map]
    · rw [hmoved.off]
      exact h.length_contents.symm
    · rw [Vpool.view, ← hmoved.contents, Vpool.contents, hbuf]
      rfl

end Call

/-! ## 4. Any sequence of calls -/

/-- A sequence of calls, each with what `malloc` does during it.  The results are the answers
and the pool. -/
def Vpool.run : Vpool → List (Malloc × VpoolCall) → Option (List VpoolAnswer × Vpool)
  | p, [] => some ([], p)
  | p, (malloc, call) :: calls => do
    let (a, p) ← p.call malloc call
    let (answers, p) ← Vpool.run p calls
    return (a :: answers, p)

/-- **What a sequence of calls is for**: the pool before and after, the answers, and the error in
the end. -/
inductive VpoolSpecs (blksize limit : Nat) : VpoolView → Option Errno →
    List (Malloc × VpoolCall) → List VpoolAnswer → VpoolView → Option Errno → Prop where
  | done {v e} : VpoolSpecs blksize limit v e [] [] v e
  | call {v e v₁ e₁ v₂ e₂ malloc call calls a answers}
      (h : VpoolSpec blksize limit malloc v call a v₁ e₁)
      (hrest : VpoolSpecs blksize limit v₁ e₁ calls answers v₂ e₂) :
      VpoolSpecs blksize limit v e ((malloc, call) :: calls) (a :: answers) v₂ e₂

/-- The bytes that a sequence of calls asks for in all. -/
def totalGrowth (calls : List (Malloc × VpoolCall)) : Nat :=
  calls.foldr (fun x total => x.2.growth + total) 0

/-- A call adds to the contents at most what it asks for. -/
theorem VpoolSpec.length_le {blksize limit : Nat} {malloc : Malloc} {v v' : VpoolView}
    {call : VpoolCall} {a : VpoolAnswer} {e : Option Errno}
    (h : VpoolSpec blksize limit malloc v call a v' e) :
    v'.contents.length ≤ v.contents.length + call.growth := by
  cases h with
  | @inserted pos data datsize at? capacity hroom hplace =>
    have hsplit := congrArg List.length (List.take_append_drop pos.toNat v.contents)
    have hdata := List.length_take_le datsize.toNat data
    simp only [List.length_append, VpoolCall.growth] at hsplit ⊢
    omega
  | @expanded pos size at? capacity gap hroom hplace hgap =>
    have hsplit := congrArg List.length (List.take_append_drop pos.toNat v.contents)
    simp only [List.length_append, VpoolCall.growth] at hsplit ⊢
    omega
  | noRoom hgrow hroom => exact Nat.le_add_right ..
  | excluded hpos hsize =>
    simp only [List.length_append, List.length_take, List.length_drop]
    omega
  | included hpos hsize =>
    simp only [List.length_take, List.length_drop]
    omega
  | outOfRange h => exact Nat.le_add_right ..
  | wiped => exact Nat.zero_le _
  | reset => exact Nat.zero_le _
  | exported hsize hblock => exact Nat.zero_le _

theorem Vpool.WellFormed.run {calls : List (Malloc × VpoolCall)} :
    ∀ {p : Vpool}, p.WellFormed → (∀ x ∈ calls, x.2.Proper) →
      p.contents.length + totalGrowth calls + p.blksize.toNat ≤ 2 ^ 64 →
      ∃ answers p', p.run calls = some (answers, p') ∧ p'.WellFormed ∧ p'.limit = p.limit ∧
        VpoolSpecs p.blksize.toNat p.limit.toNat p.view p.lasterr calls answers p'.view
          p'.lasterr := by
  induction calls with
  | nil => exact fun {p} h _ _ => ⟨[], p, rfl, h, rfl, .done⟩
  | cons x calls ih =>
    intro p h hproper hn
    obtain ⟨malloc, call⟩ := x
    have htotal : totalGrowth ((malloc, call) :: calls) = call.growth + totalGrowth calls := rfl
    have hfirst : call.Proper := hproper _ List.mem_cons_self
    obtain ⟨a, p₁, hcall, hans⟩ := h.call malloc hfirst (by omega)
    have hlen : p₁.contents.length ≤ p.contents.length + call.growth := hans.spec.length_le
    obtain ⟨answers, p₂, hrun, hw, hlim, hspecs⟩ := ih hans.wellFormed
      (fun y hy => hproper y (List.mem_cons_of_mem _ hy)) (by rw [hans.blksize]; omega)
    rw [hans.limit] at hlim
    rw [hans.blksize, hans.limit] at hspecs
    refine ⟨a :: answers, p₂, ?_, hw, hlim, .call hans.spec hspecs⟩
    simp only [Vpool.run, hcall, hrun, bind, Option.bind, pure]

theorem wellFormed_vpoolInit (blksize limit : UInt64) : (vpoolInit blksize limit).WellFormed := by
  refine ⟨rfl, Nat.le_refl 0, Nat.zero_le _, ?_⟩
  rw [vpoolInit]
  dsimp only
  split
  · decide
  · rename_i hne
    exact Nat.pos_of_ne_zero fun h => hne (UInt64.toNat_inj.1 h)

/-- **A pool is a list of bytes.**  In every sequence of calls from `vpool_init` on, with whatever
outcome of each `malloc`, no byte is read or written outside of the pool's block, and what the
calls return and what the pool contains in the end is as the specification says: in particular
a call fails only if what it asks for is beyond the limit, or does not fit and cannot be
allocated, and it then leaves the contents as they were.  The bytes that are asked for, with one
block more, must be addressable. -/
theorem vpool_refines (blksize limit : UInt64) (calls : List (Malloc × VpoolCall))
    (hproper : ∀ x ∈ calls, x.2.Proper)
    (hn : totalGrowth calls + (vpoolInit blksize limit).blksize.toNat ≤ 2 ^ 64) :
    ∃ answers p, (vpoolInit blksize limit).run calls = some (answers, p) ∧
      p.off.toNat = p.contents.length ∧ p.contents.length ≤ p.limit.toNat ∧
      VpoolSpecs (vpoolInit blksize limit).blksize.toNat (vpoolInit blksize limit).limit.toNat
        ⟨[], 0⟩ none calls answers p.view p.lasterr := by
  have hempty : (vpoolInit blksize limit).contents = [] := rfl
  obtain ⟨answers, p, hrun, hw, -, hspecs⟩ :=
    (wellFormed_vpoolInit blksize limit).run hproper (by rw [hempty, List.length_nil]; omega)
  have hlen := hw.length_contents
  have hin := hw.inside
  have hlim := hw.limited
  exact ⟨answers, p, hrun, hlen.symm, by omega, hspecs⟩

/-- **Why the sum is bounded**: the padding to a block makes the size wrap to 0, so a pool without
any block reports that it has grown, and the next insertion moves bytes that do not exist. -/
theorem vpool_wraps (malloc malloc' : Malloc) : (vpoolInit 1024 0).run
    [(malloc, .expand 0 (UInt64.ofNat (2 ^ 64 - 1))), (malloc', .insert 0 [0] 1)] = none := by
  rfl

/-- A `malloc` that always finds memory, cleared. -/
def clearedMemory : Malloc := fun size =>
  some ⟨List.replicate size.toNat 0, List.length_replicate⟩

/-- Three bytes, one of them cut out, and one put in its place, in blocks of four. -/
def samplePoolCalls : List (Malloc × VpoolCall) :=
  [(clearedMemory, .insert 0 [1, 2, 3] 3), (clearedMemory, .truncate 0 1 .vpoolExclude),
    (clearedMemory, .insert 1 [7, 8] 2)]

theorem vpool_refines_sample : ∃ answers p,
    (vpoolInit 4 0).run samplePoolCalls = some (answers, p) ∧
    p.off.toNat = p.contents.length ∧ p.contents.length ≤ p.limit.toNat ∧
    VpoolSpecs 4 (2 ^ 64 - 1) ⟨[], 0⟩ none samplePoolCalls answers p.view p.lasterr :=
  vpool_refines 4 0 samplePoolCalls (by
    intro x hx
    simp only [samplePoolCalls, List.mem_cons, List.not_mem_nil, or_false] at hx
    rcases hx with rfl | rfl | rfl <;> simp [VpoolCall.Proper]) (by decide)

/-! ## 5. The initial secret -/

/-- The insertions of `ratcheting_session_alice_initialize` and `ratcheting_session_bob_initialize`,
the next of which is number `i`: every part goes to the end. -/
def vpoolCollect (malloc : Nat → Malloc) : Nat → Vpool → List Bytes → Option (Except SgError Vpool)
  | _, p, [] => some (.ok p)
  | i, p, part :: parts => do
    match ← vpoolInsert (malloc i) p p.off part (UInt64.ofNat part.length) with
    | (none, _) => return .error .noMem
    | (some _, p) => vpoolCollect malloc (i + 1) p parts

/-- The keys that they derive from what they have collected. -/
def collectDerivedKeys {Priv Pub : Type} (P : ByteProvider Priv Pub) (malloc : Nat → Malloc)
    (parts : List Bytes) : Option (Except SgError (RatchetRootKey Bytes × RatchetChainKey Bytes)) :=
  do
    match ← vpoolCollect malloc 0 (vpoolInit 1024 0) parts with
    | .error e => return .error e
    | .ok p =>
      if p.off = 0 then return .error .unknown
      else return .ok (ratchetingSessionCalculateDerivedKeys P.toProvider [p.contents])

/-- A pool with one block of 1024 bytes. -/
structure Vpool.OneBlock (p : Vpool) : Prop where
  wellFormed : p.WellFormed
  base : p.base.isSome
  size : p.size = 1024
  buf : p.buf = 0

/-- **While the parts fit, nothing is allocated**, so nothing fails. -/
theorem Vpool.OneBlock.collect (malloc : Nat → Malloc) : ∀ {parts : List Bytes} {i : Nat}
    {p : Vpool}, p.OneBlock → (∀ x ∈ parts, x.length = 32) →
    p.off.toNat + 32 * parts.length ≤ 1024 →
    ∃ p', vpoolCollect malloc i p parts = some (.ok p') ∧
      p'.contents = p.contents ++ parts.flatten ∧ p'.off.toNat = p.off.toNat + 32 * parts.length
  | [], _, p, _, _, _ => ⟨p, rfl, (List.append_nil _).symm, rfl⟩
  | part :: parts, i, p, h, hlen, hfit => by
    have hpart : part.length = 32 := hlen _ List.mem_cons_self
    rw [List.length_cons] at hfit
    have hsize : p.size.toNat = 1024 := congrArg UInt64.toNat h.size
    have hbuf : p.buf.toNat = 0 := congrArg UInt64.toNat h.buf
    have hthirty : (32 : UInt64).toNat = 32 := rfl
    have hfree : (p.size - p.off).toNat = p.size.toNat - p.off.toNat := toNat_sub_of_le (by omega)
    have hresize : vpoolResize (malloc i) p 32 = some (none, p) := by
      have hnew : vpoolNewSize p 32 = .ok p.size :=
        if_pos (UInt64.le_iff_toNat_le.2 (by omega))
      have hroom : ¬ p.size - p.off - p.buf < 32 := by
        rw [h.buf, UInt64.sub_zero, UInt64.lt_iff_toNat_lt]
        omega
      simp only [vpoolResize, hnew, gt_iff_lt, UInt64.lt_irrefl, if_false, if_neg hroom]
      rfl
    obtain ⟨ret, mem, hinsert, -, hw, hcontents⟩ := vpoolInsert_of_resize p.off hresize
      h.wellFormed (by omega) (show (32 : UInt64).toNat ≤ part.length by omega)
    have hone : (p.grown mem 32).OneBlock :=
      ⟨hw, by simpa [Vpool.grown, Vpool.setMem] using h.base, h.size, h.buf⟩
    have hgrown : (p.grown mem 32).off.toNat = p.off.toNat + 32 :=
      toNat_add_of_lt (a := p.off) (by omega)
    obtain ⟨p', hcollect, hcontents', hoff'⟩ := Vpool.OneBlock.collect malloc (i := i + 1)
      hone (fun x hx => hlen x (List.mem_cons_of_mem _ hx)) (by omega)
    refine ⟨p', ?_, ?_, by rw [List.length_cons]; omega⟩
    · obtain ⟨b, hb⟩ := Option.isSome_iff_exists.1 h.base
      have hpointer : p.pointer ret = some ret := by rw [Vpool.pointer, hb]; rfl
      have hof : UInt64.ofNat part.length = 32 := by rw [hpart]; rfl
      simp only [vpoolCollect, hof, hinsert, hpointer, bind, Option.bind, hcollect]
    · have hclen := h.wellFormed.length_contents
      rw [hcontents', hcontents, List.take_of_length_le (by omega),
        List.drop_of_length_le (by omega), List.take_of_length_le (by omega), List.append_nil,
        List.append_assoc, List.flatten_cons]

/-- The pool after its first allocation. -/
def Vpool.fresh (b : List UInt8) : Vpool :=
  { vpoolInit 1024 0 with base := some b, size := 1024 }

theorem vpoolResize_first (malloc : Malloc) : vpoolResize malloc (vpoolInit 1024 0) 32 =
    match malloc 1024 with
    | none => some (some .enomem, vpoolInit 1024 0)
    | some b => some (none, .fresh b.1) := by
  have hnew : vpoolNewSize (vpoolInit 1024 0) 32 = .ok 1024 := rfl
  have hgrow : (1024 : UInt64) > (vpoolInit 1024 0).size := by decide
  rw [vpoolResize, hnew]
  dsimp only
  rw [if_pos hgrow]
  cases malloc 1024 <;> rfl

theorem Vpool.wellFormed_fresh {b : List UInt8} (hb : b.length = 1024) :
    (Vpool.fresh b).WellFormed :=
  ⟨hb, show 0 ≤ 1024 by decide, show 1024 ≤ 2 ^ 64 - 1 by decide, show 0 < 1024 by decide⟩

/-- **Collecting parts of 32 bytes**: the one allocation is that of 1024 bytes for the first part,
and if it succeeds, the pool contains the parts, one behind the other. -/
theorem vpoolCollect_init (malloc : Nat → Malloc) {parts : List Bytes}
    (hlen : ∀ x ∈ parts, x.length = 32) (hne : parts ≠ []) (hcount : parts.length ≤ 32) :
    (malloc 0 1024 = none →
        vpoolCollect malloc 0 (vpoolInit 1024 0) parts = some (.error .noMem)) ∧
      (malloc 0 1024 ≠ none → ∃ p, vpoolCollect malloc 0 (vpoolInit 1024 0) parts = some (.ok p) ∧
        p.contents = parts.flatten ∧ p.off ≠ 0) := by
  obtain ⟨part, parts, rfl⟩ := List.exists_cons_of_ne_nil hne
  have hpart : part.length = 32 := hlen _ List.mem_cons_self
  have hof : UInt64.ofNat part.length = 32 := by rw [hpart]; rfl
  have hoff : (vpoolInit 1024 0).off = 0 := rfl
  have hresize := vpoolResize_first (malloc 0)
  rw [List.length_cons] at hcount
  refine ⟨fun hm => ?_, fun hm => ?_⟩
  · rw [hm] at hresize
    simp only [vpoolCollect, hof, hoff, vpoolInsert, hresize, bind, Option.bind, pure]
  · obtain ⟨b, hb⟩ := Option.ne_none_iff_exists'.1 hm
    rw [hb] at hresize
    have hroom : (Vpool.fresh b.1).buf.toNat + (Vpool.fresh b.1).off.toNat + 32 ≤
        (Vpool.fresh b.1).size.toNat := show 0 + 0 + 32 ≤ 1024 by decide
    have hfit : part.length ≤ (32 : UInt64).toNat := Nat.le_of_eq hpart
    obtain ⟨ret, mem, hinsert, -, hw, hcontents⟩ := vpoolInsert_of_resize 0 hresize
      (Vpool.wellFormed_fresh b.2) hroom (Nat.le_of_eq hpart.symm)
    have hone : ((Vpool.fresh b.1).grown mem 32).OneBlock := ⟨hw, rfl, rfl, rfl⟩
    obtain ⟨p, hcollect, hp, hpoff⟩ := Vpool.OneBlock.collect malloc (i := 1) hone
      (fun x hx => hlen x (List.mem_cons_of_mem _ hx))
      (show 32 + 32 * parts.length ≤ 1024 by omega)
    have hempty : (Vpool.fresh b.1).contents = [] := rfl
    rw [hcontents, hempty, List.take_of_length_le hfit, List.take_nil, List.drop_nil,
      List.nil_append, List.append_nil] at hp
    refine ⟨p, ?_, by rw [hp, List.flatten_cons], fun h0 => ?_⟩
    · have hpointer : (Vpool.fresh b.1).pointer ret = some ret := rfl
      simp only [vpoolCollect, hof, hoff, hinsert, hpointer, bind, Option.bind, hcollect]
    · rw [h0] at hpoff
      have hsum : 0 = 32 + 32 * parts.length := hpoff
      omega

section Secret

variable {Priv Pub : Type} {P : ByteProvider Priv Pub}

/-- The parts of a secret have 32 bytes each. -/
theorem AliceParameters.length_of_mem_secret
    (hagree : ∀ A k, (P.agreement A k).length = 32) {a : AliceParameters Priv Pub} {x : Bytes}
    (hx : x ∈ a.secret P.toProvider) : x.length = 32 := by
  rw [AliceParameters.secret, P.fill_eq] at hx
  simp only [List.cons_append, List.nil_append, List.mem_cons, Option.mem_toList] at hx
  rcases hx with rfl | rfl | rfl | rfl | hx
  · exact List.length_replicate
  · exact hagree ..
  · exact hagree ..
  · exact hagree ..
  · obtain ⟨key, -, rfl⟩ := Option.map_eq_some_iff.1 hx
    exact hagree ..

theorem AliceParameters.length_secret_le (P : Provider Priv Pub Bytes)
    (a : AliceParameters Priv Pub) : (a.secret P).length ≤ 5 := by
  rw [AliceParameters.secret]
  cases a.theirOneTimePreKey <;> simp

/-- **The pool computes the keys of the model**, unless its one allocation fails. -/
theorem collectDerivedKeys_eq (hagree : ∀ A k, (P.agreement A k).length = 32)
    (hpieces : ∀ kdf ikm, P.hkdfDeriveSecrets kdf [ikm.flatten] = P.hkdfDeriveSecrets kdf ikm)
    (a : AliceParameters Priv Pub) (malloc : Nat → Malloc) :
    collectDerivedKeys P malloc (a.secret P.toProvider) =
      some (if malloc 0 1024 = none then .error .noMem
        else .ok (ratchetingSessionCalculateDerivedKeys P.toProvider (a.secret P.toProvider))) := by
  obtain ⟨hfail, hsuccess⟩ := vpoolCollect_init malloc
    (fun x hx => a.length_of_mem_secret hagree hx) (List.cons_ne_nil _ _)
    ((a.length_secret_le P.toProvider).trans (by decide))
  by_cases hm : malloc 0 1024 = none
  · rw [if_pos hm, collectDerivedKeys, hfail hm]
    rfl
  · obtain ⟨p, hp, hcontents, hoff⟩ := hsuccess hm
    rw [if_neg hm, collectDerivedKeys, hp]
    simp only [bind, Option.bind, if_neg hoff, hcontents, pure]
    rw [ratchetingSessionCalculateDerivedKeys, hpieces]
    rfl

/-- **The initial keys, as they are really collected.**  Alice and Bob append their agreements to
a pool of bytes each.  Each of them does no access outside of its pool, and fails iff the
single allocation of 1024 bytes fails, with `SG_ERR_NOMEM`; otherwise both have the keys that
the model derives from the list of agreements. -/
theorem initial_keys_collected (hagree : ∀ A k, (P.agreement A k).length = 32)
    (hpieces : ∀ kdf ikm, P.hkdfDeriveSecrets kdf [ikm.flatten] = P.hkdfDeriveSecrets kdf ikm)
    {a : AliceParameters Priv Pub} {b : BobParameters Priv Pub} (hm : Matching P.toProvider a b)
    (mallocA mallocB : Nat → Malloc) :
    collectDerivedKeys P mallocA (a.secret P.toProvider) =
        some (if mallocA 0 1024 = none then .error .noMem
          else .ok (ratchetingSessionCalculateDerivedKeys P.toProvider (a.secret P.toProvider))) ∧
      collectDerivedKeys P mallocB (b.secret P.toProvider) =
        some (if mallocB 0 1024 = none then .error .noMem
          else .ok
            (ratchetingSessionCalculateDerivedKeys P.toProvider (a.secret P.toProvider))) := by
  refine ⟨collectDerivedKeys_eq hagree hpieces a mallocA, ?_⟩
  rw [← hm.secret_eq]
  exact collectDerivedKeys_eq hagree hpieces a mallocB

end Secret

/-- Parameters of two parties whose keys are bytes. -/
def plainAlice : AliceParameters PlainKey PlainKey where
  ourIdentityKey := ⟨plainKey 1, plainKey 1⟩
  ourBaseKey := ⟨plainKey 2, plainKey 2⟩
  theirIdentityKey := plainKey 3
  theirSignedPreKey := plainKey 4
  theirOneTimePreKey := some (plainKey 5)
  theirRatchetKey := plainKey 4

/-- The peer's. -/
def plainBob : BobParameters PlainKey PlainKey where
  ourIdentityKey := ⟨plainKey 3, plainKey 3⟩
  ourSignedPreKey := ⟨plainKey 4, plainKey 4⟩
  ourOneTimePreKey := some ⟨plainKey 5, plainKey 5⟩
  ourRatchetKey := ⟨plainKey 4, plainKey 4⟩
  theirIdentityKey := plainKey 1
  theirBaseKey := plainKey 2

theorem plain_matching : Matching plainProvider.toProvider plainAlice plainBob :=
  ⟨rfl, rfl, rfl, rfl, fun _ hk => Option.some.inj hk ▸ rfl, rfl, rfl, rfl, rfl, rfl, rfl, rfl⟩

/-- With enough memory Bob collects the keys that the model derives for Alice. -/
theorem initial_keys_collected_plain :
    collectDerivedKeys plainProvider (fun _ => clearedMemory)
        (plainBob.secret plainProvider.toProvider) =
      some (.ok (ratchetingSessionCalculateDerivedKeys plainProvider.toProvider
        (plainAlice.secret plainProvider.toProvider))) :=
  (initial_keys_collected (P := plainProvider)
    (fun A k => by
      have hlen : (plainProvider.agreement A k).length = min A.1.length k.1.length :=
        List.length_zipWith
      rw [hlen, A.2, k.2, Nat.min_self])
    (fun kdf ikm => by
      funext salt info n offset length
      have hone : [ikm.flatten].flatten = ikm.flatten := List.flatten_singleton
      exact congrArg (fun b => padded length ((b ++ salt).drop offset)) hone)
    plain_matching (fun _ => clearedMemory) fun _ => clearedMemory).2

end SignalProtocol
