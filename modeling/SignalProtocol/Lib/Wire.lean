/-
# The protobuf wire format

A packed message is a sequence of fields.  A field is a tag, which holds the number of the
field and its wire type, and its data: a varint, 8 bytes, or a run of bytes behind its length.
A varint has seven bits in each byte, least significant first, and the top bit is set on all
bytes but the last.

`pack` writes a list of fields.  Reading goes as in protobuf-c, in two passes.  `scan` cuts the
bytes into members without looking at their types, and `unpackMessage` then gives the members
to a parser one after another, which stores them in a struct or objects.  So what is read may
have been written by somebody else: with fields in any order, repeated, unknown, or with numbers
that take more bytes than they need.

**The limits of the scan** (`protobufC`).  A tag and a length have at most 5 bytes, a number at
most 10.  A length is cut to 32 bits, and so is its sum with its own size.  If that sum wraps,
the member ends inside its own length, and whoever read the run would leave the buffer
(`Fault.overrun`); that such bytes are refused before is shown in section 8
(`inBounds_unpackMessage`).  `pack` itself writes lengths in full.  So a message is read back if
it is within the limits (`Limits.Allows`), and it is if it has no 256 MiB (`allows_of_length`), or
no 4 GiB and few fields (`allows_of_count`).
-/
import Mathlib.Algebra.Group.Nat.Defs
import Mathlib.Data.List.Basic
import Mathlib.Tactic.Common

namespace SignalProtocol.Wire

/-! ## 1. Varints -/

/-- The varint of a number; the first argument bounds the number of bytes. -/
def encodeVarintAux : Nat → Nat → List UInt8
  | 0, n => [UInt8.ofNat n]
  | fuel + 1, n =>
    if n < 128 then [UInt8.ofNat n]
    else UInt8.ofNat (n % 128 + 128) :: encodeVarintAux fuel (n / 128)

/-- The varint of a number. -/
def encodeVarint (n : Nat) : List UInt8 := encodeVarintAux n n

/-- The number of bytes of a varint in front of some bytes, if it is within a limit. -/
def scanVarint : Nat → List UInt8 → Option Nat
  | 0, _ => none
  | _ + 1, [] => none
  | limit + 1, b :: rest =>
    if b.toNat < 128 then some 1 else (scanVarint limit rest).map (· + 1)

/-- The number that the bytes of a varint hold. -/
def varintValue : List UInt8 → Nat
  | [] => 0
  | b :: rest => b.toNat % 128 + 128 * varintValue rest

theorem scanVarint_encodeVarintAux {fuel n limit : Nat} (h : n ≤ fuel)
    (hl : (encodeVarintAux fuel n).length ≤ limit) (rest : List UInt8) :
    scanVarint limit (encodeVarintAux fuel n ++ rest) =
      some (encodeVarintAux fuel n).length := by
  induction fuel generalizing n limit with
  | zero =>
    obtain rfl : n = 0 := by omega
    cases limit with
    | zero => cases hl
    | succ limit => rfl
  | succ fuel ih =>
    cases limit with
    | zero =>
      rw [encodeVarintAux] at hl
      split at hl <;> cases hl
    | succ limit =>
      rw [encodeVarintAux] at hl ⊢
      by_cases hn : n < 128
      · have hb : (UInt8.ofNat n).toNat = n := by
          rw [UInt8.toNat_ofNat']
          omega
        simp only [if_pos hn, List.cons_append, List.nil_append, scanVarint, hb, List.length_cons,
          List.length_nil]
      · have hb : ¬ (UInt8.ofNat (n % 128 + 128)).toNat < 128 := by
          rw [UInt8.toNat_ofNat']
          omega
        rw [if_neg hn, List.length_cons] at hl
        have hrest := ih (show n / 128 ≤ fuel by omega) (Nat.le_of_succ_le_succ hl)
        simp only [if_neg hn, List.cons_append, scanVarint, if_neg hb, hrest, Option.map_some,
          List.length_cons]

/-- **The varint of a number is scanned** if it is within the limit, whatever follows it. -/
theorem scanVarint_encodeVarint {n limit : Nat} (h : (encodeVarint n).length ≤ limit)
    (rest : List UInt8) :
    scanVarint limit (encodeVarint n ++ rest) = some (encodeVarint n).length :=
  scanVarint_encodeVarintAux (Nat.le_refl n) h rest

theorem varintValue_encodeVarintAux {fuel n : Nat} (h : n ≤ fuel) :
    varintValue (encodeVarintAux fuel n) = n := by
  induction fuel generalizing n with
  | zero =>
    obtain rfl : n = 0 := by omega
    rfl
  | succ fuel ih =>
    rw [encodeVarintAux]
    by_cases hn : n < 128
    · simp only [if_pos hn, varintValue, UInt8.toNat_ofNat']
      omega
    · simp only [if_neg hn, varintValue, UInt8.toNat_ofNat', ih (show n / 128 ≤ fuel by omega)]
      omega

/-- **And it holds the number.** -/
@[simp]
theorem varintValue_encodeVarint (n : Nat) : varintValue (encodeVarint n) = n :=
  varintValue_encodeVarintAux (Nat.le_refl n)

theorem encodeVarint_of_lt {n : Nat} (h : n < 128) : encodeVarint n = [UInt8.ofNat n] := by
  cases n with
  | zero => rfl
  | succ n => rw [encodeVarint, encodeVarintAux, if_pos h]

theorem length_encodeVarintAux_pos (fuel n : Nat) : 0 < (encodeVarintAux fuel n).length := by
  cases fuel with
  | zero => exact Nat.zero_lt_one
  | succ fuel =>
    rw [encodeVarintAux]
    split
    · exact Nat.zero_lt_one
    · exact Nat.succ_pos _

theorem length_encodeVarint_pos (n : Nat) : 0 < (encodeVarint n).length :=
  length_encodeVarintAux_pos n n

theorem length_encodeVarintAux_le {k : Nat} (fuel n : Nat) (h : n < 128 ^ (k + 1)) :
    (encodeVarintAux fuel n).length ≤ k + 1 := by
  induction k generalizing fuel n with
  | zero =>
    cases fuel with
    | zero => exact Nat.le_refl 1
    | succ fuel => rw [encodeVarintAux, if_pos (by simpa using h)]; exact Nat.le_refl 1
  | succ k ih =>
    cases fuel with
    | zero => exact Nat.le_add_left 1 (k + 1)
    | succ fuel =>
      rw [encodeVarintAux]
      split
      · exact Nat.le_add_left 1 (k + 1)
      · refine Nat.succ_le_succ (ih fuel (n / 128) (Nat.div_lt_of_lt_mul ?_))
        rw [Nat.pow_succ] at h
        omega

/-- A number below `128 ^ (k + 1)` takes at most `k + 1` bytes. -/
theorem length_encodeVarint_le {k n : Nat} (h : n < 128 ^ (k + 1)) :
    (encodeVarint n).length ≤ k + 1 := length_encodeVarintAux_le n n h

/-! ## 2. Writing -/

/-- The value of a field. -/
inductive Value where
  /-- Wire type 0. -/
  | varint (n : UInt64)
  /-- Wire type 1. -/
  | fixed64 (bytes : { b : List UInt8 // b.length = 8 })
  /-- Wire type 2. -/
  | bytes (bytes : List UInt8)
  deriving DecidableEq, Repr

/-- The numbers of fields are written as literals. -/
instance neZero_sixteen : @NeZero Nat Zero.ofOfNat0 16 := ⟨by decide⟩

/-- A field.  The numbers are below 16, so that a tag is one byte. -/
structure Field where
  number : Fin 16
  value : Value
  deriving DecidableEq, Repr

namespace Value

/-- The wire type. -/
def wireType : Value → Nat
  | varint _ => 0
  | fixed64 _ => 1
  | bytes _ => 2

/-- The size of the length in front of a run of bytes. -/
def lengthPrefixLen : Value → Nat
  | bytes b => (encodeVarint b.length).length
  | _ => 0

/-- The bytes of a value. -/
def pack : Value → List UInt8
  | varint n => encodeVarint n.toNat
  | fixed64 b => b.1
  | bytes b => encodeVarint b.length ++ b

theorem length_pack_pos (v : Value) : 0 < v.pack.length := by
  cases v with
  | varint n => exact length_encodeVarint_pos _
  | fixed64 b => simp [pack, b.2]
  | bytes b =>
    have := length_encodeVarint_pos b.length
    simp only [pack, List.length_append]
    omega

end Value

/-- The bytes of a field. -/
def Field.pack (f : Field) : List UInt8 :=
  encodeVarint (8 * f.number + f.value.wireType) ++ f.value.pack

/-- The bytes of some fields. -/
def pack (fields : List Field) : List UInt8 := fields.flatMap Field.pack

theorem pack_cons (f : Field) (fields : List Field) :
    pack (f :: fields) = f.pack ++ pack fields := List.flatMap_cons

theorem pack_append (fields fields' : List Field) :
    pack (fields ++ fields') = pack fields ++ pack fields' := List.flatMap_append

theorem tag_lt (f : Field) : 8 * f.number.val + f.value.wireType < 128 := by
  have := f.number.isLt
  cases f.value <;> simp only [Value.wireType] <;> omega

/-- A field is a tag of one byte and a value. -/
theorem Field.pack_eq (f : Field) :
    f.pack = UInt8.ofNat (8 * f.number + f.value.wireType) :: f.value.pack := by
  rw [Field.pack, encodeVarint_of_lt (tag_lt f)]
  rfl

theorem Field.length_pack (f : Field) : f.pack.length = 1 + f.value.pack.length := by
  rw [Field.pack_eq, List.length_cons, Nat.add_comm]

/-- A field takes at least two bytes. -/
theorem length_le_length_pack (fields : List Field) : 2 * fields.length ≤ (pack fields).length := by
  induction fields with
  | nil => exact Nat.le_refl 0
  | cons f fields ih =>
    have := f.value.length_pack_pos
    rw [pack_cons, List.length_append, List.length_cons, f.length_pack]
    omega

theorem pack_ne_nil {fields : List Field} (h : fields ≠ []) : pack fields ≠ [] := by
  have hlen := length_le_length_pack fields
  have hpos := List.length_pos_of_ne_nil h
  intro hnil
  rw [hnil, List.length_nil] at hlen
  omega

theorem length_pack_le_of_mem {fields : List Field} {f : Field} (h : f ∈ fields) :
    f.pack.length ≤ (pack fields).length := by
  induction fields with
  | nil => exact absurd h List.not_mem_nil
  | cons g fields ih =>
    rw [pack_cons, List.length_append]
    rcases List.mem_cons.1 h with rfl | h
    · exact Nat.le_add_right _ _
    · exact Nat.le_trans (ih h) (Nat.le_add_left _ _)

/-! ## 3. Scanning -/

/-- How the scan is limited: the bytes of a length, the bound that lengths are cut to, the number
of members. -/
structure Limits where
  lengthLen : Nat
  size : Nat
  members : Nat

/-- The limits of protobuf-c.  It keeps the members in 23 slabs, of which the first has room for 16
and every further one for twice as many as the one before. -/
def protobufC : Limits where
  lengthLen := 5
  size := 2 ^ 32
  members := 16 * (2 ^ 23 - 1)

/-- Limits that nothing of `n` bytes exceeds. -/
def Limits.wide (n : Nat) : Limits where
  lengthLen := n
  size := n + 1
  members := n

/-- A member as it was scanned (`ScannedMember`).  The data of a run of bytes starts with its
length. -/
structure Member where
  tag : Nat
  wireType : Nat
  lengthPrefixLen : Nat
  data : List UInt8
  deriving DecidableEq, Repr

/-- The length of a member's data, and how much of it is the length in front of a run. -/
def scanData (L : Limits) (wireType : Nat) (data : List UInt8) : Option (Nat × Nat) :=
  match wireType with
  | 0 => (scanVarint 10 data).map fun n => (n, 0)
  | 1 => if 8 ≤ data.length then some (8, 0) else none
  | 2 => do
    let n ← scanVarint L.lengthLen data
    -- both the length and its sum with its own size are cut
    let len := (n + varintValue (data.take n) % L.size) % L.size
    if len = 0 ∨ data.length < len then none else some (len, n)
  | 5 => if 4 ≤ data.length then some (4, 0) else none
  | _ => none

/-- One member and what follows it. -/
def scanMember (L : Limits) (data : List UInt8) : Option (Member × List UInt8) := do
  let n ← scanVarint 5 data
  let tag := varintValue (data.take n)
  let (len, lengthPrefixLen) ← scanData L (tag % 8) (data.drop n)
  return (⟨tag / 8, tag % 8, lengthPrefixLen, (data.drop n).take len⟩, (data.drop n).drop len)

/-- Members until the bytes are used up; the first argument bounds their number. -/
def scanAux (L : Limits) : Nat → List UInt8 → Option (List Member)
  | _, [] => some []
  | 0, _ :: _ => none
  | fuel + 1, b :: data => do
    let (m, rest) ← scanMember L (b :: data)
    let members ← scanAux L fuel rest
    return m :: members

/-- **The members of a message.**  Each takes at least its tag, so their number is bounded by that
of the bytes. -/
def scan (L : Limits) (data : List UInt8) : Option (List Member) := do
  let members ← scanAux L data.length data
  if members.length ≤ L.members then some members else none

/-- A field as it is scanned. -/
def Field.member (f : Field) : Member :=
  ⟨f.number, f.value.wireType, f.value.lengthPrefixLen, f.value.pack⟩

/-- A run of bytes and its length are within the limits. -/
def Value.Fits (L : Limits) : Value → Prop
  | bytes b => (encodeVarint b.length).length ≤ L.lengthLen ∧
      (encodeVarint b.length).length + b.length < L.size
  | _ => True

/-- **Fields within the limits.** -/
structure Limits.Allows (L : Limits) (fields : List Field) : Prop where
  fits : ∀ f ∈ fields, f.value.Fits L
  count : fields.length ≤ L.members

theorem scanData_pack {L : Limits} {v : Value} (h : v.Fits L) (rest : List UInt8) :
    scanData L v.wireType (v.pack ++ rest) = some (v.pack.length, v.lengthPrefixLen) := by
  cases v with
  | varint n =>
    have hlen : (encodeVarint n.toNat).length ≤ 9 + 1 :=
      length_encodeVarint_le (Nat.lt_trans n.toNat_lt (by decide))
    simp only [scanData, Value.wireType, Value.pack, scanVarint_encodeVarint hlen,
      Option.map_some, Value.lengthPrefixLen]
  | fixed64 b =>
    have hb : b.1.length = 8 := b.2
    simp only [scanData, Value.wireType, Value.pack, List.length_append, hb,
      Value.lengthPrefixLen]
    rw [if_pos (Nat.le_add_right 8 _)]
  | bytes b =>
    obtain ⟨hlen, hsize⟩ := h
    have hpos := length_encodeVarint_pos b.length
    have hscan := scanVarint_encodeVarint hlen (b ++ rest)
    have hb : b.length % L.size = b.length := Nat.mod_eq_of_lt (by omega)
    have htotal := Nat.mod_eq_of_lt hsize
    simp only [scanData, Value.wireType, Value.pack, List.append_assoc, hscan, bind,
      Option.bind_some, List.take_left', varintValue_encodeVarint, hb, htotal,
      List.length_append, Value.lengthPrefixLen]
    rw [if_neg (by omega)]

theorem scanMember_pack {L : Limits} {f : Field} (h : f.value.Fits L) (rest : List UInt8) :
    scanMember L (f.pack ++ rest) = some (f.member, rest) := by
  have hlt := tag_lt f
  have hwire : f.value.wireType < 8 := by cases f.value <;> simp [Value.wireType]
  have hmod : (8 * f.number.val + f.value.wireType) % 8 = f.value.wireType := by omega
  have hdiv : (8 * f.number.val + f.value.wireType) / 8 = f.number := by omega
  have htag : (encodeVarint (8 * f.number + f.value.wireType)).length ≤ 5 := by
    rw [encodeVarint_of_lt hlt]
    exact Nat.le_add_left 1 4
  have hscan := scanVarint_encodeVarint htag (f.value.pack ++ rest)
  simp only [scanMember, Field.pack, List.append_assoc, hscan, bind, Option.bind_some,
    List.take_left', List.drop_left', varintValue_encodeVarint, hmod, hdiv, scanData_pack h]
  rfl

theorem scanAux_pack {L : Limits} {fuel : Nat} {fields : List Field}
    (h : ∀ f ∈ fields, f.value.Fits L) (hfuel : (pack fields).length ≤ fuel) :
    scanAux L fuel (pack fields) = some (fields.map Field.member) := by
  induction fields generalizing fuel with
  | nil => cases fuel <;> rfl
  | cons f fields ih =>
    rw [pack_cons, List.length_append, f.length_pack] at hfuel
    cases fuel with
    | zero => omega
    | succ fuel =>
      have hrest := ih (fun g hg => h g (List.mem_cons_of_mem _ hg))
        (show (pack fields).length ≤ fuel by omega)
      have hmember := scanMember_pack (h f List.mem_cons_self) (pack fields)
      rw [f.pack_eq, List.cons_append] at hmember
      rw [pack_cons, f.pack_eq, List.cons_append, scanAux, hmember]
      simp only [bind, Option.bind_some, hrest]
      rfl

/-- **What is packed within the limits is scanned.** -/
theorem scan_pack {L : Limits} {fields : List Field} (h : L.Allows fields) :
    scan L (pack fields) = some (fields.map Field.member) := by
  rw [scan, scanAux_pack h.fits (Nat.le_refl _)]
  simp only [bind, Option.bind_some, List.length_map]
  rw [if_pos h.count]

/-- A message below 4 GiB is within the limits of protobuf-c if it has not too many fields. -/
theorem allows_of_count {fields : List Field} (hcount : fields.length ≤ protobufC.members)
    (h : (pack fields).length < 2 ^ 32) : protobufC.Allows fields := by
  refine ⟨fun f hf => ?_, hcount⟩
  have hle := length_pack_le_of_mem hf
  rw [f.length_pack] at hle
  cases hv : f.value with
  | varint n => trivial
  | fixed64 b => trivial
  | bytes b =>
    rw [hv, Value.pack, List.length_append] at hle
    refine ⟨length_encodeVarint_le (show b.length < 128 ^ (4 + 1) from ?_), ?_⟩
    · have : (2 : Nat) ^ 32 < 128 ^ (4 + 1) := by decide
      omega
    · show (encodeVarint b.length).length + b.length < 2 ^ 32
      omega

/-- The length up to which a message cannot have too many fields. -/
def safeLen : Nat := 2 * protobufC.members

/-- **A message of at most 256 MiB (less 32 bytes) is within the limits of protobuf-c.** -/
theorem allows_of_length {fields : List Field} (h : (pack fields).length ≤ safeLen) :
    protobufC.Allows fields := by
  have hlen := length_le_length_pack fields
  have hsafe : safeLen < 2 ^ 32 := by decide
  exact allows_of_count (by rw [safeLen] at h; omega) (by omega)

/-- Limits that are wide enough. -/
theorem allows_wide {fields : List Field} {n : Nat} (h : (pack fields).length ≤ n) :
    (Limits.wide n).Allows fields := by
  refine ⟨fun f hf => ?_, ?_⟩
  · have hle := length_pack_le_of_mem hf
    rw [f.length_pack] at hle
    cases hv : f.value with
    | varint n => trivial
    | fixed64 b => trivial
    | bytes b =>
      rw [hv, Value.pack, List.length_append] at hle
      exact ⟨show _ ≤ n by omega, show _ < n + 1 by omega⟩
  · have hlen := length_le_length_pack fields
    show fields.length ≤ n
    omega

/-! ## 4. Parsing -/

/-- Why a message is not read. -/
inductive Fault where
  /-- The reader returns a null pointer. -/
  | refused
  /-- The reader leaves the buffer. -/
  | overrun
  deriving DecidableEq, Repr

/-- **Read a message** (`protobuf_c_message_unpack`): scan the members and parse them in order. -/
def unpackMessage {S : Type} (L : Limits) (parse : S → Member → Except Fault S) (init : S)
    (data : List UInt8) : Except Fault S :=
  match scan L data with
  | none => .error .refused
  | some members => members.foldlM parse init

/-- **A property of everything that is read**: the empty struct has it and each member keeps it. -/
theorem unpackMessage_induction {S : Type} {L : Limits} {parse : S → Member → Except Fault S}
    {init s : S} {data : List UInt8} (h : unpackMessage L parse init data = .ok s)
    {P : S → Prop} (hinit : P init) (hstep : ∀ s m s', P s → parse s m = .ok s' → P s') : P s := by
  unfold unpackMessage at h
  split at h
  · cases h
  · rename_i members hmembers
    clear hmembers
    induction members generalizing init with
    | nil =>
      cases h
      exact hinit
    | cons m members ih =>
      rw [List.foldlM_cons] at h
      cases hm : parse init m with
      | error e =>
        rw [hm] at h
        cases h
      | ok s' =>
        rw [hm] at h
        exact ih (hstep _ _ _ hinit hm) h

/-- Parsing these fields leads from one struct to another. -/
def Reads {S : Type} (parse : S → Member → Except Fault S) (s : S) (fields : List Field) (s' : S) :
    Prop :=
  (fields.map Field.member).foldlM parse s = .ok s'

section Reads

variable {S : Type} {parse : S → Member → Except Fault S} {s s' s'' : S}
  {fields fields' : List Field}

theorem Reads.append (h : Reads parse s fields s') (h' : Reads parse s' fields' s'') :
    Reads parse s (fields ++ fields') s'' := by
  rw [Reads] at h h' ⊢
  rw [List.map_append, List.foldlM_append, h]
  exact h'

/-- **A message within the limits is read back** if its fields are. -/
theorem unpackMessage_pack {L : Limits} (h : L.Allows fields) (hr : Reads parse s fields s') :
    unpackMessage L parse s (pack fields) = .ok s' := by
  rw [unpackMessage, scan_pack h]
  exact hr

end Reads

/-! ## 5. Fields by type -/

/-- How values of a type are written and read. -/
structure Codec (α : Type) where
  write : α → Value
  read : Member → Except Fault α

/-- The value is read back. -/
def Codec.Keeps {α : Type} (c : Codec α) (a : α) : Prop :=
  ∀ number, c.read (Field.member ⟨number, c.write a⟩) = .ok a

/-- Every value is read back. -/
class Codec.Lossless {α : Type} (c : Codec α) : Prop where
  keeps : ∀ a, c.Keeps a

/-- A repeated field. -/
def repeated {α : Type} (c : Codec α) (number : Fin 16) (values : List α) : List Field :=
  values.map fun a => ⟨number, c.write a⟩

/-- An optional field. -/
def optional {α : Type} (c : Codec α) (number : Fin 16) (value : Option α) : List Field :=
  repeated c number value.toList

section Codec

variable {α S : Type} {c : Codec α} {number : Fin 16} {parse : S → Member → Except Fault S}

/-- **A repeated field is read** by a parser that adds what it reads to a list. -/
theorem Reads.repeated_of {values : List α} (hread : ∀ a ∈ values, c.Keeps a)
    (put : List α → S) (hparse : ∀ xs (m : Member), m.tag = number → parse (put xs) m =
      (do let a ← c.read m; return put (xs ++ [a]))) (xs : List α) :
    Reads parse (put xs) (repeated c number values) (put (xs ++ values)) := by
  induction values generalizing xs with
  | nil =>
    rw [List.append_nil]
    rfl
  | cons a values ih =>
    have ha := hread a List.mem_cons_self number
    have hrest := ih (fun b hb => hread b (List.mem_cons_of_mem _ hb)) (xs ++ [a])
    rw [List.append_assoc] at hrest
    rw [Reads, repeated, List.map_cons, List.map_cons, List.foldlM_cons, hparse _ _ rfl, ha]
    exact hrest

/-- **An optional field is read** by a parser that stores what it reads. -/
theorem Reads.optional_of {value : Option α} (hread : ∀ a ∈ value, c.Keeps a)
    (put : Option α → S) (hparse : ∀ m : Member, m.tag = number → parse (put none) m =
      (do let a ← c.read m; return put (some a))) :
    Reads parse (put none) (optional c number value) (put value) := by
  cases value with
  | none => rfl
  | some a =>
    rw [Reads, optional, repeated, Option.toList_some, List.map_cons, List.map_cons,
      List.foldlM_cons, hparse _ rfl, hread a rfl number]
    rfl

theorem Reads.optional [c.Lossless] {value : Option α} (put : Option α → S)
    (hparse : ∀ m : Member, m.tag = number → parse (put none) m =
      (do let a ← c.read m; return put (some a))) :
    Reads parse (put none) (optional c number value) (put value) :=
  .optional_of (fun a _ => Codec.Lossless.keeps a) put hparse

end Codec

/-- A number. -/
def uint32Codec : Codec UInt32 where
  write n := .varint n.toUInt64
  read m := if m.wireType = 0 then .ok (UInt32.ofNat (varintValue m.data)) else .error .refused

/-- A signed number: a negative one is extended to 64 bits. -/
def int32Codec : Codec Int32 where
  write n := .varint n.toInt64.toUInt64
  read m := if m.wireType = 0 then .ok (UInt32.ofNat (varintValue m.data)).toInt32
    else .error .refused

/-- A truth value.  Its wire type is not looked at, and the length in front of a run counts. -/
def boolCodec : Codec Bool where
  write b := .varint b.toUInt64
  read m := .ok (m.data.any fun b => b.toNat % 128 ≠ 0)

/-- Eight bytes, least significant first. -/
def fixed64Codec : Codec UInt64 where
  write n := .fixed64 ⟨(List.range 8).map fun i => UInt8.ofNat (n.toNat / 256 ^ i), rfl⟩
  read m := if m.wireType = 1 then
      .ok (UInt64.ofNat (m.data.foldr (fun x n => x.toNat + 256 * n) 0))
    else .error .refused

/-- A run of bytes. -/
def bytesCodec : Codec (List UInt8) where
  write := .bytes
  read m := if m.wireType ≠ 2 then .error .refused
    else if m.data.length < m.lengthPrefixLen then .error .overrun
    else .ok (m.data.drop m.lengthPrefixLen)

/-- A run of bytes for a reader that tests the pointer: that to an empty run is null. -/
def pointerCodec : Codec (Option (List UInt8)) where
  write b := .bytes (b.getD [])
  read m := do
    let b ← bytesCodec.read m
    return if b = [] then none else some b

/-- A message inside a message. -/
def messageCodec {α : Type} (pack : α → List UInt8) (unpack : List UInt8 → Except Fault α) :
    Codec α where
  write a := .bytes (pack a)
  read m := do
    let b ← bytesCodec.read m
    unpack b

theorem bytesCodec_keeps (b : List UInt8) : bytesCodec.Keeps b := by
  intro number
  have hlen : ¬ (encodeVarint b.length ++ b).length < (encodeVarint b.length).length := by
    simp
  simp only [bytesCodec, Field.member, Value.wireType, Value.lengthPrefixLen, Value.pack,
    ne_eq, not_true_eq_false, if_false, if_neg hlen, List.drop_left']

instance : bytesCodec.Lossless := ⟨bytesCodec_keeps⟩

theorem uint32Codec_keeps (n : UInt32) : uint32Codec.Keeps n := by
  intro number
  simp [uint32Codec, Field.member, Value.wireType, Value.pack]

instance : uint32Codec.Lossless := ⟨uint32Codec_keeps⟩

theorem int32Codec_keeps (n : Int32) : int32Codec.Keeps n := by
  intro number
  have hback : Int32.ofNat n.toInt64.toUInt64.toNat = n := by
    apply Int32.toBitVec_inj.1
    show BitVec.ofNat 32 (n.toBitVec.signExtend 64).toNat = n.toBitVec
    rw [BitVec.ofNat_toNat]
    ext i hi
    have hlt : i < 64 := by omega
    simp [BitVec.getElem_signExtend, hi, hlt]
  simp [int32Codec, Field.member, Value.wireType, Value.pack, hback]

instance : int32Codec.Lossless := ⟨int32Codec_keeps⟩

instance : boolCodec.Lossless := ⟨fun b number => by cases b <;> rfl⟩

theorem fixed64Codec_keeps (n : UInt64) : fixed64Codec.Keeps n := by
  intro number
  have hlt : n.toNat < 2 ^ 64 := n.toNat_lt
  have hsum : ((List.range 8).map fun i => UInt8.ofNat (n.toNat / 256 ^ i)).foldr
      (fun x n => x.toNat + 256 * n) 0 = n.toNat := by
    simp only [List.range, List.range.loop, List.map_cons, List.map_nil, List.foldr_cons,
      List.foldr_nil, UInt8.toNat_ofNat', Nat.reducePow]
    omega
  simp only [fixed64Codec, Field.member, Value.wireType, Value.pack, if_true, hsum,
    UInt64.ofNat_toNat]

instance : fixed64Codec.Lossless := ⟨fixed64Codec_keeps⟩

theorem pointerCodec_keeps {b : Option (List UInt8)} (h : b ≠ some []) :
    pointerCodec.Keeps b := by
  intro number
  have hread := bytesCodec_keeps (b.getD []) number
  simp only [pointerCodec, show bytesCodec.write (b.getD []) = .bytes (b.getD []) from rfl]
    at hread ⊢
  rw [hread]
  match b with
  | none => rfl
  | some [] => exact absurd rfl h
  | some (x :: b) => rfl

theorem pointerCodec_read_ne {m : Member} {b : Option (List UInt8)}
    (h : pointerCodec.read m = .ok b) : b ≠ some [] := by
  simp only [pointerCodec] at h
  cases hread : bytesCodec.read m with
  | error e =>
    rw [hread] at h
    cases h
  | ok c =>
    rw [hread] at h
    cases h
    split
    · simp
    · simpa

/-- A message inside a message is read back if it is by itself. -/
theorem messageCodec_keeps {α : Type} {pack : α → List UInt8}
    {unpack : List UInt8 → Except Fault α} {a : α} (h : unpack (pack a) = .ok a) :
    (messageCodec pack unpack).Keeps a := by
  intro number
  have hread := bytesCodec_keeps (pack a) number
  simp only [messageCodec, show bytesCodec.write (pack a) = .bytes (pack a) from rfl] at hread ⊢
  rw [hread]
  exact h

/-- A message inside a message is shorter. -/
theorem length_lt_of_mem {α : Type} {pack : α → List UInt8} {unpack : List UInt8 → Except Fault α}
    {fields : List Field} {number : Fin 16} {a : α}
    (h : ⟨number, (messageCodec pack unpack).write a⟩ ∈ fields) :
    (pack a).length < (Wire.pack fields).length := by
  have hle := length_pack_le_of_mem h
  have hpack : ((messageCodec pack unpack).write a).pack.length =
      (encodeVarint (pack a).length).length + (pack a).length := List.length_append
  rw [Field.length_pack, hpack] at hle
  omega

/-- A message inside a message that is short enough is read back if it is by itself. -/
theorem messageCodec_keeps_of_mem {α : Type} {pack : α → List UInt8}
    {unpack : List UInt8 → Except Fault α} {fields : List Field} {number : Fin 16} {a : α}
    (hlen : (Wire.pack fields).length ≤ safeLen)
    (h : (pack a).length ≤ safeLen → unpack (pack a) = .ok a)
    (hmem : ⟨number, (messageCodec pack unpack).write a⟩ ∈ fields) :
    (messageCodec pack unpack).Keeps a :=
  messageCodec_keeps (h (Nat.le_trans (Nat.le_of_lt (length_lt_of_mem hmem)) hlen))

theorem mem_repeated {α : Type} (c : Codec α) (number : Fin 16) {values : List α} {a : α}
    (h : a ∈ values) : ⟨number, c.write a⟩ ∈ repeated c number values :=
  List.mem_map.2 ⟨a, h, rfl⟩

theorem mem_optional {α : Type} (c : Codec α) (number : Fin 16) {value : Option α} {a : α}
    (h : a ∈ value) : ⟨number, c.write a⟩ ∈ optional c number value :=
  mem_repeated c number (Option.mem_toList.2 h)

theorem messageCodec_read_ok {α : Type} {pack : α → List UInt8}
    {unpack : List UInt8 → Except Fault α} {m : Member} {a : α}
    (h : (messageCodec pack unpack).read m = .ok a) : ∃ b, unpack b = .ok a := by
  simp only [messageCodec] at h
  cases hread : bytesCodec.read m with
  | error e =>
    rw [hread] at h
    cases h
  | ok b =>
    rw [hread] at h
    exact ⟨b, h⟩

/-! ## 6. Messages that occur twice

A member with a message is merged into the one before it (`merge_messages`). -/

/-- A run of bytes: that of the later message counts unless its pointer is null. -/
def mergeBytes (earlier later : Option (List UInt8)) : Option (List UInt8) :=
  match later, earlier with
  | some (_ :: _), _ => later
  | _, some (_ :: _) => earlier
  | _, _ => later

/-- The same for a reader that tests the pointer. -/
def mergePointer (earlier later : Option (Option (List UInt8))) : Option (Option (List UInt8)) :=
  match later, earlier with
  | some (some _), _ => later
  | _, some (some _) => earlier
  | _, _ => later

/-- A message. -/
def mergeMessage {α : Type} (merge : α → α → α) : Option α → Option α → Option α
  | some earlier, some later => some (merge earlier later)
  | some earlier, none => some earlier
  | none, later => later

theorem mergePointer_ne {earlier later : Option (Option (List UInt8))}
    (he : ∀ key ∈ earlier, key ≠ some []) (hl : ∀ key ∈ later, key ≠ some []) :
    ∀ key ∈ mergePointer earlier later, key ≠ some [] := by
  unfold mergePointer
  split
  · exact hl
  · exact he
  · exact hl

theorem mem_mergeMessage {α : Type} {merge : α → α → α} {Q : α → Prop}
    (hmerge : ∀ e l, Q e → Q l → Q (merge e l)) {earlier later : Option α}
    (he : ∀ a ∈ earlier, Q a) (hl : ∀ a ∈ later, Q a) :
    ∀ a ∈ mergeMessage merge earlier later, Q a := by
  unfold mergeMessage
  split
  · rintro _ ⟨⟩
    exact hmerge _ _ (he _ rfl) (hl _ rfl)
  · exact he
  · exact hl

/-! ## 7. Sizes -/

/-- How many bytes the value holds, if it is a run. -/
def Value.run : Value → Nat
  | bytes b => b.length
  | _ => 0

/-- What stands around a run, or instead of one, has at most ten bytes. -/
theorem Value.length_pack_le {v : Value} {k : Nat} (hk : k < 128 ^ 5) (h : v.run ≤ k) :
    v.pack.length ≤ 10 + k := by
  cases v with
  | varint n =>
    have hlen : (encodeVarint n.toNat).length ≤ 9 + 1 :=
      length_encodeVarint_le (Nat.lt_trans n.toNat_lt (by decide))
    exact Nat.le_trans hlen (Nat.le_add_right ..)
  | fixed64 b =>
    have hb : b.1.length = 8 := b.2
    show b.1.length ≤ 10 + k
    omega
  | bytes b =>
    have hlen : (encodeVarint b.length).length ≤ 4 + 1 :=
      length_encodeVarint_le (Nat.lt_of_le_of_lt h hk)
    have hb : b.length ≤ k := h
    rw [Value.pack, List.length_append]
    omega

/-- **The size of a repeated field.** -/
theorem length_pack_repeated_le {α : Type} {c : Codec α} {number : Fin 16} {values : List α}
    {k : Nat} (hk : k < 128 ^ 5) (h : ∀ a ∈ values, (c.write a).run ≤ k) :
    (pack (repeated c number values)).length ≤ values.length * (11 + k) := by
  induction values with
  | nil => exact Nat.zero_le _
  | cons a values ih =>
    have hrest := ih fun b hb => h b (List.mem_cons_of_mem _ hb)
    have hfirst := Value.length_pack_le hk (h a List.mem_cons_self)
    have hcons : repeated c number (a :: values) =
        ⟨number, c.write a⟩ :: repeated c number values := rfl
    rw [hcons, pack_cons, List.length_append, Field.length_pack, List.length_cons, Nat.succ_mul]
    dsimp only
    omega

/-- **The size of an optional field.** -/
theorem length_pack_optional_le {α : Type} {c : Codec α} {number : Fin 16} {value : Option α}
    {k : Nat} (hk : k < 128 ^ 5) (h : ∀ a ∈ value, (c.write a).run ≤ k) :
    (pack (optional c number value)).length ≤ 11 + k := by
  refine Nat.le_trans (length_pack_repeated_le hk fun a ha => h a (Option.mem_toList.1 ha)) ?_
  cases value with
  | none => exact Nat.le_trans (Nat.le_of_eq (Nat.zero_mul _)) (Nat.zero_le _)
  | some a => exact Nat.le_of_eq (Nat.one_mul _)

/-! ## 8. Staying in the buffer

The sum of a length and its own size may wrap, and then a member ends inside its own length.  But
a length that wraps is mostly ones.  What follows such a member therefore starts with a byte that
would be a tag of the wire type 7, which the scan refuses. -/

/-- The length in front of a run is part of the member. -/
def Member.Whole (m : Member) : Prop := m.lengthPrefixLen ≤ m.data.length

theorem scanVarint_le {limit n : Nat} {data : List UInt8} (h : scanVarint limit data = some n) :
    0 < n ∧ n ≤ limit ∧ n ≤ data.length := by
  induction limit generalizing data n with
  | zero => cases h
  | succ limit ih =>
    cases data with
    | nil => cases h
    | cons b rest =>
      rw [scanVarint] at h
      split at h
      · cases h
        exact ⟨Nat.zero_lt_one, Nat.le_add_left .., Nat.le_add_left ..⟩
      · obtain ⟨k, hk, rfl⟩ := Option.map_eq_some_iff.1 h
        obtain ⟨-, hlimit, hdata⟩ := ih hk
        exact ⟨Nat.succ_pos k, Nat.succ_le_succ hlimit, Nat.succ_le_succ hdata⟩

theorem varintValue_lt (data : List UInt8) : varintValue data < 128 ^ data.length := by
  induction data with
  | nil => exact Nat.zero_lt_one
  | cons b rest ih =>
    rw [varintValue, List.length_cons, Nat.pow_succ]
    omega

/-- A tag whose first byte ends in three ones has the wire type 7, which no member has. -/
theorem scanMember_seven {L : Limits} {b : UInt8} {rest : List UInt8} (hb : b.toNat % 8 = 7) :
    scanMember L (b :: rest) = none := by
  rw [scanMember]
  cases hn : scanVarint 5 (b :: rest) with
  | none => rfl
  | some n =>
    obtain ⟨k, rfl⟩ := Nat.exists_eq_succ_of_ne_zero (Nat.pos_iff_ne_zero.1 (scanVarint_le hn).1)
    have htag : varintValue ((b :: rest).take (k + 1)) % 8 = 7 := by
      rw [List.take_succ_cons, varintValue]
      omega
    simp only [bind, Option.bind_some, Nat.succ_eq_add_one, htag]
    rfl

/-- **A length that wraps is mostly ones**, so what follows a member that ends inside its own
length starts with a byte that is no tag. -/
theorem head_of_wrap {data : List UInt8} {n len : Nat} (hn : scanVarint 5 data = some n)
    (hlen : len = (n + varintValue (data.take n) % 2 ^ 32) % 2 ^ 32) (hpos : len ≠ 0)
    (hlt : len < n) : ∃ b rest, data.drop len = b :: rest ∧ b.toNat % 8 = 7 := by
  obtain ⟨-, hfive, hdata⟩ := scanVarint_le hn
  have hvalue := varintValue_lt (data.take n)
  rw [List.length_take, Nat.min_eq_left hdata] at hvalue
  have hn5 : n = 5 := by
    rcases Nat.lt_or_ge n 5 with h | h
    · have hpow : 128 ^ n ≤ 128 ^ 4 := Nat.pow_le_pow_right (by decide) (by omega)
      have : (128 : Nat) ^ 4 = 2 ^ 28 := by decide
      omega
    · omega
  subst hn5
  match data, hdata with
  | a :: b :: c :: d :: e :: rest, _ =>
    simp only [List.take_succ_cons, List.take_zero, varintValue] at hlen
    have hcases : len = 1 ∨ len = 2 ∨ len = 3 ∨ len = 4 := by omega
    rcases hcases with rfl | rfl | rfl | rfl
    · exact ⟨b, _, rfl, by omega⟩
    · exact ⟨c, _, rfl, by omega⟩
    · exact ⟨d, _, rfl, by omega⟩
    · exact ⟨e, _, rfl, by omega⟩

/-- A member of a run whose length wraps is followed by something that is no member. -/
theorem whole_of_scanMember {data rest : List UInt8} {m : Member}
    (h : scanMember protobufC data = some (m, rest)) :
    m.Whole ∨ ∃ b rest', rest = b :: rest' ∧ b.toNat % 8 = 7 := by
  obtain ⟨n, hn, h⟩ := Option.bind_eq_some_iff.1 h
  obtain ⟨⟨len, p⟩, hdata, h⟩ := Option.bind_eq_some_iff.1 h
  cases h
  unfold scanData at hdata
  split at hdata
  · obtain ⟨k, -, hk⟩ := Option.map_eq_some_iff.1 hdata
    cases hk
    exact .inl (Nat.zero_le _)
  · split at hdata
    · cases hdata
      exact .inl (Nat.zero_le _)
    · cases hdata
  · obtain ⟨k, hk, hdata⟩ := Option.bind_eq_some_iff.1 hdata
    dsimp only at hdata
    split at hdata
    · cases hdata
    · rename_i hlen
      cases hdata
      rcases Nat.lt_or_ge ((p + varintValue ((data.drop n).take p) % protobufC.size) %
        protobufC.size) p with hlt | hge
      · exact .inr (head_of_wrap hk rfl (fun h => hlen (.inl h)) hlt)
      · refine .inl ?_
        rw [Member.Whole, List.length_take]
        dsimp only
        omega
  · split at hdata
    · cases hdata
      exact .inl (Nat.zero_le _)
    · cases hdata
  · cases hdata

theorem whole_of_scanAux {fuel : Nat} {data : List UInt8} {members : List Member}
    (h : scanAux protobufC fuel data = some members) : ∀ m ∈ members, m.Whole := by
  induction fuel generalizing data members with
  | zero =>
    cases data with
    | nil =>
      cases h
      exact fun m hm => absurd hm List.not_mem_nil
    | cons b data => cases h
  | succ fuel ih =>
    cases data with
    | nil =>
      cases h
      exact fun m hm => absurd hm List.not_mem_nil
    | cons b data =>
      obtain ⟨⟨m, rest⟩, hm, h⟩ := Option.bind_eq_some_iff.1 h
      obtain ⟨members, hrest, h⟩ := Option.bind_eq_some_iff.1 h
      cases h
      refine List.forall_mem_cons.2 ⟨?_, ih hrest⟩
      rcases whole_of_scanMember hm with hwhole | ⟨b', rest', rfl, hb⟩
      · exact hwhole
      · -- the scan would have stopped at what follows
        cases fuel with
        | zero => cases hrest
        | succ fuel =>
          rw [scanAux, scanMember_seven hb] at hrest
          cases hrest

/-- **Every member that protobuf-c scans contains its own length.** -/
theorem whole_of_scan {data : List UInt8} {members : List Member}
    (h : scan protobufC data = some members) : ∀ m ∈ members, m.Whole := by
  obtain ⟨members', haux, h⟩ := Option.bind_eq_some_iff.1 h
  split at h
  · cases h
    exact whole_of_scanAux haux
  · cases h

/-- The reader stays in the buffer. -/
class InBounds {α : Type} (unpack : List UInt8 → Except Fault α) : Prop where
  ne_overrun : ∀ data, unpack data ≠ .error .overrun

/-- The codec stays in the buffer on every member that is scanned. -/
class Codec.InBounds {α : Type} (c : Codec α) : Prop where
  ne_overrun : ∀ m : Member, m.Whole → c.read m ≠ .error .overrun

theorem bind_ne_overrun {α β : Type} {x : Except Fault α} {f : α → Except Fault β}
    (hx : x ≠ .error .overrun) (hf : ∀ a, f a ≠ .error .overrun) :
    (x >>= f) ≠ .error .overrun := by
  cases x with
  | ok a => exact hf a
  | error e =>
    intro h
    cases h
    exact hx rfl

/-- A member that is read and put somewhere. -/
theorem Codec.read_ne_overrun {α S : Type} (c : Codec α) [c.InBounds] {m : Member} (hm : m.Whole)
    (f : α → S) : (do return f (← c.read m)) ≠ .error Fault.overrun :=
  bind_ne_overrun (Codec.InBounds.ne_overrun m hm) fun _ => nofun

/-- **A message is read within its buffer** if its members are. -/
theorem inBounds_unpackMessage {S : Type} {parse : S → Member → Except Fault S}
    (h : ∀ s (m : Member), m.Whole → parse s m ≠ .error .overrun) (init : S) :
    InBounds (unpackMessage protobufC parse init) := by
  refine ⟨fun data => ?_⟩
  unfold unpackMessage
  split
  · nofun
  · rename_i members hmembers
    have hwhole := whole_of_scan hmembers
    clear hmembers
    induction members generalizing init with
    | nil => nofun
    | cons m members ih =>
      rw [List.foldlM_cons]
      exact bind_ne_overrun (h init m (hwhole m List.mem_cons_self)) fun s =>
        ih s fun k hk => hwhole k (List.mem_cons_of_mem _ hk)

instance : uint32Codec.InBounds where
  ne_overrun m _ := by
    unfold uint32Codec
    dsimp only
    split <;> nofun

instance : int32Codec.InBounds where
  ne_overrun m _ := by
    unfold int32Codec
    dsimp only
    split <;> nofun

instance : boolCodec.InBounds where
  ne_overrun _ _ := nofun

instance : fixed64Codec.InBounds where
  ne_overrun m _ := by
    unfold fixed64Codec
    dsimp only
    split <;> nofun

instance : bytesCodec.InBounds where
  ne_overrun m hm := by
    rw [Member.Whole] at hm
    unfold bytesCodec
    dsimp only
    rw [if_neg (Nat.not_lt.2 hm)]
    split <;> nofun

instance : pointerCodec.InBounds where
  ne_overrun _ hm := bytesCodec.read_ne_overrun hm _

instance {α : Type} {pack : α → List UInt8} {unpack : List UInt8 → Except Fault α}
    [InBounds unpack] : (messageCodec pack unpack).InBounds where
  ne_overrun m hm := bind_ne_overrun (Codec.InBounds.ne_overrun m hm) InBounds.ne_overrun

end SignalProtocol.Wire
