/-
# Serving numbered keys from a chain

A chain gives one key for each number, and each key once.  A request ahead of the chain advances
it and sets the keys in between aside; a request behind it is served from those.  At most `cap`
keys are set aside, the oldest giving way first, and a request may be at most `reach` ahead.

Section 1 is the procedure, over any chain and with 32-bit numbers.  Section 2 is a ledger that
only keeps books: which numbers were skipped, returned and evicted.  A request is answered as the
books have it, with the key of the chain (`KeyChain.InStep.serve`), and so is every sequence of
requests (`serveAll_agree`).
-/
import SignalProtocol.Lib.Op
import SignalProtocol.Lib.Window
import Mathlib.Data.Finset.Card
import Mathlib.Data.Finset.Max
import Mathlib.Logic.Function.Iterate

namespace SignalProtocol

/-! ## 1. The procedure -/

/-- A chain of keys: each place has a number and a key, and the key carries the number. -/
structure KeyChain (C K : Type) where
  index : C → UInt32
  next : C → C
  key : C → K
  counter : K → UInt32
  index_next : ∀ c, index (next c) = index c + 1
  counter_key : ∀ c, counter (key c) = index c

/-- Where a chain stands, and the keys that were set aside. -/
structure SkippedKeys (C K : Type) where
  chain : C
  held : List K

namespace KeyChain

variable {C K : Type} (X : KeyChain C K) (cap : Nat)

/-- The chain after some steps. -/
def after (c : C) (n : Nat) : C := X.next^[n] c

/-- Set the keys aside up to a number; the first argument bounds the rounds. -/
def skip (target : UInt32) : Nat → SkippedKeys C K → SkippedKeys C K
  | 0, r => r
  | rounds + 1, r =>
    if X.index r.chain < target then
      skip target rounds ⟨X.next r.chain, (r.held ++ [X.key r.chain]).rtake cap⟩
    else r

/-- **One request.** -/
def serve (reach : UInt32) (c : UInt32) : Op Refusal (SkippedKeys C K) K := fun r =>
  if X.index r.chain > c then
    match r.held.find? fun k => X.counter k = c with
    | some k => (.ok k, { r with held := r.held.eraseP fun k => X.counter k = c })
    | none => (.error .spent, r)
  else if c - X.index r.chain > reach then (.error .tooFar, r)
  else
    let skipped := X.skip cap c (c - X.index r.chain).toNat r
    (.ok (X.key skipped.chain), { skipped with chain := X.next skipped.chain })

end KeyChain

/-- Requests one after another, each from the state that the one before has left, whether it was
granted or refused. -/
def serveAll {σ ι ε κ : Type} (serve : ι → Op ε σ κ) : σ → List ι → List (Except ε κ) × σ
  | s, [] => ([], s)
  | s, c :: cs => (serveAll serve (serve c s).2 cs).map ((serve c s).1 :: ·) id

/-! ## 2. The books -/

/-- The number that comes next, and the numbers that were skipped, returned and evicted. -/
structure KeyLedger where
  index : Nat
  skipped : Finset Nat
  returned : Finset Nat
  evicted : Finset Nat

namespace KeyLedger

/-- Nothing happened yet. -/
def start (n : Nat) : KeyLedger := ⟨n, ∅, ∅, ∅⟩

/-- The numbers whose keys are held: skipped, and neither returned nor evicted. -/
def held (l : KeyLedger) : Finset Nat := l.skipped.filter fun d => d ∉ l.returned ∧ d ∉ l.evicted

/-- The smallest number that is held. -/
def smallest (l : KeyLedger) : Finset Nat := l.held.filter fun d => ∀ e ∈ l.held, d ≤ e

/-- The next number is skipped: if `cap` keys are held, the smallest is evicted. -/
def skipOne (cap : Nat) (l : KeyLedger) : KeyLedger where
  index := l.index + 1
  skipped := insert l.index l.skipped
  returned := l.returned
  evicted := if l.held.card = cap then l.evicted ∪ l.smallest else l.evicted

/-- A key is returned. -/
def give (l : KeyLedger) (c : Nat) : KeyLedger := { l with returned := insert c l.returned }

/-- **One request on the books.** -/
def request (cap reach : Nat) (l : KeyLedger) (c : Nat) : Except Refusal KeyLedger :=
  if l.index ≤ c then
    if c ≤ l.index + reach then
      .ok { ((skipOne cap)^[c - l.index] l).give c with index := c + 1 }
    else .error .tooFar
  else if c ∈ l.skipped ∧ c ∉ l.returned ∧ c ∉ l.evicted then .ok (l.give c)
  else .error .spent

end KeyLedger

/-! ## 3. Two servers that answer alike -/

section Simulation

variable {σ τ ι ε ε' κ : Type} {R : σ → τ → Prop} {f : ε → ε'}

/-- Two answers that agree: the same key or the same refusal, and related states. -/
inductive Agree (R : σ → τ → Prop) (f : ε → ε') : Except ε' κ × σ → Except ε κ × τ → Prop
  | ok {k : κ} {s : σ} {t : τ} (h : R s t) : Agree R f (.ok k, s) (.ok k, t)
  | error (e : ε) {s : σ} {t : τ} (h : R s t) : Agree R f (.error (f e), s) (.error e, t)

/-- **Servers whose single answers agree give the same answers to every sequence.** -/
theorem serveAll_agree {serve : ι → Op ε' σ κ} {serve' : ι → Op ε τ κ} (cs : List ι) :
    ∀ {s : σ} {t : τ}, (∀ s t, ∀ c ∈ cs, R s t → Agree R f (serve c s) (serve' c t)) → R s t →
      (serveAll serve s cs).1 = (serveAll serve' t cs).1.map (Except.mapError f) ∧
        R (serveAll serve s cs).2 (serveAll serve' t cs).2 := by
  induction cs with
  | nil => exact fun _ h => ⟨rfl, h⟩
  | cons c cs ih =>
    intro s t hstep hR
    have hrest : ∀ s t, ∀ c ∈ cs, R s t → Agree R f (serve c s) (serve' c t) :=
      fun s t c hc => hstep s t c (List.mem_cons_of_mem _ hc)
    have hfirst := hstep s t c List.mem_cons_self hR
    rw [serveAll, serveAll]
    generalize serve c s = a at hfirst
    generalize serve' c t = b at hfirst
    cases hfirst with
    | @ok k _ _ h =>
      obtain ⟨hanswers, hstates⟩ := ih hrest h
      exact ⟨congrArg (List.cons (Except.ok k)) hanswers, hstates⟩
    | error e h =>
      obtain ⟨hanswers, hstates⟩ := ih hrest h
      exact ⟨congrArg (List.cons (Except.error (f e))) hanswers, hstates⟩

/-- The kinds of the answers do not depend on the keys. -/
theorem serveAll_forget (serve : ι → Op ε τ κ) (cs : List ι) :
    ∀ t : τ, (serveAll serve t cs).1.map (Except.map fun _ => ()) =
      (serveAll (fun c t => ((serve c t).1.map fun _ => (), (serve c t).2)) t cs).1 := by
  induction cs with
  | nil => exact fun _ => rfl
  | cons c cs ih =>
    intro t
    exact congrArg (List.cons _) (ih (serve c t).2)

end Simulation

/-! ## 4. The chain -/

namespace KeyChain

variable {C K : Type} (X : KeyChain C K) {cap : Nat} {origin : C}

theorem next_after (c : C) (n : Nat) : X.next (X.after c n) = X.after c (n + 1) :=
  (Function.iterate_succ_apply' ..).symm

theorem toNat_index_after {c : C} (n : Nat) (h : (X.index c).toNat + n < 2 ^ 32) :
    (X.index (X.after c n)).toNat = (X.index c).toNat + n := by
  induction n with
  | zero => rfl
  | succ n ih =>
    rw [← X.next_after, X.index_next, UInt32.toNat_add, ih (by omega)]
    exact Nat.mod_eq_of_lt h

/-- The key of a number, for a chain that starts at `origin`. -/
def keyAt (origin : C) (d : Nat) : K := X.key (X.after origin (d - (X.index origin).toNat))

theorem toNat_counter_keyAt {d : Nat} (hle : (X.index origin).toNat ≤ d) (hlt : d < 2 ^ 32) :
    (X.counter (X.keyAt origin d)).toNat = d := by
  rw [keyAt, X.counter_key, X.toNat_index_after _ (by omega)]
  omega

theorem counter_keyAt_eq_iff {d : Nat} (hle : (X.index origin).toNat ≤ d) (hlt : d < 2 ^ 32)
    {c : UInt32} : X.counter (X.keyAt origin d) = c ↔ d = c.toNat := by
  rw [← UInt32.toNat_inj, X.toNat_counter_keyAt hle hlt]

/-- Looking a number up among the keys of some numbers. -/
theorem find?_keyAt {c : UInt32} {ds : List Nat}
    (h : ∀ d ∈ ds, (X.index origin).toNat ≤ d ∧ d < 2 ^ 32) :
    (ds.map (X.keyAt origin)).find? (fun k => X.counter k = c) =
      if c.toNat ∈ ds then some (X.keyAt origin c.toNat) else none :=
  find?_map_numbered fun d hd =>
    decide_eq_true_iff.trans (X.counter_keyAt_eq_iff (h d hd).1 (h d hd).2)

/-- Removing the key of a number is removing the number. -/
theorem eraseP_keyAt {c : UInt32} {ds : List Nat}
    (h : ∀ d ∈ ds, (X.index origin).toNat ≤ d ∧ d < 2 ^ 32) :
    (ds.map (X.keyAt origin)).eraseP (fun k => X.counter k = c) =
      (ds.erase c.toNat).map (X.keyAt origin) :=
  eraseP_map_numbered fun d hd =>
    decide_eq_true_iff.trans (X.counter_keyAt_eq_iff (h d hd).1 (h d hd).2)

end KeyChain

/-! ## 5. The procedure keeps the books -/

/-- What books always satisfy: everything in them lies below the index, and at most `cap` keys
are held. -/
structure KeyLedger.Sound (cap n₀ : Nat) (l : KeyLedger) : Prop where
  start_le : n₀ ≤ l.index
  skipped : ∀ d ∈ l.skipped, n₀ ≤ d ∧ d < l.index
  returned : ∀ d ∈ l.returned, d < l.index
  evicted : ∀ d ∈ l.evicted, d < l.index
  bounded : l.held.card ≤ cap

/-- **The procedure has what is on the books**: the chain at the index, and the keys of the held
numbers in order. -/
structure KeyChain.Tracks {C K : Type} (X : KeyChain C K) (origin : C)
    (r : SkippedKeys C K) (l : KeyLedger) : Prop where
  chain : r.chain = X.after origin (l.index - (X.index origin).toNat)
  held : ∃ ds : List Nat, ds.Pairwise (· < ·) ∧ (∀ d, d ∈ ds ↔ d ∈ l.held) ∧
    r.held = ds.map (X.keyAt origin)

namespace KeyLedger

variable {cap n₀ : Nat} {l : KeyLedger}

theorem mem_held {d : Nat} : d ∈ l.held ↔ d ∈ l.skipped ∧ d ∉ l.returned ∧ d ∉ l.evicted :=
  Finset.mem_filter

theorem Sound.held (h : l.Sound cap n₀) {d : Nat} (hd : d ∈ l.held) : n₀ ≤ d ∧ d < l.index :=
  h.skipped d (mem_held.1 hd).1

/-- The held numbers after one was skipped. -/
theorem mem_held_skipOne (h : l.Sound cap n₀) {d : Nat} :
    d ∈ (l.skipOne cap).held ↔
      d = l.index ∨ d ∈ l.held ∧ ¬ (l.held.card = cap ∧ d ∈ l.smallest) := by
  have hret : l.index ∉ l.returned := fun hmem => lt_irrefl _ (h.returned _ hmem)
  have hev : l.index ∉ l.evicted := fun hmem => lt_irrefl _ (h.evicted _ hmem)
  have hsmall : l.index ∉ l.smallest := fun hmem =>
    lt_irrefl _ (h.held (Finset.mem_filter.1 hmem).1).2
  rw [mem_held, mem_held, skipOne]
  dsimp only
  rw [Finset.mem_insert]
  by_cases hd : d = l.index
  · subst hd
    split_ifs with hcard
    · simp [hret, hev, hsmall]
    · simp [hret, hev]
  · split_ifs with hcard
    · simp only [hd, hcard, false_or, true_and, Finset.mem_union, not_or]
      tauto
    · simp [hd, hcard]

theorem index_skipOne_iterate (n : Nat) : ((skipOne cap)^[n] l).index = l.index + n := by
  induction n with
  | zero => rfl
  | succ n ih => rw [Function.iterate_succ_apply', skipOne, ih, Nat.add_assoc]

/-- The smallest number is the first of a sorted list. -/
theorem mem_smallest_of_sorted {d₀ : Nat} {ds : List Nat}
    (hsorted : (d₀ :: ds).Pairwise (· < ·)) (hmem : ∀ d, d ∈ d₀ :: ds ↔ d ∈ l.held) (d : Nat) :
    d ∈ l.smallest ↔ d = d₀ := by
  obtain ⟨hfirst, -⟩ := List.pairwise_cons.1 hsorted
  rw [smallest, Finset.mem_filter, ← hmem]
  constructor
  · rintro ⟨hd, hle⟩
    have hle₀ := hle d₀ ((hmem d₀).1 List.mem_cons_self)
    rcases List.mem_cons.1 hd with rfl | hd
    · rfl
    · exact absurd (hfirst d hd) (Nat.not_lt.2 hle₀)
  · rintro rfl
    refine ⟨List.mem_cons_self, fun e he => ?_⟩
    rcases List.mem_cons.1 ((hmem e).2 he) with rfl | he
    · exact le_rfl
    · exact (hfirst e he).le

end KeyLedger

theorem pairwise_lt_concat {ds : List Nat} {n : Nat} (hsorted : ds.Pairwise (· < ·))
    (hbelow : ∀ d ∈ ds, d < n) : (ds ++ [n]).Pairwise (· < ·) := by
  refine List.pairwise_append.2 ⟨hsorted, List.pairwise_singleton .., fun d hd e he => ?_⟩
  rw [List.mem_singleton.1 he]
  exact hbelow d hd

/-- The list that stands for a set has as many elements. -/
theorem length_eq_card {ds : List Nat} {s : Finset Nat} (hsorted : ds.Pairwise (· < ·))
    (hmem : ∀ d, d ∈ ds ↔ d ∈ s) : ds.length = s.card := by
  have hnodup : ds.Nodup := hsorted.imp Nat.ne_of_lt
  have hset : ds.toFinset = s := Finset.ext fun d => List.mem_toFinset.trans (hmem d)
  rw [← hset, List.toFinset_card_of_nodup hnodup]

namespace KeyChain

variable {C K : Type} {X : KeyChain C K} {cap : Nat} {origin : C} {r : SkippedKeys C K}
  {l : KeyLedger}

/-- A new list of held numbers after one was skipped: the head gives way at the limit. -/
theorem held_skipOne {ds : List Nat} (hcap : 0 < cap) (hl : l.Sound cap (X.index origin).toNat)
    (hsorted : ds.Pairwise (· < ·)) (hmem : ∀ d, d ∈ ds ↔ d ∈ l.held) :
    ∃ ds' : List Nat, ds'.Pairwise (· < ·) ∧ (∀ d, d ∈ ds' ↔ d ∈ (l.skipOne cap).held) ∧
      ds'.length ≤ cap ∧
      (ds.map (X.keyAt origin) ++ [X.keyAt origin l.index]).rtake cap =
        ds'.map (X.keyAt origin) := by
  have hlen := length_eq_card hsorted hmem
  have hbelow : ∀ d ∈ ds, d < l.index := fun d hd => (hl.held ((hmem d).1 hd)).2
  have hmap : ds.map (X.keyAt origin) ++ [X.keyAt origin l.index] =
      (ds ++ [l.index]).map (X.keyAt origin) := by
    rw [List.map_append, List.map_singleton]
  rw [hmap]
  by_cases hcard : l.held.card = cap
  · obtain ⟨d₀, ds, rfl⟩ : ∃ d₀ ds', ds = d₀ :: ds' := by
      cases ds with
      | nil =>
        rw [List.length_nil] at hlen
        omega
      | cons d₀ ds' => exact ⟨d₀, ds', rfl⟩
    have hsmallest := KeyLedger.mem_smallest_of_sorted hsorted hmem
    obtain ⟨hfirst, hrest⟩ := List.pairwise_cons.1 hsorted
    refine ⟨ds ++ [l.index], ?_, fun d => ?_, ?_, ?_⟩
    · exact pairwise_lt_concat hrest fun d hd => hbelow d (List.mem_cons_of_mem _ hd)
    · have hne : d ∈ ds → d ≠ d₀ := fun hd => Nat.ne_of_gt (hfirst d hd)
      rw [KeyLedger.mem_held_skipOne hl, hsmallest, ← hmem, List.mem_append, List.mem_singleton,
        List.mem_cons]
      tauto
    · rw [List.length_append, List.length_singleton]
      rw [List.length_cons] at hlen
      omega
    · rw [List.length_cons] at hlen
      rw [List.rtake, List.length_map, List.cons_append, List.length_cons, List.length_append,
        List.length_singleton, show ds.length + 1 + 1 - cap = 1 by omega, List.map_cons,
        List.drop_one, List.tail_cons]
  · have hlt : l.held.card < cap := lt_of_le_of_ne hl.bounded hcard
    refine ⟨ds ++ [l.index], pairwise_lt_concat hsorted hbelow, fun d => ?_, ?_, ?_⟩
    · rw [KeyLedger.mem_held_skipOne hl, ← hmem, List.mem_append, List.mem_singleton]
      tauto
    · rw [List.length_append, List.length_singleton]
      omega
    · rw [List.rtake, List.length_map, List.length_append, List.length_singleton,
        show ds.length + 1 - cap = 0 by omega, List.drop_zero]

/-- **Skipping one number keeps the books.** -/
theorem Tracks.skipOne (hcap : 0 < cap) (hl : l.Sound cap (X.index origin).toNat)
    (h : X.Tracks origin r l) :
    (l.skipOne cap).Sound cap (X.index origin).toNat ∧
      X.Tracks origin ⟨X.next r.chain, (r.held ++ [X.key r.chain]).rtake cap⟩
        (l.skipOne cap) := by
  obtain ⟨ds, hsorted, hmem, hheld⟩ := h.held
  obtain ⟨ds', hsorted', hmem', hlen', hkeys⟩ := held_skipOne hcap hl hsorted hmem
  have hindex := hl.start_le
  have hkey : X.key r.chain = X.keyAt origin l.index := by rw [h.chain, keyAt]
  refine ⟨⟨?_, fun d hd => ?_, fun d hd => ?_, fun d hd => ?_, ?_⟩, ?_, ds', hsorted', hmem', ?_⟩
  · exact Nat.le_succ_of_le hindex
  · rcases Finset.mem_insert.1 hd with rfl | hd
    · exact ⟨hindex, Nat.lt_succ_self _⟩
    · exact ⟨(hl.skipped d hd).1, Nat.lt_succ_of_lt (hl.skipped d hd).2⟩
  · exact Nat.lt_succ_of_lt (hl.returned d hd)
  · refine Nat.lt_succ_of_lt ?_
    rw [KeyLedger.skipOne] at hd
    dsimp only at hd
    split_ifs at hd
    · rcases Finset.mem_union.1 hd with hd | hd
      · exact hl.evicted d hd
      · exact (hl.held (Finset.mem_filter.1 hd).1).2
    · exact hl.evicted d hd
  · exact (length_eq_card hsorted' hmem').symm.trans_le hlen'
  · rw [h.chain, X.next_after, KeyLedger.skipOne]
    dsimp only
    rw [Nat.sub_add_comm hindex]
  · dsimp only
    rw [hheld, hkey, hkeys]

/-- **The loop keeps the books.** -/
theorem Tracks.skip (hcap : 0 < cap) (target : UInt32) (rounds : Nat) :
    ∀ {l : KeyLedger} {r : SkippedKeys C K}, l.Sound cap (X.index origin).toNat →
      X.Tracks origin r l → l.index + rounds = target.toNat →
      ((KeyLedger.skipOne cap)^[rounds] l).Sound cap (X.index origin).toNat ∧
        X.Tracks origin (X.skip cap target rounds r) ((KeyLedger.skipOne cap)^[rounds] l) := by
  induction rounds with
  | zero => exact fun hl h _ => ⟨hl, h⟩
  | succ rounds ih =>
    intro l r hl h htarget
    have htargetlt := target.toNat_lt
    have hindex : (X.index r.chain).toNat = l.index := by
      have := hl.start_le
      rw [h.chain, X.toNat_index_after _ (by omega)]
      omega
    have hless : X.index r.chain < target := by
      rw [UInt32.lt_iff_toNat_lt, hindex]
      omega
    obtain ⟨hl', h'⟩ := h.skipOne hcap hl
    rw [KeyChain.skip, if_pos hless, Function.iterate_succ_apply]
    refine ih hl' h' ?_
    rw [KeyLedger.skipOne]
    dsimp only
    omega

/-- Returning a key that is held. -/
theorem Tracks.give (hl : l.Sound cap (X.index origin).toNat) (h : X.Tracks origin r l)
    (hlt : l.index < 2 ^ 32) {c : UInt32} (hc : c.toNat ∈ l.held) :
    (l.give c.toNat).Sound cap (X.index origin).toNat ∧
      X.Tracks origin { r with held := r.held.eraseP fun k => X.counter k = c }
        (l.give c.toNat) := by
  obtain ⟨ds, hsorted, hmem, hheld⟩ := h.held
  have hrange : ∀ d ∈ ds, (X.index origin).toNat ≤ d ∧ d < 2 ^ 32 := fun d hd =>
    ⟨(hl.held ((hmem d).1 hd)).1, (hl.held ((hmem d).1 hd)).2.trans hlt⟩
  have hgive : ∀ d, d ∈ (l.give c.toNat).held ↔ d ∈ l.held ∧ d ≠ c.toNat := by
    intro d
    rw [KeyLedger.mem_held, KeyLedger.mem_held, KeyLedger.give]
    dsimp only
    rw [Finset.mem_insert]
    tauto
  refine ⟨⟨hl.start_le, hl.skipped, fun d hd => ?_, hl.evicted, ?_⟩, h.chain, ds.erase c.toNat,
    hsorted.sublist List.erase_sublist, fun d => ?_, ?_⟩
  · rcases Finset.mem_insert.1 hd with rfl | hd
    · exact (hl.held hc).2
    · exact hl.returned d hd
  · exact (Finset.card_le_card fun d hd => ((hgive d).1 hd).1).trans hl.bounded
  · have hnodup : ds.Nodup := hsorted.imp Nat.ne_of_lt
    rw [hgive, ← hmem, hnodup.mem_erase_iff]
    exact and_comm
  · dsimp only
    rw [hheld, X.eraseP_keyAt hrange]

/-- Returning the key of the index. -/
theorem Tracks.giveNext (hl : l.Sound cap (X.index origin).toNat) (h : X.Tracks origin r l) :
    KeyLedger.Sound cap (X.index origin).toNat { l.give l.index with index := l.index + 1 } ∧
      X.Tracks origin { r with chain := X.next r.chain }
        { l.give l.index with index := l.index + 1 } := by
  have hheld : ∀ d,
      d ∈ KeyLedger.held { l.give l.index with index := l.index + 1 } ↔ d ∈ l.held := by
    intro d
    rw [KeyLedger.mem_held, KeyLedger.mem_held, KeyLedger.give]
    dsimp only
    rw [Finset.mem_insert, not_or]
    constructor
    · tauto
    · exact fun hd => ⟨hd.1, ⟨Nat.ne_of_lt (hl.skipped d hd.1).2, hd.2.1⟩, hd.2.2⟩
  obtain ⟨ds, hsorted, hmem, hkeys⟩ := h.held
  refine ⟨⟨Nat.le_succ_of_le hl.start_le, fun d hd => ?_, fun d hd => ?_, fun d hd => ?_, ?_⟩,
    ?_, ds, hsorted, fun d => (hmem d).trans (hheld d).symm, hkeys⟩
  · exact ⟨(hl.skipped d hd).1, Nat.lt_succ_of_lt (hl.skipped d hd).2⟩
  · rcases Finset.mem_insert.1 hd with rfl | hd
    · exact Nat.lt_succ_self _
    · exact Nat.lt_succ_of_lt (hl.returned d hd)
  · exact Nat.lt_succ_of_lt (hl.evicted d hd)
  · exact (Finset.card_le_card fun d hd => (hheld d).1 hd).trans hl.bounded
  · dsimp only
    rw [h.chain, X.next_after, Nat.sub_add_comm hl.start_le]

/-- **A request that is refused changes nothing.** -/
theorem serve_unchanged {reach c : UInt32} {e : Refusal}
    (h : (X.serve cap reach c r).1 = .error e) : (X.serve cap reach c r).2 = r := by
  unfold serve at h ⊢
  split_ifs at h ⊢ with hindex hfar
  · cases hfind : r.held.find? fun k => X.counter k = c with
    | none => rfl
    | some k =>
      rw [hfind] at h
      cases h
  · rfl

/-- A request on the books, with the key that belongs to the number.  What is refused is not
booked. -/
def serveByLedger (X : KeyChain C K) (origin : C) (cap reach : Nat) (c : UInt32) :
    Op Refusal KeyLedger K := fun l =>
  match l.request cap reach c.toNat with
  | .ok l' => (.ok (X.keyAt origin c.toNat), l')
  | .error e => (.error e, l)

/-- The answers to a sequence of requests, by the books. -/
def booked (X : KeyChain C K) (cap reach : Nat) (origin : C) (requests : List UInt32) :
    List (Except Refusal K) × KeyLedger :=
  serveAll (X.serveByLedger origin cap reach) (.start (X.index origin).toNat) requests

/-- Two chains with the same first number grant and refuse the same requests. -/
theorem forget_booked {C' K' : Type} {X' : KeyChain C' K'} {origin' : C'} (reach : Nat)
    (h : X.index origin = X'.index origin') (requests : List UInt32) :
    (X.booked cap reach origin requests).1.map (Except.map fun _ => ()) =
      (X'.booked cap reach origin' requests).1.map (Except.map fun _ => ()) := by
  have hserve : (fun (c : UInt32) (l : KeyLedger) =>
        ((X.serveByLedger origin cap reach c l).1.map fun _ => (),
          (X.serveByLedger origin cap reach c l).2)) =
      fun c l => ((X'.serveByLedger origin' cap reach c l).1.map fun _ => (),
        (X'.serveByLedger origin' cap reach c l).2) := by
    funext c l
    rw [serveByLedger, serveByLedger]
    cases l.request cap reach c.toNat with
    | ok l' => rfl
    | error e => rfl
  rw [booked, booked, serveAll_forget, serveAll_forget, h, hserve]

/-- The procedure is where the books are. -/
structure InStep (X : KeyChain C K) (cap : Nat) (origin : C) (r : SkippedKeys C K)
    (l : KeyLedger) : Prop where
  sound : l.Sound cap (X.index origin).toNat
  tracks : X.Tracks origin r l
  inRange : l.index < 2 ^ 32

theorem InStep.start (X : KeyChain C K) (cap : Nat) (origin : C) :
    X.InStep cap origin ⟨origin, []⟩ (.start (X.index origin).toNat) where
  sound :=
    { start_le := le_rfl
      skipped := fun d hd => absurd hd (Finset.notMem_empty d)
      returned := fun d hd => absurd hd (Finset.notMem_empty d)
      evicted := fun d hd => absurd hd (Finset.notMem_empty d)
      bounded := Nat.zero_le _ }
  tracks :=
    { chain := by rw [KeyLedger.start, Nat.sub_self]; rfl
      held := ⟨[], .nil, fun d => by simp [KeyLedger.start, KeyLedger.held], rfl⟩ }
  inRange := (X.index origin).toNat_lt

theorem InStep.toNat_index (h : X.InStep cap origin r l) : (X.index r.chain).toNat = l.index := by
  have hle := h.sound.start_le
  have hlt := h.inRange
  rw [h.tracks.chain, X.toNat_index_after _ (by omega)]
  omega

/-- **One request is answered as the books have it.** -/
theorem InStep.serve (hcap : 0 < cap) (h : X.InStep cap origin r l) (reach : UInt32) {c : UInt32}
    (hc : c.toNat + 1 < 2 ^ 32) :
    Agree (X.InStep cap origin) id (X.serve cap reach c r)
      (X.serveByLedger origin cap reach.toNat c l) := by
  have hindex := h.toNat_index
  rw [KeyChain.serve, serveByLedger, KeyLedger.request]
  by_cases hle : l.index ≤ c.toNat
  · have hnot : ¬ X.index r.chain > c := by
      rw [gt_iff_lt, UInt32.lt_iff_toNat_lt, hindex]
      omega
    have hsub : (c - X.index r.chain).toNat = c.toNat - l.index := by
      rw [UInt32.toNat_sub_of_le _ _ (UInt32.not_lt.1 hnot), hindex]
    have hreach : c - X.index r.chain > reach ↔ ¬ c.toNat ≤ l.index + reach.toNat := by
      rw [gt_iff_lt, UInt32.lt_iff_toNat_lt, hsub]
      omega
    rw [if_neg hnot, if_pos hle]
    by_cases hfar : c.toNat ≤ l.index + reach.toNat
    · obtain ⟨hsound, htracks⟩ := h.tracks.skip hcap c (c.toNat - l.index) h.sound (by omega)
      have hat : ((KeyLedger.skipOne cap)^[c.toNat - l.index] l).index = c.toNat := by
        rw [KeyLedger.index_skipOne_iterate]
        omega
      have hkey : X.key (X.skip cap c (c.toNat - l.index) r).chain = X.keyAt origin c.toNat := by
        rw [htracks.chain, hat, keyAt]
      obtain ⟨hsound', htracks'⟩ := htracks.giveNext hsound
      rw [hat] at hsound' htracks'
      rw [if_neg fun hgt => hreach.1 hgt hfar, if_pos hfar, hsub]
      dsimp only
      rw [hkey]
      exact .ok ⟨hsound', htracks', hc⟩
    · rw [if_pos (hreach.2 hfar), if_neg hfar]
      exact .error Refusal.tooFar h
  · have hgt : X.index r.chain > c := by
      rw [gt_iff_lt, UInt32.lt_iff_toNat_lt, hindex]
      omega
    obtain ⟨ds, hsorted, hmem, hheld⟩ := h.tracks.held
    have hrange : ∀ d ∈ ds, (X.index origin).toNat ≤ d ∧ d < 2 ^ 32 := fun d hd =>
      ⟨(h.sound.held ((hmem d).1 hd)).1, (h.sound.held ((hmem d).1 hd)).2.trans h.inRange⟩
    rw [if_pos hgt, if_neg hle, hheld, X.find?_keyAt hrange, ← hheld]
    by_cases hcheld : c.toNat ∈ l.held
    · obtain ⟨hsound, htracks⟩ := h.tracks.give h.sound h.inRange hcheld
      rw [if_pos ((hmem _).2 hcheld), if_pos (KeyLedger.mem_held.1 hcheld)]
      exact .ok ⟨hsound, htracks, h.inRange⟩
    · rw [if_neg fun hds => hcheld ((hmem _).1 hds),
        if_neg fun hl => hcheld (KeyLedger.mem_held.2 hl)]
      exact .error Refusal.spent h

end KeyChain

end SignalProtocol
