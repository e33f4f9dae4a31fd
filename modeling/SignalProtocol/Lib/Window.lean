/-
# A bounded window of skipped counters

A receiver that accepts numbered messages in any order keeps the number it expects next and
the numbers it skipped on the way there.  Each number may be taken once: a number ahead of the
window advances it and leaves the ones in between behind as skipped, a skipped number is
taken out, and every other number is refused.  Two limits keep the receiver's memory and work
bounded: at most `cap` skipped numbers are held, the smallest giving way first, and a request
may be at most `reach` ahead.

`Window cap` carries its well-formedness (the held numbers increase, lie below the next one
and respect the limit).  `Window.request` is the decision, `Window.Spent` what a taken or
evicted number is, and section 3 relates a window to the history of what it accepted.  A receiver
holds an item, such as a key, for each held number; section 4 is how it looks one up.
-/
import Mathlib.Data.List.DropRight
import Mathlib.Data.List.Range
import Mathlib.Tactic.Common

namespace SignalProtocol

/-- The numbers a receiver may still accept: those it skipped, and those from `next` on. -/
structure Window (cap : Nat) where
  next : Nat
  held : List Nat
  sorted : held.Pairwise (· < ·)
  below : ∀ c ∈ held, c < next
  bounded : held.length ≤ cap
  deriving DecidableEq

/-- Why a number is refused. -/
inductive Refusal where
  /-- It was taken before, or given up. -/
  | spent
  /-- It is too far ahead. -/
  | tooFar
  deriving DecidableEq, Repr

namespace Window

variable {cap : Nat}

@[ext] theorem ext {w w' : Window cap} (hn : w.next = w'.next) (hh : w.held = w'.held) :
    w = w' := by
  cases w; cases w'; cases hn; cases hh; rfl

/-- Nothing accepted and nothing skipped. -/
def empty : Window cap := ⟨0, [], .nil, by simp, by simp⟩

/-- What is on hand once `c` has been reached: the held numbers and those up to `c`. -/
def reached (w : Window cap) (c : Nat) : List Nat := w.held ++ List.range' w.next (c - w.next)

theorem sorted_reached (w : Window cap) (c : Nat) : (w.reached c).Pairwise (· < ·) := by
  refine List.pairwise_append.2 ⟨w.sorted, List.pairwise_lt_range', ?_⟩
  intro a ha b hb
  have hb' := (List.mem_range'_1.1 hb).1
  have := w.below a ha
  omega

theorem mem_reached {w : Window cap} {c d : Nat} (h : w.next ≤ c) :
    d ∈ w.reached c ↔ d ∈ w.held ∨ w.next ≤ d ∧ d < c := by
  rw [reached, List.mem_append, List.mem_range'_1, Nat.add_sub_cancel' h]

theorem mem_of_mem_rtake {α : Type} {n : Nat} {l : List α} {a : α} (h : a ∈ l.rtake n) :
    a ∈ l := by
  unfold List.rtake at h
  exact List.mem_of_mem_drop h

/-- Take out a skipped number. -/
def take (w : Window cap) (c : Nat) : Window cap where
  next := w.next
  held := w.held.erase c
  sorted := w.sorted.sublist List.erase_sublist
  below d hd := w.below d (List.mem_of_mem_erase hd)
  bounded := List.length_erase_le.trans w.bounded

/-- Go ahead to `c`, skipping what lies between; the smallest numbers give way beyond the
limit. -/
def advance (w : Window cap) (c : Nat) (h : w.next ≤ c) : Window cap where
  next := c + 1
  held := (w.reached c).rtake cap
  sorted := by
    unfold List.rtake
    exact (w.sorted_reached c).sublist (List.drop_sublist ..)
  below d hd := by
    rcases (mem_reached h).1 (mem_of_mem_rtake hd) with hd | hd
    · have := w.below d hd
      omega
    · omega
  bounded := by
    unfold List.rtake
    rw [List.length_drop]
    omega

/-- The numbers that give way when the window goes ahead to `c`. -/
def evicts (w : Window cap) (c : Nat) : List Nat :=
  (w.reached c).take ((w.reached c).length - cap)

/-- **The decision on one number.** -/
def request (reach : Nat) (w : Window cap) (c : Nat) : Except Refusal (Window cap) :=
  if h : w.next ≤ c then
    if c - w.next ≤ reach then .ok (w.advance c h) else .error .tooFar
  else if c ∈ w.held then .ok (w.take c)
  else .error .spent

/-- A number that was passed and is not on hand: it will never be accepted again. -/
def Spent (w : Window cap) (c : Nat) : Prop := c < w.next ∧ c ∉ w.held

/-! ## 1. The decision -/

section Request

variable {reach c : Nat} {w w' : Window cap}

theorem request_ok_iff : w.request reach c = .ok w' ↔
    (c ∈ w.held ∧ w' = w.take c) ∨
      ∃ h : w.next ≤ c, c - w.next ≤ reach ∧ w' = w.advance c h := by
  unfold request
  split
  · rename_i h
    have hnot : c ∉ w.held := fun hc => by have := w.below c hc; omega
    split
    · rename_i hr
      simp only [Except.ok.injEq]
      constructor
      · rintro rfl
        exact Or.inr ⟨h, hr, rfl⟩
      · rintro (⟨hc, -⟩ | ⟨-, -, rfl⟩)
        · exact absurd hc hnot
        · rfl
    · rename_i hr
      simp only [reduceCtorEq, false_iff]
      rintro (⟨hc, -⟩ | ⟨-, h1, -⟩)
      · exact hnot hc
      · exact hr h1
  · rename_i h
    split
    · rename_i hc
      simp only [Except.ok.injEq]
      constructor
      · rintro rfl
        exact Or.inl ⟨hc, rfl⟩
      · rintro (⟨-, rfl⟩ | ⟨h1, -⟩)
        · rfl
        · exact absurd h1 h
    · rename_i hc
      simp only [reduceCtorEq, false_iff]
      rintro (⟨h1, -⟩ | ⟨h1, -⟩)
      · exact hc h1
      · exact h h1

theorem request_of_held (h : c ∈ w.held) : w.request reach c = .ok (w.take c) :=
  request_ok_iff.2 (Or.inl ⟨h, rfl⟩)

theorem request_of_ahead (h : w.next ≤ c) (hr : c - w.next ≤ reach) :
    w.request reach c = .ok (w.advance c h) :=
  request_ok_iff.2 (Or.inr ⟨h, hr, rfl⟩)

/-- A spent number is refused as such, whatever the reach. -/
theorem Spent.request (h : w.Spent c) : w.request reach c = .error .spent := by
  unfold Window.request
  rw [dif_neg (Nat.not_le.2 h.1), if_neg h.2]

theorem request_of_tooFar (h : w.next + reach < c) : w.request reach c = .error .tooFar := by
  unfold Window.request
  rw [dif_pos (by omega), if_neg (by omega)]

/-! ## 2. What is spent stays spent -/

theorem next_le_of_request (h : w.request reach c = .ok w') : w.next ≤ w'.next := by
  rcases request_ok_iff.1 h with ⟨-, rfl⟩ | ⟨h1, -, rfl⟩
  · exact Nat.le_refl _
  · exact Nat.le_succ_of_le h1

theorem nodup_held (w : Window cap) : w.held.Nodup := w.sorted.imp Nat.ne_of_lt

/-- **An accepted number is spent.** -/
theorem spent_of_request (h : w.request reach c = .ok w') : w'.Spent c := by
  rcases request_ok_iff.1 h with ⟨hc, rfl⟩ | ⟨h1, -, rfl⟩
  · exact ⟨w.below c hc, w.nodup_held.not_mem_erase⟩
  · refine ⟨Nat.lt_succ_self c, fun hc => ?_⟩
    rcases (mem_reached h1).1 (mem_of_mem_rtake hc) with hc | hc
    · have := w.below c hc
      omega
    · omega

/-- **A spent number stays spent**, whatever is accepted later. -/
theorem Spent.mono {d : Nat} (hd : w.Spent d) (h : w.request reach c = .ok w') :
    w'.Spent d := by
  rcases request_ok_iff.1 h with ⟨-, rfl⟩ | ⟨h1, -, rfl⟩
  · exact ⟨hd.1, fun h2 => hd.2 (List.mem_of_mem_erase h2)⟩
  · refine ⟨Nat.lt_succ_of_lt (Nat.lt_of_lt_of_le hd.1 h1), fun h2 => ?_⟩
    rcases (mem_reached h1).1 (mem_of_mem_rtake h2) with h3 | h3
    · exact hd.2 h3
    · exact absurd hd.1 (Nat.not_lt.2 h3.1)

end Request

/-! ## 3. Histories -/

/-- The window after `c` was accepted. -/
def accept (w : Window cap) (c : Nat) : Window cap :=
  if h : w.next ≤ c then w.advance c h else w.take c

theorem eq_accept_of_request {reach c : Nat} {w w' : Window cap}
    (h : w.request reach c = .ok w') : w' = w.accept c := by
  rcases request_ok_iff.1 h with ⟨hc, rfl⟩ | ⟨h1, -, rfl⟩
  · rw [accept, dif_neg (Nat.not_le.2 (w.below c hc))]
  · rw [accept, dif_pos h1]

/-- Nothing accepted and nothing skipped, with the numbers below `n` out of reach. -/
def startingAt (n : Nat) : Window cap := ⟨n, [], .nil, by simp, by simp⟩

/-- The window that a history of accepted numbers, latest first, leads to. -/
def replayFrom (start : Window cap) : List Nat → Window cap
  | [] => start
  | c :: cs => (replayFrom start cs).accept c

/-- The numbers that a history made give way to the limit. -/
def evictedFrom (start : Window cap) : List Nat → List Nat
  | [] => []
  | c :: cs =>
    (if (replayFrom start cs).next ≤ c then (replayFrom start cs).evicts c else []) ++
      evictedFrom start cs

/-- The window that a history leads to from nothing. -/
def replay (cap : Nat) (history : List Nat) : Window cap := empty.replayFrom history

/-- The numbers that a history from nothing made give way to the limit. -/
def evicted (cap : Nat) (history : List Nat) : List Nat := (empty : Window cap).evictedFrom history

theorem replay_cons (c : Nat) (cs : List Nat) : replay cap (c :: cs) = (replay cap cs).accept c :=
  rfl

theorem mem_reached_cases {w : Window cap} {c d : Nat} (h : d ∈ w.reached c) :
    d ∈ (w.reached c).rtake cap ∨ d ∈ w.evicts c := by
  have : w.reached c = w.evicts c ++ (w.reached c).rtake cap := by
    rw [evicts, List.rtake, List.take_append_drop]
  rw [this, List.mem_append] at h
  exact h.symm

/-- What is accepted is spent. -/
theorem spent_accept (w : Window cap) (c : Nat) : (w.accept c).Spent c := by
  rw [accept]
  split
  · rename_i h
    refine ⟨Nat.lt_succ_self c, fun hc => ?_⟩
    rcases (mem_reached h).1 (mem_of_mem_rtake hc) with hc | hc
    · have := w.below c hc
      omega
    · omega
  · rename_i h
    exact ⟨Nat.not_le.1 h, fun hc => (w.nodup_held.mem_erase_iff.1 hc).1 rfl⟩

/-- A spent number stays spent under any history. -/
theorem Spent.accept {w : Window cap} {d : Nat} (hd : w.Spent d) (c : Nat) :
    (w.accept c).Spent d := by
  rw [Window.accept]
  split
  · rename_i h
    refine ⟨Nat.lt_succ_of_lt (hd.1.trans_le h), fun hm => ?_⟩
    rcases (mem_reached h).1 (mem_of_mem_rtake hm) with hm | hm
    · exact hd.2 hm
    · exact Nat.not_lt.2 hm.1 hd.1
  · exact ⟨hd.1, fun hm => hd.2 (List.mem_of_mem_erase hm)⟩

theorem Spent.replayFrom {w : Window cap} {d : Nat} (hd : w.Spent d) :
    ∀ cs : List Nat, (w.replayFrom cs).Spent d
  | [] => hd
  | c :: cs => (hd.replayFrom cs).accept c

/-- **What was accepted is spent**, and stays so. -/
theorem spent_of_mem_replayFrom {w : Window cap} {c : Nat} :
    ∀ {cs : List Nat}, c ∈ cs → (w.replayFrom cs).Spent c
  | _ :: _, h => by
    rcases List.mem_cons.1 h with rfl | h
    · exact spent_accept ..
    · exact (spent_of_mem_replayFrom h).accept _

/-- **A number that was passed is on hand, was accepted, or was evicted.** -/
theorem held_of_passed_from {start : Window cap} {d : Nat} (hd : start.next ≤ d) :
    ∀ {cs : List Nat}, d < (replayFrom start cs).next →
      d ∉ cs → d ∉ evictedFrom start cs → d ∈ (replayFrom start cs).held
  | [], h, _, _ => absurd h (Nat.not_lt.2 hd)
  | c :: cs, h, hcs, hev => by
    have hne : d ≠ c := fun he => hcs (he ▸ List.mem_cons_self)
    have hcs' : d ∉ cs := fun hm => hcs (List.mem_cons_of_mem _ hm)
    have hev' : d ∉ evictedFrom start cs := fun hm => hev (List.mem_append_right _ hm)
    rw [replayFrom, accept] at h ⊢
    split
    · rename_i h1
      rw [dif_pos h1] at h
      have hd' : d < c + 1 := h
      have hr : d ∈ (replayFrom start cs).reached c := by
        rw [mem_reached h1]
        by_cases hp : d < (replayFrom start cs).next
        · exact Or.inl (held_of_passed_from hd hp hcs' hev')
        · exact Or.inr ⟨Nat.not_lt.1 hp, by omega⟩
      rcases mem_reached_cases hr with h2 | h2
      · exact h2
      · refine absurd (List.mem_append_left _ ?_) hev
        rw [if_pos h1]
        exact h2
    · rename_i h1
      rw [dif_neg h1] at h
      exact (List.mem_erase_of_ne hne).2 (held_of_passed_from hd h hcs' hev')

theorem held_of_passed {d : Nat} {cs : List Nat} (h : d < (replay cap cs).next) (hcs : d ∉ cs)
    (hev : d ∉ evicted cap cs) : d ∈ (replay cap cs).held :=
  held_of_passed_from (Nat.zero_le d) h hcs hev

end Window

/-! ## 4. What is held for each number -/

section Numbered

variable {K : Type} {f : Nat → K} {p : K → Bool} {n : Nat}

/-- Looking up the item of a number. -/
theorem find?_map_numbered {l : List Nat} (h : ∀ d ∈ l, p (f d) = true ↔ d = n) :
    (l.map f).find? p = if n ∈ l then some (f n) else none := by
  induction l with
  | nil => rfl
  | cons d l ih =>
    have hd := h d List.mem_cons_self
    have ih := ih fun e he => h e (List.mem_cons_of_mem _ he)
    rw [List.map_cons]
    by_cases hn : d = n
    · rw [List.find?_cons_of_pos (hd.2 hn), if_pos (hn ▸ List.mem_cons_self), hn]
    · have hmem : n ∈ d :: l ↔ n ∈ l := by simp [Ne.symm hn]
      rw [List.find?_cons_of_neg (fun hp => hn (hd.1 hp)), ih]
      simp only [hmem]

/-- Removing the item of a number is removing the number. -/
theorem eraseP_map_numbered {l : List Nat} (h : ∀ d ∈ l, p (f d) = true ↔ d = n) :
    (l.map f).eraseP p = (l.erase n).map f := by
  induction l with
  | nil => rfl
  | cons d l ih =>
    have hd := h d List.mem_cons_self
    have ih := ih fun e he => h e (List.mem_cons_of_mem _ he)
    rw [List.map_cons]
    by_cases hn : d = n
    · rw [List.eraseP_cons_of_pos (hd.2 hn), hn, List.erase_cons_head]
    · rw [List.eraseP_cons_of_neg (fun hp => hn (hd.1 hp)), ih,
        List.erase_cons_tail (by simpa using hn), List.map_cons]

end Numbered

end SignalProtocol
