/-
# What can be learned from what is known

A deduction system has two kinds of rules.  A *building* rule puts a value together from its
parts, a *taking* rule opens a value, possibly with the help of some keys.  Everything that a
set of known values gives away is the closure under both (`Derives`); what can be put together
without opening anything is the smaller closure `Builds`.

Questions about `Builds` are easy: a value is known, or it was built and its parts were.
`Derives.builds` reduces the other closure to it.  It needs to look at the known values only:
if opening one of those gives nothing that could not be built anyway, opening built values
does not either, provided that a built value holds nothing but its parts (`Closed`).
-/
import Mathlib.Data.Set.Basic

namespace SignalProtocol

variable {T : Type}

/-- The rules of a deduction system. -/
structure Deduction (T : Type) where
  /-- The parts, together, make the value. -/
  build : List T → T → Prop
  /-- The first value, opened with the keys, shows the last. -/
  take : T → List T → T → Prop

namespace Deduction

/-- **A built value holds nothing but its parts.** -/
def Closed (D : Deduction T) : Prop :=
  ∀ {parts c keys t}, D.build parts c → D.take c keys t → t ∈ parts

/-- What a set of known values gives away. -/
inductive Derives (D : Deduction T) (known : Set T) : T → Prop where
  | known {t} (h : t ∈ known) : Derives D known t
  | build {parts t} (h : D.build parts t) (hp : ∀ p ∈ parts, Derives D known p) :
      Derives D known t
  | take {c keys t} (h : D.take c keys t) (hc : Derives D known c)
      (hk : ∀ k ∈ keys, Derives D known k) : Derives D known t

/-- What can be put together from a set of known values. -/
inductive Builds (D : Deduction T) (known : Set T) : T → Prop where
  | known {t} (h : t ∈ known) : Builds D known t
  | build {parts t} (h : D.build parts t) (hp : ∀ p ∈ parts, Builds D known p) :
      Builds D known t

variable {D : Deduction T} {known known' : Set T} {t : T}

theorem builds_iff :
    D.Builds known t ↔ t ∈ known ∨ ∃ parts, D.build parts t ∧ ∀ p ∈ parts, D.Builds known p := by
  constructor
  · intro h
    cases h with
    | known h => exact Or.inl h
    | build h hp => exact Or.inr ⟨_, h, hp⟩
  · rintro (h | ⟨parts, h, hp⟩)
    · exact .known h
    · exact .build h hp

/-- **What was built can be used to build.** -/
theorem Builds.trans (h : D.Builds known t) (hk : ∀ s ∈ known, D.Builds known' s) :
    D.Builds known' t := by
  induction h with
  | known h => exact hk _ h
  | build h _ ih => exact .build h ih

theorem Builds.mono (h : D.Builds known t) (hk : known ⊆ known') : D.Builds known' t :=
  h.trans fun _ hs => .known (hk hs)

/-- **What was derived can be used to derive.** -/
theorem Derives.trans (h : D.Derives known t) (hk : ∀ s ∈ known, D.Derives known' s) :
    D.Derives known' t := by
  induction h with
  | known h => exact hk _ h
  | build h _ ih => exact .build h ih
  | take h _ _ ihc ihk => exact .take h ihc ihk

theorem Builds.derives (h : D.Builds known t) : D.Derives known t := by
  induction h with
  | known h => exact .known h
  | build h _ ih => exact .build h ih

/-- A set of known values is **analysed** when opening one of them, with keys that can be built,
shows nothing that could not be built. -/
def Analysed (D : Deduction T) (known : Set T) : Prop :=
  ∀ c ∈ known, ∀ {keys t}, D.take c keys t → (∀ k ∈ keys, D.Builds known k) → D.Builds known t

/-- **Nothing is learned by opening analysed values.** -/
theorem Derives.builds (hD : D.Closed) (hk : D.Analysed known) (h : D.Derives known t) :
    D.Builds known t := by
  induction h with
  | known h => exact .known h
  | build h _ ih => exact .build h ih
  | take h _ _ ihc ihk =>
    cases ihc with
    | known hc => exact hk _ hc h ihk
    | build hb hp => exact hp _ (hD hb h)

end Deduction

end SignalProtocol
