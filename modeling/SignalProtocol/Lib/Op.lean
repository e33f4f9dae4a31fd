/-
# Operations that keep their side effects when they fail

A C function of the library returns a result code and works on state that outlives it: the
stores behind the callbacks, the position in the random source.  A negative code is NOT a
roll-back.  What the function had already written when it gave up stays written, and two of
the questions asked of the session code (may a rejected message leave a trace?) are only
visible in a model that says so.

`Op ε σ α` is therefore a state transformer whose error branch carries the state reached so
far.  It differs from `StateT σ (Except ε)`, which would forget it.

The module gives the monad, the two inversion rules for `>>=` that every later proof peels
a computation with (`Op.bind_ok_iff`, `Op.bind_error_iff`), the lifting of an operation on a
part of the state (`Op.zoom`), the rule for what an operation can do to its state at all
(`Op.Moves`), and the one for comparing two runs (`Op.Alike`).
-/
import Mathlib.Data.List.Forall2
import Mathlib.Order.Defs.Unbundled
import Mathlib.Tactic.Common

namespace SignalProtocol

/-- A fallible operation on a state `σ`.  The state survives a failure. -/
def Op (ε σ α : Type) : Type := σ → Except ε α × σ

namespace Op

variable {ε σ τ α β : Type}

/-! ## 1. The monad -/

instance : Monad (Op ε σ) where
  pure a := fun s => (.ok a, s)
  bind x f := fun s =>
    match x s with
    | (.ok a, s') => f a s'
    | (.error e, s') => (.error e, s')

/-- Give up with a code, leaving the state as it is. -/
def fail (e : ε) : Op ε σ α := fun s => (.error e, s)

/-- Read the state. -/
def get : Op ε σ σ := fun s => (.ok s, s)

/-- Change the state. -/
def modify (f : σ → σ) : Op ε σ Unit := fun s => (.ok (), f s)

/-- Change the state and say something about it. -/
def update (f : σ → α × σ) : Op ε σ α := fun s => (.ok (f s).1, (f s).2)

/-- The result of an operation on a state that belongs to somebody else: what has become of the
state is theirs if the operation succeeds, and is thrown away with the state if it fails. -/
def onCopy (x : Op ε σ α) (s : σ) : Except ε (α × σ) :=
  match x s with
  | (.ok a, s') => .ok (a, s')
  | (.error e, _) => .error e

/-- A fallible computation that does not look at the state. -/
def ofExcept : Except ε α → Op ε σ α
  | .ok a => pure a
  | .error e => fail e

/-- Give up with `e` unless `c` holds. -/
def require (c : Prop) [Decidable c] (e : ε) : Op ε σ Unit := if c then pure () else fail e

/-- The value of an optional part, or give up with `e`. -/
def ofOption (e : ε) : Option α → Op ε σ α
  | some a => pure a
  | none => fail e

/-- Run `x`; if it fails with exactly `e`, go on with `y` from the state `x` reached. -/
def recover [DecidableEq ε] (e : ε) (x y : Op ε σ α) : Op ε σ α := fun s =>
  match x s with
  | (.ok a, s') => (.ok a, s')
  | (.error e', s') => if e' = e then y s' else (.error e', s')

/-- Replace the code of a failure. -/
def mapError (f : ε → ε) (x : Op ε σ α) : Op ε σ α := fun s =>
  match x s with
  | (.ok a, s') => (.ok a, s')
  | (.error e, s') => (.error (f e), s')

@[simp] theorem pure_apply (a : α) (s : σ) : (pure a : Op ε σ α) s = (.ok a, s) := rfl

@[simp] theorem fail_apply (e : ε) (s : σ) : (fail e : Op ε σ α) s = (.error e, s) := rfl

@[simp] theorem get_apply (s : σ) : (get : Op ε σ σ) s = (.ok s, s) := rfl

@[simp] theorem modify_apply (f : σ → σ) (s : σ) :
    (modify f : Op ε σ Unit) s = (.ok (), f s) := rfl

@[simp] theorem ofExcept_ok (a : α) : (ofExcept (.ok a) : Op ε σ α) = pure a := rfl

@[simp] theorem ofExcept_error (e : ε) : (ofExcept (.error e) : Op ε σ α) = fail e := rfl

theorem bind_apply (x : Op ε σ α) (f : α → Op ε σ β) (s : σ) :
    (x >>= f) s = match x s with
      | (.ok a, s') => f a s'
      | (.error e, s') => (.error e, s') := rfl

/-- A first step that succeeds hands its value and its state on. -/
theorem bind_of_ok {x : Op ε σ α} {f : α → Op ε σ β} {s s' : σ} {a : α}
    (h : x s = (.ok a, s')) : (x >>= f) s = f a s' := by
  rw [bind_apply, h]

/-- A first step that fails is the whole computation. -/
theorem bind_of_error {x : Op ε σ α} {f : α → Op ε σ β} {s s' : σ} {e : ε}
    (h : x s = (.error e, s')) : (x >>= f) s = (.error e, s') := by
  rw [bind_apply, h]

@[simp] theorem pure_bind_apply (a : α) (f : α → Op ε σ β) : (pure a >>= f) = f a := rfl

@[simp] theorem fail_bind (e : ε) (f : α → Op ε σ β) : (fail e >>= f) = fail e := rfl

@[simp] theorem get_bind_apply (f : σ → Op ε σ β) (s : σ) : (get >>= f) s = f s s := rfl

@[simp] theorem modify_bind_apply (g : σ → σ) (f : Unit → Op ε σ β) (s : σ) :
    (modify g >>= f) s = f () (g s) := rfl

@[simp] theorem update_bind_apply (g : σ → α × σ) (f : α → Op ε σ β) (s : σ) :
    (update g >>= f) s = f (g s).1 (g s).2 := rfl

theorem bind_assoc (x : Op ε σ α) {γ : Type} (f : α → Op ε σ β) (g : β → Op ε σ γ) :
    ((x >>= f) >>= g) = (x >>= fun a => f a >>= g) := by
  funext s
  simp only [bind_apply]
  rcases x s with ⟨_ | a, s'⟩ <;> rfl

/-- Two computations with the same first step agree if their continuations do. -/
theorem bind_congr {x : Op ε σ α} {f g : α → Op ε σ β} (h : ∀ a, f a = g a) :
    (x >>= f) = (x >>= g) := congrArg _ (funext h)

/-! ## 2. Peeling a computation -/

/-- **A sequence succeeds** iff both parts do, the second from the first one's state. -/
theorem bind_ok_iff {x : Op ε σ α} {f : α → Op ε σ β} {s s'' : σ} {b : β} :
    (x >>= f) s = (.ok b, s'') ↔ ∃ a s', x s = (.ok a, s') ∧ f a s' = (.ok b, s'') := by
  rw [bind_apply]
  constructor
  · intro h
    rcases hx : x s with ⟨_ | a, s'⟩
    · rw [hx] at h; simp at h
    · rw [hx] at h; exact ⟨a, s', rfl, h⟩
  · rintro ⟨a, s', hx, hf⟩
    rw [hx]; exact hf

/-- **A sequence fails** iff its first part does, or its second part does after it. -/
theorem bind_error_iff {x : Op ε σ α} {f : α → Op ε σ β} {s s'' : σ} {e : ε} :
    (x >>= f) s = (.error e, s'') ↔
      x s = (.error e, s'') ∨ ∃ a s', x s = (.ok a, s') ∧ f a s' = (.error e, s'') := by
  rw [bind_apply]
  constructor
  · intro h
    rcases hx : x s with ⟨e' | a, s'⟩
    · rw [hx] at h
      simp only [Prod.mk.injEq, Except.error.injEq] at h
      obtain ⟨rfl, rfl⟩ := h
      exact Or.inl rfl
    · rw [hx] at h; exact Or.inr ⟨a, s', rfl, h⟩
  · rintro (hx | ⟨a, s', hx, hf⟩)
    · rw [hx]
    · rw [hx]; exact hf

/-- **How far a sequence got**: its first part failed, or its second part has the last word. -/
theorem bind_cases {x : Op ε σ α} {f : α → Op ε σ β} {s s'' : σ} {r : Except ε β}
    (h : (x >>= f) s = (r, s'')) :
    (∃ e, x s = (.error e, s'') ∧ r = .error e) ∨
      ∃ a s', x s = (.ok a, s') ∧ f a s' = (r, s'') := by
  cases r with
  | error e =>
    rcases bind_error_iff.1 h with hx | hx
    · exact Or.inl ⟨e, hx, rfl⟩
    · exact Or.inr hx
  | ok b => exact Or.inr (bind_ok_iff.1 h)

/-- A computation whose result is converted at the end. -/
theorem bind_pure_cases {x : Op ε σ α} {f : α → β} {s s' : σ} {r : Except ε β}
    (h : (x >>= fun a => pure (f a)) s = (r, s')) : ∃ r', x s = (r', s') ∧ r'.map f = r := by
  rcases bind_cases h with ⟨e, hx, rfl⟩ | ⟨a, s'', hx, hr⟩
  · exact ⟨.error e, hx, rfl⟩
  · cases hr
    exact ⟨.ok a, hx, rfl⟩

theorem require_of {c : Prop} [Decidable c] {e : ε} (h : c) :
    (require c e : Op ε σ Unit) = pure () := if_pos h

theorem require_of_not {c : Prop} [Decidable c] {e : ε} (h : ¬ c) :
    (require c e : Op ε σ Unit) = fail e := if_neg h

theorem require_congr {c d : Prop} [Decidable c] [Decidable d] {e : ε} (h : c ↔ d) :
    (require c e : Op ε σ Unit) = require d e := by
  unfold require
  exact if_congr h rfl rfl

@[simp] theorem ofOption_some (e : ε) (a : α) : (ofOption e (some a) : Op ε σ α) = pure a := rfl

@[simp] theorem ofOption_none (e : ε) : (ofOption e none : Op ε σ α) = fail e := rfl

theorem require_ok_iff {c : Prop} [Decidable c] {e : ε} {s s' : σ} {u : Unit} :
    (require c e : Op ε σ Unit) s = (.ok u, s') ↔ c ∧ s' = s := by
  by_cases h : c
  · rw [require_of h]
    simp [h, eq_comm]
  · rw [require_of_not h]
    simp [h]

theorem ofOption_ok_iff {e : ε} {o : Option α} {s s' : σ} {a : α} :
    (ofOption e o : Op ε σ α) s = (.ok a, s') ↔ o = some a ∧ s' = s := by
  cases o <;> simp [eq_comm]

theorem recover_of_ok [DecidableEq ε] {e : ε} {x y : Op ε σ α} {s s' : σ} {a : α}
    (h : x s = (.ok a, s')) : recover e x y s = (.ok a, s') := by
  simp only [recover, h]

theorem recover_of_error [DecidableEq ε] {e : ε} {x y : Op ε σ α} {s s' : σ}
    (h : x s = (.error e, s')) : recover e x y s = y s' := by
  simp only [recover, h, if_true]

theorem recover_of_other [DecidableEq ε] {e e' : ε} {x y : Op ε σ α} {s s' : σ}
    (h : x s = (.error e', s')) (hne : e' ≠ e) : recover e x y s = (.error e', s') := by
  simp only [recover, h, if_neg hne]

/-- Recovering and then converting the result is converting it on both paths. -/
theorem recover_bind_pure [DecidableEq ε] (e : ε) (x y : Op ε σ α) (f : α → β) :
    (recover e x y >>= fun a => pure (f a)) =
      recover e (x >>= fun a => pure (f a)) (y >>= fun a => pure (f a)) := by
  funext s
  simp only [bind_apply, recover]
  rcases x s with ⟨e' | a, s'⟩
  · by_cases h : e' = e
    · simp only [h, if_true]
    · simp only [h, if_false]
  · rfl

/-- Replacing a code changes nothing else. -/
theorem mapError_of_ok {f : ε → ε} {x : Op ε σ α} {s s' : σ} {a : α} (h : x s = (.ok a, s')) :
    mapError f x s = (.ok a, s') := by
  rw [mapError, h]

theorem mapError_cases {f : ε → ε} {x : Op ε σ α} {s s' : σ} {r : Except ε α}
    (h : mapError f x s = (r, s')) : ∃ r', x s = (r', s') ∧ r'.mapError f = r := by
  unfold mapError at h
  rcases hx : x s with ⟨e | a, s''⟩ <;> rw [hx] at h <;> cases h
  · exact ⟨.error e, rfl, rfl⟩
  · exact ⟨.ok a, rfl, rfl⟩

/-- What a successful computation without state has gone through. -/
theorem exists_of_bind_eq_ok {x : Except ε α} {f : α → Except ε β} {b : β}
    (h : (x >>= f) = .ok b) : ∃ a, x = .ok a ∧ f a = .ok b := by
  cases x with
  | error e => cases h
  | ok a => exact ⟨a, rfl, h⟩

/-- A list that is converted element by element: what came of each element. -/
theorem mapM_ok_forall₂ {f : α → Except ε β} {l : List α} :
    ∀ {l' : List β}, l.mapM f = .ok l' → List.Forall₂ (fun a b => f a = .ok b) l l' := by
  induction l with
  | nil =>
    intro l' h
    cases h
    exact .nil
  | cons a l ih =>
    intro l' h
    rw [List.mapM_cons] at h
    obtain ⟨b, hb, h⟩ := exists_of_bind_eq_ok h
    obtain ⟨bs, hbs, h⟩ := exists_of_bind_eq_ok h
    cases h
    exact .cons hb (ih hbs)

theorem exists_of_mem_mapM {f : α → Except ε β} {l : List α} {l' : List β} (h : l.mapM f = .ok l')
    {b : β} (hb : b ∈ l') : ∃ a ∈ l, f a = .ok b := by
  obtain ⟨i, hi, rfl⟩ := List.getElem_of_mem hb
  have hf := mapM_ok_forall₂ h
  have hi' : i < l.length := hf.length_eq ▸ hi
  exact ⟨l[i], List.getElem_mem hi', hf.get hi' hi⟩

theorem ofExcept_apply (x : Except ε α) (s : σ) : (ofExcept x : Op ε σ α) s = (x, s) := by
  cases x <;> rfl

/-! ## 3. Operations on a part of the state -/

/-- Run an operation on the part of the state that `view` reads and `put` writes. -/
def zoom (view : σ → τ) (put : σ → τ → σ) (x : Op ε τ α) : Op ε σ α := fun s =>
  ((x (view s)).1, put s (x (view s)).2)

theorem zoom_apply (view : σ → τ) (put : σ → τ → σ) (x : Op ε τ α) (s : σ) :
    zoom view put x s = ((x (view s)).1, put s (x (view s)).2) := rfl

theorem zoom_of {view : σ → τ} {put : σ → τ → σ} {x : Op ε τ α} {s : σ} {r : Except ε α}
    {t : τ} (h : x (view s) = (r, t)) : zoom view put x s = (r, put s t) := by
  rw [zoom_apply, h]

/-! ## 4. Where an operation can lead -/

/-- `x` moves the state along `r`, whether it succeeds or fails. -/
def Moves (r : σ → σ → Prop) (x : Op ε σ α) : Prop := ∀ s, r s (x s).2

section Moves

variable {r : σ → σ → Prop} [IsPreorder σ r]

theorem Moves.pure (a : α) : Moves r (pure a : Op ε σ α) := fun s => refl_of r s

theorem Moves.fail (e : ε) : Moves r (fail e : Op ε σ α) := fun s => refl_of r s

theorem Moves.ofExcept (x : Except ε α) : Moves r (ofExcept x : Op ε σ α) := fun s => by
  rw [ofExcept_apply]
  exact refl_of r s

theorem Moves.ofOption (e : ε) (a : Option α) : Moves r (ofOption e a : Op ε σ α) := by
  cases a with
  | none => exact Moves.fail e
  | some a => exact Moves.pure a

theorem Moves.require (c : Prop) [Decidable c] (e : ε) :
    Moves r (require c e : Op ε σ Unit) := by
  unfold Op.require
  split
  · exact Moves.pure ()
  · exact Moves.fail e

/-- Moves compose. -/
theorem Moves.bind {x : Op ε σ α} {f : α → Op ε σ β} (hx : Moves r x)
    (hf : ∀ a, Moves r (f a)) : Moves r (x >>= f) := by
  intro s
  rw [bind_apply]
  have h := hx s
  rcases hr : x s with ⟨_ | a, s'⟩ <;> rw [hr] at h
  · exact h
  · exact trans_of r h (hf a s')

theorem Moves.recover [DecidableEq ε] {e : ε} {x y : Op ε σ α} (hx : Moves r x)
    (hy : Moves r y) : Moves r (recover e x y) := by
  intro s
  have h := hx s
  rw [Op.recover]
  rcases hr : x s with ⟨e' | a, s'⟩ <;> rw [hr] at h
  · dsimp only
    split
    · exact trans_of r h (hy s')
    · exact h
  · exact h

end Moves

/-! ## 5. Two operations with the same result -/

/-- Two results agree up to `r`: they are the same error, or values related by `r`. -/
inductive SameResult (r : α → α → Prop) : Except ε α → Except ε α → Prop
  | ok {a b : α} (h : r a b) : SameResult r (.ok a) (.ok b)
  | error (e : ε) : SameResult r (.error e) (.error e)

theorem SameResult.refl (x : Except ε α) : SameResult (· = ·) x x := by
  cases x with
  | ok a => exact .ok rfl
  | error e => exact .error e

/-- **From related states `x` and `y` have the same result, up to `r`**, and they end in related
states. -/
def Alike (R : σ → σ → Prop) (r : α → α → Prop) (x y : Op ε σ α) : Prop :=
  ∀ s t, R s t → SameResult r (x s).1 (y t).1 ∧ R (x s).2 (y t).2

section Alike

variable {R : σ → σ → Prop} {r : α → α → Prop} {q : β → β → Prop}

theorem Alike.pure {a b : α} (h : r a b) : Alike R r (pure a : Op ε σ α) (pure b) :=
  fun _ _ hR => ⟨.ok h, hR⟩

theorem Alike.fail (e : ε) : Alike R r (fail e : Op ε σ α) (fail e) :=
  fun _ _ hR => ⟨.error e, hR⟩

theorem Alike.ofExcept {x y : Except ε α} (h : SameResult r x y) :
    Alike R r (ofExcept x : Op ε σ α) (ofExcept y) := by
  cases h with
  | ok h => exact Alike.pure h
  | error e => exact Alike.fail e

theorem Alike.ofOption (e : ε) (a : Option α) :
    Alike R (· = ·) (ofOption e a : Op ε σ α) (ofOption e a) := by
  cases a with
  | none => exact Alike.fail e
  | some a => exact Alike.pure rfl

theorem Alike.require (c : Prop) [Decidable c] (e : ε) :
    Alike R (· = ·) (require c e : Op ε σ Unit) (require c e) := by
  unfold Op.require
  split
  · exact Alike.pure rfl
  · exact Alike.fail e

/-- What is read from a part of the state that related states share. -/
theorem Alike.reads {f : σ → Op ε σ α} {g : σ → Op ε σ α}
    (h : ∀ s t, R s t → Alike R r (f s) (g t)) : Alike R r (get >>= f) (get >>= g) :=
  fun s t hR => h s t hR s t hR

theorem Alike.bind {x y : Op ε σ α} {f g : α → Op ε σ β} (hx : Alike R r x y)
    (hf : ∀ a b, r a b → Alike R q (f a) (g b)) : Alike R q (x >>= f) (y >>= g) := by
  intro s t hR
  obtain ⟨hres, hR'⟩ := hx s t hR
  rw [bind_apply, bind_apply]
  rcases hs : x s with ⟨e | a, s'⟩ <;> rcases ht : y t with ⟨e' | b, t'⟩ <;>
    rw [hs, ht] at hres hR'
  · cases hres
    exact ⟨.error e, hR'⟩
  · cases hres
  · cases hres
  · cases hres with
    | ok h => exact hf a b h s' t' hR'

theorem Alike.recover [DecidableEq ε] {e : ε} {x x' y y' : Op ε σ α} (hx : Alike R r x x')
    (hy : Alike R r y y') : Alike R r (recover e x y) (recover e x' y') := by
  intro s t hR
  obtain ⟨hres, hR'⟩ := hx s t hR
  rw [Op.recover, Op.recover]
  rcases hs : x s with ⟨e₁ | a, s'⟩ <;> rcases ht : x' t with ⟨e₂ | b, t'⟩ <;>
    rw [hs, ht] at hres hR'
  · cases hres
    dsimp only
    split
    · exact hy s' t' hR'
    · exact ⟨.error e₁, hR'⟩
  · cases hres
  · cases hres
  · exact ⟨hres, hR'⟩

/-- If one of them succeeds, so does the other. -/
theorem Alike.ok {x y : Op ε σ α} (h : Alike R r x y) {s s' t : σ} {a : α} (hR : R s t)
    (hx : x s = (.ok a, s')) : ∃ b t', r a b ∧ R s' t' ∧ y t = (.ok b, t') := by
  obtain ⟨hres, hR'⟩ := h s t hR
  rcases ht : y t with ⟨e | b, t'⟩ <;> rw [hx, ht] at hres hR'
  · cases hres
  · cases hres with
    | ok hab => exact ⟨b, t', hab, hR', rfl⟩

end Alike

end Op

end SignalProtocol
