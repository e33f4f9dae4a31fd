/-
# Threads that share a store under a recursive mutex

A `Program` is a computation cut at the points where other threads may come in: an access to
the shared store is one step, and so are locking and unlocking the mutex.  Everything between
two accesses belongs to the thread alone and takes no step.  A thread runs one program after
the other, and a schedule says whose turn it is.

The mutex counts how often its owner has locked it.  A program is a *section* if it locks the
mutex first, touches the store only while the mutex is locked, and is over when it has been
unlocked as often as locked.  `Machine.ordered_run` says that sections exclude each other:
whatever the schedule, there is one order of the finished sections in which each, run alone
and after the ones before it, gives the result that its thread got.  The order only grows at
its end, so it agrees with the times at which the sections were over.
`Machine.Ordered.progress` says that nobody waits for ever: as long as something is left to do,
some thread can go on.
-/
import Mathlib.Data.List.Basic
import SignalProtocol.Lib.Op

namespace SignalProtocol

/-! ## 1. Programs -/

/-- A computation on a shared store, cut at its accesses. -/
inductive Program (ε σ α : Type) where
  | done (result : Except ε α)
  | access (effect : σ → σ) (next : σ → Program ε σ α)
  | lock (next : Program ε σ α)
  | unlock (next : Program ε σ α)

namespace Program

variable {ε σ τ α β : Type}

/-- Run alone. -/
def run : Program ε σ α → Op ε σ α
  | done r => fun s => (r, s)
  | access effect next => fun s => (next s).run (effect s)
  | lock next => next.run
  | unlock next => next.run

/-- One access. -/
def atomically (x : Op ε σ α) : Program ε σ α :=
  access (fun s => (x s).2) fun s => done (x s).1

/-- Sequence; a failure ends the program. -/
def bind (f : α → Program ε σ β) : Program ε σ α → Program ε σ β
  | done (.ok a) => f a
  | done (.error e) => done (.error e)
  | access effect next => access effect fun s => (next s).bind f
  | lock next => lock (next.bind f)
  | unlock next => unlock (next.bind f)

instance : Monad (Program ε σ) where
  pure a := done (.ok a)
  bind x f := x.bind f

/-- Unlock at the end, whatever the result. -/
def andUnlock : Program ε σ α → Program ε σ α
  | done r => unlock (done r)
  | access effect next => access effect fun s => (next s).andUnlock
  | lock next => lock next.andUnlock
  | unlock next => unlock next.andUnlock

/-- Lock at the beginning and unlock at the end. -/
def locked (p : Program ε σ α) : Program ε σ α := lock p.andUnlock

/-- Lock around a program if there is a mutex to lock. -/
def guarded (locking : Bool) (p : Program ε σ α) : Program ε σ α := if locking then p.locked else p

/-- Run on the part of the store that `view` reads and `put` writes. -/
def zoom (view : σ → τ) (put : σ → τ → σ) : Program ε τ α → Program ε σ α
  | done r => done r
  | access effect next =>
    access (fun s => put s (effect (view s))) fun s => (next (view s)).zoom view put
  | lock next => lock (next.zoom view put)
  | unlock next => unlock (next.zoom view put)

/-- Replace the code of a failure. -/
def mapError (f : ε → ε) : Program ε σ α → Program ε σ α
  | done r => done (r.mapError f)
  | access effect next => access effect fun s => (next s).mapError f
  | lock next => lock (next.mapError f)
  | unlock next => unlock (next.mapError f)

/-- A computation that does not look at the store. -/
def ofExcept (r : Except ε α) : Program ε σ α := done r

/-- Give up with `e` unless `c` holds. -/
def require (c : Prop) [Decidable c] (e : ε) : Program ε σ Unit :=
  if c then done (.ok ()) else done (.error e)

/-- The value of an optional part, or give up with `e`. -/
def ofOption (e : ε) : Option α → Program ε σ α
  | some a => done (.ok a)
  | none => done (.error e)

/-- If the program fails with exactly `e`, go on with `y`. -/
def recover [DecidableEq ε] (e : ε) : Program ε σ α → Program ε σ α → Program ε σ α
  | done (.ok a), _ => done (.ok a)
  | done (.error e'), y => if e' = e then y else done (.error e')
  | access effect next, y => access effect fun s => (next s).recover e y
  | lock next, y => lock (next.recover e y)
  | unlock next, y => unlock (next.recover e y)

/-! What a program computes when it runs alone. -/

@[simp] theorem run_atomically (x : Op ε σ α) : (atomically x).run = x := rfl

@[simp] theorem run_pure (a : α) : (pure a : Program ε σ α).run = pure a := rfl

@[simp] theorem run_bind (x : Program ε σ α) (f : α → Program ε σ β) :
    (x >>= f).run = (x.run >>= fun a => (f a).run) := by
  show (x.bind f).run = _
  induction x with
  | done r => cases r <;> rfl
  | access effect next ih =>
    funext s
    exact congrFun (ih s) (effect s)
  | lock next ih => exact ih
  | unlock next ih => exact ih

@[simp] theorem run_andUnlock (x : Program ε σ α) : x.andUnlock.run = x.run := by
  induction x with
  | done r => rfl
  | access effect next ih =>
    funext s
    exact congrFun (ih s) (effect s)
  | lock next ih => exact ih
  | unlock next ih => exact ih

@[simp] theorem run_locked (x : Program ε σ α) : x.locked.run = x.run := run_andUnlock x

@[simp] theorem run_guarded (locking : Bool) (x : Program ε σ α) :
    (x.guarded locking).run = x.run := by
  cases locking
  · rfl
  · exact run_locked x

theorem run_zoom {view : σ → τ} {put : σ → τ → σ} (hview : ∀ s t, view (put s t) = t)
    (hput : ∀ s t t', put (put s t) t' = put s t') (hself : ∀ s, put s (view s) = s)
    (x : Program ε τ α) : (x.zoom view put).run = Op.zoom view put x.run := by
  induction x with
  | done r => exact funext fun s => congrArg (Prod.mk r) (hself s).symm
  | access effect next ih =>
    funext s
    refine (congrFun (ih (view s)) (put s (effect (view s)))).trans ?_
    simp only [Op.zoom, hview, hput]
    rfl
  | lock next ih => exact ih
  | unlock next ih => exact ih

@[simp] theorem run_mapError (f : ε → ε) (x : Program ε σ α) :
    (x.mapError f).run = Op.mapError f x.run := by
  induction x with
  | done r => cases r <;> rfl
  | access effect next ih =>
    funext s
    exact congrFun (ih s) (effect s)
  | lock next ih => exact ih
  | unlock next ih => exact ih

@[simp] theorem run_recover [DecidableEq ε] (e : ε) (x y : Program ε σ α) :
    (x.recover e y).run = Op.recover e x.run y.run := by
  induction x with
  | done r =>
    cases r with
    | ok a => rfl
    | error e' =>
      funext s
      simp only [recover, Op.recover, run]
      split <;> rfl
  | access effect next ih =>
    funext s
    exact congrFun (ih s) (effect s)
  | lock next ih => exact ih
  | unlock next ih => exact ih

@[simp] theorem run_ofExcept (r : Except ε α) :
    (ofExcept r : Program ε σ α).run = Op.ofExcept r := by
  cases r <;> rfl

@[simp] theorem run_require (c : Prop) [Decidable c] (e : ε) :
    (require c e : Program ε σ Unit).run = Op.require c e := by
  unfold require Op.require
  split <;> rfl

@[simp] theorem run_ofOption (e : ε) (o : Option α) :
    (ofOption e o : Program ε σ α).run = Op.ofOption e o := by
  cases o <;> rfl

theorem run_ite (c : Prop) [Decidable c] (x y : Program ε σ α) :
    (if c then x else y).run = if c then x.run else y.run := apply_ite run c x y

/-- **The equations by which a program becomes the operation** that it is when it runs alone, as
one lemma for `simp only`. -/
theorem run_eqs :
    (∀ {α : Type} (x : Op ε σ α), (atomically x).run = x) ∧
    (∀ {α : Type} (a : α), (pure a : Program ε σ α).run = pure a) ∧
    (∀ {α β : Type} (x : Program ε σ α) (f : α → Program ε σ β),
      (x >>= f).run = (x.run >>= fun a => (f a).run)) ∧
    (∀ {α : Type} (c : Prop) [Decidable c] (x y : Program ε σ α),
      (if c then x else y).run = if c then x.run else y.run) ∧
    (∀ {α : Type} (locking : Bool) (x : Program ε σ α), (x.guarded locking).run = x.run) ∧
    (∀ {α : Type} (f : ε → ε) (x : Program ε σ α), (x.mapError f).run = Op.mapError f x.run) ∧
    (∀ {α : Type} (r : Except ε α), (ofExcept r : Program ε σ α).run = Op.ofExcept r) ∧
    (∀ (c : Prop) [Decidable c] (e : ε),
      (require c e : Program ε σ Unit).run = Op.require c e) ∧
    (∀ {α : Type} (e : ε) (o : Option α),
      (ofOption e o : Program ε σ α).run = Op.ofOption e o) :=
  ⟨run_atomically, run_pure, run_bind, run_ite, run_guarded, run_mapError, run_ofExcept,
    run_require, run_ofOption⟩

/-! ## 2. Sections -/

/-- The program unlocks what it locks, and `d` times more. -/
inductive Balanced : Nat → Program ε σ α → Prop
  | done (r : Except ε α) : Balanced 0 (done r)
  | access {d : Nat} {effect : σ → σ} {next : σ → Program ε σ α}
      (h : ∀ s, Balanced d (next s)) : Balanced d (access effect next)
  | lock {d : Nat} {next : Program ε σ α} (h : Balanced (d + 1) next) : Balanced d (lock next)
  | unlock {d : Nat} {next : Program ε σ α} (h : Balanced d next) : Balanced (d + 1) (unlock next)

/-- **The rest of a section** in which the mutex is locked `d` times: there are no accesses after
the last unlocking. -/
inductive Inside : Nat → Program ε σ α → Prop
  | done (r : Except ε α) : Inside 0 (done r)
  | access {d : Nat} {effect : σ → σ} {next : σ → Program ε σ α}
      (h : ∀ s, Inside (d + 1) (next s)) : Inside (d + 1) (access effect next)
  | lock {d : Nat} {next : Program ε σ α} (h : Inside (d + 2) next) : Inside (d + 1) (lock next)
  | unlock {d : Nat} {next : Program ε σ α} (h : Inside d next) : Inside (d + 1) (unlock next)

/-- **A section** locks the mutex before anything else. -/
def Section (p : Program ε σ α) : Prop := ∃ next, p = lock next ∧ next.Inside 1

theorem Balanced.atomically (x : Op ε σ α) : (Program.atomically x).Balanced 0 :=
  .access fun _ => .done _

theorem Balanced.pure (a : α) : (Pure.pure a : Program ε σ α).Balanced 0 := .done _

theorem Balanced.ofExcept (r : Except ε α) : (Program.ofExcept r : Program ε σ α).Balanced 0 :=
  .done _

theorem Balanced.require (c : Prop) [Decidable c] (e : ε) :
    (Program.require c e : Program ε σ Unit).Balanced 0 := by
  unfold Program.require
  split <;> exact .done _

theorem Balanced.ofOption (e : ε) (o : Option α) :
    (Program.ofOption e o : Program ε σ α).Balanced 0 := by
  cases o <;> exact .done _

theorem Balanced.bind {d : Nat} {x : Program ε σ α} {f : α → Program ε σ β} (hx : x.Balanced d)
    (hf : ∀ a, (f a).Balanced 0) : (x >>= f).Balanced d := by
  show (x.bind f).Balanced d
  induction hx with
  | done r =>
    cases r with
    | ok a => exact hf a
    | error e => exact .done _
  | access _ ih => exact .access ih
  | lock _ ih => exact .lock ih
  | unlock _ ih => exact .unlock ih

theorem Balanced.mapError {d : Nat} {x : Program ε σ α} (hx : x.Balanced d) (f : ε → ε) :
    (x.mapError f).Balanced d := by
  induction hx with
  | done r => exact .done _
  | access _ ih => exact .access ih
  | lock _ ih => exact .lock ih
  | unlock _ ih => exact .unlock ih

theorem Balanced.recover [DecidableEq ε] {d : Nat} {x y : Program ε σ α} (hx : x.Balanced d)
    (e : ε) (hy : y.Balanced 0) : (x.recover e y).Balanced d := by
  induction hx with
  | done r =>
    cases r with
    | ok a => exact .done _
    | error e' =>
      unfold Program.recover
      split
      · exact hy
      · exact .done _
  | access _ ih => exact .access ih
  | lock _ ih => exact .lock ih
  | unlock _ ih => exact .unlock ih

theorem Balanced.andUnlock {d : Nat} {x : Program ε σ α} (hx : x.Balanced d) :
    x.andUnlock.Balanced (d + 1) := by
  induction hx with
  | done r => exact .unlock (.done r)
  | access _ ih => exact .access ih
  | lock _ ih => exact .lock ih
  | unlock _ ih => exact .unlock ih

theorem Balanced.zoom {d : Nat} {x : Program ε τ α} (hx : x.Balanced d) (view : σ → τ)
    (put : σ → τ → σ) : (x.zoom view put).Balanced d := by
  induction hx with
  | done r => exact .done r
  | access _ ih => exact .access fun s => ih (view s)
  | lock _ ih => exact .lock ih
  | unlock _ ih => exact .unlock ih

theorem Balanced.locked {x : Program ε σ α} (hx : x.Balanced 0) : x.locked.Balanced 0 :=
  .lock hx.andUnlock

theorem Balanced.guarded {x : Program ε σ α} (hx : x.Balanced 0) (locking : Bool) :
    (x.guarded locking).Balanced 0 := by
  cases locking
  · exact hx
  · exact hx.locked

/-- A balanced program, with the mutex locked around it, stays inside. -/
theorem Balanced.inside {d : Nat} {x : Program ε σ α} (hx : x.Balanced d) :
    x.andUnlock.Inside (d + 1) := by
  induction hx with
  | done r => exact .unlock (.done r)
  | access _ ih => exact .access ih
  | lock _ ih => exact .lock ih
  | unlock _ ih => exact .unlock ih

/-- **Whoever locks first and unlocks in the end has a section.** -/
theorem Balanced.section {x : Program ε σ α} (hx : x.Balanced 0) : x.locked.Section :=
  ⟨_, rfl, hx.inside⟩

theorem Inside.map {d : Nat} {x : Program ε σ α} (hx : x.Inside d) (f : α → β) :
    (x >>= fun a => Pure.pure (f a)).Inside d := by
  show (x.bind fun a => Pure.pure (f a)).Inside d
  induction hx with
  | done r => cases r <;> exact .done _
  | access _ ih => exact .access ih
  | lock _ ih => exact .lock ih
  | unlock _ ih => exact .unlock ih

theorem Section.map {x : Program ε σ α} (hx : x.Section) (f : α → β) :
    (x >>= fun a => Pure.pure (f a)).Section := by
  obtain ⟨next, rfl, hnext⟩ := hx
  exact ⟨_, rfl, hnext.map f⟩

end Program

/-! ## 3. The machine -/

/-- What a thread still has to call, what it is doing, and what its calls have returned. -/
structure Thread (κ ε σ α : Type) where
  calls : List κ
  running : Option (κ × Program ε σ α)
  results : List (κ × Except ε α)

/-- The store, the owner of the mutex with the number of its lockings beyond the first, and the
threads. -/
structure Machine (ι κ ε σ α : Type) where
  store : σ
  owner : Option (ι × Nat)
  thread : ι → Thread κ ε σ α

namespace Thread

variable {κ ε σ α : Type}

/-- The results, with that of a program which is over but has not handed it out. -/
def returned (t : Thread κ ε σ α) : List (κ × Except ε α) :=
  match t.running with
  | some (c, .done r) => t.results ++ [(c, r)]
  | _ => t.results

/-- All calls, made or not. -/
def allCalls (t : Thread κ ε σ α) : List κ :=
  t.results.map Prod.fst ++ (t.running.map Prod.fst).toList ++ t.calls

/-- Nothing is left to do. -/
def Finished (t : Thread κ ε σ α) : Prop := t.calls = [] ∧ t.running = none

/-- Outside of any section: before a call, before its first step, or after its last. -/
def Outside (program : κ → Program ε σ α) (t : Thread κ ε σ α) : Prop :=
  ∀ c p, t.running = some (c, p) → p = program c ∨ ∃ r, p = .done r

theorem returned_within (t : Thread κ ε σ α) : t.returned.map Prod.fst <+: t.allCalls := by
  rw [allCalls, List.append_assoc]
  unfold returned
  split
  · rename_i c r hrunning
    simp [hrunning]
  · exact List.prefix_append _ _

end Thread

namespace Machine

variable {ι κ ε σ α : Type} [DecidableEq ι]

/-- Nothing has been called. -/
def start (store : σ) (calls : ι → List κ) : Machine ι κ ε σ α where
  store := store
  owner := none
  thread i := ⟨calls i, none, []⟩

/-- Another state of a thread. -/
def put (m : Machine ι κ ε σ α) (i : ι) (t : Thread κ ε σ α) : Machine ι κ ε σ α :=
  { m with thread := Function.update m.thread i t }

/-- The thread goes on with another program. -/
def goOn (m : Machine ι κ ε σ α) (i : ι) (c : κ) (p : Program ε σ α) : Machine ι κ ε σ α :=
  m.put i { m.thread i with running := some (c, p) }

/-- The owner after one unlocking. -/
def release (i : ι) : Nat → Option (ι × Nat)
  | 0 => none
  | d + 1 => some (i, d)

/-- **One step of a thread**, if it has one: a thread that finds the mutex locked by another one
has none. -/
def step (program : κ → Program ε σ α) (i : ι) (m : Machine ι κ ε σ α) :
    Option (Machine ι κ ε σ α) :=
  match (m.thread i).running with
  | none =>
    match (m.thread i).calls with
    | [] => none
    | c :: calls => some (m.put i ⟨calls, some (c, program c), (m.thread i).results⟩)
  | some (c, .done r) =>
    some (m.put i ⟨(m.thread i).calls, none, (m.thread i).results ++ [(c, r)]⟩)
  | some (c, .access effect next) =>
    some { m.goOn i c (next m.store) with store := effect m.store }
  | some (c, .lock next) =>
    match m.owner with
    | none => some { m.goOn i c next with owner := some (i, 0) }
    | some (j, d) => if j = i then some { m.goOn i c next with owner := some (i, d + 1) } else none
  | some (c, .unlock next) =>
    match m.owner with
    | none => none
    | some (j, d) => if j = i then some { m.goOn i c next with owner := release i d } else none

/-- **A run**: at each turn a thread makes its step, or waits if it has none. -/
def run (program : κ → Program ε σ α) (schedule : List ι) (m : Machine ι κ ε σ α) :
    Machine ι κ ε σ α :=
  schedule.foldl (fun m i => (m.step program i).getD m) m

theorem run_append (program : κ → Program ε σ α) (schedule later : List ι)
    (m : Machine ι κ ε σ α) :
    m.run program (schedule ++ later) = (m.run program schedule).run program later :=
  List.foldl_append

end Machine

/-- **One after the other**: from `s` each call, run alone, gives its result, and the last one
leaves `t`. -/
def Serial {κ ε σ α : Type} (f : κ → Op ε σ α) : σ → List (κ × Except ε α) → σ → Prop
  | s, [], t => s = t
  | s, (c, r) :: rest, t => (f c s).1 = r ∧ Serial f (f c s).2 rest t

theorem Serial.snoc {κ ε σ α : Type} {f : κ → Op ε σ α} {s t : σ} {order : List (κ × Except ε α)}
    (h : Serial f s order t) (c : κ) : Serial f s (order ++ [(c, (f c t).1)]) (f c t).2 := by
  induction order generalizing s with
  | nil =>
    cases h
    exact ⟨rfl, rfl⟩
  | cons e order ih => exact ⟨h.1, ih h.2⟩

/-! ## 4. The order of the sections -/

namespace Machine

variable {ι κ ε σ α : Type} [DecidableEq ι]

/-- **The finished sections have an order**: run one after the other they give what the threads
got and the store `t`.  The store is `t` while the mutex is free; its owner is on the way from `t`
to what its section does to `t`. -/
structure Ordered (program : κ → Program ε σ α) (s₀ : σ) (calls : ι → List κ)
    (m : Machine ι κ ε σ α) (order : List (ι × κ × Except ε α)) (t : σ) : Prop where
  serial : Serial (fun c => (program c).run) s₀ (order.map Prod.snd) t
  returned : ∀ i, (order.filter fun e => e.1 = i).map Prod.snd = (m.thread i).returned
  calls : ∀ i, (m.thread i).allCalls = calls i
  free : m.owner = none → m.store = t
  holder : ∀ i d, m.owner = some (i, d) → ∃ c p, (m.thread i).running = some (c, p) ∧
    p.Inside (d + 1) ∧ p.run m.store = (program c).run t
  outside : ∀ i, (∀ d, m.owner ≠ some (i, d)) → (m.thread i).Outside program

variable {program : κ → Program ε σ α} {s₀ t : σ} {calls : ι → List κ} {m m' : Machine ι κ ε σ α}
  {order : List (ι × κ × Except ε α)} {i : ι}

theorem ordered_start (s₀ : σ) (calls : ι → List κ) :
    (start s₀ calls : Machine ι κ ε σ α).Ordered program s₀ calls [] s₀ where
  serial := rfl
  returned _ := rfl
  calls _ := rfl
  free _ := rfl
  holder _ _ h := absurd h (Option.some_ne_none _).symm
  outside _ _ _ _ h := absurd h (Option.some_ne_none _).symm

/-- What is inside a section is not over. -/
theorem returned_of_inside {th : Thread κ ε σ α} {c : κ} {p : Program ε σ α} {d : Nat}
    (hrunning : th.running = some (c, p)) (hp : p.Inside (d + 1)) : th.returned = th.results := by
  cases hp <;> simp [Thread.returned, hrunning]

/-- The owner of the mutex is inside of its section. -/
theorem Ordered.inside_of_owner (h : m.Ordered program s₀ calls order t) {c : κ}
    {p : Program ε σ α} {d : Nat} (hrunning : (m.thread i).running = some (c, p))
    (hd : m.owner = some (i, d)) : p.Inside (d + 1) ∧ p.run m.store = (program c).run t := by
  obtain ⟨c', p', hrunning', hp, hrun⟩ := h.holder i d hd
  cases hrunning.symm.trans hrunning'
  exact ⟨hp, hrun⟩

/-- A thread in the middle of a program owns the mutex. -/
theorem Ordered.owner_of_running (h : m.Ordered program s₀ calls order t) {c : κ}
    {p : Program ε σ α} (hrunning : (m.thread i).running = some (c, p)) (hne : p ≠ program c)
    (hdone : ∀ r, p ≠ .done r) :
    ∃ d, m.owner = some (i, d) ∧ p.Inside (d + 1) ∧ p.run m.store = (program c).run t := by
  by_cases howner : ∃ d, m.owner = some (i, d)
  · obtain ⟨d, hd⟩ := howner
    exact ⟨d, hd, h.inside_of_owner hrunning hd⟩
  · rcases h.outside i (fun d hd => howner ⟨d, hd⟩) c p hrunning with rfl | ⟨r, rfl⟩
    · exact absurd rfl hne
    · exact absurd rfl (hdone r)

theorem forall_update {f : ι → Thread κ ε σ α} {th : Thread κ ε σ α}
    {P : ι → Thread κ ε σ α → Prop} (hself : P i th) (hothers : ∀ j, j ≠ i → P j (f j)) :
    ∀ j, P j (Function.update f i th j) := by
  intro j
  rcases eq_or_ne j i with rfl | hne
  · rwa [Function.update_self]
  · rw [Function.update_of_ne hne]
    exact hothers j hne

/-- **A step inside a section**, taken by the owner or by the one who becomes it. -/
theorem Ordered.stay (h : m.Ordered program s₀ calls order t) {c : κ} {p p' : Program ε σ α}
    {d : Nat} {store : σ} (hrunning : (m.thread i).running = some (c, p))
    (hdone : ∀ r, p ≠ .done r) (hothers : ∀ j, j ≠ i → ∀ e, m.owner ≠ some (j, e))
    (hp' : p'.Inside (d + 1)) (hrun : p'.run store = (program c).run t) :
    Ordered program s₀ calls
      ⟨store, some (i, d), Function.update m.thread i { m.thread i with running := some (c, p') }⟩
      order t := by
  have hreturned : (m.thread i).returned = (m.thread i).results := by
    cases p with
    | done r => exact absurd rfl (hdone r)
    | access _ _ => simp only [Thread.returned, hrunning]
    | lock _ => simp only [Thread.returned, hrunning]
    | unlock _ => simp only [Thread.returned, hrunning]
  refine ⟨h.serial, ?_, ?_, fun ho => absurd ho (Option.some_ne_none _), ?_, ?_⟩
  · refine forall_update (P := fun j th => _ = th.returned) ?_ fun j _ => h.returned j
    have hnew : ({ m.thread i with running := some (c, p') } : Thread κ ε σ α).returned =
        (m.thread i).results := returned_of_inside rfl hp'
    rw [h.returned i, hreturned]
    exact hnew.symm
  · refine forall_update (P := fun j th => th.allCalls = calls j) ?_ fun j _ => h.calls j
    rw [← h.calls i, Thread.allCalls, Thread.allCalls, hrunning]
    rfl
  · rintro j e ⟨⟩
    exact ⟨c, p', by simp only [Function.update_self], hp', hrun⟩
  · intro j hj
    have hne : j ≠ i := fun he => hj d (by rw [he])
    simp only [Function.update_of_ne hne]
    exact h.outside j (hothers j hne)

/-- **A step outside of all sections**: nothing has happened to the store or the mutex. -/
theorem Ordered.apart (h : m.Ordered program s₀ calls order t) {th : Thread κ ε σ α}
    (hreturned : th.returned = (m.thread i).returned)
    (hcalls : th.allCalls = (m.thread i).allCalls) (howner : ∀ d, m.owner ≠ some (i, d))
    (houtside : th.Outside program) : (m.put i th).Ordered program s₀ calls order t := by
  refine ⟨h.serial, ?_, ?_, h.free, ?_, ?_⟩
  · refine forall_update (P := fun j th => _ = th.returned) ?_ fun j _ => h.returned j
    rw [h.returned i, hreturned]
  · refine forall_update (P := fun j th => th.allCalls = calls j) ?_ fun j _ => h.calls j
    rw [hcalls, h.calls i]
  · intro j d hj
    have hne : j ≠ i := fun he => howner d (he ▸ hj)
    simp only [put, Function.update_of_ne hne]
    exact h.holder j d hj
  · exact forall_update (P := fun j th => (∀ d, m.owner ≠ some (j, d)) → th.Outside program)
      (fun _ => houtside) fun j _ => h.outside j

/-- **The end of a section**: it takes its place in the order. -/
theorem Ordered.leave (h : m.Ordered program s₀ calls order t) {c : κ} {p : Program ε σ α}
    {r : Except ε α} (hrunning : (m.thread i).running = some (c, p))
    (hreturned : (m.thread i).returned = (m.thread i).results)
    (hothers : ∀ j, j ≠ i → ∀ e, m.owner ≠ some (j, e))
    (hrun : (program c).run t = (r, m.store)) :
    Ordered program s₀ calls
      ⟨m.store, none, Function.update m.thread i { m.thread i with running := some (c, .done r) }⟩
      (order ++ [(i, c, r)]) m.store := by
  refine ⟨?_, ?_, ?_, fun _ => rfl, fun _ _ ho => absurd ho (Option.some_ne_none _).symm, ?_⟩
  · have hserial := h.serial.snoc c
    rw [hrun] at hserial
    rwa [List.map_append]
  · refine forall_update (P := fun j th => _ = th.returned) ?_ fun j hj => ?_
    · rw [List.filter_append, List.map_append, h.returned i, hreturned]
      simp [Thread.returned]
    · rw [List.filter_append, List.map_append, h.returned j]
      simp [hj.symm]
  · refine forall_update (P := fun j th => th.allCalls = calls j) ?_ fun j _ => h.calls j
    rw [← h.calls i, Thread.allCalls, Thread.allCalls, hrunning]
    rfl
  · refine forall_update (P := fun j th => _ → th.Outside program) ?_ fun j hj _ =>
      h.outside j (hothers j hj)
    rintro - c' p' ⟨⟩
    exact Or.inr ⟨r, rfl⟩

omit [DecidableEq ι] in
/-- Nobody else owns a mutex that somebody owns. -/
theorem ne_owner {d : Nat} (hd : m.owner = some (i, d)) :
    ∀ j, j ≠ i → ∀ e, m.owner ≠ some (j, e) :=
  fun _ hj _ he => hj (Prod.mk.inj (Option.some.inj (he.symm.trans hd))).1

/-- Locking a free mutex begins a section. -/
theorem Ordered.enter (hprogram : ∀ c, (program c).Section)
    (h : m.Ordered program s₀ calls order t) {c : κ} {next : Program ε σ α}
    (hrunning : (m.thread i).running = some (c, .lock next)) (howner : m.owner = none) :
    Ordered program s₀ calls { m.goOn i c next with owner := some (i, 0) } order t := by
  have hnobody : ∀ j e, m.owner ≠ some (j, e) := fun j e he => by
    rw [howner] at he
    cases he
  obtain ⟨first, hfirst, hinside⟩ := hprogram c
  rcases h.outside i (hnobody i) c _ hrunning with hp | ⟨r, hr⟩
  · rw [hfirst] at hp
    cases hp
    have hrun : next.run m.store = (program c).run t := by
      rw [h.free howner, hfirst]
      rfl
    exact h.stay hrunning (by simp) (fun j _ => hnobody j) hinside hrun
  · cases hr

/-- Unlocking continues the section or ends it. -/
theorem Ordered.unlock (h : m.Ordered program s₀ calls order t) {c : κ} {next : Program ε σ α}
    {d : Nat} (hrunning : (m.thread i).running = some (c, .unlock next))
    (howner : m.owner = some (i, d)) (hp : (Program.unlock next).Inside (d + 1))
    (hrun : next.run m.store = (program c).run t) :
    ∃ order' t', order <+: order' ∧
      Ordered program s₀ calls { m.goOn i c next with owner := release i d } order' t' := by
  cases hp with
  | unlock hnext =>
    cases d with
    | succ d =>
      exact ⟨order, t, List.prefix_rfl, h.stay hrunning (by simp) (ne_owner howner) hnext hrun⟩
    | zero =>
      cases hnext with
      | done r =>
        have hreturned : (m.thread i).returned = (m.thread i).results := by
          simp only [Thread.returned, hrunning]
        exact ⟨_, _, List.prefix_append _ _,
          h.leave hrunning hreturned (ne_owner howner) hrun.symm⟩

/-- **Every step keeps the order.** -/
theorem Ordered.step (hprogram : ∀ c, (program c).Section)
    (h : m.Ordered program s₀ calls order t) (hstep : m.step program i = some m') :
    ∃ order' t', order <+: order' ∧ m'.Ordered program s₀ calls order' t' := by
  unfold Machine.step at hstep
  cases hrunning : (m.thread i).running with
  | none =>
    have howner : ∀ d, m.owner ≠ some (i, d) := fun d hd => by
      obtain ⟨c, p, hsome, -⟩ := h.holder i d hd
      rw [hrunning] at hsome
      cases hsome
    cases hcalls : (m.thread i).calls with
    | nil =>
      simp only [hrunning, hcalls] at hstep
      cases hstep
    | cons c rest =>
      simp only [hrunning, hcalls] at hstep
      cases hstep
      obtain ⟨next, hnext, -⟩ := hprogram c
      refine ⟨order, t, List.prefix_rfl, h.apart ?_ ?_ howner ?_⟩
      · simp only [Thread.returned, hrunning, hnext]
      · simp [Thread.allCalls, hrunning, hcalls]
      · rintro c' p ⟨⟩
        exact Or.inl rfl
  | some cp =>
    obtain ⟨c, p⟩ := cp
    obtain ⟨first, hfirst, -⟩ := hprogram c
    cases p with
    | done r =>
      simp only [hrunning] at hstep
      cases hstep
      refine ⟨order, t, List.prefix_rfl, h.apart ?_ ?_ (fun d hd => ?_) ?_⟩
      · simp only [Thread.returned, hrunning]
      · simp [Thread.allCalls, hrunning]
      · cases (h.inside_of_owner hrunning hd).1
      · rintro c' p ⟨⟩
    | access effect next =>
      simp only [hrunning] at hstep
      cases hstep
      obtain ⟨d, hd, hp, hrun⟩ := h.owner_of_running hrunning (by rw [hfirst]; simp) (by simp)
      cases hp with
      | access hnext =>
        have hrun' : (next m.store).run (effect m.store) = (program c).run t := hrun
        have hstay := h.stay hrunning (by simp) (ne_owner hd) (hnext m.store) hrun'
        rw [← hd] at hstay
        exact ⟨order, t, List.prefix_rfl, hstay⟩
    | lock next =>
      simp only [hrunning] at hstep
      cases howner : m.owner with
      | none =>
        simp only [howner] at hstep
        cases hstep
        exact ⟨order, t, List.prefix_rfl, h.enter hprogram hrunning howner⟩
      | some jd =>
        obtain ⟨j, d⟩ := jd
        simp only [howner] at hstep
        split at hstep
        · rename_i hj
          subst hj
          cases hstep
          obtain ⟨hp, hrun⟩ := h.inside_of_owner hrunning howner
          cases hp with
          | lock hnext =>
            exact ⟨order, t, List.prefix_rfl,
              h.stay hrunning (by simp) (ne_owner howner) hnext hrun⟩
        · cases hstep
    | unlock next =>
      simp only [hrunning] at hstep
      obtain ⟨d, hd, hp, hrun⟩ := h.owner_of_running hrunning (by rw [hfirst]; simp) (by simp)
      simp only [hd, if_true] at hstep
      cases hstep
      exact h.unlock hrunning hd hp hrun

/-- A run only adds to the order. -/
theorem Ordered.run (hprogram : ∀ c, (program c).Section)
    (h : m.Ordered program s₀ calls order t) (schedule : List ι) :
    ∃ order' t', order <+: order' ∧
      (m.run program schedule).Ordered program s₀ calls order' t' := by
  induction schedule generalizing m order t with
  | nil => exact ⟨order, t, List.prefix_rfl, h⟩
  | cons i schedule ih =>
    cases hstep : m.step program i with
    | none =>
      have hrun : m.run program (i :: schedule) = m.run program schedule := by
        simp [Machine.run, hstep]
      rw [hrun]
      exact ih h
    | some m' =>
      have hrun : m.run program (i :: schedule) = m'.run program schedule := by
        simp [Machine.run, hstep]
      obtain ⟨order₁, t₁, hle, h₁⟩ := h.step hprogram hstep
      obtain ⟨order₂, t₂, hle', h₂⟩ := ih h₁
      rw [hrun]
      exact ⟨order₂, t₂, hle.trans hle', h₂⟩

/-- **Sections exclude each other**, whatever the schedule. -/
theorem ordered_run (hprogram : ∀ c, (program c).Section) (s₀ : σ) (calls : ι → List κ)
    (schedule : List ι) :
    ∃ order t, ((start s₀ calls).run program schedule).Ordered program s₀ calls order t := by
  obtain ⟨order, t, -, h⟩ := (ordered_start s₀ calls).run hprogram schedule
  exact ⟨order, t, h⟩

/-- **Nobody waits for ever**: while something is left to do, some thread has a step. -/
theorem Ordered.progress (hprogram : ∀ c, (program c).Section)
    (h : m.Ordered program s₀ calls order t) (hleft : ¬ (m.thread i).Finished) :
    ∃ j m', m.step program j = some m' := by
  cases howner : m.owner with
  | some jd =>
    -- the owner has a step
    obtain ⟨j, d⟩ := jd
    obtain ⟨c, p, hrunning, hp, -⟩ := h.holder j d howner
    refine ⟨j, ?_⟩
    unfold Machine.step
    cases hp <;> simp only [hrunning, howner, if_true] <;> exact ⟨_, rfl⟩
  | none =>
    -- the mutex is free for whoever has not finished
    refine ⟨i, ?_⟩
    unfold Machine.step
    cases hrunning : (m.thread i).running with
    | none =>
      cases hcalls : (m.thread i).calls with
      | nil => exact absurd ⟨hcalls, hrunning⟩ hleft
      | cons c rest => exact ⟨_, rfl⟩
    | some cp =>
      obtain ⟨c, p⟩ := cp
      obtain ⟨first, hfirst, -⟩ := hprogram c
      have hnobody : ∀ d, m.owner ≠ some (i, d) := fun d hd => by
        rw [howner] at hd
        cases hd
      rcases h.outside i hnobody c p hrunning with rfl | ⟨r, rfl⟩
      · simp only [hfirst, howner]
        exact ⟨_, rfl⟩
      · exact ⟨_, rfl⟩

/-- **When all threads are through**, the mutex is free and the order holds all calls. -/
theorem Ordered.quiescent (h : m.Ordered program s₀ calls order t)
    (hfinished : ∀ i, (m.thread i).Finished) :
    m.owner = none ∧ ∀ i, (order.filter fun e => e.1 = i).map (fun e => e.2.1) = calls i := by
  constructor
  · refine Option.eq_none_iff_forall_ne_some.2 fun ⟨i, d⟩ hd => ?_
    obtain ⟨c, p, hrunning, -⟩ := h.holder i d hd
    rw [(hfinished i).2] at hrunning
    cases hrunning
  · intro i
    obtain ⟨hcalls, hrunning⟩ := hfinished i
    have hreturned := congrArg (List.map Prod.fst) (h.returned i)
    rw [List.map_map] at hreturned
    rw [← h.calls i, Thread.allCalls, hcalls, hrunning]
    simpa [Thread.returned, hrunning, Function.comp_def] using hreturned

end Machine

-- from here on a program that runs alone is rewritten by `Program.run_eqs`, not unfolded
attribute [irreducible] Program.run

end SignalProtocol
