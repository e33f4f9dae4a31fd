/-
# The key exchange in outline

Each of two parties may offer a key exchange once.  An offer is answered with the keys of the
answering party's own offer if that is still pending, and with new keys otherwise; either way the
answering party has its session.  An answer is taken while the offer is pending, and dropped later.

What a session consists of is here only which keys of either party went into it, and a message is
only what it is about.  That leaves finitely many configurations, and `configurations` lists them.
Three kinds of runs lead to agreement: an offer is answered; a party offers after it has answered;
both offers cross, and each party takes the other's offer as the answer to its own.  In the third
kind the answers are superfluous.  They do harm if one is faster than the offer that its sender
made before: the receiver takes it as an answer and has no pending offer left when the other's
offer arrives, so that it answers with new keys, which the other one no longer takes.
-/
import SignalProtocol.Ladder

namespace SignalProtocol

/-! ## 1. Configurations -/

/-- Which keys of a party: those it offered, or those it generated to answer with. -/
inductive Keys where
  | offered
  | answering
  deriving DecidableEq, Repr

/-- What a message says: an offer, or an answer with certain keys of its sender. -/
inductive Note where
  | initiate
  | response (keys : Keys)
  deriving DecidableEq, Repr

/-- One party: whether it has made its offer, whether the offer is pending, whether it was handed
the peer's offer, the keys of its session (its own, the peer's), and the messages on their way to
it. -/
structure View where
  offered : Bool
  pending : Bool
  answered : Bool
  session : Option (Keys × Keys)
  inbox : List Note
  deriving DecidableEq, Repr

/-- Both parties. -/
structure Joint where
  alice : View
  bob : View
  deriving DecidableEq, Repr

/-- What can happen: a party makes its offer, or is handed a message at some position. -/
inductive HandshakeAct where
  | process (x : Party)
  | deliver (y : Party) (i : Nat)
  deriving DecidableEq, Repr

namespace View

/-- A message is on its way. -/
def send (note : Note) (v : View) : View := { v with inbox := v.inbox ++ [note] }

/-- Make the offer. -/
def offer (v : View) : View := { v with offered := true, pending := true }

/-- The message at a position has arrived. -/
def take (i : Nat) (v : View) : View := { v with inbox := v.inbox.eraseIdx i }

/-- The session is there, and nothing is pending any more. -/
def agree (own theirs : Keys) (v : View) : View :=
  { v with pending := false, session := some (own, theirs) }

/-- The keys with which an offer is answered. -/
def answerKeys (v : View) : Keys := if v.pending then .offered else .answering

/-- Answer the peer's offer. -/
def answer (v : View) : View := { v.agree v.answerKeys .offered with answered := true }

/-- Take an answer, while the offer is pending. -/
def accept (keys : Keys) (v : View) : View := if v.pending then v.agree .offered keys else v

end View

namespace Joint

/-- The view of a party. -/
def view (s : Joint) : Party → View
  | .alice => s.alice
  | .bob => s.bob

/-- Change the view of a party. -/
def modify (s : Joint) : Party → (View → View) → Joint
  | .alice, f => { s with alice := f s.alice }
  | .bob, f => { s with bob := f s.bob }

@[simp] theorem view_modify_self (s : Joint) (x : Party) (f : View → View) :
    (s.modify x f).view x = f (s.view x) := by cases x <;> rfl

@[simp] theorem view_modify_other (s : Joint) (x : Party) (f : View → View) :
    (s.modify x f).view x.other = s.view x.other := by cases x <;> rfl

@[simp] theorem view_modify_other' (s : Joint) (x : Party) (f : View → View) :
    (s.modify x.other f).view x = s.view x := by cases x <;> rfl

/-- Nothing has happened. -/
def start : Joint := ⟨⟨false, false, false, none, []⟩, ⟨false, false, false, none, []⟩⟩

/-- **One act.** -/
def step (s : Joint) : HandshakeAct → Joint
  | .process x =>
    if (s.view x).offered then s
    else (s.modify x View.offer).modify x.other (View.send .initiate)
  | .deliver y i =>
    match (s.view y).inbox[i]? with
    | none => s
    | some .initiate =>
      (s.modify y fun v => (v.take i).answer).modify y.other
        (View.send (.response (s.view y).answerKeys))
    | some (.response keys) => s.modify y fun v => (v.take i).accept keys

/-- **An answer overtakes the offer that its sender made before**: it has the keys of that offer,
and the offer is still on its way. -/
def Overtakes (s : Joint) : HandshakeAct → Prop
  | .process _ => False
  | .deliver y i => (s.view y).inbox[i]? = some (.response .offered) ∧ .initiate ∈ (s.view y).inbox

instance (s : Joint) : DecidablePred s.Overtakes
  | .process _ => inferInstanceAs (Decidable False)
  | .deliver _ _ => inferInstanceAs (Decidable (_ ∧ _))

/-- Nothing is on its way, and a session was offered. -/
def Finished (s : Joint) : Prop :=
  s.alice.inbox = [] ∧ s.bob.inbox = [] ∧ (s.alice.offered = true ∨ s.bob.offered = true)

/-- **Agreement**: both have a session, from the same keys. -/
def Agreed (s : Joint) : Prop :=
  ∃ a ∈ [Keys.offered, .answering], ∃ b ∈ [Keys.offered, .answering],
    s.alice.session = some (a, b) ∧ s.bob.session = some (b, a)

instance (s : Joint) : Decidable s.Finished := inferInstanceAs (Decidable (_ ∧ _ ∧ _))

instance (s : Joint) : Decidable s.Agreed :=
  inferInstanceAs (Decidable (∃ a ∈ [Keys.offered, .answering], _))

/-! ## 2. All configurations -/

/-- The acts that can do something while no more than two messages are on their way to anyone. -/
def acts : List HandshakeAct :=
  [.process .alice, .process .bob, .deliver .alice 0, .deliver .alice 1, .deliver .bob 0,
    .deliver .bob 1]

/-- What can follow without overtaking. -/
def successors (s : Joint) : List Joint :=
  (acts.filter fun act => ¬ s.Overtakes act).map s.step

/-- Some configurations, and what can follow them. -/
def extend (l : List Joint) : List Joint := (l ++ l.flatMap successors).dedup

/-- **All configurations** of runs in which nothing is overtaken: two offers and at most four
messages are six acts. -/
def configurations : List Joint := extend (extend (extend (extend (extend (extend [start])))))

/-- What is true of every configuration: those that follow are among them, at most two messages
are on their way to a party, the peer's offer arrives once, and **when everything has arrived, the
parties agree**. -/
theorem configurations_spec : ∀ s ∈ configurations,
    (∀ t ∈ s.successors, t ∈ configurations) ∧
      (∀ x ∈ [Party.alice, .bob], (s.view x).inbox.length ≤ 2 ∧
        (.initiate ∈ (s.view x).inbox → (s.view x).answered = false)) ∧
      (s.Finished → s.Agreed) := by
  decide +kernel

theorem mem_parties (x : Party) : x ∈ [Party.alice, .bob] := by cases x <;> decide

variable {s : Joint} {act : HandshakeAct}

/-- **One act** stays within the configurations. -/
theorem step_mem_configurations (hs : s ∈ configurations) (h : ¬ s.Overtakes act) :
    s.step act ∈ configurations := by
  have hmem : act ∈ acts → s.step act ∈ configurations := by
    intro hact
    refine (configurations_spec s hs).1 _ (List.mem_map_of_mem (List.mem_filter.2 ⟨hact, ?_⟩))
    simpa using h
  cases act with
  | process x => exact hmem (by cases x <;> decide)
  | deliver y i =>
    by_cases hi : i < 2
    · refine hmem ?_
      obtain rfl | rfl : i = 0 ∨ i = 1 := by omega
      all_goals cases y <;> decide
    · -- there is no message at this position
      have hnone : (s.view y).inbox[i]? = none := by
        have := ((configurations_spec s hs).2.1 y (mem_parties y)).1
        exact List.getElem?_eq_none (by omega)
      have hstep : s.step (.deliver y i) = s := by rw [step, hnone]
      rwa [hstep]

theorem mem_extend {l : List Joint} (h : s ∈ l) : s ∈ extend l :=
  List.mem_dedup.2 (List.mem_append_left _ h)

theorem start_mem_configurations : start ∈ configurations :=
  mem_extend (mem_extend (mem_extend (mem_extend (mem_extend (mem_extend List.mem_cons_self)))))

end Joint

end SignalProtocol
