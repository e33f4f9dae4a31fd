/-
# Session records (`session_record.c`)

A record holds the current state of the conversation with one address and the states it
replaced, most recent first.  `session_record_create` and every later function leave a current
state in place, so the pointer that the C code tests is never null here.

A record becomes the list of its states, `SessionRecord.states`, with the current one first:
archiving conses a new state, promoting one moves it to the front, and both cut the rest at
the limit of 40.
-/
import SignalProtocol.Storage

namespace SignalProtocol

variable {Priv Pub B : Type}

/-- `Textsecure__RecordStructure`. -/
structure RecordStructure (B : Type) where
  currentSession : Option (SessionStructure B)
  previousSessions : List (SessionStructure B)
  deriving DecidableEq

/-- `session_record`. -/
structure SessionRecord (Priv Pub B : Type) where
  state : SessionState Priv Pub B
  previousStates : List (SessionState Priv Pub B)
  isFresh : Bool
  deriving DecidableEq

/-- `ARCHIVED_STATES_MAX_LENGTH`. -/
def archivedStatesMaxLength : Nat := 40

namespace SessionRecord

/-- `session_record_create`: without a state the record gets an empty one and is fresh. -/
def create : Option (SessionState Priv Pub B) → SessionRecord Priv Pub B
  | none => ⟨SessionState.create, [], true⟩
  | some state => ⟨state, [], false⟩

/-- All states of the record, the current one first. -/
def states (record : SessionRecord Priv Pub B) : List (SessionState Priv Pub B) :=
  record.state :: record.previousStates

/-- `session_record_serialize`. -/
def serialize (P : Provider Priv Pub B) (record : SessionRecord Priv Pub B) :
    RecordStructure B where
  currentSession := some (record.state.serialize P)
  previousSessions := record.previousStates.map (SessionState.serialize P)

/-- `session_record_has_session_state`: some state has this version and base key. -/
def hasSessionState [DecidableEq Pub] (version : UInt32) (aliceBaseKey : Pub)
    (record : SessionRecord Priv Pub B) : Bool :=
  record.states.any fun state =>
    state.sessionVersion = version ∧ state.aliceBaseKey = some aliceBaseKey

/-- `session_record_set_state`. -/
def setState (state : SessionState Priv Pub B) (record : SessionRecord Priv Pub B) :
    SessionRecord Priv Pub B :=
  { record with state := state }

/-- `session_record_promote_state`: the current state goes to the head of the previous ones,
of which the first 40 stay. -/
def promoteState (promoted : SessionState Priv Pub B) (record : SessionRecord Priv Pub B) :
    SessionRecord Priv Pub B :=
  { record with
    state := promoted
    previousStates := (record.state :: record.previousStates).take archivedStatesMaxLength }

/-- `session_record_archive_current_state`: promote an empty state. -/
def archiveCurrentState (record : SessionRecord Priv Pub B) : SessionRecord Priv Pub B :=
  record.promoteState SessionState.create

/-- `session_record_get_previous_states_remove` of the node at a position. -/
def removePreviousState (i : Nat) (record : SessionRecord Priv Pub B) :
    SessionRecord Priv Pub B :=
  { record with previousStates := record.previousStates.eraseIdx i }

/-- A base key that no state has is not found. -/
theorem not_hasSessionState [DecidableEq Pub] {record : SessionRecord Priv Pub B} {base : Pub}
    (h : ∀ state ∈ record.states, state.aliceBaseKey ≠ some base) (version : UInt32) :
    ¬ record.hasSessionState version base = true := by
  intro hknown
  obtain ⟨state, hstate, hboth⟩ := List.any_eq_true.1 hknown
  exact h state hstate (of_decide_eq_true hboth).2

end SessionRecord

/-- `session_record_deserialize`. -/
def RecordStructure.deserialize (P : Provider Priv Pub B) (s : RecordStructure B) :
    Except SgError (SessionRecord Priv Pub B) := do
  let current ← decodeOptional (SessionStructure.deserialize P) s.currentSession
  let previous ← s.previousSessions.mapM (SessionStructure.deserialize P)
  return { SessionRecord.create current with previousStates := previous, isFresh := false }

namespace SessionRecord

variable {P : Provider Priv Pub B}

/-- Every state of the record is storable. -/
def Storable (P : Provider Priv Pub B) (record : SessionRecord Priv Pub B) : Prop :=
  ∀ state ∈ record.states, state.Storable P

/-- Every state of the record is read back as it is. -/
def Readable (P : Provider Priv Pub B) (record : SessionRecord Priv Pub B) : Prop :=
  ∀ state ∈ record.states, state.Readable P

/-- **Storage gives a record back**, no longer fresh. -/
theorem Readable.deserialize {record : SessionRecord Priv Pub B} (h : record.Readable P) :
    (record.serialize P).deserialize P = .ok { record with isFresh := false } := by
  have hcur : decodeOptional (SessionStructure.deserialize P) (some (record.state.serialize P)) =
      .ok (some record.state) :=
    decodeOptional_map (o := some record.state) fun state hs =>
      (h state (by cases hs; simp [states])).copy
  have hprev : (record.previousStates.map (SessionState.serialize P)).mapM
      (SessionStructure.deserialize P) = .ok record.previousStates :=
    mapM_map_ok fun state hs => (h state (List.mem_cons_of_mem _ hs)).copy
  simp only [serialize, RecordStructure.deserialize, hcur, hprev]
  rfl

/-- **Storage gives a storable record back**, no longer fresh. -/
theorem deserialize_serialize {record : SessionRecord Priv Pub B} (h : record.Storable P) :
    (record.serialize P).deserialize P = .ok { record with isFresh := false } :=
  Readable.deserialize fun state hs => (h state hs).readable

theorem readable_create : (create none : SessionRecord Priv Pub B).Readable P := by
  intro state hstate
  rw [List.mem_singleton.1 hstate]
  exact SessionState.storable_create.readable

/-- What holds of all states still does if it holds of the new current one. -/
theorem forall_setState {Q : SessionState Priv Pub B → Prop} {record : SessionRecord Priv Pub B}
    {state' : SessionState Priv Pub B} (h : ∀ state ∈ record.states, Q state) (hs : Q state') :
    ∀ state ∈ (record.setState state').states, Q state :=
  List.forall_mem_cons.2 ⟨hs, fun t ht => h t (List.mem_cons_of_mem _ ht)⟩

theorem Readable.setState {record : SessionRecord Priv Pub B} (h : record.Readable P)
    {state : SessionState Priv Pub B} (hs : state.Readable P) :
    (record.setState state).Readable P := forall_setState h hs

end SessionRecord

/-- Every state of a record that was read is new or was read itself. -/
theorem RecordStructure.origin_of_deserialize {P : Provider Priv Pub B} {s : RecordStructure B}
    {record : SessionRecord Priv Pub B} (h : s.deserialize P = .ok record)
    {state : SessionState Priv Pub B} (hstate : state ∈ record.states) :
    state = SessionState.create ∨
      ∃ a, (a ∈ s.currentSession ∨ a ∈ s.previousSessions) ∧ a.deserialize P = .ok state := by
  obtain ⟨current, hcurrent, h⟩ := Op.exists_of_bind_eq_ok h
  obtain ⟨previous, hprevious, h⟩ := Op.exists_of_bind_eq_ok h
  cases h
  rcases List.mem_cons.1 hstate with rfl | hstate
  · cases current with
    | none => exact Or.inl rfl
    | some current =>
      obtain ⟨a, ha, hread⟩ := exists_of_decodeOptional hcurrent rfl
      exact Or.inr ⟨a, Or.inl ha, hread⟩
  · obtain ⟨a, ha, hread⟩ := Op.exists_of_mem_mapM hprevious hstate
    exact Or.inr ⟨a, Or.inr ha, hread⟩

/-- **A record that was read is read back as it is.** -/
theorem RecordStructure.readable_of_deserialize {P : Provider Priv Pub B} {s : RecordStructure B}
    {record : SessionRecord Priv Pub B} (h : s.deserialize P = .ok record) :
    record.Readable P := by
  intro state hstate
  rcases origin_of_deserialize h hstate with rfl | ⟨a, -, hread⟩
  · exact SessionState.storable_create.readable
  · exact SessionStructure.readable_of_deserialize hread

end SignalProtocol
