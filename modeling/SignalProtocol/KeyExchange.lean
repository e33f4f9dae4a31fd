/-
# Key exchange messages, one call at a time

`session_builder_process_key_exchange_message` has two halves.  It first reads: it checks the
identity, loads the record, finds the parameters and initialises a session from them.  Then
it writes, and some of what may still fail comes after the first write.

* `agreedSession` is the first half, `writeAgreed` the second, and
  `processKeyExchangeMessage_eq` puts them together.
* `agreedSession_iff` says what the first half has found: the new session, and whether its keys
  are those of a pending key exchange or fresh.

All of it is for arbitrary stores.  A new session is always initialised in an empty state,
since a record that is not fresh is archived first.
-/
import SignalProtocol.Setup

namespace SignalProtocol

variable {Addr Priv Pub B : Type}

/-! ## 1. Calls that only draw -/

/-- The stores are as before; the random source may have moved on. -/
structure OnlyDraws (w w' : World Addr Priv Pub B) : Prop where
  stores : w'.toStore = w.toStore
  drawn : w.drawn ≤ w'.drawn

instance : IsPreorder (World Addr Priv Pub B) OnlyDraws where
  refl _ := ⟨rfl, le_rfl⟩
  trans _ _ _ h h' := ⟨h'.stores.trans h.stores, h.drawn.trans h'.drawn⟩

theorem OnlyDraws.eq {w w' : World Addr Priv Pub B} (h : OnlyDraws w w') : w' = w.at w'.drawn := by
  obtain ⟨hs, -⟩ := h
  cases w
  cases w'
  cases hs
  rfl

theorem onlyDraws_atRandom {α : Type} {x : Op SgError Nat α} (hx : Op.Moves (· ≤ ·) x) :
    Op.Moves OnlyDraws (atRandom x : Op SgError (World Addr Priv Pub B) α) :=
  fun w => ⟨rfl, hx w.drawn⟩

/-- A part of a call that only draws, seen at one world. -/
theorem OnlyDraws.of_moves {α : Type} {x : Op SgError (World Addr Priv Pub B) α}
    {w w' : World Addr Priv Pub B} {r : Except SgError α} (hx : Op.Moves OnlyDraws x)
    (h : x w = (r, w')) : OnlyDraws w w' := by
  have hw := hx w
  rw [h] at hw
  exact hw

/-- What a random operation that succeeds has drawn. -/
theorem atRandom_ok {α : Type} {x : Op SgError Nat α} {w w' : World Addr Priv Pub B} {a : α}
    (h : atRandom x w = (.ok a, w')) : x w.drawn = (.ok a, w'.drawn) := by
  rw [atRandom_apply] at h
  injection h with ha hw
  subst hw
  rw [← ha]
  rfl

/-- One draw: the three uses of the random source are all of this form. -/
theorem atRandom_draw {α β : Type} (source : Nat → Except SgError α) (f : α → β)
    (w : World Addr Priv Pub B) :
    atRandom (draw source >>= fun a => pure (f a)) w =
      ((source w.drawn).map f, w.at (w.drawn + 1)) := by
  rw [atRandom_apply, Op.bind_apply, draw]
  rcases source w.drawn with e | a <;> rfl

theorem atRandom_draw_ok {α β : Type} {source : Nat → Except SgError α} {f : α → β}
    {w w' : World Addr Priv Pub B} {b : β}
    (h : atRandom (draw source >>= fun a => pure (f a)) w = (.ok b, w')) :
    ∃ a, source w.drawn = .ok a ∧ b = f a ∧ w' = w.at (w.drawn + 1) := by
  rw [atRandom_draw] at h
  injection h with hb hw
  cases ha : source w.drawn with
  | error e => rw [ha] at hb; cases hb
  | ok a =>
    rw [ha] at hb
    cases hb
    exact ⟨a, rfl, rfl, hw.symm⟩

theorem stores_of_atRandom {α : Type} {x : Op SgError Nat α} {w w' : World Addr Priv Pub B}
    {r : Except SgError α} (h : atRandom x w = (r, w')) : w'.toStore = w.toStore := by
  rw [atRandom_apply] at h
  cases h
  rfl

/-! Every random operation moves the source forwards. -/

theorem moves_draw {α : Type} (source : Nat → Except SgError α) :
    Op.Moves (· ≤ ·) (draw source) := fun n => Nat.le_succ n

theorem moves_generate (P : Provider Priv Pub B) (rng : Rng Priv B) :
    Op.Moves (· ≤ ·) (curveGenerateKeyPair P rng) := (moves_draw _).bind fun _ => .pure _

theorem moves_sign (P : Provider Priv Pub B) (rng : Rng Priv B) (key : Priv) (message : B) :
    Op.Moves (· ≤ ·) (curveCalculateSignature P rng key message) :=
  (moves_draw _).bind fun _ => .pure _

theorem moves_symmetricInitialize [LinearOrder Pub] (P : Provider Priv Pub B) (rng : Rng Priv B)
    (state : SessionState Priv Pub B) (p : SymmetricParameters Priv Pub) :
    Op.Moves (· ≤ ·) (ratchetingSessionSymmetricInitialize P rng state p) := by
  unfold ratchetingSessionSymmetricInitialize
  split
  · exact (moves_generate P rng).bind fun _ => .pure _
  · exact .pure _

theorem onlyDraws_load (P : Provider Priv Pub B) (address : Addr) :
    Op.Moves OnlyDraws (signalProtocolSessionLoadSession P address) := fun w => by
  rw [load_eq]
  exact refl_of OnlyDraws w

/-- The world with a record stored for an address. -/
def World.storeRecord [DecidableEq Addr] (P : Provider Priv Pub B) (address : Addr)
    (record : SessionRecord Priv Pub B) (w : World Addr Priv Pub B) : World Addr Priv Pub B :=
  { w with sessions := Function.update w.sessions address (some (record.serialize P)) }

theorem storeSession_apply [DecidableEq Addr] (P : Provider Priv Pub B) (address : Addr)
    (record : SessionRecord Priv Pub B) (w : World Addr Priv Pub B) :
    signalProtocolSessionStoreSession P address record w =
      (.ok (), w.storeRecord P address record) := rfl

theorem saveIdentity_apply [DecidableEq Addr] (address : Addr) (key : Pub)
    (w : World Addr Priv Pub B) :
    signalProtocolIdentitySaveIdentity address key w = (.ok (), w.saveIdentity address key) := rfl

/-! ## 2. Records with a pending key exchange -/

theorem record_of_sessions {P : Provider Priv Pub B} {address : Addr} {w : World Addr Priv Pub B}
    {stored : RecordStructure B} (h : w.sessions address = some stored) :
    w.record P address = stored.deserialize P := by
  unfold World.record signalProtocolSessionLoadSession
  rw [Op.get_bind_apply, h]
  exact congrArg Prod.fst (Op.ofExcept_apply ..)

/-- A record whose state is empty and carries nothing is all that a store without an entry
gives; any other record has been stored, and is not fresh. -/
theorem record_cases {P : Provider Priv Pub B} {address : Addr} {w : World Addr Priv Pub B}
    {record : SessionRecord Priv Pub B} (h : w.record P address = .ok record) :
    (w.sessions address = none ∧ record = SessionRecord.create none) ∨
      (record.isFresh = false ∧ ∃ stored, w.sessions address = some stored ∧
        stored.deserialize P = .ok record) := by
  cases hs : w.sessions address with
  | none =>
    unfold World.record signalProtocolSessionLoadSession at h
    rw [Op.get_bind_apply, hs] at h
    cases h
    exact Or.inl ⟨rfl, rfl⟩
  | some stored =>
    rw [record_of_sessions hs] at h
    refine Or.inr ⟨?_, stored, rfl, h⟩
    unfold RecordStructure.deserialize at h
    cases hc : decodeOptional (SessionStructure.deserialize P) stored.currentSession with
    | error e =>
      rw [hc] at h
      cases h
    | ok current =>
      rw [hc] at h
      cases hp : stored.previousSessions.mapM (SessionStructure.deserialize P) with
      | error e =>
        rw [hp] at h
        cases h
      | ok previous =>
        rw [hp] at h
        cases h
        rfl

/-- **A record that was loaded can be stored and loaded again.** -/
theorem readable_of_record {P : Provider Priv Pub B} {address : Addr} {w : World Addr Priv Pub B}
    {record : SessionRecord Priv Pub B} (h : w.record P address = .ok record) :
    record.Readable P := by
  rcases record_cases h with ⟨-, rfl⟩ | ⟨-, stored, -, hread⟩
  · exact SessionRecord.readable_create
  · exact RecordStructure.readable_of_deserialize hread

/-- What is stored is loaded again. -/
theorem record_storeRecord [DecidableEq Addr] {P : Provider Priv Pub B} {address : Addr}
    (w : World Addr Priv Pub B) {record : SessionRecord Priv Pub B} (h : record.Readable P) :
    (w.storeRecord P address record).record P address = .ok { record with isFresh := false } := by
  have hs : (w.storeRecord P address record).sessions address = some (record.serialize P) :=
    Function.update_self ..
  rw [record_of_sessions hs, h.deserialize]

theorem mem_previousStates_makeRoom {record : SessionRecord Priv Pub B}
    {state : SessionState Priv Pub B} (h : state ∈ record.makeRoom.previousStates) :
    state ∈ record.states := by
  unfold SessionRecord.makeRoom at h
  split at h
  · exact List.mem_cons_of_mem _ h
  · exact List.mem_of_mem_take h

/-- What holds of all states still does behind a new one, for which some other may be
dropped. -/
theorem SessionRecord.forall_front {Q : SessionState Priv Pub B → Prop}
    {record : SessionRecord Priv Pub B} {state' : SessionState Priv Pub B}
    (h : ∀ state ∈ record.states, Q state) (hs : Q state') :
    ∀ state ∈ (record.makeRoom.setState state').states, Q state :=
  List.forall_mem_cons.2 ⟨hs, fun t ht => h t (mem_previousStates_makeRoom ht)⟩

/-- A new session in front of what can be read. -/
theorem SessionRecord.Readable.front {P : Provider Priv Pub B} {record : SessionRecord Priv Pub B}
    (h : record.Readable P) (s : Session Priv Pub B) :
    (record.makeRoom.setState (s.toState P)).Readable P :=
  forall_front h (Session.storable_toState P s).readable

/-- **A new session starts in an empty state.** -/
theorem state_makeRoom {P : Provider Priv Pub B} {address : Addr} {w : World Addr Priv Pub B}
    {record : SessionRecord Priv Pub B} (h : w.record P address = .ok record) :
    record.makeRoom.state = SessionState.create := by
  rcases record_cases h with ⟨-, rfl⟩ | ⟨hf, -⟩
  · rfl
  · unfold SessionRecord.makeRoom
    rw [if_neg (by simp [hf])]
    rfl

theorem map_of_mapM_map {α β γ : Type} {f : α → Except SgError β} {g : β → α} {p : β → γ}
    (h : ∀ b c, f (g b) = .ok c → p c = p b) :
    ∀ {l l' : List β}, (l.map g).mapM f = .ok l' → l'.map p = l.map p
  | [], l', hl => by
    cases hl
    rfl
  | b :: l, l', hl => by
    rw [List.map_cons, List.mapM_cons] at hl
    obtain ⟨c, hc, hl⟩ := Op.exists_of_bind_eq_ok hl
    obtain ⟨rest, hrest, hl⟩ := Op.exists_of_bind_eq_ok hl
    cases hl
    rw [List.map_cons, List.map_cons, h b c hc, map_of_mapM_map h hrest]

/-- What a session state is for, apart from its keys: whom it talks to, the key exchange that it
carries, and the base key it was set up with. -/
structure StateLabel (Priv Pub : Type) where
  remoteIdentity : Option Pub
  pending : Option (PendingKeyExchange Priv Pub)
  aliceBaseKey : Option Pub

/-- The label of a state. -/
def SessionState.label (state : SessionState Priv Pub B) : StateLabel Priv Pub :=
  ⟨state.remoteIdentityPublic, state.pendingKeyExchange, state.aliceBaseKey⟩

/-- A stored label is read back, whatever the rest of the state is. -/
theorem label_of_deserialize {P : Provider Priv Pub B} {state state' : SessionState Priv Pub B}
    (h : (state.serialize P).deserialize P = .ok state') : state'.label = state.label := by
  have hexchange : decodeOptional (PendingKeyExchangeStructure.deserialize P)
      (state.pendingKeyExchange.map (PendingKeyExchange.serialize P)) =
        .ok state.pendingKeyExchange :=
    decodeOptional_map fun e _ => PendingKeyExchange.deserialize_serialize e
  obtain ⟨_, -, h⟩ := Op.exists_of_bind_eq_ok h
  obtain ⟨remote, hremote, h⟩ := Op.exists_of_bind_eq_ok h
  obtain ⟨_, -, h⟩ := Op.exists_of_bind_eq_ok h
  obtain ⟨_, -, h⟩ := Op.exists_of_bind_eq_ok h
  obtain ⟨_, -, h⟩ := Op.exists_of_bind_eq_ok h
  obtain ⟨pending, hpending, h⟩ := Op.exists_of_bind_eq_ok h
  obtain ⟨_, -, h⟩ := Op.exists_of_bind_eq_ok h
  obtain ⟨base, hbase, h⟩ := Op.exists_of_bind_eq_ok h
  cases h
  cases hremote.symm.trans (decodePoint_optional _)
  cases hpending.symm.trans hexchange
  cases hbase.symm.trans (decodePoint_optional _)
  rfl

/-- The labels of a record, current state first. -/
def SessionRecord.labels (record : SessionRecord Priv Pub B) : List (StateLabel Priv Pub) :=
  record.states.map SessionState.label

theorem labels_of_deserialize {P : Provider Priv Pub B} {record record' : SessionRecord Priv Pub B}
    (h : (record.serialize P).deserialize P = .ok record') : record'.labels = record.labels := by
  obtain ⟨current, hcurrent, h⟩ := Op.exists_of_bind_eq_ok h
  obtain ⟨previous, hprevious, h⟩ := Op.exists_of_bind_eq_ok h
  obtain ⟨state, hstate, hcurrent⟩ := Op.exists_of_bind_eq_ok hcurrent
  cases hcurrent
  cases h
  have hp : previous.map SessionState.label = record.previousStates.map SessionState.label :=
    map_of_mapM_map (fun _ _ => label_of_deserialize) hprevious
  show state.label :: _ = record.state.label :: _
  rw [label_of_deserialize hstate]
  exact congrArg _ hp

/-- The pending key exchanges of a record, current state first. -/
def SessionRecord.pendings (record : SessionRecord Priv Pub B) :
    List (Option (PendingKeyExchange Priv Pub)) :=
  record.states.map SessionState.pendingKeyExchange

theorem SessionRecord.pendings_eq (record : SessionRecord Priv Pub B) :
    record.pendings = record.labels.map StateLabel.pending := by
  rw [labels, List.map_map]
  rfl

theorem pendings_of_deserialize {P : Provider Priv Pub B}
    {record record' : SessionRecord Priv Pub B}
    (h : (record.serialize P).deserialize P = .ok record') :
    record'.pendings = record.pendings := by
  rw [SessionRecord.pendings_eq, SessionRecord.pendings_eq, labels_of_deserialize h]

/-! ## 3. The session of a key exchange -/

section Symmetric

variable [LinearOrder Pub]

/-- The session `ratcheting_session_symmetric_initialize` sets up in an empty state.  The
sending ratchet key is used by the party that plays Alice. -/
def SymmetricParameters.session (P : Provider Priv Pub B) (p : SymmetricParameters Priv Pub)
    (sending : Option Priv) : Session Priv Pub B :=
  match sending with
  | some key => Session.alice P p.asAlice key
  | none => Session.bob P p.asBob

omit [LinearOrder Pub] in
/-- Whichever role it plays, the new session is at the start of its chains, knows the peer's
identity, and has no base key and nothing pending. -/
theorem SymmetricParameters.session_spec (P : Provider Priv Pub B)
    (p : SymmetricParameters Priv Pub) (sending : Option Priv) :
    (p.session P sending).InRange ∧ (p.session P sending).aliceBaseKey = none ∧
      (p.session P sending).pendingKeyExchange = none ∧
      (p.session P sending).remoteIdentity = p.theirIdentityKey := by
  cases sending with
  | none => exact ⟨Session.inRange_bob _, rfl, rfl, rfl⟩
  | some key => exact ⟨Session.inRange_alice _ _, rfl, rfl, rfl⟩

/-- How the initialisation comes by the sending ratchet key: Alice draws it, Bob has it. -/
def SymmetricParameters.Draws (rng : Rng Priv B) (p : SymmetricParameters Priv Pub) (n : Nat)
    (sending : Option Priv) : Prop :=
  match sending with
  | some key => ratchetingSessionSymmetricIsAlice p = true ∧ rng.privateKey n = .ok key
  | none => ratchetingSessionSymmetricIsAlice p = false

theorem symmetricInitialize_create {P : Provider Priv Pub B} {rng : Rng Priv B}
    {p : SymmetricParameters Priv Pub} {n : Nat} {sending : Option Priv}
    (h : p.Draws rng n sending) :
    ratchetingSessionSymmetricInitialize P rng SessionState.create p n =
      (.ok ((p.session P sending).toState P), n + sending.toList.length) := by
  unfold ratchetingSessionSymmetricInitialize
  cases sending with
  | none => rw [if_neg (by simpa [SymmetricParameters.Draws] using h)]; rfl
  | some key => rw [if_pos h.1, Session.aliceInitialize_of_ok _ h.2]; rfl

theorem symmetricInitialize_cases (P : Provider Priv Pub B) (rng : Rng Priv B)
    (p : SymmetricParameters Priv Pub) (n : Nat) :
    (∃ sending, p.Draws rng n sending) ∨
      ∃ e, (ratchetingSessionSymmetricInitialize P rng SessionState.create p n).1 = .error e := by
  cases hal : ratchetingSessionSymmetricIsAlice p with
  | false => exact Or.inl ⟨none, hal⟩
  | true =>
    cases hk : rng.privateKey n with
    | ok key => exact Or.inl ⟨some key, hal, hk⟩
    | error e =>
      refine Or.inr ⟨e, ?_⟩
      unfold ratchetingSessionSymmetricInitialize
      rw [if_pos hal, Session.aliceInitialize_of_error _ hk]

end Symmetric

/-! ## 4. Reading, then writing -/

section Exchange

variable [LinearOrder Pub]

/-- What the first half of a call has found: the record to store, its new current state, the
parameters it was initialised from and the flags of the answer. -/
structure Agreed (Priv Pub B : Type) where
  record : SessionRecord Priv Pub B
  parameters : SymmetricParameters Priv Pub
  flags : UInt32

/-- Initialise a session from parameters, as both kinds of message do. -/
def agree (ctx : SignalContext Addr Priv Pub B) (record : SessionRecord Priv Pub B)
    (result : SymmetricParameters Priv Pub × UInt32) :
    Op SgError (World Addr Priv Pub B) (Option (Agreed Priv Pub B)) := do
  let record := record.makeRoom
  let state ← atRandom <|
    ratchetingSessionSymmetricInitialize ctx.provider ctx.rng record.state result.1
  return some ⟨record.setState state, result.1, result.2⟩

/-- The first half of `session_builder_process_initiate`. -/
def agreedInitiate (ctx : SignalContext Addr Priv Pub B) (record : SessionRecord Priv Pub B)
    (message : KeyExchangeMessage Pub B) :
    Op SgError (World Addr Priv Pub B) (Option (Agreed Priv Pub B)) := do
  Op.ofExcept (message.checkSignature ctx.provider)
  let result ← initiateParameters ctx record.state message
  agree ctx record result

/-- The first half of `session_builder_process_response`; it finds nothing to do for the answer
to a simultaneous initiate that came too late. -/
def agreedResponse (ctx : SignalContext Addr Priv Pub B) (record : SessionRecord Priv Pub B)
    (message : KeyExchangeMessage Pub B) :
    Op SgError (World Addr Priv Pub B) (Option (Agreed Priv Pub B)) :=
  match record.state.pendingKeyExchange.filter fun p => p.sequence = message.sequence with
  | none => do
    Op.require (message.isResponseForSimultaneousInitiate = true) .staleKeyExchange
    return none
  | some pending => do
    let parameters ← Op.ofOption .inval (pending.parameters message)
    agree ctx record (parameters, 0)

/-- **The first half of `session_builder_process_key_exchange_message`**, up to its first
write. -/
def agreedSession (ctx : SignalContext Addr Priv Pub B) (remoteAddress : Addr)
    (message : KeyExchangeMessage Pub B) :
    Op SgError (World Addr Priv Pub B) (Option (Agreed Priv Pub B)) := do
  let trusted ← signalProtocolIdentityIsTrustedIdentity ctx remoteAddress message.identityKey
  Op.require (trusted = true) .untrustedIdentity
  let record ← signalProtocolSessionLoadSession ctx.provider remoteAddress
  if message.isInitiate then agreedInitiate ctx record message
    else agreedResponse ctx record message

theorem onlyDraws_agree (ctx : SignalContext Addr Priv Pub B) (record : SessionRecord Priv Pub B)
    (result : SymmetricParameters Priv Pub × UInt32) :
    Op.Moves OnlyDraws (agree ctx record result) :=
  (onlyDraws_atRandom (moves_symmetricInitialize _ _ _ _)).bind fun _ => .pure _

omit [LinearOrder Pub] in
theorem onlyDraws_initiateParameters (ctx : SignalContext Addr Priv Pub B)
    (state : SessionState Priv Pub B) (message : KeyExchangeMessage Pub B) :
    Op.Moves OnlyDraws (initiateParameters ctx state message) := by
  have hgen : Op.Moves OnlyDraws (atRandom (curveGenerateKeyPair ctx.provider ctx.rng) :
      Op SgError (World Addr Priv Pub B) _) := onlyDraws_atRandom (moves_generate _ _)
  cases hp : state.pendingKeyExchange with
  | none =>
    simp only [initiateParameters, Threaded.initiateParameters, hp, Program.run_eqs]
    exact .bind (fun w => refl_of OnlyDraws w) fun _ =>
      .bind hgen fun _ => .bind hgen fun _ => .pure _
  | some pending =>
    simp only [initiateParameters, Threaded.initiateParameters, hp, Program.run_eqs]
    exact .bind (.ofOption _ _) fun _ => .pure _

/-- **The first half writes nothing.** -/
theorem onlyDraws_agreedSession (ctx : SignalContext Addr Priv Pub B) (remoteAddress : Addr)
    (message : KeyExchangeMessage Pub B) :
    Op.Moves OnlyDraws (agreedSession ctx remoteAddress message) := by
  refine .bind (fun w => refl_of OnlyDraws w) fun _ => .bind (.require _ _) fun _ =>
    .bind (onlyDraws_load _ _) fun record => ?_
  split
  · exact .bind (.ofExcept _) fun _ =>
      .bind (onlyDraws_initiateParameters _ _ _) fun _ => onlyDraws_agree _ _ _
  · unfold agreedResponse
    split
    · exact .bind (.require _ _) fun _ => .pure _
    · exact .bind (.ofOption _ _) fun _ => onlyDraws_agree _ _ _

/-- **The keys of the new session**: those of the pending key exchange, or, when an initiate
finds none, two fresh key pairs.  The last argument is where the random source stands then. -/
inductive FoundKeys (ctx : SignalContext Addr Priv Pub B) (message : KeyExchangeMessage Pub B)
    (w : World Addr Priv Pub B) (record : SessionRecord Priv Pub B) :
    SymmetricParameters Priv Pub → UInt32 → Nat → Prop
  | fresh (base ratchet : Priv) (hi : message.isInitiate = true)
      (signed : message.checkSignature ctx.provider = .ok ())
      (none : record.state.pendingKeyExchange = none)
      (hbase : ctx.rng.privateKey w.drawn = .ok base)
      (hratchet : ctx.rng.privateKey (w.drawn + 1) = .ok ratchet) :
      FoundKeys ctx message w record
        ⟨w.identityKeyPair, ctx.provider.pair base, ctx.provider.pair ratchet,
          message.baseKey, message.ratchetKey, message.identityKey⟩
        keyExchangeResponseFlag (w.drawn + 2)
  | simultaneous (pending : PendingKeyExchange Priv Pub) (parameters : SymmetricParameters Priv Pub)
      (hi : message.isInitiate = true) (signed : message.checkSignature ctx.provider = .ok ())
      (some : record.state.pendingKeyExchange = some pending)
      (complete : pending.parameters message = .some parameters) :
      FoundKeys ctx message w record parameters
        (keyExchangeResponseFlag ||| keyExchangeSimultaneousInitiateFlag) w.drawn
  | response (pending : PendingKeyExchange Priv Pub) (parameters : SymmetricParameters Priv Pub)
      (hi : message.isInitiate = false) (some : record.state.pendingKeyExchange = some pending)
      (sequence : pending.sequence = message.sequence)
      (complete : pending.parameters message = .some parameters) :
      FoundKeys ctx message w record parameters 0 w.drawn

/-- **The message leads to an agreed session**: the sender is trusted, the record can be read,
keys are found, and the random source gives the sending ratchet key if one is needed. -/
def Agrees (ctx : SignalContext Addr Priv Pub B) (remoteAddress : Addr)
    (message : KeyExchangeMessage Pub B) (w : World Addr Priv Pub B)
    (record : SessionRecord Priv Pub B) (agreed : Agreed Priv Pub B) (drawn : Nat) : Prop :=
  ctx.trusted remoteAddress (w.identities remoteAddress) message.identityKey = true ∧
    w.record ctx.provider remoteAddress = .ok record ∧
    ∃ n sending, FoundKeys ctx message w record agreed.parameters agreed.flags n ∧
      agreed.parameters.Draws ctx.rng n sending ∧ drawn = n + sending.toList.length ∧
      agreed.record = record.makeRoom.setState
        ((agreed.parameters.session ctx.provider sending).toState ctx.provider)

variable {ctx : SignalContext Addr Priv Pub B} {remoteAddress : Addr}
  {message : KeyExchangeMessage Pub B} {w w' : World Addr Priv Pub B}

/-- The new session is the current one, at version 3 and with nothing pending. -/
theorem Agrees.state {record : SessionRecord Priv Pub B} {agreed : Agreed Priv Pub B} {n : Nat}
    (h : Agrees ctx remoteAddress message w record agreed n) :
    agreed.record.state.sessionVersion = 3 ∧ agreed.record.state.pendingKeyExchange = none := by
  obtain ⟨-, -, n, sending, -, -, -, hs⟩ := h
  rw [hs]
  cases sending <;> exact ⟨rfl, rfl⟩

omit [LinearOrder Pub] in
/-- The two key pairs that an initiate without a pending key exchange draws. -/
theorem generate_twice {base ratchet : EcKeyPair Priv Pub} {w₁ w₂ : World Addr Priv Pub B}
    (hbase : atRandom (curveGenerateKeyPair ctx.provider ctx.rng) w = (.ok base, w₁))
    (hratchet : atRandom (curveGenerateKeyPair ctx.provider ctx.rng) w₁ = (.ok ratchet, w₂)) :
    ∃ b r, ctx.rng.privateKey w.drawn = .ok b ∧ ctx.rng.privateKey (w.drawn + 1) = .ok r ∧
      base = ctx.provider.pair b ∧ ratchet = ctx.provider.pair r ∧ w₂ = w.at (w.drawn + 2) := by
  obtain ⟨b, hb, rfl, rfl⟩ := atRandom_draw_ok hbase
  obtain ⟨k, hk, rfl, rfl⟩ := atRandom_draw_ok hratchet
  exact ⟨b, k, hb, hk, rfl, rfl, rfl⟩

omit [LinearOrder Pub] in
theorem initiateParameters_ok_iff {record : SessionRecord Priv Pub B}
    {result : SymmetricParameters Priv Pub × UInt32} (hi : message.isInitiate = true)
    (signed : message.checkSignature ctx.provider = .ok ()) :
    initiateParameters ctx record.state message w = (.ok result, w') ↔
      ∃ n, FoundKeys ctx message w record result.1 result.2 n ∧ w' = w.at n := by
  constructor
  · intro h
    simp only [initiateParameters, Threaded.initiateParameters] at h
    cases hp : record.state.pendingKeyExchange with
    | some pending =>
      simp only [hp, Program.run_eqs] at h
      obtain ⟨parameters, w₁, hpar, h₁⟩ := Op.bind_ok_iff.1 h
      obtain ⟨hcomplete, hw⟩ := Op.ofOption_ok_iff.1 hpar
      cases h₁
      exact ⟨_, .simultaneous pending parameters hi signed hp hcomplete, hw⟩
    | none =>
      simp only [hp, Program.run_eqs] at h
      obtain ⟨identity, w₀, hid, h⟩ := Op.bind_ok_iff.1 h
      cases hid
      obtain ⟨base, w₁, hbase, h⟩ := Op.bind_ok_iff.1 h
      obtain ⟨ratchet, w₂, hratchet, h⟩ := Op.bind_ok_iff.1 h
      obtain ⟨b, r, hb, hr, rfl, rfl, rfl⟩ := generate_twice hbase hratchet
      cases h
      exact ⟨_, .fresh b r hi signed hp hb hr, rfl⟩
  · rintro ⟨n, hfound, rfl⟩
    simp only [initiateParameters, Threaded.initiateParameters]
    rcases result with ⟨parameters, flags⟩
    cases hfound with
    | fresh base ratchet _ _ hnone hb hr =>
      simp only [hnone, Program.run_eqs]
      refine (Op.bind_of_ok (show signalProtocolIdentityGetKeyPair w = (.ok w.identityKeyPair, w)
        from rfl)).trans ?_
      refine (Op.bind_of_ok (atRandom_of (curveGenerateKeyPair_of_ok hb))).trans ?_
      exact (Op.bind_of_ok (atRandom_of (curveGenerateKeyPair_of_ok hr))).trans rfl
    | simultaneous pending _ _ _ hsome hcomplete =>
      simp only [hsome, Program.run_eqs]
      exact Op.bind_of_ok (by rw [hcomplete]; rfl)
    | response _ _ hno => rw [hi] at hno; cases hno

theorem agree_ok_iff {record : SessionRecord Priv Pub B}
    {result : SymmetricParameters Priv Pub × UInt32} {agreed : Option (Agreed Priv Pub B)}
    (hr : record.makeRoom.state = SessionState.create) :
    agree ctx record result w = (.ok agreed, w') ↔
      ∃ sending, result.1.Draws ctx.rng w.drawn sending ∧
        w' = w.at (w.drawn + sending.toList.length) ∧
        agreed = some ⟨record.makeRoom.setState
          ((result.1.session ctx.provider sending).toState ctx.provider), result.1, result.2⟩ := by
  unfold agree
  rw [hr]
  constructor
  · intro h
    obtain ⟨state, w₁, hstate, h₁⟩ := Op.bind_ok_iff.1 h
    cases h₁
    rcases symmetricInitialize_cases ctx.provider ctx.rng result.1 w.drawn with
      ⟨sending, hd⟩ | ⟨e, he⟩
    · rw [atRandom_of (symmetricInitialize_create hd)] at hstate
      cases hstate
      exact ⟨sending, hd, rfl, rfl⟩
    · have hfst := congrArg Prod.fst hstate
      rw [atRandom_apply] at hfst
      cases he.symm.trans hfst
  · rintro ⟨sending, hd, rfl, rfl⟩
    exact Op.bind_of_ok (atRandom_of (symmetricInitialize_create hd))

omit [LinearOrder Pub] in
theorem FoundKeys.signed {record : SessionRecord Priv Pub B} {p : SymmetricParameters Priv Pub}
    {flags : UInt32} {n : Nat} (h : FoundKeys ctx message w record p flags n)
    (hi : message.isInitiate = true) : message.checkSignature ctx.provider = .ok () := by
  cases h with
  | fresh _ _ _ signed => exact signed
  | simultaneous _ _ _ signed => exact signed
  | response _ _ hno => simp [hi] at hno

omit [LinearOrder Pub] in
theorem FoundKeys.drawn_le {record : SessionRecord Priv Pub B} {p : SymmetricParameters Priv Pub}
    {flags : UInt32} {n : Nat} (h : FoundKeys ctx message w record p flags n) : w.drawn ≤ n := by
  cases h with
  | fresh base ratchet hi signed none hbase hratchet => exact Nat.le_add_right _ 2
  | simultaneous pending parameters hi signed some complete => exact le_rfl
  | response pending parameters hi some sequence complete => exact le_rfl

omit [LinearOrder Pub] in
/-- A response finds its keys in the pending key exchange that it names. -/
theorem FoundKeys.of_response {record : SessionRecord Priv Pub B} {p : SymmetricParameters Priv Pub}
    {flags : UInt32} {n : Nat} (h : FoundKeys ctx message w record p flags n)
    (hi : message.isInitiate = false) :
    ∃ pending, record.state.pendingKeyExchange.filter (fun p => p.sequence = message.sequence) =
        some pending ∧ pending.parameters message = some p ∧ flags = 0 ∧ n = w.drawn := by
  cases h with
  | fresh _ _ hno => simp [hi] at hno
  | simultaneous _ _ hno => simp [hi] at hno
  | response pending _ _ hsome hseq hcomplete =>
    refine ⟨pending, ?_, hcomplete, rfl, rfl⟩
    rw [hsome, Option.filter_some, if_pos (by simpa using hseq)]

theorem agreedInitiate_of_ok {record : SessionRecord Priv Pub B} {agreed : Agreed Priv Pub B}
    (hi : message.isInitiate = true) (hroom : record.makeRoom.state = SessionState.create)
    (h : agreedInitiate ctx record message w = (.ok (some agreed), w')) :
    ∃ n sending, FoundKeys ctx message w record agreed.parameters agreed.flags n ∧
      agreed.parameters.Draws ctx.rng n sending ∧ w' = w.at (n + sending.toList.length) ∧
      agreed.record = record.makeRoom.setState
        ((agreed.parameters.session ctx.provider sending).toState ctx.provider) := by
  obtain ⟨_, w₁, hsig, h₁⟩ := Op.bind_ok_iff.1 h
  rw [Op.ofExcept_apply] at hsig
  obtain ⟨hsigned, rfl⟩ := Prod.mk.inj hsig
  obtain ⟨result, w₂, hpar, h₂⟩ := Op.bind_ok_iff.1 h₁
  obtain ⟨n, hfound, rfl⟩ := (initiateParameters_ok_iff hi hsigned).1 hpar
  obtain ⟨sending, hd, rfl, ha⟩ := (agree_ok_iff hroom).1 h₂
  cases ha
  exact ⟨n, sending, hfound, hd, rfl, rfl⟩

theorem agreedResponse_of_ok {record : SessionRecord Priv Pub B} {agreed : Agreed Priv Pub B}
    (hi : message.isInitiate = false) (hroom : record.makeRoom.state = SessionState.create)
    (h : agreedResponse ctx record message w = (.ok (some agreed), w')) :
    ∃ n sending, FoundKeys ctx message w record agreed.parameters agreed.flags n ∧
      agreed.parameters.Draws ctx.rng n sending ∧ w' = w.at (n + sending.toList.length) ∧
      agreed.record = record.makeRoom.setState
        ((agreed.parameters.session ctx.provider sending).toState ctx.provider) := by
  unfold agreedResponse at h
  rcases hpending : record.state.pendingKeyExchange.filter
    (fun p => p.sequence = message.sequence) with _ | pending <;> rw [hpending] at h
  · obtain ⟨_, w₁, -, h₁⟩ := Op.bind_ok_iff.1 h
    cases h₁
  · obtain ⟨parameters, w₁, hpar, h₁⟩ := Op.bind_ok_iff.1 h
    obtain ⟨hcomplete, rfl⟩ := Op.ofOption_ok_iff.1 hpar
    obtain ⟨sending, hd, rfl, ha⟩ := (agree_ok_iff hroom).1 h₁
    cases ha
    obtain ⟨hsome, hseq⟩ := Option.filter_eq_some_iff.1 hpending
    exact ⟨_, sending, .response pending parameters hi hsome (by simpa using hseq) hcomplete, hd,
      rfl, rfl⟩

/-- **What the first half finds**, read off its inputs. -/
theorem agreedSession_iff {agreed : Agreed Priv Pub B} :
    agreedSession ctx remoteAddress message w = (.ok (some agreed), w') ↔
      ∃ record n, Agrees ctx remoteAddress message w record agreed n ∧ w' = w.at n := by
  unfold agreedSession
  rw [signalProtocolIdentityIsTrustedIdentity, Op.ofOption_some, Op.pure_bind_apply, Op.bind_assoc,
    Op.get_bind_apply, Op.pure_bind_apply]
  constructor
  · intro h
    obtain ⟨_, w₁, hreq, h₁⟩ := Op.bind_ok_iff.1 h
    obtain ⟨htrusted, rfl⟩ := Op.require_ok_iff.1 hreq
    obtain ⟨record, w₂, hload, h₂⟩ := Op.bind_ok_iff.1 h₁
    rw [load_eq] at hload
    obtain ⟨hrecord, rfl⟩ := Prod.mk.inj hload
    obtain ⟨n, sending, hfound, hd, hw, ha⟩ : ∃ n sending,
        FoundKeys ctx message w₁ record agreed.parameters agreed.flags n ∧
          agreed.parameters.Draws ctx.rng n sending ∧ w' = w₁.at (n + sending.toList.length) ∧
          agreed.record = record.makeRoom.setState
            ((agreed.parameters.session ctx.provider sending).toState ctx.provider) := by
      cases hi : message.isInitiate with
      | true =>
        rw [if_pos hi] at h₂
        exact agreedInitiate_of_ok hi (state_makeRoom hrecord) h₂
      | false =>
        rw [if_neg (by simp [hi])] at h₂
        exact agreedResponse_of_ok hi (state_makeRoom hrecord) h₂
    exact ⟨record, _, ⟨htrusted, hrecord, n, sending, hfound, hd, rfl, ha⟩, hw⟩
  · rintro ⟨record, n, ⟨htrusted, hrecord, m, sending, hfound, hd, rfl, hstored⟩, rfl⟩
    have hroom := state_makeRoom hrecord
    rw [Op.require_of htrusted, Op.pure_bind_apply,
      Op.bind_of_ok ((load_eq ..).trans (by rw [hrecord]))]
    have hagree : agree ctx record (agreed.parameters, agreed.flags) (w.at m) =
        (.ok (some agreed), w.at (m + sending.toList.length)) := by
      refine (agree_ok_iff hroom).2 ⟨sending, hd, rfl, ?_⟩
      rw [← hstored]
    cases hi : message.isInitiate with
    | true =>
      have hpar : initiateParameters ctx record.state message w =
          (.ok (agreed.parameters, agreed.flags), w.at m) :=
        (initiateParameters_ok_iff hi (hfound.signed hi)).2 ⟨m, hfound, rfl⟩
      rw [if_pos rfl, agreedInitiate, hfound.signed hi, Op.ofExcept_ok, Op.pure_bind_apply,
        Op.bind_of_ok hpar]
      exact hagree
    | false =>
      obtain ⟨pending, hsome, hcomplete, hflags, rfl⟩ := hfound.of_response hi
      rw [hflags] at hagree
      rw [if_neg (by simp), agreedResponse, hsome]
      exact (Op.bind_of_ok (by rw [hcomplete]; rfl)).trans hagree

/-! ## 5. Writing -/

variable [DecidableEq Addr]

/-- The signature that answers an initiate. -/
def signAgreed (ctx : SignalContext Addr Priv Pub B) (agreed : Agreed Priv Pub B) :
    Op SgError (World Addr Priv Pub B) B :=
  atRandom <| curveCalculateSignature ctx.provider ctx.rng
    agreed.parameters.ourIdentityKey.privateKey
    (ctx.provider.encodePoint agreed.parameters.ourBaseKey.publicKey)

/-- The answer to an initiate. -/
def Agreed.response (agreed : Agreed Priv Pub B) (message : KeyExchangeMessage Pub B)
    (baseKeySignature : B) : KeyExchangeMessage Pub B where
  version := agreed.record.state.sessionVersion.toUInt8
  sequence := message.sequence
  flags := agreed.flags
  baseKey := agreed.parameters.ourBaseKey.publicKey
  baseKeySignature := baseKeySignature
  ratchetKey := agreed.parameters.ourRatchetKey.publicKey
  identityKey := agreed.parameters.ourIdentityKey.publicKey

/-- **The second half.**  The record is stored before the answer to an initiate is signed, and
before the signature of a response is checked. -/
def writeAgreed (ctx : SignalContext Addr Priv Pub B) (remoteAddress : Addr)
    (message : KeyExchangeMessage Pub B) :
    Option (Agreed Priv Pub B) →
      Op SgError (World Addr Priv Pub B) (Option (KeyExchangeMessage Pub B))
  | none => return none
  | some agreed => do
    signalProtocolSessionStoreSession ctx.provider remoteAddress agreed.record
    if message.isInitiate then do
      signalProtocolIdentitySaveIdentity remoteAddress message.identityKey
      let baseKeySignature ← signAgreed ctx agreed
      return some (agreed.response message baseKeySignature)
    else do
      (if agreed.record.state.sessionVersion ≥ 3 then
        Op.ofExcept (message.checkSignature ctx.provider) else pure ())
      signalProtocolSessionStoreSession ctx.provider remoteAddress agreed.record
      signalProtocolIdentitySaveIdentity remoteAddress message.identityKey
      return none

theorem processKeyExchangeMessage_eq (ctx : SignalContext Addr Priv Pub B) (remoteAddress : Addr)
    (message : KeyExchangeMessage Pub B) :
    sessionBuilderProcessKeyExchangeMessage ctx remoteAddress message =
      agreedSession ctx remoteAddress message >>= writeAgreed ctx remoteAddress message := by
  simp only [sessionBuilderProcessKeyExchangeMessage,
    Threaded.sessionBuilderProcessKeyExchangeMessage, Program.run_eqs,
    Threaded.run_processInitiate, Threaded.run_processResponse]
  unfold agreedSession
  simp only [Op.bind_assoc]
  refine Op.bind_congr fun trusted => Op.bind_congr fun _ => ?_
  cases hi : message.isInitiate with
  | true =>
    simp only [if_true, sessionBuilderProcessInitiate, Threaded.sessionBuilderProcessInitiate,
      Program.run_eqs, Threaded.run_initiateParameters, Op.bind_assoc]
    refine Op.bind_congr fun record => ?_
    simp only [agreedInitiate, agree, if_true, Op.bind_assoc, Op.pure_bind_apply, writeAgreed, hi,
      signAgreed]
    rfl
  | false =>
    simp only [Bool.false_eq_true, if_false, sessionBuilderProcessResponse,
      Threaded.sessionBuilderProcessResponse, Program.run_eqs, Op.bind_assoc]
    refine Op.bind_congr fun record => ?_
    simp only [agreedResponse]
    cases record.state.pendingKeyExchange.filter fun p => p.sequence = message.sequence with
    | none =>
      simp only [Program.run_eqs, Op.bind_assoc, Op.pure_bind_apply]
      rfl
    | some pending =>
      simp only [Program.run_eqs, agree, Op.bind_assoc, Op.pure_bind_apply, writeAgreed, hi,
        Bool.false_eq_true, if_false]
      rfl

/-- The world in which an agreed session is stored and its peer's identity saved. -/
def World.commit (P : Provider Priv Pub B) (remoteAddress : Addr)
    (message : KeyExchangeMessage Pub B) (agreed : Agreed Priv Pub B)
    (w : World Addr Priv Pub B) : World Addr Priv Pub B :=
  (w.storeRecord P remoteAddress agreed.record).saveIdentity remoteAddress message.identityKey

omit [LinearOrder Pub] in
/-- Answering an initiate: everything is written, then the answer is signed. -/
theorem writeAgreed_initiate (hi : message.isInitiate = true) (agreed : Agreed Priv Pub B)
    (w : World Addr Priv Pub B) :
    writeAgreed ctx remoteAddress message (some agreed) w =
      ((ctx.rng.signatureRandom w.drawn).map fun random =>
          some (agreed.response message (ctx.provider.calculateSignature
            agreed.parameters.ourIdentityKey.privateKey
            (ctx.provider.encodePoint agreed.parameters.ourBaseKey.publicKey) random)),
        (w.commit ctx.provider remoteAddress message agreed).at (w.drawn + 1)) := by
  simp only [writeAgreed, hi, if_true]
  rw [Op.bind_of_ok (storeSession_apply ..), Op.bind_of_ok (saveIdentity_apply ..)]
  have hsign : signAgreed ctx agreed (w.commit ctx.provider remoteAddress message agreed) =
      ((ctx.rng.signatureRandom w.drawn).map fun random => ctx.provider.calculateSignature
          agreed.parameters.ourIdentityKey.privateKey
          (ctx.provider.encodePoint agreed.parameters.ourBaseKey.publicKey) random,
        (w.commit ctx.provider remoteAddress message agreed).at (w.drawn + 1)) := by
    refine atRandom_of ?_
    show curveCalculateSignature _ _ _ _ w.drawn = _
    rw [curveCalculateSignature, Op.bind_apply, draw]
    cases ctx.rng.signatureRandom w.drawn <;> rfl
  unfold World.commit at hsign ⊢
  rw [Op.bind_apply, hsign]
  cases ctx.rng.signatureRandom w.drawn <;> rfl

omit [LinearOrder Pub] in
/-- Taking a response: the record is written, then the signature is checked. -/
theorem writeAgreed_response (hi : message.isInitiate = false) (agreed : Agreed Priv Pub B)
    (hv : agreed.record.state.sessionVersion = 3) (w : World Addr Priv Pub B) :
    writeAgreed ctx remoteAddress message (some agreed) w =
      match message.checkSignature ctx.provider with
      | .ok () => (.ok none, w.commit ctx.provider remoteAddress message agreed)
      | .error e => (.error e, w.storeRecord ctx.provider remoteAddress agreed.record) := by
  have hge : agreed.record.state.sessionVersion ≥ 3 := by
    rw [hv]
    decide
  simp only [writeAgreed, hi, Bool.false_eq_true, if_false, hge, if_true]
  rw [Op.bind_of_ok (storeSession_apply ..)]
  cases message.checkSignature ctx.provider with
  | error e => rfl
  | ok u =>
    have htwice : (w.storeRecord ctx.provider remoteAddress agreed.record).storeRecord ctx.provider
        remoteAddress agreed.record = w.storeRecord ctx.provider remoteAddress agreed.record := by
      simp only [World.storeRecord, Function.update_idem]
    rw [Op.ofExcept_ok, Op.pure_bind_apply, Op.bind_of_ok (storeSession_apply ..), htwice,
      Op.bind_of_ok (saveIdentity_apply ..)]
    rfl

end Exchange

end SignalProtocol
