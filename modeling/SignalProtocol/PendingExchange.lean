/-
# The keys of a pending key exchange

`session_builder_process` draws a base and a ratchet key pair and leaves them in the current
session state until the peer answers.  An answer, or an initiate of the peer, turns them into a
session.  Nothing clears them: the state that carries them is archived, and the new session is
in front of it.  So they can be used a second time exactly if that state comes back.

1. `World.pending` is the key exchange in front, `Step.offered` the keys that a step has drawn
   for one and `Step.initialised` the keys from which a step has initialised a session.
2. `PendingMove` lists what a step can do to the key exchange in front, if no archived state
   that carries one is brought back.
3. `Usable` is what a step can still use; a step that uses keys ends it.

The last section is the run in which an archived state is brought back.
-/
import SignalProtocol.Calls
import SignalProtocol.Corruption
import SignalProtocol.Rejection
import SignalProtocol.Replay

namespace SignalProtocol

variable {Addr Priv Pub B : Type}

/-! ## 1. Offering and using keys -/

/-- The key exchange that the current state for an address carries. -/
def World.pending (P : Provider Priv Pub B) (address : Addr) (w : World Addr Priv Pub B) :
    Option (PendingKeyExchange Priv Pub) :=
  match w.record P address with
  | .ok record => record.state.pendingKeyExchange
  | .error _ => none

/-- **The key pairs that a call of `session_builder_process` has generated**, base key pair
first: it has left them in the current state. -/
def Step.offered (P : Provider Priv Pub B) (s : Step Addr Priv Pub B) :
    Option (EcKeyPair Priv Pub × EcKeyPair Priv Pub) :=
  match s.action, s.result with
  | .call (.process address), .ok _ => do
    let pending ← s.after.pending P address
    return (← pending.localBaseKey, ← pending.localRatchetKey)
  | _, _ => none

section Use

variable [LinearOrder Pub]

/-- The key pairs of ours from which a step has initialised a session state, if it has: those
in the parameters with which `session_builder_process_key_exchange_message` called
`ratcheting_session_symmetric_initialize`. -/
def Step.initialised (ctx : SignalContext Addr Priv Pub B) (s : Step Addr Priv Pub B) :
    Option (EcKeyPair Priv Pub × EcKeyPair Priv Pub) :=
  match s.action with
  | .call (.processKeyExchangeMessage address message) =>
    match (agreedSession ctx address message s.before).1 with
    | .ok (some agreed) => some (agreed.parameters.ourBaseKey, agreed.parameters.ourRatchetKey)
    | _ => none
  | _ => none

/-- **The step initialises a session state from one of two key pairs.** -/
def Step.uses [DecidableEq Priv] (ctx : SignalContext Addr Priv Pub B)
    (keys : EcKeyPair Priv Pub × EcKeyPair Priv Pub) (s : Step Addr Priv Pub B) : Bool :=
  (s.initialised ctx).any fun k => k.1 = keys.1 || k.2 = keys.2

/-- The calls of a conversation by key exchange messages. -/
def Call.OfExchange : Call Addr Priv Pub B → Prop
  | .process _ => True
  | .processKeyExchangeMessage _ _ => True
  | .encrypt _ _ => True
  | .decryptSignal _ _ => True
  | _ => False

/-- **No archived state that carries a key exchange is brought back**: none of them would
accept the message of the step. -/
def Step.LeavesArchived [DecidableEq B] (ctx : SignalContext Addr Priv Pub B)
    (s : Step Addr Priv Pub B) : Prop :=
  ∀ cipher m record i state p state' n, s.action = .call (.decryptSignal cipher m) →
    s.before.record ctx.provider cipher.remoteAddress = .ok record →
    record.previousStates[i]? = some state →
    AcceptedAt ctx.provider ctx.rng m record.states p state' (i + 1) n →
    state.pendingKeyExchange = none

end Use

/-! ## 2. The key exchange in front -/

section Moves

variable [DecidableEq Addr] [LinearOrder Pub] [DecidableEq B]
  {ctx : SignalContext Addr Priv Pub B} {address : Addr} {w w' : World Addr Priv Pub B}

omit [DecidableEq Addr] [LinearOrder Pub] [DecidableEq B] in
theorem World.pending_congr (P : Provider Priv Pub B)
    (h : w'.sessions address = w.sessions address) :
    w'.pending P address = w.pending P address := by
  rw [pending, pending, World.record_eq, World.record_eq, h]

omit [DecidableEq Addr] [LinearOrder Pub] [DecidableEq B] in
theorem World.pending_of_record {P : Provider Priv Pub B} {record : SessionRecord Priv Pub B}
    (h : w.record P address = .ok record) :
    w.pending P address = record.state.pendingKeyExchange := by
  rw [pending, h]

omit [DecidableEq Addr] [LinearOrder Pub] [DecidableEq B] in
/-- A stored record carries what its current state did, if it can be read at all. -/
theorem World.pending_stored {P : Provider Priv Pub B} {record : SessionRecord Priv Pub B}
    (h : w.sessions address = some (record.serialize P)) :
    w.pending P address = record.state.pendingKeyExchange ∨ w.pending P address = none := by
  have hrecord : w.record P address = (record.serialize P).deserialize P := by
    rw [World.record_eq, h]
  cases hd : (record.serialize P).deserialize P with
  | error e => exact .inr (by rw [pending, hrecord, hd])
  | ok record' =>
    refine .inl ?_
    rw [pending_of_record (hrecord.trans hd)]
    exact (List.cons.inj (pendings_of_deserialize hd)).1

/-- The key exchange has the keys that were drawn from position `k` on: a sequence number, a
base key, a ratchet key. -/
def OfferedAt (ctx : SignalContext Addr Priv Pub B) (k : Nat)
    (pending : PendingKeyExchange Priv Pub) : Prop :=
  ∃ base ratchet, ctx.rng.privateKey (k + 1) = .ok base ∧
    ctx.rng.privateKey (k + 2) = .ok ratchet ∧
    pending.localBaseKey = some (ctx.provider.pair base) ∧
    pending.localRatchetKey = some (ctx.provider.pair ratchet)

/-- **What a step can do to the key exchange in front**, with the keys from which it has
initialised a session. -/
inductive PendingMove (ctx : SignalContext Addr Priv Pub B) (address : Addr)
    (w w' : World Addr Priv Pub B) : Option (EcKeyPair Priv Pub × EcKeyPair Priv Pub) → Prop
  | keep (h : w'.pending ctx.provider address = w.pending ctx.provider address) :
      PendingMove ctx address w w' none
  | drop (h : w'.pending ctx.provider address = none) : PendingMove ctx address w w' none
  | offer {pending : PendingKeyExchange Priv Pub} (hp : OfferedAt ctx w.drawn pending)
      (hn : w.drawn + 4 ≤ w'.drawn) (h : w'.pending ctx.provider address = some pending) :
      PendingMove ctx address w w' none
  | spend {pending : PendingKeyExchange Priv Pub} {base ratchet : EcKeyPair Priv Pub}
      (hp : w.pending ctx.provider address = some pending)
      (hb : pending.localBaseKey = some base) (hr : pending.localRatchetKey = some ratchet)
      (h : w'.pending ctx.provider address = none) :
      PendingMove ctx address w w' (some (base, ratchet))
  | draw {base ratchet : Priv} (hb : ctx.rng.privateKey w.drawn = .ok base)
      (hr : ctx.rng.privateKey (w.drawn + 1) = .ok ratchet) (hn : w.drawn + 2 ≤ w'.drawn)
      (h : w'.pending ctx.provider address = none) :
      PendingMove ctx address w w' (some (ctx.provider.pair base, ctx.provider.pair ratchet))

omit [DecidableEq Addr] [DecidableEq B] [LinearOrder Pub] in
theorem pending_parameters {pending : PendingKeyExchange Priv Pub}
    {message : KeyExchangeMessage Pub B} {p : SymmetricParameters Priv Pub}
    (h : pending.parameters message = some p) :
    pending.localBaseKey = some p.ourBaseKey ∧ pending.localRatchetKey = some p.ourRatchetKey := by
  obtain ⟨_, -, h⟩ := Option.bind_eq_some_iff.1 h
  obtain ⟨base, hb, h⟩ := Option.bind_eq_some_iff.1 h
  obtain ⟨ratchet, hr, h⟩ := Option.bind_eq_some_iff.1 h
  cases h
  exact ⟨hb, hr⟩

omit [LinearOrder Pub] [DecidableEq B] in
/-- Once keys are found the new session is stored, whatever happens then. -/
theorem writeAgreed_stores {message : KeyExchangeMessage Pub B} {agreed : Agreed Priv Pub B}
    {r : Except SgError (Option (KeyExchangeMessage Pub B))}
    (hv : agreed.record.state.sessionVersion = 3)
    (h : writeAgreed ctx address message (some agreed) w = (r, w')) :
    w'.sessions address = some (agreed.record.serialize ctx.provider) ∧ w.drawn ≤ w'.drawn := by
  cases hi : message.isInitiate with
  | true =>
    rw [writeAgreed_initiate hi] at h
    cases h
    exact ⟨Function.update_self .., Nat.le_succ _⟩
  | false =>
    rw [writeAgreed_response hi agreed hv] at h
    cases hcheck : message.checkSignature ctx.provider with
    | ok u =>
      simp only [hcheck] at h
      cases h
      exact ⟨Function.update_self .., le_rfl⟩
    | error e =>
      simp only [hcheck] at h
      cases h
      exact ⟨Function.update_self .., le_rfl⟩

/-- **A key exchange message** spends the key exchange in front, or draws keys of its own, or
changes nothing. -/
theorem keyExchange_move {message : KeyExchangeMessage Pub B}
    {r : Except SgError (Reply Pub B)}
    (h : (Call.processKeyExchangeMessage address message).run ctx w = (r, w')) :
    PendingMove ctx address w w'
      ((⟨w, .call (.processKeyExchangeMessage address message), r, w'⟩ :
        Step Addr Priv Pub B).initialised ctx) := by
  obtain ⟨r', hr', -⟩ := Op.bind_pure_cases h
  rw [processKeyExchangeMessage_eq] at hr'
  have hmoves := onlyDraws_agreedSession ctx address message
  rcases Op.bind_cases hr' with ⟨e, hx, -⟩ | ⟨_ | agreed, w₁, hx, h₁⟩
  · simp only [Step.initialised, hx]
    exact .keep (World.pending_congr _ (by rw [(OnlyDraws.of_moves hmoves hx).stores]))
  · simp only [Step.initialised, hx]
    cases h₁
    exact .keep (World.pending_congr _ (by rw [(OnlyDraws.of_moves hmoves hx).stores]))
  · simp only [Step.initialised, hx]
    obtain ⟨record, n, ha, rfl⟩ := agreedSession_iff.1 hx
    obtain ⟨hsessions, hdrawn⟩ := writeAgreed_stores ha.state.1 h₁
    have hnone : w'.pending ctx.provider address = none := by
      rcases World.pending_stored hsessions with hp | hp
      · rw [hp, ha.state.2]
      · exact hp
    obtain ⟨-, hrecord, m, sending, hfound, -, rfl, -⟩ := ha
    have hpending := World.pending_of_record hrecord
    obtain ⟨stored, parameters, flags⟩ := agreed
    cases hfound with
    | fresh base ratchet _ _ _ hbase hratchet =>
      exact .draw hbase hratchet ((Nat.le_add_right _ _).trans hdrawn) hnone
    | simultaneous pending parameters _ _ hsome hcomplete =>
      obtain ⟨hb, hr⟩ := pending_parameters hcomplete
      exact .spend (hpending.trans hsome) hb hr hnone
    | response pending parameters _ hsome _ hcomplete =>
      obtain ⟨hb, hr⟩ := pending_parameters hcomplete
      exact .spend (hpending.trans hsome) hb hr hnone

omit [DecidableEq Addr] [DecidableEq B] in
/-- A call other than a key exchange message initialises no session from our key pairs. -/
theorem initialised_none {s : Step Addr Priv Pub B}
    (h : ∀ address message, s.action ≠ .call (.processKeyExchangeMessage address message)) :
    s.initialised ctx = none := by
  unfold Step.initialised
  split
  next address message ha => exact absurd ha (h address message)
  next => rfl

/-- **The other calls** keep the key exchange in front, put a new one in its place, or have
none there: a state that is brought back carries none. -/
theorem outcome_move {c : Call Addr Priv Pub B} {r : Except SgError (Reply Pub B)}
    (hc : c.OfExchange) (hk : ¬ c.IsKeyExchange)
    (hleaves : (⟨w, .call c, r, w'⟩ : Step Addr Priv Pub B).LeavesArchived ctx)
    (h : Outcome ctx w c r w') : PendingMove ctx c.address w w' none := by
  cases h with
  | idle saved hf hn hs => exact .keep (World.pending_congr _ (by simp [World.at]))
  | @changed record record' saved used n n' hr hc' hn =>
    have hstored : (w.changed ctx.provider c.address record' saved used n').sessions c.address =
        some (record'.serialize ctx.provider) := by simp
    have hafter := World.pending_stored hstored
    have hbefore := World.pending_of_record hr
    have keep : record'.state.pendingKeyExchange = record.state.pendingKeyExchange →
        PendingMove ctx c.address w (w.changed ctx.provider c.address record' saved used n')
          none := by
      intro heq
      rcases hafter with hp | hp
      · exact .keep (by rw [hp, heq, hbefore])
      · exact .drop hp
    cases hc' with
    | send hsend => exact keep (congrArg StateLabel.pending (label_encryptWithState hsend))
    | @receive cipher m p state' i n hdrawn hacc =>
      obtain ⟨state, hi, hlabel⟩ := hacc.label
      have hstate : state'.pendingKeyExchange = state.pendingKeyExchange :=
        congrArg StateLabel.pending hlabel
      cases i with
      | zero =>
        cases hi
        exact keep hstate
      | succ i =>
        have hnone := hleaves cipher m record i state p state' n rfl hr hi hacc
        refine .drop ?_
        rcases hafter with hp | hp
        · exact hp.trans (hstate.trans hnone)
        · exact hp
    | offer hb hratchet =>
      rcases hafter with hp | hp
      · exact .offer ⟨_, _, hb, hratchet, rfl, rfl⟩ hn hp
      · exact .drop hp
    | initiate => exact hc.elim
    | respond => exact hc.elim
    | agree => exact absurd trivial hk

/-- **What a step does to the key exchange in front.** -/
theorem step_move (a : Action Addr Priv Pub B)
    (ha : ∀ c, a = .call c → c.address = address ∧ c.OfExchange)
    (hatomic : (a.step ctx w).Atomic) (hleaves : (a.step ctx w).LeavesArchived ctx) :
    PendingMove ctx address w (a.step ctx w).after ((a.step ctx w).initialised ctx) ∧
      w.drawn ≤ (a.step ctx w).after.drawn := by
  cases a with
  | storePreKey => exact ⟨.keep (World.pending_congr _ rfl), le_rfl⟩
  | replaceIdentity => exact ⟨.keep (World.pending_congr _ rfl), le_rfl⟩
  | call c =>
    obtain ⟨rfl, hc⟩ := ha c rfl
    rcases hrun : c.run ctx w with ⟨r, w'⟩
    rw [Action.step_call hrun] at hatomic hleaves ⊢
    have hout := Call.run_outcome (hatomic c rfl) hrun
    refine ⟨?_, ?_⟩
    · cases c with
      | processKeyExchangeMessage address message => exact keyExchange_move hrun
      | _ =>
        rw [initialised_none (by simp)]
        exact outcome_move hc (fun h => h) hleaves hout
    · cases hout with
      | idle saved hf hn hs => exact hn
      | changed saved used hr hc' hn => exact hc'.drawn_le.trans hn

end Moves

/-! ## 3. At most once -/

section Once

variable [DecidableEq Addr] [DecidableEq Priv] [LinearOrder Pub] [DecidableEq B]
  {ctx : SignalContext Addr Priv Pub B} {address : Addr} {w w' : World Addr Priv Pub B}

/-- The key exchange in front, if there is one, has keys that were drawn in the past. -/
def World.PendingDrawn (ctx : SignalContext Addr Priv Pub B) (address : Addr)
    (w : World Addr Priv Pub B) : Prop :=
  ∀ pending ∈ w.pending ctx.provider address, ∃ k, OfferedAt ctx k pending ∧ k + 4 ≤ w.drawn

/-- **The keys drawn from position `k` on can still be used**: they are in front, or have not
been drawn yet. -/
def World.Usable (ctx : SignalContext Addr Priv Pub B) (address : Addr) (k : Nat)
    (w : World Addr Priv Pub B) : Prop :=
  w.drawn ≤ k + 1 ∨ ∃ pending ∈ w.pending ctx.provider address, OfferedAt ctx k pending

omit [DecidableEq Addr] [DecidableEq Priv] [LinearOrder Pub] [DecidableEq B] in
/-- A base key, or a ratchet key, tells where the keys were drawn. -/
theorem OfferedAt.position (hd : ctx.rng.Distinct) {k n : Nat} {base ratchet : Priv}
    {pending : PendingKeyExchange Priv Pub} (hk : OfferedAt ctx k pending)
    (hb : ctx.rng.privateKey (n + 1) = .ok base) (hr : ctx.rng.privateKey (n + 2) = .ok ratchet)
    (h : pending.localBaseKey = some (ctx.provider.pair base) ∨
      pending.localRatchetKey = some (ctx.provider.pair ratchet)) : k = n := by
  obtain ⟨base', ratchet', hb', hr', hbase, hratchet⟩ := hk
  rcases h with h | h
  · injection hbase.symm.trans h with hpair
    injection hpair with _ hpair
    subst hpair
    have := hd hb' hb
    omega
  · injection hratchet.symm.trans h with hpair
    injection hpair with _ hpair
    subst hpair
    have := hd hr' hr
    omega

omit [DecidableEq Addr] [DecidableEq Priv] [LinearOrder Pub] [DecidableEq B] in
theorem PendingMove.pendingDrawn {keys : Option (EcKeyPair Priv Pub × EcKeyPair Priv Pub)}
    (hw : w.PendingDrawn ctx address) (hn : w.drawn ≤ w'.drawn)
    (h : PendingMove ctx address w w' keys) : w'.PendingDrawn ctx address := by
  intro pending hp
  rw [Option.mem_def] at hp
  cases h with
  | keep hkeep =>
    obtain ⟨k, hk, hlt⟩ := hw pending (hkeep.symm.trans hp)
    exact ⟨k, hk, hlt.trans hn⟩
  | offer ho hn hafter =>
    cases hafter.symm.trans hp
    exact ⟨w.drawn, ho, hn⟩
  | drop hafter => cases hafter.symm.trans hp
  | spend _ _ _ hafter => cases hafter.symm.trans hp
  | draw _ _ _ hafter => cases hafter.symm.trans hp

omit [DecidableEq Addr] [DecidableEq Priv] [LinearOrder Pub] [DecidableEq B] in
/-- What cannot be used any more stays so. -/
theorem PendingMove.usable (hd : ctx.rng.Distinct) {k : Nat}
    {keys : Option (EcKeyPair Priv Pub × EcKeyPair Priv Pub)} (hn : w.drawn ≤ w'.drawn)
    (h : PendingMove ctx address w w' keys) (hu : w'.Usable ctx address k) :
    w.Usable ctx address k := by
  rcases hu with hu | ⟨pending, hp, hk⟩
  · exact .inl (hn.trans hu)
  · rw [Option.mem_def] at hp
    cases h with
    | keep hkeep => exact .inr ⟨pending, hkeep.symm.trans hp, hk⟩
    | offer ho _ hafter =>
      cases hafter.symm.trans hp
      obtain ⟨base, ratchet, hb, hr, hbase, -⟩ := hk
      have := ho.position hd hb hr (.inl hbase)
      exact .inl (by omega)
    | drop hafter => cases hafter.symm.trans hp
    | spend _ _ _ hafter => cases hafter.symm.trans hp
    | draw _ _ _ hafter => cases hafter.symm.trans hp

omit [DecidableEq Addr] [DecidableEq Priv] [LinearOrder Pub] [DecidableEq B] in
/-- **What is used could be used, and cannot be used any more.** -/
theorem PendingMove.uses (hd : ctx.rng.Distinct) {k : Nat} {base ratchet : Priv}
    {used : EcKeyPair Priv Pub × EcKeyPair Priv Pub}
    (hb : ctx.rng.privateKey (k + 1) = .ok base) (hr : ctx.rng.privateKey (k + 2) = .ok ratchet)
    (hw : w.PendingDrawn ctx address) (hn : w.drawn ≤ w'.drawn)
    (h : PendingMove ctx address w w' (some used))
    (hu : used.1 = ctx.provider.pair base ∨ used.2 = ctx.provider.pair ratchet) :
    w.Usable ctx address k ∧ ¬ w'.Usable ctx address k := by
  cases h with
  | @spend pending _ _ hp hbase hratchet hafter =>
    obtain ⟨n, ho, hlt⟩ := hw pending hp
    have heq : n = k := by
      refine ho.position hd hb hr ?_
      rcases hu with rfl | rfl
      · exact .inl hbase
      · exact .inr hratchet
    subst heq
    refine ⟨.inr ⟨pending, hp, ho⟩, ?_⟩
    rintro (hlate | ⟨pending, hp, -⟩)
    · omega
    · cases hafter.symm.trans hp
  | @draw base' ratchet' hb' hr' hdrawn hafter =>
    have heq : w.drawn = k + 1 := by
      rcases hu with hu | hu
      · injection hu with _ hu
        subst hu
        exact hd hb' hb
      · injection hu with _ hu
        subst hu
        have := hd hr' hr
        omega
    refine ⟨.inl heq.le, ?_⟩
    rintro (hlate | ⟨pending, hp, -⟩)
    · omega
    · cases hafter.symm.trans hp

omit [DecidableEq Addr] [DecidableEq B] in
theorem Step.uses_iff {keys : EcKeyPair Priv Pub × EcKeyPair Priv Pub}
    {s : Step Addr Priv Pub B} :
    s.uses ctx keys = true ↔
      ∃ used, s.initialised ctx = some used ∧ (used.1 = keys.1 ∨ used.2 = keys.2) := by
  simp [Step.uses, Option.any_eq_true]

/-- **A step of a conversation by key exchange messages** with one address: it is executed
atomically and brings no archived key exchange back. -/
structure Step.InConversation (ctx : SignalContext Addr Priv Pub B) (address : Addr)
    (s : Step Addr Priv Pub B) : Prop where
  atomic : s.Atomic
  call : ∀ c, s.action = .call c → c.address = address ∧ c.OfExchange
  leavesArchived : s.LeavesArchived ctx

omit [DecidableEq Priv] in
theorem pendingDrawn_step (a : Action Addr Priv Pub B) (hw : w.PendingDrawn ctx address)
    (h : (a.step ctx w).InConversation ctx address) :
    (a.step ctx w).after.PendingDrawn ctx address := by
  obtain ⟨hmove, hn⟩ := step_move a h.call h.atomic h.leavesArchived
  exact hmove.pendingDrawn hw hn

/-- The same for a step that uses keys, and for one that does not. -/
theorem usable_step (hd : ctx.rng.Distinct) {k : Nat} {base ratchet : Priv}
    (hb : ctx.rng.privateKey (k + 1) = .ok base) (hr : ctx.rng.privateKey (k + 2) = .ok ratchet)
    (a : Action Addr Priv Pub B) (hw : w.PendingDrawn ctx address)
    (h : (a.step ctx w).InConversation ctx address) :
    ((a.step ctx w).after.Usable ctx address k → w.Usable ctx address k) ∧
      ((a.step ctx w).uses ctx (ctx.provider.pair base, ctx.provider.pair ratchet) = true →
        w.Usable ctx address k ∧ ¬ (a.step ctx w).after.Usable ctx address k) := by
  obtain ⟨hmove, hn⟩ := step_move a h.call h.atomic h.leavesArchived
  refine ⟨hmove.usable hd hn, fun hu => ?_⟩
  obtain ⟨used, hused, hu⟩ := Step.uses_iff.1 hu
  rw [hused] at hmove
  exact hmove.uses hd hb hr hw hn hu

/-- **Over a history, keys that can be used are used at most once, and others never.** -/
theorem uses_le_one (hd : ctx.rng.Distinct) {k : Nat} {base ratchet : Priv}
    (hb : ctx.rng.privateKey (k + 1) = .ok base) (hr : ctx.rng.privateKey (k + 2) = .ok ratchet)
    (actions : List (Action Addr Priv Pub B)) (w : World Addr Priv Pub B)
    (hw : w.PendingDrawn ctx address)
    (h : ∀ s ∈ history ctx actions w, s.InConversation ctx address) :
    (¬ w.Usable ctx address k → ((history ctx actions w).filter
      (Step.uses ctx (ctx.provider.pair base, ctx.provider.pair ratchet))).length = 0) ∧
      ((history ctx actions w).filter
        (Step.uses ctx (ctx.provider.pair base, ctx.provider.pair ratchet))).length ≤ 1 := by
  induction actions generalizing w with
  | nil => simp [history]
  | cons a actions ih =>
    have hfirst := h _ List.mem_cons_self
    obtain ⟨hback, huses⟩ := usable_step hd hb hr a hw hfirst
    obtain ⟨hdead, hone⟩ := ih (a.step ctx w).after (pendingDrawn_step a hw hfirst)
      fun s hs => h s (List.mem_cons_of_mem _ hs)
    rw [history]
    by_cases hu : (a.step ctx w).uses ctx
        (ctx.provider.pair base, ctx.provider.pair ratchet) = true
    · -- the step uses the keys: they were usable, and no later step can use them
      obtain ⟨hbefore, hafter⟩ := huses hu
      rw [List.filter_cons_of_pos hu, List.length_cons, hdead hafter]
      exact ⟨fun hno => absurd hbefore hno, le_rfl⟩
    · rw [List.filter_cons_of_neg hu]
      exact ⟨fun hno => hdead fun hafter => hno (hback hafter), hone⟩

/-- **A pending key exchange is used at most once**, in every conversation in which no archived
state that carries one accepts a message: the key pairs that one call of
`session_builder_process` has generated initialise at most one session state. -/
theorem pending_exchange_used_once (ctx : SignalContext Addr Priv Pub B)
    (hd : ctx.rng.Distinct) (address : Addr) (actions : List (Action Addr Priv Pub B))
    (w : World Addr Priv Pub B) (hempty : w.sessions address = none)
    (h : ∀ s ∈ history ctx actions w, s.InConversation ctx address) :
    ∀ o ∈ history ctx actions w, ∀ keys ∈ o.offered ctx.provider,
      ((history ctx actions w).filter (Step.uses ctx keys)).length ≤ 1 := by
  intro o ho keys hkeys
  have hw : w.PendingDrawn ctx address := by
    intro pending hp
    rw [World.pending, World.record_eq, hempty] at hp
    cases hp
  obtain ⟨-, hafter, -⟩ := history_invariant (I := World.PendingDrawn ctx address)
    (fun w a hw hs => pendingDrawn_step a hw hs) actions w hw h o ho
  unfold Step.offered at hkeys
  split at hkeys
  next address' reply ha _ =>
    obtain ⟨rfl, -⟩ := (h o ho).call _ ha
    obtain ⟨pending, hp, hkeys⟩ := Option.bind_eq_some_iff.1 hkeys
    obtain ⟨base, hbase, hkeys⟩ := Option.bind_eq_some_iff.1 hkeys
    obtain ⟨ratchet, hratchet, hkeys⟩ := Option.bind_eq_some_iff.1 hkeys
    cases hkeys
    obtain ⟨k, ⟨b, r, hb, hr, hb', hr'⟩, -⟩ := hafter pending hp
    cases hbase.symm.trans hb'
    cases hratchet.symm.trans hr'
    exact (uses_le_one hd hb hr actions w hw h).2
  next => cases hkeys

omit [DecidableEq Addr] [DecidableEq Priv] in
/-- A state without a sender chain accepts nothing. -/
theorem not_acceptedAt_of_blank {P : Provider Priv Pub B} {rng : Rng Priv B}
    {m : SignalMessage Pub B} {states : List (SessionState Priv Pub B)} {p : B}
    {state state' : SessionState Priv Pub B} {i n : Nat} (hi : states[i]? = some state)
    (hblank : state.senderChain = none) : ¬ AcceptedAt P rng m states p state' i n := by
  rintro ⟨state₁, copy, k, hi₁, hcopy, hd⟩
  cases hi.symm.trans hi₁
  have hnone : copy.hasSenderChain = false := by
    rw [SessionState.hasSenderChain, (decodesTo_of_deserialize hcopy).isSome_senderChain,
      SessionState.serialize, hblank]
    rfl
  obtain ⟨_, _, hreq, -⟩ := Op.bind_ok_iff.1 hd
  rw [Op.require_of_not (by simp [hnone])] at hreq
  cases hreq

omit [DecidableEq Addr] [DecidableEq Priv] in
/-- Archived states that never became a session are not brought back. -/
theorem leavesArchived_of_blank {s : Step Addr Priv Pub B}
    (h : ∀ cipher m record, s.action = .call (.decryptSignal cipher m) →
      s.before.record ctx.provider cipher.remoteAddress = .ok record →
      ∀ state ∈ record.previousStates, state.senderChain = none) : s.LeavesArchived ctx := by
  intro cipher m record i state p state' n ha hr hi hacc
  have hblank := h cipher m record ha hr state (List.mem_of_getElem? hi)
  have hstate : record.states[i + 1]? = some state := hi
  exact absurd hacc (not_acceptedAt_of_blank hstate hblank)

end Once

/-! ## 4. An archived key exchange comes back -/

/-- A key exchange message of a peer with identity 50, signed as it should be. -/
def peerExchangeMessage (flags sequence : UInt32) (baseKey ratchetKey : Nat) :
    KeyExchangeMessage Nat Term where
  version := 3
  sequence := sequence
  flags := flags
  baseKey := baseKey
  baseKeySignature := .signed 50 (.point baseKey) (.text 0)
  ratchetKey := ratchetKey
  identityKey := 50

/-- The peer's side of the session that answers our first offer, of base key 101 and ratchet
key 102. -/
def peerAnswerSession : Session Nat Nat Term :=
  Session.alice symbolic
    { ourIdentityKey := symbolic.pair 50
      ourBaseKey := symbolic.pair 62
      theirIdentityKey := 1
      theirSignedPreKey := 101
      theirOneTimePreKey := none
      theirRatchetKey := 102 } 71

/-- We offer a session, the peer answers and writes, and the answer arrives once more. -/
def answeredActions : List (Action Nat Nat Nat Term) :=
  [.call (.process 0),
    .call (.processKeyExchangeMessage 0 (peerExchangeMessage keyExchangeResponseFlag 1 62 63)),
    .call (.decryptSignal (SessionCipher.create 0) (sampleMessage peerAnswerSession (.text 9))),
    .call (.encrypt (SessionCipher.create 0) (.text 0)),
    .call (.processKeyExchangeMessage 0 (peerExchangeMessage keyExchangeResponseFlag 1 62 63))]

/-- Here the archived state never became a session, and the offer is used exactly once. -/
theorem pending_exchange_used_once_answered :
    ((history sampleContext answeredActions sampleStore).filter
        (Step.uses sampleContext (symbolic.pair 101, symbolic.pair 102))).length = 1 ∧
      ∀ o ∈ history sampleContext answeredActions sampleStore,
        ∀ keys ∈ o.offered sampleContext.provider,
          ((history sampleContext answeredActions sampleStore).filter
            (Step.uses sampleContext keys)).length ≤ 1 := by
  have hcalls : ∀ a ∈ answeredActions, ∀ c, a = .call c →
      c.Atomic ∧ c.address = 0 ∧ c.OfExchange := by
    simp only [answeredActions, List.forall_mem_cons, List.not_mem_nil, false_implies,
      implies_true, and_true, Action.call.injEq, forall_eq']
    have hpassive : (SessionCipher.create 0 : SessionCipher Nat Nat Nat Term).Passive :=
      SessionCipher.passive_create 0
    exact ⟨⟨trivial, rfl, trivial⟩, ⟨trivial, rfl, trivial⟩, ⟨hpassive, rfl, trivial⟩,
      ⟨hpassive, rfl, trivial⟩, trivial, rfl, trivial⟩
  have hblank : ∀ s ∈ history sampleContext answeredActions sampleStore,
      ((s.before.record symbolic 0).toOption.all fun record =>
        record.previousStates.all fun state => state.senderChain.isNone) = true := by
    decide +kernel
  refine ⟨by decide +kernel, pending_exchange_used_once sampleContext sampleContext_distinct 0
    answeredActions sampleStore rfl fun s hs => ?_⟩
  have hmem := action_mem_of_history hs
  refine ⟨fun c hc => (hcalls _ hmem c hc).1, fun c hc => (hcalls _ hmem c hc).2,
    leavesArchived_of_blank fun cipher m record ha hr state hstate => ?_⟩
  have haddr : cipher.remoteAddress = 0 := (hcalls _ hmem _ ha).2.1
  have hall := hblank s hs
  rw [haddr] at hr
  rw [show s.before.record symbolic 0 = .ok record from hr] at hall
  simpa using List.all_eq_true.1 hall state hstate

/-- The peer's side of the first session: it has base key 60, ours is 100, and our ratchet key
is 101. -/
def peerFirstSession : Session Nat Nat Term :=
  Session.alice symbolic
    { ourIdentityKey := symbolic.pair 50
      ourBaseKey := symbolic.pair 60
      theirIdentityKey := 1
      theirSignedPreKey := 100
      theirOneTimePreKey := none
      theirRatchetKey := 101 } 70

/-- The peer starts a session, we offer another one, and the peer answers. -/
def exchangeActions : List (Action Nat Nat Nat Term) :=
  [.call (.processKeyExchangeMessage 0 (peerExchangeMessage keyExchangeInitiateFlag 9 60 61)),
    .call (.process 0),
    .call (.processKeyExchangeMessage 0 (peerExchangeMessage keyExchangeResponseFlag 4 62 63)),
    .call (.encrypt (SessionCipher.create 0) (.text 0))]

/-- Then a late message of the first session arrives, and the answer once more. -/
def revivalActions : List (Action Nat Nat Nat Term) :=
  exchangeActions ++
    [.call (.decryptSignal (SessionCipher.create 0) (sampleMessage peerFirstSession (.text 9))),
      .call (.processKeyExchangeMessage 0 (peerExchangeMessage keyExchangeResponseFlag 4 62 63)),
      .call (.encrypt (SessionCipher.create 0) (.text 0))]

/-- The bytes of the signal message that a step has sent. -/
def Step.sentBytes (s : Step Nat Nat Nat Term) : Option (SerializedMessage Term) :=
  match s.result with
  | .ok (.ciphertext (.signal m)) => some m.serialized
  | _ => none

/-- **One offer, two sessions.**  The key pairs 104 and 105 of the second step initialise the
session of the third step and again the one of the sixth, and the two messages we send there
are the same, byte for byte. -/
theorem pending_exchange_used_twice :
    (history sampleContext revivalActions sampleStore)[1]?.bind (Step.offered symbolic) =
        some (symbolic.pair 104, symbolic.pair 105) ∧
      ((history sampleContext revivalActions sampleStore).filter
        (Step.uses sampleContext (symbolic.pair 104, symbolic.pair 105))).length = 2 ∧
      ((history sampleContext revivalActions sampleStore).filterMap Step.sentBytes).length = 2 ∧
      ¬ ((history sampleContext revivalActions sampleStore).filterMap Step.sentBytes).Nodup := by
  decide +kernel

end SignalProtocol
