/-
# Whom a message is encrypted for

The identity of the remote party is checked when a session is set up, and never again:
`session_cipher_encrypt` uses the current state, whoever its remote identity is.  With a store
that trusts on first use, the question is then how the current state can come to have another
identity than the one that is saved.  There are three ways:

1. the application replaces the saved identity, and nothing has set up a new session yet;
2. a late message is accepted by an archived state of the old identity, which becomes current;
3. a response with a bad signature leaves a session behind, but no saved identity.

`World.Settled` says that current and saved identity agree.  `settled_step` shows that a step
outside of these three cases keeps it, and that setting up a session restores it.  The last
section is a run through the second case.
-/
import SignalProtocol.PendingExchange

namespace SignalProtocol

variable {Addr Priv Pub B : Type}

/-! ## 1. Conditions on steps -/

/-- **Trust on first use**: a key is trusted if none is saved, or if it is the saved one. -/
def TrustsOnFirstUse (ctx : SignalContext Addr Priv Pub B) : Prop :=
  ∀ address saved key, ctx.trusted address saved key = true ↔ saved = none ∨ saved = some key

/-- The remote identity of the current state for an address. -/
def World.recipient (P : Provider Priv Pub B) (address : Addr) (w : World Addr Priv Pub B) :
    Option Pub :=
  match w.record P address with
  | .ok record => record.state.remoteIdentityPublic
  | .error _ => none

/-- The step is a call of `session_cipher_encrypt` that succeeds. -/
def Step.encrypts (s : Step Addr Priv Pub B) : Bool :=
  match s.action, s.result with
  | .call (.encrypt _ _), .ok _ => true
  | _, _ => false

theorem Step.encrypts_iff {s : Step Addr Priv Pub B} :
    s.encrypts = true ↔
      ∃ cipher p reply, s.action = .call (.encrypt cipher p) ∧ s.result = .ok reply := by
  unfold encrypts
  split
  next cipher p reply ha hr => simp [ha, hr]
  next h =>
    refine ⟨nofun, ?_⟩
    rintro ⟨cipher, p, reply, ha, hr⟩
    exact absurd hr (h cipher p reply ha)

/-- **The recipient of a message is trusted at that moment.** -/
def Step.recipientTrusted (ctx : SignalContext Addr Priv Pub B) (address : Addr)
    (s : Step Addr Priv Pub B) : Bool :=
  (s.before.recipient ctx.provider address).any
    (ctx.trusted address (s.before.identities address))

section Conditions

variable [LinearOrder Pub] [DecidableEq B]

/-- **A message that is not for the current state is for one of the saved identity.**  `states`
are the states that are tried; only those behind the first one are looked at. -/
def LateStatesSaved (ctx : SignalContext Addr Priv Pub B) (saved : Option Pub)
    (m : SignalMessage Pub B) (states : List (SessionState Priv Pub B)) : Prop :=
  ∀ i state p state' n, states[i + 1]? = some state →
    AcceptedAt ctx.provider ctx.rng m states p state' (i + 1) n →
    ∃ identity, state.remoteIdentityPublic = some identity ∧ saved = some identity

/-- What a step needs so that it does not change whom we write to without the identity store
being asked. -/
def Step.KeepsRecipient (ctx : SignalContext Addr Priv Pub B) (s : Step Addr Priv Pub B) : Prop :=
  match s.action with
  | .call (.decryptSignal cipher m) =>
    ∀ record, s.before.record ctx.provider cipher.remoteAddress = .ok record →
      LateStatesSaved ctx (s.before.identities cipher.remoteAddress) m record.states
  | .call (.decryptPreKey cipher m) =>
    ∀ record built used, s.before.record ctx.provider cipher.remoteAddress = .ok record →
      Built ctx s.before record m built used →
      LateStatesSaved ctx (s.before.identities cipher.remoteAddress) m.message built.states
  | .call (.processKeyExchangeMessage address message) =>
    message.isInitiate = true ∨ message.checkSignature ctx.provider = .ok () ∨
      (s.before.identities address).isSome = true
  | _ => True

/-- **The step has set up a session**: a bundle was processed, a key exchange message has
changed the stored record, or a pre-key message with a new base key was decrypted. -/
def Step.setsUp (ctx : SignalContext Addr Priv Pub B) (s : Step Addr Priv Pub B) : Bool :=
  match s.action with
  | .call (.processPreKeyBundle _ _) => s.result.isOk
  | .call (.processKeyExchangeMessage address _) =>
    s.after.sessions address ≠ s.before.sessions address
  | .call (.decryptPreKey cipher m) =>
    s.result.isOk && (s.before.record ctx.provider cipher.remoteAddress).toOption.all
      fun record => !record.hasSessionState m.version.toUInt32 m.baseKey
  | _ => false

/-- Whether the saved identity was replaced and no session has been set up since. -/
def Step.staleAfter [DecidableEq Addr] (ctx : SignalContext Addr Priv Pub B) (address : Addr)
    (stale : Bool) (s : Step Addr Priv Pub B) : Bool :=
  match s.action with
  | .replaceIdentity replaced _ => stale || replaced = address
  | _ => stale && !s.setsUp ctx

/-- **After the saved identity is replaced, nothing is encrypted until a session is set up.** -/
def setUpFirst [DecidableEq Addr] (ctx : SignalContext Addr Priv Pub B) (address : Addr) :
    Bool → List (Step Addr Priv Pub B) → Bool
  | _, [] => true
  | stale, s :: rest =>
    !(stale && s.encrypts) && setUpFirst ctx address (s.staleAfter ctx address stale) rest

end Conditions

/-! ## 2. Current and saved identity agree -/

/-- **The current session, if there is one, is with the saved identity.** -/
def World.Settled (P : Provider Priv Pub B) (address : Addr) (w : World Addr Priv Pub B) : Prop :=
  ∀ record, w.record P address = .ok record → record.state.senderChain.isSome = true →
    ∃ identity, record.state.remoteIdentityPublic = some identity ∧
      w.identities address = some identity

section Settled

variable [DecidableEq Addr] [LinearOrder Pub] [DecidableEq B]
  {ctx : SignalContext Addr Priv Pub B} {address : Addr} {w w' : World Addr Priv Pub B}

omit [DecidableEq Addr] [LinearOrder Pub] [DecidableEq B] in
/-- It is enough to look at the record that was stored. -/
theorem settled_of_stored {P : Provider Priv Pub B} {record : SessionRecord Priv Pub B}
    {identity : Pub} (hs : w.sessions address = some (record.serialize P))
    (hremote : record.state.senderChain.isSome = true →
      record.state.remoteIdentityPublic = some identity)
    (hsaved : record.state.senderChain.isSome = true → w.identities address = some identity) :
    w.Settled P address := by
  intro record' hr hsome
  rw [World.record_eq, hs] at hr
  have hstate := (record_of_deserialize hr).1 _ rfl
  have hsome' : record.state.senderChain.isSome = true := by
    have hchain := (decodesTo_of_deserialize hstate).isSome_senderChain
    rwa [hsome, SessionState.serialize, Option.isSome_map, eq_comm] at hchain
  refine ⟨identity, ?_, hsaved hsome'⟩
  exact (congrArg StateLabel.remoteIdentity (label_of_deserialize hstate)).trans (hremote hsome')

omit [DecidableEq Addr] in
/-- The state that accepts a message has a sender chain, and keeps its remote identity. -/
theorem AcceptedAt.ready {P : Provider Priv Pub B} {rng : Rng Priv B} {m : SignalMessage Pub B}
    {states : List (SessionState Priv Pub B)} {p : B} {state' : SessionState Priv Pub B} {i n : Nat}
    (h : AcceptedAt P rng m states p state' i n) :
    ∃ state, states[i]? = some state ∧ state.senderChain.isSome = true ∧
      state'.remoteIdentityPublic = state.remoteIdentityPublic := by
  obtain ⟨state, hi, hlabel⟩ := h.label
  refine ⟨state, hi, ?_, congrArg StateLabel.remoteIdentity hlabel⟩
  cases hchain : state.senderChain with
  | some chain => rfl
  | none => exact absurd h (not_acceptedAt_of_blank hi hchain)

omit [DecidableEq Addr] [LinearOrder Pub] [DecidableEq B] in
theorem senderChain_of_encrypt {P : Provider Priv Pub B} {state state' : SessionState Priv Pub B}
    {p : B} {c : CiphertextMessage Pub B} (h : encryptWithState P state p = .ok (c, state')) :
    state.senderChain.isSome = true := by
  obtain ⟨chainKey, hchain, -⟩ := Op.exists_of_bind_eq_ok h
  cases hs : state.senderChain with
  | some chain => rfl
  | none =>
    rw [SessionState.getSenderChainKey, hs] at hchain
    cases hchain

omit [DecidableEq Addr] [LinearOrder Pub] [DecidableEq B] in
theorem FoundKeys.theirIdentityKey {message : KeyExchangeMessage Pub B}
    {record : SessionRecord Priv Pub B} {p : SymmetricParameters Priv Pub} {flags : UInt32}
    {n : Nat} (h : FoundKeys ctx message w record p flags n) :
    p.theirIdentityKey = message.identityKey := by
  have key : ∀ pending : PendingKeyExchange Priv Pub, pending.parameters message = some p →
      p.theirIdentityKey = message.identityKey := by
    intro pending hp
    obtain ⟨_, -, hp⟩ := Option.bind_eq_some_iff.1 hp
    obtain ⟨_, -, hp⟩ := Option.bind_eq_some_iff.1 hp
    obtain ⟨_, -, hp⟩ := Option.bind_eq_some_iff.1 hp
    cases hp
    rfl
  cases h with
  | fresh => rfl
  | simultaneous pending _ _ _ _ hcomplete => exact key pending hcomplete
  | response pending _ _ _ _ hcomplete => exact key pending hcomplete

omit [DecidableEq Addr] [DecidableEq B] in
/-- The session of a key exchange is with the sender of the message. -/
theorem Agrees.remoteIdentity {message : KeyExchangeMessage Pub B}
    {record : SessionRecord Priv Pub B} {agreed : Agreed Priv Pub B} {n : Nat}
    (h : Agrees ctx address message w record agreed n) :
    agreed.record.state.remoteIdentityPublic = some message.identityKey := by
  obtain ⟨-, -, k, sending, hfound, -, -, hrecord⟩ := h
  rw [hrecord, ← hfound.theirIdentityKey]
  exact congrArg some (agreed.parameters.session_spec ctx.provider sending).2.2.2

omit [DecidableEq Addr] [LinearOrder Pub] [DecidableEq B] in
/-- An identity that is trusted while another one is saved is that one. -/
theorem TrustsOnFirstUse.eq (h : TrustsOnFirstUse ctx) {saved key : Pub}
    (ht : ctx.trusted address (some saved) key = true) : saved = key := by
  rcases (h ..).1 ht with hnone | hsome
  · cases hnone
  · exact Option.some.inj hsome

omit [DecidableEq Addr] in
/-- **Receiving** leaves a current state of the saved identity: the current one was, or the one
that comes forward is. -/
theorem recipient_of_receive {m : SignalMessage Pub B} {record : SessionRecord Priv Pub B}
    {saved : Option Pub} {p : B} {state' : SessionState Priv Pub B} {i n : Nat}
    (hacc : AcceptedAt ctx.provider ctx.rng m record.states p state' i n)
    (hlate : LateStatesSaved ctx saved m record.states)
    (hcurrent : i = 0 → record.state.senderChain.isSome = true →
      ∃ identity, record.state.remoteIdentityPublic = some identity ∧ saved = some identity) :
    ∃ identity, (record.accept state' i).state.remoteIdentityPublic = some identity ∧
      saved = some identity := by
  obtain ⟨state, hi, hchain, hremote⟩ := hacc.ready
  cases i with
  | zero =>
    cases hi
    obtain ⟨identity, hidentity, hsaved⟩ := hcurrent rfl hchain
    exact ⟨identity, hremote.trans hidentity, hsaved⟩
  | succ i =>
    obtain ⟨identity, hidentity, hsaved⟩ := hlate i state p state' n hi hacc
    exact ⟨identity, hremote.trans hidentity, hsaved⟩

/-- **A change leaves current and saved identity in agreement**, if they agreed before or if it
has set up a session. -/
theorem settled_changed (htofu : TrustsOnFirstUse ctx) {c : Call Addr Priv Pub B}
    {r : Except SgError (Reply Pub B)} {record record' : SessionRecord Priv Pub B}
    {saved : Option Pub} {used : Option UInt32} {n n' : Nat}
    (hr : w.record ctx.provider c.address = .ok record)
    (hc : Change ctx w record c r record' saved used n)
    (hkeeps : (⟨w, .call c, r, w'⟩ : Step Addr Priv Pub B).KeepsRecipient ctx)
    (hw : (⟨w, .call c, r, w'⟩ : Step Addr Priv Pub B).setsUp ctx = true ∨
      w.Settled ctx.provider c.address) :
    (w.changed ctx.provider c.address record' saved used n').Settled ctx.provider c.address := by
  have hstored : (w.changed ctx.provider c.address record' saved used n').sessions c.address =
      some (record'.serialize ctx.provider) := by simp
  have hidentities : ∀ identity, saved = some identity ∨
      saved = none ∧ w.identities c.address = some identity →
        (w.changed ctx.provider c.address record' saved used n').identities c.address =
          some identity := by
    rintro identity (rfl | ⟨rfl, hsaved⟩)
    · simp [World.saveOptional, World.saveIdentity]
    · simpa [World.saveOptional] using hsaved
  cases hc with
  | send hsend =>
    obtain ⟨identity, hremote, hsaved⟩ :=
      hw.resolve_left Bool.false_ne_true record hr (senderChain_of_encrypt hsend)
    exact settled_of_stored hstored
      (fun _ => (congrArg StateLabel.remoteIdentity (label_encryptWithState hsend)).trans hremote)
      fun _ => hidentities identity (.inr ⟨rfl, hsaved⟩)
  | receive hn hacc =>
    obtain ⟨identity, hremote, hsaved⟩ := recipient_of_receive hacc (hkeeps record hr)
      fun _ hsome => hw.resolve_left Bool.false_ne_true record hr hsome
    exact settled_of_stored hstored (fun _ => hremote)
      fun _ => hidentities identity (.inr ⟨rfl, hsaved⟩)
  | @initiate _ _ identity =>
    exact settled_of_stored hstored (fun _ => rfl) fun _ => hidentities identity (.inl rfl)
  | @respond cipher m p built used state' i n hn ht hb hacc =>
    -- the sender's identity is trusted, so it is the saved one as soon as one is saved
    have hsame : ∀ identity, w.identities cipher.remoteAddress = some identity →
        identity = m.identityKey := fun identity hsaved => htofu.eq (hsaved ▸ ht)
    have hlate := hkeeps record built used hr hb
    cases hb with
    | known hknown =>
      have hsettled := hw.resolve_left fun hset => by
        have hload : w.record ctx.provider cipher.remoteAddress = .ok record := hr
        simp [Step.setsUp, hload, Except.toOption, hknown] at hset
      obtain ⟨identity, hremote, hsaved⟩ := recipient_of_receive hacc hlate
        fun _ hsome => hsettled record hr hsome
      exact settled_of_stored hstored (fun _ => hremote)
        fun _ => hidentities identity (.inl (congrArg some (hsame identity hsaved).symm))
    | new hnew hsigned honce =>
      refine settled_of_stored hstored (fun _ => ?_) fun _ => hidentities m.identityKey (.inl rfl)
      obtain ⟨state, hi, -, hremote⟩ := hacc.ready
      cases i with
      | zero =>
        cases hi
        exact hremote
      | succ i =>
        obtain ⟨identity, hidentity, hsaved⟩ := hlate i state p state' n hi hacc
        rw [← hsame identity hsaved]
        exact hremote.trans hidentity
  | offer hb hratchet =>
    by_cases hsome : record.state.senderChain.isSome = true
    · obtain ⟨identity, hremote, hsaved⟩ := hw.resolve_left Bool.false_ne_true record hr hsome
      exact settled_of_stored hstored (fun _ => hremote)
        fun _ => hidentities identity (.inr ⟨rfl, hsaved⟩)
    · intro record'' hr'' hsome''
      rw [World.record_eq, hstored] at hr''
      have hstate := (record_of_deserialize hr'').1 _ rfl
      have hchain := (decodesTo_of_deserialize hstate).isSome_senderChain
      rw [hsome'', SessionState.serialize, Option.isSome_map] at hchain
      exact absurd hchain.symm hsome
  | @agree address message _ agreed _ _ hagrees hs =>
    refine settled_of_stored hstored (fun _ => hagrees.remoteIdentity) fun _ => ?_
    refine hidentities _ ?_
    rcases hs with hs | ⟨hnone, hi, hcheck⟩
    · exact Or.inl hs
    · refine Or.inr ⟨hnone, ?_⟩
      rcases hkeeps with hkeeps | hkeeps | hkeeps
      · cases hkeeps.symm.trans hi
      · exact absurd hkeeps hcheck
      · obtain ⟨identity, hidentity⟩ := Option.isSome_iff_exists.1 hkeeps
        have ht := hagrees.1
        rw [hidentity] at ht
        rw [← htofu.eq ht]
        exact hidentity

omit [LinearOrder Pub] [DecidableEq B] in
/-- Saving a trusted identity changes nothing for an established session. -/
theorem settled_saved (htofu : TrustsOnFirstUse ctx) {saved : Option Pub} {n : Nat}
    (hs : ∀ identity ∈ saved, ctx.trusted address (w.identities address) identity = true)
    (hw : w.Settled ctx.provider address) :
    ((w.saveOptional address saved).at n).Settled ctx.provider address := by
  intro record hr hsome
  have hr' : w.record ctx.provider address = .ok record := by
    rw [World.record_eq] at hr ⊢
    simpa [World.at] using hr
  obtain ⟨identity, hremote, hidentity⟩ := hw record hr' hsome
  refine ⟨identity, hremote, ?_⟩
  cases saved with
  | none => exact hidentity
  | some key =>
    have ht := hs key rfl
    rw [hidentity] at ht
    rw [htofu.eq ht]
    exact Function.update_self ..

/-- A call that has changed no record has set up no session. -/
theorem setsUp_idle {c : Call Addr Priv Pub B} {r : Except SgError (Reply Pub B)}
    {saved : Option Pub} {n : Nat} (hf : (∃ e, r = .error e) ∨ c.IsKeyExchange) :
    (⟨w, .call c, r, (w.saveOptional c.address saved).at n⟩ :
      Step Addr Priv Pub B).setsUp ctx = false := by
  cases c with
  | processKeyExchangeMessage address message => simp [Step.setsUp, World.at]
  | processPreKeyBundle =>
    obtain ⟨e, rfl⟩ := hf.resolve_right id
    rfl
  | decryptPreKey =>
    obtain ⟨e, rfl⟩ := hf.resolve_right id
    rfl
  | _ => rfl

/-- **A step keeps current and saved identity in agreement**, unless the saved one has been
replaced; setting up a session restores the agreement. -/
theorem settled_step (htofu : TrustsOnFirstUse ctx) (a : Action Addr Priv Pub B) {stale : Bool}
    (ha : ∀ c, a = .call c → c.address = address) (hatomic : (a.step ctx w).Atomic)
    (hkeeps : (a.step ctx w).KeepsRecipient ctx)
    (hw : stale = false → w.Settled ctx.provider address)
    (hfresh : (a.step ctx w).staleAfter ctx address stale = false) :
    (a.step ctx w).after.Settled ctx.provider address := by
  cases a with
  | storePreKey preKeyId keyPair =>
    have hsettled := hw (by simpa [Step.staleAfter, Step.setsUp, Action.step] using hfresh)
    intro record hr
    rw [World.record_eq] at hr
    exact hsettled record (by rw [World.record_eq]; exact hr)
  | replaceIdentity replaced key =>
    obtain ⟨hstale, hne⟩ : stale = false ∧ replaced ≠ address := by
      simpa [Step.staleAfter, Action.step] using hfresh
    intro record hr hsome
    rw [World.record_eq] at hr
    obtain ⟨identity, hremote, hsaved⟩ :=
      hw hstale record (by rw [World.record_eq]; exact hr) hsome
    exact ⟨identity, hremote, (Function.update_of_ne hne.symm _ _).trans hsaved⟩
  | call c =>
    obtain rfl := ha c rfl
    rcases hrun : c.run ctx w with ⟨r, w'⟩
    rw [Action.step_call hrun] at hatomic hkeeps hfresh ⊢
    have hor : (⟨w, .call c, r, w'⟩ : Step Addr Priv Pub B).setsUp ctx = true ∨
        w.Settled ctx.provider c.address := by
      cases hset : (⟨w, .call c, r, w'⟩ : Step Addr Priv Pub B).setsUp ctx with
      | true => exact .inl rfl
      | false => exact .inr (hw (by simpa [Step.staleAfter, hset] using hfresh))
    cases Call.run_outcome (hatomic c rfl) hrun with
    | idle saved hf hn hs =>
      refine settled_saved htofu hs (hor.resolve_left ?_)
      rw [setsUp_idle hf]
      exact Bool.false_ne_true
    | changed saved used hr hc hn => exact settled_changed htofu hr hc hkeeps hor

/-! ## 3. Encrypting -/

/-- A step of a run with one address that does not change the recipient unasked. -/
structure Step.WithAddress (ctx : SignalContext Addr Priv Pub B) (address : Addr)
    (s : Step Addr Priv Pub B) : Prop where
  atomic : s.Atomic
  call : ∀ c, s.action = .call c → c.address = address
  keepsRecipient : s.KeepsRecipient ctx

theorem trusted_of_settled (htofu : TrustsOnFirstUse ctx) {cipher : SessionCipher Addr Priv Pub B}
    {p : B} {reply : Reply Pub B} (hc : cipher.Passive)
    (hrun : (Call.encrypt cipher p).run ctx w = (.ok reply, w'))
    (hw : w.Settled ctx.provider cipher.remoteAddress) :
    (⟨w, .call (.encrypt cipher p), .ok reply, w'⟩ :
      Step Addr Priv Pub B).recipientTrusted ctx cipher.remoteAddress = true := by
  cases Call.run_outcome (c := .encrypt cipher p) hc hrun with
  | idle saved hf hn hs =>
    obtain ⟨e, he⟩ := hf.resolve_right id
    cases he
  | @changed record _ _ _ _ _ hr hchange _ =>
    cases hchange with
    | send hsend =>
      obtain ⟨identity, hremote, hsaved⟩ := hw record hr (senderChain_of_encrypt hsend)
      have hrecipient : w.recipient ctx.provider cipher.remoteAddress = some identity := by
        rw [World.recipient, show w.record ctx.provider cipher.remoteAddress = .ok record from hr]
        exact hremote
      rw [Step.recipientTrusted, hrecipient]
      exact (htofu ..).2 (.inr hsaved)

/-- The same for a run that starts with a replaced identity, or with a settled one. -/
theorem trusted_of_setUpFirst (htofu : TrustsOnFirstUse ctx)
    (actions : List (Action Addr Priv Pub B)) (stale : Bool) (w : World Addr Priv Pub B)
    (hw : stale = false → w.Settled ctx.provider address)
    (hsteps : ∀ s ∈ history ctx actions w, s.WithAddress ctx address)
    (horder : setUpFirst ctx address stale (history ctx actions w) = true) :
    ∀ s ∈ history ctx actions w, s.encrypts = true →
      s.recipientTrusted ctx address = true := by
  induction actions generalizing stale w with
  | nil => exact fun s hs => absurd hs List.not_mem_nil
  | cons a actions ih =>
    intro s hs hencrypts
    have hfirst := hsteps _ List.mem_cons_self
    rw [history, setUpFirst, Bool.and_eq_true] at horder
    rcases List.mem_cons.1 hs with rfl | hs
    · have hfresh : stale = false := by simpa [hencrypts] using horder.1
      obtain ⟨cipher, p, reply, haction, hresult⟩ := Step.encrypts_iff.1 hencrypts
      obtain rfl : a = .call (.encrypt cipher p) := haction
      obtain rfl := hfirst.call _ rfl
      have hrun : (Call.encrypt cipher p).run ctx w =
          (.ok reply, ((Action.call (.encrypt cipher p)).step ctx w).after) :=
        Prod.ext hresult rfl
      rw [Action.step_call hrun]
      exact trusted_of_settled htofu (hfirst.atomic _ rfl) hrun (hw hfresh)
    · refine ih _ _ ?_ (fun t ht => hsteps t (List.mem_cons_of_mem _ ht)) horder.2 s hs hencrypts
      exact settled_step htofu a hfirst.call hfirst.atomic hfirst.keepsRecipient hw

/-- **Messages are encrypted for a trusted identity**, in every run with one address in which
no state but the current one accepts a message unless it is of the saved identity, no response
with a bad signature is processed while no identity is saved, and a replaced identity is
followed by the set-up of a session before anything is encrypted. -/
theorem encrypts_for_trusted_identity (ctx : SignalContext Addr Priv Pub B)
    (htofu : TrustsOnFirstUse ctx) (address : Addr) (actions : List (Action Addr Priv Pub B))
    (w : World Addr Priv Pub B) (hempty : w.sessions address = none)
    (hsteps : ∀ s ∈ history ctx actions w, s.WithAddress ctx address)
    (horder : setUpFirst ctx address false (history ctx actions w) = true) :
    ∀ s ∈ history ctx actions w, s.encrypts = true →
      s.recipientTrusted ctx address = true := by
  refine trusted_of_setUpFirst htofu actions false w (fun _ => ?_) hsteps horder
  intro record hr hsome
  rw [World.record_eq, hempty] at hr
  cases hr
  cases hsome

end Settled

/-! ## 4. A late message -/

/-- The sample party with a store that trusts on first use. -/
def tofuContext : SignalContext Nat Nat Nat Term :=
  ⟨symbolic, symbolicRng 100 1, fun _ saved key => saved.all (· = key)⟩

theorem tofuContext_trusts : TrustsOnFirstUse tofuContext := by
  intro address saved key
  cases saved with
  | none => simp [tofuContext]
  | some k => simp [tofuContext, eq_comm]

/-- The bundle of the peer after it has changed its identity to 50. -/
def changedBundle : PreKeyBundle Nat Term where
  registrationId := 8
  preKeyId := 0
  preKeyPublic := none
  signedPreKeyId := 4
  signedPreKeyPublic := some 52
  signedPreKeySignature := some (.signed 50 (.point 52) .nil)
  identityKey := some 50

/-- A session with identity 11; the application learns that the peer is identity 50 now,
replaces the saved identity and sets up a session with it. -/
def changedActions : List (Action Nat Nat Nat Term) :=
  [.call (.processPreKeyBundle 0 sampleBundle),
    .call (.decryptSignal (SessionCipher.create 0) (sampleMessage samplePeerSession (.text 9))),
    .call (.encrypt (SessionCipher.create 0) (.text 0)),
    .replaceIdentity 0 50,
    .call (.processPreKeyBundle 0 changedBundle),
    .call (.encrypt (SessionCipher.create 0) (.text 1))]

/-- The message of a step, if it has one, reaches a record without archived states. -/
def Step.nothingArchived (s : Step Nat Nat Nat Term) : Bool :=
  match s.action with
  | .call (.decryptSignal cipher _) =>
    (s.before.record symbolic cipher.remoteAddress).toOption.all fun record =>
      record.previousStates.isEmpty
  | _ => true

/-- Without a late message both encryptions are for the identity saved at the time. -/
theorem encrypts_for_trusted_identity_changed :
    (history tofuContext changedActions sampleStore).map Step.encrypts =
        [false, false, true, false, false, true] ∧
      ∀ s ∈ history tofuContext changedActions sampleStore, s.encrypts = true →
        s.recipientTrusted tofuContext 0 = true := by
  have hpassive : (SessionCipher.create 0 : SessionCipher Nat Nat Nat Term).Passive :=
    SessionCipher.passive_create 0
  have hcalls : ∀ a ∈ changedActions, ∀ c, a = .call c → c.Atomic ∧ c.address = 0 := by
    simp only [changedActions, List.forall_mem_cons, List.not_mem_nil, false_implies,
      implies_true, and_true, Action.call.injEq, forall_eq', reduceCtorEq, true_and]
    exact ⟨⟨trivial, rfl⟩, ⟨hpassive, rfl⟩, ⟨hpassive, rfl⟩, ⟨trivial, rfl⟩, hpassive, rfl⟩
  have hplain : ∀ a ∈ changedActions, (∀ cipher m, a ≠ .call (.decryptPreKey cipher m)) ∧
      ∀ address m, a ≠ .call (.processKeyExchangeMessage address m) := by
    simp [changedActions]
  have harchived : ∀ s ∈ history tofuContext changedActions sampleStore,
      s.nothingArchived = true := by decide +kernel
  refine ⟨by decide +kernel, encrypts_for_trusted_identity tofuContext tofuContext_trusts 0
    changedActions sampleStore rfl (fun s hs => ?_) (by decide +kernel)⟩
  have hmem := action_mem_of_history hs
  refine ⟨fun c hc => (hcalls _ hmem c hc).1, fun c hc => (hcalls _ hmem c hc).2, ?_⟩
  unfold Step.KeepsRecipient
  split
  next cipher m ha =>
    intro record hr i state p state' n hi
    have hall := harchived s hs
    simp only [Step.nothingArchived, ha] at hall
    rw [show s.before.record symbolic cipher.remoteAddress = .ok record from hr] at hall
    have hempty : record.previousStates = [] := List.isEmpty_iff.1 hall
    rw [SessionRecord.states, hempty] at hi
    cases hi
  next cipher m ha => exact absurd ha ((hplain _ hmem).1 cipher m)
  next address m ha => exact absurd ha ((hplain _ hmem).2 address m)
  next => trivial

/-- Then a late message of the first session arrives. -/
def lateActions : List (Action Nat Nat Nat Term) :=
  changedActions ++
    [.call (.decryptSignal (SessionCipher.create 0)
      (sampleMessage samplePeerSession.sent (.text 8))),
      .call (.encrypt (SessionCipher.create 0) (.text 2))]

/-- **A late message redirects what we write to the old identity**: the last encryption
succeeds, for identity 11, while 50 is saved. -/
theorem late_message_redirects :
    ((history tofuContext lateActions sampleStore)[7]?.map fun s =>
        (s.encrypts, s.before.recipient symbolic 0, s.before.identities 0)) =
        some (true, some 11, some 50) ∧
      ¬ ∀ s ∈ history tofuContext lateActions sampleStore, s.encrypts = true →
        s.recipientTrusted tofuContext 0 = true := by
  decide +kernel

end SignalProtocol
