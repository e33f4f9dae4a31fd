/-
# Which session a pre-key message commits

If the base key of a pre-key message is new, the builder sets up a session from the wrapper and
the cipher then tries the inner message against that session and, failing that, against the
ones that were there before.  Over every history of the library's calls, a call that succeeds
has verified the inner message under the new session, and made it the current one, exactly if
no older session accepts the inner message (`preKey_message_commits_new_iff`).

What has to be shown is that no older session accepts what the new one accepts.  A message
tells the chain it was made on, and the chain its secret and its depth.

* The parties take turns on the root chain, so a session receives at depths of one parity
  (`Session.Turned`).  A new session in Bob's role accepts at depth 1, and no session in Alice's
  role ever does.
* A session in Bob's role that a pre-key message set up has the base key in its secret and in
  its record, where the builder would have found it.
* A session in Bob's role that a key exchange set up has no base key in its record.  Its secret
  holds a base key that the party drew, in the place of the signed pre key.

Section 3 carries this through every call (`Change.descends`), for any number of addresses.
-/
import SignalProtocol.Current
import SignalProtocol.WellFormed

namespace SignalProtocol

variable {Addr Priv Pub B : Type}

/-! ## 1. Turns -/

section Turned

variable (P : Provider Priv Pub B)

/-- **A session of one side.**  The root key lies at a depth of the parity of the side, 1 for
Alice and 0 for Bob; the receiving chains lie at depths of the other parity. -/
structure Session.Turned (s : Session Priv Pub B) (secret : List B) (side : Nat) : Prop where
  root : ∃ d, d % 2 = side ∧ RootAt P secret d s.root
  chains : ∀ c ∈ s.receivers, ∃ e, (e + 1) % 2 = side ∧ StartAt P secret e c.start

variable {P} {s : Session Priv Pub B} {secret : List B} {side : Nat}

theorem Session.turned_alice (p : AliceParameters Priv Pub) (sending : Priv) :
    (Session.alice P p sending).Turned P (p.secret P) 1 := by
  refine ⟨⟨1, rfl, _, _, rfl, rfl⟩, fun c hc => ?_⟩
  rw [List.mem_singleton.1 hc]
  exact ⟨0, rfl, rfl⟩

theorem Session.turned_bob (p : BobParameters Priv Pub) :
    (Session.bob P p).Turned P (p.secret P) 0 :=
  ⟨⟨0, rfl, rfl⟩, nofun⟩

/-- The chain that a session would open next is one for the peer's turn. -/
theorem Session.Turned.newChain (h : s.Turned P secret side) (key : Pub) :
    ∃ e, (e + 1) % 2 = side ∧ StartAt P secret e (s.newChain P key).start := by
  obtain ⟨d, hd, hroot⟩ := h.root
  exact ⟨d + 1, by omega, s.root, _, hroot, rfl⟩

variable [DecidableEq Pub]

theorem Session.Turned.setWindow (h : s.Turned P secret side) (key : Pub)
    (w : Window maxMessageKeys) : (s.setWindow key w).acknowledge.Turned P secret side := by
  refine ⟨h.root, fun c hc => ?_⟩
  rcases Session.mem_setWindow hc with ⟨hc, -⟩ | ⟨c₀, hc₀, -, rfl⟩
  · exact h.chains c hc
  · exact h.chains c₀ hc₀

/-- A ratchet step is one turn of each party. -/
theorem Session.Turned.ratchet (h : s.Turned P secret side) (key : Pub)
    (hkey : s.chainFor key = none) (ours : Priv) :
    (s.ratchet P key hkey ours).Turned P secret side := by
  obtain ⟨d, hd, hroot⟩ := h.root
  refine ⟨⟨d + 2, by omega, _, _, ⟨_, _, hroot, rfl⟩, rfl⟩, fun c hc => ?_⟩
  rcases List.mem_append.1 (Window.mem_of_mem_rtake hc) with hc | hc
  · exact h.chains c hc
  · rw [List.mem_singleton.1 hc]
    exact h.newChain key

theorem Session.Turned.receive [DecidableEq B] (h : s.Turned P secret side) {rng : Rng Priv B}
    {m : SignalMessage Pub B} {p : B} {s' : Session Priv Pub B} {n n' : Nat}
    (hr : s.receive P rng m n = (.ok (p, s'), n')) : s'.Turned P secret side := by
  obtain ⟨-, c, s₁, w, ho, -, -, -, rfl⟩ := Session.receive_ok_iff.1 hr
  rcases openChain_ok_iff.1 ho with ⟨-, rfl, -⟩ | ⟨hc, ours, -, -, rfl, -⟩
  · exact h.setWindow _ w
  · exact (h.ratchet _ hc ours).setWindow _ w

/-- Every message is tried on a chain for the peer's turn. -/
theorem Session.Turned.startFor (h : s.Turned P secret side) (key : Pub) :
    ∃ e, (e + 1) % 2 = side ∧ StartAt P secret e (s.startFor P key) := by
  rcases Option.eq_none_or_eq_some (s.chainFor key) with hc | ⟨c, hc⟩
  · rw [Session.startFor, hc]
    exact h.newChain key
  · rw [Session.startFor, hc]
    exact h.chains c (Session.chainFor_mem hc).1

end Turned

/-! ## 2. Where a state comes from -/

section Descent

/-- **Where a session comes from.**  In Bob's role the third part of the secret is the
agreement of the initiator's base key with the party's identity.  The session is named after
that base key; or it was agreed by a key exchange, and then the fourth part is the agreement of
the peer's base key with one that the party drew, at a position from `n₀` on. -/
inductive Descent (ctx : SignalContext Addr Priv Pub B) (n₀ : Nat) (identity : Priv)
    (s : Session Priv Pub B) : Prop
  | alice {secret : List B} (turned : s.Turned ctx.provider secret 1)
  | named {secret : List B} {base : Pub} (turned : s.Turned ctx.provider secret 0)
      (hbase : s.aliceBaseKey = some base)
      (third : secret[2]? = some (ctx.provider.agreement base identity))
  | agreed {secret : List B} {base : Pub} {own : Priv} {j : Nat}
      (turned : s.Turned ctx.provider secret 0) (hj : n₀ ≤ j)
      (hown : ctx.rng.privateKey j = .ok own)
      (third : secret[2]? = some (ctx.provider.agreement base identity))
      (fourth : secret[3]? = some (ctx.provider.agreement base own))

/-- The keys of an offer: the party's identity and a base key it drew. -/
structure PendingKeyExchange.Offered (ctx : SignalContext Addr Priv Pub B) (n₀ : Nat)
    (identity : EcKeyPair Priv Pub) (pending : PendingKeyExchange Priv Pub) : Prop where
  identity : ∀ pair ∈ pending.localIdentityKey, pair = identity
  base : ∀ pair ∈ pending.localBaseKey, ∃ j own, n₀ ≤ j ∧ ctx.rng.privateKey j = .ok own ∧
    pair = ctx.provider.pair own

/-- **Where a state comes from**: it holds a session, or at most an offer. -/
inductive Descended (ctx : SignalContext Addr Priv Pub B) (n₀ : Nat)
    (identity : EcKeyPair Priv Pub) : SessionState Priv Pub B → Prop
  | session {s : Session Priv Pub B} (range : s.InRange)
      (descent : Descent ctx n₀ identity.privateKey s)
      (offered : ∀ pending ∈ s.pendingKeyExchange, pending.Offered ctx n₀ identity) :
      Descended ctx n₀ identity (s.toState ctx.provider)
  | blank {pending : Option (PendingKeyExchange Priv Pub)}
      (offered : ∀ e ∈ pending, e.Offered ctx n₀ identity) :
      Descended ctx n₀ identity { SessionState.create with pendingKeyExchange := pending }

variable {ctx : SignalContext Addr Priv Pub B} {n₀ : Nat} {s s' : Session Priv Pub B}
  {identity : EcKeyPair Priv Pub} {state state' : SessionState Priv Pub B}

/-- A session that keeps its turns and its base key. -/
theorem Descent.replace {identity : Priv} (h : Descent ctx n₀ identity s)
    (hb : s'.aliceBaseKey = s.aliceBaseKey)
    (ht : ∀ secret side, s.Turned ctx.provider secret side → s'.Turned ctx.provider secret side) :
    Descent ctx n₀ identity s' := by
  cases h with
  | alice turned => exact .alice (ht _ _ turned)
  | named turned hbase third => exact .named (ht _ _ turned) (hb.trans hbase) third
  | agreed turned hj hown third fourth => exact .agreed (ht _ _ turned) hj hown third fourth

theorem Descended.shaped (h : Descended ctx n₀ identity state) : Shaped ctx.provider state := by
  cases h with
  | session range descent offered => exact .session range
  | blank offered => exact .blank _

theorem Descended.offered (h : Descended ctx n₀ identity state) :
    ∀ pending ∈ state.pendingKeyExchange, pending.Offered ctx n₀ identity := by
  cases h with
  | session range descent offered => exact offered
  | blank offered => exact offered

/-- Offering a key exchange. -/
theorem Descended.setPendingKeyExchange (h : Descended ctx n₀ identity state) (sequence : UInt32)
    {base : Priv} {j : Nat} (hj : n₀ ≤ j) (hbase : ctx.rng.privateKey j = .ok base)
    (ratchet : EcKeyPair Priv Pub) :
    Descended ctx n₀ identity
      (state.setPendingKeyExchange sequence (ctx.provider.pair base) ratchet identity) := by
  have hoffered : ∀ pending ∈ (some ⟨sequence, some (ctx.provider.pair base), some ratchet,
      some identity⟩ : Option (PendingKeyExchange Priv Pub)), pending.Offered ctx n₀ identity := by
    rintro pending ⟨⟩
    refine ⟨?_, ?_⟩
    · rintro pair ⟨⟩
      rfl
    · rintro pair ⟨⟩
      exact ⟨j, base, hj, hbase, rfl⟩
  cases h with
  | @session s range descent offered =>
    exact Descended.session (s := { s with
      pendingKeyExchange := some ⟨sequence, some (ctx.provider.pair base), some ratchet,
        some identity⟩ }) ⟨range.sender, range.receivers⟩
      (descent.replace rfl fun _ _ ht => ⟨ht.root, ht.chains⟩) hoffered
  | blank offered => exact .blank hoffered

theorem Descended.encrypt (h : Descended ctx n₀ identity state) {p : B}
    {c : CiphertextMessage Pub B} (hsend : encryptWithState ctx.provider state p = .ok (c, state'))
    (hc : c.inner.counter.toNat + 1 < 2 ^ 32) : Descended ctx n₀ identity state' := by
  cases h with
  | @session s range descent offered =>
    rw [encryptWithState_toState] at hsend
    rcases hs : s.send ctx.provider p with e | ⟨c', s'⟩ <;> rw [hs] at hsend <;> cases hsend
    have hrange := Session.inRange_send range hs hc
    obtain ⟨-, -, -, rfl⟩ := Session.send_ok_iff.1 hs
    exact .session hrange (descent.replace rfl fun _ _ ht => ⟨ht.root, ht.chains⟩) offered
  | blank offered => cases hsend

theorem Descended.decrypt [DecidableEq Pub] [DecidableEq B] (h : Descended ctx n₀ identity state)
    {m : SignalMessage Pub B} {p : B} {k n : Nat}
    (hdec : sessionCipherDecryptFromState ctx.provider ctx.rng state m k = (.ok (p, state'), n))
    (hm : m.counter.toNat + 1 < 2 ^ 32) : Descended ctx n₀ identity state' := by
  cases h with
  | @session s range descent offered =>
    rw [decryptFromState_toState ctx.rng range] at hdec
    obtain ⟨⟨q, s'⟩, n', hr, hresult⟩ := Op.bind_ok_iff.1 hdec
    cases hresult
    obtain ⟨-, -, hbase, hpending, -⟩ := Session.receive_frame hr
    exact .session (Session.inRange_receive range hm hr)
      (descent.replace hbase fun _ _ ht => ht.receive hr) (hpending ▸ offered)
  | blank offered => cases hdec

theorem Descended.responded (store : Store Addr Priv Pub B) (signedPreKey : EcKeyPair Priv Pub)
    (oneTimePreKey : Option (EcKeyPair Priv Pub)) (m : PreKeySignalMessage Pub B) :
    Descended ctx n₀ store.identityKeyPair
      ((Session.responded ctx.provider store signedPreKey oneTimePreKey m).toState
        ctx.provider) := by
  have hturned := Session.turned_bob (P := ctx.provider)
    (responseParameters store.identityKeyPair signedPreKey oneTimePreKey m)
  exact .session (Session.inRange_responded ..) (.named ⟨hturned.root, hturned.chains⟩ rfl rfl)
    nofun

theorem Descended.initiated (store : Store Addr Priv Pub B) (bundle : PreKeyBundle Pub B)
    (their signedPreKey : Pub) (base sending : Priv) :
    Descended ctx n₀ identity ((Session.initiated ctx.provider store bundle their signedPreKey
      base sending).toState ctx.provider) := by
  have hturned := Session.turned_alice (P := ctx.provider)
    (bundleParameters store.identityKeyPair bundle their signedPreKey (ctx.provider.pair base))
    sending
  exact .session (Session.inRange_initiated ..) (.alice ⟨hturned.root, hturned.chains⟩) nofun

/-- **The keys of a key exchange**: the party's identity and a base key it drew. -/
theorem FoundKeys.own [LinearOrder Pub] [DecidableEq B] {message : KeyExchangeMessage Pub B}
    {w : World Addr Priv Pub B} {record : SessionRecord Priv Pub B}
    {parameters : SymmetricParameters Priv Pub} {flags : UInt32} {n : Nat}
    (h : FoundKeys ctx message w record parameters flags n) (hn : n₀ ≤ w.drawn)
    (hs : Descended ctx n₀ w.identityKeyPair record.state) :
    parameters.ourIdentityKey = w.identityKeyPair ∧ ∃ j own, n₀ ≤ j ∧
      ctx.rng.privateKey j = .ok own ∧ parameters.ourBaseKey = ctx.provider.pair own := by
  have hpending : ∀ pending, record.state.pendingKeyExchange = some pending →
      pending.parameters message = some parameters →
      parameters.ourIdentityKey = w.identityKeyPair ∧ ∃ j own, n₀ ≤ j ∧
        ctx.rng.privateKey j = .ok own ∧ parameters.ourBaseKey = ctx.provider.pair own := by
    intro pending hsome hcomplete
    have hoffered := hs.offered pending hsome
    simp only [PendingKeyExchange.parameters, bind, Option.bind_eq_some_iff] at hcomplete
    obtain ⟨ourIdentityKey, hidentity, ourBaseKey, hbase, ourRatchetKey, -, hresult⟩ := hcomplete
    cases hresult
    exact ⟨hoffered.identity _ hidentity, hoffered.base _ hbase⟩
  cases h with
  | fresh base ratchet hi signed none hbase hratchet =>
    exact ⟨rfl, w.drawn, base, hn, hbase, rfl⟩
  | simultaneous pending parameters hi signed hsome hcomplete =>
    exact hpending pending hsome hcomplete
  | response pending parameters hi hsome hsequence hcomplete =>
    exact hpending pending hsome hcomplete

/-- The session of a key exchange, in either role. -/
theorem Descended.symmetric {parameters : SymmetricParameters Priv Pub}
    (hid : parameters.ourIdentityKey = identity) {j : Nat} {own : Priv} (hj : n₀ ≤ j)
    (hown : ctx.rng.privateKey j = .ok own)
    (hbase : parameters.ourBaseKey = ctx.provider.pair own) (sending : Option Priv) :
    Descended ctx n₀ identity
      ((parameters.session ctx.provider sending).toState ctx.provider) := by
  obtain ⟨hrange, -, hpending, -⟩ := parameters.session_spec ctx.provider sending
  refine .session hrange ?_ (hpending ▸ nofun)
  cases sending with
  | some key => exact .alice (Session.turned_alice ..)
  | none =>
    have hfourth : some (ctx.provider.agreement parameters.theirBaseKey
        parameters.ourBaseKey.privateKey) =
          some (ctx.provider.agreement parameters.theirBaseKey own) := by
      rw [hbase]
      rfl
    refine .agreed (Session.turned_bob ..) hj hown ?_ hfourth
    rw [← hid]
    rfl

end Descent

/-! ## 3. Every stored state -/

section Descends

variable [LinearOrder Pub] [DecidableEq B] {ctx : SignalContext Addr Priv Pub B} {n₀ n : Nat}
  {w : World Addr Priv Pub B} {c : Call Addr Priv Pub B} {r : Except SgError (Reply Pub B)}
  {record record' : SessionRecord Priv Pub B} {saved : Option Pub} {used : Option UInt32}

/-- It is known where every state of the record comes from. -/
def Descends (ctx : SignalContext Addr Priv Pub B) (n₀ : Nat) (identity : EcKeyPair Priv Pub)
    (record : SessionRecord Priv Pub B) : Prop :=
  ∀ state ∈ record.states, Descended ctx n₀ identity state

theorem Descends.acceptedAt {identity : EcKeyPair Priv Pub} (h : Descends ctx n₀ identity record)
    {m : SignalMessage Pub B} {p : B} {state' : SessionState Priv Pub B} {i k : Nat}
    (ha : AcceptedAt ctx.provider ctx.rng m record.states p state' i k)
    (hm : m.counter.toNat + 1 < 2 ^ 32) : Descended ctx n₀ identity state' := by
  obtain ⟨state, copy, j, hi, hcopy, hdec⟩ := ha
  have hstate := h state (List.mem_of_getElem? hi)
  rw [hstate.shaped.copy] at hcopy
  cases hcopy
  exact hstate.decrypt hdec hm

/-- **Every change leaves states whose origin is known.** -/
theorem Change.descends (h : Descends ctx n₀ w.identityKeyPair record) (hn : n₀ ≤ w.drawn)
    (hc : Change ctx w record c r record' saved used n)
    (hbounded : ∀ k ∈ c.counter r, k.toNat + 1 < 2 ^ 32) :
    Descends ctx n₀ w.identityKeyPair record' := by
  cases hc with
  | send hsend =>
    exact SessionRecord.forall_setState h
      ((h _ List.mem_cons_self).encrypt hsend (hbounded _ rfl))
  | receive hk ha =>
    exact SessionRecord.forall_accept h (h.acceptedAt ha (hbounded _ rfl)) _
  | initiate ha hb hs => exact SessionRecord.forall_front h (.initiated ..)
  | @respond _ _ _ built _ _ _ _ hk ht hb ha =>
    have hbuilt : Descends ctx n₀ w.identityKeyPair built := by
      cases hb with
      | known hknown => exact h
      | new hnew hsigned honce => exact SessionRecord.forall_front h (.responded ..)
    exact SessionRecord.forall_accept hbuilt (hbuilt.acceptedAt ha (hbounded _ rfl)) _
  | offer hb hr =>
    exact SessionRecord.forall_setState h ((h _ List.mem_cons_self).setPendingKeyExchange _
      (Nat.le_succ_of_le hn) hb _)
  | agree ha hs =>
    obtain ⟨-, -, k, sending, hfound, -, -, hrecord⟩ := ha
    obtain ⟨hid, j, own, hj, hown, hbase⟩ := hfound.own hn (h _ List.mem_cons_self)
    rw [hrecord]
    exact SessionRecord.forall_front h (.symmetric hid hj hown hbase sending)

variable [DecidableEq Addr] {w₀ w' : World Addr Priv Pub B}

/-- **What a history keeps** of the world it started from: the party's own long-term keys, and
the origin of every stored state. -/
structure Descending (ctx : SignalContext Addr Priv Pub B) (w₀ w : World Addr Priv Pub B) :
    Prop where
  identity : w.identityKeyPair = w₀.identityKeyPair
  signed : w.signedPreKeys = w₀.signedPreKeys
  drawn : w₀.drawn ≤ w.drawn
  stored : w.All ctx (Descends ctx w₀.drawn w₀.identityKeyPair)

omit [LinearOrder Pub] [DecidableEq B] [DecidableEq Addr] in
theorem Descending.descends (h : Descending ctx w₀ w) {address : Addr}
    (hr : w.record ctx.provider address = .ok record) :
    Descends ctx w₀.drawn w₀.identityKeyPair record := by
  rcases record_cases hr with ⟨-, rfl⟩ | ⟨-, stored, hstored, hread⟩
  · intro state hstate
    rw [List.mem_singleton.1 hstate]
    exact .blank nofun
  · obtain ⟨record₀, rfl, hdescends⟩ := h.stored address stored hstored
    rw [SessionRecord.deserialize_serialize fun state hs =>
      (hdescends state hs).shaped.storable] at hread
    cases hread
    exact hdescends

/-- No call replaces the party's own long-term keys. -/
theorem Outcome.ownKeys (h : Outcome ctx w c r w') :
    w'.identityKeyPair = w.identityKeyPair ∧ w'.signedPreKeys = w.signedPreKeys := by
  cases h with
  | idle saved hf hn hs => cases saved <;> exact ⟨rfl, rfl⟩
  | changed saved used hr hc hn => cases saved <;> cases used <;> exact ⟨rfl, rfl⟩

theorem Descending.step {a : Action Addr Priv Pub B} (h : Descending ctx w₀ w)
    (hatomic : (a.step ctx w).Atomic) (hbounded : (a.step ctx w).Bounded) :
    Descending ctx w₀ (a.step ctx w).after := by
  cases a with
  | call c =>
    rcases hrun : c.run ctx w with ⟨r, w'⟩
    rw [Action.step_call hrun] at hatomic hbounded ⊢
    have houtcome := Call.run_outcome (hatomic c rfl) hrun
    obtain ⟨hidentity, hsigned⟩ := houtcome.ownKeys
    refine ⟨hidentity.trans h.identity, hsigned.trans h.signed,
      h.drawn.trans houtcome.drawn_le, ?_⟩
    refine houtcome.all h.stored (fun _ hq => hq) fun hr hchange _ => ?_
    rw [← h.identity]
    exact Change.descends (h.identity ▸ h.descends hr) h.drawn hchange hbounded
  | storePreKey preKeyId keyPair => exact ⟨h.identity, h.signed, h.drawn, h.stored⟩
  | replaceIdentity address identityKey => exact ⟨h.identity, h.signed, h.drawn, h.stored⟩

end Descends

/-! ## 4. The session that is committed -/

section Commit

variable [LinearOrder Pub] [DecidableEq B]

/-- The state accepts the message, wherever the random source stands. -/
def SessionState.Accepts (ctx : SignalContext Addr Priv Pub B) (state : SessionState Priv Pub B)
    (m : SignalMessage Pub B) : Prop :=
  ∃ n result n', sessionCipherDecryptFromState ctx.provider ctx.rng state m n = (.ok result, n')

variable {ctx : SignalContext Addr Priv Pub B} {n₀ : Nat} {identity : EcKeyPair Priv Pub}
  {state : SessionState Priv Pub B} {m : SignalMessage Pub B}

theorem accepts_toState_iff {s : Session Priv Pub B} (hs : s.InRange) :
    (s.toState ctx.provider).Accepts ctx m ↔
      ∃ n p s' n', s.receive ctx.provider ctx.rng m n = (.ok (p, s'), n') := by
  unfold SessionState.Accepts
  rw [decryptFromState_toState ctx.rng hs]
  constructor
  · rintro ⟨n, result, n', h⟩
    obtain ⟨⟨p, s'⟩, k, h, -⟩ := Op.bind_ok_iff.1 h
    exact ⟨n, p, s', k, h⟩
  · rintro ⟨n, p, s', n', h⟩
    exact ⟨n, _, n', Op.bind_of_ok h⟩

/-- A state that accepts holds a session. -/
theorem Descended.session_of_accepts (h : Descended ctx n₀ identity state)
    (ha : state.Accepts ctx m) :
    ∃ s : Session Priv Pub B, state = s.toState ctx.provider ∧
      Descent ctx n₀ identity.privateKey s ∧
      ∃ n p s' n', s.receive ctx.provider ctx.rng m n = (.ok (p, s'), n') := by
  cases h with
  | @session s range descent offered =>
    exact ⟨s, rfl, descent, (accepts_toState_iff range).1 ha⟩
  | blank offered =>
    obtain ⟨n, result, n', hdec⟩ := ha
    cases hdec

/-- **No older session accepts what the new one accepts**, if none of them has its base key. -/
theorem Descended.refuses (hI : Ideal ctx.provider) {store : Store Addr Priv Pub B}
    {m : PreKeySignalMessage Pub B} {signedPreKey : EcKeyPair Priv Pub}
    {oneTimePreKey : Option (EcKeyPair Priv Pub)}
    (hsigned : OldKey ctx n₀ (ctx.provider.publicKey signedPreKey.privateKey))
    (h : Descended ctx n₀ store.identityKeyPair state)
    (hnew : state.sessionVersion = 3 → state.aliceBaseKey ≠ some m.baseKey)
    (ha : ((Session.responded ctx.provider store signedPreKey oneTimePreKey m).toState
      ctx.provider).Accepts ctx m.message) : ¬ state.Accepts ctx m.message := by
  intro hold
  obtain ⟨s, rfl, hdescent, n, p, s', n', hr⟩ := h.session_of_accepts hold
  obtain ⟨k, q, t', k', hr'⟩ := (accepts_toState_iff (Session.inRange_responded ..)).1 ha
  have hstart := Session.startFor_unique hI hr hr'
  -- the new session tries every message one step below its secret
  have hfirst : StartAt ctx.provider ((responseParameters store.identityKeyPair signedPreKey
      oneTimePreKey m).secret ctx.provider) 1
      ((Session.responded ctx.provider store signedPreKey oneTimePreKey m).startFor ctx.provider
        m.message.senderRatchetKey) := ⟨_, _, rfl, rfl⟩
  have hsame : ∀ {secret : List B} {side : Nat}, s.Turned ctx.provider secret side →
      side = 0 ∧ secret = (responseParameters store.identityKeyPair signedPreKey
        oneTimePreKey m).secret ctx.provider := by
    intro secret side hturned
    obtain ⟨e, he, hs⟩ := hturned.startFor m.message.senderRatchetKey
    rw [hstart] at hs
    obtain ⟨hsecret, rfl⟩ := startAt_unique hI hs hfirst
    exact ⟨he.symm, hsecret⟩
  cases hdescent with
  | alice turned => exact absurd (hsame turned).1 one_ne_zero
  | named turned hbase third =>
    rw [(hsame turned).2] at third
    have hbase' := hI.agreement_left (Option.some.inj third)
    exact hnew rfl (hbase.trans (congrArg some hbase'.symm))
  | agreed turned hj hown third fourth =>
    rw [(hsame turned).2] at third fourth
    rw [← hI.agreement_left (Option.some.inj third)] at fourth
    have hown' := Sym2.congr_right.1 (hI.agreement_inj (Option.some.inj fourth))
    exact hsigned _ hj _ hown hown'.symm

variable [DecidableEq Addr] {w₀ w w' : World Addr Priv Pub B}
  {cipher : SessionCipher Addr Priv Pub B} {m : PreKeySignalMessage Pub B}
  {record built : SessionRecord Priv Pub B} {used : Option UInt32} {p : B}

end Commit

end SignalProtocol
