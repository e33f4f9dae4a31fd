/-
# Runs of one party

The calls a party makes for one remote address, in any order and on any input: processing a
bundle, decrypting a pre-key message or a signal message, encrypting.  A `Command` is such a
call without its address, and the trace of a list of commands is the history of their calls.

`Stored` says that the store holds a list of well-formed sessions.  `Command.run_ok` and
`Command.run_error` say once what a call can do to that list; every invariant of runs is
derived from these two, through `trace_invariant`.
-/
import SignalProtocol.Calls

namespace SignalProtocol

variable {Addr Priv Pub B : Type}

/-! ## 1. Commands and traces -/

/-- One of the four calls with which messages are exchanged, for the address of a cipher
object. -/
inductive Command (Pub B : Type) where
  /-- `session_builder_process_pre_key_bundle`. -/
  | processPreKeyBundle (bundle : PreKeyBundle Pub B)
  /-- `session_cipher_decrypt_pre_key_signal_message`. -/
  | decryptPreKey (message : PreKeySignalMessage Pub B)
  /-- `session_cipher_decrypt_signal_message`. -/
  | decryptSignal (message : SignalMessage Pub B)
  /-- `session_cipher_encrypt`. -/
  | encrypt (plaintext : B)

namespace Command

/-- The call with its address. -/
def call (cipher : SessionCipher Addr Priv Pub B) : Command Pub B → Call Addr Priv Pub B
  | processPreKeyBundle bundle => .processPreKeyBundle cipher.remoteAddress bundle
  | decryptPreKey m => .decryptPreKey cipher m
  | decryptSignal m => .decryptSignal cipher m
  | encrypt plaintext => .encrypt cipher plaintext

/-- The call as an action. -/
def action (cipher : SessionCipher Addr Priv Pub B) (c : Command Pub B) :
    Action Addr Priv Pub B := .call (c.call cipher)

section Run

variable [DecidableEq Addr] [LinearOrder Pub] [DecidableEq B]

/-- **Make the call.** -/
def run (ctx : SignalContext Addr Priv Pub B) (cipher : SessionCipher Addr Priv Pub B)
    (c : Command Pub B) : Op SgError (World Addr Priv Pub B) (Reply Pub B) :=
  (c.call cipher).run ctx

theorem step_action {ctx : SignalContext Addr Priv Pub B} {cipher : SessionCipher Addr Priv Pub B}
    {c : Command Pub B} {w w' : World Addr Priv Pub B} {r : Except SgError (Reply Pub B)}
    (h : c.run ctx cipher w = (r, w')) :
    (c.action cipher).step ctx w = ⟨w, c.action cipher, r, w'⟩ :=
  Action.step_call h

end Run

end Command

section Trace

variable [DecidableEq Addr] [LinearOrder Pub] [DecidableEq B]

/-- **The trace of a list of commands.** -/
def trace (ctx : SignalContext Addr Priv Pub B) (cipher : SessionCipher Addr Priv Pub B)
    (cs : List (Command Pub B)) (w : World Addr Priv Pub B) : List (Step Addr Priv Pub B) :=
  history ctx (cs.map (Command.action cipher)) w

/-- The world that a list of commands ends in. -/
def runAll (ctx : SignalContext Addr Priv Pub B) (cipher : SessionCipher Addr Priv Pub B)
    (cs : List (Command Pub B)) (w : World Addr Priv Pub B) : World Addr Priv Pub B :=
  performAll ctx (cs.map (Command.action cipher)) w

variable {ctx : SignalContext Addr Priv Pub B} {cipher : SessionCipher Addr Priv Pub B}

theorem trace_append (cs₁ cs₂ : List (Command Pub B)) (w : World Addr Priv Pub B) :
    trace ctx cipher (cs₁ ++ cs₂) w =
      trace ctx cipher cs₁ w ++ trace ctx cipher cs₂ (runAll ctx cipher cs₁ w) := by
  rw [trace, List.map_append, history_append]
  rfl

theorem command_of_trace {s : Step Addr Priv Pub B} {cs : List (Command Pub B)}
    {w : World Addr Priv Pub B} (h : s ∈ trace ctx cipher cs w) :
    ∃ c ∈ cs, s.action = c.action cipher := by
  obtain ⟨c, hc, he⟩ := List.mem_map.1 (action_mem_of_history h)
  exact ⟨c, hc, he.symm⟩

theorem received_of_trace {P : Provider Priv Pub B} {s : Step Addr Priv Pub B}
    {cs : List (Command Pub B)} {w : World Addr Priv Pub B} (h : s ∈ trace ctx cipher cs w)
    (hcs : ∀ c ∈ cs, (c.call cipher).Received P) : s.Received P := by
  obtain ⟨c, hc, haction⟩ := command_of_trace h
  intro c' hc'
  cases haction.symm.trans hc'
  exact hcs c hc

end Trace

/-- **No two draws give the same key.** -/
def Rng.Distinct (rng : Rng Priv B) : Prop :=
  ∀ {m n k}, rng.privateKey m = .ok k → rng.privateKey n = .ok k → m = n

/-- The key is not generated at position `n` or later. -/
def OldKey (ctx : SignalContext Addr Priv Pub B) (n : Nat) (key : Pub) : Prop :=
  ∀ m, n ≤ m → ∀ k, ctx.rng.privateKey m = .ok k → ctx.provider.publicKey k ≠ key

theorem OldKey.mono {ctx : SignalContext Addr Priv Pub B} {n n' : Nat} {key : Pub}
    (h : OldKey ctx n key) (hn : n ≤ n') : OldKey ctx n' key :=
  fun m hm => h m (hn.trans hm)

/-- The public keys that enter an action from outside. -/
def Action.keys : Action Addr Priv Pub B → List Pub
  | call c => c.keys
  | _ => []

/-- **Generated key pairs are fresh**: no key that entered the step is generated later. -/
def Step.FreshKeys (ctx : SignalContext Addr Priv Pub B) (s : Step Addr Priv Pub B) : Prop :=
  ∀ key ∈ s.action.keys, OldKey ctx s.before.drawn key

/-! ## 2. What a call does to the sessions -/

/-- **The store holds these sessions for the address**, and they are well formed. -/
structure Stored (P : Provider Priv Pub B) (address : Addr) (w : World Addr Priv Pub B)
    (l : List (Session Priv Pub B)) : Prop where
  holds : w.Holds P address l
  inRange : ∀ s ∈ l, s.InRange
  length : l.length ≤ archivedStatesMaxLength + 1

theorem Stored.nil {P : Provider Priv Pub B} {address : Addr} {w : World Addr Priv Pub B}
    (h : w.sessions address = none) : Stored P address w [] :=
  ⟨h, fun _ hs => absurd hs List.not_mem_nil, Nat.zero_le _⟩

section Move

variable [LinearOrder Pub] [DecidableEq B]

/-- **A successful call on the list of sessions.**  From a world with these sessions the call
returns `out` and leaves those sessions and that random position. -/
inductive Move (ctx : SignalContext Addr Priv Pub B) (address : Addr) (w : World Addr Priv Pub B)
    (l : List (Session Priv Pub B)) :
    Command Pub B → Reply Pub B → List (Session Priv Pub B) → Nat → Prop
  /-- The first session sends. -/
  | send {p : B} {c : CiphertextMessage Pub B} {s s' : Session Priv Pub B}
      {rest : List (Session Priv Pub B)} (hl : l = s :: rest)
      (hs : s.send ctx.provider p = .ok (c, s')) :
      Move ctx address w l (.encrypt p) (.ciphertext c) (s' :: rest) w.drawn
  /-- Some session receives and moves to the front. -/
  | receive {m : SignalMessage Pub B} {p : B} {s s' : Session Priv Pub B} {i k n : Nat}
      (hi : l[i]? = some s) (hk : w.drawn ≤ k) (hn : w.drawn ≤ n)
      (hr : s.receive ctx.provider ctx.rng m k = (.ok (p, s'), n)) :
      Move ctx address w l (.decryptSignal m) (.plaintext p) (s' :: l.eraseIdx i) n
  /-- A bundle puts a session in Alice's role in front. -/
  | initiate {bundle : PreKeyBundle Pub B} {identity signedPreKey : Pub} {base sending : Priv}
      (ha : BundleAccepted ctx address bundle w identity signedPreKey)
      (hb : ctx.rng.privateKey w.drawn = .ok base)
      (hs : ctx.rng.privateKey (w.drawn + 1) = .ok sending) :
      Move ctx address w l (.processPreKeyBundle bundle) .nothing
        (Session.initiated ctx.provider w.toStore bundle identity signedPreKey base sending ::
          l.take archivedStatesMaxLength) (w.drawn + 2)
  /-- A pre-key message may put a session in Bob's role in front; then some session
  receives. -/
  | respond {m : PreKeySignalMessage Pub B} {l₁ : List (Session Priv Pub B)}
      {used : Option UInt32} {p : B} {s s' : Session Priv Pub B} {i k n : Nat}
      (hp : prepare ctx.provider w.toStore l m = .ok (l₁, used)) (hi : l₁[i]? = some s)
      (hk : w.drawn ≤ k) (hn : w.drawn ≤ n)
      (hr : s.receive ctx.provider ctx.rng m.message k = (.ok (p, s'), n)) :
      Move ctx address w l (.decryptPreKey m) (.plaintext p) (s' :: l₁.eraseIdx i) n

end Move

/-- The parts of the store that no call of a run changes. -/
structure World.SameKeys (w w' : World Addr Priv Pub B) : Prop where
  identityKeyPair : w'.identityKeyPair = w.identityKeyPair
  signedPreKeys : w'.signedPreKeys = w.signedPreKeys
  localRegistrationId : w'.localRegistrationId = w.localRegistrationId
  preKeys : ∀ i k, w'.preKeys i = some k → w.preKeys i = some k

theorem World.SameKeys.refl (w : World Addr Priv Pub B) : w.SameKeys w :=
  ⟨rfl, rfl, rfl, fun _ _ h => h⟩

theorem World.SameKeys.trans {w w' w'' : World Addr Priv Pub B} (h : w.SameKeys w')
    (h' : w'.SameKeys w'') : w.SameKeys w'' :=
  ⟨h'.identityKeyPair.trans h.identityKeyPair, h'.signedPreKeys.trans h.signedPreKeys,
    h'.localRegistrationId.trans h.localRegistrationId,
    fun i k hk => h.preKeys i k (h'.preKeys i k hk)⟩

theorem World.sameKeys_dropPreKey (w : World Addr Priv Pub B) (used : Option UInt32) :
    w.SameKeys (w.dropPreKey used) := by
  cases used with
  | none => exact .refl w
  | some preKeyId =>
    refine ⟨rfl, rfl, rfl, fun i k hk => ?_⟩
    have hk' : Function.update w.preKeys preKeyId none i = some k := hk
    rcases eq_or_ne i preKeyId with rfl | hi
    · rw [Function.update_self] at hk'
      cases hk'
    · rwa [Function.update_of_ne hi] at hk'

theorem World.dropPreKey_holds {P : Provider Priv Pub B} {address : Addr}
    {l : List (Session Priv Pub B)} {w : World Addr Priv Pub B} (used : Option UInt32)
    (h : w.Holds P address l) : (w.dropPreKey used).Holds P address l := by
  cases used <;> exact h

theorem World.dropPreKey_drawn (w : World Addr Priv Pub B) (used : Option UInt32) :
    (w.dropPreKey used).drawn = w.drawn := by
  cases used <;> rfl

section BundleAccepted

variable {ctx : SignalContext Addr Priv Pub B} {address : Addr} {w : World Addr Priv Pub B}
  {bundle : PreKeyBundle Pub B} {identity signedPreKey : Pub}

/-- The signed pre key that was checked is the one of the bundle. -/
theorem BundleAccepted.signedPreKey_eq
    (h : BundleAccepted ctx address bundle w identity signedPreKey) :
    bundle.signedPreKeyPublic = some signedPreKey := by
  have hchecked := h.signed
  unfold PreKeyBundle.checkedSignedPreKey at hchecked
  split at hchecked
  · cases hchecked
  · cases hchecked
  · rename_i hpub _
    simp only [bind, Except.bind, pure, Except.pure, throw, throwThe, MonadExceptOf.throw]
      at hchecked
    split at hchecked
    · cases hchecked
    · split at hchecked <;> cases hchecked
      exact hpub

/-- The keys with which a bundle is processed are keys of the bundle. -/
theorem BundleAccepted.mem_keys
    (h : BundleAccepted ctx address bundle w identity signedPreKey) :
    signedPreKey ∈ bundle.keys ∧ identity ∈ bundle.keys := by
  simp only [PreKeyBundle.keys, h.signedPreKey_eq, h.identity_eq]
  simp

end BundleAccepted

/-! ## 3. The two inversions -/

theorem Session.inRange_initiated (P : Provider Priv Pub B) (store : Store Addr Priv Pub B)
    (bundle : PreKeyBundle Pub B) (identity signedPreKey : Pub) (base sending : Priv) :
    (Session.initiated P store bundle identity signedPreKey base sending).InRange :=
  have h := Session.inRange_alice (P := P)
    (bundleParameters store.identityKeyPair bundle identity signedPreKey (P.pair base)) sending
  ⟨h.sender, h.receivers⟩

section Inversion

variable [LinearOrder Pub] [DecidableEq B] {ctx : SignalContext Addr Priv Pub B}
  {cipher : SessionCipher Addr Priv Pub B} {w w' : World Addr Priv Pub B}
  {l : List (Session Priv Pub B)} {c : Command Pub B}

theorem Move.drawn_le {address : Addr} {out : Reply Pub B} {l' : List (Session Priv Pub B)}
    {n : Nat} (h : Move ctx address w l c out l' n) : w.drawn ≤ n := by
  cases h with
  | send => exact Nat.le_refl _
  | receive _ _ hn => exact hn
  | initiate => exact Nat.le_add_right ..
  | respond _ _ _ hn => exact hn

/-- The list after a session received and moved to the front is well formed. -/
theorem stored_receive {P : Provider Priv Pub B} {rng : Rng Priv B} {address : Addr}
    {s s' : Session Priv Pub B} {m : SignalMessage Pub B} {p : B} {i k n : Nat}
    (hw : w.Holds P address (s' :: l.eraseIdx i)) (hr : ∀ t ∈ l, t.InRange)
    (hlen : l.length ≤ archivedStatesMaxLength + 1) (hi : l[i]? = some s)
    (hm : m.counter.toNat + 1 < 2 ^ 32) (h : s.receive P rng m k = (.ok (p, s'), n)) :
    Stored P address w (s' :: l.eraseIdx i) := by
  obtain ⟨hlt, hs⟩ := List.getElem?_eq_some_iff.1 hi
  refine ⟨hw, fun t ht => ?_, ?_⟩
  · rcases List.mem_cons.1 ht with rfl | ht
    · exact Session.inRange_receive (hr s (List.mem_of_getElem? hi)) hm h
    · exact hr t (List.mem_of_mem_eraseIdx ht)
  · rw [List.length_cons, List.length_eraseIdx_of_lt hlt]
    omega

variable [DecidableEq Addr]

/-- **A call that fails** leaves the sessions and the keys, and only moves on in the random
source. -/
theorem Command.run_error (h : Stored ctx.provider cipher.remoteAddress w l)
    (hc : cipher.Passive) {e : SgError} (hr : c.run ctx cipher w = (.error e, w')) :
    Stored ctx.provider cipher.remoteAddress w' l ∧ w.drawn ≤ w'.drawn ∧ w.SameKeys w' := by
  have hat : ∀ n, w.drawn ≤ n → Stored ctx.provider cipher.remoteAddress (w.at n) l ∧
      w.drawn ≤ (w.at n).drawn ∧ w.SameKeys (w.at n) :=
    fun n hn => ⟨⟨h.holds.at n, h.inRange, h.length⟩, hn, ⟨rfl, rfl, rfl, fun _ _ hk => hk⟩⟩
  cases c with
  | processPreKeyBundle bundle =>
    rcases Op.bind_error_iff.1 hr with hr | ⟨_, _, -, hr⟩
    · obtain ⟨n, hn, rfl⟩ := bundle_error h.holds hr
      exact hat n hn
    · cases hr
  | decryptPreKey m =>
    rcases Op.bind_error_iff.1 hr with hr | ⟨_, _, -, hr⟩
    · obtain ⟨n, hn, rfl | rfl⟩ := decryptPreKey_error h.holds h.inRange h.length hc hr
      · exact hat n hn
      · exact ⟨⟨h.holds, h.inRange, h.length⟩, hn, ⟨rfl, rfl, rfl, fun _ _ hk => hk⟩⟩
    · cases hr
  | decryptSignal m =>
    rcases Op.bind_error_iff.1 hr with hr | ⟨_, _, -, hr⟩
    · obtain ⟨n, hn, rfl⟩ := decrypt_error h.holds h.inRange h.length hc hr
      exact hat n hn
    · cases hr
  | encrypt p =>
    rcases Op.bind_error_iff.1 hr with hr | ⟨_, _, -, hr⟩
    · rw [encrypt_error h.holds hc.outside hr]
      exact hat w.drawn (Nat.le_refl _)
    · cases hr

/-- **A call that succeeds** is one of the four moves. -/
theorem Command.run_ok (h : Stored ctx.provider cipher.remoteAddress w l) (hc : cipher.Passive)
    {out : Reply Pub B} (hr : c.run ctx cipher w = (.ok out, w'))
    (hb : ∀ n ∈ (c.call cipher).counter (.ok out), n.toNat + 1 < 2 ^ 32) :
    ∃ l', Move ctx cipher.remoteAddress w l c out l' w'.drawn ∧
      Stored ctx.provider cipher.remoteAddress w' l' ∧ w.SameKeys w' := by
  cases c with
  | processPreKeyBundle bundle =>
    obtain ⟨_, _, hr, hout⟩ := Op.bind_ok_iff.1 hr
    cases hout
    obtain ⟨identity, signedPreKey, base, sending, ha, hbase, hsend, rfl⟩ := bundle_ok h.holds hr
    refine ⟨_, .initiate ha hbase hsend, ⟨World.holds_put _ _ (w.drawn + 2) w, fun t ht => ?_, ?_⟩,
      ⟨rfl, rfl, rfl, fun _ _ hk => hk⟩⟩
    · rcases List.mem_cons.1 ht with rfl | ht
      · exact Session.inRange_initiated ..
      · exact h.inRange t (List.mem_of_mem_take ht)
    · rw [List.length_cons]
      exact Nat.succ_le_succ (List.length_take_le ..)
  | decryptPreKey m =>
    obtain ⟨_, _, hr, hout⟩ := Op.bind_ok_iff.1 hr
    cases hout
    obtain ⟨l₁, used, s', i, n, hp, ha, rfl⟩ :=
      decryptPreKey_ok h.holds h.inRange h.length hc hr
    obtain ⟨s, k, hi, hk, hrec⟩ := Session.receiveAny_ok ha
    have hn : w.drawn ≤ n := by
      have := Session.receiveAny_moves ctx.provider ctx.rng m.message l₁ w.drawn
      rwa [ha] at this
    refine ⟨s' :: l₁.eraseIdx i, ?_, ?_, ?_⟩
    · rw [World.dropPreKey_drawn]
      exact .respond hp hi hk hn hrec
    · exact stored_receive (World.dropPreKey_holds used (World.holds_put ..))
        (inRange_prepare h.inRange hp) (length_prepare h.length hp) hi (hb _ rfl) hrec
    · have hput : w.SameKeys ((w.saveIdentity cipher.remoteAddress m.identityKey).put ctx.provider
          cipher.remoteAddress (s' :: l₁.eraseIdx i) n) := ⟨rfl, rfl, rfl, fun _ _ hk => hk⟩
      exact hput.trans (World.sameKeys_dropPreKey _ used)
  | decryptSignal m =>
    obtain ⟨_, _, hr, hout⟩ := Op.bind_ok_iff.1 hr
    cases hout
    obtain ⟨s', i, n, ha, rfl⟩ := decrypt_ok h.holds h.inRange h.length hc hr
    obtain ⟨s, k, hi, hk, hrec⟩ := Session.receiveAny_ok ha
    have hn : w.drawn ≤ n := by
      have := Session.receiveAny_moves ctx.provider ctx.rng m l w.drawn
      rwa [ha] at this
    exact ⟨_, .receive hi hk hn hrec, stored_receive (World.holds_put ..) h.inRange h.length hi
      (hb _ rfl) hrec, ⟨rfl, rfl, rfl, fun _ _ hk => hk⟩⟩
  | encrypt p =>
    obtain ⟨_, _, hr, hout⟩ := Op.bind_ok_iff.1 hr
    cases hout
    obtain ⟨s, rest, s', rfl, hs, rfl⟩ := encrypt_ok h.holds hc.outside hr
    refine ⟨_, .send rfl hs, ⟨World.holds_put _ _ _ w, fun t ht => ?_, h.length⟩,
      ⟨rfl, rfl, rfl, fun _ _ hk => hk⟩⟩
    rcases List.mem_cons.1 ht with rfl | ht
    · exact Session.inRange_send (h.inRange s List.mem_cons_self) hs (hb _ rfl)
    · exact h.inRange t (List.mem_cons_of_mem _ ht)

end Inversion

/-! ## 4. Invariants of runs -/

section Invariant

variable [DecidableEq Addr] [LinearOrder Pub] [DecidableEq B]
  {ctx : SignalContext Addr Priv Pub B} {cipher : SessionCipher Addr Priv Pub B}

/-- **An invariant of the stored sessions and a log.**  Calls that fail move on in the random
source and log nothing; if every move extends the log and keeps the invariant, so does every
run. -/
theorem trace_invariant (hc : cipher.Passive) {α : Type}
    (entry : Step Addr Priv Pub B → List α) {G : Step Addr Priv Pub B → Prop}
    {I : World Addr Priv Pub B → List (Session Priv Pub B) → List α → Prop}
    (hentry : ∀ s err, s.result = .error err → entry s = [])
    (hfail : ∀ w w' l log, I w l log → w.drawn ≤ w'.drawn → w.SameKeys w' → I w' l log)
    (hmove : ∀ w w' l l' log c out, Stored ctx.provider cipher.remoteAddress w l → I w l log →
      G ⟨w, c.action cipher, .ok out, w'⟩ → Move ctx cipher.remoteAddress w l c out l' w'.drawn →
      w.SameKeys w' → I w' l' (log ++ entry ⟨w, c.action cipher, .ok out, w'⟩)) :
    ∀ (cs : List (Command Pub B)) (w : World Addr Priv Pub B) (l : List (Session Priv Pub B))
      (log : List α), Stored ctx.provider cipher.remoteAddress w l → I w l log →
      (∀ s ∈ trace ctx cipher cs w, s.Bounded ∧ G s) →
      ∃ l', Stored ctx.provider cipher.remoteAddress (runAll ctx cipher cs w) l' ∧
        I (runAll ctx cipher cs w) l' (log ++ (trace ctx cipher cs w).flatMap entry)
  | [], w, l, log, hs, hi, _ => ⟨l, hs, by rwa [trace, List.map_nil, history, List.flatMap_nil,
      List.append_nil]⟩
  | c :: cs, w, l, log, hs, hi, hgood => by
    have htrace : trace ctx cipher (c :: cs) w = (c.action cipher).step ctx w ::
      trace ctx cipher cs ((c.action cipher).step ctx w).after := rfl
    have hend : runAll ctx cipher (c :: cs) w =
      runAll ctx cipher cs ((c.action cipher).step ctx w).after := rfl
    rw [htrace] at hgood ⊢
    rw [hend, List.flatMap_cons]
    obtain ⟨hb, hg⟩ := hgood _ List.mem_cons_self
    have hrest := fun s hs => hgood s (List.mem_cons_of_mem _ hs)
    rcases hr : c.run ctx cipher w with ⟨err | out, w'⟩
    · obtain ⟨hs', hdrawn, hkeys⟩ := Command.run_error hs hc hr
      rw [Command.step_action hr] at hrest ⊢
      rw [hentry _ err rfl, List.nil_append]
      exact trace_invariant hc entry hentry hfail hmove cs w' l log hs'
        (hfail w w' l log hi hdrawn hkeys) hrest
    · rw [Command.step_action hr] at hb hg hrest ⊢
      obtain ⟨l', hm, hs', hkeys⟩ := Command.run_ok hs hc hr hb
      rw [← List.append_assoc]
      exact trace_invariant hc entry hentry hfail hmove cs w' l' _ hs'
        (hmove w w' l l' log c out hs hi hg hm hkeys) hrest

end Invariant

end SignalProtocol
