/-
# One-time pre keys are used once

A one-time pre key is loaded in `session_builder_process_pre_key_signal_message_v3`, enters the
key agreement of a new session state there, and is removed at the very end of
`session_cipher_decrypt_pre_key_signal_message`, after the record with the new state has been
stored.  Between the two the inner message is decrypted, possibly by another state, and the
callback may refuse the plaintext.

`Step.CommitsWith` says that a step has committed a session state that a key entered, and
`Step.Removes` that it has removed the key from the store.  They are the same for arbitrary stores
(`commitsWith_of_removes`, `removes_of_commitsWith`), the last-resort key apart.  A key that is
gone stays gone (`preKeys_none_of_step`), so that over a whole history no key can be committed
twice.
-/
import SignalProtocol.Calls
import SignalProtocol.Rejection

namespace SignalProtocol

variable {Addr Priv Pub B : Type}

/-! ## 1. Committing a key and removing it -/

/-- The state that the builder sets up for a pre-key message. -/
def preKeyState (P : Provider Priv Pub B) (store : Store Addr Priv Pub B)
    (signedPreKey : EcKeyPair Priv Pub) (oneTimePreKey : Option (EcKeyPair Priv Pub))
    (m : PreKeySignalMessage Pub B) : SessionState Priv Pub B :=
  { ratchetingSessionBobInitialize P SessionState.create
      (responseParameters store.identityKeyPair signedPreKey oneTimePreKey m) with
    localRegistrationId := store.localRegistrationId
    remoteRegistrationId := m.registrationId
    aliceBaseKey := some m.baseKey }

section Commit

variable [LinearOrder Pub] [DecidableEq B]

/-- `state'` is `state`, or what it became by decrypting the message. -/
def SessionState.BecomesBy (ctx : SignalContext Addr Priv Pub B) (m : SignalMessage Pub B)
    (state state' : SessionState Priv Pub B) : Prop :=
  state' = state ∨ ∃ copy p k n, state.copy ctx.provider = .ok copy ∧
    sessionCipherDecryptFromState ctx.provider ctx.rng copy m k = (.ok (p, state'), n)

/-- **The step commits a session state that the one-time pre key entered.**  A pre-key message
that names the key is decrypted; its base key was unknown; and the record that is stored has a
state that was set up with the key. -/
inductive Step.CommitsWith (ctx : SignalContext Addr Priv Pub B) (preKeyId : UInt32)
    (s : Step Addr Priv Pub B) : Prop
  | intro (cipher : SessionCipher Addr Priv Pub B) (m : PreKeySignalMessage Pub B)
      (record stored : SessionRecord Priv Pub B) (signedPreKey key : EcKeyPair Priv Pub)
      (state : SessionState Priv Pub B) (reply : Reply Pub B)
      (call : s.action = .call (.decryptPreKey cipher m))
      (returned : s.result = .ok reply)
      (loaded : s.before.record ctx.provider cipher.remoteAddress = .ok record)
      (unknown : ¬ record.hasSessionState m.version.toUInt32 m.baseKey = true)
      (signed : s.before.signedPreKeys m.signedPreKeyId = some signedPreKey)
      (named : m.preKeyId = some preKeyId)
      (present : s.before.preKeys preKeyId = some key)
      (agreed : (preKeyState ctx.provider s.before.toStore signedPreKey (some key) m).BecomesBy ctx
        m.message state)
      (committed : s.after.sessions cipher.remoteAddress = some (stored.serialize ctx.provider))
      (mem : state ∈ stored.states)

end Commit

/-- The step removes the key from the pre key store. -/
def Step.Removes (preKeyId : UInt32) (s : Step Addr Priv Pub B) : Prop :=
  (s.before.preKeys preKeyId).isSome = true ∧ s.after.preKeys preKeyId = none

instance (preKeyId : UInt32) (s : Step Addr Priv Pub B) : Decidable (s.Removes preKeyId) :=
  inferInstanceAs (Decidable (_ ∧ _))

/-- The pre key that the application adds. -/
def Action.addedKey : Action Addr Priv Pub B → Option UInt32
  | storePreKey preKeyId _ => some preKeyId
  | _ => none

/-- The later step adds a key again that the earlier step has removed. -/
def Step.Readds (s s' : Step Addr Priv Pub B) : Prop :=
  ∃ preKeyId ∈ s'.action.addedKey, s.Removes preKeyId

instance (s s' : Step Addr Priv Pub B) : Decidable (s.Readds s') :=
  s'.action.addedKey.decidableExistsMem

/-! ## 2. One step -/

section Steps

variable [DecidableEq Addr] [LinearOrder Pub] [DecidableEq B]
  {ctx : SignalContext Addr Priv Pub B} {w w' : World Addr Priv Pub B}
  {c : Call Addr Priv Pub B} {preKeyId : UInt32}

/-- **How a call can change the pre key store**: only by removing the key that a new session
has used. -/
theorem Outcome.preKeys {r : Except SgError (Reply Pub B)} (h : Outcome ctx w c r w') :
    w'.preKeys = w.preKeys ∨
      ∃ record record' saved used n, w.record ctx.provider c.address = .ok record ∧
        Change ctx w record c r record' saved used n ∧
        w'.sessions c.address = some (record'.serialize ctx.provider) ∧
        ∀ i, w'.preKeys i = if used = some i then none else w.preKeys i := by
  cases h with
  | idle saved hf hn hs => exact Or.inl (World.saveOptional_preKeys ..)
  | @changed record record' saved used n n' hr hc hn =>
    refine Or.inr ⟨record, record', saved, used, n, hr, hc, ?_, fun i => ?_⟩
    · rw [World.changed_sessions, Function.update_self]
    · rw [World.changed_preKeys]

omit [DecidableEq Addr] in
/-- A state that was set up is among the states stored, wherever the message was accepted. -/
theorem becomesBy_mem_accept {m : SignalMessage Pub B} {built : SessionRecord Priv Pub B} {p : B}
    {state' : SessionState Priv Pub B} {i n : Nat}
    (h : AcceptedAt ctx.provider ctx.rng m built.states p state' i n) :
    ∃ state ∈ (built.accept state' i).states, built.state.BecomesBy ctx m state := by
  obtain ⟨state, copy, k, hi, hcopy, hdec⟩ := h
  cases i with
  | zero =>
    cases hi
    exact ⟨state', List.mem_cons_self, Or.inr ⟨copy, p, k, n, hcopy, hdec⟩⟩
  | succ i => exact ⟨built.state, List.mem_cons_of_mem _ List.mem_cons_self, Or.inl rfl⟩

omit [DecidableEq Addr] in
/-- A change that uses a key commits a state that the key entered. -/
theorem Step.commitsWith_of_change {s : Step Addr Priv Pub B}
    {record record' : SessionRecord Priv Pub B} {saved : Option Pub} {used : Option UInt32}
    {n : Nat} (hcall : s.action = .call c)
    (hr : s.before.record ctx.provider c.address = .ok record)
    (h : Change ctx s.before record c s.result record' saved used n)
    (hstored : s.after.sessions c.address = some (record'.serialize ctx.provider))
    (hused : used = some preKeyId) : s.CommitsWith ctx preKeyId := by
  generalize hresult : s.result = r at h
  cases h with
  | send h => cases hused
  | receive hn h => cases hused
  | initiate ha hb hs => cases hused
  | offer hb hr => cases hused
  | agree h hs => cases hused
  | @respond cipher m p built used state' i n hn ht hb h =>
    obtain ⟨state, hmem, hbecomes⟩ := becomesBy_mem_accept h
    cases hb with
    | known hknown => cases hused
    | @new signedPreKey oneTimePreKey hnew hsigned honce =>
      have hid : m.preKeyId = some preKeyId := Option.eq_some_of_filter_eq_some hused
      rw [hid] at honce
      cases hkey : s.before.preKeys preKeyId with
      | none => rw [loadOneTimePreKey_of_none hkey] at honce; cases honce
      | some key =>
        rw [loadOneTimePreKey_of_some hkey] at honce
        cases honce
        exact .intro cipher m record _ signedPreKey key state _ hcall hresult hr hnew hsigned
          hid hkey hbecomes hstored hmem

omit [DecidableEq Addr] in
/-- A change made for a message with an unknown base key uses the key that the message names. -/
theorem Change.used_of_unknown {record record' : SessionRecord Priv Pub B} {saved : Option Pub}
    {used : Option UInt32} {n : Nat} {cipher : SessionCipher Addr Priv Pub B}
    {m : PreKeySignalMessage Pub B} {r : Except SgError (Reply Pub B)}
    (h : Change ctx w record (.decryptPreKey cipher m) r record' saved used n)
    (hnew : ¬ record.hasSessionState m.version.toUInt32 m.baseKey = true) :
    used = m.preKeyId.filter fun preKeyId => preKeyId ≠ preKeyMediumMaxValue := by
  cases h with
  | respond hn ht hb h =>
    cases hb with
    | known hknown => exact absurd hknown hnew
    | new hnew hsigned honce => rfl

/-- A step that removes a key commits a state that it entered: the application only adds keys,
and a call removes none but the one it has used. -/
theorem commitsWith_of_removes {a : Action Addr Priv Pub B} (ha : (a.step ctx w).Atomic)
    (h : (a.step ctx w).Removes preKeyId) : (a.step ctx w).CommitsWith ctx preKeyId := by
  cases a with
  | storePreKey i keyPair =>
    obtain ⟨hbefore, hafter⟩ : (w.preKeys preKeyId).isSome = true ∧
      Function.update w.preKeys i (some keyPair) preKeyId = none := h
    by_cases hi : preKeyId = i
    · rw [hi, Function.update_self] at hafter
      cases hafter
    · rw [Function.update_of_ne hi] at hafter
      rw [hafter] at hbefore
      cases hbefore
  | replaceIdentity address identityKey =>
    obtain ⟨hbefore, hafter⟩ : (w.preKeys preKeyId).isSome = true ∧ w.preKeys preKeyId = none := h
    rw [hafter] at hbefore
    cases hbefore
  | call c =>
    have hc : c.Atomic := ha c rfl
    rcases hrun : c.run ctx w with ⟨r, w'⟩
    rw [Action.step_call hrun] at h ⊢
    obtain ⟨hbefore, hafter⟩ : (w.preKeys preKeyId).isSome = true ∧ w'.preKeys preKeyId = none := h
    rcases (Call.run_outcome hc hrun).preKeys with
      hsame | ⟨record, record', saved, used, n, hr, hchange, hstored, hkeys⟩
    · rw [← hsame, hafter] at hbefore
      cases hbefore
    refine Step.commitsWith_of_change rfl hr hchange hstored ?_
    by_contra hused
    rw [hkeys, if_neg hused] at hafter
    rw [hafter] at hbefore
    cases hbefore

/-- A step that commits a state removes the key that entered it. -/
theorem removes_of_commitsWith {a : Action Addr Priv Pub B} (ha : (a.step ctx w).Atomic)
    (hmax : preKeyId ≠ preKeyMediumMaxValue)
    (h : (a.step ctx w).CommitsWith ctx preKeyId) : (a.step ctx w).Removes preKeyId := by
  obtain ⟨cipher, m, record, stored, signedPreKey, key, state, reply, hcall, hreply, hloaded,
    hunknown, -, hnamed, hpresent, -, -, -⟩ := h
  obtain rfl : a = .call (.decryptPreKey cipher m) := hcall
  rcases hrun : (Call.decryptPreKey cipher m).run ctx w with ⟨r, w'⟩
  have hout := Call.run_outcome (ha _ rfl) hrun
  rw [Action.step_call hrun] at hreply hloaded hpresent ⊢
  obtain rfl : r = .ok reply := hreply
  refine ⟨by rw [hpresent]; rfl, ?_⟩
  cases hout with
  | idle saved hf => rcases hf with ⟨e, he⟩ | hf <;> contradiction
  | changed saved used hr hchange hn =>
    cases hloaded.symm.trans hr
    have hused : used = some preKeyId := by
      rw [hchange.used_of_unknown hunknown, hnamed]
      simp [hmax]
    rw [World.changed_preKeys, if_pos hused]

/-- **A key that is gone stays gone**, unless the application adds it. -/
theorem preKeys_none_of_step {a : Action Addr Priv Pub B} (ha : (a.step ctx w).Atomic)
    (hadd : a.addedKey ≠ some preKeyId) (h : w.preKeys preKeyId = none) :
    (a.step ctx w).after.preKeys preKeyId = none := by
  cases a with
  | storePreKey i keyPair =>
    have hi : preKeyId ≠ i := fun hi => hadd (congrArg some hi.symm)
    exact (Function.update_of_ne hi ..).trans h
  | replaceIdentity address identityKey => exact h
  | call c =>
    rcases hrun : c.run ctx w with ⟨r, w'⟩
    rw [Action.step_call hrun]
    rcases (Call.run_outcome (ha c rfl) hrun).preKeys with
      hsame | ⟨record, record', saved, used, n, -, -, -, hkeys⟩
    · exact (congrFun hsame _).trans h
    · refine (hkeys preKeyId).trans ?_
      rw [h, ite_self]

end Steps

/-! ## 3. Whole histories -/

section Histories

variable [DecidableEq Addr] [LinearOrder Pub] [DecidableEq B]
  {ctx : SignalContext Addr Priv Pub B} {w : World Addr Priv Pub B} {preKeyId : UInt32}

/-- Without the key, and with nobody adding it, no step commits a state that it entered. -/
theorem not_commitsWith_of_none {actions : List (Action Addr Priv Pub B)}
    (ha : ∀ s ∈ history ctx actions w, s.Atomic)
    (hadd : ∀ s ∈ history ctx actions w, s.action.addedKey ≠ some preKeyId)
    (h : w.preKeys preKeyId = none) :
    ∀ s ∈ history ctx actions w, ¬ s.CommitsWith ctx preKeyId := by
  have hnone := history_invariant
    (G := fun s => s.Atomic ∧ s.action.addedKey ≠ some preKeyId)
    (I := fun w => w.preKeys preKeyId = none)
    (fun v a hv hG => preKeys_none_of_step hG.1 hG.2 hv) actions w h
    (fun s hs => ⟨ha s hs, hadd s hs⟩)
  intro s hs hcommit
  obtain ⟨cipher, m, record, stored, signedPreKey, key, state, reply, -, -, -, -, -, -, hpresent,
    -, -, -⟩ := hcommit
  rw [(hnone s hs).1] at hpresent
  cases hpresent

/-- **One-time pre keys are used once.**  Over any history of calls for any number of
addresses that share the pre key store, each executed atomically, with the application never
adding a removed key again: a one-time pre key other than the last-resort one enters at most
one session state that is ever committed, and it is removed from the store exactly when that
happens. -/
theorem one_time_pre_key_used_once (actions : List (Action Addr Priv Pub B))
    (ha : ∀ s ∈ history ctx actions w, s.Atomic)
    (hadd : (history ctx actions w).Pairwise fun s s' => ¬ s.Readds s')
    (hmax : preKeyId ≠ preKeyMediumMaxValue) :
    ((history ctx actions w).Pairwise fun s s' =>
        ¬ (s.CommitsWith ctx preKeyId ∧ s'.CommitsWith ctx preKeyId)) ∧
      ∀ s ∈ history ctx actions w, s.Removes preKeyId ↔ s.CommitsWith ctx preKeyId := by
  induction actions generalizing w with
  | nil => exact ⟨.nil, fun s hs => absurd hs List.not_mem_nil⟩
  | cons a actions ih =>
    have hatomic := ha _ List.mem_cons_self
    obtain ⟨hfirst, hrest⟩ := List.pairwise_cons.1 hadd
    obtain ⟨hpairs, hiff⟩ := ih (fun s hs => ha s (List.mem_cons_of_mem _ hs)) hrest
    have hstep : (a.step ctx w).Removes preKeyId ↔ (a.step ctx w).CommitsWith ctx preKeyId :=
      ⟨commitsWith_of_removes hatomic, removes_of_commitsWith hatomic hmax⟩
    refine ⟨List.pairwise_cons.2 ⟨?_, hpairs⟩, ?_⟩
    · rintro s hs ⟨hcommit, hcommit'⟩
      -- the first step has removed the key, and no later step adds it
      have hremoved := hstep.2 hcommit
      refine not_commitsWith_of_none (fun s hs => ha s (List.mem_cons_of_mem _ hs)) ?_
        hremoved.2 s hs hcommit'
      intro s' hs' hkey
      exact hfirst s' hs' ⟨preKeyId, hkey, hremoved⟩
    · intro s hs
      rcases List.mem_cons.1 hs with rfl | hs
      · exact hstep
      · exact hiff s hs

end Histories

/-- A stranger's first message, with the one-time pre key 4 (key pair 33). -/
def oneTimeMessage (identity base sending : Nat) : PreKeySignalMessage Nat Term :=
  { strayPreKeyMessage with
    preKeyId := some 4
    baseKey := base
    identityKey := identity
    message := sampleMessage (Session.alice symbolic
      { ourIdentityKey := symbolic.pair identity
        ourBaseKey := symbolic.pair base
        theirIdentityKey := 1
        theirSignedPreKey := 22
        theirOneTimePreKey := some 33
        theirRatchetKey := 22 } sending) (.text 8) }

/-- Two strangers at two addresses got the same one-time pre key, and the first of them is
heard again. -/
def sharedKeyActions : List (Action Nat Nat Nat Term) :=
  [.storePreKey 4 (symbolic.pair 33),
    .call (.decryptPreKey (SessionCipher.create 0) (oneTimeMessage 50 60 61)),
    .call (.decryptPreKey (SessionCipher.create 1) (oneTimeMessage 51 70 71)),
    .storePreKey 5 (symbolic.pair 34),
    .call (.decryptPreKey (SessionCipher.create 0) (oneTimeMessage 50 60 61))]

/-- The key is committed and removed by the first message only. -/
theorem one_time_pre_key_used_once_two_strangers :
    ((history sampleContext sharedKeyActions sampleStore).map fun s => decide (s.Removes 4)) =
        [false, true, false, false, false] ∧
      ∀ s ∈ history sampleContext sharedKeyActions sampleStore,
        s.Removes 4 ↔ s.CommitsWith sampleContext 4 := by
  have hatomic : ∀ a ∈ sharedKeyActions, ∀ c, a = .call c → c.Atomic := by
    simp only [sharedKeyActions, List.forall_mem_cons]
    refine ⟨nofun, ?_, ?_, nofun, ?_, nofun⟩ <;> rintro c ⟨⟩ <;>
      exact SessionCipher.passive_create _
  exact ⟨by decide +kernel, (one_time_pre_key_used_once sharedKeyActions
    (fun s hs => hatomic _ (action_mem_of_history hs)) (by decide +kernel) (by decide)).2⟩

end SignalProtocol
