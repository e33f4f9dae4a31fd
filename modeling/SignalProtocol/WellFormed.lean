/-
# Stored records are well formed

The states that the library stores have one of two shapes: a session, with all its keys in
place, or an empty state that at most carries a pending key exchange (`Shaped`).  This is the
invariant behind the whole session store:

* section 1: every function of the cipher and the builder keeps the shape of a state;
* section 2: every change keeps a record within its limits and its base keys distinct
  (`Kept`, `Change.kept`);
* section 3: hence so does every history of calls for any number of addresses;
* section 4: every record stored is well formed in the words of the C records
  (`SessionRecord.WellFormed`), and storage gives every record back that the library reaches.
-/
import SignalProtocol.StateKeys
import SignalProtocol.Run
import SignalProtocol.PreKeyMessages

namespace SignalProtocol

variable {Addr Priv Pub B : Type}

/-! ## 1. The shape of a state -/

/-- **The two shapes of a stored state.** -/
inductive Shaped (P : Provider Priv Pub B) : SessionState Priv Pub B → Prop
  | session {s : Session Priv Pub B} (h : s.InRange) : Shaped P (s.toState P)
  | blank (pending : Option (PendingKeyExchange Priv Pub)) :
      Shaped P { SessionState.create with pendingKeyExchange := pending }

section Shape

variable {P : Provider Priv Pub B} {state state' : SessionState Priv Pub B}

theorem Shaped.storable (h : Shaped P state) : state.Storable P := by
  cases h with
  | session h => exact Session.storable_toState P _
  | blank pending =>
    obtain ⟨hroot, hsender, hreceivers, hkeys⟩ :=
      (SessionState.storable_create : (SessionState.create : SessionState Priv Pub B).Storable P)
    exact ⟨hroot, hsender, hreceivers, hkeys⟩

theorem Shaped.copy (h : Shaped P state) : state.copy P = .ok state :=
  SessionState.copy_of_storable h.storable

/-- Offering a key exchange keeps the shape. -/
theorem Shaped.setPendingKeyExchange (h : Shaped P state) (sequence : UInt32)
    (base ratchet identity : EcKeyPair Priv Pub) :
    Shaped P (state.setPendingKeyExchange sequence base ratchet identity) := by
  cases h with
  | @session s h =>
    exact Shaped.session (s := { s with
      pendingKeyExchange := some ⟨sequence, some base, some ratchet, some identity⟩ })
      ⟨h.sender, h.receivers⟩
  | blank pending => exact Shaped.blank _

/-- Sending keeps the shape, except on the very last counter. -/
theorem Shaped.encrypt (h : Shaped P state) {p : B} {c : CiphertextMessage Pub B}
    (hsend : encryptWithState P state p = .ok (c, state'))
    (hc : c.inner.counter.toNat + 1 < 2 ^ 32) :
    Shaped P state' ∧ state'.aliceBaseKey = state.aliceBaseKey ∧
      state'.pendingKeyExchange = state.pendingKeyExchange ∧
      state'.remoteIdentityPublic = state.remoteIdentityPublic := by
  cases h with
  | @session s h =>
    rw [encryptWithState_toState] at hsend
    rcases hs : s.send P p with e | ⟨c', s'⟩ <;> rw [hs] at hsend <;> cases hsend
    have hrange := Session.inRange_send h hs hc
    obtain ⟨-, -, -, rfl⟩ := Session.send_ok_iff.1 hs
    exact ⟨.session hrange, rfl, rfl, rfl⟩
  | blank pending => cases hsend

variable [DecidableEq Pub] [DecidableEq B]

/-- Receiving keeps the shape, except on the very last counter. -/
theorem Shaped.decrypt (h : Shaped P state) {rng : Rng Priv B} {m : SignalMessage Pub B} {p : B}
    {k n : Nat} (hdec : sessionCipherDecryptFromState P rng state m k = (.ok (p, state'), n))
    (hm : m.counter.toNat + 1 < 2 ^ 32) :
    Shaped P state' ∧ state'.aliceBaseKey = state.aliceBaseKey ∧
      state'.pendingKeyExchange = state.pendingKeyExchange ∧
      state'.remoteIdentityPublic = state.remoteIdentityPublic := by
  cases h with
  | @session s h =>
    rw [decryptFromState_toState rng h] at hdec
    obtain ⟨⟨q, s'⟩, n', hr, hresult⟩ := Op.bind_ok_iff.1 hdec
    cases hresult
    obtain ⟨-, hremote, hbase, hpending, -⟩ := Session.receive_frame hr
    exact ⟨.session (Session.inRange_receive h hm hr), hbase, hpending,
      congrArg some hremote⟩
  | blank pending => cases hdec

end Shape

/-! ## 2. Records within their limits -/

/-- The base keys of a record's states, current one first. -/
def SessionRecord.baseKeys (record : SessionRecord Priv Pub B) : List Pub :=
  record.states.filterMap SessionState.aliceBaseKey

/-- **A record as the library keeps it**: shaped states, at most 40 of them archived, with
distinct base keys none of which is still to be generated. -/
structure Kept (ctx : SignalContext Addr Priv Pub B) (n : Nat)
    (record : SessionRecord Priv Pub B) : Prop where
  shaped : ∀ state ∈ record.states, Shaped ctx.provider state
  length : record.previousStates.length ≤ archivedStatesMaxLength
  nodup : record.baseKeys.Nodup
  old : ∀ key ∈ record.baseKeys, OldKey ctx n key

section Keeping

variable {ctx : SignalContext Addr Priv Pub B} {n n' : Nat} {record : SessionRecord Priv Pub B}
  {state' : SessionState Priv Pub B}

theorem Kept.mono (h : Kept ctx n record) (hn : n ≤ n') : Kept ctx n' record :=
  ⟨h.shaped, h.length, h.nodup, fun key hk => (h.old key hk).mono hn⟩

theorem Kept.create (ctx : SignalContext Addr Priv Pub B) (n : Nat) :
    Kept ctx n (SessionRecord.create none) where
  shaped state hs := by
    rw [List.mem_singleton.1 hs]
    exact .blank none
  length := Nat.zero_le _
  nodup := .nil
  old _ hk := absurd hk List.not_mem_nil

/-- The current state may be replaced by one with the same base key. -/
theorem Kept.setState (h : Kept ctx n record) (hs : Shaped ctx.provider state')
    (hb : state'.aliceBaseKey = record.state.aliceBaseKey) :
    Kept ctx n (record.setState state') := by
  have hkeys : (record.setState state').baseKeys = record.baseKeys := by
    simp only [SessionRecord.baseKeys, SessionRecord.states, SessionRecord.setState,
      List.filterMap_cons, hb]
  refine ⟨fun state hstate => ?_, h.length, hkeys ▸ h.nodup, fun key hk => h.old key (hkeys ▸ hk)⟩
  rcases List.mem_cons.1 hstate with rfl | hstate
  · exact hs
  · exact h.shaped state (List.mem_cons_of_mem _ hstate)

/-- A state that receives may move to the front. -/
theorem Kept.accept [DecidableEq Pub] [DecidableEq B] (h : Kept ctx n record)
    {m : SignalMessage Pub B} {p : B} {i k : Nat}
    (ha : AcceptedAt ctx.provider ctx.rng m record.states p state' i k)
    (hm : m.counter.toNat + 1 < 2 ^ 32) : Kept ctx n (record.accept state' i) := by
  obtain ⟨state, copy, j, hi, hcopy, hdec⟩ := ha
  have hshaped := h.shaped state (List.mem_of_getElem? hi)
  rw [hshaped.copy] at hcopy
  cases hcopy
  obtain ⟨hs, hb, -, -⟩ := hshaped.decrypt hdec hm
  obtain ⟨hlt, -⟩ := List.getElem?_eq_some_iff.1 hi
  have hstates := states_accept state' h.length hlt
  -- the base keys are those of before, in another order
  have hperm : (record.accept state' i).baseKeys.Perm record.baseKeys := by
    rw [SessionRecord.baseKeys, hstates, List.filterMap_cons, hb, ← List.filterMap_cons]
    exact (perm_cons_eraseIdx hi).symm.filterMap _
  refine ⟨fun t ht => ?_, ?_, hperm.nodup_iff.2 h.nodup,
    fun key hk => h.old key (hperm.mem_iff.1 hk)⟩
  · rw [hstates] at ht
    rcases List.mem_cons.1 ht with rfl | ht
    · exact hs
    · exact h.shaped t (List.mem_of_mem_eraseIdx ht)
  · exact length_accept state' h.length hlt

/-- The states behind a new one. -/
theorem states_makeRoom_setState (state' : SessionState Priv Pub B)
    (hlen : record.previousStates.length ≤ archivedStatesMaxLength) :
    ∃ rest, (record.makeRoom.setState state').states = state' :: rest ∧
      rest.Sublist record.states ∧ rest.length ≤ archivedStatesMaxLength := by
  unfold SessionRecord.makeRoom
  split
  · exact ⟨record.previousStates, rfl, List.sublist_cons_self .., hlen⟩
  · exact ⟨record.states.take archivedStatesMaxLength, rfl, List.take_sublist ..,
      List.length_take_le ..⟩

/-- A new state may be put in front if its base key is new. -/
theorem Kept.front (h : Kept ctx n record) (hs : Shaped ctx.provider state') (hn : n ≤ n')
    (hb : ∀ key ∈ state'.aliceBaseKey, key ∉ record.baseKeys ∧ OldKey ctx n' key) :
    Kept ctx n' (record.makeRoom.setState state') := by
  obtain ⟨rest, hstates, hsub, hlen⟩ := states_makeRoom_setState state' h.length
  have hrest : (rest.filterMap SessionState.aliceBaseKey).Sublist record.baseKeys :=
    hsub.filterMap _
  have hkeys : (record.makeRoom.setState state').baseKeys =
      state'.aliceBaseKey.toList ++ rest.filterMap SessionState.aliceBaseKey := by
    rw [SessionRecord.baseKeys, hstates, List.filterMap_cons]
    cases state'.aliceBaseKey <;> rfl
  refine ⟨fun state hstate => ?_, ?_, ?_, fun key hk => ?_⟩
  · rw [hstates] at hstate
    rcases List.mem_cons.1 hstate with rfl | hstate
    · exact hs
    · exact h.shaped state (hsub.subset hstate)
  · have hlength := congrArg List.length hstates
    simp only [SessionRecord.states, List.length_cons] at hlength
    omega
  · rw [hkeys]
    refine List.Nodup.append ?_ (h.nodup.sublist hrest) fun key hk hk' => ?_
    · cases state'.aliceBaseKey with
      | none => exact .nil
      | some key => exact List.nodup_singleton key
    · exact (hb key (Option.mem_toList.1 hk)).1 (hrest.subset hk')
  · rw [hkeys] at hk
    rcases List.mem_append.1 hk with hk | hk
    · exact (hb key (Option.mem_toList.1 hk)).2
    · exact (h.old key (hrest.subset hk)).mono hn

/-- A key that was drawn is not drawn again. -/
theorem oldKey_of_drawn (hinj : Function.Injective ctx.provider.publicKey)
    (hd : ctx.rng.Distinct) {j : Nat} {k : Priv} (hk : ctx.rng.privateKey j = .ok k) (hj : j < n) :
    OldKey ctx n (ctx.provider.publicKey k) := by
  intro i hi k' hk' heq
  rw [hinj heq] at hk'
  have := hd hk hk'
  omega

/-- A key that is still to be drawn is not among the base keys. -/
theorem Kept.notMem_of_drawn (h : Kept ctx n record) {k : Priv}
    (hk : ctx.rng.privateKey n = .ok k) : ctx.provider.publicKey k ∉ record.baseKeys :=
  fun hmem => h.old _ hmem n le_rfl k hk rfl

/-- A version-3 base key that is not found is not among the base keys. -/
theorem Kept.notMem_of_unknown [DecidableEq Pub] (h : Kept ctx n record) {key : Pub}
    (hk : ¬ record.hasSessionState 3 key = true) : key ∉ record.baseKeys := by
  intro hmem
  obtain ⟨state, hstate, hbase⟩ := List.mem_filterMap.1 hmem
  refine hk (List.any_eq_true.2 ⟨state, hstate, ?_⟩)
  cases h.shaped state hstate with
  | session hr => exact decide_eq_true ⟨rfl, hbase⟩
  | blank pending => cases hbase

end Keeping

/-- The base key that enters a call from outside. -/
def Call.baseKey : Call Addr Priv Pub B → Option Pub
  | decryptPreKey _ m => some m.baseKey
  | _ => none

section Changes

variable [LinearOrder Pub] [DecidableEq B] {ctx : SignalContext Addr Priv Pub B}
  {w : World Addr Priv Pub B} {c : Call Addr Priv Pub B} {r : Except SgError (Reply Pub B)}
  {record record' : SessionRecord Priv Pub B} {saved : Option Pub} {used : Option UInt32} {n : Nat}

/-- **Every change keeps the record in order.** -/
theorem Change.kept (hinj : Function.Injective ctx.provider.publicKey) (hd : ctx.rng.Distinct)
    (h : Kept ctx w.drawn record) (hc : Change ctx w record c r record' saved used n)
    (hreceived : c.Received ctx.provider)
    (hbounded : ∀ k ∈ c.counter r, k.toNat + 1 < 2 ^ 32)
    (hfresh : ∀ key ∈ c.baseKey, OldKey ctx w.drawn key) : Kept ctx n record' := by
  cases hc with
  | send hsend =>
    obtain ⟨hs, hb, -, -⟩ := (h.shaped _ List.mem_cons_self).encrypt hsend (hbounded _ rfl)
    exact h.setState hs hb
  | receive hn ha => exact (h.accept ha (hbounded _ rfl)).mono hn
  | initiate ha hb hs =>
    refine h.front (.session (Session.inRange_initiated ..)) (Nat.le_add_right _ 2) ?_
    rintro key ⟨⟩
    exact ⟨h.notMem_of_drawn hb, oldKey_of_drawn hinj hd hb (by omega)⟩
  | respond hn ht hb ha =>
    cases hb with
    | known hknown => exact (h.accept ha (hbounded _ rfl)).mono hn
    | new hnew hsigned honce =>
      have hversion := hreceived.spec.1
      rw [hversion] at hnew
      refine ((h.front (.session (Session.inRange_responded ..)) le_rfl ?_).accept ha
        (hbounded _ rfl)).mono hn
      rintro key ⟨⟩
      exact ⟨h.notMem_of_unknown hnew, hfresh _ rfl⟩
  | offer hb hr =>
    exact (h.setState ((h.shaped _ List.mem_cons_self).setPendingKeyExchange ..) rfl).mono
      (Nat.le_add_right _ 4)
  | agree ha hs =>
    obtain ⟨-, -, j, sending, hfound, -, rfl, hrecord⟩ := ha
    obtain ⟨hrange, hbase, -, -⟩ := SymmetricParameters.session_spec ctx.provider _ sending
    rw [hrecord]
    refine h.front (.session hrange) (hfound.drawn_le.trans (Nat.le_add_right _ _)) ?_
    intro key hkey
    rw [show (Session.toState ctx.provider _).aliceBaseKey = none from hbase] at hkey
    cases hkey

end Changes

/-! ## 3. Histories -/

/-- Every stored record is in order. -/
def World.AllKept (ctx : SignalContext Addr Priv Pub B) (w : World Addr Priv Pub B) : Prop :=
  w.All ctx (Kept ctx w.drawn)

/-- The base key that enters an action from outside. -/
def Action.baseKey : Action Addr Priv Pub B → Option Pub
  | call c => c.baseKey
  | _ => none

/-- **Generated key pairs are fresh**: no base key that enters the step is generated later. -/
def Step.Fresh (ctx : SignalContext Addr Priv Pub B) (s : Step Addr Priv Pub B) : Prop :=
  ∀ key ∈ s.action.baseKey, OldKey ctx s.before.drawn key

/-- **What a step is assumed to be**: executed atomically, on messages that were read from
bytes, with chain indices below the last one, and with no base key from outside that is
generated later. -/
structure Step.Regular (ctx : SignalContext Addr Priv Pub B) (s : Step Addr Priv Pub B) :
    Prop where
  atomic : s.Atomic
  received : s.Received ctx.provider
  bounded : s.Bounded
  fresh : s.Fresh ctx

/-- A record that is kept is read back as it was, no longer fresh. -/
theorem Kept.deserialize {ctx : SignalContext Addr Priv Pub B} {n : Nat}
    {record : SessionRecord Priv Pub B} (h : Kept ctx n record) :
    (record.serialize ctx.provider).deserialize ctx.provider =
      .ok { record with isFresh := false } :=
  SessionRecord.deserialize_serialize fun state hs => (h.shaped state hs).storable

theorem World.AllKept.record {ctx : SignalContext Addr Priv Pub B} {w : World Addr Priv Pub B}
    (h : w.AllKept ctx) {address : Addr} {record : SessionRecord Priv Pub B}
    (hr : w.record ctx.provider address = .ok record) : Kept ctx w.drawn record := by
  rcases record_cases hr with ⟨-, rfl⟩ | ⟨-, stored, hstored, hread⟩
  · exact Kept.create ctx w.drawn
  · obtain ⟨record₀, rfl, hkept⟩ := h address stored hstored
    rw [hkept.deserialize] at hread
    cases hread
    exact ⟨hkept.shaped, hkept.length, hkept.nodup, hkept.old⟩

section History

variable [DecidableEq Addr] [LinearOrder Pub] [DecidableEq B]
  {ctx : SignalContext Addr Priv Pub B} {w w' : World Addr Priv Pub B}

/-- **A call keeps all records in order.** -/
theorem Outcome.allKept (hinj : Function.Injective ctx.provider.publicKey)
    (hd : ctx.rng.Distinct) {c : Call Addr Priv Pub B} {r : Except SgError (Reply Pub B)}
    (h : Outcome ctx w c r w') (hw : w.AllKept ctx) (hreceived : c.Received ctx.provider)
    (hbounded : ∀ k ∈ c.counter r, k.toNat + 1 < 2 ^ 32)
    (hfresh : ∀ key ∈ c.baseKey, OldKey ctx w.drawn key) : w'.AllKept ctx :=
  h.all hw (fun _ hkept => hkept.mono h.drawn_le) fun hr hchange hn =>
    (hchange.kept hinj hd (hw.record hr) hreceived hbounded hfresh).mono hn

/-- **Every step keeps all records in order.** -/
theorem allKept_step (hinj : Function.Injective ctx.provider.publicKey)
    (hd : ctx.rng.Distinct) {a : Action Addr Priv Pub B} (hw : w.AllKept ctx)
    (hs : (a.step ctx w).Regular ctx) : (a.step ctx w).after.AllKept ctx := by
  cases a with
  | call c =>
    rcases hrun : c.run ctx w with ⟨r, w'⟩
    rw [Action.step_call hrun] at hs ⊢
    exact (Call.run_outcome (hs.atomic c rfl) hrun).allKept hinj hd hw (hs.received c rfl)
      hs.bounded hs.fresh
  | storePreKey preKeyId keyPair => exact hw
  | replaceIdentity address identityKey => exact hw

theorem allKept_history (hinj : Function.Injective ctx.provider.publicKey)
    (hd : ctx.rng.Distinct) (hw : ∀ address, w.sessions address = none)
    (actions : List (Action Addr Priv Pub B))
    (hs : ∀ s ∈ history ctx actions w, s.Regular ctx) :
    ∀ s ∈ history ctx actions w, s.before.AllKept ctx ∧ s.after.AllKept ctx ∧
      s = s.action.step ctx s.before :=
  history_invariant (G := fun s => s.Regular ctx) (I := fun w => w.AllKept ctx)
    (fun _ _ hkept hregular => allKept_step hinj hd hkept hregular) actions w
    (fun address stored h => by rw [hw] at h; cases h) hs

end History

/-! ## 4. Well-formed records -/

/-- **A well-formed state**, in terms of the C record. -/
structure SessionState.WellFormed (state : SessionState Priv Pub B) : Prop where
  receiverChains : state.receiverChains.length ≤ maxReceiverChains
  ratchetKeys : (state.receiverChains.map ReceiverChain.senderRatchetKey).Nodup
  messageKeys : ∀ chain ∈ state.receiverChains, chain.messageKeys.length ≤ maxMessageKeys ∧
    (chain.messageKeys.map RatchetMessageKeys.counter).Pairwise (· < ·) ∧
    ∃ chainKey, chain.chainKey = some chainKey ∧
      ∀ keys ∈ chain.messageKeys, keys.counter < chainKey.index
  sender : state.hasSenderChain = true → state.getSenderRatchetKeyPair.isSome = true ∧
    state.getSenderChainKey.isSome = true ∧ state.rootKey.isSome = true ∧
    state.localIdentityPublic.isSome = true ∧ state.remoteIdentityPublic.isSome = true ∧
    state.sessionVersion = 3

/-- **A well-formed record.** -/
structure SessionRecord.WellFormed (record : SessionRecord Priv Pub B) : Prop where
  previousStates : record.previousStates.length ≤ archivedStatesMaxLength
  baseKeys : record.baseKeys.Nodup
  states : ∀ state ∈ record.states, state.WellFormed

/-- The skipped keys of a chain carry the counters its window holds. -/
theorem wellFormed_toChain {P : Provider Priv Pub B} {c : ReceivingChain Pub B}
    (h : c.window.next < 2 ^ 32) :
    ((c.toChain P).messageKeys.map RatchetMessageKeys.counter).Pairwise (· < ·) ∧
      ∀ keys ∈ (c.toChain P).messageKeys, keys.counter < UInt32.ofNat c.window.next := by
  have hlt : ∀ i < c.window.next, ∀ j < i, UInt32.ofNat j < UInt32.ofNat i := by
    intro i hi j hj
    rw [UInt32.lt_iff_toNat_lt, toNat_ofNat32 (by omega), toNat_ofNat32 (by omega)]
    exact hj
  constructor
  · rw [ReceivingChain.toChain, List.map_map, List.pairwise_map]
    refine c.window.sorted.imp_of_mem fun {i j} hi hj hij => ?_
    exact hlt j (c.window.below j hj) i hij
  · intro keys hkeys
    obtain ⟨i, hi, rfl⟩ := List.mem_map.1 hkeys
    rw [UInt32.lt_iff_toNat_lt]
    have hi' := c.window.below i hi
    exact (toNat_ofNat32 (show i < 2 ^ 32 by omega)).trans_lt
      (hi'.trans_eq (toNat_ofNat32 h).symm)

/-- **Shaped states are well formed.** -/
theorem Shaped.wellFormed {P : Provider Priv Pub B} {state : SessionState Priv Pub B}
    (h : Shaped P state) : state.WellFormed := by
  cases h with
  | @session s h =>
    refine ⟨?_, ?_, fun chain hchain => ?_, fun _ => ⟨rfl, rfl, rfl, rfl, rfl, rfl⟩⟩
    · rw [Session.toState, List.length_map]
      exact s.receivers_le
    · rw [Session.toState, List.map_map]
      have hkeys := s.keys_nodup.map (Option.some_injective _)
      rwa [List.map_map] at hkeys
    · obtain ⟨c, hc, rfl⟩ := List.mem_map.1 hchain
      obtain ⟨hsorted, hbelow⟩ := wellFormed_toChain (P := P) (h.receivers c hc)
      refine ⟨?_, hsorted, _, rfl, hbelow⟩
      rw [ReceivingChain.toChain, List.length_map]
      exact c.window.bounded
  | blank pending =>
    exact ⟨Nat.zero_le _, .nil, fun _ hchain => absurd hchain List.not_mem_nil,
      fun h => absurd h Bool.false_ne_true⟩

theorem Kept.wellFormed {ctx : SignalContext Addr Priv Pub B} {n : Nat}
    {record : SessionRecord Priv Pub B} (h : Kept ctx n record) : record.WellFormed :=
  ⟨h.length, h.nodup, fun state hs => (h.shaped state hs).wellFormed⟩

section Results

variable [DecidableEq Addr] [LinearOrder Pub] [DecidableEq B]
  {ctx : SignalContext Addr Priv Pub B} {w : World Addr Priv Pub B}

/-- **Every record that is ever stored is well formed.**  From an empty session store, after
every step of any history of calls on any messages, each stored record can be read back and is
well formed. -/
theorem stored_records_wellFormed (hinj : Function.Injective ctx.provider.publicKey)
    (hd : ctx.rng.Distinct) (hw : ∀ address, w.sessions address = none)
    (actions : List (Action Addr Priv Pub B))
    (hs : ∀ s ∈ history ctx actions w, s.Regular ctx) :
    ∀ s ∈ history ctx actions w, ∀ address stored, s.after.sessions address = some stored →
      ∃ record, stored.deserialize ctx.provider = .ok record ∧ record.WellFormed := by
  intro s hmem address stored hstored
  obtain ⟨-, hafter, -⟩ := allKept_history hinj hd hw actions hs s hmem
  obtain ⟨record, rfl, hkept⟩ := hafter address stored hstored
  exact ⟨_, hkept.deserialize, hkept.wellFormed.previousStates, hkept.wellFormed.baseKeys,
    hkept.wellFormed.states⟩

/-- A record that a step works on: one it finds in the session store, or the one it stores. -/
inductive Step.Handles (ctx : SignalContext Addr Priv Pub B) (s : Step Addr Priv Pub B) :
    SessionRecord Priv Pub B → Prop
  | loaded {address : Addr} {record : SessionRecord Priv Pub B}
      (h : s.before.record ctx.provider address = .ok record) : Step.Handles ctx s record
  | stored {c : Call Addr Priv Pub B} {record record' : SessionRecord Priv Pub B}
      {saved : Option Pub} {used : Option UInt32} {n : Nat} (hc : s.action = .call c)
      (hr : s.before.record ctx.provider c.address = .ok record)
      (h : Change ctx s.before record c s.result record' saved used n) :
      Step.Handles ctx s record'

/-- **Storage is the identity on every record the library can reach**, except that a record
read back is no longer fresh; and copying a state is the identity. -/
theorem reachable_record_round_trip (actions : List (Action Addr Priv Pub B)) :
    ∀ s ∈ history ctx actions w, ∀ record, s.Handles ctx record →
      (record.serialize ctx.provider).deserialize ctx.provider =
          .ok { record with isFresh := false } ∧
        ∀ state ∈ record.states, state.copy ctx.provider = .ok state := by
  intro s _ record hhandles
  have hreadable : record.Readable ctx.provider := by
    cases hhandles with
    | loaded h => exact readable_of_record h
    | stored hc hr h => exact Change.readable (readable_of_record hr) h
  exact ⟨hreadable.deserialize, fun state hstate => (hreadable state hstate).copy⟩

end Results

/-- A peer with identity 51 offers a key exchange. -/
def sampleInitiate : KeyExchangeMessage Nat Term where
  version := 3
  sequence := 1
  flags := keyExchangeInitiateFlag
  baseKey := 80
  baseKeySignature := .signed 51 (.point 80) .nil
  ratchetKey := 81
  identityKey := 51

/-- Every operation once, with two addresses: after these the record for address 0 has three
sessions, of which one carries an offer. -/
def sampleMix : List (Action Nat Nat Nat Term) :=
  [.call (.processPreKeyBundle 0 sampleBundle),
    .call (.encrypt (SessionCipher.create 0) (.text 0)),
    .call (.decryptSignal (SessionCipher.create 0) (sampleMessage samplePeerSession (.text 9))),
    .call (.process 0), .call (.process 1),
    .call (.processKeyExchangeMessage 0 sampleInitiate),
    .replaceIdentity 0 50,
    .call (.decryptPreKey (SessionCipher.create 0) honestPreKeyMessage)]

theorem sampleMix_regular :
    ∀ s ∈ history sampleContext sampleMix sampleStore, s.Regular sampleContext := by
  have hcalls : ∀ a ∈ sampleMix, ∀ c, a = .call c → c.Atomic ∧ c.Received symbolic := by
    simp only [sampleMix, List.forall_mem_cons, Action.call.injEq, forall_eq', reduceCtorEq]
    exact ⟨⟨trivial, trivial⟩, ⟨SessionCipher.passive_create 0, trivial⟩,
      ⟨SessionCipher.passive_create 0, sampleMessage_parsed ..⟩, ⟨trivial, trivial⟩,
      ⟨trivial, trivial⟩, ⟨trivial, trivial⟩, nofun,
      ⟨SessionCipher.passive_create 0, honestPreKeyMessage_parsed⟩, nofun⟩
  have hsteps : ∀ s ∈ history sampleContext sampleMix sampleStore,
      s.Bounded ∧ ∀ key ∈ s.action.baseKey, key < 100 := by decide +kernel
  intro s hs
  have ha := action_mem_of_history hs
  exact ⟨fun c hc => (hcalls _ ha c hc).1, fun c hc => (hcalls _ ha c hc).2, (hsteps s hs).1,
    fun key hk => sampleContext_oldKey ((hsteps s hs).2 key hk)⟩

theorem sampleContext_injective : Function.Injective sampleContext.provider.publicKey :=
  symbolic_ideal.publicKey_inj

/-- All of the calls succeed, and what they store is well formed. -/
theorem stored_records_wellFormed_mix :
    (∀ s ∈ history sampleContext sampleMix sampleStore, s.result.toOption.isSome = true) ∧
      ∀ s ∈ history sampleContext sampleMix sampleStore, ∀ address stored,
        s.after.sessions address = some stored →
          ∃ record, stored.deserialize symbolic = .ok record ∧ record.WellFormed :=
  ⟨by decide +kernel,
    stored_records_wellFormed sampleContext_injective sampleContext_distinct (fun _ => rfl)
      sampleMix sampleMix_regular⟩

theorem history_sampleMix_ne_nil : history sampleContext sampleMix sampleStore ≠ [] :=
  List.cons_ne_nil _ _

/-- The last of the calls. -/
def sampleMixLast : Step Nat Nat Nat Term :=
  (history sampleContext sampleMix sampleStore).getLast history_sampleMix_ne_nil

/-- The last call finds a record with an archived state for address 0; storage gives it back. -/
theorem reachable_record_round_trip_mix :
    ∃ record, sampleMixLast.before.record symbolic 0 = .ok record ∧
      record.previousStates.length = 1 ∧
      (record.serialize symbolic).deserialize symbolic = .ok { record with isFresh := false } ∧
      ∀ state ∈ record.states, state.copy symbolic = .ok state := by
  have hlength : (sampleMixLast.before.record symbolic 0).toOption.map
      (fun record : SessionRecord Nat Nat Term => record.previousStates.length) = some 1 := by
    decide +kernel
  cases hr : (sampleMixLast.before.record symbolic 0 : Except SgError (SessionRecord Nat Nat Term))
    with
  | error e =>
    rw [hr] at hlength
    cases hlength
  | ok record =>
    rw [hr] at hlength
    exact ⟨record, rfl, Option.some.inj hlength,
      reachable_record_round_trip sampleMix sampleMixLast (List.getLast_mem _) record
        (.loaded hr)⟩

end SignalProtocol
