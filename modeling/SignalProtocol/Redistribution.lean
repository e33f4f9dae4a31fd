/-
# Distribution messages that arrive again

`sender_key_record_add_sender_key_state` puts a new state in front of a record without looking
for one with the same id, lookups take the first match, and the oldest of more than five states
is dropped.  So a distribution message that arrives again replaces the state of its sender key by
the one it describes: what was accepted is acceptable again, and what was skipped is lost.

Section 3 says when nothing of this happens: the record `Absorbs` the distribution message.
Section 4 is what follows for whole runs of a receiver, section 5 what happens otherwise.
-/
import SignalProtocol.GroupDelivery
import SignalProtocol.Refine

namespace SignalProtocol

variable {Name Priv Pub B : Type}

/-! ## 1. Looking up a state -/

/-- The state that a message with a key id is decrypted with. -/
def SenderKeyRecord.stateFor (record : SenderKeyRecord Priv Pub B) (id : UInt32) :
    Option (SenderKeyState Priv Pub B) :=
  record.states.find? fun state => state.keyId = id

/-- A state as far as receiving is concerned. -/
def SenderKeyState.receiving (state : SenderKeyState Priv Pub B) : SenderKeyState Priv Pub B :=
  { state with signaturePrivateKey := none }

section Lookup

variable {record : SenderKeyRecord Priv Pub B} {state state' : SenderKeyState Priv Pub B}
  {id : UInt32}

theorem getSenderKeyStateById_eq (h : record.stateFor id = some state) :
    record.getSenderKeyStateById id = .ok state := by
  rw [SenderKeyRecord.stateFor] at h
  rw [SenderKeyRecord.getSenderKeyStateById, h]

theorem SenderKeyRecord.keyId_of_stateFor (h : record.stateFor id = some state) :
    state.keyId = id := by
  have hp := List.find?_some h
  exact of_decide_eq_true hp

theorem SenderKeyRecord.mem_of_stateFor (h : record.stateFor id = some state) :
    state ∈ record.states :=
  List.mem_of_find?_eq_some h

/-- The state that was changed is found where it was. -/
theorem SenderKeyRecord.stateFor_setStateById (h : record.stateFor id = some state)
    (hid : state'.keyId = id) : (record.setStateById id state').stateFor id = some state' := by
  have hp : ∀ s : SenderKeyState Priv Pub B, decide (s.keyId = id) = true →
      decide (state'.keyId = id) = true := fun _ _ => decide_eq_true hid
  rw [stateFor] at h
  rw [stateFor, setStateById]
  dsimp only
  rw [find?_modifyFirst (f := fun _ => state') hp, h]
  rfl

theorem find?_modifyFirst_of_ne {α : Type} {p q : α → Bool} {a : α} (ha : q a = false)
    (hpq : ∀ b, p b = true → q b = false) :
    ∀ l : List α, (modifyFirst p (fun _ => a) l).find? q = l.find? q
  | [] => rfl
  | b :: l => by
    by_cases h : p b = true
    · simp only [modifyFirst, h, if_true, List.find?_cons, ha, hpq b h]
    · simp only [modifyFirst, h, if_false, Bool.false_eq_true, List.find?_cons,
        find?_modifyFirst_of_ne ha hpq l]

/-- The other states are found as before. -/
theorem SenderKeyRecord.stateFor_setStateById_of_ne {id' : UInt32} (hne : id' ≠ id)
    (hid : state'.keyId = id) : (record.setStateById id state').stateFor id' =
      record.stateFor id' := by
  have hq : decide (state'.keyId = id') = false := decide_eq_false (hid ▸ hne.symm)
  have hpq : ∀ s : SenderKeyState Priv Pub B, decide (s.keyId = id) = true →
      decide (s.keyId = id') = false := fun s hs =>
    decide_eq_false fun h => hne (h.symm.trans (of_decide_eq_true hs))
  rw [stateFor, stateFor, setStateById]
  dsimp only
  exact find?_modifyFirst_of_ne (q := fun s : SenderKeyState Priv Pub B => s.keyId = id') hq hpq _

end Lookup

/-! ## 2. The private key does not matter -/

section Receiving

theorem SenderKeyState.addSenderMessageKey_receiving (key : SenderMessageKey B)
    (state : SenderKeyState Priv Pub B) :
    state.receiving.addSenderMessageKey key = (state.addSenderMessageKey key).receiving := by
  rw [addSenderMessageKey, addSenderMessageKey, receiving, receiving]

theorem skipSenderKeys_receiving (P : Provider Priv Pub B) (iteration : UInt32) :
    ∀ (rounds : Nat) (chainKey : SenderChainKey B) (state : SenderKeyState Priv Pub B),
      skipSenderKeys P iteration rounds chainKey state.receiving =
        ((skipSenderKeys P iteration rounds chainKey state).1,
          (skipSenderKeys P iteration rounds chainKey state).2.receiving)
  | 0, _, _ => rfl
  | rounds + 1, chainKey, state => by
    rw [skipSenderKeys, skipSenderKeys, SenderKeyState.addSenderMessageKey_receiving]
    split
    · exact skipSenderKeys_receiving P iteration rounds ..
    · rfl

theorem getSenderKey_receiving (P : Provider Priv Pub B) (state : SenderKeyState Priv Pub B)
    (iteration : UInt32) :
    (groupCipherGetSenderKey P iteration).onCopy state.receiving =
      ((groupCipherGetSenderKey P iteration).onCopy state).map fun r => (r.1, r.2.receiving) := by
  have hchain : state.receiving.chainKey = state.chainKey := rfl
  have hhas : state.receiving.hasSenderMessageKey iteration =
      state.hasSenderMessageKey iteration := rfl
  have hremove : state.receiving.removeSenderMessageKey iteration =
      ((state.removeSenderMessageKey iteration).1,
        (state.removeSenderMessageKey iteration).2.receiving) := rfl
  simp only [onCopy_getSenderKey, skipSenderKeys_receiving, hchain, hhas, hremove]
  by_cases hlt : state.chainKey.iteration > iteration
  · simp only [if_pos hlt]
    by_cases hkey : state.hasSenderMessageKey iteration = true
    · simp only [if_pos hkey]
      rcases state.removeSenderMessageKey iteration with ⟨_ | key, state'⟩
      · rfl
      · rfl
    · simp only [if_neg hkey]
      rfl
  · simp only [if_neg hlt]
    by_cases hfar : iteration - state.chainKey.iteration > maxFutureMessages
    · simp only [if_pos hfar]
      rfl
    · simp only [if_neg hfar]
      rfl

/-- What is decrypted does not depend on the private key of a state. -/
theorem SenderKeyState.decrypt_receiving (P : GroupProvider Priv Pub B)
    (state : SenderKeyState Priv Pub B) (m : SenderKeyMessage B) :
    (state.receiving.decrypt P m).map Prod.fst = (state.decrypt P m).map Prod.fst := by
  have hkey : state.receiving.signaturePublicKey = state.signaturePublicKey := rfl
  simp only [SenderKeyState.decrypt, getSenderKey_receiving, hkey, bind, Except.bind]
  cases m.verifySignature P state.signaturePublicKey with
  | error e => rfl
  | ok u =>
    dsimp only
    cases (groupCipherGetSenderKey P.toProvider m.iteration).onCopy state with
    | error e => rfl
    | ok result =>
      dsimp only [Except.map]
      cases P.decrypt .cbcPkcs5 result.1.cipherKey
        result.1.iv m.ciphertext with
      | error e => rfl
      | ok plaintext => rfl

end Receiving

/-- An iteration that a state will not accept. -/
def SenderKeyState.Spent (state : SenderKeyState Priv Pub B) (i : Nat) : Prop :=
  ∃ hw : state.WellFormed, (state.window hw).Spent i

theorem SenderKeyState.spent_receiving {state : SenderKeyState Priv Pub B} {i : Nat} :
    state.receiving.Spent i ↔ state.Spent i :=
  ⟨fun ⟨hw, h⟩ => ⟨⟨hw.sorted, hw.below, hw.bounded⟩, h⟩,
    fun ⟨hw, h⟩ => ⟨⟨hw.sorted, hw.below, hw.bounded⟩, h⟩⟩

/-! ## 3. Harmless distribution messages -/

/-- The state that a distribution message describes. -/
def SenderKeyDistributionMessage.state (d : SenderKeyDistributionMessage Pub B) :
    SenderKeyState Priv Pub B :=
  .create d.id ⟨d.iteration, d.chainKey⟩ d.signatureKey none

/-- **When nothing is lost**: the state in use for the key id, if there is one, is the one
described, and a state that gives way to the limit is not in use. -/
def SenderKeyRecord.Absorbs (record : SenderKeyRecord Priv Pub B)
    (d : SenderKeyDistributionMessage Pub B) : Prop :=
  (∀ state ∈ record.stateFor d.id, state.receiving = d.state) ∧
    ∀ state ∈ record.states.drop (maxStates - 1), state.keyId = d.id ∨
      ∃ earlier ∈ record.states.take (maxStates - 1), earlier.keyId = state.keyId

instance [DecidableEq Priv] [DecidableEq Pub] [DecidableEq B] (record : SenderKeyRecord Priv Pub B)
    (d : SenderKeyDistributionMessage Pub B) : Decidable (record.Absorbs d) :=
  inferInstanceAs (Decidable (_ ∧ _))

/-- The record after a distribution message was processed. -/
def SenderKeyRecord.process (record : SenderKeyRecord Priv Pub B)
    (d : SenderKeyDistributionMessage Pub B) : SenderKeyRecord Priv Pub B :=
  record.addSenderKeyState d.id d.iteration d.chainKey d.signatureKey

section Absorb

variable {record : SenderKeyRecord Priv Pub B} {d : SenderKeyDistributionMessage Pub B}
  {state : SenderKeyState Priv Pub B} {id : UInt32}

theorem SenderKeyRecord.states_process :
    (record.process d).states = d.state :: record.states.take (maxStates - 1) := rfl

/-- The message's own key id is served by the state it describes. -/
theorem SenderKeyRecord.stateFor_process_self :
    (record.process d).stateFor d.id = some d.state := by
  rw [stateFor, states_process]
  exact List.find?_cons_of_pos (decide_eq_true rfl)

/-- **A state in use stays in use**, up to its private key. -/
theorem SenderKeyRecord.Absorbs.stateFor (h : record.Absorbs d)
    (hs : record.stateFor id = some state) :
    ∃ state', (record.process d).stateFor id = some state' ∧
      state'.receiving = state.receiving := by
  by_cases hid : id = d.id
  · subst hid
    exact ⟨d.state, stateFor_process_self, (h.1 state hs).symm⟩
  · refine ⟨state, ?_, rfl⟩
    have hne : decide ((d.state : SenderKeyState Priv Pub B).keyId = id) = false :=
      decide_eq_false fun he => hid he.symm
    simp only [SenderKeyRecord.stateFor, states_process, List.find?_cons, hne]
    rw [SenderKeyRecord.stateFor, ← List.take_append_drop (maxStates - 1) record.states,
      List.find?_append] at hs
    cases hf : (record.states.take (maxStates - 1)).find? fun s => s.keyId = id with
    | some found =>
      rw [hf] at hs
      exact hs
    | none =>
      rw [hf, Option.none_or] at hs
      have hkey := List.find?_some hs
      rcases h.2 state (List.mem_of_find?_eq_some hs) with he | ⟨earlier, hmem, he⟩
      · exact absurd ((of_decide_eq_true hkey).symm.trans he) hid
      · exact absurd (decide_eq_true (he.trans (of_decide_eq_true hkey)))
          (List.find?_eq_none.1 hf earlier hmem)

/-- What decryption gives is decided by the state in use. -/
theorem SenderKeyRecord.decrypt_ok_iff {P : GroupProvider Priv Pub B} {m : SenderKeyMessage B}
    {result : B × SenderKeyRecord Priv Pub B} :
    record.decrypt P m = .ok result ↔
      ∃ state state', record.stateFor m.keyId = some state ∧
        state.decrypt P m = .ok (result.1, state') ∧
        result.2 = record.setStateById m.keyId state' := by
  cases hs : record.stateFor m.keyId with
  | none =>
    refine ⟨fun h => ?_, fun ⟨_, _, h, _⟩ => nomatch h⟩
    rw [stateFor] at hs
    rw [decrypt, getSenderKeyStateById, hs] at h
    cases hempty : record.isEmpty with
    | true =>
      rw [hempty] at h
      cases h
    | false =>
      rw [hempty] at h
      cases h
  | some state =>
    rw [decrypt_of_state (getSenderKeyStateById_eq hs)]
    constructor
    · intro h
      cases hd : state.decrypt P m with
      | error e =>
        rw [hd] at h
        cases h
      | ok r =>
        rw [hd] at h
        cases h
        exact ⟨state, r.2, rfl, hd, rfl⟩
    · rintro ⟨_, state', h, hd, hr⟩
      cases h
      rw [hd]
      exact congrArg Except.ok (Prod.ext rfl hr.symm)

/-- **An iteration of a sender key that a record will not accept.** -/
def SenderKeyRecord.Spent (record : SenderKeyRecord Priv Pub B) (id : UInt32) (i : Nat) : Prop :=
  ∃ state, record.stateFor id = some state ∧ state.Spent i

/-- Absorbing a distribution message keeps it so. -/
theorem SenderKeyRecord.Absorbs.spent (h : record.Absorbs d) {i : Nat}
    (hi : record.Spent id i) : (record.process d).Spent id i := by
  obtain ⟨state, hs, hspent⟩ := hi
  obtain ⟨state', hs', hsame⟩ := h.stateFor hs
  refine ⟨state', hs', ?_⟩
  rw [← SenderKeyState.spent_receiving, hsame, SenderKeyState.spent_receiving]
  exact hspent

/-- **No decryptable message is lost.** -/
theorem SenderKeyRecord.Absorbs.decrypt {P : GroupProvider Priv Pub B} (h : record.Absorbs d)
    {m : SenderKeyMessage B} {result : B × SenderKeyRecord Priv Pub B}
    (hm : record.decrypt P m = .ok result) :
    ∃ record', (record.process d).decrypt P m = .ok (result.1, record') := by
  obtain ⟨state, state', hs, hdec, -⟩ := decrypt_ok_iff.1 hm
  obtain ⟨after, hafter, hsame⟩ := h.stateFor hs
  have hfst : (after.decrypt P m).map Prod.fst = .ok result.1 := by
    rw [← after.decrypt_receiving, hsame, state.decrypt_receiving, hdec]
    rfl
  cases hd : after.decrypt P m with
  | error e =>
    rw [hd] at hfst
    cases hfst
  | ok r =>
    rw [hd] at hfst
    injection hfst with hfst
    exact ⟨_, decrypt_ok_iff.2 ⟨after, r.2, hafter, hd.trans (by rw [← hfst]), rfl⟩⟩

end Absorb

section Decrypt

variable {P : GroupProvider Priv Pub B} {record : SenderKeyRecord Priv Pub B}
  {m : SenderKeyMessage B} {result : B × SenderKeyRecord Priv Pub B}

theorem SenderKeyRecord.not_spent_of_decrypt (h : record.decrypt P m = .ok result) :
    ¬ record.Spent m.keyId m.iteration.toNat := by
  rintro ⟨state, hs, hw, hspent⟩
  obtain ⟨_, state', hs', hdec, -⟩ := decrypt_ok_iff.1 h
  cases hs.symm.trans hs'
  obtain ⟨key, hkey⟩ := SenderKeyState.getSenderKey_of_decrypt hdec
  rw [getSenderKey_of_spent hw hspent] at hkey
  cases hkey

theorem SenderKeyRecord.storable_of_decrypt (hs : record.Storable P.toProvider)
    (h : record.decrypt P m = .ok result) : result.2.Storable P.toProvider := by
  obtain ⟨state, state', hstate, hdec, hset⟩ := decrypt_ok_iff.1 h
  obtain ⟨key, hkey⟩ := SenderKeyState.getSenderKey_of_decrypt hdec
  intro s hmem
  rw [hset] at hmem
  rcases mem_modifyFirst hmem with hmem | ⟨_, -, rfl⟩
  · exact hs s hmem
  · exact storable_of_getSenderKey (hs state (mem_of_stateFor hstate)) hkey

variable (hw : ∀ state ∈ record.states, state.WellFormed) (hi : m.iteration.toNat + 1 < 2 ^ 32)
  (h : record.decrypt P m = .ok result)
include hw hi h

theorem SenderKeyRecord.wellFormed_of_decrypt : ∀ state ∈ result.2.states, state.WellFormed := by
  obtain ⟨state, state', hs, hdec, hset⟩ := decrypt_ok_iff.1 h
  obtain ⟨key, hkey⟩ := SenderKeyState.getSenderKey_of_decrypt hdec
  obtain ⟨hw', -⟩ := window_of_getSenderKey (hw state (mem_of_stateFor hs)) hi hkey
  intro s hmem
  rw [hset] at hmem
  rcases mem_modifyFirst hmem with hmem | ⟨_, -, rfl⟩
  · exact hw s hmem
  · exact hw'

/-- **What is decrypted is spent, and what was spent stays so.** -/
theorem SenderKeyRecord.spent_decrypt {id : UInt32} {i : Nat}
    (hspent : (id = m.keyId ∧ i = m.iteration.toNat) ∨ record.Spent id i) :
    result.2.Spent id i := by
  obtain ⟨state, state', hs, hdec, hset⟩ := decrypt_ok_iff.1 h
  obtain ⟨key, hkey⟩ := SenderKeyState.getSenderKey_of_decrypt hdec
  have hwell := hw state (mem_of_stateFor hs)
  obtain ⟨hw', hreq⟩ := window_of_getSenderKey hwell hi hkey
  have hid : state'.keyId = m.keyId :=
    (frame_getSenderKey hwell.bounded hkey).1.trans (keyId_of_stateFor hs)
  have hself := stateFor_setStateById hs hid
  rw [hset]
  rcases hspent with ⟨rfl, rfl⟩ | ⟨other, hother, hspent⟩
  · exact ⟨state', hself, hw', Window.spent_of_request hreq⟩
  · by_cases he : id = m.keyId
    · subst he
      cases hs.symm.trans hother
      obtain ⟨_, hspent⟩ := hspent
      exact ⟨state', hself, hw', hspent.mono hreq⟩
    · exact ⟨other, (stateFor_setStateById_of_ne he hid).trans hother, hspent⟩

end Decrypt

/-! ## 4. Runs of a receiver -/

/-- A receiver's store and what it accepted, latest first. -/
structure GroupReceiver (Name B : Type) where
  world : GroupWorld Name B
  accepted : List (SenderKeyMessage B)

/-- What a receiver is handed. -/
inductive GroupReceiverCall (Pub B : Type) where
  | process (d : SenderKeyDistributionMessage Pub B)
  | decrypt (m : SenderKeyMessage B)

section Run

variable [DecidableEq Name] (P : GroupProvider Priv Pub B) (name : Name)

/-- **One call.** -/
def GroupReceiver.step (r : GroupReceiver Name B) : GroupReceiverCall Pub B → GroupReceiver Name B
  | .process d =>
    { r with world := (groupSessionBuilderProcessSession P.toProvider name d r.world).2 }
  | .decrypt m =>
    match groupCipherDecrypt P (GroupCipher.create name) m r.world with
    | (.error _, w) => { r with world := w }
    | (.ok _, w) => ⟨w, m :: r.accepted⟩

/-- A run is any sequence of calls. -/
def GroupReceiver.run (r : GroupReceiver Name B) (calls : List (GroupReceiverCall Pub B)) :
    GroupReceiver Name B :=
  calls.foldl (GroupReceiver.step P name) r

/-- **A harmless call**: the record absorbs the distribution message; the message's iteration is
not the last of its range. -/
def GroupReceiver.Harmless (r : GroupReceiver Name B) : GroupReceiverCall Pub B → Prop
  | .process d => ∀ record ∈ (r.world.record P.toProvider name :
      Except SgError (SenderKeyRecord Priv Pub B)).toOption, record.Absorbs d
  | .decrypt m => m.iteration.toNat + 1 < 2 ^ 32

/-- A run of harmless calls. -/
def GroupReceiver.HarmlessRun (r : GroupReceiver Name B) : List (GroupReceiverCall Pub B) → Prop
  | [] => True
  | call :: calls => r.Harmless P name call ∧ (r.step P name call).HarmlessRun calls

section Decide

variable [DecidableEq Priv] [DecidableEq Pub] [DecidableEq B]

instance decidableHarmless (r : GroupReceiver Name B) :
    ∀ call : GroupReceiverCall Pub B, Decidable (r.Harmless P name call)
  | .process d => inferInstanceAs (Decidable (∀ record ∈ (r.world.record P.toProvider name :
      Except SgError (SenderKeyRecord Priv Pub B)).toOption, record.Absorbs d))
  | .decrypt m => inferInstanceAs (Decidable (m.iteration.toNat + 1 < 2 ^ 32))

instance decidableHarmlessRun : ∀ (calls : List (GroupReceiverCall Pub B))
    (r : GroupReceiver Name B), Decidable (r.HarmlessRun P name calls)
  | [], _ => isTrue trivial
  | call :: calls, r =>
    have := decidableHarmlessRun calls (r.step P name call)
    inferInstanceAs (Decidable (r.Harmless P name call ∧
      (r.step P name call).HarmlessRun P name calls))

end Decide

/-- **The invariant**: the states are well formed, and what was accepted is spent in the state in
use for it. -/
structure GroupReceiver.Sound (r : GroupReceiver Name B) : Prop where
  wellFormed : ∀ record : SenderKeyRecord Priv Pub B,
    r.world.record P.toProvider name = .ok record → ∀ state ∈ record.states, state.WellFormed
  spent : ∀ record : SenderKeyRecord Priv Pub B,
    r.world.record P.toProvider name = .ok record → ∀ m ∈ r.accepted,
      record.Spent m.keyId m.iteration.toNat
  nodup : r.accepted.Nodup

end Run

section Sound

variable [DecidableEq Name] {P : GroupProvider Priv Pub B} {name : Name}
  {r : GroupReceiver Name B}

omit [DecidableEq Name] in
theorem GroupReceiver.absorbs_of_harmless {d : SenderKeyDistributionMessage Pub B}
    {record : SenderKeyRecord Priv Pub B} (hd : r.Harmless P name (.process d))
    (hr : r.world.record P.toProvider name = .ok record) : record.Absorbs d :=
  hd record (by rw [hr]; rfl)

/-- Processing keeps the invariant when the record absorbs the message. -/
theorem GroupReceiver.Sound.process (h : r.Sound P name) {d : SenderKeyDistributionMessage Pub B}
    (hd : r.Harmless P name (.process d)) : (r.step P name (.process d)).Sound P name := by
  cases hr : (r.world.record P.toProvider name : Except SgError (SenderKeyRecord Priv Pub B)) with
  | error e =>
    rw [GroupReceiver.step, processSession_of_error hr]
    exact h
  | ok record =>
    have habsorbs := GroupReceiver.absorbs_of_harmless hd hr
    have hrecord : (r.world.put P.toProvider name (record.process d)).record P.toProvider name =
        .ok (record.process d) :=
      record_put ((storable_of_record hr).addSenderKeyStateImpl _ _ _ _ _)
    rw [GroupReceiver.step, processSession_of_record hr]
    refine ⟨fun record' hr' state hstate => ?_, fun record' hr' m hm => ?_, h.nodup⟩
    · cases hrecord.symm.trans hr'
      rcases List.mem_cons.1 hstate with rfl | hstate
      · exact wellFormed_create ..
      · exact h.wellFormed record hr state (List.mem_of_mem_take hstate)
    · cases hrecord.symm.trans hr'
      exact habsorbs.spent (h.spent record hr m hm)

/-- Decrypting keeps it. -/
theorem GroupReceiver.Sound.decrypt (h : r.Sound P name) {m : SenderKeyMessage B}
    (hi : m.iteration.toNat + 1 < 2 ^ 32) : (r.step P name (.decrypt m)).Sound P name := by
  cases hr : (r.world.record P.toProvider name : Except SgError (SenderKeyRecord Priv Pub B)) with
  | error e =>
    rw [GroupReceiver.step, groupCipherDecrypt_of_error hr]
    exact h
  | ok record =>
    rw [GroupReceiver.step, groupCipherDecrypt_of_record hr]
    cases hd : record.decrypt P m with
    | error e => exact h
    | ok result =>
      have hw := h.wellFormed record hr
      have hw' := SenderKeyRecord.wellFormed_of_decrypt hw hi hd
      have hrecord : (r.world.put P.toProvider name result.2).record P.toProvider name =
          .ok result.2 :=
        record_put (SenderKeyRecord.storable_of_decrypt (storable_of_record hr) hd)
      dsimp only
      refine ⟨fun record' hr' => ?_, fun record' hr' a ha => ?_, List.nodup_cons.2 ⟨?_, h.nodup⟩⟩
      · cases hrecord.symm.trans hr'
        exact hw'
      · cases hrecord.symm.trans hr'
        refine SenderKeyRecord.spent_decrypt hw hi hd ?_
        rcases List.mem_cons.1 ha with rfl | ha
        · exact Or.inl ⟨rfl, rfl⟩
        · exact Or.inr (h.spent record hr a ha)
      · exact fun hm => SenderKeyRecord.not_spent_of_decrypt hd (h.spent record hr m hm)

theorem GroupReceiver.Sound.step (h : r.Sound P name) {call : GroupReceiverCall Pub B}
    (hcall : r.Harmless P name call) : (r.step P name call).Sound P name := by
  cases call with
  | process d => exact h.process hcall
  | decrypt m => exact h.decrypt hcall

/-- **Every harmless run keeps the invariant**, and every part of it is one. -/
theorem GroupReceiver.Sound.run (h : r.Sound P name) {calls : List (GroupReceiverCall Pub B)}
    (hcalls : r.HarmlessRun P name calls) : (r.run P name calls).Sound P name := by
  induction calls generalizing r with
  | nil => exact h
  | cons call calls ih => exact ih (h.step hcalls.1) hcalls.2

theorem GroupReceiver.HarmlessRun.of_append {calls₁ calls₂ : List (GroupReceiverCall Pub B)}
    (h : r.HarmlessRun P name (calls₁ ++ calls₂)) :
    (r.run P name calls₁).HarmlessRun P name calls₂ := by
  induction calls₁ generalizing r with
  | nil => exact h
  | cons call calls ih => exact ih h.2

end Sound

/-- The result of handing a receiver a message. -/
def GroupReceiver.delivery [DecidableEq Name] (P : GroupProvider Priv Pub B) (name : Name)
    (r : GroupReceiver Name B) (m : SenderKeyMessage B) : Except SgError B :=
  (groupCipherDecrypt P (GroupCipher.create name) m r.world).1

/-- Before anything was accepted, with a well-formed record. -/
structure GroupReceiver.Started (P : GroupProvider Priv Pub B) (name : Name)
    (r : GroupReceiver Name B) : Prop where
  wellFormed : ∀ record : SenderKeyRecord Priv Pub B,
    r.world.record P.toProvider name = .ok record → ∀ state ∈ record.states, state.WellFormed
  accepted : r.accepted = []

section Harmless

variable [DecidableEq Name] {P : GroupProvider Priv Pub B} {name : Name}
  {r : GroupReceiver Name B}

theorem GroupReceiver.delivery_ok_iff {record : SenderKeyRecord Priv Pub B}
    (hr : r.world.record P.toProvider name = .ok record) {m : SenderKeyMessage B} {p : B} :
    r.delivery P name m = .ok p ↔ ∃ record', record.decrypt P m = .ok (p, record') := by
  rw [GroupReceiver.delivery, groupCipherDecrypt_of_record hr]
  cases record.decrypt P m with
  | error e =>
    constructor
    · intro h
      cases h
    · rintro ⟨_, h⟩
      cases h
  | ok result =>
    constructor
    · intro h
      cases h
      exact ⟨result.2, rfl⟩
    · rintro ⟨record', h⟩
      cases h
      rfl

/-- Processing a message that the record absorbs keeps every message decryptable. -/
theorem GroupReceiver.delivery_of_absorbs {d : SenderKeyDistributionMessage Pub B}
    (hd : r.Harmless P name (.process d)) {m : SenderKeyMessage B} {p : B}
    (hm : r.delivery P name m = .ok p) :
    (r.step P name (.process d)).delivery P name m = .ok p := by
  cases hr : (r.world.record P.toProvider name : Except SgError (SenderKeyRecord Priv Pub B)) with
  | error e =>
    rw [GroupReceiver.step, processSession_of_error hr]
    exact hm
  | ok record =>
    have hrecord : (r.world.put P.toProvider name (record.process d)).record P.toProvider name =
        .ok (record.process d) :=
      record_put ((storable_of_record hr).addSenderKeyStateImpl _ _ _ _ _)
    rw [GroupReceiver.step, processSession_of_record hr]
    obtain ⟨record', hdec⟩ := (GroupReceiver.delivery_ok_iff hr).1 hm
    obtain ⟨record'', hdec'⟩ := (GroupReceiver.absorbs_of_harmless hd hr).decrypt hdec
    exact (GroupReceiver.delivery_ok_iff hrecord).2 ⟨record'', hdec'⟩

/-- **Receiving a distribution message again is harmless** in every run of harmless calls: no
message is accepted twice, and no distribution message makes a decryptable message
undecryptable. -/
theorem redistribution_harmless (hr : r.Started P name)
    {calls : List (GroupReceiverCall Pub B)} (hcalls : r.HarmlessRun P name calls) :
    (r.run P name calls).accepted.Nodup ∧
      ∀ before d after, calls = before ++ .process d :: after →
        ∀ m p, (r.run P name before).delivery P name m = .ok p →
          (r.run P name (before ++ [.process d])).delivery P name m = .ok p := by
  have hsound : r.Sound P name :=
    ⟨hr.wellFormed, by simp [hr.accepted], by simp [hr.accepted]⟩
  refine ⟨(hsound.run hcalls).nodup, ?_⟩
  rintro before d after rfl m p hm
  have hstep := hcalls.of_append.1
  have hrun : r.run P name (before ++ [.process d]) =
      (r.run P name before).step P name (.process d) := List.foldl_concat ..
  rw [hrun]
  exact GroupReceiver.delivery_of_absorbs hstep hm

end Harmless

/-! ## 5. What happens otherwise -/

/-- A sender that describes its key before each of its two messages. -/
def sampleSender : Group Nat Nat Nat Term :=
  sampleGroup.run symbolicGroupContext 0
    [.createSession, .encrypt (.text 0), .createSession, .encrypt (.text 1)]

theorem length_sampleSender :
    sampleSender.distributed.length = 2 ∧ sampleSender.sent.length = 2 := by
  decide +kernel

/-- The distribution messages. -/
def sampleDistribution (i : Fin 2) : SenderKeyDistributionMessage Nat Term :=
  sampleSender.distributed.get (i.cast length_sampleSender.1.symm)

/-- The messages. -/
def sampleGroupMessage (i : Fin 2) : SenderKeyMessage Term :=
  (sampleSender.sent.get (i.cast length_sampleSender.2.symm)).1

/-- A receiver with an empty store. -/
def sampleReceiver : GroupReceiver Nat Term := ⟨⟨fun _ => none, 0⟩, []⟩

theorem sampleReceiver_started : sampleReceiver.Started symbolicGroup 0 where
  wellFormed record hr state hstate := by
    cases hr
    cases hstate
  accepted := rfl

/-- The first distribution message arrives twice before anything is decrypted. -/
def sampleHarmlessCalls : List (GroupReceiverCall Nat Term) :=
  [.process (sampleDistribution 0), .process (sampleDistribution 0),
    .decrypt (sampleGroupMessage 1), .decrypt (sampleGroupMessage 0)]

theorem sampleHarmlessCalls_harmless :
    sampleReceiver.HarmlessRun symbolicGroup 0 sampleHarmlessCalls := by
  decide +kernel

/-- Nothing is accepted twice there, and the second message stays decryptable. -/
theorem redistribution_harmless_twice :
    (sampleReceiver.run symbolicGroup 0 sampleHarmlessCalls).accepted.Nodup ∧
      (sampleReceiver.run symbolicGroup 0 [.process (sampleDistribution 0),
        .process (sampleDistribution 0)]).delivery symbolicGroup 0 (sampleGroupMessage 1) =
          .ok (.text 1) := by
  have h := redistribution_harmless sampleReceiver_started sampleHarmlessCalls_harmless
  exact ⟨h.1, h.2 [.process (sampleDistribution 0)] (sampleDistribution 0)
    [.decrypt (sampleGroupMessage 1), .decrypt (sampleGroupMessage 0)] rfl
    (sampleGroupMessage 1) (.text 1) (by decide +kernel)⟩

/-- **A distribution message that arrives again** makes a message acceptable again; **a newer one**
makes a skipped message undecryptable. -/
theorem redistribution_accepts_and_loses :
    (sampleReceiver.run symbolicGroup 0 [.process (sampleDistribution 0),
        .decrypt (sampleGroupMessage 0), .process (sampleDistribution 0),
        .decrypt (sampleGroupMessage 0)]).accepted =
      [sampleGroupMessage 0, sampleGroupMessage 0] ∧
    (sampleReceiver.run symbolicGroup 0 [.process (sampleDistribution 0),
        .decrypt (sampleGroupMessage 1)]).delivery symbolicGroup 0 (sampleGroupMessage 0) =
      .ok (.text 0) ∧
    (sampleReceiver.run symbolicGroup 0 [.process (sampleDistribution 0),
        .decrypt (sampleGroupMessage 1), .process (sampleDistribution 1)]).delivery symbolicGroup 0
          (sampleGroupMessage 0) =
      .error .duplicateMessage := by
  decide +kernel

end SignalProtocol
