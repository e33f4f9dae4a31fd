/-
# One sender and its group

A sender and any number of receivers, each with a store of its own.  The network may reorder,
lose and duplicate: a `GroupAct` is a call of the sender, or the delivery to some receiver of
any distribution message or group message made so far, and a run is any list of them.  A
receiver joins once: of the distribution messages it processes the first it is handed.

`Group.Led` says that the sender has walked its chain once per message, and that what every
receiver holds is the window on that chain which its own history of accepted iterations makes
of the iteration it joined at.  Every act keeps it, and under it the outcome of a delivery is
that of `Window.request`.
-/
import SignalProtocol.GroupCalls
import SignalProtocol.GroupWindow

namespace SignalProtocol

variable {R Name Priv Pub B : Type}

/-! ## 1. Runs -/

/-- The stores, what the sender produced in order (messages with their plaintext), the iteration
of the distribution message that a receiver processed, and what each accepted, latest first. -/
structure Group (R Name Pub B : Type) where
  sender : GroupWorld Name B
  receiver : R → GroupWorld Name B
  sent : List (SenderKeyMessage B × B)
  distributed : List (SenderKeyDistributionMessage Pub B)
  joined : R → Option UInt32
  accepted : R → List (SenderKeyMessage B)

/-- A call of the sender, or a receiver is handed the distribution message or the message at
some position of what the sender produced. -/
inductive GroupAct (R B : Type) where
  | createSession
  | encrypt (plaintext : B)
  | process (r : R) (i : Nat)
  | deliver (r : R) (i : Nat)

section Run

variable [DecidableEq R] [DecidableEq Name] (ctx : GroupContext Priv Pub B) (name : Name)

/-- **One act.**  A receiver processes one distribution message: handing it a second one is no act
of these runs, since the call would put another state in front of the one in use (`Redistribution`
has those runs). -/
def Group.step (g : Group R Name Pub B) : GroupAct R B → Group R Name Pub B
  | .createSession =>
    match groupSessionBuilderCreateSession ctx name g.sender with
    | (.error _, w) => { g with sender := w }
    | (.ok d, w) => { g with sender := w, distributed := g.distributed ++ [d] }
  | .encrypt plaintext =>
    match groupCipherEncrypt ctx (GroupCipher.create name) plaintext g.sender with
    | (.error _, w) => { g with sender := w }
    | (.ok m, w) => { g with sender := w, sent := g.sent ++ [(m, plaintext)] }
  | .process r i =>
    match g.joined r, g.distributed[i]? with
    | none, some d =>
      match groupSessionBuilderProcessSession ctx.provider.toProvider name d (g.receiver r) with
      | (.error _, w) => { g with receiver := Function.update g.receiver r w }
      | (.ok _, w) =>
        { g with
          receiver := Function.update g.receiver r w
          joined := Function.update g.joined r (some d.iteration) }
    | _, _ => g
  | .deliver r i =>
    match g.sent[i]? with
    | none => g
    | some e =>
      match groupCipherDecrypt ctx.provider (GroupCipher.create name) e.1 (g.receiver r) with
      | (.error _, w) => { g with receiver := Function.update g.receiver r w }
      | (.ok _, w) =>
        { g with
          receiver := Function.update g.receiver r w
          accepted := Function.update g.accepted r (e.1 :: g.accepted r) }

/-- A run is any sequence of acts. -/
def Group.run (g : Group R Name Pub B) (acts : List (GroupAct R B)) : Group R Name Pub B :=
  acts.foldl (Group.step ctx name) g

end Run

/-- **The start**: no store holds a record under the sender's name, and nothing was exchanged. -/
structure Group.Started (name : Name) (g : Group R Name Pub B) : Prop where
  sender : g.sender.senderKeys name = none
  receiver : ∀ r, (g.receiver r).senderKeys name = none
  sent : g.sent = []
  distributed : g.distributed = []
  joined : ∀ r, g.joined r = none
  accepted : ∀ r, g.accepted r = []

/-- The iterations that a receiver accepted. -/
def Group.acceptedIterations (g : Group R Name Pub B) (r : R) : List Nat :=
  (g.accepted r).map fun m => m.iteration.toNat

/-- The iteration of a receiver's chain for a message, as its store holds it. -/
def Group.chainIteration (P : Provider Priv Pub B) (name : Name) (g : Group R Name Pub B) (r : R)
    (m : SenderKeyMessage B) : Except SgError UInt32 := do
  let record ← (g.receiver r).record P name
  let state ← record.getSenderKeyStateById m.keyId
  return state.chainKey.iteration

/-- **The conditions under which a delivery must succeed**, for a receiver that joined at
iteration `n`: the message is at most 2000 above the receiver's chain, and its skipped key was not
evicted. -/
def Group.Deliverable (P : Provider Priv Pub B) (name : Name) (g : Group R Name Pub B) (r : R)
    (n : UInt32) (m : SenderKeyMessage B) : Prop :=
  (∃ c, g.chainIteration P name r m = .ok c ∧ m.iteration.toNat ≤ c.toNat + 2000) ∧
    m.iteration.toNat ∉ Window.evictedFrom
      (Window.startingAt n.toNat : Window senderMaxMessageKeys) (g.acceptedIterations r)

/-- The result of delivering a message to a receiver. -/
def Group.delivery [DecidableEq Name] (P : GroupProvider Priv Pub B) (name : Name)
    (g : Group R Name Pub B) (r : R) (m : SenderKeyMessage B) : Except SgError B :=
  (groupCipherDecrypt P (GroupCipher.create name) m (g.receiver r)).1

/-! ## 2. The sender's chain -/

/-- What a sender key consists of. -/
structure SenderKey (Priv B : Type) where
  keyId : UInt32
  seed : B
  signingKey : Priv

/-- The random source gave the seed and the signing key. -/
def SenderKey.Drawn (ctx : GroupContext Priv Pub B) (k : SenderKey Priv B) : Prop :=
  (∃ n, ctx.rng.senderKey n = .ok k.seed) ∧ ∃ n, ctx.rng.privateKey n = .ok k.signingKey

/-- The chain key of an iteration. -/
def SenderKey.chainKey (P : Provider Priv Pub B) (k : SenderKey Priv B) (n : Nat) :
    SenderChainKey B :=
  SenderChainKey.after P ⟨0, k.seed⟩ n

/-- The sender's state at an iteration. -/
def SenderKey.state (P : Provider Priv Pub B) (k : SenderKey Priv B) (n : Nat) :
    SenderKeyState Priv Pub B :=
  .create k.keyId (k.chainKey P n) (P.publicKey k.signingKey) (some k.signingKey)

theorem SenderKey.state_succ (P : Provider Priv Pub B) (k : SenderKey Priv B) (n : Nat) :
    k.state P (n + 1) =
      { k.state P n with chainKey := (k.state P n).chainKey.createNext P } := by
  rw [SenderKey.state, SenderKey.chainKey, SenderChainKey.after_succ']
  rfl

theorem SenderKey.storable_state (P : Provider Priv Pub B) (k : SenderKey Priv B) (n : Nat) :
    SenderKeyRecord.Storable P ⟨[k.state P n]⟩ := by
  intro state hstate
  rw [List.mem_singleton.1 hstate]
  exact SenderKeyState.Storable.create ..

theorem SenderKey.toNat_iteration (P : Provider Priv Pub B) (k : SenderKey Priv B) {n : Nat}
    (h : n < 2 ^ 32) : (k.chainKey P n).iteration.toNat = n := by
  have hafter := toNat_iteration_after P (n := n)
    (show (⟨0, k.seed⟩ : SenderChainKey B).iteration.toNat + n < 2 ^ 32 from
      (Nat.zero_add n).symm ▸ h)
  exact hafter.trans (Nat.zero_add n)

/-! ## 3. One receiver -/

/-- **A receiver's state** for a sender key, after it joined at iteration `n` and accepted some
iterations. -/
structure SenderKey.ReceivedBy (P : GroupProvider Priv Pub B) (k : SenderKey Priv B) (n : Nat)
    (accepted : List Nat) (state : SenderKeyState Priv Pub B) : Prop where
  keyId : state.keyId = k.keyId
  signatureKey : state.signaturePublicKey = P.publicKey k.signingKey
  follows : state.Follows P.toProvider ⟨0, k.seed⟩
  wellFormed : state.WellFormed
  window : state.window wellFormed = Window.replayFrom (Window.startingAt n) accepted

section Receive

variable {P : GroupProvider Priv Pub B} {k : SenderKey Priv B} {n i : Nat} {accepted : List Nat}
  {state : SenderKeyState Priv Pub B} {m : SenderKeyMessage B} {plaintext : B}

/-- Joining. -/
theorem SenderKey.receivedBy_distribution (P : GroupProvider Priv Pub B) (k : SenderKey Priv B)
    (h : n < 2 ^ 32) :
    k.ReceivedBy P n []
      (.create k.keyId (k.chainKey P.toProvider n) (P.publicKey k.signingKey) none) where
  keyId := rfl
  signatureKey := rfl
  follows := by
    refine ⟨?_, fun key hkey => absurd hkey List.not_mem_nil⟩
    show k.chainKey P.toProvider n = _
    rw [SenderKeyState.create]
    dsimp only
    rw [k.toNat_iteration P.toProvider h]
    rfl
  wellFormed := wellFormed_create ..
  window := by
    refine Window.ext ?_ rfl
    exact k.toNat_iteration P.toProvider h

variable (hs : k.ReceivedBy P n accepted state)
  (hm : GroupSent P k.keyId (k.chainKey P.toProvider i) k.signingKey plaintext m)
include hs hm

/-- On an honest message the outcome is that of the request for its key. -/
theorem SenderKey.ReceivedBy.decrypt_of_error {e : SgError}
    (h : (groupCipherGetSenderKey P.toProvider m.iteration).onCopy state = .error e) :
    state.decrypt P m = .error e := by
  have hsig : m.verifySignature P state.signaturePublicKey = .ok () := by
    rw [hs.signatureKey]
    exact hm.verifySignature
  simp only [SenderKeyState.decrypt, hsig, h, bind, Except.bind]

variable (hi : i + 1 < 2 ^ 32)
include hi

omit hs in
theorem GroupSent.toNat_iteration : m.iteration.toNat = i := by
  rw [hm.iteration]
  exact k.toNat_iteration P.toProvider (by omega)

/-- **A granted request** returns the plaintext, and the iteration is accepted. -/
theorem SenderKey.ReceivedBy.decrypt_of_ok
    {result : SenderMessageKey B × SenderKeyState Priv Pub B}
    (h : (groupCipherGetSenderKey P.toProvider m.iteration).onCopy state = .ok result) :
    state.decrypt P m = .ok (plaintext, result.2) ∧ k.ReceivedBy P n (i :: accepted) result.2 := by
  have hiter : m.iteration.toNat = i := hm.toNat_iteration hi
  have hsig : m.verifySignature P state.signaturePublicKey = .ok () := by
    rw [hs.signatureKey]
    exact hm.verifySignature
  obtain ⟨hkey, hfollows⟩ :=
    hs.follows.getSenderKey hs.wellFormed.bounded (by rw [hiter]; exact hi) h
  have hdec : P.decrypt .cbcPkcs5 result.1.cipherKey result.1.iv
      m.ciphertext = .ok plaintext := by
    rw [hkey, hiter]
    exact P.decrypt_encrypt hm.encrypted
  obtain ⟨hid, hpub⟩ := frame_getSenderKey hs.wellFormed.bounded h
  obtain ⟨hw', hreq⟩ := window_of_getSenderKey hs.wellFormed (by rw [hiter]; exact hi) h
  refine ⟨by simp only [SenderKeyState.decrypt, hsig, h, hdec, bind, Except.bind]; rfl, ?_⟩
  refine ⟨hid.trans hs.keyId, hpub.trans hs.signatureKey, hfollows, hw', ?_⟩
  rw [Window.eq_accept_of_request hreq, hs.window, hiter]
  rfl

/-- What a success can only be. -/
theorem SenderKey.ReceivedBy.of_decrypt {r : B × SenderKeyState Priv Pub B}
    (h : state.decrypt P m = .ok r) :
    r.1 = plaintext ∧ k.ReceivedBy P n (i :: accepted) r.2 := by
  cases hg : (groupCipherGetSenderKey P.toProvider m.iteration).onCopy state with
  | error e =>
    rw [hs.decrypt_of_error hm hg] at h
    cases h
  | ok result =>
    obtain ⟨hok, hr⟩ := hs.decrypt_of_ok hm hi hg
    rw [hok] at h
    cases h
    exact ⟨rfl, hr⟩

/-- **A spent iteration is a duplicate.** -/
theorem SenderKey.ReceivedBy.decrypt_of_spent
    (h : (Window.replayFrom (Window.startingAt n : Window senderMaxMessageKeys) accepted).Spent i) :
    state.decrypt P m = .error .duplicateMessage := by
  refine hs.decrypt_of_error hm (getSenderKey_of_spent hs.wellFormed ?_)
  rw [hs.window, hm.toNat_iteration hi]
  exact h

/-- **A message that is due is accepted**: not accepted before, not too far ahead, and its
key not evicted. -/
theorem SenderKey.ReceivedBy.decrypt_of_due (hn : n ≤ i) (hnew : i ∉ accepted)
    (hnear : i ≤ state.chainKey.iteration.toNat + 2000)
    (hev : i ∉ Window.evictedFrom (Window.startingAt n : Window senderMaxMessageKeys) accepted) :
    ∃ state', state.decrypt P m = .ok (plaintext, state') := by
  have hreq : ∃ w', (state.window hs.wellFormed).request 2000 i = .ok w' := by
    by_cases hpassed : i < (state.window hs.wellFormed).next
    · refine ⟨_, Window.request_of_held ?_⟩
      rw [hs.window] at hpassed ⊢
      exact Window.held_of_passed_from hn hpassed hnew hev
    · refine ⟨_, Window.request_of_ahead (Nat.not_lt.1 hpassed) ?_⟩
      rw [SenderKeyState.window_next]
      omega
  obtain ⟨w', hreq⟩ := hreq
  rw [← hm.toNat_iteration hi] at hreq
  obtain ⟨result, hresult⟩ := getSenderKey_of_request (P := P.toProvider) hs.wellFormed hreq
  exact ⟨result.2, (hs.decrypt_of_ok hm hi hresult).1⟩

end Receive

/-! ## 4. The whole group -/

/-- **What a receiver's store holds**: nothing until it has joined, then one state. -/
def Group.ReceiverAt (P : GroupProvider Priv Pub B) (name : Name) (k : SenderKey Priv B)
    (g : Group R Name Pub B) (r : R) : Prop :=
  match g.joined r with
  | none => (g.receiver r).record P.toProvider name = .ok (⟨[]⟩ : SenderKeyRecord Priv Pub B) ∧
      g.accepted r = []
  | some n => ∃ state : SenderKeyState Priv Pub B,
      (g.receiver r).record P.toProvider name = .ok ⟨[state]⟩ ∧
        k.ReceivedBy P n.toNat (g.acceptedIterations r) state

/-- **The group once there is a sender key**: the sender's chain has been walked once per
message. -/
structure Group.Led (P : GroupProvider Priv Pub B) (name : Name) (k : SenderKey Priv B)
    (g : Group R Name Pub B) : Prop where
  record : g.sender.record P.toProvider name = .ok ⟨[k.state P.toProvider g.sent.length]⟩
  sent : ∀ j e, g.sent[j]? = some e →
    GroupSent P k.keyId (k.chainKey P.toProvider j) k.signingKey e.2 e.1
  distributed : ∀ d ∈ g.distributed, ∃ n ≤ g.sent.length,
    d = (k.state P.toProvider n).distribution
  receiver : ∀ r, g.ReceiverAt P name k r
  accepted : ∀ r, ∀ m ∈ g.accepted r, ∃ e ∈ g.sent, e.1 = m

/-- **The group before**: nothing was produced. -/
structure Group.Silent (P : GroupProvider Priv Pub B) (name : Name) (g : Group R Name Pub B) :
    Prop where
  record : g.sender.record P.toProvider name = .ok (⟨[]⟩ : SenderKeyRecord Priv Pub B)
  sent : g.sent = []
  distributed : g.distributed = []
  receiver : ∀ r, (g.receiver r).record P.toProvider name =
    .ok (⟨[]⟩ : SenderKeyRecord Priv Pub B)
  joined : ∀ r, g.joined r = none
  accepted : ∀ r, g.accepted r = []

section Led

variable {ctx : GroupContext Priv Pub B} {name : Name} {g : Group R Name Pub B}
  {k : SenderKey Priv B}

theorem Group.Started.silent (h : g.Started name) : g.Silent ctx.provider name where
  record := by rw [GroupWorld.record, h.sender]
  sent := h.sent
  distributed := h.distributed
  receiver r := by rw [GroupWorld.record, h.receiver]
  joined := h.joined
  accepted := h.accepted

theorem Group.receiverAt_of_joined {P : GroupProvider Priv Pub B} {r : R} {n : UInt32}
    (state : SenderKeyState Priv Pub B) (hj : g.joined r = some n)
    (hr : (g.receiver r).record P.toProvider name = .ok ⟨[state]⟩)
    (hs : k.ReceivedBy P n.toNat (g.acceptedIterations r) state) :
    g.ReceiverAt P name k r := by
  rw [Group.ReceiverAt, hj]
  exact ⟨state, hr, hs⟩

/-- A receiver about which nothing changed. -/
theorem Group.ReceiverAt.congr {P : GroupProvider Priv Pub B} {g' : Group R Name Pub B} {r : R}
    (h : g.ReceiverAt P name k r) (hreceiver : g'.receiver r = g.receiver r)
    (hjoined : g'.joined r = g.joined r) (haccepted : g'.accepted r = g.accepted r) :
    g'.ReceiverAt P name k r := by
  rw [Group.ReceiverAt, hjoined]
  rw [Group.ReceiverAt] at h
  rw [Group.acceptedIterations, hreceiver, haccepted]
  exact h

/-- The sender's call fails: the stores stay as they are. -/
theorem Group.Led.sender_unchanged (h : g.Led ctx.provider name k) {w : GroupWorld Name B}
    (hw : w.senderKeys = g.sender.senderKeys) :
    Group.Led ctx.provider name k { g with sender := w } where
  record := (record_congr hw).trans h.record
  sent := h.sent
  distributed := h.distributed
  receiver r := (h.receiver r).congr rfl rfl rfl
  accepted := h.accepted

variable [DecidableEq R] [DecidableEq Name]

theorem Group.Led.createSession (h : g.Led ctx.provider name k) :
    (g.step ctx name .createSession).Led ctx.provider name k := by
  simp only [Group.step, createSession_of_state h.record]
  refine ⟨h.record, h.sent, fun d hd => ?_, fun r => (h.receiver r).congr rfl rfl rfl,
    h.accepted⟩
  rcases List.mem_append.1 hd with hd | hd
  · exact h.distributed d hd
  · exact ⟨g.sent.length, Nat.le_refl _, List.mem_singleton.1 hd⟩

theorem Group.Led.encrypt (h : g.Led ctx.provider name k) (plaintext : B) :
    (g.step ctx name (.encrypt plaintext)).Led ctx.provider name k := by
  rw [Group.step]
  rcases hc : groupCipherEncrypt ctx (GroupCipher.create name) plaintext g.sender with ⟨r, w⟩
  rcases groupCipherEncrypt_cases h.record rfl hc with ⟨⟨e, rfl⟩, hw⟩ | ⟨m, rfl, hsent, hw⟩
  · exact h.sender_unchanged hw
  · have hlen : (g.sent ++ [(m, plaintext)]).length = g.sent.length + 1 := List.length_append
    refine ⟨?_, ?_, ?_, fun r => (h.receiver r).congr rfl rfl rfl, ?_⟩
    · refine (record_congr hw).trans ?_
      dsimp only
      rw [hlen, ← SenderKey.state_succ, record_put (k.storable_state _ _)]
    · intro j e he
      rw [List.getElem?_append] at he
      split at he
      · exact h.sent j e he
      · rename_i hj
        obtain ⟨hlt, he⟩ := List.getElem?_eq_some_iff.1 he
        have hlt' : j - g.sent.length < 1 := hlt
        obtain rfl : j = g.sent.length := by omega
        simp only [Nat.sub_self, List.getElem_cons_zero] at he
        rw [← he]
        exact hsent
    · intro d hd
      obtain ⟨n, hn, rfl⟩ := h.distributed d hd
      exact ⟨n, by dsimp only; omega, rfl⟩
    · intro r a ha
      obtain ⟨e, he, rfl⟩ := h.accepted r a ha
      exact ⟨e, List.mem_append_left _ he, rfl⟩

omit [DecidableEq Name] in
/-- The world of one receiver has changed. -/
theorem Group.ReceiverAt.update {P : GroupProvider Priv Pub B} {g' : Group R Name Pub B} {r : R}
    (h : ∀ x, g.ReceiverAt P name k x) (hr : g'.ReceiverAt P name k r)
    (hother : ∀ x, x ≠ r → g'.receiver x = g.receiver x ∧ g'.joined x = g.joined x ∧
      g'.accepted x = g.accepted x) (x : R) : g'.ReceiverAt P name k x := by
  by_cases hx : x = r
  · rw [hx]
    exact hr
  · obtain ⟨hreceiver, hjoined, haccepted⟩ := hother x hx
    exact (h x).congr hreceiver hjoined haccepted

theorem Group.Led.process (h : g.Led ctx.provider name k) (hcount : g.sent.length < 2 ^ 32)
    (r : R) (i : Nat) : (g.step ctx name (.process r i)).Led ctx.provider name k := by
  cases hj : g.joined r with
  | some n =>
    simp only [Group.step, hj]
    exact h
  | none =>
    cases hd : g.distributed[i]? with
    | none =>
      simp only [Group.step, hj, hd]
      exact h
    | some d =>
      have hr := h.receiver r
      rw [Group.ReceiverAt, hj] at hr
      obtain ⟨n, hn, rfl⟩ := h.distributed d (List.mem_of_getElem? hd)
      have hstate := k.receivedBy_distribution ctx.provider (show n < 2 ^ 32 by omega)
      simp only [Group.step, hj, hd, processSession_of_record hr.1]
      refine ⟨h.record, h.sent, h.distributed, ?_, h.accepted⟩
      refine Group.ReceiverAt.update h.receiver (r := r) ?_ fun x hx => ⟨?_, ?_, rfl⟩
      · refine Group.receiverAt_of_joined (.create k.keyId (k.chainKey ctx.provider.toProvider n)
          (ctx.provider.publicKey k.signingKey) none) (Function.update_self ..) ?_ ?_
        · dsimp only
          rw [Function.update_self]
          exact record_put ((storable_of_record hr.1).addSenderKeyStateImpl _ _ _ _ _)
        · rw [Group.acceptedIterations]
          dsimp only
          rw [hr.2]
          show k.ReceivedBy ctx.provider (k.chainKey ctx.provider.toProvider n).iteration.toNat [] _
          rw [k.toNat_iteration _ (by omega)]
          exact hstate
      · exact Function.update_of_ne hx ..
      · exact Function.update_of_ne hx ..

theorem Group.Led.deliver (h : g.Led ctx.provider name k) (hcount : g.sent.length < 2 ^ 32)
    (r : R) (i : Nat) : (g.step ctx name (.deliver r i)).Led ctx.provider name k := by
  cases he : g.sent[i]? with
  | none =>
    simp only [Group.step, he]
    exact h
  | some e =>
    have hm := h.sent i e he
    have hi : i < g.sent.length := (List.getElem?_eq_some_iff.1 he).1
    have hr := h.receiver r
    rw [Group.ReceiverAt] at hr
    rw [Group.step]
    simp only [he]
    cases hj : g.joined r with
    | none =>
      rw [hj] at hr
      rw [groupCipherDecrypt_of_record hr.1]
      simp only [SenderKeyRecord.decrypt_nil, Function.update_eq_self]
      exact h
    | some n =>
      rw [hj] at hr
      obtain ⟨state, hrecord, hs⟩ := hr
      rw [groupCipherDecrypt_of_record hrecord,
        SenderKeyRecord.decrypt_singleton (hs.keyId.trans hm.keyId.symm)]
      cases hd : state.decrypt ctx.provider e.1 with
      | error err =>
        simp only [Except.map, Function.update_eq_self]
        exact h
      | ok result =>
        obtain ⟨-, hs'⟩ := hs.of_decrypt hm (by omega) hd
        simp only [Except.map]
        refine ⟨h.record, h.sent, h.distributed, ?_, fun x m hx => ?_⟩
        · refine Group.ReceiverAt.update h.receiver (r := r) ?_ fun x hx => ⟨?_, rfl, ?_⟩
          · refine Group.receiverAt_of_joined result.2 hj ?_ ?_
            · dsimp only
              rw [Function.update_self]
              refine record_put fun state' hstate' => ?_
              rw [List.mem_singleton.1 hstate']
              exact hs'.follows.storable hs'.wellFormed
            · rw [Group.acceptedIterations]
              dsimp only
              rw [Function.update_self, List.map_cons, hm.toNat_iteration (by omega)]
              exact hs'
          · exact Function.update_of_ne hx ..
          · exact Function.update_of_ne hx ..
        · dsimp only at hx
          by_cases hxr : x = r
          · rw [hxr, Function.update_self] at hx
            rcases List.mem_cons.1 hx with rfl | hx
            · exact ⟨e, List.mem_of_getElem? he, rfl⟩
            · exact h.accepted r m hx
          · rw [Function.update_of_ne hxr] at hx
            exact h.accepted x m hx

/-- **Every act keeps the group on the sender's chain.** -/
theorem Group.Led.step (h : g.Led ctx.provider name k) (hcount : g.sent.length < 2 ^ 32)
    (act : GroupAct R B) : (g.step ctx name act).Led ctx.provider name k := by
  cases act with
  | createSession => exact h.createSession
  | encrypt plaintext => exact h.encrypt plaintext
  | process r i => exact h.process hcount r i
  | deliver r i => exact h.deliver hcount r i

/-- **The first act that has an effect** is the one that makes the sender key. -/
theorem Group.Silent.step (h : g.Silent ctx.provider name) (act : GroupAct R B) :
    (g.step ctx name act).Silent ctx.provider name ∨
      ∃ k : SenderKey Priv B, k.Drawn ctx ∧ (g.step ctx name act).Led ctx.provider name k := by
  cases act with
  | createSession =>
    rw [Group.step]
    rcases hc : groupSessionBuilderCreateSession ctx name g.sender with ⟨r, w⟩
    rcases createSession_of_empty h.record hc with
      ⟨⟨e, rfl⟩, hw⟩ | ⟨keyId, seed, signingKey, rfl, hw, hdrawn⟩
    · refine Or.inl ⟨?_, h.sent, h.distributed, h.receiver, h.joined, h.accepted⟩
      exact (record_congr hw).trans h.record
    · refine Or.inr ⟨⟨keyId, seed, signingKey⟩, hdrawn, ?_, ?_, ?_, fun r => ?_, fun r m hm => ?_⟩
      · refine (record_congr hw).trans ?_
        dsimp only
        rw [h.sent]
        exact record_put (SenderKey.storable_state _ ⟨keyId, seed, signingKey⟩ 0)
      · intro j e he
        rw [h.sent] at he
        cases he
      · intro d hd
        dsimp only at hd
        rw [h.distributed, List.nil_append] at hd
        exact ⟨0, Nat.zero_le _, List.mem_singleton.1 hd⟩
      · rw [Group.ReceiverAt]
        dsimp only
        rw [h.joined r]
        exact ⟨h.receiver r, h.accepted r⟩
      · dsimp only at hm
        rw [h.accepted r] at hm
        cases hm
  | encrypt plaintext =>
    rw [Group.step, groupCipherEncrypt_of_empty h.record]
    exact Or.inl h
  | process r i =>
    have hd : g.distributed[i]? = none := by
      rw [h.distributed]
      rfl
    simp only [Group.step, h.joined r, hd]
    exact Or.inl h
  | deliver r i =>
    have he : g.sent[i]? = none := by
      rw [h.sent]
      rfl
    simp only [Group.step, he]
    exact Or.inl h

/-- What was sent stays sent. -/
theorem Group.length_sent_step (ctx : GroupContext Priv Pub B) (name : Name)
    (g : Group R Name Pub B) (act : GroupAct R B) :
    g.sent.length ≤ (g.step ctx name act).sent.length := by
  cases act with
  | createSession =>
    rw [Group.step]
    split <;> exact Nat.le_refl _
  | encrypt plaintext =>
    rw [Group.step]
    split
    · exact Nat.le_refl _
    · exact (List.sublist_append_left ..).length_le
  | process r i =>
    rw [Group.step]
    split
    · split <;> exact Nat.le_refl _
    · exact Nat.le_refl _
  | deliver r i =>
    rw [Group.step]
    split
    · exact Nat.le_refl _
    · split <;> exact Nat.le_refl _

theorem Group.run_concat (g : Group R Name Pub B) (acts : List (GroupAct R B))
    (act : GroupAct R B) :
    g.run ctx name (acts ++ [act]) = (g.run ctx name acts).step ctx name act :=
  List.foldl_concat ..

/-- **After every run** the group is silent, or on the chain of one sender key, which was drawn
on the way. -/
theorem Group.Started.run_drawn (hg : g.Started name) (acts : List (GroupAct R B))
    (hcount : (g.run ctx name acts).sent.length < 2 ^ 32) :
    (g.run ctx name acts).Silent ctx.provider name ∨
      ∃ k : SenderKey Priv B, k.Drawn ctx ∧ (g.run ctx name acts).Led ctx.provider name k := by
  induction acts using List.reverseRecOn with
  | nil => exact Or.inl hg.silent
  | append_singleton acts act ih =>
    rw [Group.run_concat] at hcount ⊢
    have hlen := (Group.length_sent_step ctx name (g.run ctx name acts) act).trans_lt hcount
    rcases ih hlen with h | ⟨k, hk, h⟩
    · exact h.step act
    · exact Or.inr ⟨k, hk, h.step hlen act⟩

theorem Group.Started.run (hg : g.Started name) (acts : List (GroupAct R B))
    (hcount : (g.run ctx name acts).sent.length < 2 ^ 32) :
    (g.run ctx name acts).Silent ctx.provider name ∨
      ∃ k, (g.run ctx name acts).Led ctx.provider name k :=
  (hg.run_drawn acts hcount).imp_right fun ⟨k, _, h⟩ => ⟨k, h⟩

end Led

/-! ## 5. Any delivery order -/

section Delivery

variable {ctx : GroupContext Priv Pub B} {name : Name} {g : Group R Name Pub B}
  {k : SenderKey Priv B}

/-- The sender's messages carry the iterations in order. -/
theorem Group.Led.iteration {P : GroupProvider Priv Pub B} (h : g.Led P name k)
    (hcount : g.sent.length < 2 ^ 32) {j : Nat} {e : SenderKeyMessage B × B}
    (he : g.sent[j]? = some e) : e.1.iteration.toNat = j := by
  have hj : j < g.sent.length := (List.getElem?_eq_some_iff.1 he).1
  exact (h.sent j e he).toNat_iteration (by omega)

/-- A message is accepted iff its iteration is. -/
theorem Group.Led.mem_accepted_iff {P : GroupProvider Priv Pub B} (h : g.Led P name k)
    (hcount : g.sent.length < 2 ^ 32) {j : Nat} {e : SenderKeyMessage B × B}
    (he : g.sent[j]? = some e) (r : R) :
    e.1 ∈ g.accepted r ↔ j ∈ g.acceptedIterations r := by
  constructor
  · intro hm
    exact List.mem_map.2 ⟨e.1, hm, h.iteration hcount he⟩
  · intro hm
    obtain ⟨m, hm, hj⟩ := List.mem_map.1 hm
    obtain ⟨e', he', rfl⟩ := h.accepted r m hm
    obtain ⟨j', hj'⟩ := List.getElem?_of_mem he'
    rw [h.iteration hcount hj'] at hj
    rw [hj, he] at hj'
    cases hj'
    exact hm

variable [DecidableEq Name]

/-- The delivery to a receiver that joined is the decryption with its one state. -/
theorem Group.Led.delivery_eq {P : GroupProvider Priv Pub B} (h : g.Led P name k) {r : R}
    {n : UInt32} (hj : g.joined r = some n) {j : Nat} {e : SenderKeyMessage B × B}
    (he : g.sent[j]? = some e) :
    ∃ state, k.ReceivedBy P n.toNat (g.acceptedIterations r) state ∧
      g.chainIteration P.toProvider name r e.1 = .ok state.chainKey.iteration ∧
      ∀ x, state.decrypt P e.1 = x →
        g.delivery P name r e.1 = (x.mapError groupDecryptCode).map Prod.fst := by
  have hr := h.receiver r
  rw [Group.ReceiverAt, hj] at hr
  obtain ⟨state, hrecord, hs⟩ := hr
  have hid : state.keyId = e.1.keyId := hs.keyId.trans (h.sent j e he).keyId.symm
  refine ⟨state, hs, ?_, ?_⟩
  · have hget : SenderKeyRecord.getSenderKeyStateById ⟨[state]⟩ e.1.keyId = .ok state := by
      simp [SenderKeyRecord.getSenderKeyStateById, hid]
    simp only [Group.chainIteration, hrecord, hget, bind, Except.bind]
    rfl
  · rintro x rfl
    rw [Group.delivery, groupCipherDecrypt_of_record hrecord,
      SenderKeyRecord.decrypt_singleton hid]
    cases state.decrypt P e.1 with
    | error err => rfl
    | ok result => rfl

variable [DecidableEq R]

/-- **Group messaging under any delivery order.**  After every run, the sender's messages carry
the iterations 0, 1, 2, ...; and at a receiver that joined at iteration `n`, a message from before
is a duplicate, a message that was not accepted yet is accepted with its plaintext whenever it
is deliverable, and an accepted message is a duplicate. -/
theorem group_delivery_any_order (hg : g.Started name) (acts : List (GroupAct R B))
    (hcount : (g.run ctx name acts).sent.length < 2 ^ 32) :
    ((g.run ctx name acts).sent.map fun e => e.1.iteration.toNat) =
        List.range (g.run ctx name acts).sent.length ∧
      ∀ r n, (g.run ctx name acts).joined r = some n → ∀ e ∈ (g.run ctx name acts).sent,
        (e.1.iteration < n →
          (g.run ctx name acts).delivery ctx.provider name r e.1 = .error .duplicateMessage) ∧
        (n ≤ e.1.iteration → e.1 ∉ (g.run ctx name acts).accepted r →
          (g.run ctx name acts).Deliverable ctx.provider.toProvider name r n e.1 →
          (g.run ctx name acts).delivery ctx.provider name r e.1 = .ok e.2) ∧
        (e.1 ∈ (g.run ctx name acts).accepted r →
          (g.run ctx name acts).delivery ctx.provider name r e.1 = .error .duplicateMessage) := by
  rcases hg.run acts hcount with h | ⟨k, h⟩
  · refine ⟨by rw [h.sent]; rfl, fun r n hn => ?_⟩
    rw [h.joined r] at hn
    cases hn
  · generalize g.run ctx name acts = g' at h hcount ⊢
    refine ⟨?_, fun r n hn e he => ?_⟩
    · refine List.ext_getElem (by rw [List.length_map, List.length_range]) fun j hj _ => ?_
      have hj' : j < g'.sent.length := by rwa [List.length_map] at hj
      rw [List.getElem_map, List.getElem_range]
      exact h.iteration hcount (List.getElem?_eq_getElem hj')
    · obtain ⟨j, hj⟩ := List.getElem?_of_mem he
      have hlt : j < g'.sent.length := (List.getElem?_eq_some_iff.1 hj).1
      have hiter := h.iteration hcount hj
      have hm := h.sent j e hj
      obtain ⟨state, hs, hchain, heq⟩ := h.delivery_eq hn hj
      have hspent : (Window.replayFrom (Window.startingAt n.toNat : Window senderMaxMessageKeys)
          (g'.acceptedIterations r)).Spent j →
          g'.delivery ctx.provider name r e.1 = .error .duplicateMessage :=
        fun hj => heq _ (hs.decrypt_of_spent hm (by omega) hj)
      refine ⟨fun hbelow => ?_, fun hfrom hnew hdel => ?_, fun hacc => ?_⟩
      · refine hspent (Window.Spent.replayFrom ⟨?_, List.not_mem_nil⟩ _)
        rw [← hiter]
        exact UInt32.lt_iff_toNat_lt.1 hbelow
      · obtain ⟨⟨c, hc, hnear⟩, hev⟩ := hdel
        rw [hchain] at hc
        cases hc
        rw [hiter] at hnear hev
        obtain ⟨state', hok⟩ := hs.decrypt_of_due hm (by omega)
          (hiter ▸ UInt32.le_iff_toNat_le.1 hfrom)
          (fun hj' => hnew ((h.mem_accepted_iff hcount hj r).2 hj')) hnear hev
        exact heq _ hok
      · exact hspent (Window.spent_of_mem_replayFrom ((h.mem_accepted_iff hcount hj r).1 hacc))

end Delivery

/-- A sender and its receivers before anything was exchanged. -/
def sampleGroup : Group Nat Nat Nat Term where
  sender := ⟨fun _ => none, 0⟩
  receiver _ := ⟨fun _ => none, 0⟩
  sent := []
  distributed := []
  joined _ := none
  accepted _ := []

/-- A receiver joins after the first message, and gets the third before the second. -/
def sampleGroupActs : List (GroupAct Nat Term) :=
  [.createSession, .encrypt (.text 0), .createSession, .process 7 1, .encrypt (.text 1),
    .encrypt (.text 2), .deliver 7 2]

/-- The group after that. -/
def sampleGroupEnd : Group Nat Nat Nat Term :=
  sampleGroup.run symbolicGroupContext 0 sampleGroupActs

theorem sampleGroupEnd_length : sampleGroupEnd.sent.length = 3 := by
  decide +kernel

/-- What the sender produced, with the plaintext. -/
def sampleGroupSent (i : Fin 3) : SenderKeyMessage Term × Term :=
  sampleGroupEnd.sent.get (i.cast sampleGroupEnd_length.symm)

theorem sampleGroup_started : sampleGroup.Started 0 :=
  ⟨rfl, fun _ => rfl, rfl, rfl, fun _ => rfl, fun _ => rfl⟩

theorem sampleGroup_deliverable :
    sampleGroupEnd.Deliverable symbolicGroup.toProvider 0 7 1 (sampleGroupSent 1).1 :=
  ⟨⟨3, by decide +kernel, by decide +kernel⟩, by decide +kernel⟩

/-- The first message is from before the receiver joined, the second arrives late, and the third
arrives again. -/
theorem group_delivery_any_order_late_join :
    sampleGroupEnd.delivery symbolicGroup 0 7 (sampleGroupSent 0).1 = .error .duplicateMessage ∧
      sampleGroupEnd.delivery symbolicGroup 0 7 (sampleGroupSent 1).1 = .ok (.text 1) ∧
      sampleGroupEnd.delivery symbolicGroup 0 7 (sampleGroupSent 2).1 =
        .error .duplicateMessage := by
  have hall := (group_delivery_any_order sampleGroup_started
    sampleGroupActs (show sampleGroupEnd.sent.length < 2 ^ 32 by decide +kernel)).2 7 1
    (show sampleGroupEnd.joined 7 = some 1 by decide +kernel)
  refine ⟨(hall (sampleGroupSent 0) (List.get_mem ..)).1 (by decide +kernel), ?_,
    (hall (sampleGroupSent 2) (List.get_mem ..)).2.2 (by decide +kernel)⟩
  have hlate := (hall (sampleGroupSent 1) (List.get_mem ..)).2.1 (by decide +kernel)
    (by decide +kernel) sampleGroup_deliverable
  exact hlate

end SignalProtocol
