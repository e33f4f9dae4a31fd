/-
# Group chains move forward, up to the top

A member that processes a distribution message follows the sender's chain from the iteration that
the message names, which may be any 32-bit number.  Each message that it accepts takes the chain
past its iteration: `group_cipher_get_sender_key` walks to the iteration and then once more.  So
the chain never goes back and no iteration is accepted twice (`ForwardOnly`).

The one step that breaks this is the last one.  After iteration `2 ^ 32 - 1` the chain is at
iteration 0, since `sender_chain_key_create_next` adds one modulo `2 ^ 32`
(`GroupWorld.Follows.accept_last`).  `ReachesLast` says of a store and a message that they make
this step, and `BelowLast` that a run never does.  Nothing else breaks the order
(`GroupWorld.Follows.forwardOnly`).
-/
import SignalProtocol.GroupDelivery

namespace SignalProtocol

variable {Name Priv Pub B : Type}

/-! ## 1. Runs -/

/-- The iteration of the chain with a key id, as the store holds it. -/
def GroupWorld.chainIteration (P : Provider Priv Pub B) (name : Name) (keyId : UInt32)
    (w : GroupWorld Name B) : Except SgError UInt32 := do
  let record ← w.record P name
  let state ← record.getSenderKeyStateById keyId
  return state.chainKey.iteration

section Run

variable [DecidableEq Name] (P : GroupProvider Priv Pub B) (name : Name)

/-- **Every accepted message takes the chain forward**: its iteration is new, and afterwards the
chain iteration is at least as large as before and larger than all accepted iterations.
`accepted` are the iterations that were accepted before the messages. -/
def ForwardOnly (keyId : UInt32) (accepted : List UInt32) :
    List (SenderKeyMessage B) → GroupWorld Name B → Prop
  | [], _ => True
  | m :: messages, w =>
    match groupCipherDecrypt P (GroupCipher.create name) m w with
    | (.error _, w') => ForwardOnly keyId accepted messages w'
    | (.ok _, w') =>
      m.iteration ∉ accepted ∧
        (∃ before after, w.chainIteration P.toProvider name keyId = .ok before ∧
          w'.chainIteration P.toProvider name keyId = .ok after ∧ before ≤ after ∧
          ∀ i ∈ m.iteration :: accepted, i < after) ∧
        ForwardOnly keyId (m.iteration :: accepted) messages w'

/-- The messages that are accepted, in order. -/
def acceptedMessages : List (SenderKeyMessage B) → GroupWorld Name B → List (SenderKeyMessage B)
  | [], _ => []
  | m :: messages, w =>
    match groupCipherDecrypt P (GroupCipher.create name) m w with
    | (.error _, w') => acceptedMessages messages w'
    | (.ok _, w') => m :: acceptedMessages messages w'

end Run

section Condition

variable (P : GroupProvider Priv Pub B) (name : Name)

/-- The message has the last iteration, and a state can decrypt it: it is signed with the sender's
key, at most 2000 ahead of the chain, and its ciphertext is one under the key of the iteration. -/
def SenderKeyState.ReachesLast (state : SenderKeyState Priv Pub B) (m : SenderKeyMessage B) :
    Prop :=
  m.iteration = 0xFFFFFFFF ∧ m.verifySignature P state.signaturePublicKey = .ok () ∧
    ∃ n ≤ 2000, state.chainKey.iteration.toNat + n = 0xFFFFFFFF ∧
      ∃ p, P.decrypt .cbcPkcs5
        ((state.chainKey.after P.toProvider n).createMessageKey P.toProvider).cipherKey
        ((state.chainKey.after P.toProvider n).createMessageKey P.toProvider).iv
        m.ciphertext = .ok p

/-- **The step that breaks the order**: the store has a state for the message that reaches the last
iteration with it. -/
def GroupWorld.ReachesLast (w : GroupWorld Name B) (m : SenderKeyMessage B) : Prop :=
  ∃ record state, w.record P.toProvider name = .ok record ∧
    record.getSenderKeyStateById m.keyId = .ok state ∧ state.ReachesLast P m

variable [DecidableEq Name]

/-- No step of the run is that step. -/
def BelowLast : List (SenderKeyMessage B) → GroupWorld Name B → Prop
  | [], _ => True
  | m :: messages, w =>
    ¬ w.ReachesLast P name m ∧
      BelowLast messages (groupCipherDecrypt P (GroupCipher.create name) m w).2

variable {P name}

/-- In particular, no message has the last iteration. -/
theorem belowLast_of_iteration_ne {messages : List (SenderKeyMessage B)}
    (h : ∀ m ∈ messages, m.iteration ≠ 0xFFFFFFFF) (w : GroupWorld Name B) :
    BelowLast P name messages w := by
  induction messages generalizing w with
  | nil => trivial
  | cons m messages ih =>
    refine ⟨fun hreaches => ?_, ih (fun m' hm' => h m' (List.mem_cons_of_mem _ hm')) _⟩
    obtain ⟨_, _, -, -, hlast, -⟩ := hreaches
    exact h m List.mem_cons_self hlast

end Condition

/-! ## 2. One message -/

section Last

variable {state : SenderKeyState Priv Pub B}

theorem toNat_lastIteration : (0xFFFFFFFF : UInt32).toNat = 0xFFFFFFFF := rfl

/-- **A request for the last iteration**: the chain is close enough or it is not.  Nothing has been
skipped there, since no chain is above it. -/
theorem getSenderKey_last (P : Provider Priv Pub B)
    (hlen : state.messageKeys.length ≤ senderMaxMessageKeys) :
    (∃ n ≤ 2000, state.chainKey.iteration.toNat + n = 0xFFFFFFFF ∧
      (groupCipherGetSenderKey P 0xFFFFFFFF).onCopy state =
        .ok ((state.chainKey.after P n).createMessageKey P, state.ahead P n)) ∨
    (state.chainKey.iteration.toNat + 2000 < 0xFFFFFFFF ∧
      (groupCipherGetSenderKey P 0xFFFFFFFF).onCopy state = .error .invalidMessage) := by
  have htop := state.chainKey.iteration.toNat_lt
  have habove : ¬ (0xFFFFFFFF : UInt32) < state.chainKey.iteration := by
    rw [UInt32.lt_iff_toNat_lt, toNat_lastIteration]
    omega
  have hcases := getSenderKey_cases P hlen 0xFFFFFFFF
  generalize (groupCipherGetSenderKey P 0xFFFFFFFF).onCopy state = result at hcases
  cases hcases with
  | skipped hlt => exact absurd hlt habove
  | spent hlt => exact absurd hlt habove
  | tooFar hle => exact Or.inr ⟨hle, rfl⟩
  | next hn hle => exact Or.inl ⟨_, hle, hn, rfl⟩

/-- **The state reaches the last iteration with a message exactly if it decrypts it** and this is
its iteration. -/
theorem SenderKeyState.reachesLast_iff {P : GroupProvider Priv Pub B} {m : SenderKeyMessage B}
    (hlen : state.messageKeys.length ≤ senderMaxMessageKeys) :
    state.ReachesLast P m ↔ m.iteration = 0xFFFFFFFF ∧ ∃ r, state.decrypt P m = .ok r := by
  constructor
  · rintro ⟨hlast, hsig, n, hle, hn, p, hdec⟩
    refine ⟨hlast, (p, state.ahead P.toProvider n), ?_⟩
    rcases getSenderKey_last P.toProvider hlen with ⟨n', -, hn', hkey⟩ | ⟨hfar, -⟩
    · obtain rfl : n' = n := by omega
      simp only [SenderKeyState.decrypt, hsig, hlast, hkey, hdec, bind, Except.bind]
      rfl
    · omega
  · rintro ⟨hlast, r, hr⟩
    obtain ⟨_, hsig, hr⟩ := Op.exists_of_bind_eq_ok hr
    obtain ⟨result, hrequest, hr⟩ := Op.exists_of_bind_eq_ok hr
    obtain ⟨p, hdec, -⟩ := Op.exists_of_bind_eq_ok hr
    rw [hlast] at hrequest
    rcases getSenderKey_last P.toProvider hlen with ⟨n, hle, hn, hkey⟩ | ⟨-, hfar⟩
    · obtain rfl := Except.ok.inj (hkey.symm.trans hrequest)
      exact ⟨hlast, hsig, n, hle, hn, p, hdec⟩
    · cases hfar.symm.trans hrequest

end Last

section Message

variable {P : GroupProvider Priv Pub B} {name : Name} {w w' : GroupWorld Name B}
  {state : SenderKeyState Priv Pub B} {m : SenderKeyMessage B} {p : B}

/-- **A member that has processed one distribution message**: its record has one state, whose
window has left behind all accepted iterations. -/
structure GroupWorld.Follows (P : GroupProvider Priv Pub B) (name : Name) (keyId : UInt32)
    (accepted : List UInt32) (state : SenderKeyState Priv Pub B) (w : GroupWorld Name B) :
    Prop where
  record : w.record P.toProvider name = .ok ⟨[state]⟩
  keyId : state.keyId = keyId
  wellFormed : state.WellFormed
  spent : ∀ i ∈ accepted, (state.window wellFormed).Spent i.toNat

theorem chainIteration_of_record (hr : w.record P.toProvider name = .ok ⟨[state]⟩) :
    w.chainIteration P.toProvider name state.keyId = .ok state.chainKey.iteration := by
  have hget : SenderKeyRecord.getSenderKeyStateById ⟨[state]⟩ state.keyId = .ok state := by
    simp [SenderKeyRecord.getSenderKeyStateById]
  rw [GroupWorld.chainIteration, hr]
  exact congrArg (Except.map fun s : SenderKeyState Priv Pub B => s.chainKey.iteration) hget

theorem GroupWorld.Follows.chainIteration {keyId : UInt32} {accepted : List UInt32}
    (h : w.Follows P name keyId accepted state) :
    w.chainIteration P.toProvider name keyId = .ok state.chainKey.iteration :=
  h.keyId ▸ chainIteration_of_record h.record

variable [DecidableEq Name] {keyId : UInt32} {accepted : List UInt32}

/-- A message that is refused leaves the store alone. -/
theorem GroupWorld.Follows.refuse {e : SgError} (h : w.Follows P name keyId accepted state)
    (hd : groupCipherDecrypt P (GroupCipher.create name) m w = (.error e, w')) : w' = w := by
  rw [groupCipherDecrypt_of_record h.record] at hd
  split at hd
  · cases hd
  · exact (Prod.mk.inj hd).2.symm

/-- **An accepted message is decrypted by the state**, and what is left of the state is stored. -/
theorem GroupWorld.Follows.decrypt (h : w.Follows P name keyId accepted state)
    (hd : groupCipherDecrypt P (GroupCipher.create name) m w = (.ok p, w')) :
    ∃ state', state.keyId = m.keyId ∧ state.decrypt P m = .ok (p, state') ∧
      w' = w.put P.toProvider name ⟨[state']⟩ := by
  have hkey : state.keyId = m.keyId := by
    by_contra hne
    have hget : SenderKeyRecord.getSenderKeyStateById ⟨[state]⟩ m.keyId = .error .invalidKeyId := by
      simp [SenderKeyRecord.getSenderKeyStateById, hne]
    rw [groupCipherDecrypt_of_record h.record, SenderKeyRecord.decrypt, hget] at hd
    cases hd
  rw [groupCipherDecrypt_of_record h.record, SenderKeyRecord.decrypt_singleton hkey] at hd
  cases hs : state.decrypt P m with
  | error e =>
    rw [hs] at hd
    cases hd
  | ok result =>
    rw [hs] at hd
    cases hd
    exact ⟨result.2, hkey, rfl, rfl⟩

/-- Its key is that of its iteration. -/
theorem GroupWorld.Follows.getSenderKey (h : w.Follows P name keyId accepted state)
    (hd : groupCipherDecrypt P (GroupCipher.create name) m w = (.ok p, w')) :
    ∃ key state',
      (groupCipherGetSenderKey P.toProvider m.iteration).onCopy state = .ok (key, state') ∧
      state'.keyId = keyId ∧ w'.record P.toProvider name = .ok ⟨[state']⟩ := by
  obtain ⟨state', -, hs, rfl⟩ := h.decrypt hd
  obtain ⟨key, hrequest⟩ := SenderKeyState.getSenderKey_of_decrypt hs
  have hstorable : state.Storable P.toProvider :=
    storable_of_record h.record state List.mem_cons_self
  refine ⟨key, state', hrequest, ?_, record_put fun s hmem => ?_⟩
  · exact (frame_getSenderKey h.wellFormed.bounded hrequest).1.trans h.keyId
  · rw [List.mem_singleton.1 hmem]
    exact storable_of_getSenderKey hstorable hrequest

/-- **Below the top an accepted message takes the chain forward.** -/
theorem GroupWorld.Follows.accept (h : w.Follows P name keyId accepted state)
    (hd : groupCipherDecrypt P (GroupCipher.create name) m w = (.ok p, w'))
    (htop : m.iteration ≠ 0xFFFFFFFF) :
    m.iteration ∉ accepted ∧ ∃ state', w'.Follows P name keyId (m.iteration :: accepted) state' ∧
      state.chainKey.iteration ≤ state'.chainKey.iteration := by
  obtain ⟨key, state', hrequest, hid, hrecord⟩ := h.getSenderKey hd
  have hnext : m.iteration.toNat + 1 < 2 ^ 32 := by
    have hlt := m.iteration.toNat_lt
    have hne : m.iteration.toNat ≠ 4294967295 := fun heq => htop (UInt32.toNat_inj.1 heq)
    omega
  obtain ⟨hwell, hwindow⟩ := window_of_getSenderKey h.wellFormed hnext hrequest
  refine ⟨fun hmem => ?_, state', ⟨hrecord, hid, hwell, fun i hi => ?_⟩, ?_⟩
  · rw [(h.spent _ hmem).request] at hwindow
    cases hwindow
  · rcases List.mem_cons.1 hi with rfl | hi
    · exact Window.spent_of_request hwindow
    · exact (h.spent i hi).mono hwindow
  · exact UInt32.le_iff_toNat_le.2 (Window.next_le_of_request hwindow)

/-- **At the top it takes the chain back to the start**, from wherever the chain was. -/
theorem GroupWorld.Follows.accept_last (h : w.Follows P name keyId accepted state)
    (hd : groupCipherDecrypt P (GroupCipher.create name) m w = (.ok p, w'))
    (hlast : m.iteration = 0xFFFFFFFF) : w'.chainIteration P.toProvider name keyId = .ok 0 := by
  obtain ⟨key, state', hrequest, rfl, hrecord⟩ := h.getSenderKey hd
  rw [chainIteration_of_record hrecord]
  rw [hlast] at hrequest
  rcases getSenderKey_last P.toProvider h.wellFormed.bounded with ⟨n, -, hn, hkey⟩ | ⟨-, hfar⟩
  · cases hkey.symm.trans hrequest
    have hafter : (state.chainKey.after P.toProvider n).iteration = 0xFFFFFFFF := by
      rw [← UInt32.toNat_inj, toNat_iteration_after P.toProvider (by omega), hn,
        toNat_lastIteration]
    rw [SenderKeyState.chainKey_ahead, SenderChainKey.createNext, hafter]
    rfl
  · cases hfar.symm.trans hrequest

/-- **The step that breaks the order is the one that accepts the last iteration.** -/
theorem GroupWorld.Follows.reachesLast_iff (h : w.Follows P name keyId accepted state) :
    w.ReachesLast P name m ↔ m.iteration = 0xFFFFFFFF ∧
      ∃ p w', groupCipherDecrypt P (GroupCipher.create name) m w = (.ok p, w') := by
  constructor
  · rintro ⟨record, found, hrecord, hget, hreaches⟩
    obtain rfl := Except.ok.inj (h.record.symm.trans hrecord)
    obtain ⟨hkey, rfl⟩ : found.keyId = m.keyId ∧ found = state := by
      obtain ⟨i, hi, hid, -⟩ := SenderKeyRecord.getSenderKeyStateById_ok_iff.1 hget
      exact ⟨hid, List.mem_singleton.1 (List.mem_of_getElem? hi)⟩
    obtain ⟨hlast, r, hr⟩ := (SenderKeyState.reachesLast_iff h.wellFormed.bounded).1 hreaches
    refine ⟨hlast, r.1, w.put P.toProvider name ⟨[r.2]⟩, ?_⟩
    rw [groupCipherDecrypt_of_record h.record, SenderKeyRecord.decrypt_singleton hkey, hr]
    rfl
  · rintro ⟨hlast, p, w', hd⟩
    obtain ⟨state', hkey, hs, -⟩ := h.decrypt hd
    refine ⟨_, state, h.record, ?_,
      (SenderKeyState.reachesLast_iff h.wellFormed.bounded).2 ⟨hlast, _, hs⟩⟩
    simp [SenderKeyRecord.getSenderKeyStateById, hkey]

end Message

/-! ## 3. Whole runs -/

section Forward

variable [DecidableEq Name] {P : GroupProvider Priv Pub B} {name : Name}
  {w : GroupWorld Name B}

/-- An empty record gets the chain of the distribution message. -/
theorem follows_of_process (hr : w.record P.toProvider name = .ok ⟨[]⟩)
    (d : SenderKeyDistributionMessage Pub B) :
    ∃ w₁, groupSessionBuilderProcessSession P.toProvider name d w = (.ok (), w₁) ∧
      w₁.Follows P name d.id []
        (SenderKeyState.create d.id ⟨d.iteration, d.chainKey⟩ d.signatureKey none) :=
  ⟨_, processSession_of_record hr d,
    record_put ((storable_of_record hr).addSenderKeyStateImpl d.id d.iteration d.chainKey
      d.signatureKey none), rfl, wellFormed_create ..,
    fun _ hi => absurd hi List.not_mem_nil⟩

/-- **A run that does not reach the last iteration** only goes forward. -/
theorem GroupWorld.Follows.forwardOnly {keyId : UInt32} {messages : List (SenderKeyMessage B)} :
    ∀ {accepted : List UInt32} {state : SenderKeyState Priv Pub B} {w : GroupWorld Name B},
      w.Follows P name keyId accepted state → BelowLast P name messages w →
      ForwardOnly P name keyId accepted messages w := by
  induction messages with
  | nil => exact fun _ _ => trivial
  | cons m messages ih =>
    intro accepted state w h hbelow
    obtain ⟨hreaches, hrest⟩ := hbelow
    rw [ForwardOnly]
    rcases hd : groupCipherDecrypt P (GroupCipher.create name) m w with ⟨_ | p, w'⟩
    · rw [hd] at hrest
      obtain rfl := h.refuse hd
      exact ih h hrest
    · rw [hd] at hrest
      obtain ⟨hnew, state', h', hle⟩ :=
        h.accept hd fun hlast => hreaches (h.reachesLast_iff.2 ⟨hlast, p, w', hd⟩)
      refine ⟨hnew, ⟨_, _, h.chainIteration, h'.chainIteration, hle, fun i hi => ?_⟩, ih h' hrest⟩
      exact UInt32.lt_iff_toNat_lt.2 (h'.spent i hi).1

/-- No chain is above the last iteration, so it is not accepted. -/
theorem ForwardOnly.iteration_ne {keyId : UInt32} {accepted : List UInt32}
    {m : SenderKeyMessage B} {messages : List (SenderKeyMessage B)} {w' : GroupWorld Name B} {p : B}
    (h : ForwardOnly P name keyId accepted (m :: messages) w)
    (hd : groupCipherDecrypt P (GroupCipher.create name) m w = (.ok p, w')) :
    m.iteration ≠ 0xFFFFFFFF := by
  rw [ForwardOnly, hd] at h
  obtain ⟨-, ⟨_, after, -, -, -, habove⟩, -⟩ := h
  intro hlast
  have hlt := UInt32.lt_iff_toNat_lt.1 (habove m.iteration List.mem_cons_self)
  rw [hlast, toNat_lastIteration] at hlt
  exact absurd after.toNat_lt (Nat.not_lt.2 hlt)

/-- **A run that only goes forward** does not reach it. -/
theorem GroupWorld.Follows.belowLast {keyId : UInt32} {messages : List (SenderKeyMessage B)} :
    ∀ {accepted : List UInt32} {state : SenderKeyState Priv Pub B} {w : GroupWorld Name B},
      w.Follows P name keyId accepted state → ForwardOnly P name keyId accepted messages w →
      BelowLast P name messages w := by
  induction messages with
  | nil => exact fun _ _ => trivial
  | cons m messages ih =>
    intro accepted state w h hforward
    rw [BelowLast, h.reachesLast_iff]
    rcases hd : groupCipherDecrypt P (GroupCipher.create name) m w with ⟨_ | p, w'⟩
    · rw [ForwardOnly, hd] at hforward
      obtain rfl := h.refuse hd
      refine ⟨?_, ih h hforward⟩
      rintro ⟨-, p, w', hp⟩
      cases hp
    · have hne := hforward.iteration_ne hd
      rw [ForwardOnly, hd] at hforward
      obtain ⟨-, state', h', -⟩ := h.accept hd hne
      exact ⟨fun hreaches => hne hreaches.1, ih h' hforward.2.2⟩

/-- **Group chains only move forward, exactly as long as the last iteration is not reached**: for
every distribution message that is processed into an empty record, and all messages that arrive
afterwards. -/
theorem group_chain_forward_iff (hr : w.record P.toProvider name = .ok ⟨[]⟩)
    (d : SenderKeyDistributionMessage Pub B) (messages : List (SenderKeyMessage B)) :
    ∃ w₁, groupSessionBuilderProcessSession P.toProvider name d w = (.ok (), w₁) ∧
      (ForwardOnly P name d.id [] messages w₁ ↔ BelowLast P name messages w₁) := by
  obtain ⟨w₁, hprocess, hfollows⟩ := follows_of_process hr d
  exact ⟨w₁, hprocess, hfollows.belowLast, hfollows.forwardOnly⟩

end Forward

/-! ## 4. At the top -/

/-- A sender that has started its chain at an iteration of its choice. -/
def topSender (iteration : UInt32) : Group Nat Nat Nat Term where
  __ := sampleGroup
  sender := sampleGroup.sender.put symbolic 0
    (SenderKeyRecord.setSenderKeyState 9 iteration (.text 0) ⟨8, 8⟩ ⟨[]⟩)

/-- The distribution message that describes the chain. -/
def topDistribution (iteration : UInt32) : SenderKeyDistributionMessage Nat Term :=
  ⟨9, iteration, .text 0, 8⟩

/-- The first two messages of the chain. -/
def topMessages (iteration : UInt32) : List (SenderKeyMessage Term) :=
  ((topSender iteration).run symbolicGroupContext 0
    [.encrypt (.text 1), .encrypt (.text 2)]).sent.map Prod.fst

/-- A receiver that has processed the distribution message. -/
def topReceiver (iteration : UInt32) : GroupWorld Nat Term :=
  (groupSessionBuilderProcessSession symbolic 0 (topDistribution iteration) ⟨fun _ => none, 0⟩).2

/-- **Right below the top** the two messages are accepted in reverse order, the second time
neither is, and the chain has gone forward. -/
theorem group_chain_forward_below_top :
    (acceptedMessages symbolicGroup 0
        ((topMessages 0xFFFFFFFD).reverse ++ topMessages 0xFFFFFFFD)
        (topReceiver 0xFFFFFFFD)).map SenderKeyMessage.iteration = [0xFFFFFFFE, 0xFFFFFFFD] ∧
      ForwardOnly symbolicGroup 0 9 [] ((topMessages 0xFFFFFFFD).reverse ++ topMessages 0xFFFFFFFD)
        (topReceiver 0xFFFFFFFD) := by
  have hempty : (⟨fun _ => none, 0⟩ : GroupWorld Nat Term).record symbolicGroup.toProvider 0 =
      .ok (⟨[]⟩ : SenderKeyRecord Nat Nat Term) := rfl
  obtain ⟨w₁, hprocess, hiff⟩ := group_chain_forward_iff hempty (topDistribution 0xFFFFFFFD)
    ((topMessages 0xFFFFFFFD).reverse ++ topMessages 0xFFFFFFFD)
  obtain rfl : topReceiver 0xFFFFFFFD = w₁ := congrArg Prod.snd hprocess
  exact ⟨by decide +kernel, hiff.2 (belowLast_of_iteration_ne (by decide +kernel) _)⟩

theorem topMessages_ne_nil : topMessages 0xFFFFFFFF ≠ [] := by
  decide +kernel

/-- The message with the last iteration. -/
def lastIterationMessage : SenderKeyMessage Term :=
  (topMessages 0xFFFFFFFF).head topMessages_ne_nil

/-- **The last iteration**: the message is accepted, and afterwards the chain is at iteration 0,
below where it was and below the iteration that was accepted. -/
theorem last_iteration_restarts_chain :
    lastIterationMessage.iteration = 0xFFFFFFFF ∧
      (topReceiver 0xFFFFFFFF).chainIteration symbolic 0 9 = .ok 0xFFFFFFFF ∧
      (groupCipherDecrypt symbolicGroup (GroupCipher.create 0) lastIterationMessage
        (topReceiver 0xFFFFFFFF)).1 = .ok (.text 1) ∧
      (groupCipherDecrypt symbolicGroup (GroupCipher.create 0) lastIterationMessage
        (topReceiver 0xFFFFFFFF)).2.chainIteration symbolic 0 9 = .ok 0 ∧
      ¬ ForwardOnly symbolicGroup 0 9 [] [lastIterationMessage] (topReceiver 0xFFFFFFFF) := by
  have htop : lastIterationMessage.iteration = 0xFFFFFFFF := by decide +kernel
  have haccepted : (groupCipherDecrypt symbolicGroup (GroupCipher.create 0) lastIterationMessage
      (topReceiver 0xFFFFFFFF)).1 = .ok (.text 1) := by decide +kernel
  exact ⟨htop, by decide +kernel, haccepted, by decide +kernel,
    fun hforward => ForwardOnly.iteration_ne hforward (Prod.ext haccepted rfl) htop⟩

end SignalProtocol
