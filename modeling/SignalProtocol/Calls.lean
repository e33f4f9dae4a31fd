/-
# Every entry point, for any number of addresses

An `Action` is one call of one of the six operations of the session builder and the session
cipher, for any of the addresses that share the stores, or a write of the application into the
stores between two calls.  The history of a list of actions records what each of them found,
returned and left behind.

`Change` lists the ways in which an operation can turn the record it loaded into the record
it stores.  `Call.run_outcome` says that a call makes one of these changes or leaves the session
store alone.  It holds for arbitrary stores: nothing is assumed about the records.
-/
import SignalProtocol.KeyExchange

namespace SignalProtocol

variable {Addr Priv Pub B : Type}

/-! ## 1. Actions and histories -/

/-- One call of the library. -/
inductive Call (Addr Priv Pub B : Type) where
  /-- `session_builder_process_pre_key_bundle`. -/
  | processPreKeyBundle (address : Addr) (bundle : PreKeyBundle Pub B)
  /-- `session_builder_process`. -/
  | process (address : Addr)
  /-- `session_builder_process_key_exchange_message`. -/
  | processKeyExchangeMessage (address : Addr) (message : KeyExchangeMessage Pub B)
  /-- `session_cipher_decrypt_pre_key_signal_message`. -/
  | decryptPreKey (cipher : SessionCipher Addr Priv Pub B) (message : PreKeySignalMessage Pub B)
  /-- `session_cipher_decrypt_signal_message`. -/
  | decryptSignal (cipher : SessionCipher Addr Priv Pub B) (message : SignalMessage Pub B)
  /-- `session_cipher_encrypt`. -/
  | encrypt (cipher : SessionCipher Addr Priv Pub B) (plaintext : B)

/-- What a call that succeeds returns. -/
inductive Reply (Pub B : Type) where
  | nothing
  | plaintext (plaintext : B)
  | ciphertext (message : CiphertextMessage Pub B)
  | keyExchange (message : KeyExchangeMessage Pub B)
  deriving DecidableEq

/-- A call, or a write of the application between two calls. -/
inductive Action (Addr Priv Pub B : Type) where
  | call (call : Call Addr Priv Pub B)
  /-- The application adds a pre key to its store. -/
  | storePreKey (preKeyId : UInt32) (keyPair : EcKeyPair Priv Pub)
  /-- The application replaces the identity it has saved for an address. -/
  | replaceIdentity (address : Addr) (identityKey : Pub)

/-- An action as it took place. -/
structure Step (Addr Priv Pub B : Type) where
  before : World Addr Priv Pub B
  action : Action Addr Priv Pub B
  result : Except SgError (Reply Pub B)
  after : World Addr Priv Pub B

/-- The public keys of a bundle. -/
def PreKeyBundle.keys (bundle : PreKeyBundle Pub B) : List Pub :=
  bundle.preKeyPublic.toList ++ bundle.signedPreKeyPublic.toList ++ bundle.identityKey.toList

namespace Call

/-- The address whose sessions a call works on. -/
def address : Call Addr Priv Pub B → Addr
  | processPreKeyBundle address _ => address
  | process address => address
  | processKeyExchangeMessage address _ => address
  | decryptPreKey cipher _ => cipher.remoteAddress
  | decryptSignal cipher _ => cipher.remoteAddress
  | encrypt cipher _ => cipher.remoteAddress

/-- **A call is executed atomically**: its callback, if it has one, touches no store. -/
def Atomic : Call Addr Priv Pub B → Prop
  | decryptPreKey cipher _ => cipher.Passive
  | decryptSignal cipher _ => cipher.Passive
  | encrypt cipher _ => cipher.Passive
  | _ => True

/-- The messages of a call were read from bytes. -/
def Received (P : Provider Priv Pub B) : Call Addr Priv Pub B → Prop
  | decryptPreKey _ m => m.Parsed P
  | decryptSignal _ m => m.Parsed P
  | _ => True

/-- The public keys that enter a call from outside. -/
def keys : Call Addr Priv Pub B → List Pub
  | processPreKeyBundle _ bundle => bundle.keys
  | process _ => []
  | processKeyExchangeMessage _ message =>
    [message.baseKey, message.ratchetKey, message.identityKey]
  | decryptPreKey _ m => [m.baseKey, m.identityKey, m.message.senderRatchetKey]
  | decryptSignal _ m => [m.senderRatchetKey]
  | encrypt _ _ => []

/-- The counter with which a call that succeeds moves a chain. -/
def counter : Call Addr Priv Pub B → Except SgError (Reply Pub B) → Option UInt32
  | decryptPreKey _ m, .ok _ => some m.message.counter
  | decryptSignal _ m, .ok _ => some m.counter
  | encrypt _ _, .ok (.ciphertext c) => some c.inner.counter
  | _, _ => none

section Run

variable [DecidableEq Addr] [LinearOrder Pub] [DecidableEq B]

/-- **Make a call.** -/
def run (ctx : SignalContext Addr Priv Pub B) :
    Call Addr Priv Pub B → Op SgError (World Addr Priv Pub B) (Reply Pub B)
  | processPreKeyBundle address bundle => do
    sessionBuilderProcessPreKeyBundle ctx address bundle
    return .nothing
  | process address => do
    let message ← sessionBuilderProcess ctx address
    return .keyExchange message
  | processKeyExchangeMessage address message => do
    let response ← sessionBuilderProcessKeyExchangeMessage ctx address message
    return response.elim .nothing .keyExchange
  | decryptPreKey cipher m => do
    let plaintext ← sessionCipherDecryptPreKeySignalMessage ctx cipher m
    return .plaintext plaintext
  | decryptSignal cipher m => do
    let plaintext ← sessionCipherDecryptSignalMessage ctx cipher m
    return .plaintext plaintext
  | encrypt cipher plaintext => do
    let message ← sessionCipherEncrypt ctx cipher plaintext
    return .ciphertext message

end Run

end Call

section History

variable [DecidableEq Addr] [LinearOrder Pub] [DecidableEq B]

/-- **Perform an action.** -/
def Action.perform (ctx : SignalContext Addr Priv Pub B) :
    Action Addr Priv Pub B → Op SgError (World Addr Priv Pub B) (Reply Pub B)
  | call c => c.run ctx
  | storePreKey preKeyId keyPair => do
    Op.modify fun w => { w with preKeys := Function.update w.preKeys preKeyId (some keyPair) }
    return .nothing
  | replaceIdentity address identityKey => do
    signalProtocolIdentitySaveIdentity address identityKey
    return .nothing

/-- The step that an action takes from a world. -/
def Action.step (ctx : SignalContext Addr Priv Pub B) (w : World Addr Priv Pub B)
    (action : Action Addr Priv Pub B) : Step Addr Priv Pub B :=
  ⟨w, action, (action.perform ctx w).1, (action.perform ctx w).2⟩

theorem Action.step_call {ctx : SignalContext Addr Priv Pub B} {w w' : World Addr Priv Pub B}
    {c : Call Addr Priv Pub B} {r : Except SgError (Reply Pub B)} (h : c.run ctx w = (r, w')) :
    (Action.call c).step ctx w = ⟨w, .call c, r, w'⟩ := by
  simp only [Action.step, Action.perform, h]

/-- **The history of a list of actions.** -/
def history (ctx : SignalContext Addr Priv Pub B) :
    List (Action Addr Priv Pub B) → World Addr Priv Pub B → List (Step Addr Priv Pub B)
  | [], _ => []
  | a :: actions, w => a.step ctx w :: history ctx actions (a.step ctx w).after

/-- The world that a list of actions ends in. -/
def performAll (ctx : SignalContext Addr Priv Pub B) :
    List (Action Addr Priv Pub B) → World Addr Priv Pub B → World Addr Priv Pub B
  | [], w => w
  | a :: actions, w => performAll ctx actions (a.step ctx w).after

theorem history_append {ctx : SignalContext Addr Priv Pub B}
    (actions₂ : List (Action Addr Priv Pub B)) :
    ∀ (actions₁ : List (Action Addr Priv Pub B)) (w : World Addr Priv Pub B),
      history ctx (actions₁ ++ actions₂) w =
        history ctx actions₁ w ++ history ctx actions₂ (performAll ctx actions₁ w)
  | [], _ => rfl
  | a :: actions₁, w => by
    rw [List.cons_append, history, history, performAll, List.cons_append,
      history_append actions₂ actions₁ (a.step ctx w).after]

theorem action_mem_of_history {ctx : SignalContext Addr Priv Pub B} {s : Step Addr Priv Pub B}
    {actions : List (Action Addr Priv Pub B)} {w : World Addr Priv Pub B}
    (h : s ∈ history ctx actions w) : s.action ∈ actions := by
  induction actions generalizing w with
  | nil => exact absurd h List.not_mem_nil
  | cons a actions ih =>
    rcases List.mem_cons.1 h with rfl | h
    · exact List.mem_cons_self
    · exact List.mem_cons_of_mem _ (ih h)

end History

namespace Step

/-- A step whose call, if it is one, is executed atomically. -/
def Atomic (s : Step Addr Priv Pub B) : Prop :=
  ∀ c, s.action = .call c → c.Atomic

/-- A step whose messages, if it has any, were read from bytes. -/
def Received (P : Provider Priv Pub B) (s : Step Addr Priv Pub B) : Prop :=
  ∀ c, s.action = .call c → c.Received P

/-- The counter with which a step moved a chain. -/
def counter (s : Step Addr Priv Pub B) : Option UInt32 :=
  match s.action with
  | .call c => c.counter s.result
  | _ => none

/-- **Chain indices stay below 2^32 - 1**: the step did not move a chain to its last counter. -/
def Bounded (s : Step Addr Priv Pub B) : Prop :=
  ∀ k ∈ s.counter, k.toNat + 1 < 2 ^ 32

instance (s : Step Addr Priv Pub B) : Decidable s.Bounded := s.counter.decidableForallMem

end Step

/-- **An invariant of histories**: what holds in the beginning and is kept by every step that
meets `G` holds before and after every step of a history of such steps. -/
theorem history_invariant [DecidableEq Addr] [LinearOrder Pub] [DecidableEq B]
    {ctx : SignalContext Addr Priv Pub B} {G : Step Addr Priv Pub B → Prop}
    {I : World Addr Priv Pub B → Prop}
    (hstep : ∀ w (a : Action Addr Priv Pub B), I w → G (a.step ctx w) → I (a.step ctx w).after)
    (actions : List (Action Addr Priv Pub B)) (w : World Addr Priv Pub B) (hw : I w)
    (hG : ∀ s ∈ history ctx actions w, G s) :
    ∀ s ∈ history ctx actions w, I s.before ∧ I s.after ∧ s = s.action.step ctx s.before := by
  induction actions generalizing w with
  | nil => exact fun s hs => absurd hs List.not_mem_nil
  | cons a actions ih =>
    intro s hs
    have hafter := hstep w a hw (hG _ List.mem_cons_self)
    rcases List.mem_cons.1 hs with rfl | hs
    · exact ⟨hw, hafter, rfl⟩
    · exact ih _ hafter (fun t ht => hG t (List.mem_cons_of_mem _ ht)) s hs

/-! ## 2. Receiving with an arbitrary record -/

section Receiving

variable [DecidableEq Pub] [DecidableEq B]

omit [DecidableEq B] in
theorem moves_getOrCreateChainKey (P : Provider Priv Pub B) (rng : Rng Priv B)
    (state : SessionState Priv Pub B) (key : Pub) :
    Op.Moves (· ≤ ·) (sessionCipherGetOrCreateChainKey P rng state key) := by
  unfold sessionCipherGetOrCreateChainKey
  split
  · exact .pure _
  · refine .bind (.ofOption _ _) fun rootKey => .bind (.ofOption _ _) fun ourEphemeral => ?_
    exact .bind (moves_generate P rng) fun _ => .bind (.ofOption _ _) fun _ => .pure _

theorem moves_decryptFromState (P : Provider Priv Pub B) (rng : Rng Priv B)
    (state : SessionState Priv Pub B) (m : SignalMessage Pub B) :
    Op.Moves (· ≤ ·) (sessionCipherDecryptFromState P rng state m) := by
  unfold sessionCipherDecryptFromState
  refine .bind (.require _ _) fun _ => .bind (.require _ _) fun _ => ?_
  refine .bind (moves_getOrCreateChainKey P rng state _) fun _ => .bind (.ofExcept _) fun _ => ?_
  refine .bind (.ofOption _ _) fun _ => .bind (.ofOption _ _) fun _ => ?_
  exact .bind (.require _ _) fun _ => .bind (.ofExcept _) fun _ => .pure _

theorem moves_tryStates (P : Provider Priv Pub B) (rng : Rng Priv B) (m : SignalMessage Pub B)
    (states : List (SessionState Priv Pub B)) :
    Op.Moves (· ≤ ·) (sessionCipherTryStates P rng m states) := by
  induction states with
  | nil =>
    rw [sessionCipherTryStates_nil]
    exact .fail _
  | cons state rest ih =>
    rw [sessionCipherTryStates_cons]
    refine .bind (.ofExcept _) fun copy => .recover ?_ ?_
    · exact .bind (moves_decryptFromState P rng copy m) fun _ => .pure _
    · exact .bind ih fun _ => .pure _

theorem moves_decryptFromRecord (P : Provider Priv Pub B) (rng : Rng Priv B)
    (record : SessionRecord Priv Pub B) (m : SignalMessage Pub B) :
    Op.Moves (· ≤ ·) (sessionCipherDecryptFromRecord P rng record m) := by
  rw [sessionCipherDecryptFromRecord_eq]
  exact .bind (moves_tryStates P rng m _) fun _ => .pure _

/-- **One state of the list accepts the message**: the state at position `i`, or rather its
copy, decrypts to `p` and becomes `state'`. -/
def AcceptedAt (P : Provider Priv Pub B) (rng : Rng Priv B) (m : SignalMessage Pub B)
    (states : List (SessionState Priv Pub B)) (p : B) (state' : SessionState Priv Pub B)
    (i n : Nat) : Prop :=
  ∃ state copy k, states[i]? = some state ∧ state.copy P = .ok copy ∧
    sessionCipherDecryptFromState P rng copy m k = (.ok (p, state'), n)

/-- **What a successful search has found**: a state that accepts; the first one is tried where
the search starts in the random source. -/
theorem tryStates_ok {P : Provider Priv Pub B} {rng : Rng Priv B} {m : SignalMessage Pub B}
    {states : List (SessionState Priv Pub B)} {p : B} {state' : SessionState Priv Pub B}
    {i n n' : Nat}
    (h : sessionCipherTryStates P rng m states n = (.ok (p, state', i), n')) :
    ∃ state copy k, states[i]? = some state ∧ state.copy P = .ok copy ∧
      sessionCipherDecryptFromState P rng copy m k = (.ok (p, state'), n') ∧
      (i = 0 → k = n) := by
  induction states generalizing i n with
  | nil =>
    rw [sessionCipherTryStates_nil] at h
    cases h
  | cons state rest ih =>
    rw [sessionCipherTryStates_cons] at h
    obtain ⟨copy, n₁, hcopy, h⟩ := Op.bind_ok_iff.1 h
    rw [Op.ofExcept_apply] at hcopy
    injection hcopy with hcopy hn
    subst hn
    rcases hd : sessionCipherDecryptFromState P rng copy m n with ⟨e | ⟨q, t⟩, n₂⟩
    · by_cases he : e = .invalidMessage
      · subst he
        rw [Op.recover_of_error (Op.bind_of_error hd)] at h
        obtain ⟨result, n₃, hrest, hresult⟩ := Op.bind_ok_iff.1 h
        cases hresult
        obtain ⟨state₁, copy₁, k, hi, hc, hdec, -⟩ := ih hrest
        exact ⟨state₁, copy₁, k, hi, hc, hdec, fun h0 => absurd h0 (Nat.succ_ne_zero _)⟩
      · rw [Op.recover_of_other (Op.bind_of_error hd) he] at h
        cases h
    · have hfirst : (do
          let result ← sessionCipherDecryptFromState P rng copy m
          return (result.1, result.2, 0) : Op SgError Nat _) n = (.ok (q, t, 0), n₂) :=
        Op.bind_of_ok hd
      cases (Op.recover_of_ok hfirst).symm.trans h
      exact ⟨state, copy, n, rfl, hcopy, hd, fun _ => rfl⟩

theorem decryptFromRecord_try {P : Provider Priv Pub B} {rng : Rng Priv B}
    {record record' : SessionRecord Priv Pub B} {m : SignalMessage Pub B} {p : B} {n n' : Nat}
    (h : sessionCipherDecryptFromRecord P rng record m n = (.ok (p, record'), n')) :
    ∃ state' i, sessionCipherTryStates P rng m record.states n = (.ok (p, state', i), n') ∧
      record' = record.accept state' i := by
  rw [sessionCipherDecryptFromRecord_eq] at h
  obtain ⟨⟨q, state', i⟩, n₁, htry, hresult⟩ := Op.bind_ok_iff.1 h
  cases hresult
  exact ⟨state', i, htry, rfl⟩

/-- **What decrypting against a record does**: one state accepts and takes the current
place. -/
theorem decryptFromRecord_ok {P : Provider Priv Pub B} {rng : Rng Priv B}
    {record record' : SessionRecord Priv Pub B} {m : SignalMessage Pub B} {p : B} {n n' : Nat}
    (h : sessionCipherDecryptFromRecord P rng record m n = (.ok (p, record'), n')) :
    ∃ state' i, AcceptedAt P rng m record.states p state' i n' ∧
      record' = record.accept state' i := by
  obtain ⟨state', i, htry, rfl⟩ := decryptFromRecord_try h
  obtain ⟨state, copy, k, hi, hcopy, hdec, -⟩ := tryStates_ok htry
  exact ⟨state', i, ⟨state, copy, k, hi, hcopy, hdec⟩, rfl⟩

/-! Neither sending nor receiving touches the label of a state. -/

omit [DecidableEq B] in
theorem label_getOrCreateChainKey {P : Provider Priv Pub B} {rng : Rng Priv B}
    {state : SessionState Priv Pub B} {key : Pub}
    {chain : RatchetChainKey B × SessionState Priv Pub B} {n n' : Nat}
    (h : sessionCipherGetOrCreateChainKey P rng state key n = (.ok chain, n')) :
    chain.2.label = state.label := by
  unfold sessionCipherGetOrCreateChainKey at h
  cases hk : state.getReceiverChainKey key with
  | some chainKey =>
    simp only [hk] at h
    cases h
    rfl
  | none =>
    simp only [hk] at h
    obtain ⟨_, _, -, h⟩ := Op.bind_ok_iff.1 h
    obtain ⟨_, _, -, h⟩ := Op.bind_ok_iff.1 h
    obtain ⟨_, _, -, h⟩ := Op.bind_ok_iff.1 h
    obtain ⟨_, _, -, h⟩ := Op.bind_ok_iff.1 h
    cases h
    rfl

omit [DecidableEq B] in
theorem label_skipMessageKeys (P : Provider Priv Pub B) (key : Pub) (counter : UInt32) (fuel : Nat)
    (chainKey : RatchetChainKey B) (state : SessionState Priv Pub B) :
    (skipMessageKeys P key counter fuel chainKey state).2.label = state.label := by
  induction fuel generalizing chainKey state with
  | zero => rfl
  | succ fuel ih =>
    rw [skipMessageKeys]
    split
    · exact ih ..
    · rfl

omit [DecidableEq B] in
theorem label_getOrCreateMessageKeys {P : Provider Priv Pub B} {state : SessionState Priv Pub B}
    {key : Pub} {chainKey : RatchetChainKey B} {counter : UInt32}
    {keys : RatchetMessageKeys B × SessionState Priv Pub B}
    (h : (sessionCipherGetOrCreateMessageKeys P key chainKey counter).onCopy state = .ok keys) :
    keys.2.label = state.label := by
  rw [onCopy_getOrCreateMessageKeys] at h
  split at h
  · split at h
    next result hr =>
      cases h
      obtain ⟨_, -, hr⟩ := Option.bind_eq_some_iff.1 hr
      obtain ⟨_, -, hr⟩ := Option.bind_eq_some_iff.1 hr
      cases hr
      rfl
    next => cases h
  · split at h
    · cases h
    · obtain ⟨state', hset, h⟩ := Op.exists_of_bind_eq_ok h
      cases h
      have hlabel := label_skipMessageKeys P key counter (counter - chainKey.index).toNat
        chainKey state
      unfold SessionState.setReceiverChainKey at hset
      split at hset
      · cases hset
      · cases hset
        exact hlabel

theorem label_decryptFromState {P : Provider Priv Pub B} {rng : Rng Priv B}
    {state state' : SessionState Priv Pub B} {m : SignalMessage Pub B} {p : B} {n n' : Nat}
    (h : sessionCipherDecryptFromState P rng state m n = (.ok (p, state'), n')) :
    state'.label = state.label := by
  obtain ⟨_, _, -, h⟩ := Op.bind_ok_iff.1 h
  obtain ⟨_, _, -, h⟩ := Op.bind_ok_iff.1 h
  obtain ⟨chain, _, hchain, h⟩ := Op.bind_ok_iff.1 h
  obtain ⟨keys, _, hkeys, h⟩ := Op.bind_ok_iff.1 h
  obtain ⟨_, _, -, h⟩ := Op.bind_ok_iff.1 h
  obtain ⟨_, _, -, h⟩ := Op.bind_ok_iff.1 h
  obtain ⟨_, _, -, h⟩ := Op.bind_ok_iff.1 h
  obtain ⟨_, _, -, h⟩ := Op.bind_ok_iff.1 h
  cases h
  rw [Op.ofExcept_apply] at hkeys
  injection hkeys with hkeys _
  exact (label_getOrCreateMessageKeys hkeys).trans (label_getOrCreateChainKey hchain)

omit [DecidableEq Pub] [DecidableEq B] in
theorem label_encryptWithState {P : Provider Priv Pub B} {state state' : SessionState Priv Pub B}
    {p : B} {c : CiphertextMessage Pub B} (h : encryptWithState P state p = .ok (c, state')) :
    state'.label = state.label := by
  obtain ⟨_, -, h⟩ := Op.exists_of_bind_eq_ok h
  obtain ⟨_, -, h⟩ := Op.exists_of_bind_eq_ok h
  obtain ⟨_, -, h⟩ := Op.exists_of_bind_eq_ok h
  obtain ⟨_, -, h⟩ := Op.exists_of_bind_eq_ok h
  obtain ⟨_, -, h⟩ := Op.exists_of_bind_eq_ok h
  obtain ⟨_, -, h⟩ := Op.exists_of_bind_eq_ok h
  obtain ⟨_, hset, h⟩ := Op.exists_of_bind_eq_ok h
  cases h
  unfold SessionState.setSenderChainKey at hset
  split at hset
  · cases hset
    rfl
  · cases hset

/-- A state that has accepted a message keeps its label. -/
theorem AcceptedAt.label {P : Provider Priv Pub B} {rng : Rng Priv B} {m : SignalMessage Pub B}
    {states : List (SessionState Priv Pub B)} {p : B} {state' : SessionState Priv Pub B} {i n : Nat}
    (h : AcceptedAt P rng m states p state' i n) :
    ∃ state, states[i]? = some state ∧ state'.label = state.label := by
  obtain ⟨state, copy, k, hi, hcopy, hd⟩ := h
  exact ⟨state, hi, (label_decryptFromState hd).trans (label_of_deserialize hcopy)⟩

end Receiving

/-- The states after one has taken the current place: none is lost as long as the record
respects its limit. -/
theorem states_accept {record : SessionRecord Priv Pub B} (state' : SessionState Priv Pub B)
    {i : Nat} (hlen : record.previousStates.length ≤ archivedStatesMaxLength)
    (hi : i < record.states.length) :
    (record.accept state' i).states = state' :: record.states.eraseIdx i := by
  cases i with
  | zero => rfl
  | succ i =>
    have hlt : i < record.previousStates.length := Nat.lt_of_succ_lt_succ hi
    have hshort : (record.state :: record.previousStates.eraseIdx i).length ≤
        archivedStatesMaxLength := by
      rw [List.length_cons, List.length_eraseIdx_of_lt hlt]
      omega
    exact congrArg (state' :: ·) (List.take_of_length_le hshort)

theorem length_accept {record : SessionRecord Priv Pub B} (state' : SessionState Priv Pub B)
    {i : Nat} (hlen : record.previousStates.length ≤ archivedStatesMaxLength)
    (hi : i < record.states.length) :
    (record.accept state' i).previousStates.length ≤ archivedStatesMaxLength := by
  have hlength := congrArg List.length (states_accept state' hlen hi)
  rw [List.length_cons, List.length_eraseIdx_of_lt hi] at hlength
  simp only [SessionRecord.states, List.length_cons] at hlength
  omega

/-- What holds of all states still does when one that has received takes the current place. -/
theorem SessionRecord.forall_accept {Q : SessionState Priv Pub B → Prop}
    {record : SessionRecord Priv Pub B} {state' : SessionState Priv Pub B}
    (h : ∀ state ∈ record.states, Q state) (hs : Q state') (i : Nat) :
    ∀ state ∈ (record.accept state' i).states, Q state := by
  cases i with
  | zero => exact forall_setState h hs
  | succ i =>
    refine List.forall_mem_cons.2 ⟨hs, fun t ht => ?_⟩
    rcases List.mem_cons.1 (List.mem_of_mem_take ht) with rfl | ht
    · exact h _ List.mem_cons_self
    · exact h t (List.mem_cons_of_mem _ (List.mem_of_mem_eraseIdx ht))

/-! ## 3. What a call can do to the stores -/

section Change

variable [LinearOrder Pub] [DecidableEq B]

/-- **What the builder makes of the loaded record** for a pre-key message: nothing if the base
key is known, otherwise a record with a new session in front, from the pre keys that the
message names.  The last argument is the one-time pre key to remove. -/
inductive Built (ctx : SignalContext Addr Priv Pub B) (w : World Addr Priv Pub B)
    (record : SessionRecord Priv Pub B) (m : PreKeySignalMessage Pub B) :
    SessionRecord Priv Pub B → Option UInt32 → Prop
  | known (h : record.hasSessionState m.version.toUInt32 m.baseKey = true) :
      Built ctx w record m record none
  | new {signedPreKey : EcKeyPair Priv Pub} {oneTimePreKey : Option (EcKeyPair Priv Pub)}
      (h : ¬ record.hasSessionState m.version.toUInt32 m.baseKey = true)
      (hsigned : w.signedPreKeys m.signedPreKeyId = some signedPreKey)
      (honce : loadOneTimePreKey m.preKeyId w = (.ok oneTimePreKey, w)) :
      Built ctx w record m
        (record.makeRoom.setState
          ((Session.responded ctx.provider w.toStore signedPreKey oneTimePreKey m).toState
            ctx.provider))
        (m.preKeyId.filter fun preKeyId => preKeyId ≠ preKeyMediumMaxValue)

/-- **The ways to change a record.**  From a world in which it loaded `record`, a call returns
`result` and stores `record'`; it saves the identity `saved` and removes the pre key `used`, if
there is one, and leaves the random source at `n`. -/
inductive Change (ctx : SignalContext Addr Priv Pub B) (w : World Addr Priv Pub B)
    (record : SessionRecord Priv Pub B) :
    Call Addr Priv Pub B → Except SgError (Reply Pub B) → SessionRecord Priv Pub B →
      Option Pub → Option UInt32 → Nat → Prop
  /-- The current state sends. -/
  | send {cipher : SessionCipher Addr Priv Pub B} {p : B} {c : CiphertextMessage Pub B}
      {state' : SessionState Priv Pub B}
      (h : encryptWithState ctx.provider record.state p = .ok (c, state')) :
      Change ctx w record (.encrypt cipher p) (.ok (.ciphertext c)) (record.setState state')
        none none w.drawn
  /-- Some state receives and becomes the current one. -/
  | receive {cipher : SessionCipher Addr Priv Pub B} {m : SignalMessage Pub B} {p : B}
      {state' : SessionState Priv Pub B} {i n : Nat} (hn : w.drawn ≤ n)
      (h : AcceptedAt ctx.provider ctx.rng m record.states p state' i n) :
      Change ctx w record (.decryptSignal cipher m) (.ok (.plaintext p)) (record.accept state' i)
        none none n
  /-- A bundle puts a session in Alice's role in front. -/
  | initiate {address : Addr} {bundle : PreKeyBundle Pub B} {identity signedPreKey : Pub}
      {base sending : Priv} (ha : BundleAccepted ctx address bundle w identity signedPreKey)
      (hb : ctx.rng.privateKey w.drawn = .ok base)
      (hs : ctx.rng.privateKey (w.drawn + 1) = .ok sending) :
      Change ctx w record (.processPreKeyBundle address bundle) (.ok .nothing)
        (record.makeRoom.setState ((Session.initiated ctx.provider w.toStore bundle identity
          signedPreKey base sending).toState ctx.provider)) (some identity) none (w.drawn + 2)
  /-- A pre-key message may put a session in Bob's role in front; then some state receives. -/
  | respond {cipher : SessionCipher Addr Priv Pub B} {m : PreKeySignalMessage Pub B} {p : B}
      {built : SessionRecord Priv Pub B} {used : Option UInt32} {state' : SessionState Priv Pub B}
      {i n : Nat} (hn : w.drawn ≤ n)
      (ht : ctx.trusted cipher.remoteAddress (w.identities cipher.remoteAddress)
        m.identityKey = true)
      (hb : Built ctx w record m built used)
      (h : AcceptedAt ctx.provider ctx.rng m.message built.states p state' i n) :
      Change ctx w record (.decryptPreKey cipher m) (.ok (.plaintext p)) (built.accept state' i)
        (some m.identityKey) used n
  /-- A key exchange is offered: the current state carries it from now on. -/
  | offer {address : Addr} {message : KeyExchangeMessage Pub B} {sequence : UInt32}
      {base ratchet : Priv}
      (hb : ctx.rng.privateKey (w.drawn + 1) = .ok base)
      (hr : ctx.rng.privateKey (w.drawn + 2) = .ok ratchet) :
      Change ctx w record (.process address) (.ok (.keyExchange message))
        (record.setState (record.state.setPendingKeyExchange sequence (ctx.provider.pair base)
          (ctx.provider.pair ratchet) w.identityKeyPair)) none none (w.drawn + 4)
  /-- A key exchange message leads to an agreed session.  The call may fail after that.  The
  identity is not saved if it was a response whose signature does not verify. -/
  | agree {address : Addr} {message : KeyExchangeMessage Pub B}
      {result : Except SgError (Reply Pub B)} {agreed : Agreed Priv Pub B}
      {saved : Option Pub} {n : Nat} (h : Agrees ctx address message w record agreed n)
      (hs : saved = some message.identityKey ∨ saved = none ∧ message.isInitiate = false ∧
        message.checkSignature ctx.provider ≠ .ok ()) :
      Change ctx w record (.processKeyExchangeMessage address message) result agreed.record saved
        none n

theorem Change.drawn_le {ctx : SignalContext Addr Priv Pub B} {w : World Addr Priv Pub B}
    {c : Call Addr Priv Pub B} {r : Except SgError (Reply Pub B)}
    {record record' : SessionRecord Priv Pub B} {saved : Option Pub} {used : Option UInt32}
    {n : Nat} (h : Change ctx w record c r record' saved used n) : w.drawn ≤ n := by
  cases h with
  | send h => exact le_rfl
  | receive hn h => exact hn
  | initiate ha hb hs => exact Nat.le_add_right _ 2
  | respond hn ht hb h => exact hn
  | offer hb hr => exact Nat.le_add_right _ 4
  | agree h hs =>
    obtain ⟨-, -, j, sending, hfound, -, rfl, -⟩ := h
    exact hfound.drawn_le.trans (Nat.le_add_right _ _)

end Change

/-- The world in which an identity is saved for the address, if there is one. -/
def World.saveOptional (address : Addr) (w : World Addr Priv Pub B) [DecidableEq Addr] :
    Option Pub → World Addr Priv Pub B
  | none => w
  | some identity => w.saveIdentity address identity

/-- The world after a change. -/
def World.changed [DecidableEq Addr] (P : Provider Priv Pub B) (address : Addr)
    (record : SessionRecord Priv Pub B) (saved : Option Pub) (used : Option UInt32) (n : Nat)
    (w : World Addr Priv Pub B) : World Addr Priv Pub B :=
  (((w.storeRecord P address record).saveOptional address saved).dropPreKey used).at n

section Changed

variable [DecidableEq Addr] (P : Provider Priv Pub B) (address : Addr)
  (record : SessionRecord Priv Pub B) (saved : Option Pub) (used : Option UInt32) (n : Nat)
  (w : World Addr Priv Pub B)

@[simp] theorem World.saveOptional_sessions :
    (w.saveOptional address saved).sessions = w.sessions := by cases saved <;> rfl

@[simp] theorem World.saveOptional_preKeys :
    (w.saveOptional address saved).preKeys = w.preKeys := by cases saved <;> rfl

@[simp] theorem World.saveOptional_drawn :
    (w.saveOptional address saved).drawn = w.drawn := by cases saved <;> rfl

@[simp] theorem World.changed_sessions : (w.changed P address record saved used n).sessions =
    Function.update w.sessions address (some (record.serialize P)) := by
  cases saved <;> cases used <;> rfl

@[simp] theorem World.changed_drawn : (w.changed P address record saved used n).drawn = n := rfl

@[simp] theorem World.changed_identities :
    (w.changed P address record saved used n).identities =
      (w.saveOptional address saved).identities := by
  cases saved <;> cases used <;> rfl

@[simp] theorem World.changed_preKeys (preKeyId : UInt32) :
    (w.changed P address record saved used n).preKeys preKeyId =
      if used = some preKeyId then none else w.preKeys preKeyId := by
  cases used with
  | none => cases saved <;> rfl
  | some i =>
    by_cases hi : preKeyId = i
    · subst hi
      rw [if_pos rfl]
      exact Function.update_self ..
    · rw [if_neg fun h => hi (Option.some.inj h).symm]
      cases saved <;> exact Function.update_of_ne hi ..

end Changed

/-- A key exchange message: the one call that may succeed without a change (a response to a
simultaneous initiate that came too late) and fail after one. -/
def Call.IsKeyExchange : Call Addr Priv Pub B → Prop
  | processKeyExchangeMessage _ _ => True
  | _ => False

/-- **What a call leaves behind.**  Either it wrote no session, and at most an identity that it
had found trusted, or it has made one of the changes. -/
inductive Outcome [DecidableEq Addr] [LinearOrder Pub] [DecidableEq B]
    (ctx : SignalContext Addr Priv Pub B) (w : World Addr Priv Pub B)
    (c : Call Addr Priv Pub B) (r : Except SgError (Reply Pub B)) :
    World Addr Priv Pub B → Prop
  | idle (saved : Option Pub) {n : Nat} (hf : (∃ e, r = .error e) ∨ c.IsKeyExchange)
      (hn : w.drawn ≤ n)
      (hs : ∀ identity ∈ saved,
        ctx.trusted c.address (w.identities c.address) identity = true) :
      Outcome ctx w c r ((w.saveOptional c.address saved).at n)
  | changed {record record' : SessionRecord Priv Pub B} (saved : Option Pub)
      (used : Option UInt32) {n n' : Nat} (hr : w.record ctx.provider c.address = .ok record)
      (hc : Change ctx w record c r record' saved used n) (hn : n ≤ n') :
      Outcome ctx w c r (w.changed ctx.provider c.address record' saved used n')

section Outcomes

variable [DecidableEq Addr] [LinearOrder Pub] [DecidableEq B]
  {ctx : SignalContext Addr Priv Pub B} {w w' : World Addr Priv Pub B}
  {c : Call Addr Priv Pub B}

/-- A call that gives up after it has only drawn. -/
theorem Outcome.of_onlyDraws {α : Type} {r : Except SgError α} {f : α → Reply Pub B}
    {e : SgError} (he : r = .error e) (h : OnlyDraws w w') : Outcome ctx w c (r.map f) w' := by
  rw [h.eq, he]
  exact .idle none (Or.inl ⟨e, rfl⟩) h.drawn nofun

theorem Outcome.of_drawn {α : Type} {r : Except SgError α} {f : α → Reply Pub B} {e : SgError}
    (he : r = .error e) (k : Nat) (h : OnlyDraws (w.at (w.drawn + k)) w') :
    Outcome ctx w c (r.map f) w' :=
  .of_onlyDraws he ⟨h.stores, (Nat.le_add_right _ k).trans h.drawn⟩

/-- **Encrypting** writes nothing, or the current state has sent. -/
theorem encrypt_outcome {cipher : SessionCipher Addr Priv Pub B} {p : B}
    {r : Except SgError (CiphertextMessage Pub B)}
    (h : sessionCipherEncrypt ctx cipher p w = (r, w')) :
    Outcome ctx w (.encrypt cipher p) (r.map .ciphertext) w' := by
  simp only [sessionCipherEncrypt, Threaded.sessionCipherEncrypt, Program.run_eqs] at h
  rcases Op.bind_cases h with ⟨e, hx, he⟩ | ⟨_, w₁, hx, h₁⟩
  · exact .of_onlyDraws he (.of_moves (.require _ _) hx)
  obtain rfl := (Op.require_ok_iff.1 hx).2.symm
  rcases Op.bind_cases h₁ with ⟨e, hx, he⟩ | ⟨record, w₂, hload, h₂⟩
  · exact .of_onlyDraws he (.of_moves (onlyDraws_load _ _) hx)
  rw [load_eq] at hload
  injection hload with hrecord hw
  subst hw
  rcases Op.bind_cases h₂ with ⟨e, hx, he⟩ | ⟨result, w₃, hsend, h₃⟩
  · exact .of_onlyDraws he (.of_moves (.ofExcept _) hx)
  rw [Op.ofExcept_apply] at hsend
  injection hsend with hsend hw
  subst hw
  cases h₃
  exact .changed none none hrecord (.send hsend) le_rfl

/-- **Decrypting a signal message** writes nothing, or some state has received. -/
theorem decryptSignal_outcome {cipher : SessionCipher Addr Priv Pub B} (hc : cipher.Passive)
    {m : SignalMessage Pub B} {r : Except SgError B}
    (h : sessionCipherDecryptSignalMessage ctx cipher m w = (r, w')) :
    Outcome ctx w (.decryptSignal cipher m) (r.map .plaintext) w' := by
  simp only [sessionCipherDecryptSignalMessage, Threaded.sessionCipherDecryptSignalMessage,
    Program.run_eqs, run_drawing, Threaded.run_decryptFromRecord,
    Threaded.run_decryptCallback] at h
  rcases Op.bind_cases h with ⟨e, hx, he⟩ | ⟨_, w₁, hx, h₁⟩
  · exact .of_onlyDraws he (.of_moves (.require _ _) hx)
  obtain rfl := (Op.require_ok_iff.1 hx).2.symm
  rcases Op.bind_cases h₁ with ⟨e, hx, he⟩ | ⟨_, w₂, hcontains, h₂⟩
  · cases hx
  cases hcontains
  rcases Op.bind_cases h₂ with ⟨e, hx, he⟩ | ⟨_, w₃, hx, h₃⟩
  · exact .of_onlyDraws he (.of_moves (.require _ _) hx)
  obtain rfl := (Op.require_ok_iff.1 hx).2.symm
  rcases Op.bind_cases h₃ with ⟨e, hx, he⟩ | ⟨record, w₄, hload, h₄⟩
  · exact .of_onlyDraws he (.of_moves (onlyDraws_load _ _) hx)
  rw [load_eq] at hload
  injection hload with hrecord hw
  subst hw
  have hmoves : Op.Moves OnlyDraws (atRandom (sessionCipherDecryptFromRecord ctx.provider ctx.rng
      record m) : Op SgError (World Addr Priv Pub B) _) :=
    onlyDraws_atRandom (moves_decryptFromRecord _ _ _ _)
  rcases Op.bind_cases h₄ with ⟨e, hx, he⟩ | ⟨⟨q, record'⟩, w₅, hdec, h₅⟩
  · exact .of_onlyDraws he (.of_moves hmoves hx)
  have hdraws := OnlyDraws.of_moves hmoves hdec
  rcases hc.callback_cases q w₅ with hcb | ⟨e, hcb⟩
  · rw [Op.bind_of_ok hcb] at h₅
    cases h₅
    obtain ⟨state', i, haccepted, rfl⟩ := decryptFromRecord_ok (atRandom_ok hdec)
    rw [hdraws.eq]
    exact .changed none none hrecord (.receive hdraws.drawn haccepted) le_rfl
  · rw [Op.bind_of_error hcb] at h₅
    cases h₅
    exact .of_onlyDraws rfl hdraws

/-- **Processing a bundle** writes nothing, or a session in Alice's role is in front. -/
theorem bundle_outcome {address : Addr} {bundle : PreKeyBundle Pub B} {r : Except SgError Unit}
    (h : sessionBuilderProcessPreKeyBundle ctx address bundle w = (r, w')) :
    Outcome ctx w (.processPreKeyBundle address bundle) (r.map (fun _ => .nothing)) w' := by
  rcases bundle_cases ctx address bundle w with ⟨identity, signedPreKey, ha⟩ | ⟨e, he⟩
  swap
  · rw [he] at h
    cases h
    exact .of_onlyDraws rfl (refl_of OnlyDraws w)
  have htrust : signalProtocolIdentityIsTrustedIdentity ctx address bundle.identityKey w =
      (.ok true, w) := isTrusted_of ha.identity_eq ha.trusted
  simp only [sessionBuilderProcessPreKeyBundle, Threaded.sessionBuilderProcessPreKeyBundle,
    Program.run_eqs] at h
  rw [Op.bind_of_ok htrust, Op.require_of rfl, Op.pure_bind_apply, ha.identity_eq,
    Op.ofOption_some, Op.pure_bind_apply, ha.signed, Op.ofExcept_ok, Op.pure_bind_apply] at h
  rcases Op.bind_cases h with ⟨e, hx, he⟩ | ⟨record, w₁, hload, h₁⟩
  · exact .of_onlyDraws he (.of_moves (onlyDraws_load _ _) hx)
  rw [load_eq] at hload
  injection hload with hrecord hw
  subst hw
  have hroom := state_makeRoom hrecord
  cases hb : ctx.rng.privateKey w.drawn with
  | error e =>
    rw [Op.bind_of_error (atRandom_of (curveGenerateKeyPair_of_error hb))] at h₁
    cases h₁
    exact .of_onlyDraws rfl ⟨rfl, Nat.le_succ _⟩
  | ok base =>
    rw [Op.bind_of_ok (atRandom_of (curveGenerateKeyPair_of_ok hb)),
      Op.bind_of_ok (show signalProtocolIdentityGetKeyPair (w.at (w.drawn + 1)) =
        (.ok w.identityKeyPair, w.at (w.drawn + 1)) from rfl)] at h₁
    simp only [hroom] at h₁
    cases hk : ctx.rng.privateKey (w.drawn + 1) with
    | error e =>
      rw [Op.bind_of_error (atRandom_of (Session.aliceInitialize_of_error _ hk))] at h₁
      cases h₁
      exact .of_onlyDraws rfl ⟨rfl, Nat.le_add_right _ 2⟩
    | ok sending =>
      rw [Op.bind_of_ok (atRandom_of (Session.aliceInitialize_of_ok _ hk))] at h₁
      cases h₁
      exact .changed (some identity) none hrecord (.initiate ha hb hk) le_rfl

/-- Replacing the code of a failed offer changes nothing else. -/
theorem Outcome.of_mapError {address : Addr} {f : SgError → SgError}
    {r r' : Except SgError (KeyExchangeMessage Pub B)} (hr : r'.mapError f = r)
    (h : Outcome ctx w (.process address) (r'.map .keyExchange) w') :
    Outcome ctx w (.process address) (r.map .keyExchange) w' := by
  subst hr
  cases r' with
  | ok message => exact h
  | error e =>
    cases h with
    | idle saved hf hn hs => exact .idle saved (Or.inl ⟨f e, rfl⟩) hn hs
    | changed saved used hr hc hn => cases hc

/-- **Offering a key exchange** writes nothing, or the current state carries the offer. -/
theorem process_outcome {address : Addr} {r : Except SgError (KeyExchangeMessage Pub B)}
    (h : sessionBuilderProcess ctx address w = (r, w')) :
    Outcome ctx w (.process address) (r.map .keyExchange) w' := by
  simp only [sessionBuilderProcess, Threaded.sessionBuilderProcess, Program.run_eqs] at h
  obtain ⟨r', h, hr⟩ := Op.mapError_cases h
  refine .of_mapError hr ?_
  rcases Op.bind_cases h with ⟨e, hx, he⟩ | ⟨value, w₁, hx, h₁⟩
  · exact .of_onlyDraws he
      (.of_moves (onlyDraws_atRandom ((moves_draw _).bind fun _ => .pure _)) hx)
  obtain ⟨_, -, -, rfl⟩ := atRandom_draw_ok hx
  rcases Op.bind_cases h₁ with ⟨e, hx, he⟩ | ⟨base, w₂, hx, h₂⟩
  · exact .of_drawn he 1 (.of_moves (onlyDraws_atRandom (moves_generate _ _)) hx)
  obtain ⟨b, hb, rfl, rfl⟩ := atRandom_draw_ok hx
  rcases Op.bind_cases h₂ with ⟨e, hx, he⟩ | ⟨ratchet, w₃, hx, h₃⟩
  · exact .of_drawn he 2 (.of_moves (onlyDraws_atRandom (moves_generate _ _)) hx)
  obtain ⟨k, hk, rfl, rfl⟩ := atRandom_draw_ok hx
  rcases Op.bind_cases h₃ with ⟨e, hx, he⟩ | ⟨identity, w₄, hx, h₄⟩
  · cases hx
  cases hx
  rcases Op.bind_cases h₄ with ⟨e, hx, he⟩ | ⟨signature, w₅, hx, h₅⟩
  · exact .of_drawn he 3 (.of_moves (onlyDraws_atRandom (moves_sign _ _ _ _)) hx)
  obtain ⟨_, -, -, rfl⟩ := atRandom_draw_ok hx
  rcases Op.bind_cases h₅ with ⟨e, hx, he⟩ | ⟨_, w₆, hx, h₆⟩
  · exact .of_drawn he 4 (.of_moves (.require _ _) hx)
  obtain rfl := (Op.require_ok_iff.1 hx).2.symm
  rcases Op.bind_cases h₆ with ⟨e, hx, he⟩ | ⟨record, w₇, hload, h₇⟩
  · exact .of_drawn he 4 (.of_moves (onlyDraws_load _ _) hx)
  simp only [load_eq, World.record_at] at hload
  injection hload with hrecord hw
  subst hw
  cases h₇
  exact .changed none none hrecord (.offer hb hk) le_rfl

/-- **A key exchange message** writes nothing, or an agreed session is in front. -/
theorem keyExchange_outcome {address : Addr} {message : KeyExchangeMessage Pub B}
    {r : Except SgError (Option (KeyExchangeMessage Pub B))}
    (h : sessionBuilderProcessKeyExchangeMessage ctx address message w = (r, w')) :
    Outcome ctx w (.processKeyExchangeMessage address message)
      (r.map fun response => response.elim .nothing .keyExchange) w' := by
  rw [processKeyExchangeMessage_eq] at h
  have hmoves := onlyDraws_agreedSession ctx address message
  rcases Op.bind_cases h with ⟨e, hx, he⟩ | ⟨_ | agreed, w₁, hx, h₁⟩
  · exact .of_onlyDraws he (.of_moves hmoves hx)
  · cases h₁
    have hdraws := OnlyDraws.of_moves hmoves hx
    rw [hdraws.eq]
    exact .idle none (Or.inr trivial) hdraws.drawn nofun
  · obtain ⟨record, n, ha, rfl⟩ := agreedSession_iff.1 hx
    cases hi : message.isInitiate with
    | true =>
      rw [writeAgreed_initiate hi] at h₁
      cases h₁
      exact .changed (some message.identityKey) none ha.2.1 (.agree ha (Or.inl rfl))
        (Nat.le_succ _)
    | false =>
      rw [writeAgreed_response hi agreed ha.state.1] at h₁
      cases hcheck : message.checkSignature ctx.provider with
      | ok u =>
        simp only [hcheck] at h₁
        cases h₁
        exact .changed (some message.identityKey) none ha.2.1 (.agree ha (Or.inl rfl)) le_rfl
      | error e =>
        simp only [hcheck] at h₁
        cases h₁
        refine .changed none none ha.2.1 (.agree ha (Or.inr ⟨rfl, hi, ?_⟩)) le_rfl
        rw [hcheck]
        exact nofun

omit [DecidableEq Addr] [DecidableEq B] in
/-- The builder's half of a pre-key message reads only. -/
theorem processV3_outcome {record : SessionRecord Priv Pub B} {m : PreKeySignalMessage Pub B}
    {r : Except SgError (SessionRecord Priv Pub B × Option UInt32)}
    (hroom : record.makeRoom.state = SessionState.create)
    (h : sessionBuilderProcessPreKeySignalMessageV3 ctx record m w = (r, w')) :
    w' = w ∧ ((∃ e, r = .error e) ∨
      ∃ built used, r = .ok (built, used) ∧ Built ctx w record m built used) := by
  simp only [sessionBuilderProcessPreKeySignalMessageV3,
    Threaded.sessionBuilderProcessPreKeySignalMessageV3, Program.run_eqs] at h
  split at h
  · rename_i hknown
    cases h
    exact ⟨rfl, Or.inr ⟨record, none, rfl, .known hknown⟩⟩
  · rename_i hnew
    rcases Op.bind_cases h with ⟨e, hx, rfl⟩ | ⟨signedPreKey, w₁, hx, h₁⟩
    · exact ⟨loadSigned_world hx, Or.inl ⟨e, rfl⟩⟩
    obtain rfl := loadSigned_world hx
    obtain ⟨hsigned, -⟩ := Op.ofOption_ok_iff.1 hx
    rcases Op.bind_cases h₁ with ⟨e, hx, rfl⟩ | ⟨identity, w₂, hx, h₂⟩
    · cases hx
    cases hx
    rcases Op.bind_cases h₂ with ⟨e, hx, rfl⟩ | ⟨oneTimePreKey, w₃, hx, h₃⟩
    · exact ⟨loadOneTimePreKey_world hx, Or.inl ⟨e, rfl⟩⟩
    obtain rfl := loadOneTimePreKey_world hx
    simp only [hroom] at h₃
    cases h₃
    exact ⟨rfl, Or.inr ⟨_, _, rfl, .new hnew hsigned hx⟩⟩

omit [DecidableEq B] in
theorem builder_error {address : Addr} {record : SessionRecord Priv Pub B}
    {m : PreKeySignalMessage Pub B} {e : SgError}
    (hroom : record.makeRoom.state = SessionState.create)
    (h : sessionBuilderProcessPreKeySignalMessage ctx address record m w = (.error e, w')) :
    OnlyDraws w w' := by
  simp only [sessionBuilderProcessPreKeySignalMessage,
    Threaded.sessionBuilderProcessPreKeySignalMessage, Program.run_eqs,
    Threaded.run_processPreKeySignalMessageV3] at h
  rcases Op.bind_error_iff.1 h with hx | ⟨trusted, w₁, hx, h₁⟩
  · cases hx
  cases hx
  rcases Op.bind_error_iff.1 h₁ with hx | ⟨_, w₂, hx, h₂⟩
  · exact .of_moves (.require _ _) hx
  obtain rfl := (Op.require_ok_iff.1 hx).2.symm
  rcases Op.bind_error_iff.1 h₂ with hx | ⟨_, w₃, -, h₃⟩
  · rw [(processV3_outcome hroom hx).1]
    exact refl_of OnlyDraws w
  · cases h₃

omit [DecidableEq B] in
theorem builder_ok {address : Addr} {record built : SessionRecord Priv Pub B}
    {m : PreKeySignalMessage Pub B} {used : Option UInt32}
    (hroom : record.makeRoom.state = SessionState.create)
    (h : sessionBuilderProcessPreKeySignalMessage ctx address record m w =
      (.ok (built, used), w')) :
    ctx.trusted address (w.identities address) m.identityKey = true ∧
      w' = w.saveIdentity address m.identityKey ∧
      sessionBuilderProcessPreKeySignalMessageV3 ctx record m w = (.ok (built, used), w) := by
  simp only [sessionBuilderProcessPreKeySignalMessage,
    Threaded.sessionBuilderProcessPreKeySignalMessage, Program.run_eqs,
    Threaded.run_processPreKeySignalMessageV3] at h
  obtain ⟨trusted, w₁, hx, h₁⟩ := Op.bind_ok_iff.1 h
  cases hx
  obtain ⟨_, w₂, hx, h₂⟩ := Op.bind_ok_iff.1 h₁
  obtain ⟨ht, hw⟩ := Op.require_ok_iff.1 hx
  subst hw
  obtain ⟨result, w₃, hx, h₃⟩ := Op.bind_ok_iff.1 h₂
  obtain ⟨rfl, -⟩ := processV3_outcome hroom hx
  cases h₃
  exact ⟨ht, rfl, hx⟩

/-- **How far a pre-key message gets.**  The call fails before the builder has saved the
identity, or after that, or the inner message decrypts under the record that the builder made
and everything is written. -/
theorem decryptPreKey_cases {cipher : SessionCipher Addr Priv Pub B} (hc : cipher.Passive)
    {m : PreKeySignalMessage Pub B} {r : Except SgError B}
    (h : sessionCipherDecryptPreKeySignalMessage ctx cipher m w = (r, w')) :
    (∃ e, r = .error e ∧ OnlyDraws w w') ∨
      ∃ record built used, w.record ctx.provider cipher.remoteAddress = .ok record ∧
        ctx.trusted cipher.remoteAddress (w.identities cipher.remoteAddress)
          m.identityKey = true ∧
        sessionBuilderProcessPreKeySignalMessageV3 ctx record m w = (.ok (built, used), w) ∧
        ((∃ e, r = .error e ∧
            OnlyDraws (w.saveIdentity cipher.remoteAddress m.identityKey) w') ∨
          ∃ p record' n, r = .ok p ∧ w.drawn ≤ n ∧
            sessionCipherDecryptFromRecord ctx.provider ctx.rng built m.message w.drawn =
              (.ok (p, record'), n) ∧
            w' = w.changed ctx.provider cipher.remoteAddress record' (some m.identityKey)
              used n) := by
  simp only [sessionCipherDecryptPreKeySignalMessage,
    Threaded.sessionCipherDecryptPreKeySignalMessage, Program.run_eqs, run_drawing,
    Threaded.run_processPreKeySignalMessage, Threaded.run_decryptFromRecord,
    Threaded.run_decryptCallback] at h
  rcases Op.bind_cases h with ⟨e, hx, he⟩ | ⟨_, w₁, hx, h₁⟩
  · exact Or.inl ⟨e, he, .of_moves (.require _ _) hx⟩
  obtain rfl := (Op.require_ok_iff.1 hx).2.symm
  rcases Op.bind_cases h₁ with ⟨e, hx, he⟩ | ⟨record, w₂, hload, h₂⟩
  · exact Or.inl ⟨e, he, .of_moves (onlyDraws_load _ _) hx⟩
  rw [load_eq] at hload
  injection hload with hrecord hw
  subst hw
  rcases Op.bind_cases h₂ with ⟨e, hx, he⟩ | ⟨⟨built, used⟩, w₃, hbuild, h₃⟩
  · exact Or.inl ⟨e, he, builder_error (state_makeRoom hrecord) hx⟩
  obtain ⟨ht, rfl, hb⟩ := builder_ok (state_makeRoom hrecord) hbuild
  -- the identity is saved from here on
  refine Or.inr ⟨record, built, used, hrecord, ht, hb, ?_⟩
  have hmoves : Op.Moves OnlyDraws (atRandom (sessionCipherDecryptFromRecord ctx.provider ctx.rng
      built m.message) : Op SgError (World Addr Priv Pub B) _) :=
    onlyDraws_atRandom (moves_decryptFromRecord _ _ _ _)
  rcases Op.bind_cases h₃ with ⟨e, hx, he⟩ | ⟨⟨q, record'⟩, w₄, hdec, h₄⟩
  · exact Or.inl ⟨e, he, .of_moves hmoves hx⟩
  have hdraws := OnlyDraws.of_moves hmoves hdec
  rcases hc.callback_cases q w₄ with hcb | ⟨e, hcb⟩
  · rw [Op.bind_of_ok hcb, Op.bind_of_ok (storeSession_apply ..),
      Op.bind_of_ok (removeOneTimePreKey_apply ..)] at h₄
    cases h₄
    have hrun := atRandom_ok hdec
    refine Or.inr ⟨q, record', w₄.drawn, rfl, hdraws.drawn, hrun, ?_⟩
    rw [hdraws.eq]
    cases used <;> rfl
  · rw [Op.bind_of_error hcb] at h₄
    cases h₄
    exact Or.inl ⟨e, rfl, hdraws⟩

/-- **A pre-key message** saves at most a trusted identity, or some state has received its inner
message, a session in Bob's role perhaps being in front before that. -/
theorem decryptPreKey_outcome {cipher : SessionCipher Addr Priv Pub B} (hc : cipher.Passive)
    {m : PreKeySignalMessage Pub B} {r : Except SgError B}
    (h : sessionCipherDecryptPreKeySignalMessage ctx cipher m w = (r, w')) :
    Outcome ctx w (.decryptPreKey cipher m) (r.map .plaintext) w' := by
  rcases decryptPreKey_cases hc h with ⟨e, he, hdraws⟩ | ⟨record, built, used, hrecord, ht, hb, h⟩
  · exact .of_onlyDraws he hdraws
  rcases h with ⟨e, rfl, hdraws⟩ | ⟨p, record', n, rfl, hn, hdec, rfl⟩
  · rw [hdraws.eq]
    refine .idle (some m.identityKey) (Or.inl ⟨e, rfl⟩) hdraws.drawn fun identity hi => ?_
    cases hi
    exact ht
  · obtain ⟨-, ⟨e, he⟩ | ⟨_, _, hr, hbuilt⟩⟩ := processV3_outcome (state_makeRoom hrecord) hb
    · cases he
    cases hr
    obtain ⟨state', i, haccepted, rfl⟩ := decryptFromRecord_ok hdec
    exact .changed (some m.identityKey) _ hrecord (.respond hn ht hbuilt haccepted) le_rfl

/-- **What any call can do**, whatever the stores hold. -/
theorem Call.run_outcome (hc : c.Atomic) {r : Except SgError (Reply Pub B)}
    (h : c.run ctx w = (r, w')) : Outcome ctx w c r w' := by
  cases c with
  | processPreKeyBundle address bundle =>
    obtain ⟨r, hx, rfl⟩ := Op.bind_pure_cases h
    exact bundle_outcome hx
  | process address =>
    obtain ⟨r, hx, rfl⟩ := Op.bind_pure_cases h
    exact process_outcome hx
  | processKeyExchangeMessage address message =>
    obtain ⟨r, hx, rfl⟩ := Op.bind_pure_cases h
    exact keyExchange_outcome hx
  | decryptPreKey cipher m =>
    obtain ⟨r, hx, rfl⟩ := Op.bind_pure_cases h
    exact decryptPreKey_outcome hc hx
  | decryptSignal cipher m =>
    obtain ⟨r, hx, rfl⟩ := Op.bind_pure_cases h
    exact decryptSignal_outcome hc hx
  | encrypt cipher p =>
    obtain ⟨r, hx, rfl⟩ := Op.bind_pure_cases h
    exact encrypt_outcome hx

end Outcomes

/-! ## 4. Every stored record -/

/-- Whatever is stored is the serialization of a record with the property. -/
def World.All (ctx : SignalContext Addr Priv Pub B) (Q : SessionRecord Priv Pub B → Prop)
    (w : World Addr Priv Pub B) : Prop :=
  ∀ address stored, w.sessions address = some stored →
    ∃ record, stored = record.serialize ctx.provider ∧ Q record

section Stored

variable [DecidableEq Addr] [LinearOrder Pub] [DecidableEq B]
  {ctx : SignalContext Addr Priv Pub B} {w w' : World Addr Priv Pub B}
  {c : Call Addr Priv Pub B}

theorem Outcome.drawn_le {r : Except SgError (Reply Pub B)} (h : Outcome ctx w c r w') :
    w.drawn ≤ w'.drawn := by
  cases h with
  | idle saved hf hn hs => exact hn
  | changed saved used hr hc hn => exact hc.drawn_le.trans hn

/-- **A call leaves only records with the property** if its changes do. -/
theorem Outcome.all {Q Q' : SessionRecord Priv Pub B → Prop} {r : Except SgError (Reply Pub B)}
    (h : Outcome ctx w c r w') (hw : w.All ctx Q) (hmono : ∀ record, Q record → Q' record)
    (hchange : ∀ {record record' saved used n}, w.record ctx.provider c.address = .ok record →
      Change ctx w record c r record' saved used n → n ≤ w'.drawn → Q' record') :
    w'.All ctx Q' := by
  cases h with
  | idle saved hf hn hs =>
    intro address stored hstored
    obtain ⟨record, hrecord, hq⟩ := hw address stored
      ((congrFun (World.saveOptional_sessions ..) _).symm.trans hstored)
    exact ⟨record, hrecord, hmono record hq⟩
  | @changed record record' saved used n n' hr hc hn =>
    intro address stored hstored
    rw [World.changed_sessions] at hstored
    by_cases ha : address = c.address
    · subst ha
      rw [Function.update_self] at hstored
      exact ⟨record', (Option.some.inj hstored).symm, hchange hr hc hn⟩
    · rw [Function.update_of_ne ha] at hstored
      obtain ⟨record₁, hrecord, hq⟩ := hw address stored hstored
      exact ⟨record₁, hrecord, hmono record₁ hq⟩

end Stored

end SignalProtocol
