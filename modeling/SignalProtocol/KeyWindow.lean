/-
# The skipped keys of both ciphers (`session_cipher.c`, `group_cipher.c`)

`session_cipher_get_or_create_message_keys` and `group_cipher_get_sender_key` are two
implementations of one procedure, the one of `Lib/SkippedKeys.lean`, on two kinds of chain.
Sections 1 and 2 say so of each: `getOrCreateMessageKeys_serve` for any state with a receiver
chain, `getSenderKey_serve` for any sender key state.

So on every sequence of requests both answer as the ledger has it, each with the keys of its own
chain.
-/
import SignalProtocol.Lib.SkippedKeys
import SignalProtocol.GroupCipher
import SignalProtocol.Symbolic

namespace SignalProtocol

variable {Priv Pub B : Type}

/-- The error that a refusal is reported as. -/
def Refusal.code : Refusal → SgError
  | spent => .duplicateMessage
  | tooFar => .invalidMessage

/-! ## 1. Receiver chains -/

/-- The chain keys of a session. -/
def ratchetKeyChain (P : Provider Priv Pub B) :
    KeyChain (RatchetChainKey B) (RatchetMessageKeys B) where
  index := RatchetChainKey.index
  next := RatchetChainKey.createNext P
  key := RatchetChainKey.getMessageKeys P
  counter := RatchetMessageKeys.counter
  index_next _ := rfl
  counter_key _ := rfl

section Receiver

variable [DecidableEq Pub] {P : Provider Priv Pub B} {state : SessionState Priv Pub B}
  {key : Pub}

/-- Put a chain key and message keys in a receiver chain. -/
def ReceiverChain.withKeys (r : SkippedKeys (RatchetChainKey B) (RatchetMessageKeys B))
    (chain : ReceiverChain Pub B) : ReceiverChain Pub B :=
  { chain with chainKey := some r.chain, messageKeys := r.held }

/-- What a change of a chain that is there does depends on that chain only. -/
theorem modifyReceiverChain_congr {f g : ReceiverChain Pub B → ReceiverChain Pub B}
    {chain : ReceiverChain Pub B} (hchain : state.findReceiverChain key = some chain)
    (h : f chain = g chain) :
    state.modifyReceiverChain key f = state.modifyReceiverChain key g := by
  have hlist : ∀ l : List (ReceiverChain Pub B), l.find? (ReceiverChain.isFor key) = some chain →
      modifyFirst (ReceiverChain.isFor key) f l = modifyFirst (ReceiverChain.isFor key) g l := by
    intro l
    induction l with
    | nil => exact fun hl => absurd hl (Option.some_ne_none _).symm
    | cons c l ih =>
      intro hl
      cases hc : ReceiverChain.isFor key c with
      | true =>
        rw [List.find?_cons_of_pos hc] at hl
        obtain rfl := Option.some.inj hl
        rw [modifyFirst, modifyFirst, if_pos hc, if_pos hc, h]
      | false =>
        rw [List.find?_cons_of_neg (by simp [hc])] at hl
        rw [modifyFirst, modifyFirst, if_neg (by simp [hc]), if_neg (by simp [hc]), ih hl]
  rw [SessionState.modifyReceiverChain, SessionState.modifyReceiverChain, hlist _ hchain]

theorem modifyReceiverChain_eq_self {f : ReceiverChain Pub B → ReceiverChain Pub B}
    {chain : ReceiverChain Pub B} (hchain : state.findReceiverChain key = some chain)
    (h : f chain = chain) : state.modifyReceiverChain key f = state := by
  have hid : modifyFirst (ReceiverChain.isFor key) id state.receiverChains =
      state.receiverChains := modifyFirst_eq_self fun _ _ _ => rfl
  rw [modifyReceiverChain_congr (g := id) hchain h, SessionState.modifyReceiverChain, hid]

/-- Replace the message keys of a receiver chain. -/
def ReceiverChain.withHeld (held : List (RatchetMessageKeys B)) (chain : ReceiverChain Pub B) :
    ReceiverChain Pub B :=
  { chain with messageKeys := held }

/-- **The skipping loop** is the one of the procedure. -/
theorem skipMessageKeys_skip (P : Provider Priv Pub B) (state : SessionState Priv Pub B)
    (key : Pub) (counter : UInt32) (rounds : Nat) :
    ∀ r : SkippedKeys (RatchetChainKey B) (RatchetMessageKeys B),
      skipMessageKeys P key counter rounds r.chain
          (state.modifyReceiverChain key (ReceiverChain.withHeld r.held)) =
        (((ratchetKeyChain P).skip maxMessageKeys counter rounds r).chain,
          state.modifyReceiverChain key (ReceiverChain.withHeld
            ((ratchetKeyChain P).skip maxMessageKeys counter rounds r).held)) := by
  induction rounds with
  | zero => exact fun _ => rfl
  | succ rounds ih =>
    intro r
    have hset : (state.modifyReceiverChain key (ReceiverChain.withHeld r.held)).setMessageKeys key
        (r.chain.getMessageKeys P) = state.modifyReceiverChain key (ReceiverChain.withHeld
          ((r.held ++ [r.chain.getMessageKeys P]).rtake maxMessageKeys)) := by
      exact modifyReceiverChain_twice (f := ReceiverChain.withHeld r.held) (fun _ => rfl) state
    rw [skipMessageKeys, KeyChain.skip]
    by_cases hless : r.chain.index < counter
    · have hless' : (ratchetKeyChain P).index r.chain < counter := hless
      rw [if_pos hless, if_pos hless', hset]
      exact ih ⟨r.chain.createNext P, _⟩
    · have hless' : ¬ (ratchetKeyChain P).index r.chain < counter := hless
      rw [if_neg hless, if_neg hless']

/-- **`session_cipher_get_or_create_message_keys` is the procedure** on the chain of the key. -/
theorem getOrCreateMessageKeys_serve (P : Provider Priv Pub B) {chain : ReceiverChain Pub B}
    (hchain : state.findReceiverChain key = some chain)
    {r : SkippedKeys (RatchetChainKey B) (RatchetMessageKeys B)}
    (hr : chain.withKeys r = chain) (counter : UInt32) :
    sessionCipherGetOrCreateMessageKeys P key r.chain counter state =
      ((ratchetKeyChain P).serve maxMessageKeys 2000 counter r).map (Except.mapError Refusal.code)
        fun r' => state.modifyReceiverChain key (ReceiverChain.withKeys r') := by
  have hheld : chain.messageKeys = r.held := (congrArg ReceiverChain.messageKeys hr).symm
  have hkey : chain.chainKey = some r.chain := (congrArg ReceiverChain.chainKey hr).symm
  have hindex : (ratchetKeyChain P).index r.chain = r.chain.index := rfl
  have hunchanged : state.modifyReceiverChain key (ReceiverChain.withKeys r) = state :=
    modifyReceiverChain_eq_self hchain hr
  rw [sessionCipherGetOrCreateMessageKeys, KeyChain.serve, hindex]
  by_cases hgt : r.chain.index > counter
  · rw [if_pos hgt, if_pos hgt, Op.get_bind_apply, SessionState.removeMessageKeys, hchain]
    simp only [Option.bind_eq_bind, Option.bind_some, hheld]
    have hfind : (r.held.find? fun k => decide (k.counter = counter)) =
        r.held.find? fun k => decide ((ratchetKeyChain P).counter k = counter) := rfl
    rw [hfind]
    cases r.held.find? fun k => decide ((ratchetKeyChain P).counter k = counter) with
    | none => exact congrArg (Prod.mk (Except.error SgError.duplicateMessage)) hunchanged.symm
    | some k =>
      refine congrArg (Prod.mk (Except.ok k)) (modifyReceiverChain_congr hchain ?_)
      rw [ReceiverChain.withKeys, hheld]
      dsimp only
      rw [← hkey]
      rfl
  · rw [if_neg hgt, if_neg hgt]
    by_cases hfar : counter - r.chain.index > 2000
    · rw [if_pos hfar, if_pos hfar]
      exact congrArg (Prod.mk (Except.error SgError.invalidMessage)) hunchanged.symm
    · have hself : state.modifyReceiverChain key (ReceiverChain.withHeld r.held) = state :=
        modifyReceiverChain_eq_self hchain (by rw [ReceiverChain.withHeld, ← hheld])
      have hskip := skipMessageKeys_skip P state key counter (counter - r.chain.index).toNat r
      rw [hself] at hskip
      rw [if_neg hfar, if_neg hfar, Op.update_bind_apply, hskip, Op.get_bind_apply]
      generalize (ratchetKeyChain P).skip maxMessageKeys counter
        (counter - r.chain.index).toNat r = skipped
      have hset : (state.modifyReceiverChain key (ReceiverChain.withHeld skipped.held)
          ).setReceiverChainKey key (skipped.chain.createNext P) =
          .ok (state.modifyReceiverChain key
            (ReceiverChain.withKeys { skipped with chain := skipped.chain.createNext P })) :=
        setReceiverChainKey_modify (fun _ => rfl) (by rw [hchain]; rfl)
      dsimp only
      rw [hset]
      rfl

/-- Without a chain for the key the loop sets nothing aside. -/
theorem skipMessageKeys_of_none (P : Provider Priv Pub B) (counter : UInt32)
    (hchain : state.findReceiverChain key = none) (rounds : Nat) (chainKey : RatchetChainKey B) :
    (skipMessageKeys P key counter rounds chainKey state).2 = state := by
  induction rounds generalizing chainKey with
  | zero => rfl
  | succ rounds ih =>
    have hnone : ∀ c ∈ state.receiverChains, ¬ ReceiverChain.isFor key c = true :=
      List.find?_eq_none.1 hchain
    have hset : state.setMessageKeys key (chainKey.getMessageKeys P) = state := by
      rw [SessionState.setMessageKeys, SessionState.modifyReceiverChain,
        modifyFirst_eq_self fun c hc hfor => absurd hfor (hnone c hc)]
    rw [skipMessageKeys, hset]
    split
    · exact ih _
    · rfl

/-- **A call that fails leaves the state as it was**, whatever the state. -/
theorem getOrCreateMessageKeys_unchanged {P : Provider Priv Pub B} {chainKey : RatchetChainKey B}
    {counter : UInt32} {e : SgError}
    (h : (sessionCipherGetOrCreateMessageKeys P key chainKey counter state).1 = .error e) :
    (sessionCipherGetOrCreateMessageKeys P key chainKey counter state).2 = state := by
  unfold sessionCipherGetOrCreateMessageKeys at h ⊢
  split_ifs at h ⊢ with hindex hfar
  · rw [Op.get_bind_apply] at h ⊢
    cases hremove : state.removeMessageKeys key counter with
    | none => rfl
    | some result =>
      rw [hremove] at h
      cases h
  · rfl
  · -- the loop is over: only a chain that is not there makes the last step fail
    rw [Op.update_bind_apply, Op.get_bind_apply] at h ⊢
    cases hfind : state.findReceiverChain key with
    | none =>
      rw [skipMessageKeys_of_none P counter hfind] at h ⊢
      rw [SessionState.setReceiverChainKey, hfind]
      rfl
    | some chain =>
      have hself : state.modifyReceiverChain key (ReceiverChain.withHeld chain.messageKeys) =
          state := modifyReceiverChain_eq_self hfind rfl
      have hskip := skipMessageKeys_skip P state key counter (counter - chainKey.index).toNat
        ⟨chainKey, chain.messageKeys⟩
      rw [hself] at hskip
      rw [hskip] at h
      dsimp only at h
      rw [setReceiverChainKey_modify (f := ReceiverChain.withHeld _) (fun _ => rfl)
        (by rw [hfind]; rfl)] at h
      cases h

end Receiver

/-! ## 2. Sender key states -/

/-- The chain keys of a sender key. -/
def senderKeyChain (P : Provider Priv Pub B) :
    KeyChain (SenderChainKey B) (SenderMessageKey B) where
  index := SenderChainKey.iteration
  next := SenderChainKey.createNext P
  key := SenderChainKey.createMessageKey P
  counter := SenderMessageKey.iteration
  index_next _ := rfl
  counter_key _ := rfl

section Sender

/-- Put a chain key and message keys in a sender key state. -/
def SenderKeyState.withKeys (state : SenderKeyState Priv Pub B)
    (r : SkippedKeys (SenderChainKey B) (SenderMessageKey B)) : SenderKeyState Priv Pub B :=
  { state with chainKey := r.chain, messageKeys := r.held }

theorem skipSenderKeys_skip (P : Provider Priv Pub B) (iteration : UInt32) (rounds : Nat) :
    ∀ (r : SkippedKeys (SenderChainKey B) (SenderMessageKey B))
      (state : SenderKeyState Priv Pub B), state.messageKeys = r.held →
      skipSenderKeys P iteration rounds r.chain state =
        (((senderKeyChain P).skip senderMaxMessageKeys iteration rounds r).chain,
          { state with messageKeys :=
              ((senderKeyChain P).skip senderMaxMessageKeys iteration rounds r).held }) := by
  induction rounds with
  | zero =>
    intro r state hheld
    rw [skipSenderKeys, KeyChain.skip, ← hheld]
  | succ rounds ih =>
    intro r state hheld
    have hindex : (senderKeyChain P).index r.chain = r.chain.iteration := rfl
    rw [skipSenderKeys, KeyChain.skip, hindex]
    by_cases hless : r.chain.iteration < iteration
    · have hkey : (senderKeyChain P).key r.chain = r.chain.createMessageKey P := rfl
      have hnext : (senderKeyChain P).next r.chain = r.chain.createNext P := rfl
      have hrest := ih ⟨r.chain.createNext P,
        (r.held ++ [r.chain.createMessageKey P]).rtake senderMaxMessageKeys⟩
        (state.addSenderMessageKey (r.chain.createMessageKey P))
        (by rw [SenderKeyState.addSenderMessageKey, hheld])
      rw [if_pos hless, if_pos hless, hkey, hnext, hrest, SenderKeyState.addSenderMessageKey]
    · rw [if_neg hless, if_neg hless, ← hheld]

/-- **`group_cipher_get_sender_key` is the procedure** on the chain of the state. -/
theorem getSenderKey_serve (P : Provider Priv Pub B) (state : SenderKeyState Priv Pub B)
    (iteration : UInt32) :
    groupCipherGetSenderKey P iteration state =
      ((senderKeyChain P).serve senderMaxMessageKeys maxFutureMessages iteration
        ⟨state.chainKey, state.messageKeys⟩).map (Except.mapError Refusal.code) state.withKeys := by
  have hindex : (senderKeyChain P).index state.chainKey = state.chainKey.iteration := rfl
  rw [groupCipherGetSenderKey, KeyChain.serve, Op.get_bind_apply]
  dsimp only
  rw [hindex]
  by_cases hgt : state.chainKey.iteration > iteration
  · rw [if_pos hgt, if_pos hgt]
    have hfind : (state.messageKeys.find? fun k =>
        decide ((senderKeyChain P).counter k = iteration)) =
        state.messageKeys.find? fun k => decide (k.iteration = iteration) := rfl
    rw [hfind, SenderKeyState.hasSenderMessageKey]
    cases h : state.messageKeys.find? fun k => decide (k.iteration = iteration) with
    | none =>
      have hany : (state.messageKeys.any fun k => decide (k.iteration = iteration)) = false := by
        rw [List.any_eq_false]
        exact List.find?_eq_none.1 h
      rw [hany]
      rfl
    | some k =>
      have hany : (state.messageKeys.any fun k => decide (k.iteration = iteration)) = true :=
        List.any_eq_true.2 ⟨k, List.mem_of_find?_eq_some h,
          List.find?_some (p := fun k : SenderMessageKey B => decide (k.iteration = iteration)) h⟩
      rw [hany, if_pos rfl, Op.update_bind_apply, SenderKeyState.removeSenderMessageKey, h]
      rfl
  · rw [if_neg hgt, if_neg hgt]
    by_cases hfar : iteration - state.chainKey.iteration > maxFutureMessages
    · rw [if_pos hfar, if_pos hfar]
      rfl
    · rw [if_neg hfar, if_neg hfar, Op.update_bind_apply, skipSenderKeys_skip P iteration _
        ⟨state.chainKey, state.messageKeys⟩ state rfl]
      rfl

/-- **A call that fails leaves the state as it was.** -/
theorem getSenderKey_unchanged {P : Provider Priv Pub B} {state : SenderKeyState Priv Pub B}
    {iteration : UInt32} {e : SgError}
    (h : (groupCipherGetSenderKey P iteration state).1 = .error e) :
    (groupCipherGetSenderKey P iteration state).2 = state := by
  rw [getSenderKey_serve] at h ⊢
  cases hserve : ((senderKeyChain P).serve senderMaxMessageKeys maxFutureMessages iteration
      ⟨state.chainKey, state.messageKeys⟩).1 with
  | error refusal => exact congrArg state.withKeys (KeyChain.serve_unchanged hserve)
  | ok k =>
    rw [Prod.map_fst, hserve] at h
    cases h

end Sender

/-! ## 3. Sequences of requests -/

section Requests

variable [DecidableEq Pub]

/-- A request to the receiver chain of a key, with the chain key that the chain has. -/
def receiverChainServe (P : Provider Priv Pub B) (key : Pub) (counter : UInt32) :
    Op SgError (SessionState Priv Pub B) (RatchetMessageKeys B) := do
  let state ← Op.get
  let chainKey ← Op.ofOption .unknown (state.getReceiverChainKey key)
  sessionCipherGetOrCreateMessageKeys P key chainKey counter

/-- **A request that is refused leaves the state as it was.** -/
theorem receiverChainServe_unchanged {P : Provider Priv Pub B} {key : Pub} {counter : UInt32}
    {state : SessionState Priv Pub B} {e : SgError}
    (h : (receiverChainServe P key counter state).1 = .error e) :
    (receiverChainServe P key counter state).2 = state := by
  unfold receiverChainServe at h ⊢
  rw [Op.get_bind_apply] at h ⊢
  cases hkey : state.getReceiverChainKey key with
  | none => rfl
  | some chainKey =>
    rw [hkey, Op.ofOption_some, Op.pure_bind_apply] at h
    exact getOrCreateMessageKeys_unchanged h

/-- The chain of a key has this chain key and these message keys; all else is as in `base`. -/
structure ReceiverChainIs (key : Pub) (base state : SessionState Priv Pub B)
    (r : SkippedKeys (RatchetChainKey B) (RatchetMessageKeys B)) : Prop where
  found : (base.findReceiverChain key).isSome
  state_eq : state = base.modifyReceiverChain key (ReceiverChain.withKeys r)

/-- The state of a sender key has these keys; all else is as in `base`. -/
def SenderKeyIs (base state : SenderKeyState Priv Pub B)
    (r : SkippedKeys (SenderChainKey B) (SenderMessageKey B)) : Prop :=
  state = base.withKeys r

theorem ReceiverChainIs.chain {key : Pub} {base state : SessionState Priv Pub B}
    {r : SkippedKeys (RatchetChainKey B) (RatchetMessageKeys B)}
    (h : ReceiverChainIs key base state r) :
    ∃ chain, state.findReceiverChain key = some chain ∧ chain.withKeys r = chain := by
  obtain ⟨chain, hchain⟩ := Option.isSome_iff_exists.1 h.found
  refine ⟨chain.withKeys r, ?_, rfl⟩
  have hfind := find?_modifyFirst (p := ReceiverChain.isFor key) (f := ReceiverChain.withKeys r)
    (fun _ hc => hc) base.receiverChains
  rw [h.state_eq]
  exact hfind.trans (congrArg (Option.map _) hchain)

/-- **One request to a receiver chain** is answered as the ledger has it. -/
theorem receiverChainServe_agree {P : Provider Priv Pub B} {key : Pub}
    {base state : SessionState Priv Pub B} {origin : RatchetChainKey B} {l : KeyLedger}
    (h : ∃ r, ReceiverChainIs key base state r ∧
      (ratchetKeyChain P).InStep maxMessageKeys origin r l)
    (counter : UInt32) (hc : counter.toNat + 1 < 2 ^ 32) :
    Agree (fun state l => ∃ r, ReceiverChainIs key base state r ∧
        (ratchetKeyChain P).InStep maxMessageKeys origin r l) Refusal.code
      (receiverChainServe P key counter state)
      ((ratchetKeyChain P).serveByLedger origin maxMessageKeys 2000 counter l) := by
  obtain ⟨r, hstate, hr⟩ := h
  obtain ⟨chain, hchain, hkeys⟩ := hstate.chain
  have hkey : state.getReceiverChainKey key = some r.chain := by
    rw [SessionState.getReceiverChainKey, hchain, ← hkeys]
    rfl
  have hcap : 0 < maxMessageKeys := by
    unfold maxMessageKeys
    decide
  have hserve := hr.serve hcap 2000 hc
  rw [receiverChainServe, Op.get_bind_apply, hkey, Op.ofOption_some, Op.pure_bind_apply,
    getOrCreateMessageKeys_serve P hchain hkeys]
  generalize (ratchetKeyChain P).serve maxMessageKeys 2000 counter r = answer at hserve
  generalize hbooks : (ratchetKeyChain P).serveByLedger origin maxMessageKeys
    (2000 : UInt32).toNat counter l = booked at hserve
  have hbooks' : (ratchetKeyChain P).serveByLedger origin maxMessageKeys 2000 counter l = booked :=
    hbooks
  rw [hbooks']
  cases hserve with
  | @ok k r' l' h' =>
    refine .ok ⟨r', ⟨hstate.found, ?_⟩, h'⟩
    rw [hstate.state_eq]
    exact modifyReceiverChain_twice (f := ReceiverChain.withKeys r) (fun _ => rfl) base
  | @error e r' l' h' =>
    refine .error e ⟨r', ⟨hstate.found, ?_⟩, h'⟩
    rw [hstate.state_eq]
    exact modifyReceiverChain_twice (f := ReceiverChain.withKeys r) (fun _ => rfl) base

omit [DecidableEq Pub] in
/-- **One request to a sender key state** is answered as the ledger has it. -/
theorem getSenderKey_agree {P : Provider Priv Pub B} {base state : SenderKeyState Priv Pub B}
    {origin : SenderChainKey B} {l : KeyLedger}
    (h : ∃ r, SenderKeyIs base state r ∧
      (senderKeyChain P).InStep senderMaxMessageKeys origin r l)
    (iteration : UInt32) (hc : iteration.toNat + 1 < 2 ^ 32) :
    Agree (fun state l => ∃ r, SenderKeyIs base state r ∧
        (senderKeyChain P).InStep senderMaxMessageKeys origin r l) Refusal.code
      (groupCipherGetSenderKey P iteration state)
      ((senderKeyChain P).serveByLedger origin senderMaxMessageKeys 2000 iteration l) := by
  obtain ⟨r, hstate, hr⟩ := h
  have hcap : 0 < senderMaxMessageKeys := Nat.zero_lt_succ 1999
  have hserve := hr.serve hcap maxFutureMessages hc
  have hstate' : (⟨state.chainKey, state.messageKeys⟩ :
      SkippedKeys (SenderChainKey B) (SenderMessageKey B)) = r := by rw [hstate]; rfl
  rw [getSenderKey_serve, hstate']
  generalize (senderKeyChain P).serve senderMaxMessageKeys maxFutureMessages iteration r =
    answer at hserve
  generalize hbooks : (senderKeyChain P).serveByLedger origin senderMaxMessageKeys
    maxFutureMessages.toNat iteration l = booked at hserve
  have hbooks' : (senderKeyChain P).serveByLedger origin senderMaxMessageKeys 2000 iteration l =
      booked := hbooks
  rw [hbooks']
  cases hserve with
  | @ok k r' l' h' => exact .ok ⟨r', by rw [SenderKeyIs, hstate]; rfl, h'⟩
  | @error e r' l' h' => exact .error e ⟨r', by rw [SenderKeyIs, hstate]; rfl, h'⟩

/-- The answers to a sequence of requests to a receiver chain. -/
def receiverChainAnswers (P : Provider Priv Pub B) (key : Pub) (state : SessionState Priv Pub B)
    (requests : List UInt32) :
    List (Except SgError (RatchetMessageKeys B)) × SessionState Priv Pub B :=
  serveAll (receiverChainServe P key) state requests

/-- The answers to a sequence of requests to a sender key state. -/
def senderKeyAnswers (P : Provider Priv Pub B) (state : SenderKeyState Priv Pub B)
    (requests : List UInt32) :
    List (Except SgError (SenderMessageKey B)) × SenderKeyState Priv Pub B :=
  serveAll (groupCipherGetSenderKey P) state requests

theorem receiverChainAnswers_eq (P : Provider Priv Pub B) {state : SessionState Priv Pub B}
    {key : Pub} {chain : ReceiverChain Pub B} {k₀ : RatchetChainKey B}
    (hchain : state.findReceiverChain key = some chain) (hk₀ : chain.chainKey = some k₀)
    (hnone : chain.messageKeys = []) {requests : List UInt32}
    (hr : ∀ c ∈ requests, c.toNat < 2 ^ 32 - 1) :
    (receiverChainAnswers P key state requests).1 =
        ((ratchetKeyChain P).booked 2000 2000 k₀ requests).1.map (Except.mapError Refusal.code) ∧
      ∃ r, (receiverChainAnswers P key state requests).2 =
          state.modifyReceiverChain key (ReceiverChain.withKeys r) ∧
        (ratchetKeyChain P).Tracks k₀ r ((ratchetKeyChain P).booked 2000 2000 k₀ requests).2 := by
  have hcap : maxMessageKeys = 2000 := by unfold maxMessageKeys; rfl
  have hself : state.modifyReceiverChain key (ReceiverChain.withKeys ⟨k₀, []⟩) = state :=
    modifyReceiverChain_eq_self hchain (by rw [ReceiverChain.withKeys, ← hk₀, ← hnone])
  have hstart : ∃ r, ReceiverChainIs key state state r ∧ (ratchetKeyChain P).InStep maxMessageKeys
      k₀ r (.start ((ratchetKeyChain P).index k₀).toNat) :=
    ⟨⟨k₀, []⟩, ⟨by rw [hchain]; rfl, hself.symm⟩, .start ..⟩
  obtain ⟨hanswers, r, hstate, hbooks⟩ := serveAll_agree requests
    (fun s t c hc h => receiverChainServe_agree (P := P) h c (Nat.add_lt_of_lt_sub (hr c hc)))
    hstart
  rw [hcap] at hanswers hbooks
  exact ⟨hanswers, r, hstate.state_eq, hbooks.tracks⟩

omit [DecidableEq Pub] in
theorem senderKeyAnswers_eq (P : Provider Priv Pub B) {state : SenderKeyState Priv Pub B}
    (hnone : state.messageKeys = []) {requests : List UInt32}
    (hr : ∀ c ∈ requests, c.toNat < 2 ^ 32 - 1) :
    (senderKeyAnswers P state requests).1 =
        ((senderKeyChain P).booked 2000 2000 state.chainKey requests).1.map
          (Except.mapError Refusal.code) ∧
      ∃ r, (senderKeyAnswers P state requests).2 = state.withKeys r ∧
        (senderKeyChain P).Tracks state.chainKey r
          ((senderKeyChain P).booked 2000 2000 state.chainKey requests).2 := by
  have hstart : ∃ r, SenderKeyIs state state r ∧
      (senderKeyChain P).InStep senderMaxMessageKeys state.chainKey r
        (.start ((senderKeyChain P).index state.chainKey).toNat) :=
    ⟨⟨state.chainKey, []⟩, by rw [SenderKeyIs, SenderKeyState.withKeys, ← hnone], .start ..⟩
  obtain ⟨hanswers, r, hstate, hbooks⟩ := serveAll_agree requests
    (fun s t c hc h => getSenderKey_agree (P := P) h c (Nat.add_lt_of_lt_sub (hr c hc))) hstart
  exact ⟨hanswers, r, hstate, hbooks.tracks⟩

/-- **The skipped keys are exact in both implementations.**  From a chain with no skipped keys,
both answer any requests as the ledger has it, with the keys of the chain advanced to the number
and the errors for what is refused; chain and skipped keys are those on the books; and from the
same first number both grant and refuse the same requests.  A request that is refused, by
whatever state, leaves the state as it was. -/
theorem skipped_keys_exact (P : Provider Priv Pub B) {state : SessionState Priv Pub B} {key : Pub}
    {chain : ReceiverChain Pub B} {k₀ : RatchetChainKey B}
    (hchain : state.findReceiverChain key = some chain) (hk₀ : chain.chainKey = some k₀)
    (hnone : chain.messageKeys = []) {sender : SenderKeyState Priv Pub B}
    (hsender : sender.messageKeys = []) (hn₀ : sender.chainKey.iteration = k₀.index)
    {requests : List UInt32} (hr : ∀ c ∈ requests, c.toNat < 2 ^ 32 - 1) :
    (receiverChainAnswers P key state requests).1 =
        ((ratchetKeyChain P).booked 2000 2000 k₀ requests).1.map (Except.mapError Refusal.code) ∧
      (senderKeyAnswers P sender requests).1 =
        ((senderKeyChain P).booked 2000 2000 sender.chainKey requests).1.map
          (Except.mapError Refusal.code) ∧
      (receiverChainAnswers P key state requests).1.map (Except.map fun _ => ()) =
        (senderKeyAnswers P sender requests).1.map (Except.map fun _ => ()) ∧
      (∃ r, (receiverChainAnswers P key state requests).2 =
          state.modifyReceiverChain key (ReceiverChain.withKeys r) ∧
        (ratchetKeyChain P).Tracks k₀ r ((ratchetKeyChain P).booked 2000 2000 k₀ requests).2) ∧
      (∃ r, (senderKeyAnswers P sender requests).2 = sender.withKeys r ∧
        (senderKeyChain P).Tracks sender.chainKey r
          ((senderKeyChain P).booked 2000 2000 sender.chainKey requests).2) ∧
      (∀ (s : SessionState Priv Pub B) (c : UInt32) (e : SgError),
        (receiverChainServe P key c s).1 = .error e → (receiverChainServe P key c s).2 = s) ∧
      ∀ (s : SenderKeyState Priv Pub B) (c : UInt32) (e : SgError),
        (groupCipherGetSenderKey P c s).1 = .error e →
          (groupCipherGetSenderKey P c s).2 = s := by
  obtain ⟨hreceiver, hreceiverState⟩ := receiverChainAnswers_eq P hchain hk₀ hnone hr
  obtain ⟨hgroup, hgroupState⟩ := senderKeyAnswers_eq P hsender hr
  have hindex : (ratchetKeyChain P).index k₀ = (senderKeyChain P).index sender.chainKey := hn₀.symm
  have hcodes : ∀ {K : Type} (answers : List (Except Refusal K)),
      (answers.map (Except.mapError Refusal.code)).map (Except.map fun _ => ()) =
        (answers.map (Except.map fun _ => ())).map (Except.mapError Refusal.code) := by
    intro K answers
    rw [List.map_map, List.map_map]
    refine List.map_congr_left fun answer _ => ?_
    cases answer with
    | ok k => rfl
    | error e => rfl
  refine ⟨hreceiver, hgroup, ?_, hreceiverState, hgroupState,
    fun s c e => receiverChainServe_unchanged, fun s c e => getSenderKey_unchanged⟩
  rw [hreceiver, hgroup, hcodes, hcodes, KeyChain.forget_booked 2000 hindex]

/-- A session that has one receiver chain, with this chain key. -/
def sampleReceiving (chainKey : RatchetChainKey Term) : SessionState Nat Nat Term :=
  { SessionState.create with receiverChains := [⟨some 7, some chainKey, []⟩] }

/-- A sender key state with this chain key. -/
def sampleSenderKey (chainKey : SenderChainKey Term) : SenderKeyState Nat Nat Term :=
  .create 1 chainKey 5 none

theorem skipped_keys_exact_skip_and_repeat :
    (receiverChainAnswers symbolic 7 (sampleReceiving ⟨⟨1⟩, .bytes 0 32, 3⟩) [5, 3, 3, 9000]).1 =
        ((ratchetKeyChain symbolic).booked 2000 2000 ⟨⟨1⟩, .bytes 0 32, 3⟩ [5, 3, 3, 9000]).1.map
          (Except.mapError Refusal.code) ∧
      (receiverChainAnswers symbolic 7 (sampleReceiving ⟨⟨1⟩, .bytes 0 32, 3⟩)
          [5, 3, 3, 9000]).1.map (Except.map fun _ => ()) =
        (senderKeyAnswers symbolic (sampleSenderKey ⟨3, .bytes 0 32⟩) [5, 3, 3, 9000]).1.map
          (Except.map fun _ => ()) := by
  have hchain : (sampleReceiving ⟨⟨1⟩, .bytes 0 32, 3⟩).findReceiverChain 7 =
    some ⟨some 7, some ⟨⟨1⟩, .bytes 0 32, 3⟩, []⟩ := rfl
  have hkeys : (sampleSenderKey ⟨3, .bytes 0 32⟩).messageKeys = [] := rfl
  have hbelow : ∀ c ∈ [(5 : UInt32), 3, 3, 9000], c.toNat < 2 ^ 32 - 1 := by simp
  have hexact := skipped_keys_exact symbolic hchain rfl rfl hkeys rfl hbelow
  exact ⟨hexact.1, hexact.2.2.1⟩

end Requests

end SignalProtocol
