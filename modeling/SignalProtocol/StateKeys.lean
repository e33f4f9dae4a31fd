/-
# The keys that a state is made of

Every root key, chain key and message key in a state comes out of one of the derivations of
`ratchet.c`, and what a state has room for is limited.  So whatever these derivations keep to,
all the keys of a state keep to, in every record that the library stores.

* section 1: `KeyRules` are predicates on the keys of a state, and `KeyRules.Closed` says that
  the derivations respect them;
* section 2: a state that obeys the rules still does after it has sent or received;
* section 3: hence the record that a call stores obeys the rules if the one it loaded does
  (`Change.obeys`), whatever the call was;
* section 4: what storage asks of a state are such rules, so every record that a call stores can
  be read back (`Change.readable`).

Nothing is assumed about counters, about the origin of messages or about random numbers.
-/
import SignalProtocol.Calls
import Mathlib.Data.ENat.Basic

namespace SignalProtocol

variable {Addr Priv Pub B : Type}

/-! ## 1. Rules -/

/-- What the keys of a state have to satisfy at a session version, and how many receiver chains
and skipped message keys there may be. -/
structure KeyRules (B : Type) where
  rootKey : UInt32 → RatchetRootKey B → Prop
  chainKey : UInt32 → RatchetChainKey B → Prop
  messageKeys : RatchetMessageKeys B → Prop
  chains : ℕ∞
  skipped : ℕ∞

/-- The rules for one receiver chain. -/
structure ReceiverChain.Obeys (R : KeyRules B) (version : UInt32) (c : ReceiverChain Pub B) :
    Prop where
  chainKey : ∀ k ∈ c.chainKey, R.chainKey version k
  messageKeys : ∀ k ∈ c.messageKeys, R.messageKeys k
  skipped : c.messageKeys.length ≤ R.skipped

/-- **The keys of the state keep to the rules.** -/
structure SessionState.Obeys (R : KeyRules B) (state : SessionState Priv Pub B) : Prop where
  rootKey : ∀ k ∈ state.rootKey, R.rootKey state.sessionVersion k
  senderChain : ∀ c ∈ state.senderChain, ∀ k ∈ c.chainKey, R.chainKey state.sessionVersion k
  receiverChains : ∀ c ∈ state.receiverChains, c.Obeys R state.sessionVersion
  chains : state.receiverChains.length ≤ R.chains

/-- All states of the record do. -/
def SessionRecord.Obeys (R : KeyRules B) (record : SessionRecord Priv Pub B) : Prop :=
  ∀ state ∈ record.states, state.Obeys R

/-- **The derivations respect the rules**, and so does copying a state. -/
structure KeyRules.Closed (R : KeyRules B) (P : Provider Priv Pub B) : Prop where
  initial : ∀ secret, R.rootKey 3 (ratchetingSessionCalculateDerivedKeys P secret).1 ∧
    R.chainKey 3 (ratchetingSessionCalculateDerivedKeys P secret).2
  createChain : ∀ {version k}, R.rootKey version k → ∀ their our,
    R.rootKey version (k.createChain P their our).1 ∧
      R.chainKey version (k.createChain P their our).2
  createNext : ∀ {version k}, R.chainKey version k → R.chainKey version (k.createNext P)
  getMessageKeys : ∀ {version k}, R.chainKey version k → R.messageKeys (k.getMessageKeys P)
  chains : maxReceiverChains ≤ R.chains
  skipped : maxMessageKeys ≤ R.skipped
  copy : ∀ {state state' : SessionState Priv Pub B}, state.Obeys R → state.copy P = .ok state' →
    state'.Obeys R

theorem SessionState.obeys_create (R : KeyRules B) :
    (SessionState.create : SessionState Priv Pub B).Obeys R where
  rootKey := by simp [create]
  senderChain := by simp [create]
  receiverChains := by simp [create]
  chains := by simp [create]

/-! ## 2. Sending and receiving -/

section States

variable {R : KeyRules B} {P : Provider Priv Pub B} {state state' : SessionState Priv Pub B}

theorem SessionState.Obeys.addReceiverChain (h : state.Obeys R)
    (hR : (maxReceiverChains : ℕ∞) ≤ R.chains) (key : Pub) {chainKey : RatchetChainKey B}
    (hk : R.chainKey state.sessionVersion chainKey) :
    (state.addReceiverChain key chainKey).Obeys R where
  rootKey := h.rootKey
  senderChain := h.senderChain
  receiverChains c hc := by
    rcases List.mem_append.1 (List.mem_of_mem_drop hc) with hc | hc
    · exact h.receiverChains c hc
    · rw [List.mem_singleton.1 hc]
      refine ⟨?_, fun k hk => absurd hk List.not_mem_nil, bot_le⟩
      rintro k ⟨⟩
      exact hk
  chains := le_trans (Nat.cast_le.2 (Session.length_rtake_le ..)) hR

variable [DecidableEq Pub]

/-- A write to a chain, if it keeps the chain in order. -/
theorem SessionState.Obeys.modifyReceiverChain (h : state.Obeys R) (key : Pub)
    {f : ReceiverChain Pub B → ReceiverChain Pub B}
    (hf : ∀ c, c.Obeys R state.sessionVersion → (f c).Obeys R state.sessionVersion) :
    (state.modifyReceiverChain key f).Obeys R where
  rootKey := h.rootKey
  senderChain := h.senderChain
  receiverChains c hc := by
    rcases mem_modifyFirst hc with hc | ⟨d, hd, rfl⟩
    · exact h.receiverChains c hc
    · exact hf d (h.receiverChains d hd)
  chains := by
    rw [SessionState.modifyReceiverChain, length_modifyFirst]
    exact h.chains

theorem SessionState.Obeys.setMessageKeys (h : state.Obeys R)
    (hR : (maxMessageKeys : ℕ∞) ≤ R.skipped) (key : Pub) {keys : RatchetMessageKeys B}
    (hk : R.messageKeys keys) : (state.setMessageKeys key keys).Obeys R := by
  refine h.modifyReceiverChain key fun c hc => ⟨hc.chainKey, fun k hmem => ?_, ?_⟩
  · rcases List.mem_append.1 (List.mem_of_mem_drop hmem) with hmem | hmem
    · exact hc.messageKeys k hmem
    · rw [List.mem_singleton.1 hmem]
      exact hk
  · exact le_trans (Nat.cast_le.2 (Session.length_rtake_le ..)) hR

theorem SessionState.Obeys.setReceiverChainKey (h : state.Obeys R) {key : Pub}
    {chainKey : RatchetChainKey B} (hk : R.chainKey state.sessionVersion chainKey)
    (hset : state.setReceiverChainKey key chainKey = .ok state') :
    state'.Obeys R ∧ state'.sessionVersion = state.sessionVersion := by
  unfold SessionState.setReceiverChainKey at hset
  split at hset
  · cases hset
  · cases hset
    refine ⟨h.modifyReceiverChain key fun c hc => ⟨?_, hc.messageKeys, hc.skipped⟩, rfl⟩
    rintro k ⟨⟩
    exact hk

theorem SessionState.Obeys.removeMessageKeys (h : state.Obeys R) {key : Pub} {counter : UInt32}
    {keys : RatchetMessageKeys B}
    (hremove : state.removeMessageKeys key counter = some (keys, state')) : state'.Obeys R := by
  obtain ⟨_, -, hremove⟩ := Option.bind_eq_some_iff.1 hremove
  obtain ⟨_, -, hremove⟩ := Option.bind_eq_some_iff.1 hremove
  cases hremove
  refine h.modifyReceiverChain key fun c hc => ⟨hc.chainKey, fun k hk => ?_, ?_⟩
  · exact hc.messageKeys k (List.mem_of_mem_eraseP hk)
  · exact le_trans (Nat.cast_le.2 (List.length_eraseP_le)) hc.skipped

theorem SessionState.Obeys.getReceiverChainKey (h : state.Obeys R) {key : Pub}
    {chainKey : RatchetChainKey B} (hk : state.getReceiverChainKey key = some chainKey) :
    R.chainKey state.sessionVersion chainKey := by
  obtain ⟨c, hc, hk⟩ := Option.bind_eq_some_iff.1 hk
  exact (h.receiverChains c (List.mem_of_find?_eq_some hc)).chainKey chainKey hk

/-- The chain of a ratchet key, found or made. -/
theorem SessionState.Obeys.getOrCreateChainKey (h : state.Obeys R) (hR : R.Closed P)
    {rng : Rng Priv B} {key : Pub} {chain : RatchetChainKey B × SessionState Priv Pub B}
    {n n' : Nat} (hc : sessionCipherGetOrCreateChainKey P rng state key n = (.ok chain, n')) :
    chain.2.Obeys R ∧ R.chainKey chain.2.sessionVersion chain.1 := by
  unfold sessionCipherGetOrCreateChainKey at hc
  cases hk : state.getReceiverChainKey key with
  | some chainKey =>
    simp only [hk] at hc
    cases hc
    exact ⟨h, h.getReceiverChainKey hk⟩
  | none =>
    simp only [hk] at hc
    obtain ⟨rootKey, _, hroot, hc⟩ := Op.bind_ok_iff.1 hc
    obtain ⟨ours, _, -, hc⟩ := Op.bind_ok_iff.1 hc
    obtain ⟨new, _, -, hc⟩ := Op.bind_ok_iff.1 hc
    obtain ⟨_, _, -, hc⟩ := Op.bind_ok_iff.1 hc
    cases hc
    obtain ⟨hroot, -⟩ := Op.ofOption_ok_iff.1 hroot
    obtain ⟨hmiddle, hreceiver⟩ :=
      hR.createChain (h.rootKey rootKey hroot) key ours.privateKey
    obtain ⟨hnext, hsender⟩ := hR.createChain hmiddle key new.privateKey
    have hadded := h.addReceiverChain hR.chains key hreceiver
    refine ⟨⟨?_, ?_, hadded.receiverChains, hadded.chains⟩, hreceiver⟩
    · rintro k ⟨⟩
      exact hnext
    · rintro c ⟨⟩ k ⟨⟩
      exact hsender

/-- The loop that sets message keys aside: both the chain key and the state keep to the rules in
every round. -/
theorem SessionState.Obeys.skipMessageKeys (hR : R.Closed P) (key : Pub) (counter : UInt32)
    (fuel : Nat) {chainKey : RatchetChainKey B} {state : SessionState Priv Pub B}
    (h : state.Obeys R) (hk : R.chainKey state.sessionVersion chainKey) :
    (skipMessageKeys P key counter fuel chainKey state).2.Obeys R ∧
      R.chainKey (skipMessageKeys P key counter fuel chainKey state).2.sessionVersion
        (skipMessageKeys P key counter fuel chainKey state).1 := by
  induction fuel generalizing chainKey state with
  | zero => exact ⟨h, hk⟩
  | succ fuel ih =>
    rw [SignalProtocol.skipMessageKeys]
    split
    · exact ih (h.setMessageKeys hR.skipped key (hR.getMessageKeys hk)) (hR.createNext hk)
    · exact ⟨h, hk⟩

theorem SessionState.Obeys.getOrCreateMessageKeys (h : state.Obeys R) (hR : R.Closed P)
    {key : Pub} {chainKey : RatchetChainKey B} (hk : R.chainKey state.sessionVersion chainKey)
    {counter : UInt32} {keys : RatchetMessageKeys B × SessionState Priv Pub B}
    (hkeys : (sessionCipherGetOrCreateMessageKeys P key chainKey counter).onCopy state = .ok keys) :
    keys.2.Obeys R := by
  rw [onCopy_getOrCreateMessageKeys] at hkeys
  split at hkeys
  · split at hkeys
    next result hr =>
      cases hkeys
      exact h.removeMessageKeys hr
    next => cases hkeys
  · split at hkeys
    · cases hkeys
    · obtain ⟨state', hset, hkeys⟩ := Op.exists_of_bind_eq_ok hkeys
      cases hkeys
      obtain ⟨hskipped, hnext⟩ := skipMessageKeys hR key counter
        (counter - chainKey.index).toNat h hk
      exact (hskipped.setReceiverChainKey (hR.createNext hnext) hset).1

variable [DecidableEq B]

/-- **Receiving keeps to the rules.** -/
theorem SessionState.Obeys.decryptFromState (h : state.Obeys R) (hR : R.Closed P)
    {rng : Rng Priv B} {m : SignalMessage Pub B} {p : B} {n n' : Nat}
    (hd : sessionCipherDecryptFromState P rng state m n = (.ok (p, state'), n')) :
    state'.Obeys R := by
  obtain ⟨_, _, -, hd⟩ := Op.bind_ok_iff.1 hd
  obtain ⟨_, _, -, hd⟩ := Op.bind_ok_iff.1 hd
  obtain ⟨chain, _, hchain, hd⟩ := Op.bind_ok_iff.1 hd
  obtain ⟨keys, _, hkeys, hd⟩ := Op.bind_ok_iff.1 hd
  obtain ⟨_, _, -, hd⟩ := Op.bind_ok_iff.1 hd
  obtain ⟨_, _, -, hd⟩ := Op.bind_ok_iff.1 hd
  obtain ⟨_, _, -, hd⟩ := Op.bind_ok_iff.1 hd
  obtain ⟨_, _, -, hd⟩ := Op.bind_ok_iff.1 hd
  cases hd
  rw [Op.ofExcept_apply] at hkeys
  injection hkeys with hkeys _
  obtain ⟨hopened, hk⟩ := h.getOrCreateChainKey hR hchain
  have hserved := hopened.getOrCreateMessageKeys hR hk hkeys
  exact ⟨hserved.rootKey, hserved.senderChain, hserved.receiverChains, hserved.chains⟩

omit [DecidableEq Pub] [DecidableEq B] in
/-- **Sending keeps to the rules.** -/
theorem SessionState.Obeys.encryptWithState (h : state.Obeys R) (hR : R.Closed P) {p : B}
    {c : CiphertextMessage Pub B} (he : encryptWithState P state p = .ok (c, state')) :
    state'.Obeys R := by
  obtain ⟨chainKey, hk, he⟩ := Op.exists_of_bind_eq_ok he
  obtain ⟨_, -, he⟩ := Op.exists_of_bind_eq_ok he
  obtain ⟨_, -, he⟩ := Op.exists_of_bind_eq_ok he
  obtain ⟨_, -, he⟩ := Op.exists_of_bind_eq_ok he
  obtain ⟨_, -, he⟩ := Op.exists_of_bind_eq_ok he
  obtain ⟨_, -, he⟩ := Op.exists_of_bind_eq_ok he
  obtain ⟨_, hset, he⟩ := Op.exists_of_bind_eq_ok he
  cases he
  have hchainKey : R.chainKey state.sessionVersion chainKey := by
    cases hget : state.getSenderChainKey with
    | none =>
      rw [hget] at hk
      cases hk
    | some k =>
      rw [hget] at hk
      cases hk
      obtain ⟨sender, hsender, hget⟩ := Option.bind_eq_some_iff.1 hget
      exact h.senderChain sender hsender _ hget
  unfold SessionState.setSenderChainKey at hset
  split at hset
  · cases hset
    refine ⟨h.rootKey, ?_, h.receiverChains, h.chains⟩
    rintro c ⟨⟩ k ⟨⟩
    exact hR.createNext hchainKey
  · cases hset

end States

/-! ## 3. Records -/

section Sessions

variable {R : KeyRules B} {P : Provider Priv Pub B}

/-- A new session in Alice's role. -/
theorem Session.obeys_alice (hR : R.Closed P) (p : AliceParameters Priv Pub) (sending : Priv) :
    ((Session.alice P p sending).toState P).Obeys R := by
  obtain ⟨hroot, hstart⟩ := hR.initial (p.secret P)
  obtain ⟨hnext, hsender⟩ := hR.createChain hroot p.theirRatchetKey sending
  refine ⟨?_, ?_, fun c hc => ?_, ?_⟩
  · rintro k ⟨⟩
    exact hnext
  · rintro c ⟨⟩ k ⟨⟩
    exact hsender
  · rw [List.mem_singleton.1 hc]
    refine ⟨?_, fun k hk => absurd hk List.not_mem_nil, bot_le⟩
    rintro k ⟨⟩
    exact hstart
  · exact le_trans (Nat.cast_le.2 (Session.receivers_le (Session.alice P p sending))) hR.chains

/-- A new session in Bob's role. -/
theorem Session.obeys_bob (hR : R.Closed P) (p : BobParameters Priv Pub) :
    ((Session.bob P p).toState P).Obeys R := by
  obtain ⟨hroot, hstart⟩ := hR.initial (p.secret P)
  refine ⟨?_, ?_, fun c hc => absurd hc List.not_mem_nil, bot_le⟩
  · rintro k ⟨⟩
    exact hroot
  · rintro c ⟨⟩ k ⟨⟩
    exact hstart

theorem Session.obeys_initiated (hR : R.Closed P) (store : Store Addr Priv Pub B)
    (bundle : PreKeyBundle Pub B) (identity signedPreKey : Pub) (base sending : Priv) :
    ((Session.initiated P store bundle identity signedPreKey base sending).toState P).Obeys R :=
  have h := Session.obeys_alice hR
    (bundleParameters store.identityKeyPair bundle identity signedPreKey (P.pair base)) sending
  ⟨h.rootKey, h.senderChain, h.receiverChains, h.chains⟩

theorem Session.obeys_responded (hR : R.Closed P) (store : Store Addr Priv Pub B)
    (signedPreKey : EcKeyPair Priv Pub) (oneTimePreKey : Option (EcKeyPair Priv Pub))
    (m : PreKeySignalMessage Pub B) :
    ((Session.responded P store signedPreKey oneTimePreKey m).toState P).Obeys R :=
  have h := Session.obeys_bob hR
    (responseParameters store.identityKeyPair signedPreKey oneTimePreKey m)
  ⟨h.rootKey, h.senderChain, h.receiverChains, h.chains⟩

end Sessions

section Records

variable {R : KeyRules B} {record : SessionRecord Priv Pub B} {state' : SessionState Priv Pub B}

theorem SessionRecord.obeys_create (R : KeyRules B) :
    (SessionRecord.create none : SessionRecord Priv Pub B).Obeys R := by
  intro state hstate
  rw [List.mem_singleton.1 hstate]
  exact SessionState.obeys_create R

variable [LinearOrder Pub] [DecidableEq B] {ctx : SignalContext Addr Priv Pub B}
  {w : World Addr Priv Pub B} {c : Call Addr Priv Pub B} {r : Except SgError (Reply Pub B)}
  {record' : SessionRecord Priv Pub B} {saved : Option Pub} {used : Option UInt32} {n : Nat}

theorem SessionRecord.Obeys.acceptedAt (h : record.Obeys R) (hR : R.Closed ctx.provider)
    {m : SignalMessage Pub B} {p : B} {i : Nat}
    (ha : AcceptedAt ctx.provider ctx.rng m record.states p state' i n) : state'.Obeys R := by
  obtain ⟨state, copy, k, hi, hcopy, hd⟩ := ha
  exact (hR.copy (h state (List.mem_of_getElem? hi)) hcopy).decryptFromState hR hd

/-- **Every call keeps to the rules**: the record it stores obeys them if the one it loaded
does. -/
theorem Change.obeys (hR : R.Closed ctx.provider) (h : record.Obeys R)
    (hc : Change ctx w record c r record' saved used n) : record'.Obeys R := by
  cases hc with
  | send hsend =>
    exact SessionRecord.forall_setState h ((h _ List.mem_cons_self).encryptWithState hR hsend)
  | receive hn ha => exact SessionRecord.forall_accept h (h.acceptedAt hR ha) _
  | initiate ha hb hs => exact SessionRecord.forall_front h (Session.obeys_initiated hR ..)
  | @respond _ _ _ built _ _ _ _ hn ht hb ha =>
    have hbuilt : built.Obeys R := by
      cases hb with
      | known hknown => exact h
      | new hnew hsigned honce =>
        exact SessionRecord.forall_front h (Session.obeys_responded hR ..)
    exact SessionRecord.forall_accept hbuilt (hbuilt.acceptedAt hR ha) _
  | offer hb hr =>
    have hstate := h _ List.mem_cons_self
    exact SessionRecord.forall_setState h
      ⟨hstate.rootKey, hstate.senderChain, hstate.receiverChains, hstate.chains⟩
  | agree ha hs =>
    obtain ⟨-, -, j, sending, -, -, -, hrecord⟩ := ha
    rw [hrecord]
    cases sending with
    | none => exact SessionRecord.forall_front h (Session.obeys_bob hR _)
    | some key => exact SessionRecord.forall_front h (Session.obeys_alice hR _ key)

omit [LinearOrder Pub] [DecidableEq B] in
theorem SessionRecord.length_front (state' : SessionState Priv Pub B)
    (h : record.previousStates.length ≤ archivedStatesMaxLength) :
    (record.makeRoom.setState state').previousStates.length ≤ archivedStatesMaxLength := by
  unfold SessionRecord.makeRoom
  split
  · exact h
  · exact List.length_take_le ..

/-- **No call archives more than 40 states.** -/
theorem Change.length_le (hc : Change ctx w record c r record' saved used n)
    (h : record.previousStates.length ≤ archivedStatesMaxLength) :
    record'.previousStates.length ≤ archivedStatesMaxLength := by
  have haccept : ∀ {record : SessionRecord Priv Pub B} {m : SignalMessage Pub B} {p : B}
      {state' : SessionState Priv Pub B} {i n : Nat},
      record.previousStates.length ≤ archivedStatesMaxLength →
      AcceptedAt ctx.provider ctx.rng m record.states p state' i n →
      (record.accept state' i).previousStates.length ≤ archivedStatesMaxLength := by
    rintro record m p state' i n hlen ⟨state, copy, k, hi, -, -⟩
    obtain ⟨hlt, -⟩ := List.getElem?_eq_some_iff.1 hi
    exact length_accept state' hlen hlt
  cases hc with
  | send hsend => exact h
  | receive hn ha => exact haccept h ha
  | initiate ha hb hs => exact SessionRecord.length_front _ h
  | respond hn ht hb ha =>
    cases hb with
    | known hknown => exact haccept h ha
    | new hnew hsigned honce => exact haccept (SessionRecord.length_front _ h) ha
  | offer hb hr => exact h
  | agree ha hs =>
    obtain ⟨-, -, j, sending, -, -, -, hrecord⟩ := ha
    rw [hrecord]
    exact SessionRecord.length_front _ h

end Records

/-! ## 4. What storage asks of a state -/

section Readable

/-- The keys use the key derivation of the version, and the skipped message keys survive
storage.  There is no limit. -/
def readableRules (P : Provider Priv Pub B) : KeyRules B where
  rootKey version k := hkdfCreate version = .ok k.kdf
  chainKey version k := hkdfCreate version = .ok k.kdf
  messageKeys k := k.serialize.deserialize P = k
  chains := ⊤
  skipped := ⊤

variable {P : Provider Priv Pub B}

theorem SessionState.obeys_readableRules_iff {state : SessionState Priv Pub B} :
    state.Obeys (readableRules P) ↔ state.Readable P :=
  ⟨fun h => ⟨h.rootKey, h.senderChain, fun c hc => (h.receiverChains c hc).chainKey,
      fun c hc => (h.receiverChains c hc).messageKeys⟩,
    fun h => ⟨h.rootKey, h.senderChain,
      fun c hc => ⟨h.receiverChains c hc, h.messageKeys c hc, le_top⟩, le_top⟩⟩

theorem readableRules_closed (P : Provider Priv Pub B) : (readableRules P).Closed P where
  initial _ := ⟨rfl, rfl⟩
  createChain h _ _ := ⟨h, h⟩
  createNext h := h
  getMessageKeys _ := RatchetMessageKeys.deserialize_serialize
    ⟨P.len_hkdfDeriveSecrets .., P.len_hkdfDeriveSecrets .., P.len_hkdfDeriveSecrets ..⟩
  chains := le_top
  skipped := le_top
  copy _ hcopy :=
    SessionState.obeys_readableRules_iff.2 (SessionStructure.readable_of_deserialize hcopy)

/-- A state that has sent can be read back. -/
theorem SessionState.Readable.encryptWithState {state state' : SessionState Priv Pub B}
    (h : state.Readable P) {p : B} {c : CiphertextMessage Pub B}
    (he : encryptWithState P state p = .ok (c, state')) : state'.Readable P :=
  obeys_readableRules_iff.1 ((obeys_readableRules_iff.2 h).encryptWithState
    (readableRules_closed P) he)

/-- A state that has received can be read back. -/
theorem SessionState.Readable.decryptFromState [DecidableEq Pub] [DecidableEq B]
    {state state' : SessionState Priv Pub B} (h : state.Readable P) {rng : Rng Priv B}
    {m : SignalMessage Pub B} {p : B} {n n' : Nat}
    (hd : sessionCipherDecryptFromState P rng state m n = (.ok (p, state'), n')) :
    state'.Readable P :=
  obeys_readableRules_iff.1 ((obeys_readableRules_iff.2 h).decryptFromState
    (readableRules_closed P) hd)

theorem SessionRecord.obeys_readableRules_iff {record : SessionRecord Priv Pub B} :
    record.Obeys (readableRules P) ↔ record.Readable P :=
  forall₂_congr fun _ _ => SessionState.obeys_readableRules_iff

/-- **The record that a call stores can be read back** if the one it loaded can. -/
theorem Change.readable [LinearOrder Pub] [DecidableEq B] {ctx : SignalContext Addr Priv Pub B}
    {w : World Addr Priv Pub B} {c : Call Addr Priv Pub B} {r : Except SgError (Reply Pub B)}
    {record record' : SessionRecord Priv Pub B} {saved : Option Pub} {used : Option UInt32}
    {n : Nat} (h : record.Readable ctx.provider)
    (hc : Change ctx w record c r record' saved used n) : record'.Readable ctx.provider :=
  SessionRecord.obeys_readableRules_iff.1 (Change.obeys (readableRules_closed ctx.provider)
    (SessionRecord.obeys_readableRules_iff.2 h) hc)

end Readable

end SignalProtocol
