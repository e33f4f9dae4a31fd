/-
# A sender key state as a window on a chain

`group_cipher_get_sender_key` makes two decisions at once: whether an iteration may be used,
and which key belongs to it.  The first is the bounded window of `Lib/Window.lean`
(`SenderKeyState.window`, `window_of_getSenderKey`), the second is the chain (`Follows`: everything
a state holds lies on the chain of one origin, and the key it gives out is the one of the
iteration asked for).  `getSenderKey_cases` is what both are derived from.
-/
import SignalProtocol.Lib.Window
import SignalProtocol.GroupCipher

namespace SignalProtocol

variable {Priv Pub B : Type}

/-! ## 1. The chain -/

section Chain

variable (P : Provider Priv Pub B)

/-- The chain key `n` steps after a given one. -/
def SenderChainKey.after (key : SenderChainKey B) (n : Nat) : SenderChainKey B :=
  (SenderChainKey.createNext P)^[n] key

@[simp] theorem SenderChainKey.after_zero (key : SenderChainKey B) : key.after P 0 = key := rfl

theorem SenderChainKey.after_succ (key : SenderChainKey B) (n : Nat) :
    key.after P (n + 1) = (key.createNext P).after P n := rfl

theorem SenderChainKey.after_succ' (key : SenderChainKey B) (n : Nat) :
    key.after P (n + 1) = (key.after P n).createNext P :=
  Function.iterate_succ_apply' ..

theorem SenderChainKey.after_add (key : SenderChainKey B) (m n : Nat) :
    key.after P (m + n) = (key.after P m).after P n := by
  rw [Nat.add_comm]
  exact Function.iterate_add_apply ..

theorem toNat_iteration_createNext {key : SenderChainKey B}
    (h : key.iteration.toNat + 1 < 2 ^ 32) :
    (key.createNext P).iteration.toNat = key.iteration.toNat + 1 := by
  rw [SenderChainKey.createNext, UInt32.toNat_add]
  exact Nat.mod_eq_of_lt h

theorem toNat_iteration_after {key : SenderChainKey B} {n : Nat}
    (h : key.iteration.toNat + n < 2 ^ 32) :
    (key.after P n).iteration.toNat = key.iteration.toNat + n := by
  induction n with
  | zero => rfl
  | succ n ih =>
    have hn := ih (by omega)
    rw [SenderChainKey.after_succ', toNat_iteration_createNext P (by omega), hn, Nat.add_assoc]

/-- The message keys of the next `n` iterations. -/
def SenderChainKey.messageKeys (key : SenderChainKey B) (n : Nat) : List (SenderMessageKey B) :=
  (List.range n).map fun j => (key.after P j).createMessageKey P

theorem SenderChainKey.messageKeys_succ (key : SenderChainKey B) (n : Nat) :
    key.messageKeys P (n + 1) = key.createMessageKey P :: (key.createNext P).messageKeys P n := by
  rw [messageKeys, List.range_succ_eq_map, List.map_cons, List.map_map]
  rfl

/-- **The loop** keeps the message keys it passes, and ends at the iteration. -/
theorem skipSenderKeys_eq {iteration : UInt32} {rounds : Nat} {chainKey : SenderChainKey B}
    {state : SenderKeyState Priv Pub B}
    (hlen : state.messageKeys.length ≤ senderMaxMessageKeys)
    (h : chainKey.iteration.toNat + rounds = iteration.toNat) :
    skipSenderKeys P iteration rounds chainKey state =
      (chainKey.after P rounds,
        { state with
          messageKeys :=
            (state.messageKeys ++ chainKey.messageKeys P rounds).rtake senderMaxMessageKeys }) := by
  induction rounds generalizing chainKey state with
  | zero =>
    have hkeys : chainKey.messageKeys P 0 = [] := rfl
    simp only [skipSenderKeys, hkeys, List.append_nil, Session.rtake_of_length_le hlen,
      SenderChainKey.after_zero]
  | succ rounds ih =>
    have hlt := iteration.toNat_lt
    have hless : chainKey.iteration < iteration := by
      rw [UInt32.lt_iff_toNat_lt]
      omega
    have hnext : (chainKey.createNext P).iteration.toNat = chainKey.iteration.toNat + 1 :=
      toNat_iteration_createNext P (by omega)
    rw [skipSenderKeys, if_pos hless, ih (Session.length_rtake_le ..) (by omega),
      SenderChainKey.messageKeys_succ]
    simp only [SenderKeyState.addSenderMessageKey, rtake_append_rtake, List.append_assoc,
      List.singleton_append, SenderChainKey.after_succ]

end Chain

/-! ## 2. What a request can come to -/

/-- The state after a skipped key was taken out. -/
def SenderKeyState.without (state : SenderKeyState Priv Pub B) (iteration : UInt32) :
    SenderKeyState Priv Pub B :=
  { state with messageKeys := state.messageKeys.eraseP fun key => key.iteration = iteration }

/-- The state after the chain went `n` ahead and one more. -/
def SenderKeyState.ahead (P : Provider Priv Pub B) (state : SenderKeyState Priv Pub B) (n : Nat) :
    SenderKeyState Priv Pub B :=
  { state with
    chainKey := (state.chainKey.after P n).createNext P
    messageKeys :=
      (state.messageKeys ++ state.chainKey.messageKeys P n).rtake senderMaxMessageKeys }

theorem SenderKeyState.messageKeys_ahead (P : Provider Priv Pub B)
    (state : SenderKeyState Priv Pub B) (n : Nat) :
    (state.ahead P n).messageKeys =
      (state.messageKeys ++ state.chainKey.messageKeys P n).rtake senderMaxMessageKeys := by
  rw [SenderKeyState.ahead]

theorem SenderKeyState.chainKey_ahead (P : Provider Priv Pub B) (state : SenderKeyState Priv Pub B)
    (n : Nat) : (state.ahead P n).chainKey = (state.chainKey.after P n).createNext P := rfl

theorem SenderKeyState.toNat_iteration_ahead (P : Provider Priv Pub B)
    {state : SenderKeyState Priv Pub B} {n : Nat}
    (h : state.chainKey.iteration.toNat + n + 1 < 2 ^ 32) :
    (state.ahead P n).chainKey.iteration.toNat = state.chainKey.iteration.toNat + n + 1 := by
  have hafter : (state.chainKey.after P n).iteration.toNat = state.chainKey.iteration.toNat + n :=
    toNat_iteration_after P (by omega)
  rw [SenderKeyState.chainKey_ahead, toNat_iteration_createNext P (hafter.symm ▸ h), hafter]

/-- **The outcomes of `group_cipher_get_sender_key`.** -/
inductive SenderKeyRequest (P : Provider Priv Pub B) (state : SenderKeyState Priv Pub B)
    (iteration : UInt32) :
    Except SgError (SenderMessageKey B × SenderKeyState Priv Pub B) → Prop
  | skipped {key : SenderMessageKey B} (hlt : iteration < state.chainKey.iteration)
      (hmem : key ∈ state.messageKeys) (hkey : key.iteration = iteration) :
      SenderKeyRequest P state iteration (.ok (key, state.without iteration))
  | spent (hlt : iteration < state.chainKey.iteration)
      (hmem : ∀ key ∈ state.messageKeys, key.iteration ≠ iteration) :
      SenderKeyRequest P state iteration (.error .duplicateMessage)
  | tooFar (hle : state.chainKey.iteration.toNat + 2000 < iteration.toNat) :
      SenderKeyRequest P state iteration (.error .invalidMessage)
  | next {n : Nat} (hn : state.chainKey.iteration.toNat + n = iteration.toNat) (hle : n ≤ 2000) :
      SenderKeyRequest P state iteration
        (.ok ((state.chainKey.after P n).createMessageKey P, state.ahead P n))

theorem getSenderKey_cases (P : Provider Priv Pub B) {state : SenderKeyState Priv Pub B}
    (hlen : state.messageKeys.length ≤ senderMaxMessageKeys) (iteration : UInt32) :
    SenderKeyRequest P state iteration ((groupCipherGetSenderKey P iteration).onCopy state) := by
  rw [onCopy_getSenderKey]
  split
  · rename_i hlt
    split
    · rename_i hhas
      cases hfind : state.messageKeys.find? fun key => key.iteration = iteration with
      | none =>
        obtain ⟨key, hmem, hkey⟩ := List.any_eq_true.1 hhas
        exact absurd hkey (List.find?_eq_none.1 hfind key hmem)
      | some key =>
        have hkey := List.find?_some hfind
        simp only [SenderKeyState.removeSenderMessageKey, hfind]
        exact .skipped hlt (List.mem_of_find?_eq_some hfind) (of_decide_eq_true hkey)
    · rename_i hhas
      refine .spent hlt fun key hmem hkey => hhas ?_
      exact List.any_eq_true.2 ⟨key, hmem, decide_eq_true hkey⟩
  · rename_i hle
    have hle' : state.chainKey.iteration.toNat ≤ iteration.toNat :=
      UInt32.le_iff_toNat_le.1 (UInt32.not_lt.1 hle)
    have hsub : (iteration - state.chainKey.iteration).toNat =
        iteration.toNat - state.chainKey.iteration.toNat := by
      rw [UInt32.toNat_sub_of_le _ _ (UInt32.not_lt.1 hle)]
    have hmax : maxFutureMessages.toNat = 2000 := rfl
    split
    · rename_i hfar
      rw [gt_iff_lt, UInt32.lt_iff_toNat_lt, hsub, hmax] at hfar
      exact .tooFar (by omega)
    · rename_i hnear
      rw [gt_iff_lt, UInt32.lt_iff_toNat_lt, hsub, hmax] at hnear
      rw [hsub, skipSenderKeys_eq P hlen (by omega)]
      dsimp only
      exact SenderKeyRequest.next (n := iteration.toNat - state.chainKey.iteration.toNat)
        (by omega) (by omega)

/-- A granted request changes only the chain and the skipped keys. -/
theorem frame_getSenderKey {P : Provider Priv Pub B} {state state' : SenderKeyState Priv Pub B}
    {key : SenderMessageKey B} {iteration : UInt32}
    (hlen : state.messageKeys.length ≤ senderMaxMessageKeys)
    (h : (groupCipherGetSenderKey P iteration).onCopy state = .ok (key, state')) :
    state'.keyId = state.keyId ∧ state'.signaturePublicKey = state.signaturePublicKey := by
  have hcases := getSenderKey_cases P hlen iteration
  rw [h] at hcases
  cases hcases with
  | skipped => exact ⟨rfl, rfl⟩
  | next => exact ⟨rfl, rfl⟩

/-- A granted request leaves a state that can be stored. -/
theorem storable_of_getSenderKey {P : Provider Priv Pub B}
    {state state' : SenderKeyState Priv Pub B} {key : SenderMessageKey B} {iteration : UInt32}
    (hs : state.Storable P)
    (h : (groupCipherGetSenderKey P iteration).onCopy state = .ok (key, state')) :
    state'.Storable P := by
  have hcases := getSenderKey_cases P hs.limit iteration
  rw [h] at hcases
  cases hcases with
  | skipped => exact hs.removeSenderMessageKey iteration
  | @next n =>
    refine ⟨?_, fun other hother => ?_⟩
    · rw [SenderKeyState.messageKeys_ahead]
      exact Session.length_rtake_le senderMaxMessageKeys _
    · rw [SenderKeyState.messageKeys_ahead] at hother
      rcases List.mem_append.1 (Window.mem_of_mem_rtake hother) with hother | hother
      · exact hs.derived other hother
      · obtain ⟨j, -, rfl⟩ := List.mem_map.1 hother
        exact SenderChainKey.derived_createMessageKey P _

/-! ## 3. The window -/

/-- The iteration of a message key as a number. -/
def SenderMessageKey.index (key : SenderMessageKey B) : Nat := key.iteration.toNat

/-- The message keys of a state are in order, below its chain, and respect the limit. -/
structure SenderKeyState.WellFormed (state : SenderKeyState Priv Pub B) : Prop where
  sorted : (state.messageKeys.map SenderMessageKey.index).Pairwise (· < ·)
  below : ∀ i ∈ state.messageKeys.map SenderMessageKey.index,
    i < state.chainKey.iteration.toNat
  bounded : state.messageKeys.length ≤ senderMaxMessageKeys

/-- **The window of a state**: the iteration of its chain, and those it has skipped. -/
def SenderKeyState.window (state : SenderKeyState Priv Pub B) (h : state.WellFormed) :
    Window senderMaxMessageKeys where
  next := state.chainKey.iteration.toNat
  held := state.messageKeys.map SenderMessageKey.index
  sorted := h.sorted
  below := h.below
  bounded := (List.length_map ..).trans_le h.bounded

@[simp] theorem SenderKeyState.window_next (state : SenderKeyState Priv Pub B)
    (h : state.WellFormed) : (state.window h).next = state.chainKey.iteration.toNat := rfl

@[simp] theorem SenderKeyState.window_held (state : SenderKeyState Priv Pub B)
    (h : state.WellFormed) :
    (state.window h).held = state.messageKeys.map SenderMessageKey.index := rfl

section Window

variable {P : Provider Priv Pub B} {state state' : SenderKeyState Priv Pub B}
  {key : SenderMessageKey B} {iteration : UInt32}

theorem wellFormed_create (keyId : UInt32) (chainKey : SenderChainKey B) (signatureKey : Pub)
    (signaturePrivateKey : Option Priv) :
    (SenderKeyState.create keyId chainKey signatureKey signaturePrivateKey).WellFormed :=
  ⟨List.Pairwise.nil, by simp [SenderKeyState.create], Nat.zero_le _⟩

theorem index_without (state : SenderKeyState Priv Pub B) (iteration : UInt32) :
    (state.without iteration).messageKeys.map SenderMessageKey.index =
      (state.messageKeys.map SenderMessageKey.index).erase iteration.toNat := by
  rw [List.erase_eq_eraseP, List.eraseP_map]
  show (state.messageKeys.eraseP _).map _ = _
  congr 2
  funext k
  simp only [Function.comp_apply, SenderMessageKey.index, beq_eq_decide]
  exact decide_eq_decide.2 ⟨fun h => h ▸ rfl, fun h => (UInt32.toNat_inj.1 h).symm⟩

theorem index_messageKeys {chainKey : SenderChainKey B} {n : Nat}
    (h : chainKey.iteration.toNat + n ≤ 2 ^ 32) :
    (chainKey.messageKeys P n).map SenderMessageKey.index =
      List.range' chainKey.iteration.toNat n := by
  rw [SenderChainKey.messageKeys, List.map_map, List.range'_eq_map_range]
  refine List.map_congr_left fun j hj => ?_
  have hj' := List.mem_range.1 hj
  exact toNat_iteration_after P (by omega)

theorem index_ahead {n : Nat} (h : state.chainKey.iteration.toNat + n ≤ 2 ^ 32) :
    (state.ahead P n).messageKeys.map SenderMessageKey.index =
      (state.messageKeys.map SenderMessageKey.index ++
        List.range' state.chainKey.iteration.toNat n).rtake senderMaxMessageKeys := by
  rw [← index_messageKeys h, ← List.map_append, ← Session.map_rtake,
    SenderKeyState.messageKeys_ahead]

/-- **What a granted request does to the window.** -/
theorem window_of_getSenderKey (hw : state.WellFormed) (hi : iteration.toNat + 1 < 2 ^ 32)
    (h : (groupCipherGetSenderKey P iteration).onCopy state = .ok (key, state')) :
    ∃ hw' : state'.WellFormed,
      (state.window hw).request 2000 iteration.toNat = .ok (state'.window hw') := by
  have hcases := getSenderKey_cases P hw.bounded iteration
  rw [h] at hcases
  cases hcases with
  | skipped hlt hmem hkey =>
    have hindex := index_without state iteration
    have hheld : iteration.toNat ∈ (state.window hw).held :=
      List.mem_map.2 ⟨key, hmem, by rw [SenderMessageKey.index, hkey]⟩
    have hw' : (state.without iteration).WellFormed := by
      refine ⟨?_, ?_, ?_⟩
      · rw [hindex]
        exact hw.sorted.sublist List.erase_sublist
      · rw [hindex]
        exact fun i hi => hw.below i (List.mem_of_mem_erase hi)
      · exact List.eraseP_sublist.length_le.trans hw.bounded
    refine ⟨hw', (Window.request_of_held hheld).trans (congrArg _ ?_)⟩
    exact Window.ext rfl hindex.symm
  | @next n hn hle =>
    have hrange : state.chainKey.iteration.toNat + n ≤ 2 ^ 32 := by omega
    have hindex := index_ahead (P := P) hrange
    have hnext : (state.ahead P n).chainKey.iteration.toNat = iteration.toNat + 1 := by
      rw [SenderKeyState.toNat_iteration_ahead P (by omega), hn]
    have hle' : (state.window hw).next ≤ iteration.toNat := by
      rw [SenderKeyState.window_next]
      omega
    have hsub : iteration.toNat - state.chainKey.iteration.toNat = n := by omega
    have hheld : ((state.window hw).advance iteration.toNat hle').held =
        (state.ahead P n).messageKeys.map SenderMessageKey.index := by
      rw [hindex, ← hsub]
      simp only [Window.advance, Window.reached, SenderKeyState.window]
    have hw' : (state.ahead P n).WellFormed := by
      refine ⟨?_, ?_, ?_⟩
      · rw [← hheld]
        exact ((state.window hw).advance iteration.toNat hle').sorted
      · rw [← hheld, hnext]
        exact ((state.window hw).advance iteration.toNat hle').below
      · rw [← List.length_map SenderMessageKey.index, ← hheld]
        exact ((state.window hw).advance iteration.toNat hle').bounded
    refine ⟨hw', (Window.request_of_ahead hle' ?_).trans (congrArg _ ?_)⟩
    · rw [SenderKeyState.window_next]
      omega
    · exact Window.ext hnext.symm (hheld.trans (SenderKeyState.window_held _ hw').symm)

/-- A spent iteration is a duplicate. -/
theorem getSenderKey_of_spent (hw : state.WellFormed)
    (h : (state.window hw).Spent iteration.toNat) :
    (groupCipherGetSenderKey P iteration).onCopy state = .error .duplicateMessage := by
  have hcases := getSenderKey_cases P hw.bounded iteration
  have hlt : iteration.toNat < state.chainKey.iteration.toNat := h.1
  generalize (groupCipherGetSenderKey P iteration).onCopy state = result at hcases
  cases hcases with
  | skipped _ hmem hkey =>
    exact absurd (List.mem_map.2 ⟨_, hmem, by rw [SenderMessageKey.index, hkey]⟩) h.2
  | spent => rfl
  | tooFar hle => omega
  | next hn => omega

/-- A request that the window grants is granted. -/
theorem getSenderKey_of_request (hw : state.WellFormed) {w' : Window senderMaxMessageKeys}
    (h : (state.window hw).request 2000 iteration.toNat = .ok w') :
    ∃ result, (groupCipherGetSenderKey P iteration).onCopy state = .ok result := by
  have hcases := getSenderKey_cases P hw.bounded iteration
  generalize (groupCipherGetSenderKey P iteration).onCopy state = result at hcases
  cases hcases with
  | skipped => exact ⟨_, rfl⟩
  | spent hlt hmem =>
    have hspent : (state.window hw).Spent iteration.toNat := by
      refine ⟨UInt32.lt_iff_toNat_lt.1 hlt, fun hheld => ?_⟩
      obtain ⟨key, hkey, he⟩ := List.mem_map.1 hheld
      exact hmem key hkey (UInt32.toNat_inj.1 he)
    rw [hspent.request] at h
    cases h
  | tooFar hle =>
    have hfar : (state.window hw).next + 2000 < iteration.toNat := hle
    rw [Window.request_of_tooFar hfar] at h
    cases h
  | next => exact ⟨_, rfl⟩

end Window

/-! ## 4. The keys -/

/-- **Everything a state holds lies on the chain of one origin.** -/
structure SenderKeyState.Follows (P : Provider Priv Pub B) (origin : SenderChainKey B)
    (state : SenderKeyState Priv Pub B) : Prop where
  chain : state.chainKey = origin.after P state.chainKey.iteration.toNat
  keys : ∀ key ∈ state.messageKeys, key = (origin.after P key.index).createMessageKey P

section Follows

variable {P : Provider Priv Pub B} {state state' : SenderKeyState Priv Pub B}
  {key : SenderMessageKey B} {iteration : UInt32} {origin : SenderChainKey B}

theorem SenderKeyState.Follows.storable (h : state.Follows P origin) (hw : state.WellFormed) :
    state.Storable P := by
  refine ⟨hw.bounded, fun key hkey => ?_⟩
  rw [h.keys key hkey]
  exact SenderChainKey.derived_createMessageKey P _

/-- **The key of a granted request** is the one of the iteration on the chain, and the state
stays on the chain. -/
theorem SenderKeyState.Follows.getSenderKey (hf : state.Follows P origin)
    (hlen : state.messageKeys.length ≤ senderMaxMessageKeys)
    (hi : iteration.toNat + 1 < 2 ^ 32)
    (h : (groupCipherGetSenderKey P iteration).onCopy state = .ok (key, state')) :
    key = (origin.after P iteration.toNat).createMessageKey P ∧ state'.Follows P origin := by
  have hcases := getSenderKey_cases P hlen iteration
  rw [h] at hcases
  cases hcases with
  | skipped hlt hmem hkey =>
    refine ⟨?_, hf.chain, fun k hk => hf.keys k (List.mem_of_mem_eraseP hk)⟩
    rw [← hkey]
    exact hf.keys key hmem
  | @next n hn hle =>
    have hafter : ∀ j, state.chainKey.after P j =
        origin.after P (state.chainKey.iteration.toNat + j) := by
      intro j
      rw [SenderChainKey.after_add, ← hf.chain]
    refine ⟨by rw [hafter, hn], ?_, ?_⟩
    · rw [SenderKeyState.toNat_iteration_ahead P (by omega), SenderKeyState.chainKey_ahead,
        SenderChainKey.after_succ', hafter]
    · intro k hk
      rw [SenderKeyState.messageKeys_ahead] at hk
      rcases List.mem_append.1 (Window.mem_of_mem_rtake hk) with hk | hk
      · exact hf.keys k hk
      · obtain ⟨j, hj, rfl⟩ := List.mem_map.1 hk
        have hj' := List.mem_range.1 hj
        have hindex : ((state.chainKey.after P j).createMessageKey P).index =
            state.chainKey.iteration.toNat + j :=
          toNat_iteration_after P (by omega)
        rw [hindex, ← hafter]

end Follows

end SignalProtocol
