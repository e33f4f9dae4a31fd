/-
# The cipher refines the session object

On the record of a session, the functions of `session_cipher.c` do what the operations of
`Session.lean` do on the session: `encryptWithState_toState` for sending,
`decryptFromState_toState` for receiving, `tryStates_toState` for the search over a record.
The counters are 32-bit numbers on one side and natural numbers on the other, so the
receiving half is for sessions in range and messages below the last counter.
-/
import SignalProtocol.Session

namespace SignalProtocol

variable {Priv Pub B : Type} {P : Provider Priv Pub B}

/-! ## 1. Lists with one match -/

/-- Two writes through the same pointer are one write. -/
theorem modifyFirst_modifyFirst {α : Type} {p : α → Bool} {f g : α → α}
    (hp : ∀ a, p a = true → p (f a) = true) :
    ∀ l : List α, modifyFirst p g (modifyFirst p f l) = modifyFirst p (g ∘ f) l
  | [] => rfl
  | a :: l => by
    by_cases h : p a = true
    · simp only [modifyFirst, h, if_true, hp a h, Function.comp_apply]
    · simp only [modifyFirst, h, if_false, Bool.false_eq_true, modifyFirst_modifyFirst hp l]

theorem modifyFirst_eq_self {α : Type} {p : α → Bool} {f : α → α} :
    ∀ {l : List α}, (∀ a ∈ l, p a = true → f a = a) → modifyFirst p f l = l
  | [], _ => rfl
  | a :: l, h => by
    unfold modifyFirst
    split
    · rename_i hp
      rw [h a List.mem_cons_self hp]
    · rw [modifyFirst_eq_self fun b hb => h b (List.mem_cons_of_mem _ hb)]

/-- Appending and cutting in two rounds is appending and cutting once. -/
theorem rtake_append_rtake {α : Type} (n : Nat) (l l' : List α) :
    (l.rtake n ++ l').rtake n = (l ++ l').rtake n := by
  simp only [List.rtake, List.length_append, List.length_drop, List.drop_append, List.drop_drop]
  by_cases h : l.length ≤ n
  · have h0 : l.length - n = 0 := Nat.sub_eq_zero_of_le h
    simp [h0]
  · have h1 : l.length - n + (l.length - (l.length - n) + l'.length - n) =
        l.length + l'.length - n := by omega
    have h2 : l.length - (l.length - n) + l'.length - n - (l.length - (l.length - n)) =
        l.length + l'.length - n - l.length := by omega
    rw [h1, h2]

/-! ## 2. Counters -/

theorem toNat_ofNat32 {n : Nat} (h : n < 2 ^ 32) : (UInt32.ofNat n).toNat = n :=
  UInt32.toNat_ofNat_of_lt' h

theorem toUInt32_eq_three (v : UInt8) : v.toUInt32 = 3 ↔ v = 3 := by
  constructor
  · intro h
    have h2 := congrArg UInt32.toNat h
    rw [UInt8.toNat_toUInt32] at h2
    exact UInt8.toNat_inj.1 h2
  · rintro rfl
    rfl

theorem messageKeysAt_counter_eq_iff {start : B} {counter : UInt32} {d : Nat} (h : d < 2 ^ 32) :
    decide ((P.messageKeysAt start d).counter = counter) = true ↔ d = counter.toNat := by
  rw [decide_eq_true_iff, Provider.messageKeysAt_counter, ← UInt32.toNat_inj, toNat_ofNat32 h]

/-- Looking a counter up among the keys of held counters. -/
theorem find?_messageKeysAt {start : B} {counter : UInt32} {l : List Nat}
    (h : ∀ d ∈ l, d < 2 ^ 32) :
    (l.map (P.messageKeysAt start)).find? (fun k => k.counter = counter) =
      if counter.toNat ∈ l then some (P.messageKeysAt start counter.toNat) else none :=
  find?_map_numbered fun d hd => messageKeysAt_counter_eq_iff (h d hd)

/-- Removing a counter's keys is removing the counter. -/
theorem eraseP_messageKeysAt {start : B} {counter : UInt32} {l : List Nat}
    (h : ∀ d ∈ l, d < 2 ^ 32) :
    (l.map (P.messageKeysAt start)).eraseP (fun k => k.counter = counter) =
      (l.erase counter.toNat).map (P.messageKeysAt start) :=
  eraseP_map_numbered fun d hd => messageKeysAt_counter_eq_iff (h d hd)

/-! ## 3. Finding and changing a receiving chain -/

section Chains

variable [DecidableEq Pub]

theorem isFor_toChain (key : Pub) (c : ReceivingChain Pub B) :
    ReceiverChain.isFor key (c.toChain P) = decide (c.ratchetKey = key) := by
  simp only [ReceiverChain.isFor, ReceivingChain.toChain, Option.some.injEq]

theorem findReceiverChain_toState (s : Session Priv Pub B) (key : Pub) :
    (s.toState P).findReceiverChain key = (s.chainFor key).map (ReceivingChain.toChain P) := by
  rw [SessionState.findReceiverChain, Session.toState, List.find?_map]
  congr 1
  exact congrFun (congrArg List.find? (funext fun c => isFor_toChain key c)) s.receivers

theorem getReceiverChainKey_toState (s : Session Priv Pub B) (key : Pub) :
    (s.toState P).getReceiverChainKey key =
      (s.chainFor key).map fun c => P.chainKeyAt c.start c.window.next := by
  rw [SessionState.getReceiverChainKey, findReceiverChain_toState]
  cases s.chainFor key <;> rfl

/-- With at most one match, changing the first match is mapping over the list. -/
theorem modifyFirst_toChain {key : Pub} {f : ReceiverChain Pub B → ReceiverChain Pub B}
    {g : ReceivingChain Pub B → ReceivingChain Pub B} :
    ∀ {l : List (ReceivingChain Pub B)}, (l.map ReceivingChain.ratchetKey).Nodup →
      (∀ c ∈ l, c.ratchetKey = key → f (c.toChain P) = (g c).toChain P) →
      modifyFirst (ReceiverChain.isFor key) f (l.map (ReceivingChain.toChain P)) =
        (l.map fun c => if c.ratchetKey = key then g c else c).map (ReceivingChain.toChain P)
  | [], _, _ => rfl
  | c :: l, hn, hf => by
    rw [List.map_cons, List.nodup_cons] at hn
    rw [List.map_cons, List.map_cons, List.map_cons, modifyFirst, isFor_toChain]
    by_cases h : c.ratchetKey = key
    · -- the tail has no chain for `key`, so mapping over it changes nothing
      have htail : (l.map fun d => if d.ratchetKey = key then g d else d) = l := by
        refine (List.map_congr_left fun d hd => ?_).trans (List.map_id l)
        refine if_neg fun hk => hn.1 ?_
        rw [h, ← hk]
        exact List.mem_map_of_mem hd
      simp only [h, decide_true, if_true, hf c List.mem_cons_self h, htail]
    · simp only [h, decide_false, if_false, Bool.false_eq_true,
        modifyFirst_toChain hn.2 fun d hd => hf d (List.mem_cons_of_mem _ hd)]

/-- Writing a new window to the chain of a key. -/
theorem modifyReceiverChain_toState {s : Session Priv Pub B} {key : Pub}
    {c : ReceivingChain Pub B} (hc : s.chainFor key = some c)
    {f : ReceiverChain Pub B → ReceiverChain Pub B} {w : Window maxMessageKeys}
    (hf : f (c.toChain P) = ReceivingChain.toChain P { c with window := w }) :
    (s.toState P).modifyReceiverChain key f = (s.setWindow key w).toState P := by
  have h := modifyFirst_toChain (P := P) (f := f)
    (g := fun c => { c with window := w }) s.keys_nodup (fun d hd hk => by
      have hd' := Session.chainFor_of_mem hd
      rw [hk, hc] at hd'
      cases hd'
      exact hf)
  simp only [SessionState.modifyReceiverChain, Session.toState, Session.setWindow, h]

theorem modifyReceiverChain_twice {key : Pub} {f g : ReceiverChain Pub B → ReceiverChain Pub B}
    (hf : ∀ c, (f c).senderRatchetKey = c.senderRatchetKey) (state : SessionState Priv Pub B) :
    (state.modifyReceiverChain key f).modifyReceiverChain key g =
      state.modifyReceiverChain key (g ∘ f) := by
  have h : ∀ c, ReceiverChain.isFor key c = true → ReceiverChain.isFor key (f c) = true := by
    intro c hc
    rw [ReceiverChain.isFor, hf]
    exact hc
  exact congrArg (fun l => { state with receiverChains := l })
    (modifyFirst_modifyFirst h state.receiverChains)

theorem find?_modifyFirst {α : Type} {p : α → Bool} {f : α → α}
    (hp : ∀ a, p a = true → p (f a) = true) :
    ∀ l : List α, (modifyFirst p f l).find? p = (l.find? p).map f
  | [] => rfl
  | a :: l => by
    by_cases h : p a = true
    · simp only [modifyFirst, h, if_true, List.find?_cons, hp a h, Option.map_some]
    · simp only [modifyFirst, h, if_false, Bool.false_eq_true, List.find?_cons,
        find?_modifyFirst hp l]

/-- A new chain key for a chain that was just changed is part of the same change. -/
theorem setReceiverChainKey_modify {state : SessionState Priv Pub B} {key : Pub}
    {f : ReceiverChain Pub B → ReceiverChain Pub B} {chainKey : RatchetChainKey B}
    (hf : ∀ c, (f c).senderRatchetKey = c.senderRatchetKey)
    (hfound : (state.findReceiverChain key).isSome) :
    (state.modifyReceiverChain key f).setReceiverChainKey key chainKey =
      .ok (state.modifyReceiverChain key
        ((fun c => { c with chainKey := some chainKey }) ∘ f)) := by
  have hp : ∀ c, ReceiverChain.isFor key c = true → ReceiverChain.isFor key (f c) = true := by
    intro c hc
    rw [ReceiverChain.isFor, hf]
    exact hc
  obtain ⟨c, hc⟩ := Option.isSome_iff_exists.1 hfound
  have hfind : (state.modifyReceiverChain key f).findReceiverChain key = some (f c) := by
    rw [SessionState.findReceiverChain, SessionState.modifyReceiverChain, find?_modifyFirst hp]
    exact congrArg (Option.map f) hc
  rw [SessionState.setReceiverChainKey, hfind]
  exact congrArg Except.ok (modifyReceiverChain_twice hf state)

/-! ## 4. The keys of one message -/

/-- Append keys to a chain and delete from the head beyond the limit. -/
def ReceiverChain.keep (keys : List (RatchetMessageKeys B)) (chain : ReceiverChain Pub B) :
    ReceiverChain Pub B :=
  { chain with messageKeys := (chain.messageKeys ++ keys).rtake maxMessageKeys }

theorem setMessageKeys_keep (state : SessionState Priv Pub B) (key : Pub)
    (keys : List (RatchetMessageKeys B)) (k : RatchetMessageKeys B) :
    (state.modifyReceiverChain key (ReceiverChain.keep keys)).setMessageKeys key k =
      state.modifyReceiverChain key (ReceiverChain.keep (keys ++ [k])) := by
  have h : (ReceiverChain.keep [k] ∘ ReceiverChain.keep keys :
      ReceiverChain Pub B → ReceiverChain Pub B) = ReceiverChain.keep (keys ++ [k]) := by
    funext chain
    simp only [Function.comp_apply, ReceiverChain.keep, rtake_append_rtake, List.append_assoc]
  have hk : ∀ c : ReceiverChain Pub B, (c.keep keys).senderRatchetKey = c.senderRatchetKey :=
    fun c => by rw [ReceiverChain.keep]
  calc (state.modifyReceiverChain key (ReceiverChain.keep keys)).setMessageKeys key k
      = (state.modifyReceiverChain key (ReceiverChain.keep keys)).modifyReceiverChain key
          (ReceiverChain.keep [k]) := rfl
    _ = state.modifyReceiverChain key (ReceiverChain.keep (keys ++ [k])) := by
        rw [modifyReceiverChain_twice hk, h]

/-- **The skipping loop** sets aside the keys of every position it passes. -/
theorem skipMessageKeys_chainKeyAt (key : Pub) (counter : UInt32) (start : B)
    (state : SessionState Priv Pub B) :
    ∀ (n i : Nat) (keys : List (RatchetMessageKeys B)), i + n = counter.toNat →
      skipMessageKeys P key counter n (P.chainKeyAt start i)
          (state.modifyReceiverChain key (ReceiverChain.keep keys)) =
        (P.chainKeyAt start (i + n),
          state.modifyReceiverChain key
            (ReceiverChain.keep (keys ++ (List.range' i n).map (P.messageKeysAt start))))
  | 0, i, keys, _ => by
    simp only [skipMessageKeys, List.range'_zero, List.map_nil, List.append_nil, Nat.add_zero]
  | n + 1, i, keys, h => by
    have hi : i < 2 ^ 32 := by have := counter.toNat_lt; omega
    have hlt : (P.chainKeyAt start i).index < counter := by
      rw [UInt32.lt_iff_toNat_lt, Provider.chainKeyAt_index, toNat_ofNat32 hi]
      omega
    rw [skipMessageKeys, if_pos hlt, Provider.createNext_chainKeyAt, setMessageKeys_keep,
      skipMessageKeys_chainKeyAt key counter start state n (i + 1) _ (by omega),
      List.range'_succ, List.map_cons, List.append_assoc, List.singleton_append,
      show i + 1 + n = i + (n + 1) by omega]
    rfl

section MessageKeys

variable {s : Session Priv Pub B} {key : Pub} {c : ReceivingChain Pub B} {counter : UInt32}

/-- An old counter is served from the skipped keys. -/
theorem removeMessageKeys_toState (hc : s.chainFor key = some c)
    (hlt : c.window.next < 2 ^ 32) :
    (s.toState P).removeMessageKeys key counter =
      if counter.toNat ∈ c.window.held then
        some (P.messageKeysAt c.start counter.toNat,
          (s.setWindow key (c.window.take counter.toNat)).toState P)
      else none := by
  have hheld : ∀ d ∈ c.window.held, d < 2 ^ 32 := fun d hd => (c.window.below d hd).trans hlt
  have hset : (s.toState P).modifyReceiverChain key (fun chain =>
      { chain with messageKeys := chain.messageKeys.eraseP fun k => k.counter = counter }) =
        (s.setWindow key (c.window.take counter.toNat)).toState P :=
    modifyReceiverChain_toState hc (by
      simp only [ReceivingChain.toChain, eraseP_messageKeysAt hheld]
      rfl)
  rw [SessionState.removeMessageKeys, findReceiverChain_toState, hc, hset]
  simp only [Option.map_some, Option.bind_eq_bind, Option.bind_some, ReceivingChain.toChain,
    find?_messageKeysAt hheld]
  split <;> rfl

/-- A new counter advances the chain and sets the keys in between aside. -/
theorem skip_toState (hc : s.chainFor key = some c) (h : c.window.next ≤ counter.toNat) :
    let skipped := skipMessageKeys P key counter (counter.toNat - c.window.next)
      (P.chainKeyAt c.start c.window.next) (s.toState P)
    skipped.1 = P.chainKeyAt c.start counter.toNat ∧
      skipped.2.setReceiverChainKey key (skipped.1.createNext P) =
        .ok ((s.setWindow key (c.window.advance counter.toNat h)).toState P) := by
  have hid : (s.toState P).modifyReceiverChain key (ReceiverChain.keep []) = s.toState P := by
    have hw : s.toState P = (s.setWindow key c.window).toState P := by
      rw [← modifyReceiverChain_toState (f := id) hc rfl]
      simp only [SessionState.modifyReceiverChain, modifyFirst_eq_self fun a _ _ => id_eq a]
    rw [modifyReceiverChain_toState (w := c.window) hc, ← hw]
    simp only [ReceiverChain.keep, ReceivingChain.toChain, List.append_nil]
    rw [Session.rtake_of_length_le]
    rw [List.length_map]
    exact c.window.bounded
  have hskip := skipMessageKeys_chainKeyAt (P := P) key counter c.start (s.toState P)
    (counter.toNat - c.window.next) c.window.next [] (by omega)
  rw [hid, List.nil_append] at hskip
  have hnext : c.window.next + (counter.toNat - c.window.next) = counter.toNat := by omega
  rw [hnext] at hskip
  simp only [hskip, true_and]
  rw [setReceiverChainKey_modify (fun c => by rw [ReceiverChain.keep])
    (by rw [findReceiverChain_toState, hc]; rfl), Provider.createNext_chainKeyAt]
  congr 1
  refine modifyReceiverChain_toState hc ?_
  simp only [Function.comp_apply, ReceiverChain.keep, ReceivingChain.toChain, Window.advance,
    Window.reached, Session.map_rtake, List.map_append]

/-- **The keys of one message** are those of its counter in its chain, and the chain's window
decides whether there are any. -/
theorem getOrCreateMessageKeys_toState (hc : s.chainFor key = some c)
    (hlt : c.window.next < 2 ^ 32) :
    (sessionCipherGetOrCreateMessageKeys P key
        (P.chainKeyAt c.start c.window.next) counter).onCopy (s.toState P) =
      match c.window.request Session.reach counter.toNat with
      | .ok w => .ok (P.messageKeysAt c.start counter.toNat, (s.setWindow key w).toState P)
      | .error r => .error (Session.refusalCode r) := by
  have hindex : (P.chainKeyAt c.start c.window.next).index.toNat = c.window.next :=
    toNat_ofNat32 hlt
  rw [onCopy_getOrCreateMessageKeys]
  by_cases h : c.window.next ≤ counter.toNat
  · have hle : (P.chainKeyAt c.start c.window.next).index ≤ counter := by
      rw [UInt32.le_iff_toNat_le, hindex]
      exact h
    have hsub : (counter - (P.chainKeyAt c.start c.window.next).index).toNat =
        counter.toNat - c.window.next := by
      rw [UInt32.toNat_sub_of_le _ _ hle, hindex]
    rw [if_neg (UInt32.not_lt.2 hle)]
    by_cases hr : counter.toNat - c.window.next ≤ Session.reach
    · have hr' : ¬ counter - (P.chainKeyAt c.start c.window.next).index > 2000 := by
        rw [gt_iff_lt, UInt32.lt_iff_toNat_lt, hsub]
        exact Nat.not_lt.2 hr
      obtain ⟨h1, h2⟩ := skip_toState (P := P) hc h
      rw [h1] at h2
      rw [if_neg hr', Window.request_of_ahead h hr, hsub]
      simp only [h1, h2]
      rfl
    · have hr' : counter - (P.chainKeyAt c.start c.window.next).index > 2000 := by
        rw [gt_iff_lt, UInt32.lt_iff_toNat_lt, hsub]
        exact Nat.not_le.1 hr
      rw [if_pos hr', Window.request_of_tooFar (by omega)]
      rfl
  · have hgt : (P.chainKeyAt c.start c.window.next).index > counter := by
      rw [gt_iff_lt, UInt32.lt_iff_toNat_lt, hindex]
      omega
    rw [if_pos hgt, removeMessageKeys_toState hc hlt]
    by_cases hm : counter.toNat ∈ c.window.held
    · rw [if_pos hm, Window.request_of_held hm]
    · rw [if_neg hm, Window.Spent.request ⟨by omega, hm⟩]
      rfl

end MessageKeys

/-! ## 5. The ratchet step -/

theorem chainFor_ratchet (s : Session Priv Pub B) {key : Pub} (hkey : s.chainFor key = none)
    (ours : Priv) : (s.ratchet P key hkey ours).chainFor key = some (s.newChain P key) := by
  have hm : s.newChain P key ∈ (s.ratchet P key hkey ours).receivers := by
    have h : (s.receivers ++ [s.newChain P key]).length - maxReceiverChains ≤
        s.receivers.length := by
      rw [List.length_append, List.length_singleton, maxReceiverChains]
      omega
    show s.newChain P key ∈ (s.receivers ++ [s.newChain P key]).rtake maxReceiverChains
    rw [List.rtake, List.drop_append_of_le_length h]
    simp
  exact Session.chainFor_of_mem hm

theorem ratchet_toState (s : Session Priv Pub B) {key : Pub} (hkey : s.chainFor key = none)
    (hlt : s.sender.next < 2 ^ 32) (ours : Priv) :
    (s.ratchet P key hkey ours).toState P =
      { (SessionState.setSenderChain (P.pair ours)
          (P.chainKeyAt (P.ratchetStart (s.middleRoot P key) (P.agreement key ours)) 0)
          (SessionState.addReceiverChain key (P.chainKeyAt (s.newChain P key).start 0)
            (s.toState P))) with
        rootKey := some ⟨kdf3, P.ratchetRoot (s.middleRoot P key) (P.agreement key ours)⟩
        previousCounter :=
          if UInt32.ofNat s.sender.next > 0 then UInt32.ofNat s.sender.next - 1
          else UInt32.ofNat s.sender.next } := by
  have hprev : UInt32.ofNat (s.sender.next - 1) =
      if UInt32.ofNat s.sender.next > 0 then UInt32.ofNat s.sender.next - 1
      else UInt32.ofNat s.sender.next := by
    rcases Nat.eq_zero_or_pos s.sender.next with h0 | h0
    · rw [h0]
      rfl
    · have hpos : UInt32.ofNat s.sender.next > 0 := by
        rw [gt_iff_lt, UInt32.lt_iff_toNat_lt, toNat_ofNat32 hlt]
        exact h0
      have hone : (1 : UInt32) ≤ UInt32.ofNat s.sender.next := by
        rw [UInt32.le_iff_toNat_le, toNat_ofNat32 hlt]
        exact h0
      rw [if_pos hpos]
      apply UInt32.toNat_inj.1
      rw [UInt32.toNat_sub_of_le _ _ hone, toNat_ofNat32 hlt, toNat_ofNat32 (by omega)]
      rfl
  simp only [Session.toState, Session.ratchet, SessionState.setSenderChain,
    SessionState.addReceiverChain, Session.map_rtake, List.map_append, List.map_singleton,
    ← hprev]
  rfl

theorem openChain_of_some {rng : Rng Priv B} {s : Session Priv Pub B} {key : Pub}
    {c : ReceivingChain Pub B} (h : s.chainFor key = some c) :
    s.openChain P rng key = pure (c, s) := by
  unfold Session.openChain
  split
  · rename_i c' hc'
    cases h.symm.trans hc'
    rfl
  · rename_i hc'
    exact absurd (h.symm.trans hc') (Option.some_ne_none _)

theorem openChain_of_none {rng : Rng Priv B} {s : Session Priv Pub B} {key : Pub}
    (h : s.chainFor key = none) :
    s.openChain P rng key = (do
      let ours ← draw rng.privateKey
      return (s.newChain P key, s.ratchet P key h ours)) := by
  unfold Session.openChain
  split
  · rename_i c' hc'
    exact absurd (hc'.symm.trans h) (Option.some_ne_none _)
  · rfl

/-- **Opening a chain** finds it or makes a ratchet step. -/
theorem getOrCreateChainKey_toState (rng : Rng Priv B) (s : Session Priv Pub B)
    (hlt : s.sender.next < 2 ^ 32) (key : Pub) :
    sessionCipherGetOrCreateChainKey P rng (s.toState P) key = (do
      let opened ← s.openChain P rng key
      return (P.chainKeyAt opened.1.start opened.1.window.next, opened.2.toState P)) := by
  unfold sessionCipherGetOrCreateChainKey
  rw [getReceiverChainKey_toState]
  cases hc : s.chainFor key with
  | some c =>
    rw [openChain_of_some hc]
    rfl
  | none =>
    rw [openChain_of_none hc, Op.bind_assoc]
    funext n
    simp only [Op.pure_bind_apply, ratchet_toState s hc hlt]
    simp only [Option.map_none, curveGenerateKeyPair, Session.toState, Op.ofOption_some,
      Op.pure_bind_apply, SessionState.getSenderRatchetKeyPair, Option.bind_some,
      SendingChain.toChain, Op.bind_assoc]
    rw [Op.bind_apply, Op.bind_apply]
    rcases draw rng.privateKey n with ⟨_ | ours, n'⟩
    · rfl
    · simp only [SessionState.getSenderChainKey, SessionState.addReceiverChain,
        Option.bind_some, Op.ofOption_some, Op.pure_bind_apply, Provider.createChain_kdf3,
        Provider.pair_privateKey]
      rfl

/-- **What opening a chain can do**: find it, or make a ratchet step with the next draw. -/
theorem openChain_ok_iff {rng : Rng Priv B} {s s₁ : Session Priv Pub B} {key : Pub}
    {c : ReceivingChain Pub B} {n n' : Nat} :
    s.openChain P rng key n = (.ok (c, s₁), n') ↔
      (s.chainFor key = some c ∧ s₁ = s ∧ n' = n) ∨
        ∃ (h : s.chainFor key = none) (ours : Priv), rng.privateKey n = .ok ours ∧
          c = s.newChain P key ∧ s₁ = s.ratchet P key h ours ∧ n' = n + 1 := by
  constructor
  · intro ho
    rcases Option.eq_none_or_eq_some (s.chainFor key) with h | ⟨c', h⟩
    · rw [openChain_of_none h, Op.bind_ok_iff] at ho
      obtain ⟨ours, m, hd, hp⟩ := ho
      obtain ⟨hk, rfl⟩ := Prod.mk.inj hd
      cases hp
      exact Or.inr ⟨h, ours, hk, rfl, rfl, rfl⟩
    · rw [openChain_of_some h] at ho
      cases ho
      exact Or.inl ⟨h, rfl, rfl⟩
  · rintro (⟨h, rfl, rfl⟩ | ⟨h, ours, hk, rfl, rfl, rfl⟩)
    · rw [openChain_of_some h]
      rfl
    · rw [openChain_of_none h, Op.bind_ok_iff]
      exact ⟨ours, n + 1, by rw [draw, hk], rfl⟩

theorem openChain_spec {rng : Rng Priv B} {s s₁ : Session Priv Pub B} {key : Pub}
    {c : ReceivingChain Pub B} {n n' : Nat} (hs : s.InRange)
    (h : s.openChain P rng key n = (.ok (c, s₁), n')) :
    s₁.chainFor key = some c ∧ c.window.next < 2 ^ 32 ∧
      s₁.remoteIdentity = s.remoteIdentity ∧ s₁.localIdentity = s.localIdentity := by
  rcases openChain_ok_iff.1 h with ⟨hc, rfl, -⟩ | ⟨hnone, ours, -, rfl, rfl, -⟩
  · exact ⟨hc, hs.receivers c (Session.chainFor_mem hc).1, rfl, rfl⟩
  · exact ⟨chainFor_ratchet s hnone ours, Nat.two_pow_pos 32, rfl, rfl⟩

/-! ## 6. Receiving -/

variable [DecidableEq B]

/-- **Decrypting against a state is receiving with its session.** -/
theorem decryptFromState_toState (rng : Rng Priv B) {s : Session Priv Pub B} (hs : s.InRange)
    (m : SignalMessage Pub B) :
    sessionCipherDecryptFromState P rng (s.toState P) m = (do
      let result ← s.receive P rng m
      return (result.1, result.2.toState P)) := by
  unfold sessionCipherDecryptFromState Session.receive
  funext n
  have hsender : (s.toState P).hasSenderChain = true := rfl
  simp only [getOrCreateChainKey_toState rng s hs.sender, Op.require_of hsender,
    Op.pure_bind_apply, Op.bind_assoc,
    Op.require_congr (show m.messageVersion.toUInt32 = (s.toState P).sessionVersion ↔
      m.messageVersion = 3 from toUInt32_eq_three _)]
  by_cases hv : m.messageVersion = 3
  · simp only [Op.require_of hv, Op.pure_bind_apply]
    rw [Op.bind_apply, Op.bind_apply]
    rcases hopen : s.openChain P rng m.senderRatchetKey n with ⟨_ | ⟨c, s₁⟩, n'⟩
    · rfl
    · obtain ⟨hc, hlt, hr, hl⟩ := openChain_spec hs hopen
      simp only [getOrCreateMessageKeys_toState hc hlt]
      cases c.window.request Session.reach m.counter.toNat with
      | error r => rfl
      | ok w =>
        have hv32 : m.messageVersion.toUInt32 ≥ 3 := by rw [hv]; decide
        simp only [Except.mapError, Op.ofExcept_ok, Op.pure_bind_apply, Session.toState,
          Session.setWindow, Op.ofOption_some, hr, hl, sessionCipherGetPlaintext, if_pos hv32]
        rfl
  · simp only [Op.require_of_not hv, Op.fail_bind]

/-- **Searching a record is receiving with the first session that can.** -/
theorem tryStates_toState (rng : Rng Priv B) (m : SignalMessage Pub B) :
    ∀ {l : List (Session Priv Pub B)}, (∀ s ∈ l, s.InRange) →
      sessionCipherTryStates P rng m (l.map (Session.toState P)) = (do
        let result ← Session.receiveAny P rng m l
        return (result.1, result.2.1.toState P, result.2.2))
  | [], _ => (sessionCipherTryStates_nil P rng m).trans rfl
  | s :: l, h => by
    have ih := tryStates_toState rng m fun t ht => h t (List.mem_cons_of_mem _ ht)
    rw [List.map_cons, sessionCipherTryStates_cons, Session.receiveAny,
      SessionState.copy_of_storable (s.storable_toState P), ih]
    simp only [decryptFromState_toState rng (h s List.mem_cons_self), Op.ofExcept_ok,
      Op.pure_bind_apply, Op.bind_assoc, Op.recover_bind_pure]

end Chains

/-! ## 7. Sending -/

theorem wrapUnacknowledged_toState (s : Session Priv Pub B) (message : SignalMessage Pub B) :
    wrapUnacknowledged (s.toState P) s.localIdentity message = s.wrap message := by
  unfold wrapUnacknowledged Session.wrap
  simp only [Session.toState]
  rcases s.pendingPreKey with _ | ⟨_, _, _ | _⟩ <;> rfl

/-- **Encrypting with a state is sending with its session.** -/
theorem encryptWithState_toState (s : Session Priv Pub B) (plaintext : B) :
    encryptWithState P (s.toState P) plaintext =
      (s.send P plaintext).map fun result => (result.1, result.2.toState P) := by
  have hnext : SessionState.setSenderChainKey
      ((P.chainKeyAt s.sender.start s.sender.next).createNext P) (s.toState P) =
        .ok (s.sent.toState P) := by
    rw [Provider.createNext_chainKeyAt]
    rfl
  have hcipher : sessionCipherGetCiphertext P (s.toState P).sessionVersion
      (P.messageKeysAt s.sender.start s.sender.next) plaintext =
        P.encrypt .cbcPkcs5 (P.messageKeysAt s.sender.start s.sender.next).cipherKey
          (P.messageKeysAt s.sender.start s.sender.next).iv plaintext := by
    rw [sessionCipherGetCiphertext, if_pos (by show (3 : UInt32) ≥ 3; decide)]
  -- the parts of the record are all present, so both sides are the same three steps
  have hsteps : encryptWithState P (s.toState P) plaintext =
      (sessionCipherGetCiphertext P (s.toState P).sessionVersion
        (P.messageKeysAt s.sender.start s.sender.next) plaintext >>= fun ciphertext =>
        wrapUnacknowledged (s.toState P) s.localIdentity (s.message P ciphertext) >>= fun w =>
        SessionState.setSenderChainKey
          ((P.chainKeyAt s.sender.start s.sender.next).createNext P) (s.toState P) >>= fun t =>
        pure (w, t)) := rfl
  rw [hsteps, hcipher, hnext, Session.send]
  cases P.encrypt .cbcPkcs5 (P.messageKeysAt s.sender.start s.sender.next).cipherKey
      (P.messageKeysAt s.sender.start s.sender.next).iv plaintext with
  | error e => rfl
  | ok ciphertext =>
    simp only [wrapUnacknowledged_toState, bind, Except.bind]
    cases s.wrap (s.message P ciphertext) <;> rfl

end SignalProtocol
