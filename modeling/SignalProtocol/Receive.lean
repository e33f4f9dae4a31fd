/-
# What a session accepts

The inversion lemmas for sending and receiving that every later argument about runs starts
from, and the two facts about authentication they are used with:

* a message verifies under at most one MAC key (`SignalMessage.verifyMac_unique`), hence on a
  chain with at most one first key (`Session.startFor_unique`): whoever accepts a message,
  now or later, accepts it on the same chain;
* a message that was made with the keys of a chain decrypts to what was encrypted, wherever
  it is accepted (`Session.plaintext_of_receive`).
-/
import SignalProtocol.Refine

namespace SignalProtocol

variable {Priv Pub B : Type} {P : Provider Priv Pub B}

/-! ## 1. Authentication -/

section Mac

variable [DecidableEq B]

/-- **A message verifies under at most one MAC key.** -/
theorem SignalMessage.verifyMac_unique (h : Ideal P) {m : SignalMessage Pub B}
    {a b a' b' : Pub} {k k' : B} (h1 : m.verifyMac P a b k = true)
    (h2 : m.verifyMac P a' b' k' = true) : k = k' := by
  have h3 := (of_decide_eq_true h1).trans (of_decide_eq_true h2).symm
  exact (h.mac_inj h3).1

/-- A created message verifies under the key it was made with. -/
theorem SignalMessage.verifyMac_create (version : UInt8) (macKey : B) (ratchetKey : Pub)
    (counter previous : UInt32) (ciphertext : B) (sender receiver : Pub) :
    (SignalMessage.create P version macKey ratchetKey counter previous ciphertext sender
      receiver).verifyMac P sender receiver macKey = true :=
  decide_eq_true rfl

end Mac

/-! ## 2. Sending -/

namespace Session

/-- **What sending does**: one ciphertext under the keys of the current position, and one
step of the sending chain. -/
theorem send_ok_iff {s s' : Session Priv Pub B} {plaintext : B} {c : CiphertextMessage Pub B} :
    s.send P plaintext = .ok (c, s') ↔
      ∃ ciphertext, P.encrypt .cbcPkcs5 (P.messageKeysAt s.sender.start s.sender.next).cipherKey
          (P.messageKeysAt s.sender.start s.sender.next).iv plaintext = .ok ciphertext ∧
        s.wrap (s.message P ciphertext) = .ok c ∧ s' = s.sent := by
  rw [Session.send]
  cases he : P.encrypt .cbcPkcs5 (P.messageKeysAt s.sender.start s.sender.next).cipherKey
      (P.messageKeysAt s.sender.start s.sender.next).iv plaintext with
  | error e =>
    constructor
    · rintro ⟨⟩
    · rintro ⟨_, ⟨⟩, -⟩
  | ok ciphertext =>
    cases hw : s.wrap (s.message P ciphertext) with
    | error e =>
      simp only [bind, Except.bind, hw]
      constructor
      · rintro ⟨⟩
      · rintro ⟨_, ⟨⟩, h, -⟩
        rw [hw] at h
        cases h
    | ok c' =>
      simp only [bind, Except.bind, hw, pure, Except.pure]
      constructor
      · rintro ⟨⟩
        exact ⟨ciphertext, rfl, hw, rfl⟩
      · rintro ⟨_, ⟨⟩, h, rfl⟩
        rw [hw] at h
        cases h
        rfl

/-- What leaves a session is or carries the message it made. -/
theorem wrap_inner {s : Session Priv Pub B} {m : SignalMessage Pub B}
    {c : CiphertextMessage Pub B} (h : s.wrap m = .ok c) : c.inner = m := by
  unfold wrap at h
  split at h
  · cases h
    rfl
  · cases h
  · cases h
    rfl

/-- The counter of a message is the position of its sender. -/
theorem counter_of_send {s s' : Session Priv Pub B} {plaintext : B} {c : CiphertextMessage Pub B}
    (h : s.send P plaintext = .ok (c, s')) (hnext : s.sender.next < 2 ^ 32) :
    c.inner.counter.toNat = s.sender.next := by
  obtain ⟨ciphertext, -, hwrap, -⟩ := send_ok_iff.1 h
  rw [wrap_inner hwrap]
  exact toNat_ofNat32 hnext

theorem inRange_sent {s : Session Priv Pub B} (h : s.InRange)
    (hn : s.sender.next + 1 < 2 ^ 32) : s.sent.InRange :=
  ⟨hn, h.receivers⟩

/-- **Sending keeps the counters in range**, except with the very last counter. -/
theorem inRange_send {s s' : Session Priv Pub B} {plaintext : B} {c : CiphertextMessage Pub B}
    (hs : s.InRange) (h : s.send P plaintext = .ok (c, s'))
    (hc : c.inner.counter.toNat + 1 < 2 ^ 32) : s'.InRange := by
  rw [counter_of_send h hs.sender] at hc
  obtain ⟨-, -, -, rfl⟩ := send_ok_iff.1 h
  exact inRange_sent hs hc

/-! ## 3. Receiving with one session -/

section Receive

variable [DecidableEq Pub]

/-- The first key of the chain on which a message with this ratchet key is tried. -/
def startFor (P : Provider Priv Pub B) (s : Session Priv Pub B) (key : Pub) : B :=
  ((s.chainFor key).getD (s.newChain P key)).start

theorem startFor_of_openChain {rng : Rng Priv B} {s s₁ : Session Priv Pub B} {key : Pub}
    {c : ReceivingChain Pub B} {n n' : Nat}
    (h : s.openChain P rng key n = (.ok (c, s₁), n')) : c.start = s.startFor P key := by
  rcases openChain_ok_iff.1 h with ⟨hc, -⟩ | ⟨hc, _, -, rfl, -⟩
  · rw [startFor, hc]
    rfl
  · rw [startFor, hc]
    rfl

/-- Setting the window of one chain: what holds of the others still does. -/
theorem mem_setWindow {s : Session Priv Pub B} {key : Pub} {w : Window maxMessageKeys}
    {c : ReceivingChain Pub B}
    (h : c ∈ (s.setWindow key w).receivers) :
    (c ∈ s.receivers ∧ c.ratchetKey ≠ key) ∨
      ∃ c₀ ∈ s.receivers, c₀.ratchetKey = key ∧ c = { c₀ with window := w } := by
  obtain ⟨c₀, hc₀, rfl⟩ := List.mem_map.1 h
  by_cases hk : c₀.ratchetKey = key
  · rw [if_pos hk]
    exact Or.inr ⟨c₀, hc₀, hk, rfl⟩
  · rw [if_neg hk]
    exact Or.inl ⟨hc₀, hk⟩

variable [DecidableEq B] {rng : Rng Priv B} {s s' : Session Priv Pub B}
  {m : SignalMessage Pub B} {n n' : Nat} {plaintext : B}

/-- **What receiving does.**  A chain is found or opened, its window admits the counter, and
the keys of that position verify and decrypt the message. -/
theorem receive_ok_iff : s.receive P rng m n = (.ok (plaintext, s'), n') ↔
    m.messageVersion = 3 ∧ ∃ c s₁ w,
      s.openChain P rng m.senderRatchetKey n = (.ok (c, s₁), n') ∧
      c.window.request reach m.counter.toNat = .ok w ∧
      m.verifyMac P s.remoteIdentity s.localIdentity
        (P.messageKeysAt c.start m.counter.toNat).macKey = true ∧
      P.decrypt .cbcPkcs5 (P.messageKeysAt c.start m.counter.toNat).cipherKey
        (P.messageKeysAt c.start m.counter.toNat).iv m.ciphertext = .ok plaintext ∧
      s' = (s₁.setWindow m.senderRatchetKey w).acknowledge := by
  unfold receive
  simp only [Op.bind_ok_iff, Op.require_ok_iff, Op.ofExcept_apply, Op.pure_apply,
    Prod.mk.injEq, Except.ok.injEq]
  constructor
  · rintro ⟨_, _, ⟨hv, rfl⟩, ⟨c, s₁⟩, n₁, ho, w, _, ⟨hw, rfl⟩, _, _, ⟨hm, rfl⟩, p, _, ⟨hd, rfl⟩,
      ⟨rfl, rfl⟩, rfl⟩
    refine ⟨hv, c, s₁, w, ho, ?_, hm, hd, rfl⟩
    cases hr : c.window.request reach m.counter.toNat with
    | error r =>
      rw [hr] at hw
      cases hw
    | ok w' =>
      rw [hr] at hw
      cases hw
      rfl
  · rintro ⟨hv, c, s₁, w, ho, hw, hm, hd, rfl⟩
    exact ⟨(), n, ⟨hv, rfl⟩, (c, s₁), n', ho, w, n', ⟨by rw [hw]; rfl, rfl⟩, (), n', ⟨hm, rfl⟩,
      plaintext, n', ⟨hd, rfl⟩, ⟨rfl, rfl⟩, rfl⟩

/-- The message verified under the keys of its counter in the chain it was tried on. -/
theorem verifyMac_of_receive (h : s.receive P rng m n = (.ok (plaintext, s'), n')) :
    m.verifyMac P s.remoteIdentity s.localIdentity
      (P.messageKeysAt (s.startFor P m.senderRatchetKey) m.counter.toNat).macKey = true := by
  obtain ⟨-, c, s₁, w, ho, -, hm, -⟩ := receive_ok_iff.1 h
  rw [← startFor_of_openChain ho]
  exact hm

/-- **Two acceptances of one message are on one chain.** -/
theorem startFor_unique (hI : Ideal P) {t t' : Session Priv Pub B} {k k' : Nat} {q : B}
    (h : s.receive P rng m n = (.ok (plaintext, s'), n'))
    (h2 : t.receive P rng m k = (.ok (q, t'), k')) :
    s.startFor P m.senderRatchetKey = t.startFor P m.senderRatchetKey :=
  hI.macKey_inj (SignalMessage.verifyMac_unique hI (verifyMac_of_receive h)
    (verifyMac_of_receive h2))

/-- **A message decrypts to what was encrypted into it**, whichever session accepts it: the
MAC leads to the chain it was made on, and so to the cipher key. -/
theorem plaintext_of_receive (hI : Ideal P) {start p : B} {a b : Pub}
    (henc : P.encrypt .cbcPkcs5 (P.messageKeysAt start m.counter.toNat).cipherKey
      (P.messageKeysAt start m.counter.toNat).iv p = .ok m.ciphertext)
    (hmac : m.verifyMac P a b (P.messageKeysAt start m.counter.toNat).macKey = true)
    (h : s.receive P rng m n = (.ok (plaintext, s'), n')) :
    s.startFor P m.senderRatchetKey = start ∧ plaintext = p := by
  have hstart : s.startFor P m.senderRatchetKey = start :=
    hI.macKey_inj (SignalMessage.verifyMac_unique hI (verifyMac_of_receive h) hmac)
  obtain ⟨-, c, s₁, w, ho, -, -, hd, -⟩ := receive_ok_iff.1 h
  rw [startFor_of_openChain ho, hstart, P.decrypt_encrypt henc] at hd
  exact ⟨hstart, (Except.ok.inj hd).symm⟩

/-- What a session that has received something keeps; it is acknowledged. -/
structure Acknowledges (s s' : Session Priv Pub B) : Prop where
  localIdentity : s'.localIdentity = s.localIdentity
  remoteIdentity : s'.remoteIdentity = s.remoteIdentity
  aliceBaseKey : s'.aliceBaseKey = s.aliceBaseKey
  pendingKeyExchange : s'.pendingKeyExchange = s.pendingKeyExchange
  pendingPreKey : s'.pendingPreKey = none

/-- The parts of a session that receiving never changes. -/
theorem receive_frame (h : s.receive P rng m n = (.ok (plaintext, s'), n')) :
    s.Acknowledges s' := by
  obtain ⟨-, c, s₁, w, ho, -, -, -, rfl⟩ := receive_ok_iff.1 h
  rcases openChain_ok_iff.1 ho with ⟨-, rfl, -⟩ | ⟨_, _, -, -, rfl, -⟩
  · exact ⟨rfl, rfl, rfl, rfl, rfl⟩
  · exact ⟨rfl, rfl, rfl, rfl, rfl⟩

/-- Receiving only moves forward in the random source. -/
theorem receive_moves (P : Provider Priv Pub B) (rng : Rng Priv B) (s : Session Priv Pub B)
    (m : SignalMessage Pub B) : Op.Moves (· ≤ ·) (s.receive P rng m) := by
  have hdraw : Op.Moves (· ≤ ·) (draw rng.privateKey) := fun n => Nat.le_succ n
  have hopen : Op.Moves (· ≤ ·) (s.openChain P rng m.senderRatchetKey) := by
    rcases Option.eq_none_or_eq_some (s.chainFor m.senderRatchetKey) with h | ⟨c, h⟩
    · rw [openChain_of_none h]
      exact hdraw.bind fun _ => .pure _
    · rw [openChain_of_some h]
      exact .pure _
  refine Op.Moves.bind (.require _ _) fun _ => hopen.bind fun _ => ?_
  refine Op.Moves.bind (.ofExcept _) fun _ => Op.Moves.bind (.require _ _) fun _ => ?_
  exact Op.Moves.bind (.ofExcept _) fun _ => .pure _

/-- **Receiving keeps the counters in range**, except on the very last counter. -/
theorem inRange_receive (hs : s.InRange) (hm : m.counter.toNat + 1 < 2 ^ 32)
    (h : s.receive P rng m n = (.ok (plaintext, s'), n')) : s'.InRange := by
  obtain ⟨-, c, s₁, w, ho, hw, -, -, rfl⟩ := receive_ok_iff.1 h
  have hwlt : w.next < 2 ^ 32 := by
    rcases Window.request_ok_iff.1 hw with ⟨-, rfl⟩ | ⟨_, -, rfl⟩
    · exact (openChain_spec hs ho).2.1
    · exact hm
  have hs₁ : s₁.InRange := by
    rcases openChain_ok_iff.1 ho with ⟨-, rfl, -⟩ | ⟨_, _, -, -, rfl, -⟩
    · exact hs
    · refine ⟨Nat.two_pow_pos 32, fun d hd => ?_⟩
      rcases List.mem_append.1 (Window.mem_of_mem_rtake hd) with hd | hd
      · exact hs.receivers d hd
      · rw [List.mem_singleton.1 hd]
        exact Nat.two_pow_pos 32
  refine ⟨hs₁.sender, fun d hd => ?_⟩
  obtain ⟨e, he, rfl⟩ := List.mem_map.1 hd
  split
  · exact hwlt
  · exact hs₁.receivers e he

/-- Receiving leaves a pending key exchange alone. -/
theorem pendingKeyExchange_receive (h : s.receive P rng m n = (.ok (plaintext, s'), n')) :
    s'.pendingKeyExchange = s.pendingKeyExchange := by
  obtain ⟨-, c, s₁, w, ho, -, -, -, rfl⟩ := receive_ok_iff.1 h
  rcases openChain_ok_iff.1 ho with ⟨-, rfl, -⟩ | ⟨_, _, -, -, rfl, -⟩ <;> rfl

end Receive

/-! ## 4. Receiving with any of several sessions -/

section Any

variable [DecidableEq Pub] [DecidableEq B] {rng : Rng Priv B} {m : SignalMessage Pub B}

theorem receiveAny_moves (P : Provider Priv Pub B) (rng : Rng Priv B) (m : SignalMessage Pub B) :
    ∀ l : List (Session Priv Pub B), Op.Moves (· ≤ ·) (receiveAny P rng m l)
  | [] => .fail _
  | s :: l => ((receive_moves P rng s m).bind fun _ => .pure _).recover
      ((receiveAny_moves P rng m l).bind fun _ => .pure _)

/-- **What a search does**: some session accepts, and those before it answered
`SG_ERR_INVALID_MESSAGE`. -/
theorem receiveAny_ok {p : B} {s' : Session Priv Pub B} {n' : Nat} :
    ∀ {l : List (Session Priv Pub B)} {i n : Nat},
      receiveAny P rng m l n = (.ok (p, s', i), n') →
      ∃ s k, l[i]? = some s ∧ n ≤ k ∧ s.receive P rng m k = (.ok (p, s'), n')
  | [], i, n, h => by
    cases h
  | s :: l, i, n, h => by
    rw [receiveAny] at h
    rcases hr : s.receive P rng m n with ⟨e | ⟨q, t⟩, k⟩
    · have hx : (do
          let result ← s.receive P rng m
          return (result.1, result.2, 0) : Op SgError Nat _) n = (.error e, k) :=
        Op.bind_of_error hr
      by_cases he : e = .invalidMessage
      · rw [he] at hx
        rw [Op.recover_of_error hx, Op.bind_ok_iff] at h
        obtain ⟨⟨q, t, j⟩, k', h1, h2⟩ := h
        cases h2
        obtain ⟨s₀, k₀, hs₀, hk₀, hr₀⟩ := receiveAny_ok h1
        refine ⟨s₀, k₀, hs₀, ?_, hr₀⟩
        have hk : n ≤ k := by
          have := receive_moves P rng s m n
          rwa [hr] at this
        exact hk.trans hk₀
      · rw [Op.recover_of_other hx he] at h
        cases h
    · have hx : (do
          let result ← s.receive P rng m
          return (result.1, result.2, 0) : Op SgError Nat _) n = (.ok (q, t, 0), k) :=
        (Op.bind_of_ok hr).trans rfl
      rw [Op.recover_of_ok hx] at h
      cases h
      exact ⟨s, n, rfl, Nat.le_refl n, hr⟩

/-- A session that accepts is not passed over. -/
theorem receiveAny_of_ok {s s' : Session Priv Pub B} {p : B} {n n' : Nat}
    (h : s.receive P rng m n = (.ok (p, s'), n')) (rest : List (Session Priv Pub B)) :
    receiveAny P rng m (s :: rest) n = (.ok (p, s', 0), n') := by
  rw [receiveAny]
  exact Op.recover_of_ok ((Op.bind_of_ok h).trans rfl)

end Any

end Session

end SignalProtocol
