/-
# One chain, seen from both ends

A sending chain of one party is a receiving chain of the other.  What has to agree is the ratchet
key, the first chain key and the two identities: the `Stream` of the sending session.  Everything
else is counting.  The sender numbers its messages, and the receiver has a window that says which
numbers it has accepted.

* section 1: the messages of a chain and their deliveries (`Lane`);
* section 2: a session reads a chain (`Session.Reads`) if it has it, or would open it with the
  same first key;
* section 3: a reader accepts every message once (`Session.Reads.deliver`);
* section 4: two sessions that were set up from matching keys read each other.
-/
import SignalProtocol.Ladder
import SignalProtocol.Run

namespace SignalProtocol

variable {Addr Priv Pub B : Type}

/-! ## 1. Messages and deliveries -/

/-- **One direction**: the messages that were encrypted, with their plaintexts, and the deliveries
of these messages, with what the calls returned, latest first. -/
structure Lane (Pub B : Type) where
  sent : List (B × CiphertextMessage Pub B)
  deliveries : List (CiphertextMessage Pub B × Except SgError (Reply Pub B))

namespace Lane

/-- Nothing sent. -/
def empty : Lane Pub B := ⟨[], []⟩

/-- One more message. -/
def send (lane : Lane Pub B) (p : B) (c : CiphertextMessage Pub B) : Lane Pub B :=
  { lane with sent := lane.sent ++ [(p, c)] }

/-- One more delivery. -/
def deliver (lane : Lane Pub B) (c : CiphertextMessage Pub B)
    (result : Except SgError (Reply Pub B)) : Lane Pub B :=
  { lane with deliveries := (c, result) :: lane.deliveries }

/-- The message was delivered. -/
def Delivered (lane : Lane Pub B) (c : CiphertextMessage Pub B) : Prop :=
  c ∈ lane.deliveries.map Prod.fst

/-- The counter of a message that was accepted. -/
def acceptedCounter (e : CiphertextMessage Pub B × Except SgError (Reply Pub B)) : Option Nat :=
  match e.2 with
  | .ok _ => some e.1.inner.counter.toNat
  | .error _ => none

/-- The counters that were accepted, latest first. -/
def accepted (lane : Lane Pub B) : List Nat := lane.deliveries.filterMap acceptedCounter

/-- What a delivery after `earlier` has to return, if `sent` was sent: the plaintext if it is the
first of its message, and `SG_ERR_DUPLICATE_MESSAGE` otherwise. -/
def Answers (sent : List (B × CiphertextMessage Pub B)) (earlier : List (CiphertextMessage Pub B))
    (c : CiphertextMessage Pub B) (result : Except SgError (Reply Pub B)) : Prop :=
  ∃ p, (p, c) ∈ sent ∧ (c ∉ earlier → result = .ok (.plaintext p)) ∧
    (c ∈ earlier → result = .error .duplicateMessage)

/-- **The first delivery of a message returns its plaintext, and every further delivery fails with
`SG_ERR_DUPLICATE_MESSAGE`.** -/
def Served (sent : List (B × CiphertextMessage Pub B)) :
    List (CiphertextMessage Pub B × Except SgError (Reply Pub B)) → Prop
  | [] => True
  | e :: earlier => Answers sent (earlier.map Prod.fst) e.1 e.2 ∧ Served sent earlier

theorem Served.mono {sent sent' : List (B × CiphertextMessage Pub B)} (h : sent ⊆ sent') :
    ∀ {deliveries : List (CiphertextMessage Pub B × Except SgError (Reply Pub B))},
      Served sent deliveries → Served sent' deliveries
  | [], hs => hs
  | _ :: _, ⟨⟨p, hp, hanswer⟩, hs⟩ => ⟨⟨p, h hp, hanswer⟩, Served.mono h hs⟩

section Served

variable {messages : List (B × CiphertextMessage Pub B)} {c : CiphertextMessage Pub B}
  {deliveries : List (CiphertextMessage Pub B × Except SgError (Reply Pub B))}

/-- What was delivered was sent. -/
theorem Served.exists_sent (hs : Served messages deliveries) (hc : c ∈ deliveries.map Prod.fst) :
    ∃ p, (p, c) ∈ messages := by
  induction deliveries with
  | nil => cases hc
  | cons e earlier ih =>
    obtain ⟨⟨p, hp, -⟩, hs⟩ := hs
    rcases List.mem_cons.1 hc with rfl | hc
    · exact ⟨p, hp⟩
    · exact ih hs hc

/-- **What was delivered was accepted**, the first time. -/
theorem Served.accepted (hs : Served messages deliveries) (hc : c ∈ deliveries.map Prod.fst) :
    c.inner.counter.toNat ∈ deliveries.filterMap acceptedCounter := by
  induction deliveries with
  | nil => cases hc
  | cons e earlier ih =>
    obtain ⟨⟨p, -, hfirst, -⟩, hs⟩ := hs
    by_cases hmem : c ∈ earlier.map Prod.fst
    · rw [List.filterMap_cons]
      split
      · exact ih hs hmem
      · exact List.mem_cons_of_mem _ (ih hs hmem)
    · rcases List.mem_cons.1 hc with rfl | hc
      · rw [List.filterMap_cons, acceptedCounter, hfirst hmem]
        exact List.mem_cons_self
      · exact absurd hc hmem

end Served

/-- A counter was accepted with some delivery. -/
theorem exists_of_mem_accepted {lane : Lane Pub B} {n : Nat} (h : n ∈ lane.accepted) :
    ∃ c, lane.Delivered c ∧ c.inner.counter.toNat = n := by
  obtain ⟨e, he, hn⟩ := List.mem_filterMap.1 h
  refine ⟨e.1, List.mem_map_of_mem he, ?_⟩
  unfold acceptedCounter at hn
  split at hn
  · exact Option.some.inj hn
  · cases hn

end Lane

/-! ## 2. Senders and readers -/

/-- **A sending chain as both ends know it.** -/
@[ext] structure Stream (Pub B : Type) where
  key : Pub
  start : B
  sender : Pub
  receiver : Pub

/-- The chain on which a session sends. -/
def Session.stream (s : Session Priv Pub B) : Stream Pub B :=
  ⟨s.sender.pair.publicKey, s.sender.start, s.localIdentity, s.remoteIdentity⟩

/-- **The message was made on the chain from this plaintext.** -/
structure Stream.Carries [DecidableEq B] (P : Provider Priv Pub B) (c : Stream Pub B)
    (m : SignalMessage Pub B) (p : B) : Prop where
  version : m.messageVersion = 3
  key : m.senderRatchetKey = c.key
  verified : m.verifyMac P c.sender c.receiver
    (P.messageKeysAt c.start m.counter.toNat).macKey = true
  decrypts : P.decrypt .cbcPkcs5 (P.messageKeysAt c.start m.counter.toNat).cipherKey
    (P.messageKeysAt c.start m.counter.toNat).iv m.ciphertext = .ok p
  bounded : m.counter.toNat + 1 < 2 ^ 32

/-- The messages were made on the chain, each with a counter of its own. -/
structure Lane.Follows [DecidableEq B] (P : Provider Priv Pub B) (c : Stream Pub B)
    (lane : Lane Pub B) : Prop where
  carried : ∀ e ∈ lane.sent, c.Carries P e.2.inner e.1
  distinct : ∀ e ∈ lane.sent, ∀ e' ∈ lane.sent,
    e.2.inner.counter = e'.2.inner.counter → e = e'
  served : Lane.Served lane.sent lane.deliveries

/-- The counters are below `next`. -/
def Lane.Below (next : Nat) (lane : Lane Pub B) : Prop :=
  ∀ e ∈ lane.sent, e.2.inner.counter.toNat < next

/-- **A session reads a chain** of which it has accepted some counters: it has a receiving chain
for the ratchet key, or would open it, with this first key and the window that the counters
leave. -/
structure Session.Reads [DecidableEq Pub] (P : Provider Priv Pub B) (c : Stream Pub B)
    (accepted : List Nat) (s : Session Priv Pub B) : Prop where
  own : s.localIdentity = c.receiver
  peer : s.remoteIdentity = c.sender
  chain : (s.chainFor c.key).getD (s.newChain P c.key) =
    ⟨c.key, c.start, Window.replay maxMessageKeys accepted⟩

/-- Nothing was sent. -/
theorem Lane.follows_empty [DecidableEq B] (P : Provider Priv Pub B) (c : Stream Pub B) :
    (Lane.empty : Lane Pub B).Follows P c where
  carried e he := by cases he
  distinct e he := by cases he
  served := trivial

section Sending

variable [DecidableEq B] {P : Provider Priv Pub B} {lane : Lane Pub B} {c : Stream Pub B}
  {s s' : Session Priv Pub B} {p : B} {m : CiphertextMessage Pub B}

/-- **What a session sends is made on its chain.** -/
theorem carries_of_send (hs : s.send P p = .ok (m, s')) (hnext : s.sender.next + 1 < 2 ^ 32) :
    s.stream.Carries P m.inner p := by
  have hcounter := Session.counter_of_send hs (Nat.lt_of_succ_lt hnext)
  obtain ⟨ciphertext, hencrypt, hwrap, -⟩ := Session.send_ok_iff.1 hs
  rw [Session.wrap_inner hwrap] at hcounter ⊢
  refine ⟨rfl, rfl, ?_, ?_, ?_⟩
  · rw [hcounter]
    exact SignalMessage.verifyMac_create ..
  · rw [hcounter]
    exact P.decrypt_encrypt hencrypt
  · rwa [hcounter]

/-- **Sending keeps the account of a chain.** -/
theorem Lane.Follows.send (h : lane.Follows P s.stream) (hb : lane.Below s.sender.next)
    (hs : s.send P p = .ok (m, s')) (hnext : s.sender.next + 1 < 2 ^ 32) :
    (lane.send p m).Follows P s.stream ∧ (lane.send p m).Below (s.sender.next + 1) := by
  have hcounter := Session.counter_of_send hs (Nat.lt_of_succ_lt hnext)
  have hne : ∀ e ∈ lane.sent, e.2.inner.counter ≠ m.inner.counter := by
    intro e he heq
    have hlt := hb e he
    rw [heq, hcounter] at hlt
    exact Nat.lt_irrefl _ hlt
  refine ⟨⟨fun e he => ?_, fun e he e' he' heq => ?_, h.served.mono (List.subset_append_left ..)⟩,
    fun e he => ?_⟩
  · rcases List.mem_append.1 he with he | he
    · exact h.carried e he
    · rw [List.mem_singleton.1 he]
      exact carries_of_send hs hnext
  · rcases List.mem_append.1 he with he | he <;> rcases List.mem_append.1 he' with he' | he'
    · exact h.distinct e he e' he' heq
    · rw [List.mem_singleton.1 he'] at heq
      exact absurd heq (hne e he)
    · rw [List.mem_singleton.1 he] at heq
      exact absurd heq.symm (hne e' he')
    · rw [List.mem_singleton.1 he, List.mem_singleton.1 he']
  · rcases List.mem_append.1 he with he | he
    · exact Nat.lt_succ_of_lt (hb e he)
    · rw [List.mem_singleton.1 he, hcounter]
      exact Nat.lt_succ_self _

/-- The counters of what was delivered are spent. -/
theorem Lane.Follows.spent (h : lane.Follows P c) {m : CiphertextMessage Pub B}
    (hm : lane.Delivered m) :
    (Window.replay maxMessageKeys lane.accepted).Spent m.inner.counter.toNat :=
  Window.spent_of_mem_replayFrom (h.served.accepted hm)

/-- **The window admits what was not delivered**, within its limits. -/
theorem Lane.Follows.admits (h : lane.Follows P c) {e : B × CiphertextMessage Pub B}
    (he : e ∈ lane.sent) (hnew : ¬ lane.Delivered e.2)
    (hreach : e.2.inner.counter.toNat ≤
      (Window.replay maxMessageKeys lane.accepted).next + Session.reach)
    (hevicted : e.2.inner.counter.toNat ∉ Window.evicted maxMessageKeys lane.accepted) :
    ∃ w, (Window.replay maxMessageKeys lane.accepted).request Session.reach
      e.2.inner.counter.toNat = .ok w := by
  have hcounter : e.2.inner.counter.toNat ∉ lane.accepted := by
    intro hmem
    obtain ⟨m, hm, hsame⟩ := Lane.exists_of_mem_accepted hmem
    obtain ⟨p, hp⟩ := h.served.exists_sent hm
    have heq := h.distinct e he (p, m) hp (UInt32.toNat_inj.1 hsame.symm)
    rw [heq] at hnew
    exact hnew hm
  rcases Nat.lt_or_ge e.2.inner.counter.toNat
      (Window.replay maxMessageKeys lane.accepted).next with hlt | hge
  · exact ⟨_, Window.request_of_held (Window.held_of_passed hlt hcounter hevicted)⟩
  · exact ⟨_, Window.request_of_ahead hge (Nat.sub_le_iff_le_add'.2 hreach)⟩

end Sending

/-! ## 3. Reading -/

section Reading

variable [DecidableEq Pub] {P : Provider Priv Pub B} {lane : Lane Pub B} {c : Stream Pub B}
  {s s' : Session Priv Pub B} {accepted : List Nat}

/-- Sending leaves the receiving chains alone. -/
theorem Session.Reads.sent (h : s.Reads P c accepted) : s.sent.Reads P c accepted :=
  ⟨h.own, h.peer, h.chain⟩

/-- A session that has accepted a message of the chain has the chain. -/
theorem Session.Reads.chainFor (h : s.Reads P c accepted) (hne : accepted ≠ []) :
    s.chainFor c.key = some ⟨c.key, c.start, Window.replay maxMessageKeys accepted⟩ := by
  cases hc : s.chainFor c.key with
  | some chain =>
    have hchain := h.chain
    rw [hc] at hchain
    exact congrArg some hchain
  | none =>
    -- a chain that is opened now has an empty window, and something is spent in this one
    have hchain := h.chain
    rw [hc] at hchain
    have hwindow : Window.empty = Window.replay maxMessageKeys accepted :=
      congrArg ReceivingChain.window hchain
    obtain ⟨n, earlier, rfl⟩ := List.exists_cons_of_ne_nil hne
    have hspent : (Window.replay maxMessageKeys (n :: earlier)).Spent n :=
      Window.spent_accept _ n
    rw [← hwindow] at hspent
    exact absurd hspent.1 (Nat.not_lt_zero n)

theorem chainFor_setWindow {key : Pub} {chain : ReceivingChain Pub B}
    (h : s.chainFor key = some chain) (w : Window maxMessageKeys) :
    (s.setWindow key w).chainFor key = some { chain with window := w } := by
  obtain ⟨hmem, rfl⟩ := Session.chainFor_mem h
  have hnew : ({ chain with window := w } : ReceivingChain Pub B) ∈
      (s.setWindow chain.ratchetKey w).receivers := by
    refine List.mem_map.2 ⟨chain, hmem, ?_⟩
    rw [if_pos rfl]
  exact Session.chainFor_of_mem hnew

variable {rng : Rng Priv B} {n n' : Nat}

/-- **A reader opens the chain.** -/
theorem Session.Reads.openChain (h : s.Reads P c accepted)
    (hrng : ∀ n, ∃ k, rng.privateKey n = .ok k) (n : Nat) :
    ∃ s₁ n', s.openChain P rng c.key n =
        (.ok (⟨c.key, c.start, Window.replay maxMessageKeys accepted⟩, s₁), n') ∧
      s₁.chainFor c.key = some ⟨c.key, c.start, Window.replay maxMessageKeys accepted⟩ ∧
      s₁.localIdentity = s.localIdentity ∧ s₁.remoteIdentity = s.remoteIdentity := by
  have hchain := h.chain
  cases hc : s.chainFor c.key with
  | some chain =>
    rw [hc, Option.getD_some] at hchain
    rw [hchain] at hc
    exact ⟨s, n, openChain_ok_iff.2 (Or.inl ⟨hc, rfl, rfl⟩), hc, rfl, rfl⟩
  | none =>
    rw [hc, Option.getD_none] at hchain
    obtain ⟨ours, hours⟩ := hrng n
    refine ⟨_, n + 1, openChain_ok_iff.2 (Or.inr ⟨hc, ours, hours, hchain.symm, rfl, rfl⟩), ?_, rfl,
      rfl⟩
    rw [chainFor_ratchet, hchain]

variable [DecidableEq B] {m : SignalMessage Pub B} {p : B}

/-- **A reader accepts what its window admits.** -/
theorem Session.Reads.receive (h : s.Reads P c accepted) (hm : c.Carries P m p)
    (hrng : ∀ n, ∃ k, rng.privateKey n = .ok k) {w : Window maxMessageKeys}
    (hw : (Window.replay maxMessageKeys accepted).request Session.reach m.counter.toNat = .ok w)
    (n : Nat) : ∃ s' n', s.receive P rng m n = (.ok (p, s'), n') ∧
      s'.Reads P c (m.counter.toNat :: accepted) := by
  obtain ⟨s₁, n', hopen, hchain, hown, hpeer⟩ := h.openChain hrng n
  rw [← hm.key] at hopen
  refine ⟨_, n', receive_ok_iff.2 ⟨hm.version, _, s₁, w, hopen, hw, ?_, hm.decrypts, rfl⟩, ?_⟩
  · rw [h.own, h.peer]
    exact hm.verified
  · refine ⟨hown.trans h.own, hpeer.trans h.peer, ?_⟩
    have hfound := chainFor_setWindow hchain w
    rw [hm.key]
    have hack : ((s₁.setWindow c.key w).acknowledge).chainFor c.key =
        (s₁.setWindow c.key w).chainFor c.key := rfl
    rw [hack, hfound, Window.eq_accept_of_request hw]
    rfl

/-- **A reader refuses what its window has seen**, as a duplicate. -/
theorem Session.Reads.refuse (h : s.Reads P c accepted) (hm : c.Carries P m p)
    (hrng : ∀ n, ∃ k, rng.privateKey n = .ok k)
    (hspent : (Window.replay maxMessageKeys accepted).Spent m.counter.toNat) (n : Nat) :
    ∃ n', s.receive P rng m n = (.error .duplicateMessage, n') := by
  obtain ⟨s₁, n', hopen, -⟩ := h.openChain hrng n
  rw [← hm.key] at hopen
  refine ⟨n', ?_⟩
  refine (Op.bind_of_ok (a := ()) (Op.require_ok_iff.2 ⟨hm.version, rfl⟩)).trans ?_
  refine (Op.bind_of_ok hopen).trans ?_
  dsimp only
  rw [hspent.request]
  rfl

/-- **Delivering a message of the chain**: it is accepted the first time, and afterwards refused as
a duplicate. -/
theorem Session.Reads.deliver (h : s.Reads P c lane.accepted) (hf : lane.Follows P c)
    {e : B × CiphertextMessage Pub B} (he : e ∈ lane.sent)
    (hrng : ∀ n, ∃ k, rng.privateKey n = .ok k)
    (hlimits : lane.Delivered e.2 ∨ e.2.inner.counter.toNat ≤
      (Window.replay maxMessageKeys lane.accepted).next + Session.reach ∧
        e.2.inner.counter.toNat ∉ Window.evicted maxMessageKeys lane.accepted) (n : Nat) :
    (¬ lane.Delivered e.2 ∧ ∃ s' n', s.receive P rng e.2.inner n = (.ok (e.1, s'), n') ∧
        s'.Reads P c (e.2.inner.counter.toNat :: lane.accepted)) ∨
      (lane.Delivered e.2 ∧
        ∃ n', s.receive P rng e.2.inner n = (.error .duplicateMessage, n')) := by
  by_cases hd : lane.Delivered e.2
  · exact Or.inr ⟨hd, h.refuse (hf.carried e he) hrng (hf.spent hd) n⟩
  · obtain ⟨hreach, hevicted⟩ := hlimits.resolve_left hd
    obtain ⟨w, hw⟩ := hf.admits he hd hreach hevicted
    exact Or.inl ⟨hd, h.receive (hf.carried e he) hrng hw n⟩

/-- A chain for another ratchet key was there before. -/
theorem chainFor_of_receive_other (h : s.receive P rng m n = (.ok (p, s'), n'))
    {key : Pub} (hkey : m.senderRatchetKey ≠ key) {chain : ReceivingChain Pub B}
    (hc : s'.chainFor key = some chain) : s.chainFor key = some chain := by
  obtain ⟨-, opened, s₁, w, hopen, -, -, -, rfl⟩ := Session.receive_ok_iff.1 h
  obtain ⟨hmem, rfl⟩ := Session.chainFor_mem hc
  rcases Session.mem_setWindow hmem with ⟨hmem, -⟩ | ⟨_, -, hk, rfl⟩
  · rcases openChain_ok_iff.1 hopen with ⟨-, rfl, -⟩ | ⟨_, _, -, -, rfl, -⟩
    · exact Session.chainFor_of_mem hmem
    · rcases List.mem_append.1 (Window.mem_of_mem_rtake hmem) with hmem | hmem
      · exact Session.chainFor_of_mem hmem
      · exact absurd (congrArg ReceivingChain.ratchetKey (List.mem_singleton.1 hmem)).symm hkey
  · exact absurd hk.symm hkey

/-- **A reader stays one** when it accepts a message of another chain, as long as that does not
make it drop the chain. -/
theorem Session.Reads.other (h : s.Reads P c accepted) (hne : accepted ≠ [])
    (hr : s.receive P rng m n = (.ok (p, s'), n')) (hkey : m.senderRatchetKey ≠ c.key)
    (hkept : s'.chainFor c.key ≠ none) : s'.Reads P c accepted := by
  have hframe := Session.receive_frame hr
  refine ⟨hframe.localIdentity.trans h.own, hframe.remoteIdentity.trans h.peer, ?_⟩
  obtain ⟨chain, hchain⟩ := Option.ne_none_iff_exists'.1 hkept
  have hold := chainFor_of_receive_other hr hkey hchain
  rw [hchain, ← hold, h.chainFor hne]
  rfl

/-- **What becomes of the sending chain**: it stays if the message came on a chain that was there,
and otherwise it starts anew with a key that is drawn now. -/
theorem sender_of_receive (h : s.receive P rng m n = (.ok (p, s'), n')) :
    (s.chainFor m.senderRatchetKey ≠ none ∧ s'.sender = s.sender) ∨
      (s.chainFor m.senderRatchetKey = none ∧ ∃ ours, rng.privateKey n = .ok ours ∧
        s'.sender = ⟨P.pair ours, P.ratchetStart (s.middleRoot P m.senderRatchetKey)
          (P.agreement m.senderRatchetKey ours), 0⟩) := by
  obtain ⟨-, chain, s₁, w, hopen, -, -, -, rfl⟩ := Session.receive_ok_iff.1 h
  rcases openChain_ok_iff.1 hopen with ⟨hc, rfl, -⟩ | ⟨hc, ours, hours, -, rfl, -⟩
  · refine Or.inl ⟨?_, rfl⟩
    rw [hc]
    exact Option.some_ne_none chain
  · exact Or.inr ⟨hc, ours, hours, rfl⟩

end Reading

section Deliveries

variable [DecidableEq B] {P : Provider Priv Pub B} {lane : Lane Pub B} {c : Stream Pub B}
  {e : B × CiphertextMessage Pub B}

/-! A delivery that was answered as it should be keeps the account. -/

theorem Lane.Follows.deliver_first (h : lane.Follows P c) (he : e ∈ lane.sent)
    (hnew : ¬ lane.Delivered e.2) : (lane.deliver e.2 (.ok (.plaintext e.1))).Follows P c :=
  ⟨h.carried, h.distinct, ⟨e.1, he, fun _ => rfl, fun hold => absurd hold hnew⟩, h.served⟩

theorem Lane.Follows.deliver_again (h : lane.Follows P c) (he : e ∈ lane.sent)
    (hold : lane.Delivered e.2) : (lane.deliver e.2 (.error .duplicateMessage)).Follows P c :=
  ⟨h.carried, h.distinct, ⟨e.1, he, fun hnew => absurd hold hnew, fun _ => rfl⟩, h.served⟩

end Deliveries

/-! ## 4. Matching keys -/

section Matching

variable [DecidableEq Pub] {P : Provider Priv Pub B} {a : AliceParameters Priv Pub}
  {b : BobParameters Priv Pub} {s t t' : Session Priv Pub B} {sending ours : Priv}

/-- Bob has no chain of Alice's yet. -/
theorem chainFor_bob (ht : t.SameKeys (Session.bob P b)) (key : Pub) : t.chainFor key = none := by
  rw [Session.chainFor, ht.receivers]
  rfl

/-- Bob's first reception draws the key of Bob's sending chain. -/
theorem sender_of_first [DecidableEq B] (ht : t.SameKeys (Session.bob P b)) {rng : Rng Priv B}
    {m : SignalMessage Pub B} {key : Pub} (hkey : m.senderRatchetKey = key) {n n' : Nat} {p : B}
    (h : t.receive P rng m n = (.ok (p, t'), n')) :
    ∃ ours, rng.privateKey n = .ok ours ∧
      t'.sender = ⟨P.pair ours, P.ratchetStart (t.middleRoot P key) (P.agreement key ours), 0⟩ := by
  rcases sender_of_receive h with ⟨hne, -⟩ | ⟨-, hours⟩
  · exact absurd (chainFor_bob ht _) hne
  · rwa [hkey] at hours

/-- **Bob reads what Alice writes**: her ratchet key opens the chain on which she sends. -/
theorem Matching.reads_alice (hm : Matching P a b) (hs : s.SameKeys (Session.alice P a sending))
    (ht : t.SameKeys (Session.bob P b)) : t.Reads P s.stream [] where
  own := by
    rw [ht.localIdentity]
    exact hm.theirIdentityA.symm.trans hs.remoteIdentity.symm
  peer := by
    rw [ht.remoteIdentity]
    exact hm.theirIdentityB.trans hs.localIdentity.symm
  chain := by
    have hkey : b.ourRatchetKey.publicKey = P.publicKey b.ourRatchetKey.privateKey := hm.bobRatchet
    rw [chainFor_bob ht, Option.getD_none, Session.newChain, ht.root, ht.sender, Session.stream,
      hs.sender]
    dsimp only [Session.bob, Session.alice, Provider.pair_publicKey]
    rw [← hm.secret_eq, P.agreement_comm, hm.theirRatchet, hkey]
    rfl

/-- **Alice reads what Bob writes first**: she has started with the chain on which Bob sends. -/
theorem Matching.reads_bob (hm : Matching P a b) (hs : s.SameKeys (Session.alice P a sending))
    (ht : t.SameKeys (Session.bob P b)) : s.Reads P t.stream [] where
  own := by
    rw [hs.localIdentity]
    exact hm.theirIdentityB.symm.trans ht.remoteIdentity.symm
  peer := by
    rw [hs.remoteIdentity]
    exact hm.theirIdentityA.trans ht.localIdentity.symm
  chain := by
    have hchain : s.chainFor a.theirRatchetKey =
        some ⟨a.theirRatchetKey, P.initialStart (a.secret P), Window.empty⟩ := by
      refine Session.chainFor_of_mem (c := ⟨a.theirRatchetKey, _, _⟩) ?_
      rw [hs.receivers]
      exact List.mem_cons_self
    rw [Session.stream, ht.sender]
    dsimp only [Session.bob]
    rw [← hm.theirRatchet, hchain, ← hm.secret_eq]
    rfl

omit [DecidableEq Pub] in
/-- The root key between the two halves of Bob's first ratchet step is Alice's. -/
theorem Matching.middleRoot_eq (hm : Matching P a b) (hs : s.SameKeys (Session.alice P a sending))
    (ht : t.SameKeys (Session.bob P b)) : t.middleRoot P s.stream.key = s.root := by
  have hkey : b.ourRatchetKey.publicKey = P.publicKey b.ourRatchetKey.privateKey := hm.bobRatchet
  rw [Session.middleRoot, ht.root, ht.sender, Session.stream, hs.sender, hs.root]
  dsimp only [Session.bob, Session.alice, Provider.pair_publicKey]
  rw [← hm.secret_eq, P.agreement_comm, hm.theirRatchet, hkey]

/-- **Alice reads what Bob writes after the first ratchet step**, if Bob has drawn a new key for
it. -/
theorem Matching.reads_answer (hm : Matching P a b) (hs : s.SameKeys (Session.alice P a sending))
    (ht : t.SameKeys (Session.bob P b)) (hours : P.publicKey ours ≠ a.theirRatchetKey)
    (hown : t'.localIdentity = t.localIdentity) (hpeer : t'.remoteIdentity = t.remoteIdentity)
    (hsender : t'.sender = ⟨P.pair ours, P.ratchetStart (t.middleRoot P s.stream.key)
      (P.agreement s.stream.key ours), 0⟩) : s.Reads P t'.stream [] where
  own := (hm.reads_bob hs ht).own.trans hpeer.symm
  peer := (hm.reads_bob hs ht).peer.trans hown.symm
  chain := by
    have hnone : s.chainFor (P.publicKey ours) = none := by
      rw [Session.chainFor_none, hs.receivers]
      intro c hc heq
      rw [List.mem_singleton.1 hc] at heq
      exact hours heq.symm
    rw [Session.stream, hsender]
    dsimp only [Provider.pair_publicKey]
    rw [hnone, Option.getD_none, hm.middleRoot_eq hs ht, Session.newChain, Session.stream,
      hs.sender]
    dsimp only [Session.alice, Provider.pair_publicKey]
    rw [P.agreement_comm]
    rfl

end Matching

end SignalProtocol
