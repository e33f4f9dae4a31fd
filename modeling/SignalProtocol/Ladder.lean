/-
# The ladder of ratchet keys

Two parties that share a session climb one ladder together.  Its first rung is Bob's ratchet
key, the second Alice's first sending key, the third Bob's answer to it, and so on: a party
draws its next key exactly when it accepts the first message under the other's newest one.
Each rung has a root key and the first key of a chain, the chain on which the owner of the
rung sends.  Both are functions of the rungs up to there, which is why either party can
compute them.

A ladder is the list of its private keys, newest first, and a rung is a non-empty suffix of
it.  Nothing here is known to either party: the ladder is what the two sessions have in common.
-/
import SignalProtocol.Book

namespace SignalProtocol

/-! ## 1. Parties -/

/-- The two roles of a session. -/
inductive Party where
  | alice
  | bob
  deriving DecidableEq, Repr

namespace Party

/-- The peer. -/
def other : Party → Party
  | alice => bob
  | bob => alice

@[simp] theorem other_other (x : Party) : x.other.other = x := by
  cases x <;> rfl

@[simp] theorem other_ne (x : Party) : x.other ≠ x := by
  cases x <;> exact Party.noConfusion

theorem eq_or_eq_other (x y : Party) : x = y ∨ x = y.other := by
  cases x <;> cases y <;> simp [other]

end Party

/-! ## 2. Rungs -/

section Rungs

variable {Priv : Type}

/-- Who drew the newest key of a ladder.  The first rung is Bob's. -/
def owner : List Priv → Party
  | [] => .alice
  | _ :: r => (owner r).other

@[simp] theorem owner_cons (k : Priv) (r : List Priv) : owner (k :: r) = (owner r).other := rfl

/-- **A key has one rung.** -/
theorem rung_unique {k : Priv} {r r' ks : List Priv} (hks : ks.Nodup) (h : k :: r <:+ ks)
    (h' : k :: r' <:+ ks) : r = r' := by
  wlog hle : r.length ≤ r'.length generalizing r r'
  · exact (this h' h (Nat.le_of_not_le hle)).symm
  have hs : k :: r <:+ k :: r' :=
    List.suffix_of_suffix_length_le h h' (Nat.succ_le_succ hle)
  rcases List.suffix_cons_iff.1 hs with he | hs
  · exact (List.cons.inj he).2
  · have hk : k ∈ r' := hs.subset List.mem_cons_self
    exact absurd hk (List.nodup_cons.1 (hks.sublist h'.sublist)).1

/-- The rung a party sends on: the newest one if it is theirs, else the one below. -/
def rungOf (x : Party) (ks : List Priv) : List Priv := if owner ks = x then ks else ks.tail

theorem rungOf_owner (ks : List Priv) : rungOf (owner ks) ks = ks := if_pos rfl

theorem rungOf_other (ks : List Priv) : rungOf (owner ks).other ks = ks.tail :=
  if_neg fun h => (Party.other_ne _) h.symm

theorem owner_rungOf (x : Party) {ks : List Priv} (h : ks ≠ []) : owner (rungOf x ks) = x := by
  obtain ⟨k, t, rfl⟩ := List.exists_cons_of_ne_nil h
  rcases Party.eq_or_eq_other x (owner (k :: t)) with rfl | rfl
  · rw [rungOf_owner]
  · rw [rungOf_other, List.tail_cons, owner_cons, Party.other_other]

theorem rungOf_suffix (x : Party) (ks : List Priv) : rungOf x ks <:+ ks := by
  unfold rungOf
  split
  · exact List.suffix_refl _
  · exact List.tail_suffix _

/-- A party's rung is the highest that is theirs. -/
theorem suffix_rungOf {x : Party} {r ks : List Priv} (hr : r <:+ ks) (ho : owner r = x) :
    r <:+ rungOf x ks := by
  unfold rungOf
  split
  · exact hr
  · next hne =>
    cases ks with
    | nil => exact hr
    | cons k t =>
      rcases List.suffix_cons_iff.1 hr with rfl | hr
      · exact absurd ho hne
      · exact hr

theorem tail_suffix_rungOf (x : Party) (ks : List Priv) : ks.tail <:+ rungOf x ks := by
  unfold rungOf
  split
  · exact List.tail_suffix _
  · exact List.suffix_refl _

theorem rungOf_mono (x : Party) {ks ks' : List Priv} (hne : ks.tail ≠ []) (h : ks <:+ ks') :
    rungOf x ks <:+ rungOf x ks' := by
  refine suffix_rungOf ((rungOf_suffix x ks).trans h) (owner_rungOf x ?_)
  rintro rfl
  exact hne rfl

end Rungs

/-! ## 3. The keys of a rung -/

section Keys

variable {Priv Pub B : Type} (P : Provider Priv Pub B) (secret : List B)

/-- The root key of a rung. -/
def Provider.ladderRoot : List Priv → B
  | [] => P.initialRoot secret
  | k :: r =>
    match r with
    | [] => P.initialRoot secret
    | k' :: _ => P.ratchetRoot (ladderRoot r) (P.agreement (P.publicKey k') k)

/-- The first chain key of a rung. -/
def Provider.ladderStart : List Priv → B
  | [] => P.initialStart secret
  | k :: r =>
    match r with
    | [] => P.initialStart secret
    | k' :: _ => P.ratchetStart (P.ladderRoot secret r) (P.agreement (P.publicKey k') k)

variable {P secret}

theorem ladderRoot_cons_cons (k k' : Priv) (r : List Priv) :
    P.ladderRoot secret (k :: k' :: r) =
      P.ratchetRoot (P.ladderRoot secret (k' :: r)) (P.agreement (P.publicKey k') k) := rfl

theorem ladderStart_cons_cons (k k' : Priv) (r : List Priv) :
    P.ladderStart secret (k :: k' :: r) =
      P.ratchetStart (P.ladderRoot secret (k' :: r)) (P.agreement (P.publicKey k') k) := rfl

/-- **Root keys of different heights differ.** -/
theorem ladderRoot_length (hI : Ideal P) : ∀ {r r' : List Priv}, r ≠ [] → r' ≠ [] →
    P.ladderRoot secret r = P.ladderRoot secret r' → r.length = r'.length
  | [], _, h, _, _ => absurd rfl h
  | _, [], _, h, _ => absurd rfl h
  | [_], [_], _, _, _ => rfl
  | [_], _ :: _ :: _, _, _, he => absurd he hI.initialRoot_ne_ratchetRoot
  | _ :: _ :: _, [_], _, _, he => absurd he.symm hI.initialRoot_ne_ratchetRoot
  | _ :: _ :: _, _ :: _ :: _, _, _, he => by
    rw [ladderRoot_cons_cons, ladderRoot_cons_cons] at he
    have := ladderRoot_length hI (List.cons_ne_nil _ _) (List.cons_ne_nil _ _)
      (hI.ratchetRoot_inj he).1
    simpa using this

/-- **The chain that a root key opens belongs to the next rung.** -/
theorem ladderStart_length (hI : Ideal P) {r r' : List Priv} {shared : B} (hr : r ≠ [])
    (hr' : r' ≠ []) (he : P.ratchetStart (P.ladderRoot secret r) shared = P.ladderStart secret r') :
    r'.length = r.length + 1 := by
  match r', hr' with
  | [_], _ => exact absurd he.symm hI.initialStart_ne_ratchetStart
  | k :: k' :: r'', _ =>
    rw [ladderStart_cons_cons] at he
    have := ladderRoot_length hI hr (List.cons_ne_nil _ _) (hI.ratchetStart_inj he).1
    rw [this, List.length_cons]

end Keys

/-! ## 4. Two sessions on one ladder -/

/-- Two sessions, what either party encrypted (with the plaintext), and what either party
accepted (latest first). -/
structure Link (Priv Pub B : Type) where
  session : Party → Session Priv Pub B
  sent : Party → List (SignalMessage Pub B × B)
  accepted : Party → List (SignalMessage Pub B)

variable {Priv Pub B : Type}

/-- A party sent a message and moved on to another session value. -/
def Link.produce (link : Link Priv Pub B) (x : Party) (s : Session Priv Pub B)
    (m : SignalMessage Pub B) (p : B) : Link Priv Pub B :=
  { link with
    session := Function.update link.session x s
    sent := Function.update link.sent x (link.sent x ++ [(m, p)]) }

/-- A party accepted a message and moved on to another session value. -/
def Link.deliver (link : Link Priv Pub B) (y : Party) (s : Session Priv Pub B)
    (m : SignalMessage Pub B) : Link Priv Pub B :=
  { link with
    session := Function.update link.session y s
    accepted := Function.update link.accepted y (m :: link.accepted y) }

section Updates

variable (link : Link Priv Pub B) {x z : Party} (s : Session Priv Pub B)
  (m : SignalMessage Pub B) (p : B)

@[simp] theorem Link.produce_session_self : (link.produce x s m p).session x = s :=
  Function.update_self ..

@[simp] theorem Link.produce_sent_self :
    (link.produce x s m p).sent x = link.sent x ++ [(m, p)] := Function.update_self ..

theorem Link.produce_of_ne (h : z ≠ x) : (link.produce x s m p).session z = link.session z ∧
    (link.produce x s m p).sent z = link.sent z :=
  ⟨Function.update_of_ne h .., Function.update_of_ne h ..⟩

@[simp] theorem Link.deliver_session_self : (link.deliver x s m).session x = s :=
  Function.update_self ..

@[simp] theorem Link.deliver_accepted_self :
    (link.deliver x s m).accepted x = m :: link.accepted x := Function.update_self ..

theorem Link.deliver_of_ne (h : z ≠ x) : (link.deliver x s m).session z = link.session z ∧
    (link.deliver x s m).accepted z = link.accepted z :=
  ⟨Function.update_of_ne h .., Function.update_of_ne h ..⟩

end Updates

/-- The counters that a party accepted under a ratchet key, latest first. -/
def acceptedCounters [DecidableEq Pub] (accepted : List (SignalMessage Pub B)) (key : Pub) :
    List Nat :=
  (accepted.filter fun m => m.senderRatchetKey = key).map fun m => m.counter.toNat

section Synced

variable (P : Provider Priv Pub B) (secret : List B)

/-- The sending half of a session stands on a rung. -/
structure Session.AtRung (s : Session Priv Pub B) (r : List Priv) : Prop where
  root : s.root = P.ladderRoot secret r
  start : s.sender.start = P.ladderStart secret r
  pair : r.head?.map P.pair = some s.sender.pair

/-- The message was made on a rung from this plaintext. -/
structure Made (sender receiver : Pub) (r : List Priv) (m : SignalMessage Pub B) (p : B) :
    Prop where
  key : r.head?.map P.publicKey = some m.senderRatchetKey
  encrypted : P.encrypt .cbcPkcs5
    (P.messageKeysAt (P.ladderStart secret r) m.counter.toNat).cipherKey
    (P.messageKeysAt (P.ladderStart secret r) m.counter.toNat).iv p = .ok m.ciphertext
  created : m = SignalMessage.create P 3
    (P.messageKeysAt (P.ladderStart secret r) m.counter.toNat).macKey m.senderRatchetKey m.counter
    m.previousCounter m.ciphertext sender receiver

/-- A rung of the peer from which a party has accepted a message, or with which it started. -/
def SeenRung (y : Party) (ks r : List Priv) : Prop := r <:+ ks.tail ∧ owner r = y.other

/-- A receiving chain is the sending chain of one of the peer's rungs, and its window is what
the accepted counters leave. -/
structure ReceivingChain.Follows [DecidableEq Pub] (y : Party) (ks : List Priv)
    (accepted : List (SignalMessage Pub B)) (c : ReceivingChain Pub B) (k : Priv)
    (r : List Priv) : Prop where
  seen : SeenRung y ks (k :: r)
  key : c.ratchetKey = P.publicKey k
  start : c.start = P.ladderStart secret (k :: r)
  window : c.window = Window.replay maxMessageKeys (acceptedCounters accepted c.ratchetKey)

/-- One side of the ladder: the party's session stands on its rung, every receiving chain is a
chain of the peer, every message it sent was made on a rung with a counter of its own, and it
has seen every rung of its peer but the newest. -/
structure Side [DecidableEq Pub] (id : Party → Pub) (initial : Party → List Pub)
    (ks : List Priv) (x : Party) (s : Session Priv Pub B) (sent : List (SignalMessage Pub B × B))
    (accepted : List (SignalMessage Pub B)) : Prop where
  localIdentity : s.localIdentity = id x
  remoteIdentity : s.remoteIdentity = id x.other
  atRung : s.AtRung P secret (rungOf x ks)
  chains : ∀ c ∈ s.receivers, ∃ k r, c.Follows P secret x ks accepted k r
  made : ∀ e ∈ sent, ∃ r, r <:+ ks ∧ owner r = x ∧ Made P secret (id x) (id x.other) r e.1 e.2
  known : ∀ m ∈ accepted, ∃ k r, SeenRung x ks (k :: r) ∧ m.senderRatchetKey = P.publicKey k
  seen : ∀ k r, SeenRung x ks (k :: r) → P.publicKey k ∈ initial x ∨
    ∃ m ∈ accepted, m.senderRatchetKey = P.publicKey k
  below : ∀ e ∈ sent, e.1.senderRatchetKey = s.sender.pair.publicKey →
    e.1.counter.toNat < s.sender.next
  distinct : ∀ e ∈ sent, ∀ e' ∈ sent, e.1.senderRatchetKey = e'.1.senderRatchetKey →
    e.1.counter = e'.1.counter → e = e'

/-- **Lock-step**: both parties stand on one ladder, the owner of its newest rung one above the
other. -/
structure Synced [DecidableEq Pub] (id : Party → Pub) (initial : Party → List Pub)
    (link : Link Priv Pub B) (ks : List Priv) : Prop where
  nodup : ks.Nodup
  height : 2 ≤ ks.length
  side : ∀ x, Side P secret id initial ks x (link.session x) (link.sent x) (link.accepted x)
  delivered : ∀ y, ∀ m ∈ link.accepted y, ∃ p, (m, p) ∈ link.sent y.other

end Synced

section Lemmas

variable [DecidableEq Pub] {P : Provider Priv Pub B} {secret : List B} {id : Party → Pub}
  {initial : Party → List Pub} {link : Link Priv Pub B} {ks : List Priv} {x y : Party}

theorem SeenRung.suffix {r : List Priv} (h : SeenRung y ks r) : r <:+ ks :=
  h.1.trans (List.tail_suffix ks)

theorem SeenRung.cons {r : List Priv} (h : SeenRung y ks r) (k : Priv) :
    SeenRung y (k :: ks) r := ⟨h.suffix, h.2⟩

/-- A party that owns the newest rung has seen all rungs of its peer; the other has seen all
but the newest. -/
theorem seenRung_or_eq {r : List Priv} (h : r <:+ ks) (ho : owner r = y.other) :
    SeenRung y ks r ∨ r = ks := by
  cases ks with
  | nil => exact Or.inr (List.suffix_nil.1 h)
  | cons k t =>
    rcases List.suffix_cons_iff.1 h with he | h
    · exact Or.inr he
    · exact Or.inl ⟨h, ho⟩

omit [DecidableEq Pub] in
theorem Made.head {a b : Pub} {r : List Priv} {m : SignalMessage Pub B} {p : B}
    (h : Made P secret a b r m p) :
    ∃ k r', r = k :: r' ∧ m.senderRatchetKey = P.publicKey k := by
  match r, h.key with
  | k :: r', hk => exact ⟨k, r', rfl, (Option.some.inj hk).symm⟩

namespace Synced

variable (h : Synced P secret id initial link ks)
include h

theorem tail_ne_nil : ks.tail ≠ [] := by
  intro he
  have hl := congrArg List.length he
  have := h.height
  rw [List.length_tail, List.length_nil] at hl
  omega

theorem rungOf_ne_nil (x : Party) : rungOf x ks ≠ [] := by
  rcases Party.eq_or_eq_other x (owner ks) with rfl | rfl
  · rw [rungOf_owner]
    intro he
    exact h.tail_ne_nil (by rw [he, List.tail_nil])
  · rw [rungOf_other]
    exact h.tail_ne_nil

/-- The chain that the newest rung opens at the party below it, and the root key there. -/
theorem newest {k : Priv} {r : List Priv} (hks : ks = k :: r) (ho : owner ks = y.other) :
    ((link.session y).newChain P (P.publicKey k)).start = P.ladderStart secret ks ∧
      (link.session y).middleRoot P (P.publicKey k) = P.ladderRoot secret ks := by
  have hy : rungOf y ks = r := by
    have := rungOf_other ks
    rw [ho, Party.other_other, hks] at this
    rw [hks]
    exact this
  obtain ⟨hroot, -, hpair⟩ := (h.side y).atRung
  rw [hy] at hroot hpair
  match r, hks, hpair with
  | k' :: r', hks, hpair =>
    have hk' : (link.session y).sender.pair = P.pair k' := (Option.some.inj hpair).symm
    simp only [Session.newChain, Session.middleRoot, hroot, hk', Provider.pair_privateKey, hks,
      ladderStart_cons_cons, ladderRoot_cons_cons, P.agreement_comm, and_self]

/-- A receiving chain for the key of a rung has that rung's first chain key. -/
theorem start_of_chainFor (hI : Ideal P) {k : Priv} {r : List Priv} {c : ReceivingChain Pub B}
    (hr : k :: r <:+ ks) (hc : (link.session y).chainFor (P.publicKey k) = some c) :
    c.Follows P secret y ks (link.accepted y) k r := by
  obtain ⟨hm, hk⟩ := Session.chainFor_mem hc
  obtain ⟨k', r', hf⟩ := (h.side y).chains c hm
  have hkk : k' = k := hI.publicKey_inj (hf.key.symm.trans hk)
  subst hkk
  rw [rung_unique h.nodup hr hf.seen.suffix]
  exact hf

/-- **A key without a chain fits only if it is the newest.** -/
theorem eq_of_startFor (hI : Ideal P) {k : Priv} {r : List Priv} (hr : k :: r <:+ ks)
    (hc : (link.session y).chainFor (P.publicKey k) = none)
    (hs : (link.session y).startFor P (P.publicKey k) = P.ladderStart secret (k :: r)) :
    k :: r = ks := by
  rw [Session.startFor, hc, Option.getD_none, Session.newChain, (h.side y).atRung.root] at hs
  have hl := ladderStart_length hI (h.rungOf_ne_nil y) (List.cons_ne_nil k r) hs
  have hle : (k :: r).length ≤ ks.length := hr.length_le
  refine hr.eq_of_length ?_
  rcases Party.eq_or_eq_other y (owner ks) with rfl | rfl
  · rw [rungOf_owner] at hl
    omega
  · rw [rungOf_other, List.length_tail] at hl
    have := h.height
    omega

end Synced

/-! ## 5. Delivering a message -/

variable [DecidableEq B] {rng : Rng Priv B} {e : SignalMessage Pub B × B} {n n' : Nat}

omit [DecidableEq B] in
theorem acceptedCounters_cons_self (l : List (SignalMessage Pub B)) (m : SignalMessage Pub B) :
    acceptedCounters (m :: l) m.senderRatchetKey =
      m.counter.toNat :: acceptedCounters l m.senderRatchetKey := by
  simp [acceptedCounters]

omit [DecidableEq B] in
theorem acceptedCounters_cons_of_ne (l : List (SignalMessage Pub B)) {m : SignalMessage Pub B}
    {key : Pub} (h : key ≠ m.senderRatchetKey) :
    acceptedCounters (m :: l) key = acceptedCounters l key := by
  simp [acceptedCounters, Ne.symm h]

omit [DecidableEq Pub] in
theorem Made.verifyMac {a b : Pub} {r : List Priv} {m : SignalMessage Pub B} {p : B}
    (h : Made P secret a b r m p) :
    m.verifyMac P a b (P.messageKeysAt (P.ladderStart secret r) m.counter.toNat).macKey = true := by
  have hv := SignalMessage.verifyMac_create (P := P) 3
    (P.messageKeysAt (P.ladderStart secret r) m.counter.toNat).macKey m.senderRatchetKey m.counter
    m.previousCounter m.ciphertext a b
  rw [← h.created] at hv
  exact hv

omit [DecidableEq Pub] [DecidableEq B] in
theorem Made.version {a b : Pub} {r : List Priv} {m : SignalMessage Pub B} {p : B}
    (h : Made P secret a b r m p) : m.messageVersion = 3 := by
  rw [h.created]
  rfl

namespace Synced

variable (h : Synced P secret id initial link ks)
include h

/-- **What an accepted delivery is**: the plaintext is the one that was encrypted, and the
message either fits a chain or opens the newest rung. -/
theorem receive_cases (hI : Ideal P) {q : B} {s' : Session Priv Pub B}
    (he : e ∈ link.sent y.other)
    (hr : (link.session y).receive P rng e.1 n = (.ok (q, s'), n')) :
    q = e.2 ∧ ((∃ c w, (link.session y).chainFor e.1.senderRatchetKey = some c ∧
        c.window.request Session.reach e.1.counter.toNat = .ok w ∧ n' = n ∧
        s' = ((link.session y).setWindow e.1.senderRatchetKey w).acknowledge) ∨
      ∃ (hc : (link.session y).chainFor e.1.senderRatchetKey = none) (ours : Priv)
        (w : Window maxMessageKeys), rng.privateKey n = .ok ours ∧ owner ks = y.other ∧
        ks.head?.map P.publicKey = some e.1.senderRatchetKey ∧
        Window.empty.request Session.reach e.1.counter.toNat = .ok w ∧ n' = n + 1 ∧
        s' = (((link.session y).ratchet P e.1.senderRatchetKey hc ours).setWindow
          e.1.senderRatchetKey w).acknowledge) := by
  obtain ⟨r, hsuf, howner, hmade⟩ := (h.side _).made e he
  obtain ⟨hstart, hq⟩ := Session.plaintext_of_receive hI hmade.encrypted hmade.verifyMac hr
  refine ⟨hq, ?_⟩
  obtain ⟨-, c, s₁, w, ho, hw, -, -, rfl⟩ := Session.receive_ok_iff.1 hr
  rcases openChain_ok_iff.1 ho with ⟨hc, rfl, rfl⟩ | ⟨hc, ours, hk, rfl, rfl, rfl⟩
  · exact Or.inl ⟨c, w, hc, hw, rfl, rfl⟩
  · obtain ⟨k, r', rfl, hkey⟩ := hmade.head
    rw [hkey] at hstart
    have hks := h.eq_of_startFor hI hsuf (hkey ▸ hc) hstart
    rw [← hks]
    exact Or.inr ⟨hc, ours, w, hk, howner, hmade.key, hw, rfl, rfl⟩

/-- **Whatever fits is accepted**: a chain whose window admits the counter. -/
theorem receive_of_chain (hI : Ideal P) (he : e ∈ link.sent y.other) {c : ReceivingChain Pub B}
    (hc : (link.session y).chainFor e.1.senderRatchetKey = some c) {w : Window maxMessageKeys}
    (hw : c.window.request Session.reach e.1.counter.toNat = .ok w) :
    (link.session y).receive P rng e.1 n =
      (.ok (e.2, ((link.session y).setWindow e.1.senderRatchetKey w).acknowledge), n) := by
  obtain ⟨r, hsuf, -, hmade⟩ := (h.side _).made e he
  obtain ⟨k, r', rfl, hkey⟩ := hmade.head
  have hf := h.start_of_chainFor hI hsuf (hkey ▸ hc)
  refine Session.receive_ok_iff.2 ⟨hmade.version, c, _, w,
    openChain_ok_iff.2 (Or.inl ⟨hc, rfl, rfl⟩), hw, ?_, ?_, rfl⟩
  · rw [hf.start, (h.side y).remoteIdentity, (h.side y).localIdentity]
    have := hmade.verifyMac
    rwa [Party.other_other] at this
  · rw [hf.start]
    exact P.decrypt_encrypt hmade.encrypted

/-- **Whatever opens the newest rung is accepted**, up to the reach of a new window. -/
theorem receive_of_newest (he : e ∈ link.sent y.other) (ho : owner ks = y.other)
    (hkey : ks.head?.map P.publicKey = some e.1.senderRatchetKey) (hI : Ideal P)
    (hc : (link.session y).chainFor e.1.senderRatchetKey = none) {ours : Priv}
    (hk : rng.privateKey n = .ok ours) {w : Window maxMessageKeys}
    (hw : Window.empty.request Session.reach e.1.counter.toNat = .ok w) :
    (link.session y).receive P rng e.1 n =
      (.ok (e.2, (((link.session y).ratchet P e.1.senderRatchetKey hc ours).setWindow
        e.1.senderRatchetKey w).acknowledge), n + 1) := by
  obtain ⟨r, hsuf, -, hmade⟩ := (h.side _).made e he
  obtain ⟨k, r', rfl, hkey'⟩ := hmade.head
  obtain ⟨t, rfl⟩ : ∃ t, ks = k :: t := by
    match ks, hkey with
    | k₀ :: t, hkey =>
      rw [hkey'] at hkey
      rw [hI.publicKey_inj (Option.some.inj hkey)]
      exact ⟨t, rfl⟩
  have hr' : r' = t := rung_unique h.nodup hsuf (List.suffix_refl _)
  subst hr'
  have hstart := (h.newest rfl ho).1
  rw [← hkey'] at hstart
  refine Session.receive_ok_iff.2 ⟨hmade.version, _, _, w,
    openChain_ok_iff.2 (Or.inr ⟨hc, ours, hk, rfl, rfl, rfl⟩), hw, ?_, ?_, rfl⟩
  · rw [hstart, (h.side y).remoteIdentity, (h.side y).localIdentity]
    have := hmade.verifyMac
    rwa [Party.other_other] at this
  · rw [hstart]
    exact P.decrypt_encrypt hmade.encrypted

omit [DecidableEq B] in
/-- A message that was not accepted has a counter that was not accepted. -/
theorem notMem_acceptedCounters (he : e ∈ link.sent y.other) (hnew : e.1 ∉ link.accepted y) :
    e.1.counter.toNat ∉ acceptedCounters (link.accepted y) e.1.senderRatchetKey := by
  unfold acceptedCounters
  rw [List.mem_map]
  rintro ⟨m, hm, hc⟩
  obtain ⟨hm, hk⟩ := List.mem_filter.1 hm
  obtain ⟨p, hp⟩ := h.delivered y m hm
  have := (h.side _).distinct _ hp _ he (of_decide_eq_true hk) (UInt32.toNat_inj.1 hc)
  exact hnew (this ▸ hm)

/-- **A delivery on a chain succeeds** unless its counter was accepted, was evicted or is out
of reach. -/
theorem receive_of_fits (hI : Ideal P) (he : e ∈ link.sent y.other) (hnew : e.1 ∉ link.accepted y)
    {c : ReceivingChain Pub B} (hc : (link.session y).chainFor e.1.senderRatchetKey = some c)
    (hreach : e.1.counter.toNat ≤ c.window.next + Session.reach)
    (hev : e.1.counter.toNat ∉ Window.evicted maxMessageKeys
      (acceptedCounters (link.accepted y) e.1.senderRatchetKey)) :
    ∃ s', (link.session y).receive P rng e.1 n = (.ok (e.2, s'), n) := by
  suffices hw : ∃ w, c.window.request Session.reach e.1.counter.toNat = .ok w by
    obtain ⟨w, hw⟩ := hw
    exact ⟨_, h.receive_of_chain hI he hc hw⟩
  by_cases hle : c.window.next ≤ e.1.counter.toNat
  · exact ⟨_, Window.request_of_ahead hle (by omega)⟩
  · obtain ⟨r, hsuf, -, hmade⟩ := (h.side _).made e he
    obtain ⟨k, r', rfl, hkey⟩ := hmade.head
    have hwin := (h.start_of_chainFor hI hsuf (hkey ▸ hc)).window
    rw [(Session.chainFor_mem hc).2] at hwin
    rw [hwin] at hle ⊢
    exact ⟨_, Window.request_of_held (Window.held_of_passed (Nat.lt_of_not_le hle)
      (h.notMem_acceptedCounters he hnew) hev)⟩

/-- **A delivery under a key that was never seen succeeds** within the reach of a new window. -/
theorem receive_of_unseen (hI : Ideal P) (he : e ∈ link.sent y.other)
    (hc : (link.session y).chainFor e.1.senderRatchetKey = none)
    (hinit : e.1.senderRatchetKey ∉ initial y)
    (hacc : ∀ m ∈ link.accepted y, m.senderRatchetKey ≠ e.1.senderRatchetKey)
    (hreach : e.1.counter.toNat ≤ Session.reach) {ours : Priv}
    (hk : rng.privateKey n = .ok ours) :
    ∃ s', (link.session y).receive P rng e.1 n = (.ok (e.2, s'), n + 1) := by
  obtain ⟨r, hsuf, howner, hmade⟩ := (h.side _).made e he
  obtain ⟨k, r', rfl, hkey⟩ := hmade.head
  rcases seenRung_or_eq hsuf howner with hseen | hks
  · rcases (h.side y).seen k r' hseen with hi | ⟨m, hm, hmk⟩
    · exact absurd (hkey ▸ hi) hinit
    · exact absurd (hmk.trans hkey.symm) (hacc m hm)
  · rw [hks] at howner
    have hhead := hmade.key
    rw [hks] at hhead
    exact ⟨_, h.receive_of_newest he howner hhead hI hc hk
      (Window.request_of_ahead (Nat.zero_le _) hreach)⟩

/-! ## 6. Lock-step is kept -/

omit [DecidableEq B] in
/-- **Sending keeps the parties in lock-step.** -/
theorem send {p : B} {c : CiphertextMessage Pub B} {s' : Session Priv Pub B}
    (hnext : (link.session x).sender.next < 2 ^ 32)
    (hs : (link.session x).send P p = .ok (c, s')) :
    Synced P secret id initial (link.produce x s' c.inner p) ks := by
  have hcounter := Session.counter_of_send hs hnext
  obtain ⟨ciphertext, henc, hwrap, rfl⟩ := Session.send_ok_iff.1 hs
  have hinner := Session.wrap_inner hwrap
  have hx := h.side x
  have hmade : Made P secret (id x) (id x.other) (rungOf x ks) c.inner p := by
    refine ⟨?_, ?_, ?_⟩
    · have := congrArg (Option.map EcKeyPair.publicKey) hx.atRung.pair
      rw [Option.map_map] at this
      rw [hinner]
      exact this
    · rw [hcounter, ← hx.atRung.start, henc, hinner]
      rfl
    · rw [hcounter, ← hx.atRung.start, hinner, ← hx.localIdentity, ← hx.remoteIdentity]
      rfl
  -- the new counter is above those sent before under this key
  have hnew : ∀ e ∈ link.sent x, e.1.senderRatchetKey = c.inner.senderRatchetKey →
      e.1.counter ≠ c.inner.counter := by
    intro e he hk hc
    rw [hinner] at hk
    have := hx.below e he hk
    rw [hc, hcounter] at this
    exact Nat.lt_irrefl _ this
  refine ⟨h.nodup, h.height, fun z => ?_, fun z m hm => ?_⟩
  · rcases eq_or_ne z x with rfl | hz
    · rw [Link.produce_session_self, Link.produce_sent_self]
      refine ⟨hx.localIdentity, hx.remoteIdentity, ⟨hx.atRung.root, hx.atRung.start,
        hx.atRung.pair⟩, hx.chains, fun e he => ?_, hx.known, hx.seen, fun e he hk => ?_,
        fun e he e' he' hk hc => ?_⟩
      · rcases List.mem_append.1 he with he | he
        · exact hx.made e he
        · rw [List.mem_singleton.1 he]
          refine ⟨rungOf z ks, rungOf_suffix z ks, owner_rungOf z ?_, hmade⟩
          rintro rfl
          exact h.tail_ne_nil List.tail_nil
      · rcases List.mem_append.1 he with he | he
        · exact Nat.lt_succ_of_lt (hx.below e he hk)
        · rw [List.mem_singleton.1 he, hcounter]
          exact Nat.lt_succ_self _
      · rcases List.mem_append.1 he with he | he <;> rcases List.mem_append.1 he' with he' | he'
        · exact hx.distinct e he e' he' hk hc
        · rw [List.mem_singleton.1 he'] at hk hc
          exact absurd hc (hnew e he hk)
        · rw [List.mem_singleton.1 he] at hk hc
          exact absurd hc.symm (hnew e' he' hk.symm)
        · rw [List.mem_singleton.1 he, List.mem_singleton.1 he']
    · rw [(link.produce_of_ne _ _ _ hz).1, (link.produce_of_ne _ _ _ hz).2]
      exact h.side z
  · obtain ⟨q, hq⟩ := h.delivered z m hm
    refine ⟨q, ?_⟩
    rcases eq_or_ne z.other x with rfl | hz
    · rw [Link.produce_sent_self]
      exact List.mem_append_left _ hq
    · rwa [(link.produce_of_ne _ _ _ hz).2]

omit [DecidableEq B] in
theorem delivered_deliver {s' : Session Priv Pub B} (he : e ∈ link.sent y.other) (z : Party)
    (m : SignalMessage Pub B) (hm : m ∈ (link.deliver y s' e.1).accepted z) :
    ∃ p, (m, p) ∈ (link.deliver y s' e.1).sent z.other := by
  rcases eq_or_ne z y with rfl | hz
  · rw [Link.deliver_accepted_self] at hm
    rcases List.mem_cons.1 hm with rfl | hm
    · exact ⟨e.2, he⟩
    · exact h.delivered z m hm
  · rw [(link.deliver_of_ne _ _ hz).2] at hm
    exact h.delivered z m hm

omit [DecidableEq B] in
/-- Accepting on a chain keeps the parties in lock-step. -/
theorem accept_chain (hI : Ideal P) (he : e ∈ link.sent y.other) {c : ReceivingChain Pub B}
    (hc : (link.session y).chainFor e.1.senderRatchetKey = some c) {w : Window maxMessageKeys}
    (hw : c.window.request Session.reach e.1.counter.toNat = .ok w) :
    Synced P secret id initial (link.deliver y
      ((link.session y).setWindow e.1.senderRatchetKey w).acknowledge e.1) ks := by
  have hy := h.side y
  obtain ⟨r, hsuf, howner, hmade⟩ := (h.side _).made e he
  obtain ⟨k, r', rfl, hkey⟩ := hmade.head
  have hf := h.start_of_chainFor hI hsuf (hkey ▸ hc)
  refine ⟨h.nodup, h.height, fun z => ?_, h.delivered_deliver he⟩
  rcases eq_or_ne z y with rfl | hz
  · rw [Link.deliver_session_self, Link.deliver_accepted_self]
    refine ⟨hy.localIdentity, hy.remoteIdentity, ⟨hy.atRung.root, hy.atRung.start,
      hy.atRung.pair⟩, fun d hd => ?_, hy.made, fun m hm => ?_, fun k' r'' hs => ?_, hy.below,
      hy.distinct⟩
    · obtain ⟨d₀, hd₀, rfl⟩ := List.mem_map.1 hd
      by_cases hk : d₀.ratchetKey = e.1.senderRatchetKey
      · have hdc : d₀ = c := by
          rw [← hk, Session.chainFor_of_mem hd₀] at hc
          exact Option.some.inj hc
        subst hdc
        rw [if_pos hk]
        refine ⟨k, r', hf.seen, hf.key, hf.start, ?_⟩
        show w = Window.replay maxMessageKeys
          (acceptedCounters (e.1 :: link.accepted z) d₀.ratchetKey)
        rw [hk, acceptedCounters_cons_self, Window.replay_cons, ← hk, ← hf.window]
        exact Window.eq_accept_of_request hw
      · obtain ⟨k', r'', hf'⟩ := hy.chains d₀ hd₀
        rw [if_neg hk]
        exact ⟨k', r'', hf'.seen, hf'.key, hf'.start,
          (acceptedCounters_cons_of_ne (link.accepted z) hk).symm ▸ hf'.window⟩
    · rcases List.mem_cons.1 hm with rfl | hm
      · exact ⟨k, r', hf.seen, hkey⟩
      · exact hy.known m hm
    · rcases hy.seen k' r'' hs with hi | ⟨m, hm, hmk⟩
      · exact Or.inl hi
      · exact Or.inr ⟨m, List.mem_cons_of_mem _ hm, hmk⟩
  · rw [(link.deliver_of_ne _ _ hz).1, (link.deliver_of_ne _ _ hz).2]
    exact h.side z

omit [DecidableEq B] in
/-- The peer of the party that climbs stays on its side. -/
theorem side_cons {k : Priv} {z : Party} (ho : owner ks = z) :
    Side P secret id initial (k :: ks) z (link.session z) (link.sent z) (link.accepted z) := by
  have hz := h.side z
  have hrung : rungOf z (k :: ks) = rungOf z ks := by
    subst ho
    rw [rungOf_owner]
    have := rungOf_other (k :: ks)
    rwa [owner_cons, Party.other_other, List.tail_cons] at this
  refine ⟨hz.localIdentity, hz.remoteIdentity, hrung ▸ hz.atRung, fun c hc => ?_, fun e he => ?_,
    fun m hm => ?_, fun k' r hs => ?_, hz.below, hz.distinct⟩
  · obtain ⟨k', r, hf⟩ := hz.chains c hc
    exact ⟨k', r, hf.seen.cons k, hf.key, hf.start, hf.window⟩
  · obtain ⟨r, hsuf, hr⟩ := hz.made e he
    exact ⟨r, hsuf.trans (List.suffix_cons k ks), hr⟩
  · obtain ⟨k', r, hs, hk⟩ := hz.known m hm
    exact ⟨k', r, hs.cons k, hk⟩
  · rcases seenRung_or_eq hs.1 hs.2 with hs' | rfl
    · exact hz.seen k' r hs'
    · exact absurd (hs.2.symm.trans ho) (Party.other_ne z)

omit [DecidableEq B] in
/-- Nothing was accepted under the newest rung's key before it is seen. -/
theorem acceptedCounters_newest (hI : Ideal P) {k : Priv} {t : List Priv} (hks : ks = k :: t) :
    acceptedCounters (link.accepted y) (P.publicKey k) = [] := by
  unfold acceptedCounters
  rw [List.map_eq_nil_iff, List.filter_eq_nil_iff]
  intro m hm hk
  obtain ⟨k', r, hs, hk'⟩ := (h.side y).known m hm
  have hkk : k' = k := hI.publicKey_inj (hk'.symm.trans (of_decide_eq_true hk))
  subst hkk hks
  have : k' ∈ t := hs.1.subset List.mem_cons_self
  exact (List.nodup_cons.1 h.nodup).1 this

omit [DecidableEq B] in
/-- **Accepting the newest rung** is climbing one higher. -/
theorem accept_newest (hI : Ideal P) (he : e ∈ link.sent y.other) (ho : owner ks = y.other)
    (hkey : ks.head?.map P.publicKey = some e.1.senderRatchetKey)
    (hc : (link.session y).chainFor e.1.senderRatchetKey = none) {ours : Priv} (hours : ours ∉ ks)
    {w : Window maxMessageKeys}
    (hw : Window.empty.request Session.reach e.1.counter.toNat = .ok w) :
    Synced P secret id initial (link.deliver y
      (((link.session y).ratchet P e.1.senderRatchetKey hc ours).setWindow
        e.1.senderRatchetKey w).acknowledge e.1) (ours :: ks) := by
  have hy := h.side y
  obtain ⟨k, t, hks, hmk⟩ : ∃ k t, ks = k :: t ∧ e.1.senderRatchetKey = P.publicKey k := by
    match ks, hkey with
    | k :: t, hkey => exact ⟨k, t, rfl, (Option.some.inj hkey).symm⟩
  obtain ⟨hstart, hmiddle⟩ := h.newest hks ho
  rw [← hmk] at hstart hmiddle
  have hself : rungOf y (ours :: ks) = ours :: ks := by
    have := rungOf_owner (ours :: ks)
    rwa [owner_cons, ho, Party.other_other] at this
  have hseen : SeenRung y (ours :: ks) (k :: t) := hks ▸ ⟨List.suffix_refl _, hks ▸ ho⟩
  refine ⟨List.nodup_cons.2 ⟨hours, h.nodup⟩, Nat.le_succ_of_le h.height, fun z => ?_,
    h.delivered_deliver he⟩
  rcases eq_or_ne z y with rfl | hz
  · rw [Link.deliver_session_self, Link.deliver_accepted_self]
    refine ⟨hy.localIdentity, hy.remoteIdentity, ?_, fun d hd => ?_, fun e' he' => ?_,
      fun m' hm' => ?_, fun k' r hs => ?_, fun e' he' hk => ?_, hy.distinct⟩
    · rw [hself, hks]
      refine ⟨?_, ?_, rfl⟩
      · rw [ladderRoot_cons_cons, ← hks, ← hmiddle, ← hmk]
        rfl
      · rw [ladderStart_cons_cons, ← hks, ← hmiddle, ← hmk]
        rfl
    · obtain ⟨d₀, hd₀, rfl⟩ := List.mem_map.1 hd
      rcases List.mem_append.1 (Window.mem_of_mem_rtake hd₀) with hd₀ | hd₀
      · have hk := Session.chainFor_none.1 hc d₀ hd₀
        obtain ⟨k', r, hf⟩ := hy.chains d₀ hd₀
        rw [if_neg hk]
        exact ⟨k', r, hf.seen.cons ours, hf.key, hf.start,
          (acceptedCounters_cons_of_ne (link.accepted z) hk).symm ▸ hf.window⟩
      · have hnew : ((link.session z).newChain P e.1.senderRatchetKey).ratchetKey =
            e.1.senderRatchetKey := rfl
        rw [List.mem_singleton.1 hd₀, if_pos hnew]
        refine ⟨k, t, hseen, hmk, hks ▸ hstart, ?_⟩
        show w = Window.replay maxMessageKeys
          (acceptedCounters (e.1 :: link.accepted z) e.1.senderRatchetKey)
        rw [acceptedCounters_cons_self, hmk, h.acceptedCounters_newest hI hks]
        exact Window.eq_accept_of_request hw
    · obtain ⟨r, hsuf, hr⟩ := hy.made e' he'
      exact ⟨r, hsuf.trans (List.suffix_cons ours ks), hr⟩
    · rcases List.mem_cons.1 hm' with rfl | hm'
      · exact ⟨k, t, hseen, hmk⟩
      · obtain ⟨k', r, hs, hk⟩ := hy.known m' hm'
        exact ⟨k', r, hs.cons ours, hk⟩
    · rcases seenRung_or_eq hs.1 hs.2 with hs' | hkr
      · rcases hy.seen k' r hs' with hi | ⟨m', hm', hk⟩
        · exact Or.inl hi
        · exact Or.inr ⟨m', List.mem_cons_of_mem _ hm', hk⟩
      · have hkk : k' = k := (List.cons.inj (hkr.trans hks)).1
        exact Or.inr ⟨e.1, List.mem_cons_self, hkk ▸ hmk⟩
    · -- nothing was sent under a key that was just drawn
      obtain ⟨r, hsuf, -, hmade⟩ := hy.made e' he'
      obtain ⟨k', r', rfl, hk'⟩ := hmade.head
      have hkk : k' = ours := hI.publicKey_inj (hk'.symm.trans hk)
      exact absurd (hkk ▸ hsuf.subset List.mem_cons_self) hours
  · rw [(link.deliver_of_ne _ _ hz).1, (link.deliver_of_ne _ _ hz).2]
    refine h.side_cons ?_
    rcases Party.eq_or_eq_other z y with hzy | hzy
    · exact absurd hzy hz
    · rw [ho, hzy]

/-- **Every accepted delivery keeps the parties in lock-step**, on the same ladder or one rung
higher. -/
theorem receive (hI : Ideal P) {q : B} {s' : Session Priv Pub B} (he : e ∈ link.sent y.other)
    (hfresh : ∀ ours, rng.privateKey n = .ok ours → ours ∉ ks)
    (hr : (link.session y).receive P rng e.1 n = (.ok (q, s'), n')) :
    ∃ ks', Synced P secret id initial (link.deliver y s' e.1) ks' ∧
      (ks' = ks ∨ ∃ ours, rng.privateKey n = .ok ours ∧ ks' = ours :: ks ∧ n' = n + 1) := by
  obtain ⟨-, ⟨c, w, hc, hw, -, rfl⟩ | ⟨hc, ours, w, hk, ho, hkey, hw, rfl, rfl⟩⟩ :=
    h.receive_cases hI he hr
  · exact ⟨ks, h.accept_chain hI he hc hw, Or.inl rfl⟩
  · exact ⟨ours :: ks, h.accept_newest hI he ho hkey hc (hfresh ours hk) hw,
      Or.inr ⟨ours, hk, rfl, rfl⟩⟩

end Synced

end Lemmas

/-! ## 7. The first two rungs -/

/-- Two sessions with the same keys; they may differ in their book-keeping. -/
structure Session.SameKeys (s t : Session Priv Pub B) : Prop where
  localIdentity : s.localIdentity = t.localIdentity
  remoteIdentity : s.remoteIdentity = t.remoteIdentity
  root : s.root = t.root
  sender : s.sender = t.sender
  receivers : s.receivers = t.receivers

/-- The identity keys of the two parties. -/
def identityOf (a : AliceParameters Priv Pub) (b : BobParameters Priv Pub) : Party → Pub
  | .alice => a.ourIdentityKey.publicKey
  | .bob => b.ourIdentityKey.publicKey

/-- The ratchet key of its peer that a party starts with. -/
def initialKeys (a : AliceParameters Priv Pub) : Party → List Pub
  | .alice => [a.theirRatchetKey]
  | .bob => []

/-- A link over which nothing was exchanged. -/
def Link.start (alice bob : Session Priv Pub B) : Link Priv Pub B where
  session
    | .alice => alice
    | .bob => bob
  sent _ := []
  accepted _ := []

/-- **Matching parameters start in lock-step**, Alice one rung above Bob. -/
theorem synced_start [DecidableEq Pub] {P : Provider Priv Pub B} {a : AliceParameters Priv Pub}
    {b : BobParameters Priv Pub} (hm : Matching P a b) {sending : Priv}
    (hne : sending ≠ b.ourRatchetKey.privateKey) {s t : Session Priv Pub B}
    (hs : s.SameKeys (Session.alice P a sending)) (ht : t.SameKeys (Session.bob P b)) :
    Synced P (a.secret P) (identityOf a b) (initialKeys a) (Link.start s t)
      [sending, b.ourRatchetKey.privateKey] where
  nodup := by simpa using hne
  height := Nat.le_refl 2
  delivered _ _ h := nomatch h
  side
    | .alice => by
      have hratchet : a.theirRatchetKey = P.publicKey b.ourRatchetKey.privateKey :=
        hm.theirRatchet.trans hm.bobRatchet
      refine ⟨hs.localIdentity, hs.remoteIdentity.trans hm.theirIdentityA, ⟨?_, ?_, ?_⟩,
        fun c hc => ?_, nofun, nofun, fun k r hsr => ?_, nofun, nofun⟩
      · refine hs.root.trans ?_
        show _ = P.ladderRoot (a.secret P) [sending, b.ourRatchetKey.privateKey]
        rw [ladderRoot_cons_cons, ← hratchet]
        rfl
      · refine (congrArg SendingChain.start hs.sender).trans ?_
        show _ = P.ladderStart (a.secret P) [sending, b.ourRatchetKey.privateKey]
        rw [ladderStart_cons_cons, ← hratchet]
        rfl
      · exact congrArg (fun c => some c.pair) hs.sender.symm
      · have hc' : c ∈ s.receivers := hc
        rw [hs.receivers, Session.alice, List.mem_singleton] at hc'
        subst hc'
        exact ⟨b.ourRatchetKey.privateKey, [], ⟨List.suffix_refl _, rfl⟩, hratchet, rfl, rfl⟩
      · have hk : k = b.ourRatchetKey.privateKey := by
          simpa using hsr.1.subset List.mem_cons_self
        rw [hk, ← hratchet]
        exact Or.inl List.mem_cons_self
    | .bob => by
      have hroot : P.initialRoot (b.secret P) = P.initialRoot (a.secret P) := by rw [hm.secret_eq]
      have hstart : P.initialStart (b.secret P) = P.initialStart (a.secret P) := by
        rw [hm.secret_eq]
      refine ⟨ht.localIdentity, ht.remoteIdentity.trans hm.theirIdentityB, ⟨?_, ?_, ?_⟩,
        fun c hc => ?_, nofun, nofun, fun k r hsr => ?_, nofun, nofun⟩
      · exact ht.root.trans hroot
      · exact (congrArg SendingChain.start ht.sender).trans hstart
      · have hpair : P.pair b.ourRatchetKey.privateKey = b.ourRatchetKey := by
          rw [Provider.pair, ← show b.ourRatchetKey.publicKey = _ from hm.bobRatchet]
        exact congrArg some (hpair.trans (congrArg SendingChain.pair ht.sender).symm)
      · have hc' : c ∈ t.receivers := hc
        rw [ht.receivers] at hc'
        cases hc'
      · -- the only rung below the newest is Bob's own
        obtain ⟨hsuf, ho⟩ := hsr
        have hl : (k :: r).length ≤ 1 := hsuf.length_le
        rw [List.length_cons, Nat.succ_le_succ_iff, Nat.le_zero, List.length_eq_zero_iff] at hl
        subst hl
        cases ho

end SignalProtocol
