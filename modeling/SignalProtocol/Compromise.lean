/-
# A compromised store

The whole session record of a party is stolen: root key, chain keys, skipped message keys and
its current ratchet private key.  `RecordStructure.buffers` lists every buffer that is in such
a record.  For parties in lock-step that is a leak of keys of their ladder (`Leak.of`), so
`Leak.out_of_reach` says what can and cannot be computed from it:

* `forward_secrecy`: what the party sent or accepted before stays out of reach, because the
  keys it deleted cannot be computed from those it kept;
* `recovery`: what a party sends after it has accepted an answer under a ratchet key drawn
  after the theft is out of reach again, because a new agreement was mixed in.

The attacker of the first has every ratchet private key that was ever drawn, the attacker of
the second has both records and every private key from before the theft.
-/
import SignalProtocol.Secrecy

namespace SignalProtocol

open Deduction

variable {Addr Priv Pub B : Type}

/-! ## 1. The buffers of a record -/

/-- The buffers in a stored chain key. -/
def ChainKeyStructure.buffers (s : ChainKeyStructure B) : List B := s.key.join.toList

/-- The buffers in a stored message key. -/
def MessageKeyStructure.buffers (s : MessageKeyStructure B) : List B :=
  s.cipherKey.toList ++ s.macKey.toList ++ s.iv.toList

/-- The buffers in a stored chain. -/
def ChainStructure.buffers (s : ChainStructure B) : List B :=
  s.senderRatchetKey.toList ++ s.senderRatchetKeyPrivate.toList ++
    s.chainKey.toList.flatMap ChainKeyStructure.buffers ++
    s.messageKeys.flatMap MessageKeyStructure.buffers

/-- The buffers in a stored pending key exchange. -/
def PendingKeyExchangeStructure.buffers (s : PendingKeyExchangeStructure B) : List B :=
  s.localBaseKey.toList ++ s.localBaseKeyPrivate.toList ++ s.localRatchetKey.toList ++
    s.localRatchetKeyPrivate.toList ++ s.localIdentityKey.toList ++
    s.localIdentityKeyPrivate.toList

/-- The buffers in a stored session state. -/
def SessionStructure.buffers (s : SessionStructure B) : List B :=
  s.localIdentityPublic.toList ++ s.remoteIdentityPublic.toList ++ s.rootKey.join.toList ++
    s.senderChain.toList.flatMap ChainStructure.buffers ++
    s.receiverChains.flatMap ChainStructure.buffers ++
    s.pendingKeyExchange.toList.flatMap PendingKeyExchangeStructure.buffers ++
    (s.pendingPreKey.bind PendingPreKeyStructure.baseKey).toList ++ s.aliceBaseKey.toList

/-- The buffers in a stored record. -/
def RecordStructure.buffers (s : RecordStructure B) : List B :=
  s.currentSession.toList.flatMap SessionStructure.buffers ++
    s.previousSessions.flatMap SessionStructure.buffers

/-- What the buffers of a session's chains and root key are. -/
inductive Session.Stores (P : Provider Priv Pub B) (s : Session Priv Pub B) : B → Prop where
  | root : Stores P s s.root
  | ratchetKey : Stores P s (P.encodePrivate s.sender.pair.privateKey)
  | sending : Stores P s (P.chainKeyAt s.sender.start s.sender.next).key
  | receiving {c} (h : c ∈ s.receivers) : Stores P s (P.chainKeyAt c.start c.window.next).key
  | cipherKey {c n} (h : c ∈ s.receivers) (hn : n ∈ c.window.held) :
      Stores P s (P.messageKeysAt c.start n).cipherKey
  | macKey {c n} (h : c ∈ s.receivers) (hn : n ∈ c.window.held) :
      Stores P s (P.messageKeysAt c.start n).macKey
  | iv {c n} (h : c ∈ s.receivers) (hn : n ∈ c.window.held) :
      Stores P s (P.messageKeysAt c.start n).iv

section Buffers

variable {P : Provider Priv Pub B} {s : Session Priv Pub B} {t : B}

theorem ReceivingChain.mem_buffers {c : ReceivingChain Pub B} (hc : c ∈ s.receivers)
    (ht : t ∈ ((c.toChain P).serialize P).buffers) :
    (∃ k, t = P.encodePoint k) ∨ s.Stores P t := by
  simp only [ChainStructure.buffers, ReceiverChain.serialize, ReceivingChain.toChain,
    Option.map_some, Option.toList_some, Option.toList_none, List.append_nil, List.flatMap_cons,
    List.flatMap_nil, ChainKeyStructure.buffers, RatchetChainKey.serialize, Option.join_some,
    List.mem_append, List.mem_singleton, List.mem_flatMap, List.map_map, List.mem_map,
    Function.comp_apply] at ht
  rcases ht with (ht | ht) | ⟨k, ⟨n, hn, rfl⟩, ht⟩
  · exact Or.inl ⟨_, ht⟩
  · exact Or.inr (ht ▸ .receiving hc)
  · simp only [MessageKeyStructure.buffers, RatchetMessageKeys.serialize, Option.toList_some,
      List.mem_append, List.mem_singleton] at ht
    rcases ht with (rfl | rfl) | rfl
    · exact Or.inr (.cipherKey hc hn)
    · exact Or.inr (.macKey hc hn)
    · exact Or.inr (.iv hc hn)

/-- **What a session's record gives away**: public keys, and the keys it needs from now on. -/
theorem Session.mem_buffers (hp : s.pendingKeyExchange = none)
    (ht : t ∈ ((recordOf P false s []).serialize P).buffers) :
    (∃ k, t = P.encodePoint k) ∨ s.Stores P t := by
  simp only [RecordStructure.buffers, SessionRecord.serialize, recordOf, Option.toList_some,
    List.flatMap_cons, List.flatMap_nil, List.map_nil, List.append_nil, SessionStructure.buffers,
    SessionState.serialize, Session.toState, hp, Option.map_some, Option.map_none,
    Option.toList_none, Option.join_some, List.mem_append, List.mem_singleton] at ht
  rcases ht with (((((ht | ht) | ht) | ht) | ht) | ht) | ht
  · exact Or.inl ⟨_, ht⟩
  · exact Or.inl ⟨_, ht⟩
  · exact Or.inr (ht ▸ .root)
  · simp only [SendingChain.toChain, SenderChain.serialize, ChainStructure.buffers,
      Option.map_some, Option.toList_some, List.flatMap_cons, List.flatMap_nil, List.append_nil,
      ChainKeyStructure.buffers, RatchetChainKey.serialize, Option.join_some, List.mem_append,
      List.mem_singleton] at ht
    rcases ht with (ht | ht) | ht
    · exact Or.inl ⟨_, ht⟩
    · exact Or.inr (ht ▸ .ratchetKey)
    · exact Or.inr (ht ▸ .sending)
  · rw [List.map_map, List.mem_flatMap] at ht
    obtain ⟨_, hmem, ht⟩ := ht
    obtain ⟨c, hc, rfl⟩ := List.mem_map.1 hmem
    exact ReceivingChain.mem_buffers hc ht
  · cases hb : s.pendingPreKey with
    | none =>
      rw [hb] at ht
      cases ht
    | some k =>
      rw [hb] at ht
      cases hk : k.baseKey with
      | none => simp [PendingPreKey.serialize, hk] at ht
      | some key =>
        simp only [Option.map_some, Option.bind_some, PendingPreKey.serialize, hk,
          Option.toList_some, List.mem_singleton] at ht
        exact Or.inl ⟨key, ht⟩
  · cases hk : s.aliceBaseKey with
    | none =>
      rw [hk] at ht
      cases ht
    | some key =>
      rw [hk] at ht
      exact Or.inl ⟨key, List.mem_singleton.1 ht⟩

end Buffers

/-! ## 2. A stolen record as a leak -/

/-- The keys of a ladder that are in stolen sessions. -/
def Leak.of (texts keys : Set Nat) (secret : List Term) (ks : List Nat)
    (stolen : Set (Session Nat Nat Term)) : Leak where
  texts := texts
  keys := keys
  roots := {r | (r <:+ ks ∧ r ≠ []) ∧ ∃ s ∈ stolen, symbolic.ladderRoot secret r = s.root}
  chains := {p | (p.1 <:+ ks ∧ p.1 ≠ []) ∧ ∃ s ∈ stolen,
    symbolic.ladderStart secret p.1 = s.sender.start ∧ p.2 = s.sender.next ∨
      ∃ c ∈ s.receivers, symbolic.ladderStart secret p.1 = c.start ∧ p.2 = c.window.next}
  messages := {p | (p.1 <:+ ks ∧ p.1 ≠ []) ∧ ∃ s ∈ stolen, ∃ c ∈ s.receivers,
    symbolic.ladderStart secret p.1 = c.start ∧ p.2 ∈ c.window.held}

section Stolen

variable {texts keys : Set Nat} {secret : List Term} {ks ks' : List Nat}
  {stolen : Set (Session Nat Nat Term)} {id : Party → Nat} {initial : Party → List Nat}
  {link : Link Nat Nat Term}

theorem Leak.within_of : (Leak.of texts keys secret ks stolen).Within ks :=
  ⟨fun _ h => h.1, fun _ h => h.1, fun _ h => h.1⟩

variable (h : Synced symbolic secret id initial link ks)
include h

/-- **All that a session in lock-step stores is part of the leak.** -/
theorem Synced.gives_of_stores {x : Party} {t : Term} (hks : ks <:+ ks')
    (hx : link.session x ∈ stolen) (hkeys : ∀ k ∈ ks, k ∉ keys)
    (ht : (link.session x).Stores symbolic t) :
    (Leak.of texts keys secret ks' stolen).Gives secret t := by
  have hrung : rungOf x ks <:+ ks' ∧ rungOf x ks ≠ [] :=
    ⟨(rungOf_suffix x ks).trans hks, h.rungOf_ne_nil x⟩
  have hat := (h.side x).atRung
  have hchain : ∀ c ∈ (link.session x).receivers, ∃ r, (r <:+ ks' ∧ r ≠ []) ∧
      symbolic.ladderStart secret r = c.start := by
    intro c hc
    obtain ⟨k, r, hf⟩ := (h.side x).chains c hc
    exact ⟨k :: r, ⟨hf.seen.suffix.trans hks, List.cons_ne_nil k r⟩, hf.start.symm⟩
  cases ht with
  | root =>
    rw [hat.root]
    exact .root ⟨hrung, _, hx, hat.root.symm⟩
  | ratchetKey =>
    match hr : rungOf x ks, hat.pair with
    | k :: r, hpair =>
      have hk : (link.session x).sender.pair.privateKey = k :=
        congrArg EcKeyPair.privateKey (Option.some.inj hpair).symm
      rw [hk]
      refine .free (Or.inr ⟨k, hkeys k ((rungOf_suffix x ks).subset ?_), rfl⟩)
      rw [hr]
      exact List.mem_cons_self
  | sending =>
    rw [hat.start]
    exact .chain ⟨hrung, _, hx, Or.inl ⟨hat.start.symm, rfl⟩⟩
  | receiving hc =>
    obtain ⟨r, hr, hstart⟩ := hchain _ hc
    rw [← hstart]
    exact .chain ⟨hr, _, hx, Or.inr ⟨_, hc, hstart, rfl⟩⟩
  | cipherKey hc hn =>
    obtain ⟨r, hr, hstart⟩ := hchain _ hc
    rw [← hstart]
    exact .cipherKey ⟨hr, _, hx, _, hc, hstart, hn⟩
  | macKey hc hn =>
    obtain ⟨r, hr, hstart⟩ := hchain _ hc
    rw [← hstart]
    exact .macKey ⟨hr, _, hx, _, hc, hstart, hn⟩
  | iv hc hn =>
    obtain ⟨r, hr, hstart⟩ := hchain _ hc
    rw [← hstart]
    exact .iv ⟨hr, _, hx, _, hc, hstart, hn⟩

/-! ## 3. What one stolen session leaves safe -/

variable {y : Party}

/-- The only root key in a session is that of its rung, so every rung up to there is guarded. -/
theorem Synced.guarded_of_height
    (hsafe : (Leak.of texts keys secret ks {link.session y}).SecretSafe secret) :
    ∀ {r : List Nat}, r ≠ [] → r.length ≤ (rungOf y ks).length →
      (Leak.of texts keys secret ks {link.session y}).Guarded secret r
  | [_], _, _ => hsafe
  | k :: k' :: r, _, hl => by
    refine Or.inl ⟨?_, guarded_of_height hsafe (List.cons_ne_nil k' r) (Nat.le_of_succ_le hl)⟩
    rintro ⟨-, s, rfl, hroot⟩
    rw [(h.side y).atRung.root] at hroot
    have := ladderRoot_length symbolic_ideal (List.cons_ne_nil k' r) (h.rungOf_ne_nil y) hroot
    rw [← this] at hl
    exact Nat.not_succ_le_self _ hl

/-- A chain key in a session is that of its own rung, or of a rung of the peer that it has
seen. -/
theorem Synced.rung_of_chains {r : List Nat} {n : Nat}
    (hc : (r, n) ∈ (Leak.of texts keys secret ks {link.session y}).chains) :
    r = rungOf y ks ∧ n = (link.session y).sender.next ∨
      ∃ c ∈ (link.session y).receivers, n = c.window.next ∧
        ∃ k r', r = k :: r' ∧ c.Follows symbolic secret y ks (link.accepted y) k r' := by
  obtain ⟨⟨hr, hne⟩, s, rfl, ⟨hstart, hn⟩ | ⟨c, hc, hstart, hn⟩⟩ := hc
  · rw [(h.side y).atRung.start] at hstart
    exact Or.inl ⟨ladderStart_inj symbolic_ideal hr (rungOf_suffix y ks) hne (h.rungOf_ne_nil y)
      hstart, hn⟩
  · obtain ⟨k, r', hf⟩ := (h.side y).chains c hc
    rw [hf.start] at hstart
    exact Or.inr ⟨c, hc, hn, k, r', ladderStart_inj symbolic_ideal hr hf.seen.suffix hne
      (List.cons_ne_nil k r') hstart, hf⟩

theorem Synced.rung_of_messages {r : List Nat} {n : Nat}
    (hc : (r, n) ∈ (Leak.of texts keys secret ks {link.session y}).messages) :
    ∃ c ∈ (link.session y).receivers, n ∈ c.window.held ∧
      ∃ k r', r = k :: r' ∧ c.Follows symbolic secret y ks (link.accepted y) k r' := by
  obtain ⟨⟨hr, hne⟩, s, rfl, c, hc, hstart, hn⟩ := hc
  obtain ⟨k, r', hf⟩ := (h.side y).chains c hc
  rw [hf.start] at hstart
  exact ⟨c, hc, hn, k, r', ladderStart_inj symbolic_ideal hr hf.seen.suffix hne
    (List.cons_ne_nil k r') hstart, hf⟩

variable (hsafe : (Leak.of texts keys secret ks {link.session y}).SecretSafe secret)
include hsafe

/-- **What the party has sent is safe**: its own chain has moved on, and no other chain in its
session is one of its own. -/
theorem Synced.safe_of_sent {e : SignalMessage Nat Term × Term} (he : e ∈ link.sent y) :
    ∃ r, r <:+ ks ∧ Made symbolic secret (id y) (id y.other) r e.1 e.2 ∧
      (Leak.of texts keys secret ks {link.session y}).Safe secret r e.1.counter.toNat := by
  obtain ⟨r, hr, ho, hm⟩ := (h.side y).made e he
  have hpeer : ∀ {k r'}, r = k :: r' → ¬ SeenRung y ks (k :: r') := by
    rintro k r' rfl hseen
    exact Party.other_ne y (hseen.2.symm.trans ho)
  have hne : r ≠ [] := by
    obtain ⟨k, r', rfl, -⟩ := hm.head
    exact List.cons_ne_nil k r'
  refine ⟨r, hr, hm, h.guarded_of_height hsafe hne (suffix_rungOf hr ho).length_le,
    fun i hi hc => ?_, fun hc => ?_⟩
  · rcases h.rung_of_chains hc with ⟨rfl, rfl⟩ | ⟨c, -, -, k, r', hrr, hf⟩
    · have hkey : e.1.senderRatchetKey = (link.session y).sender.pair.publicKey := by
        have hpair := congrArg (Option.map EcKeyPair.publicKey) (h.side y).atRung.pair
        rw [Option.map_map] at hpair
        exact Option.some.inj (hm.key.symm.trans hpair)
      exact Nat.not_le_of_lt ((h.side y).below e he hkey) hi
    · exact hpeer hrr hf.seen
  · obtain ⟨c, -, -, k, r', hrr, hf⟩ := h.rung_of_messages hc
    exact hpeer hrr hf.seen

/-- **What the party has accepted is safe**: the chain it came on has passed its counter, or is
gone from the session. -/
theorem Synced.safe_of_accepted {m : SignalMessage Nat Term} {p : Term}
    (hm : m ∈ link.accepted y) (hp : (m, p) ∈ link.sent y.other) :
    ∃ r, r <:+ ks ∧ Made symbolic secret (id y.other) (id y.other.other) r m p ∧
      (Leak.of texts keys secret ks {link.session y}).Safe secret r m.counter.toNat := by
  obtain ⟨r, hr, ho, hmade⟩ := (h.side y.other).made _ hp
  obtain ⟨k, r, rfl, hkey⟩ := hmade.head
  obtain ⟨k', r', hseen, hkey'⟩ := (h.side y).known m hm
  obtain rfl : k' = k := hkey'.symm.trans hkey
  obtain rfl := rung_unique h.nodup hr hseen.suffix
  -- a chain of the session for this rung has spent the counter
  have hspent : ∀ {c : ReceivingChain Nat Term} {k₁ r₁}, k' :: r = k₁ :: r₁ →
      c.Follows symbolic secret y ks (link.accepted y) k₁ r₁ → c.window.Spent m.counter.toNat := by
    rintro c k₁ r₁ heq hf
    obtain ⟨rfl, rfl⟩ := List.cons.inj heq
    rw [hf.window]
    refine Window.spent_of_mem_replayFrom (List.mem_map.2 ⟨m, ?_, rfl⟩)
    rw [List.mem_filter]
    exact ⟨hm, decide_eq_true (hkey.trans hf.key.symm)⟩
  refine ⟨_, hr, hmade, h.guarded_of_height hsafe (List.cons_ne_nil _ _)
    (hseen.1.trans (tail_suffix_rungOf y ks)).length_le, fun i hi hc => ?_, fun hc => ?_⟩
  · rcases h.rung_of_chains hc with ⟨heq, -⟩ | ⟨c, -, rfl, k₁, r₁, heq, hf⟩
    · have hne : ks ≠ [] := fun hnil => h.tail_ne_nil (by rw [hnil]; rfl)
      rw [heq, owner_rungOf y hne] at ho
      exact Party.other_ne y ho.symm
    · exact Nat.not_le_of_lt (hspent heq hf).1 hi
  · obtain ⟨c, -, hheld, k₁, r₁, heq, hf⟩ := h.rung_of_messages hc
    exact (hspent heq hf).2 hheld

end Stolen

/-! ## 4. Forward secrecy -/

/-- What a thief finds in a party's store under the address of its peer. -/
def Exchange.exposed (peers : Peers Addr Nat Nat Term) (d : Exchange Addr Nat Nat Term)
    (x : Party) : Set Term :=
  {t | ∃ record, (d.world x).sessions (peers.address x) = some record ∧ t ∈ record.buffers}

section Theft

variable {peers : Peers Addr Nat Nat Term} {a : AliceParameters Nat Nat} {b : BobParameters Nat Nat}
  {d : Exchange Addr Nat Nat Term} {session : Party → Session Nat Nat Term} {ks ks' : List Nat}
  {texts keys : Set Nat} {stolen : Set (Session Nat Nat Term)}

/-- A thief gets no more than the leak. -/
theorem Exchange.Locked.derives_of_exposed (hP : peers.provider = symbolic)
    (h : d.Locked peers a b session ks) {x : Party} (hp : (session x).pendingKeyExchange = none)
    (hks : ks <:+ ks') (hx : session x ∈ stolen) (hkeys : ∀ k ∈ ks, k ∉ keys) {t : Term}
    (ht : t ∈ d.exposed peers x) {K : Set Term}
    (hK : {t | (Leak.of texts keys (a.secret symbolic) ks' stolen).Gives (a.secret symbolic) t} ⊆
      K) : attacker.Derives K t := by
  obtain ⟨record, hrecord, ht⟩ := ht
  have hstored : (d.world x).sessions (peers.address x) = storedAs peers.provider [session x] :=
    h.holds x
  rw [hstored, hP] at hrecord
  obtain rfl := Option.some.inj hrecord
  have hsync := h.synced
  rw [hP] at hsync
  rcases Session.mem_buffers hp ht with ⟨k, rfl⟩ | hstores
  · exact (builds_point k).derives
  · exact .known (hK (hsync.gives_of_stores hks hx hkeys hstores))

variable [DecidableEq Addr]

/-- **Forward secrecy.**  After every run a thief takes the record of one party.  Besides, it
has all traffic and every private key except some, two of which agree in the initial secret
(the ratchet keys are not among the exceptions).  Then it can compute no text that was sent
only in messages the party had sent or accepted before, and the key of no such message. -/
theorem forward_secrecy (hP : peers.provider = symbolic) (hm : Matching symbolic a b)
    (hf : peers.Fresh b.ourRatchetKey.privateKey) (hd : d.Started peers a b)
    (acts : List (Act Term))
    (hcount : ∀ x, ∀ e ∈ (d.run peers acts).sent x, e.1.counter.toNat + 1 < 2 ^ 32) (y : Party)
    (hsecret : ∃ i ∈ keys, ∃ j ∈ keys, symbolicAgreement i j ∈ a.secret symbolic)
    (hratchet : b.ourRatchetKey.privateKey ∉ keys)
    (hdrawn : ∀ x n k, (peers.rng x).privateKey n = .ok k → k ∉ keys)
    (hplain : ∀ x, ∀ e ∈ (d.run peers acts).sent x, attacker.Builds (outsider texts keys) e.2 ∨
      x = y ∨ e.1 ∈ (d.run peers acts).accepted y) :
    (∀ n ∈ texts, ¬ attacker.Derives (outsider texts keys ∪ traffic (d.run peers acts).sent ∪
        (d.run peers acts).exposed peers y) (.text n)) ∧
      ∀ x, ∀ e ∈ (d.run peers acts).sent x, x = y ∨ e.1 ∈ (d.run peers acts).accepted y →
        ∀ key iv p, symbolic.decrypt .cbcPkcs5 key iv e.1.ciphertext = .ok p →
          ¬ attacker.Derives (outsider texts keys ∪ traffic (d.run peers acts).sent ∪
            (d.run peers acts).exposed peers y) key := by
  obtain ⟨session₀, ks₀, h₀, hp₀⟩ := hd.locked (hP ▸ hm) hf
  obtain ⟨session, ks, h, hc⟩ := h₀.run (hP ▸ symbolic_ideal) hf acts hcount
  have hsync := h.synced
  rw [hP] at hsync
  have hks : ∀ k ∈ ks, k ∉ keys := by
    intro k hk
    rcases h.drawn k hk with rfl | ⟨x, n, -, hkn⟩
    · exact hratchet
    · exact hdrawn x n k hkn
  have hsent : SentOn (a.secret symbolic) (identityOf a b) ks (d.run peers acts).sent :=
    fun x e he => (hsync.side x).made e he
  have hprocessed : ∀ x, ∀ e ∈ (d.run peers acts).sent x,
      x = y ∨ e.1 ∈ (d.run peers acts).accepted y →
      ∃ r, r <:+ ks ∧ Made symbolic (a.secret symbolic) (identityOf a b x)
        (identityOf a b x.other) r e.1 e.2 ∧
        (Leak.of texts keys (a.secret symbolic) ks {session y}).Safe (a.secret symbolic) r
          e.1.counter.toNat := by
    intro x e he hproc
    rcases Party.eq_or_eq_other x y with rfl | rfl
    · exact hsync.safe_of_sent hsecret he
    · rcases hproc with hxy | hacc
      · exact absurd hxy (Party.other_ne y)
      · exact hsync.safe_of_accepted hsecret hacc he
  have hkept : PlaintextsKept (a.secret symbolic)
      (Leak.of texts keys (a.secret symbolic) ks {session y}) (identityOf a b) ks
      (d.run peers acts).sent :=
    fun x e he => (hplain x e he).imp_right (hprocessed x e he)
  have hreach := Leak.out_of_reach (K := outsider texts keys ∪ traffic (d.run peers acts).sent ∪
      (d.run peers acts).exposed peers y) hsent Leak.within_of hkept ?_
  · exact ⟨hreach.1, fun x e he hproc => hreach.2 x e he (hprocessed x e he hproc)⟩
  rintro t ((ht | ht) | ht)
  · exact .known (Or.inl (.free ht))
  · exact .known (Or.inr ht)
  · exact h.derives_of_exposed hP ((hc.pending y).trans (hp₀ y)) (List.suffix_refl ks)
      (Set.mem_singleton _) hks ht Set.subset_union_left

end Theft

/-- Bob's record is stolen after the sample run; the text of the message he had accepted is out
of reach. -/
theorem forward_secrecy_sample : ¬ attacker.Derives (outsider {1} {2, 11} ∪
    traffic (sampleStart.run samplePeers sampleActs).sent ∪
    (sampleStart.run samplePeers sampleActs).exposed samplePeers .bob) (.text 1) := by
  have hopen : ∀ e ∈ (sampleStart.run samplePeers sampleActs).sent .alice,
      (e.2 = .text 0 ∨ e.2 = .text 3) ∨
        e.1 ∈ (sampleStart.run samplePeers sampleActs).accepted .bob := by decide +kernel
  refine (forward_secrecy rfl sample_matching sample_fresh sample_started sampleActs ?_ .bob
    ⟨11, by simp, 2, by simp, by decide⟩ (by simp [sampleBob]) ?_ ?_).1 1 rfl
  · intro x
    cases x <;> decide +kernel
  · rintro x n k hk
    cases x <;> obtain rfl := Except.ok.inj hk <;> simp <;> omega
  · rintro x e he
    cases x with
    | bob => exact Or.inr (Or.inl rfl)
    | alice =>
      rcases hopen e he with (hp | hp) | hacc
      · exact Or.inl (hp ▸ .known (text_mem_outsider.2 (by simp)))
      · exact Or.inl (hp ▸ .known (text_mem_outsider.2 (by simp)))
      · exact Or.inr (Or.inr hacc)

/-! ## 5. Recovery -/

/-- The private keys that are still to be drawn. -/
def Exchange.undrawn (peers : Peers Addr Nat Nat Term) (d : Exchange Addr Nat Nat Term) :
    Set Nat :=
  {k | ∃ x n, (d.world x).drawn ≤ n ∧ (peers.rng x).privateKey n = .ok k}

section Rungs

variable {k : Nat} {r ks ks₁ : List Nat}

/-- A rung whose key is not on an earlier ladder is above all of it. -/
theorem suffix_of_notMem (h₁ : ks₁ <:+ ks) (h : k :: r <:+ ks) (hk : k ∉ ks₁) : ks₁ <:+ r := by
  rcases List.suffix_or_suffix_of_suffix h₁ h with hs | hs
  · rcases List.suffix_cons_iff.1 hs with rfl | hs
    · exact absurd List.mem_cons_self hk
    · exact hs
  · exact absurd (hs.subset List.mem_cons_self) hk

theorem notMem_of_suffix (hks : ks.Nodup) (h : k :: r <:+ ks) (h₁ : ks₁ <:+ r) : k ∉ ks₁ :=
  fun hk => (List.nodup_cons.1 (hks.sublist h.sublist)).1 (h₁.subset hk)

end Rungs

section Recovery

variable {texts keys : Set Nat} {secret : List Term} {ks ks' : List Nat} {id : Party → Nat}
  {initial : Party → List Nat} {link : Link Nat Nat Term}

/-- Stolen chain keys are keys of the ladder at the time of the theft. -/
theorem Synced.suffix_of_chains (h : Synced symbolic secret id initial link ks) (hks : ks <:+ ks')
    {r : List Nat} {n : Nat}
    (hc : (r, n) ∈ (Leak.of texts keys secret ks' (Set.range link.session)).chains) : r <:+ ks := by
  obtain ⟨⟨hr, hne⟩, s, ⟨z, rfl⟩, ⟨hstart, -⟩ | ⟨c, hc, hstart, -⟩⟩ := hc
  · rw [(h.side z).atRung.start] at hstart
    have heq : r = rungOf z ks := ladderStart_inj symbolic_ideal hr
      ((rungOf_suffix z ks).trans hks) hne (h.rungOf_ne_nil z) hstart
    exact heq ▸ rungOf_suffix z ks
  · obtain ⟨k, r', hf⟩ := (h.side z).chains c hc
    rw [hf.start] at hstart
    have heq : r = k :: r' := ladderStart_inj symbolic_ideal hr (hf.seen.suffix.trans hks) hne
      (List.cons_ne_nil k r') hstart
    exact heq ▸ hf.seen.suffix

theorem Synced.suffix_of_messages (h : Synced symbolic secret id initial link ks)
    (hks : ks <:+ ks') {r : List Nat} {n : Nat}
    (hc : (r, n) ∈ (Leak.of texts keys secret ks' (Set.range link.session)).messages) :
    r <:+ ks := by
  obtain ⟨⟨hr, hne⟩, s, ⟨z, rfl⟩, c, hc, hstart, -⟩ := hc
  obtain ⟨k, r', hf⟩ := (h.side z).chains c hc
  rw [hf.start] at hstart
  have heq : r = k :: r' := ladderStart_inj symbolic_ideal hr (hf.seen.suffix.trans hks) hne
    (List.cons_ne_nil k r') hstart
  exact heq ▸ hf.seen.suffix

/-- **A rung on which two new ratchet keys agree is safe at every position.** -/
theorem Synced.safe_of_new (h : Synced symbolic secret id initial link ks) (hks : ks <:+ ks')
    {k k' : Nat} {r : List Nat} (hk : k ∈ keys) (hk' : k' ∈ keys) (hnew : k ∉ ks) (n : Nat) :
    (Leak.of texts keys secret ks' (Set.range link.session)).Safe secret (k :: k' :: r) n where
  guarded := Or.inr ⟨hk, hk'⟩
  chains _ _ hc := hnew ((h.suffix_of_chains hks hc).subset List.mem_cons_self)
  messages hc := hnew ((h.suffix_of_messages hks hc).subset List.mem_cons_self)

variable {peers : Peers Addr Nat Nat Term} {a : AliceParameters Nat Nat}
  {b : BobParameters Nat Nat} {d d₁ d₂ d₃ : Exchange Addr Nat Nat Term}
  {session₁ session₂ session₃ : Party → Session Nat Nat Term} {ks₁ ks₂ ks₃ : List Nat}

/-- **A message sent after a new key of the peer was accepted is on a rung of two new keys.** -/
theorem Exchange.Continues.newRung {x : Party} (hf : peers.Fresh b.ourRatchetKey.privateKey)
    (hP : peers.provider = symbolic)
    (h₁ : d₁.Locked peers a b session₁ ks₁) (h₂ : d₂.Locked peers a b session₂ ks₂)
    (h₃ : d₃.Locked peers a b session₃ ks₃)
    (hc₁ : d₁.Continues peers session₁ ks₁ d₂ session₂ ks₂)
    (hc₂ : d₂.Continues peers session₂ ks₂ d₃ session₃ ks₃)
    {m : SignalMessage Nat Term} (hm : m ∈ d₂.accepted x)
    (hkey : m.senderRatchetKey ∈ d₁.undrawn peers) {e : SignalMessage Nat Term × Term}
    (he : e ∈ d₃.sent x) (hnew : e ∉ d₂.sent x) :
    ∃ k k' r, k :: k' :: r <:+ ks₃ ∧ e.1.senderRatchetKey = k ∧ k ∉ ks₁ ∧
      k ∈ d₁.undrawn peers ∧ k' ∈ d₁.undrawn peers := by
  have hpub : ∀ k, peers.provider.publicKey k = k := fun k => by
    rw [hP]
    rfl
  obtain ⟨k₀, r₀, hseen, hk₀⟩ := (h₂.synced.side x).known m hm
  rw [hpub] at hk₀
  rw [hk₀] at hkey
  have hold : ∀ {k}, k ∈ d₁.undrawn peers → k ∉ ks₁ := by
    rintro k ⟨z, n, hn, hkn⟩
    exact h₁.notMem hf hn hkn
  rcases hc₂.sent x e he with he₂ | ⟨k, r, hrung, hr, hk⟩
  · exact absurd he₂ hnew
  rw [hpub] at hk
  -- the new key of the peer is strictly below the rung of the message
  have hbelow : k₀ :: r₀ <:+ r := by
    have hs : k₀ :: r₀ <:+ k :: r := (hseen.1.trans (tail_suffix_rungOf x ks₂)).trans hrung
    rcases List.suffix_cons_iff.1 hs with heq | hs
    · have hne : ks₂ ≠ [] := fun hnil => h₂.synced.tail_ne_nil (by rw [hnil]; rfl)
      have hle : (rungOf x ks₂).length ≤ (k₀ :: r₀).length := heq ▸ hrung.length_le
      have hrk : k₀ :: r₀ = rungOf x ks₂ :=
        (hseen.1.trans (tail_suffix_rungOf x ks₂)).eq_of_length_le hle
      have ho := hseen.2
      rw [hrk, owner_rungOf x hne] at ho
      exact absurd ho.symm (Party.other_ne x)
    · exact hs
  have hsuf₁ : ks₁ <:+ ks₃ := hc₁.ladder.trans hc₂.ladder
  have hks₁ : ks₁ <:+ r₀ := suffix_of_notMem hsuf₁
    ((hbelow.trans (List.suffix_cons k r)).trans hr) (hold hkey)
  obtain ⟨k', r', rfl⟩ := List.exists_cons_of_ne_nil
    (l := r) (fun hnil => List.cons_ne_nil k₀ r₀ (List.suffix_nil.1 (hnil ▸ hbelow)))
  have hr' : ks₁ <:+ r' := by
    rcases List.suffix_cons_iff.1 hbelow with heq | hs
    · rw [← (List.cons.inj heq).2]
      exact hks₁
    · exact hks₁.trans ((List.suffix_cons k₀ r₀).trans hs)
  have hfresh := (hc₁.trans h₁.synced.tail_ne_nil hc₂).fresh
  have hk₁ : k ∉ ks₁ :=
    notMem_of_suffix h₃.synced.nodup hr (hr'.trans (List.suffix_cons k' r'))
  have hk₁' : k' ∉ ks₁ :=
    notMem_of_suffix h₃.synced.nodup ((List.suffix_cons k _).trans hr) hr'
  refine ⟨k, k', r', hr, hk.symm, hk₁, ?_, ?_⟩
  · exact (hfresh k (hr.subset List.mem_cons_self)).resolve_left hk₁
  · exact (hfresh k' (hr.subset (List.mem_cons_of_mem _ List.mem_cons_self))).resolve_left hk₁'

/-- A run in three phases is in lock-step after each. -/
theorem Exchange.Started.phases [DecidableEq Addr] (hI : Ideal peers.provider)
    (hm : Matching peers.provider a b) (hf : peers.Fresh b.ourRatchetKey.privateKey)
    (hd : d.Started peers a b) {acts₁ acts₂ acts₃ : List (Act Term)}
    (hd₁ : d.run peers acts₁ = d₁) (hd₂ : d₁.run peers acts₂ = d₂) (hd₃ : d₂.run peers acts₃ = d₃)
    (hcount : ∀ x, ∀ e ∈ d₃.sent x, e.1.counter.toNat + 1 < 2 ^ 32) :
    ∃ session₁ ks₁ session₂ ks₂ session₃ ks₃, d₁.Locked peers a b session₁ ks₁ ∧
      d₂.Locked peers a b session₂ ks₂ ∧ d₃.Locked peers a b session₃ ks₃ ∧
      (∀ z, (session₁ z).pendingKeyExchange = none) ∧
      d₁.Continues peers session₁ ks₁ d₂ session₂ ks₂ ∧
      d₂.Continues peers session₂ ks₂ d₃ session₃ ks₃ := by
  subst hd₁ hd₂ hd₃
  have hcount₂ : ∀ z, ∀ e ∈ ((d.run peers acts₁).run peers acts₂).sent z,
      e.1.counter.toNat + 1 < 2 ^ 32 :=
    fun z e he => hcount z e ((Exchange.sent_prefix_run _ acts₃ z).subset he)
  have hcount₁ : ∀ z, ∀ e ∈ (d.run peers acts₁).sent z, e.1.counter.toNat + 1 < 2 ^ 32 :=
    fun z e he => hcount₂ z e ((Exchange.sent_prefix_run _ acts₂ z).subset he)
  obtain ⟨session₀, ks₀, h₀, hp₀⟩ := hd.locked hm hf
  obtain ⟨session₁, ks₁, h₁, hc₀⟩ := h₀.run hI hf acts₁ hcount₁
  obtain ⟨session₂, ks₂, h₂, hc₁⟩ := h₁.run hI hf acts₂ hcount₂
  obtain ⟨session₃, ks₃, h₃, hc₂⟩ := h₂.run hI hf acts₃ hcount
  exact ⟨session₁, ks₁, session₂, ks₂, session₃, ks₃, h₁, h₂, h₃,
    fun z => (hc₀.pending z).trans (hp₀ z), hc₁, hc₂⟩

/-- **Recovery.**  After a first run a thief takes the records of both parties; it has all
traffic of the whole run and every private key except those that are still to be drawn.  As
soon as a party has accepted a message under a ratchet key drawn after the theft, whatever it
sends from then on is out of reach again. -/
theorem recovery [DecidableEq Addr] (hP : peers.provider = symbolic) (hm : Matching symbolic a b)
    (hf : peers.Fresh b.ourRatchetKey.privateKey) (hd : d.Started peers a b)
    {acts₁ acts₂ acts₃ : List (Act Term)} (hd₁ : d.run peers acts₁ = d₁)
    (hd₂ : d₁.run peers acts₂ = d₂) (hd₃ : d₂.run peers acts₃ = d₃)
    (hcount : ∀ x, ∀ e ∈ d₃.sent x, e.1.counter.toNat + 1 < 2 ^ 32) {x : Party}
    (hseen : ∃ m ∈ d₂.accepted x, m.senderRatchetKey ∈ d₁.undrawn peers)
    (hplain : ∀ z, ∀ e ∈ d₃.sent z,
      attacker.Builds (outsider texts (d₁.undrawn peers)) e.2 ∨ z = x ∧ e ∉ d₂.sent x) :
    (∀ n ∈ texts, ¬ attacker.Derives (outsider texts (d₁.undrawn peers) ∪ traffic d₃.sent ∪
        {t | ∃ z, t ∈ d₁.exposed peers z}) (.text n)) ∧
      ∀ e ∈ d₃.sent x, e ∉ d₂.sent x → ∀ key iv p,
        symbolic.decrypt .cbcPkcs5 key iv e.1.ciphertext = .ok p →
          ¬ attacker.Derives (outsider texts (d₁.undrawn peers) ∪ traffic d₃.sent ∪
            {t | ∃ z, t ∈ d₁.exposed peers z}) key := by
  obtain ⟨session₁, ks₁, session₂, ks₂, session₃, ks₃, h₁, h₂, h₃, hp, hc₁, hc₂⟩ :=
    hd.phases (hP ▸ symbolic_ideal) (hP ▸ hm) hf hd₁ hd₂ hd₃ hcount
  have hsync₁ := h₁.synced
  have hsync₃ := h₃.synced
  rw [hP] at hsync₁ hsync₃
  have hks : ks₁ <:+ ks₃ := hc₁.ladder.trans hc₂.ladder
  have hold : ∀ k ∈ ks₁, k ∉ d₁.undrawn peers := by
    rintro k hk ⟨z, n, hn, hkn⟩
    exact h₁.notMem hf hn hkn hk
  have hsent : SentOn (a.secret symbolic) (identityOf a b) ks₃ d₃.sent :=
    fun z e he => (hsync₃.side z).made e he
  obtain ⟨m, hmem, hkey⟩ := hseen
  -- a message sent after that was made on a rung of two new keys
  have hlater : ∀ e ∈ d₃.sent x, e ∉ d₂.sent x → ∃ r, r <:+ ks₃ ∧ Made symbolic
      (a.secret symbolic) (identityOf a b x) (identityOf a b x.other) r e.1 e.2 ∧
      (Leak.of texts (d₁.undrawn peers) (a.secret symbolic) ks₃ (Set.range session₁)).Safe
        (a.secret symbolic) r e.1.counter.toNat := by
    intro e he hnew
    obtain ⟨k, k', r, hr, hk, hk₁, hku, hku'⟩ :=
      hc₁.newRung hf hP h₁ h₂ h₃ hc₂ hmem hkey he hnew
    obtain ⟨r', hr', -, hmade⟩ := hsent x e he
    obtain ⟨k'', r'', rfl, hk''⟩ := hmade.head
    obtain rfl : k = k'' := hk.symm.trans hk''
    obtain rfl := rung_unique hsync₃.nodup hr hr'
    exact ⟨_, hr, hmade, hsync₁.safe_of_new hks hku hku' hk₁ _⟩
  have hkept : PlaintextsKept (a.secret symbolic) (Leak.of texts (d₁.undrawn peers)
      (a.secret symbolic) ks₃ (Set.range session₁)) (identityOf a b) ks₃ d₃.sent := by
    intro z e he
    refine (hplain z e he).imp_right ?_
    rintro ⟨rfl, hnew⟩
    exact hlater e he hnew
  have hreach := Leak.out_of_reach (K := outsider texts (d₁.undrawn peers) ∪ traffic d₃.sent ∪
    {t | ∃ z, t ∈ d₁.exposed peers z}) hsent Leak.within_of hkept ?_
  · exact ⟨hreach.1, fun e he hnew => hreach.2 x e he (hlater e he hnew)⟩
  rintro t ((ht | ht) | ⟨z, ht⟩)
  · exact .known (Or.inl (.free ht))
  · exact .known (Or.inr ht)
  · exact h₁.derives_of_exposed hP (hp z) hks (Set.mem_range_self z) hold ht Set.subset_union_left

end Recovery

/-- Both sample parties exchange one message each, so that both have drawn new keys. -/
def sampleRound : List (Act Term) :=
  [.encrypt .alice (.text 0), .deliver .bob 0, .encrypt .bob (.text 1), .deliver .alice 0]

/-- Both records are stolen at the start; after one round, what Alice sends is out of reach. -/
theorem recovery_sample : ¬ attacker.Derives (outsider {2} (sampleStart.undrawn samplePeers) ∪
    traffic ((sampleStart.run samplePeers sampleRound).run samplePeers
      [.encrypt .alice (.text 2)]).sent ∪
    {t | ∃ z, t ∈ sampleStart.exposed samplePeers z}) (.text 2) := by
  have hround : ∀ e ∈ ((sampleStart.run samplePeers sampleRound).run samplePeers
      [.encrypt .alice (.text 2)]).sent .alice,
      e.2 = .text 0 ∨ e ∉ (sampleStart.run samplePeers sampleRound).sent .alice := by
    decide +kernel
  have hbob : ∀ e ∈ ((sampleStart.run samplePeers sampleRound).run samplePeers
      [.encrypt .alice (.text 2)]).sent .bob, e.2 = .text 1 := by decide +kernel
  have hstart : sampleStart.run samplePeers [] = sampleStart := rfl
  refine (recovery (x := .alice) rfl sample_matching sample_fresh sample_started hstart rfl rfl
    ?_ ?_ ?_).1 2 rfl
  · intro x
    cases x <;> decide +kernel
  · refine ⟨((sampleStart.run samplePeers sampleRound).accepted .alice).head
      (by decide +kernel), List.head_mem _, .bob, 0, Nat.le_refl 0, ?_⟩
    decide +kernel
  · rintro z e he
    cases z with
    | alice =>
      rcases hround e he with hp | hnew
      · exact Or.inl (hp ▸ .known (text_mem_outsider.2 (by simp)))
      · exact Or.inr ⟨rfl, hnew⟩
    | bob => exact Or.inl (hbob e he ▸ .known (text_mem_outsider.2 (by simp)))

end SignalProtocol
