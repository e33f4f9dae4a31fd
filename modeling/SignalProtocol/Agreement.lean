/-
# Two parties and a network

Two parties with stores of their own, set up with matching parameters, encrypt for each other
and decrypt what the network hands them.  The network may reorder, lose and duplicate
messages: an `Act` is either an encryption or the delivery of any message the peer has
produced so far, and a run is any list of them.

`Exchange.Locked` says that the two stored sessions are in lock-step (`Ladder.lean`).  It holds
of the start, every act keeps it, and under it a delivery succeeds exactly where the windows
allow it and then returns what was encrypted.
-/
import SignalProtocol.Ladder
import SignalProtocol.Symbolic

namespace SignalProtocol

variable {Addr Priv Pub B : Type}

/-! ## 1. The parties -/

/-- What the two parties compute with: one provider, a random source and a trust decision
each, and the address under which each stores its peer. -/
structure Peers (Addr Priv Pub B : Type) where
  provider : Provider Priv Pub B
  rng : Party → Rng Priv B
  trusted : Party → Addr → Option Pub → Pub → Bool
  address : Party → Addr

namespace Peers

/-- The context of a party. -/
def context (peers : Peers Addr Priv Pub B) (x : Party) : SignalContext Addr Priv Pub B :=
  ⟨peers.provider, peers.rng x, peers.trusted x⟩

/-- The cipher of a party for its peer. -/
def cipher (peers : Peers Addr Priv Pub B) (x : Party) : SessionCipher Addr Priv Pub B :=
  SessionCipher.create (peers.address x)

/-- **Generated key pairs are fresh**: generation succeeds, no two draws of either party are
equal, and none is the ratchet key that Bob brings along. -/
structure Fresh (peers : Peers Addr Priv Pub B) (ratchetKey : Priv) : Prop where
  total : ∀ x n, ∃ k, (peers.rng x).privateKey n = .ok k
  inj : ∀ {x y m n k}, (peers.rng x).privateKey m = .ok k →
    (peers.rng y).privateKey n = .ok k → x = y ∧ m = n
  ne : ∀ x n, (peers.rng x).privateKey n ≠ .ok ratchetKey

end Peers

/-! ## 2. Runs -/

/-- The stores of both parties, what each produced (with the plaintext) in order, and what
each accepted, latest first. -/
structure Exchange (Addr Priv Pub B : Type) where
  world : Party → World Addr Priv Pub B
  sent : Party → List (SignalMessage Pub B × B)
  accepted : Party → List (SignalMessage Pub B)

/-- A party encrypts a plaintext, or is handed the message at some position of what its peer
produced. -/
inductive Act (B : Type) where
  | encrypt (x : Party) (plaintext : B)
  | deliver (y : Party) (i : Nat)

section Run

variable [DecidableEq Addr] [DecidableEq Pub] [DecidableEq B]

/-- **One act.** -/
def Exchange.step (peers : Peers Addr Priv Pub B) (d : Exchange Addr Priv Pub B) :
    Act B → Exchange Addr Priv Pub B
  | .encrypt x plaintext =>
    match sessionCipherEncrypt (peers.context x) (peers.cipher x) plaintext (d.world x) with
    | (.error _, w) => { d with world := Function.update d.world x w }
    | (.ok c, w) =>
      { d with
        world := Function.update d.world x w
        sent := Function.update d.sent x (d.sent x ++ [(c.inner, plaintext)]) }
  | .deliver y i =>
    match (d.sent y.other)[i]? with
    | none => d
    | some e =>
      match sessionCipherDecryptSignalMessage (peers.context y) (peers.cipher y) e.1
        (d.world y) with
      | (.error _, w) => { d with world := Function.update d.world y w }
      | (.ok _, w) =>
        { d with
          world := Function.update d.world y w
          accepted := Function.update d.accepted y (e.1 :: d.accepted y) }

/-- A run is any sequence of acts. -/
def Exchange.run (peers : Peers Addr Priv Pub B) (d : Exchange Addr Priv Pub B)
    (acts : List (Act B)) : Exchange Addr Priv Pub B :=
  acts.foldl (Exchange.step peers) d

/-- The key of the current state's receiver chain for a ratchet key, as the store holds it. -/
def World.receiverChainKey (P : Provider Priv Pub B) (address : Addr)
    (key : Pub) (w : World Addr Priv Pub B) : Option (RatchetChainKey B) :=
  match signalProtocolSessionLoadSession P address w with
  | (.ok record, _) => record.state.getReceiverChainKey key
  | (.error _, _) => none

/-- **The conditions under which a delivery must succeed.**  The receiver still has a receiver
chain for the ratchet key, the counter is at most 2000 above the chain's index, and its
skipped key was not evicted; or the receiver has never seen the key, and the counter is at
most 2000. -/
def Exchange.Deliverable (peers : Peers Addr Priv Pub B) (initial : Party → List Pub)
    (d : Exchange Addr Priv Pub B) (y : Party) (m : SignalMessage Pub B) : Prop :=
  match (d.world y).receiverChainKey peers.provider (peers.address y) m.senderRatchetKey with
  | some chainKey =>
    m.counter.toNat ≤ chainKey.index.toNat + 2000 ∧
      m.counter.toNat ∉ Window.evicted maxMessageKeys
        (acceptedCounters (d.accepted y) m.senderRatchetKey)
  | none =>
    m.senderRatchetKey ∉ initial y ∧
      (∀ m' ∈ d.accepted y, m'.senderRatchetKey ≠ m.senderRatchetKey) ∧ m.counter.toNat ≤ 2000

end Run

/-- **The start**: each store holds a record with the state that the initialisation of its
role made, and nothing was exchanged. -/
structure Exchange.Started [DecidableEq Addr] (peers : Peers Addr Priv Pub B)
    (a : AliceParameters Priv Pub) (b : BobParameters Priv Pub) (d : Exchange Addr Priv Pub B) :
    Prop where
  alice : ∃ n state, ratchetingSessionAliceInitialize peers.provider (peers.rng .alice)
      SessionState.create a n = (.ok state, (d.world .alice).drawn) ∧
    (d.world .alice).sessions (peers.address .alice) =
      some ((SessionRecord.create (some state)).serialize peers.provider)
  bob : (d.world .bob).sessions (peers.address .bob) = some ((SessionRecord.create (some
    (ratchetingSessionBobInitialize peers.provider SessionState.create b))).serialize
      peers.provider)
  sent : ∀ x, d.sent x = []
  accepted : ∀ x, d.accepted x = []

/-! ## 3. Lock-step over a run -/

section Locked

variable [DecidableEq Pub]

/-- **The stored sessions are in lock-step**: each store holds one session, the two stand on a
ladder, and every rung but the first was drawn by one of the parties. -/
structure Exchange.Locked (peers : Peers Addr Priv Pub B) (a : AliceParameters Priv Pub)
    (b : BobParameters Priv Pub) (d : Exchange Addr Priv Pub B)
    (session : Party → Session Priv Pub B) (ks : List Priv) : Prop where
  synced : Synced peers.provider (a.secret peers.provider) (identityOf a b) (initialKeys a)
    ⟨session, d.sent, d.accepted⟩ ks
  holds : ∀ x, (d.world x).Holds (peers.context x).provider (peers.cipher x).remoteAddress
    [session x]
  inRange : ∀ x, (session x).InRange
  drawn : ∀ k ∈ ks, k = b.ourRatchetKey.privateKey ∨
    ∃ x n, n < (d.world x).drawn ∧ (peers.rng x).privateKey n = .ok k

variable {peers : Peers Addr Priv Pub B} {a : AliceParameters Priv Pub}
  {b : BobParameters Priv Pub} {d : Exchange Addr Priv Pub B}
  {session : Party → Session Priv Pub B} {ks : List Priv}

/-- **How a run continues**: the ladder grows by keys drawn on the way, a pending key exchange
is left alone, and what is sent is sent on the party's rung or a later one. -/
structure Exchange.Continues (peers : Peers Addr Priv Pub B) (d : Exchange Addr Priv Pub B)
    (session : Party → Session Priv Pub B) (ks : List Priv) (d' : Exchange Addr Priv Pub B)
    (session' : Party → Session Priv Pub B) (ks' : List Priv) : Prop where
  ladder : ks <:+ ks'
  pending : ∀ z, (session' z).pendingKeyExchange = (session z).pendingKeyExchange
  drawn : ∀ z, (d.world z).drawn ≤ (d'.world z).drawn
  fresh : ∀ k ∈ ks', k ∈ ks ∨ ∃ z n, (d.world z).drawn ≤ n ∧ (peers.rng z).privateKey n = .ok k
  sent : ∀ z, ∀ e ∈ d'.sent z, e ∈ d.sent z ∨ ∃ k r, rungOf z ks <:+ k :: r ∧ k :: r <:+ ks' ∧
    peers.provider.publicKey k = e.1.senderRatchetKey

omit [DecidableEq Pub] in
/-- Nothing but the random source has moved. -/
theorem Exchange.Continues.advance (d d' : Exchange Addr Priv Pub B)
    (session : Party → Session Priv Pub B) (ks : List Priv)
    (hdrawn : ∀ z, (d.world z).drawn ≤ (d'.world z).drawn) (hsent : d'.sent = d.sent) :
    d.Continues peers session ks d' session ks where
  ladder := List.suffix_refl ks
  pending _ := rfl
  drawn := hdrawn
  fresh _ hk := Or.inl hk
  sent _ _ he := Or.inl (hsent ▸ he)

omit [DecidableEq Pub] in
theorem Exchange.Continues.trans {d' d'' : Exchange Addr Priv Pub B}
    {session' session'' : Party → Session Priv Pub B} {ks' ks'' : List Priv}
    (hks : ks.tail ≠ []) (h : d.Continues peers session ks d' session' ks')
    (h' : d'.Continues peers session' ks' d'' session'' ks'') :
    d.Continues peers session ks d'' session'' ks'' where
  ladder := h.ladder.trans h'.ladder
  pending z := (h'.pending z).trans (h.pending z)
  drawn z := (h.drawn z).trans (h'.drawn z)
  fresh k hk := by
    rcases h'.fresh k hk with hk | ⟨z, n, hn, hkn⟩
    · exact h.fresh k hk
    · exact Or.inr ⟨z, n, (h.drawn z).trans hn, hkn⟩
  sent z e he := by
    rcases h'.sent z e he with he | ⟨k, r, hr, hsuf, hk⟩
    · refine (h.sent z e he).imp_right ?_
      rintro ⟨k, r, hr, hsuf, hk⟩
      exact ⟨k, r, hr, hsuf.trans h'.ladder, hk⟩
    · exact Or.inr ⟨k, r, (rungOf_mono z hks h.ladder).trans hr, hsuf, hk⟩

/-- The start is in lock-step, with no key exchange pending. -/
theorem Exchange.Started.locked [DecidableEq Addr] (hm : Matching peers.provider a b)
    (hf : peers.Fresh b.ourRatchetKey.privateKey) (h : d.Started peers a b) :
    ∃ session ks, d.Locked peers a b session ks ∧
      ∀ x, (session x).pendingKeyExchange = none := by
  obtain ⟨n, state, hinit, hstored⟩ := h.alice
  obtain ⟨sending, hk⟩ := hf.total .alice n
  rw [Session.aliceInitialize_of_ok a hk] at hinit
  obtain ⟨hstate, hdrawn⟩ := Prod.mk.inj hinit
  have hstate := Except.ok.inj hstate
  have hne : sending ≠ b.ourRatchetKey.privateKey := fun he => hf.ne .alice n (he ▸ hk)
  have hlink : Link.start (Session.alice peers.provider a sending) (Session.bob peers.provider b) =
      ⟨(Link.start (Session.alice peers.provider a sending)
        (Session.bob peers.provider b)).session, d.sent, d.accepted⟩ := by
    rw [Link.mk.injEq]
    exact ⟨rfl, (funext h.sent).symm, (funext h.accepted).symm⟩
  refine ⟨_, _, ⟨hlink ▸ synced_start hm hne ⟨rfl, rfl, rfl, rfl, rfl⟩ ⟨rfl, rfl, rfl, rfl, rfl⟩,
    fun x => ?_, fun x => ?_, fun k hk' => ?_⟩, fun x => ?_⟩
  · cases x with
    | alice => exact hstored.trans (by rw [← hstate]; rfl)
    | bob => exact h.bob
  · cases x with
    | alice => exact Session.inRange_alice a sending
    | bob => exact Session.inRange_bob b
  · rcases List.mem_cons.1 hk' with rfl | hk'
    · exact Or.inr ⟨.alice, n, by rw [← hdrawn]; exact Nat.lt_succ_self n, hk⟩
    · exact Or.inl (List.mem_singleton.1 hk')
  · cases x <;> rfl

variable (h : d.Locked peers a b session ks)
include h

/-- A key that was not drawn yet is on no rung. -/
theorem Exchange.Locked.notMem (hf : peers.Fresh b.ourRatchetKey.privateKey) {y : Party}
    {n : Nat} {k : Priv} (hn : (d.world y).drawn ≤ n)
    (hk : (peers.rng y).privateKey n = .ok k) : k ∉ ks := by
  intro hmem
  rcases h.drawn k hmem with rfl | ⟨x, n', hn', hk'⟩
  · exact hf.ne y n hk
  · obtain ⟨rfl, rfl⟩ := hf.inj hk hk'
    exact Nat.not_lt.2 hn hn'

/-- One party moved on to another world and another session; the peer did nothing. -/
theorem Exchange.Locked.replace (d' : Exchange Addr Priv Pub B) (y : Party)
    {w : World Addr Priv Pub B} {s : Session Priv Pub B} {ks' : List Priv}
    (hsync : Synced peers.provider (a.secret peers.provider) (identityOf a b) (initialKeys a)
      ⟨Function.update session y s, d'.sent, d'.accepted⟩ ks')
    (hworld : d'.world = Function.update d.world y w)
    (hholds : w.Holds (peers.context y).provider (peers.cipher y).remoteAddress [s])
    (hrange : s.InRange)
    (hdrawn : (d.world y).drawn ≤ w.drawn)
    (hks : ∀ k ∈ ks', k ∈ ks ∨ ∃ n, n < w.drawn ∧ (peers.rng y).privateKey n = .ok k) :
    d'.Locked peers a b (Function.update session y s) ks' := by
  refine ⟨hsync, fun x => ?_, fun x => ?_, fun k hk => ?_⟩
  · rw [hworld]
    rcases eq_or_ne x y with rfl | hx
    · rwa [Function.update_self, Function.update_self]
    · rw [Function.update_of_ne hx, Function.update_of_ne hx]
      exact h.holds x
  · rcases eq_or_ne x y with rfl | hx
    · rwa [Function.update_self]
    · rw [Function.update_of_ne hx]
      exact h.inRange x
  · rw [hworld]
    rcases hks k hk with hk | ⟨n, hn, hkn⟩
    · refine (h.drawn k hk).imp_right ?_
      rintro ⟨x, m, hm, hkm⟩
      refine ⟨x, m, ?_, hkm⟩
      rcases eq_or_ne x y with rfl | hx
      · rw [Function.update_self]
        exact Nat.lt_of_lt_of_le hm hdrawn
      · rwa [Function.update_of_ne hx]
    · exact Or.inr ⟨y, n, by rwa [Function.update_self], hkn⟩

/-- Only the random source of one party has moved on. -/
theorem Exchange.Locked.advance {d' : Exchange Addr Priv Pub B} (y : Party) {n : Nat}
    (hn : (d.world y).drawn ≤ n) (hworld : d'.world = Function.update d.world y ((d.world y).at n))
    (hsent : d'.sent = d.sent) (haccepted : d'.accepted = d.accepted) :
    d'.Locked peers a b session ks := by
  have hself : Function.update session y (session y) = session := Function.update_eq_self y session
  have hlocked := h.replace d' y (w := (d.world y).at n) (s := session y)
    (by rw [hself, hsent, haccepted]; exact h.synced) hworld ((h.holds y).at n) (h.inRange y) hn
    fun k hk => Or.inl hk
  rwa [hself] at hlocked

/-- The stored session of a party is in the range that decrypting needs. -/
theorem Exchange.Locked.inRange_stored (y : Party) : ∀ t ∈ [session y], t.InRange := by
  intro t ht
  rw [List.mem_singleton.1 ht]
  exact h.inRange y

/-- The key of the rung on which a party sends is the one in its session. -/
theorem Exchange.Locked.rungOf_eq (x : Party) : ∃ k r, rungOf x ks = k :: r ∧
    peers.provider.publicKey k = (session x).sender.pair.publicKey := by
  match rungOf x ks, (h.synced.side x).atRung.pair with
  | k :: r, hpair => exact ⟨k, r, rfl, congrArg EcKeyPair.publicKey (Option.some.inj hpair)⟩

variable [DecidableEq Addr] [DecidableEq B]

/-- Encrypting keeps lock-step. -/
theorem Exchange.Locked.encrypt (x : Party) (plaintext : B)
    (hcount : ∀ e ∈ (d.step peers (.encrypt x plaintext)).sent x, e.1.counter.toNat + 1 < 2 ^ 32) :
    ∃ session', (d.step peers (.encrypt x plaintext)).Locked peers a b session' ks ∧
      d.Continues peers session ks (d.step peers (.encrypt x plaintext)) session' ks := by
  rcases hr : sessionCipherEncrypt (peers.context x) (peers.cipher x) plaintext (d.world x) with
    ⟨e | c, w⟩
  · have hw := encrypt_error (h.holds x) rfl hr
    have hd : d.step peers (.encrypt x plaintext) = d := by
      simp only [Exchange.step, hr, hw, Function.update_eq_self]
    rw [hd]
    exact ⟨session, h, .advance d d session ks (fun _ => Nat.le_refl _) rfl⟩
  · obtain ⟨s, rest, s', hl, hs, rfl⟩ := encrypt_ok (h.holds x) rfl hr
    obtain ⟨rfl, rfl⟩ := List.cons.inj hl
    have hsync := h.synced.send (h.inRange x).sender hs
    have hsent := Session.counter_of_send hs (h.inRange x).sender
    obtain ⟨_, -, hwrap, rfl⟩ := Session.send_ok_iff.1 hs
    have hlt : (session x).sender.next + 1 < 2 ^ 32 := by
      rw [← hsent]
      refine hcount (c.inner, plaintext) ?_
      simp only [Exchange.step, hr, Function.update_self]
      exact List.mem_append_right _ List.mem_cons_self
    refine ⟨_, h.replace _ x ?_ ?_ (World.holds_put _ _ _ (d.world x))
      (Session.inRange_sent (h.inRange x) hlt) (Nat.le_refl _) fun k hk => Or.inl hk,
      List.suffix_refl ks, fun z => ?_, fun z => ?_, fun k hk => Or.inl hk, fun z e he => ?_⟩
    · simp only [Exchange.step, hr]
      exact hsync
    · simp only [Exchange.step, hr]
    · rcases eq_or_ne z x with rfl | hz
      · rw [Function.update_self]
        rfl
      · rw [Function.update_of_ne hz]
    · simp only [Exchange.step, hr]
      rcases eq_or_ne z x with rfl | hz
      · rw [Function.update_self]
        exact Nat.le_refl _
      · rw [Function.update_of_ne hz]
    · simp only [Exchange.step, hr] at he
      rcases eq_or_ne z x with rfl | hz
      · rw [Function.update_self] at he
        refine (List.mem_append.1 he).imp_right fun he => ?_
        obtain ⟨k, r, hrung, hk⟩ := h.rungOf_eq z
        rw [List.mem_singleton.1 he]
        refine ⟨k, r, hrung ▸ List.suffix_refl _, hrung ▸ rungOf_suffix z ks, hk.trans ?_⟩
        rw [Session.wrap_inner hwrap]
        rfl
      · rw [Function.update_of_ne hz] at he
        exact Or.inl he

/-- **Delivering keeps lock-step**, on the same ladder or one rung higher. -/
theorem Exchange.Locked.deliver (hI : Ideal peers.provider)
    (hf : peers.Fresh b.ourRatchetKey.privateKey) (y : Party) (i : Nat)
    (hcount : ∀ e ∈ d.sent y.other, e.1.counter.toNat + 1 < 2 ^ 32) :
    ∃ session' ks', (d.step peers (.deliver y i)).Locked peers a b session' ks' ∧
      d.Continues peers session ks (d.step peers (.deliver y i)) session' ks' := by
  rcases hi : (d.sent y.other)[i]? with _ | e
  · have hd : d.step peers (.deliver y i) = d := by
      rw [Exchange.step, hi]
    rw [hd]
    exact ⟨session, ks, h, .advance d d session ks (fun _ => Nat.le_refl _) rfl⟩
  have he : e ∈ d.sent y.other := List.mem_of_getElem? hi
  have hlen : [session y].length ≤ archivedStatesMaxLength + 1 := Nat.succ_le_succ (Nat.zero_le _)
  have hpassive : (peers.cipher y).Passive := SessionCipher.passive_create _
  rcases hr : sessionCipherDecryptSignalMessage (peers.context y) (peers.cipher y) e.1
    (d.world y) with ⟨_ | p, w⟩
  · obtain ⟨n, hn, rfl⟩ := decrypt_error (h.holds y) (h.inRange_stored y) hlen hpassive hr
    refine ⟨session, ks, h.advance y hn ?_ ?_ ?_, .advance _ _ session ks (fun z => ?_) ?_⟩
    · simp only [Exchange.step, hi, hr]
    · simp only [Exchange.step, hi, hr]
    · simp only [Exchange.step, hi, hr]
    · simp only [Exchange.step, hi, hr]
      rcases eq_or_ne z y with rfl | hz
      · rw [Function.update_self]
        exact hn
      · rw [Function.update_of_ne hz]
    · simp only [Exchange.step, hi, hr]
  · obtain ⟨s', j, n, ha, rfl⟩ := decrypt_ok (h.holds y) (h.inRange_stored y) hlen hpassive hr
    have hmoves : (d.world y).drawn ≤ n := by
      have := Session.receiveAny_moves (peers.context y).provider (peers.context y).rng e.1
        [session y] (d.world y).drawn
      rwa [ha] at this
    obtain ⟨s, k, hs, hk, hrec⟩ := Session.receiveAny_ok ha
    obtain ⟨rfl, rfl⟩ : j = 0 ∧ session y = s := by
      rw [List.getElem?_singleton] at hs
      split at hs
      · exact ⟨‹_›, Option.some.inj hs⟩
      · cases hs
    obtain ⟨ks', hsync, hks⟩ := h.synced.receive hI he (fun _ => h.notMem hf hk) hrec
    refine ⟨_, ks', h.replace _ y ?_ ?_ (World.holds_put _ _ _ (d.world y))
      (Session.inRange_receive (h.inRange y) (hcount e he) hrec) hmoves fun k' hk' => ?_, ?_,
      fun z => ?_, fun z => ?_, fun k' hk' => ?_, fun z e' he' => ?_⟩
    · simp only [Exchange.step, hi, hr]
      exact hsync
    · simp only [Exchange.step, hi, hr]
      rfl
    · rcases hks with rfl | ⟨ours, hours, rfl, rfl⟩
      · exact Or.inl hk'
      · rcases List.mem_cons.1 hk' with rfl | hk'
        · exact Or.inr ⟨k, Nat.lt_succ_self k, hours⟩
        · exact Or.inl hk'
    · rcases hks with rfl | ⟨ours, -, rfl, -⟩
      · exact List.suffix_refl _
      · exact List.suffix_cons _ _
    · rcases eq_or_ne z y with rfl | hz
      · rw [Function.update_self]
        exact Session.pendingKeyExchange_receive hrec
      · rw [Function.update_of_ne hz]
    · simp only [Exchange.step, hi, hr]
      rcases eq_or_ne z y with rfl | hz
      · rw [Function.update_self]
        exact hmoves
      · rw [Function.update_of_ne hz]
    · rcases hks with rfl | ⟨ours, hours, rfl, -⟩
      · exact Or.inl hk'
      · rcases List.mem_cons.1 hk' with rfl | hk'
        · exact Or.inr ⟨y, k, hk, hours⟩
        · exact Or.inl hk'
    · simp only [Exchange.step, hi, hr] at he'
      exact Or.inl he'

end Locked

/-! ## 4. Agreement -/

section Agreement

variable [DecidableEq Addr] [DecidableEq Pub] [DecidableEq B] {peers : Peers Addr Priv Pub B}
  {a : AliceParameters Priv Pub} {b : BobParameters Priv Pub} {d : Exchange Addr Priv Pub B}

/-- What was produced stays produced. -/
theorem Exchange.sent_prefix_step (d : Exchange Addr Priv Pub B) (act : Act B) (x : Party) :
    d.sent x <+: (d.step peers act).sent x := by
  cases act with
  | encrypt z plaintext =>
    rcases hr : sessionCipherEncrypt (peers.context z) (peers.cipher z) plaintext (d.world z) with
      ⟨_ | c, w⟩ <;> simp only [Exchange.step, hr]
    · exact List.prefix_refl _
    · rcases eq_or_ne x z with rfl | hx
      · rw [Function.update_self]
        exact List.prefix_append ..
      · rw [Function.update_of_ne hx]
  | deliver z i =>
    rcases hi : (d.sent z.other)[i]? with _ | e <;> simp only [Exchange.step, hi]
    · exact List.prefix_refl _
    · rcases hr : sessionCipherDecryptSignalMessage (peers.context z) (peers.cipher z) e.1
        (d.world z) with ⟨_ | p, w⟩ <;> simp only <;> exact List.prefix_refl _

/-- What was produced before a run stays produced. -/
theorem Exchange.sent_prefix_run (d : Exchange Addr Priv Pub B) (acts : List (Act B))
    (x : Party) : d.sent x <+: (d.run peers acts).sent x := by
  induction acts generalizing d with
  | nil => exact List.prefix_refl _
  | cons act acts ih => exact (d.sent_prefix_step act x).trans (ih _)

/-- **Lock-step is kept by every run** in which no counter reaches the end of its range. -/
theorem Exchange.Locked.run {session : Party → Session Priv Pub B} {ks : List Priv}
    (hI : Ideal peers.provider) (hf : peers.Fresh b.ourRatchetKey.privateKey)
    (h : d.Locked peers a b session ks) (acts : List (Act B))
    (hcount : ∀ x, ∀ e ∈ (d.run peers acts).sent x, e.1.counter.toNat + 1 < 2 ^ 32) :
    ∃ session' ks', (d.run peers acts).Locked peers a b session' ks' ∧
      d.Continues peers session ks (d.run peers acts) session' ks' := by
  induction acts generalizing d session ks with
  | nil => exact ⟨session, ks, h, .advance d d session ks (fun _ => Nat.le_refl _) rfl⟩
  | cons act acts ih =>
    have hcount' : ∀ x, ∀ e ∈ (d.step peers act).sent x, e.1.counter.toNat + 1 < 2 ^ 32 :=
      fun x e he => hcount x e ((Exchange.sent_prefix_run _ acts x).subset he)
    have hstep : ∃ session' ks', (d.step peers act).Locked peers a b session' ks' ∧
        d.Continues peers session ks (d.step peers act) session' ks' := by
      cases act with
      | encrypt x plaintext =>
        obtain ⟨session', h'⟩ := h.encrypt x plaintext (hcount' x)
        exact ⟨session', ks, h'⟩
      | deliver y i =>
        exact h.deliver hI hf y i fun e he => hcount' y.other e
          ((Exchange.sent_prefix_step d (.deliver y i) y.other).subset he)
    obtain ⟨session', ks', h', hc⟩ := hstep
    obtain ⟨session'', ks'', h'', hc'⟩ := ih h' hcount
    exact ⟨session'', ks'', h'', hc.trans h.synced.tail_ne_nil hc'⟩

/-- **Lock-step holds after every run** in which no counter reached the end of its range. -/
theorem Exchange.Started.run_locked (hI : Ideal peers.provider)
    (hm : Matching peers.provider a b) (hf : peers.Fresh b.ourRatchetKey.privateKey)
    (hd : d.Started peers a b) (acts : List (Act B))
    (hcount : ∀ x, ∀ e ∈ (d.run peers acts).sent x, e.1.counter.toNat + 1 < 2 ^ 32) :
    ∃ session ks, (d.run peers acts).Locked peers a b session ks := by
  obtain ⟨session, ks, h, -⟩ := hd.locked hm hf
  obtain ⟨session', ks', h', -⟩ := h.run hI hf acts hcount
  exact ⟨session', ks', h'⟩

omit [DecidableEq Addr] [DecidableEq B] in
/-- The stored receiver chains are those of the session. -/
theorem receiverChainKey_holds {P : Provider Priv Pub B} {address : Addr}
    {s : Session Priv Pub B} {rest : List (Session Priv Pub B)} {w : World Addr Priv Pub B}
    (h : w.Holds P address (s :: rest)) (key : Pub) :
    w.receiverChainKey P address key =
      (s.chainFor key).map fun c => P.chainKeyAt c.start c.window.next := by
  rw [World.receiverChainKey, load_holds h]
  exact getReceiverChainKey_toState s key

/-- **Double-ratchet agreement under any delivery order.**  After every run of encryptions and
deliveries, a delivery that succeeds returns the plaintext that was encrypted into the
message, and a message that was not accepted before is accepted whenever it is deliverable. -/
theorem delivery_agreement (hI : Ideal peers.provider) (hm : Matching peers.provider a b)
    (hf : peers.Fresh b.ourRatchetKey.privateKey) (hd : d.Started peers a b)
    (acts : List (Act B))
    (hcount : ∀ x, ∀ e ∈ (d.run peers acts).sent x, e.1.counter.toNat + 1 < 2 ^ 32)
    (y : Party) {e : SignalMessage Pub B × B} (he : e ∈ (d.run peers acts).sent y.other) :
    (∀ q, (sessionCipherDecryptSignalMessage (peers.context y) (peers.cipher y) e.1
        ((d.run peers acts).world y)).1 = .ok q → q = e.2) ∧
      (e.1 ∉ (d.run peers acts).accepted y →
        (d.run peers acts).Deliverable peers (initialKeys a) y e.1 →
        (sessionCipherDecryptSignalMessage (peers.context y) (peers.cipher y) e.1
          ((d.run peers acts).world y)).1 = .ok e.2) := by
  obtain ⟨session, ks, h⟩ := hd.run_locked hI hm hf acts hcount
  have hpassive : (peers.cipher y).Passive := SessionCipher.passive_create _
  have hlen : [session y].length ≤ archivedStatesMaxLength + 1 := Nat.succ_le_succ (Nat.zero_le _)
  refine ⟨fun q hq => ?_, fun hnew hdel => ?_⟩
  · obtain ⟨s', j, n, ha, -⟩ := decrypt_ok (h.holds y) (h.inRange_stored y) hlen hpassive
      (Prod.ext hq rfl)
    obtain ⟨s, k, hs, -, hrec⟩ := Session.receiveAny_ok ha
    obtain rfl : session y = s := List.mem_singleton.1 (List.mem_of_getElem? hs) |>.symm
    exact (h.synced.receive_cases hI he hrec).1
  · -- the session accepts, so the cipher does
    suffices hrec : ∃ s' n', (session y).receive peers.provider (peers.rng y) e.1
        ((d.run peers acts).world y).drawn = (.ok (e.2, s'), n') by
      obtain ⟨s', n', hrec⟩ := hrec
      rw [decrypt_cons (h.holds y) (h.inRange_stored y) (Nat.zero_le _) hpassive,
        show Session.receiveAny (peers.context y).provider (peers.context y).rng e.1 [session y] _ =
          _ from Session.receiveAny_of_ok hrec []]
      dsimp only
      rw [sessionCipherDecryptCallback_of_none rfl]
      rfl
    have hstored : ((d.run peers acts).world y).Holds peers.provider (peers.address y)
        [session y] := h.holds y
    rw [Exchange.Deliverable, receiverChainKey_holds hstored] at hdel
    rcases Option.eq_none_or_eq_some ((session y).chainFor e.1.senderRatchetKey) with hc | ⟨c, hc⟩
    · rw [hc] at hdel
      obtain ⟨hinit, hacc, hreach⟩ := hdel
      obtain ⟨ours, hk⟩ := hf.total y ((d.run peers acts).world y).drawn
      obtain ⟨s', hrec⟩ := h.synced.receive_of_unseen hI he hc hinit hacc hreach hk
      exact ⟨s', _, hrec⟩
    · rw [hc] at hdel
      obtain ⟨hreach, hev⟩ := hdel
      have hindex : (UInt32.ofNat c.window.next).toNat = c.window.next :=
        toNat_ofNat32 ((h.inRange y).receivers c (Session.chainFor_mem hc).1)
      rw [Provider.chainKeyAt_index, hindex] at hreach
      obtain ⟨s', hrec⟩ := h.synced.receive_of_fits hI he hnew hc hreach hev
      exact ⟨s', _, hrec⟩

end Agreement

/-- Two parties over the ideal provider, drawing even and odd keys. -/
def samplePeers : Peers Nat Nat Nat Term where
  provider := symbolic
  rng
    | .alice => symbolicRng 100 2
    | .bob => symbolicRng 101 2
  trusted _ _ _ _ := true
  address
    | .alice => 1
    | .bob => 0

/-- Alice's half of the sample parameters. -/
def sampleAlice : AliceParameters Nat Nat where
  ourIdentityKey := symbolic.pair 1
  ourBaseKey := symbolic.pair 2
  theirIdentityKey := 11
  theirSignedPreKey := 12
  theirOneTimePreKey := some 13
  theirRatchetKey := 12

/-- Bob's half of the sample parameters. -/
def sampleBob : BobParameters Nat Nat where
  ourIdentityKey := symbolic.pair 11
  ourSignedPreKey := symbolic.pair 12
  ourOneTimePreKey := some (symbolic.pair 13)
  ourRatchetKey := symbolic.pair 12
  theirIdentityKey := 1
  theirBaseKey := 2

/-- A store that holds one session. -/
def sampleWorld (s : Session Nat Nat Term) (identity drawn : Nat) : World Nat Nat Nat Term where
  sessions _ := storedAs symbolic [s]
  preKeys _ := none
  signedPreKeys _ := none
  identityKeyPair := symbolic.pair identity
  localRegistrationId := 0
  identities _ := none
  drawn := drawn

/-- The start of the two sample parties. -/
def sampleStart : Exchange Nat Nat Nat Term where
  world
    | .alice => sampleWorld (Session.alice symbolic sampleAlice 100) 1 1
    | .bob => sampleWorld (Session.bob symbolic sampleBob) 11 0
  sent _ := []
  accepted _ := []

theorem sample_matching : Matching symbolic sampleAlice sampleBob := by
  refine ⟨rfl, rfl, rfl, rfl, ?_, rfl, rfl, rfl, rfl, rfl, rfl, rfl⟩
  rintro k ⟨⟩
  rfl

theorem sample_fresh : samplePeers.Fresh 12 where
  total x n := by
    cases x <;> exact ⟨_, rfl⟩
  inj := by
    intro x y m n k hm hn
    cases x <;> cases y <;> have := Except.ok.inj (hm.trans hn.symm) <;> simp <;> omega
  ne x n h := by
    cases x <;> have := Except.ok.inj h <;> omega

theorem sample_started : sampleStart.Started samplePeers sampleAlice sampleBob :=
  ⟨⟨0, _, rfl, rfl⟩, rfl, fun _ => rfl, fun _ => rfl⟩

/-- Alice sends twice, her second message arrives first, Bob answers, and Alice answers on her
next chain; then the very first message arrives. -/
def sampleActs : List (Act Term) :=
  [.encrypt .alice (.text 0), .encrypt .alice (.text 1), .deliver .bob 1,
    .encrypt .bob (.text 2), .deliver .alice 0, .encrypt .alice (.text 3), .deliver .bob 2]

theorem sampleActs_sent : (sampleStart.run samplePeers sampleActs).sent .alice ≠ [] := by
  decide +kernel

/-- What Alice produced first, with its plaintext. -/
def sampleLate : SignalMessage Nat Term × Term :=
  ((sampleStart.run samplePeers sampleActs).sent .alice).head sampleActs_sent

theorem sampleLate_sent :
    sampleLate ∈ (sampleStart.run samplePeers sampleActs).sent Party.bob.other := by
  decide +kernel

/-- The first message is accepted last, with its own plaintext. -/
theorem delivery_agreement_late_message :
    (sessionCipherDecryptSignalMessage (samplePeers.context .bob) (samplePeers.cipher .bob)
      sampleLate.1 ((sampleStart.run samplePeers sampleActs).world .bob)).1 = .ok (.text 0) := by
  have hplain : sampleLate.2 = .text 0 := by decide +kernel
  rw [← hplain]
  refine (delivery_agreement symbolic_ideal sample_matching sample_fresh sample_started sampleActs
    ?_ .bob sampleLate_sent).2 (by decide +kernel) ?_
  · intro x
    cases x <;> decide +kernel
  · have hchain : ((sampleStart.run samplePeers sampleActs).world .bob).receiverChainKey symbolic 0
        sampleLate.1.senderRatchetKey = some (symbolic.chainKeyAt
          (symbolic.ladderStart (sampleAlice.secret symbolic) [100, 12]) 2) := by decide +kernel
    rw [Exchange.Deliverable, show samplePeers.provider = symbolic from rfl,
      show samplePeers.address .bob = 0 from rfl, hchain]
    exact ⟨by decide +kernel, by decide +kernel⟩

end SignalProtocol
