/-
# Two parties with any number of sessions

Two parties set up sessions with each other through pre-key bundles, as often as they like and at
the same time, and exchange messages over a network that reorders, loses and duplicates them.
Each party has one record for the other, with a current session and up to 40 archived ones.

A session is known by its secret, and the secret tells the base key of the party that started it
(`Rooted.unique`).  The key pairs that a party draws are never drawn again, so each ratchet key
belongs to one session.  `Network.Sound` keeps the account, with a tag for every draw: the secret
of the session that it was made for.  From it follows what the search over a record needs: a
session that a message does not belong to has no chain for the message's ratchet key
(`Tracks.refuses`).
-/
import SignalProtocol.Agreement
import SignalProtocol.Lineage

namespace SignalProtocol

variable {Addr Priv Pub B : Type}

/-! ## 1. The network -/

/-- The stores of both parties, and what each has encrypted, with the base key of the session in
which it did. -/
structure Network (Addr Priv Pub B : Type) where
  world : Party → World Addr Priv Pub B
  sent : Party → List (CiphertextMessage Pub B × Option Pub)

/-- What can happen: a party processes a bundle, encrypts, is handed a message at some position
of what its peer has sent, or writes to its pre key and identity stores. -/
inductive NetworkAct (Addr Priv Pub B : Type) where
  | process (x : Party) (bundle : PreKeyBundle Pub B)
  | encrypt (x : Party) (plaintext : B)
  | deliver (y : Party) (i : Nat)
  | configure (x : Party) (preKeys signedPreKeys : UInt32 → Option (EcKeyPair Priv Pub))
      (identities : Addr → Option Pub)

/-- The base key of the current session for an address. -/
def World.currentBaseKey (P : Provider Priv Pub B) (address : Addr) (w : World Addr Priv Pub B) :
    Option Pub :=
  match w.record P address with
  | .ok record => record.state.aliceBaseKey
  | .error _ => none

/-- The call that decrypts a message. -/
def CiphertextMessage.command : CiphertextMessage Pub B → Command Pub B
  | .signal m => .decryptSignal m
  | .preKey m => .decryptPreKey m

section Step

variable [DecidableEq Addr] [LinearOrder Pub] [DecidableEq B]

/-- A party makes a call. -/
def Peers.call (peers : Peers Addr Priv Pub B) (x : Party) (c : Command Pub B) :
    Op SgError (World Addr Priv Pub B) (Reply Pub B) :=
  c.run (peers.context x) (peers.cipher x)

/-- The network with another store for one party. -/
def Network.put (d : Network Addr Priv Pub B) (x : Party) (w : World Addr Priv Pub B) :
    Network Addr Priv Pub B :=
  { d with world := Function.update d.world x w }

/-- **One act.** -/
def Network.step (peers : Peers Addr Priv Pub B) (d : Network Addr Priv Pub B) :
    NetworkAct Addr Priv Pub B → Network Addr Priv Pub B
  | .process x bundle => d.put x (peers.call x (.processPreKeyBundle bundle) (d.world x)).2
  | .encrypt x plaintext =>
    match peers.call x (.encrypt plaintext) (d.world x) with
    | (.ok (.ciphertext c), w) =>
      { d.put x w with
        sent := Function.update d.sent x (d.sent x ++
          [(c, (d.world x).currentBaseKey peers.provider (peers.address x))]) }
    | (_, w) => d.put x w
  | .deliver y i =>
    match (d.sent y.other)[i]? with
    | none => d
    | some e => d.put y (peers.call y e.1.command (d.world y)).2
  | .configure x preKeys signedPreKeys identities =>
    d.put x { d.world x with
      preKeys := preKeys, signedPreKeys := signedPreKeys, identities := identities }

/-- A run is any sequence of acts. -/
def Network.run (peers : Peers Addr Priv Pub B) (d : Network Addr Priv Pub B)
    (acts : List (NetworkAct Addr Priv Pub B)) : Network Addr Priv Pub B :=
  acts.foldl (Network.step peers) d

end Step

namespace Peers

/-- **Generated key pairs are fresh**: generation succeeds, and no two draws of either party are
equal. -/
structure Generating (peers : Peers Addr Priv Pub B) : Prop where
  total : ∀ x n, ∃ k, (peers.rng x).privateKey n = .ok k
  inj : ∀ {x y m n k}, (peers.rng x).privateKey m = .ok k →
    (peers.rng y).privateKey n = .ok k → x = y ∧ m = n

/-- **A key that was generated for something else** (an identity key, a pre key): neither party
draws it for a session. -/
def LongTerm (peers : Peers Addr Priv Pub B) (key : Pub) : Prop :=
  ∀ x n k, (peers.rng x).privateKey n = .ok k → peers.provider.publicKey k ≠ key

end Peers

/-- The keys of a bundle are identity and pre keys. -/
def NetworkAct.Fresh (peers : Peers Addr Priv Pub B) : NetworkAct Addr Priv Pub B → Prop
  | .process _ bundle => ∀ key ∈ bundle.keys, peers.LongTerm key
  | _ => True

/-- **The start**: no sessions and no messages. -/
structure Network.Started (peers : Peers Addr Priv Pub B) (d : Network Addr Priv Pub B) : Prop where
  sessions : ∀ x, (d.world x).sessions (peers.address x) = none
  sent : ∀ x, d.sent x = []
  identity : ∀ x, peers.LongTerm (peers.provider.publicKey (d.world x).identityKeyPair.privateKey)

/-! ## 2. Secrets and base keys -/

section Rooted

variable (peers : Peers Addr Priv Pub B) (ident : Party → Priv) (n : Party → Nat)

/-- A party has drawn the key at position `j`. -/
structure Drew (x : Party) (j : Nat) (k : Priv) : Prop where
  lt : j < n x
  eq : (peers.rng x).privateKey j = .ok k

/-- The party has started the session of a secret, with this base key: the third part of the
secret is the agreement of the base key with a long-term key. -/
def Initiates (x : Party) (secret : List B) (base : Pub) : Prop :=
  ∃ j k their, Drew peers n x j k ∧ peers.LongTerm their ∧
    secret[2]? = some (peers.provider.agreement their k) ∧ base = peers.provider.publicKey k

/-- **Who started the session of a secret**: the party itself, or its peer, whose base key then
meets the party's identity. -/
inductive Rooted (x : Party) (secret : List B) : Pub → Prop
  | initiated {base : Pub} (h : Initiates peers n x secret base) : Rooted x secret base
  | responded {j : Nat} {k : Priv} (hdraw : Drew peers n x.other j k)
      (hs : secret[2]? = some (peers.provider.agreement (peers.provider.publicKey k) (ident x))) :
      Rooted x secret (peers.provider.publicKey k)

variable {peers ident n} {x y : Party} {secret : List B} {base base' : Pub}

theorem Drew.ne_longTerm {j : Nat} {k : Priv} (h : Drew peers n x j k) {key : Pub}
    (hkey : peers.LongTerm key) : key ≠ peers.provider.publicKey k :=
  (hkey x j k h.eq).symm

/-- **The secret tells the base key**, whichever party looks at it. -/
theorem Rooted.unique (hI : Ideal peers.provider)
    (hid : ∀ x, peers.LongTerm (peers.provider.publicKey (ident x)))
    (h : Rooted peers ident n x secret base) (h' : Rooted peers ident n y secret base') :
    base = base' := by
  -- an agreement is an unordered pair, and a drawn key is no long-term key
  have hpair : ∀ {A A' : Pub} {k k' : Priv}, secret[2]? = some (peers.provider.agreement A k) →
      secret[2]? = some (peers.provider.agreement A' k') →
      (A = A' ∧ peers.provider.publicKey k = peers.provider.publicKey k') ∨
        (A = peers.provider.publicKey k' ∧ peers.provider.publicKey k = A') := fun hA hA' =>
    Sym2.eq_iff.1 (hI.agreement_inj (Option.some.inj (hA.symm.trans hA')))
  cases h with
  | initiated h =>
    obtain ⟨j, k, their, hk, hlong, hs, rfl⟩ := h
    cases h' with
    | initiated h' =>
      obtain ⟨j', k', their', hk', hlong', hs', rfl⟩ := h'
      rcases hpair hs hs' with ⟨-, he⟩ | ⟨he, -⟩
      · exact he
      · exact absurd he (hk'.ne_longTerm hlong)
    | responded hk' hs' =>
      rcases hpair hs hs' with ⟨he, -⟩ | ⟨-, he⟩
      · exact absurd he (hk'.ne_longTerm hlong)
      · exact he
  | responded hk hs =>
    cases h' with
    | initiated h' =>
      obtain ⟨j', k', their', hk', hlong', hs', rfl⟩ := h'
      rcases hpair hs hs' with ⟨he, -⟩ | ⟨he, -⟩
      · exact absurd he.symm (hk.ne_longTerm hlong')
      · exact he
    | responded hk' hs' =>
      rcases hpair hs hs' with ⟨he, -⟩ | ⟨he, -⟩
      · exact he
      · exact absurd he.symm (hk.ne_longTerm (hid y))

/-- A key that is drawn now is not the base key of a session that exists. -/
theorem Rooted.ne_of_le (hI : Ideal peers.provider) (hg : peers.Generating)
    (h : Rooted peers ident n x secret base) {j : Nat} {k : Priv}
    (hk : (peers.rng y).privateKey j = .ok k) (hj : n y ≤ j) :
    base ≠ peers.provider.publicKey k := by
  have hne : ∀ {z : Party} {j' : Nat} {k' : Priv}, Drew peers n z j' k' →
      peers.provider.publicKey k' ≠ peers.provider.publicKey k := fun hd he => by
    rw [hI.publicKey_inj he] at hd
    obtain ⟨rfl, rfl⟩ := hg.inj hd.eq hk
    exact absurd hd.lt (Nat.not_lt.2 hj)
  cases h with
  | initiated h =>
    obtain ⟨j', k', their, hd, -, -, rfl⟩ := h
    exact hne hd
  | responded hd hs => exact hne hd

end Rooted

/-! ## 3. Messages and their secrets -/

section MadeWith

variable [DecidableEq B]

/-- The message was authenticated on a chain that descends from the secret. -/
def SignalMessage.MadeWith (P : Provider Priv Pub B) (secret : List B) (m : SignalMessage Pub B) :
    Prop :=
  ∃ e start sender receiver, StartAt P secret e start ∧
    m.verifyMac P sender receiver (P.messageKeysAt start m.counter.toNat).macKey = true

variable [DecidableEq Pub] {P : Provider Priv Pub B} {rng : Rng Priv B} {s : Session Priv Pub B}
  {m : SignalMessage Pub B} {secret secret' : List B} {d : Nat}

/-- **A message verifies only on a chain with its secret.** -/
theorem SignalMessage.MadeWith.secret_eq (hI : Ideal P) (hm : m.MadeWith P secret)
    (hs : s.Grown P secret' d) {a b : Pub}
    (hv : m.verifyMac P a b (P.messageKeysAt (s.startFor P m.senderRatchetKey)
      m.counter.toNat).macKey = true) : secret' = secret := by
  obtain ⟨e, start, sender, receiver, hstart, hmac⟩ := hm
  obtain ⟨e', hstart', -⟩ := hs.startFor m.senderRatchetKey
  have heq : s.startFor P m.senderRatchetKey = start :=
    hI.macKey_inj (SignalMessage.verifyMac_unique hI hv hmac)
  rw [heq] at hstart'
  exact (startAt_unique hI hstart' hstart).1

/-- **A session without a chain for the ratchet key refuses a message of another secret** with
`SG_ERR_INVALID_MESSAGE`. -/
theorem SignalMessage.MadeWith.refuses (hI : Ideal P) (hm : m.MadeWith P secret)
    (hs : s.Grown P secret' d) (hne : secret' ≠ secret)
    (hchain : s.chainFor m.senderRatchetKey = none) (hrng : ∀ n, ∃ k, rng.privateKey n = .ok k)
    (n : Nat) : ∃ n', s.receive P rng m n = (.error .invalidMessage, n') := by
  by_cases hv : m.messageVersion = 3
  swap
  · exact ⟨n, by rw [Session.receive, Op.require_of_not hv]; rfl⟩
  obtain ⟨ours, hours⟩ := hrng n
  have hopen : s.openChain P rng m.senderRatchetKey n =
      (.ok (s.newChain P m.senderRatchetKey, s.ratchet P m.senderRatchetKey hchain ours), n + 1) :=
    openChain_ok_iff.2 (Or.inr ⟨hchain, ours, hours, rfl, rfl, rfl⟩)
  refine ⟨n + 1, ?_⟩
  rw [Session.receive, Op.require_of hv, Op.pure_bind_apply, Op.bind_of_ok hopen]
  dsimp only
  have hwindow : (s.newChain P m.senderRatchetKey).window = Window.empty := rfl
  have hzero : (Window.empty : Window maxMessageKeys).next = 0 := rfl
  rw [hwindow]
  rcases Nat.lt_or_ge Session.reach m.counter.toNat with hfar | hnear
  · have htooFar : (Window.empty : Window maxMessageKeys).request Session.reach
        m.counter.toNat = .error .tooFar :=
      Window.request_of_tooFar (by omega)
    rw [htooFar]
    rfl
  · have hmac : ¬ m.verifyMac P s.remoteIdentity s.localIdentity (P.messageKeysAt
        (s.newChain P m.senderRatchetKey).start m.counter.toNat).macKey = true := fun hv => by
      refine hne (hm.secret_eq hI hs (a := s.remoteIdentity) (b := s.localIdentity) ?_)
      rwa [Session.startFor, hchain]
    rw [Window.request_of_ahead (Nat.zero_le _) (by omega),
      Except.mapError, Op.ofExcept_ok, Op.pure_bind_apply, Op.require_of_not hmac]
    rfl

end MadeWith

/-! ## 4. The account of the draws -/

section Account

variable (peers : Peers Addr Priv Pub B) (ident : Party → Priv) (n : Party → Nat)
  (tag : Party → Nat → List B)

/-- **A session of a party descends from a secret**: its root key and its base key do, and each of
its chains is for a ratchet key that the peer drew for the same secret, or for a pre key. -/
structure Tracks (x : Party) (secret : List B) (s : Session Priv Pub B) : Prop where
  grown : ∃ d, s.Grown peers.provider secret d
  rooted : ∃ base, s.aliceBaseKey = some base ∧ Rooted peers ident n x secret base
  chains : ∀ c ∈ s.receivers, peers.LongTerm c.ratchetKey ∨ ∃ j k, Drew peers n x.other j k ∧
    c.ratchetKey = peers.provider.publicKey k ∧ tag x.other j = secret
  pending : ∀ q ∈ s.pendingPreKey, ∀ base ∈ q.baseKey, Initiates peers n x secret base

/-- A session sends with a ratchet key that was drawn for its secret. -/
structure Sends (x : Party) (secret : List B) (s : Session Priv Pub B) : Prop where
  key : ∃ j k, Drew peers n x j k ∧ s.sender.pair = peers.provider.pair k ∧ tag x j = secret
  start : ∃ e, StartAt peers.provider secret e s.sender.start

/-- **What a party has sent**: made with the secret for which its ratchet key was drawn, in the
session with the base key of that secret.  A pre-key message names a base key of the sender. -/
structure SentWith [DecidableEq B] (x : Party) (secret : List B)
    (e : CiphertextMessage Pub B × Option Pub) : Prop where
  key : ∃ j k, Drew peers n x j k ∧
    e.1.inner.senderRatchetKey = peers.provider.publicKey k ∧ tag x j = secret
  made : e.1.inner.MadeWith peers.provider secret
  rooted : ∃ base, e.2 = some base ∧ Rooted peers ident n x secret base
  preKey : ∀ m, e.1 = .preKey m → m.version = 3 ∧ Initiates peers n x secret m.baseKey

variable {peers ident n tag} {n' : Party → Nat} {tag' : Party → Nat → List B} {x : Party}
  {secret : List B} {s : Session Priv Pub B}

/-- The account goes on: more is drawn, and the tags of what was drawn stay. -/
structure Continues (n n' : Party → Nat) (tag tag' : Party → Nat → List B) : Prop where
  le : ∀ x, n x ≤ n' x
  tags : ∀ x j, j < n x → tag' x j = tag x j

theorem Drew.mono (h : ∀ x, n x ≤ n' x) {j : Nat} {k : Priv} (hd : Drew peers n x j k) :
    Drew peers n' x j k :=
  ⟨hd.lt.trans_le (h x), hd.eq⟩

theorem Initiates.mono (h : ∀ x, n x ≤ n' x) {base : Pub} (hi : Initiates peers n x secret base) :
    Initiates peers n' x secret base := by
  obtain ⟨j, k, their, hd, hrest⟩ := hi
  exact ⟨j, k, their, hd.mono h, hrest⟩

theorem Rooted.mono (h : ∀ x, n x ≤ n' x) {base : Pub}
    (hr : Rooted peers ident n x secret base) : Rooted peers ident n' x secret base := by
  cases hr with
  | initiated hi => exact .initiated (hi.mono h)
  | responded hd hs => exact .responded (hd.mono h) hs

theorem Tracks.mono (h : Continues n n' tag tag') (ht : Tracks peers ident n tag x secret s) :
    Tracks peers ident n' tag' x secret s := by
  refine ⟨ht.grown, ?_, fun c hc => ?_, fun q hq base hb => (ht.pending q hq base hb).mono h.le⟩
  · obtain ⟨base, hbase, hr⟩ := ht.rooted
    exact ⟨base, hbase, hr.mono h.le⟩
  · rcases ht.chains c hc with hlong | ⟨j, k, hd, hkey, htag⟩
    · exact Or.inl hlong
    · exact Or.inr ⟨j, k, hd.mono h.le, hkey, (h.tags _ j hd.lt).trans htag⟩

theorem Sends.mono (h : Continues n n' tag tag') (hs : Sends peers n tag x secret s) :
    Sends peers n' tag' x secret s := by
  obtain ⟨⟨j, k, hd, hpair, htag⟩, hstart⟩ := hs
  exact ⟨⟨j, k, hd.mono h.le, hpair, (h.tags x j hd.lt).trans htag⟩, hstart⟩

theorem SentWith.mono [DecidableEq B] (h : Continues n n' tag tag')
    {e : CiphertextMessage Pub B × Option Pub} (he : SentWith peers ident n tag x secret e) :
    SentWith peers ident n' tag' x secret e := by
  obtain ⟨⟨j, k, hd, hkey, htag⟩, hmade, ⟨base, hbase, hr⟩, hpre⟩ := he
  refine ⟨⟨j, k, hd.mono h.le, hkey, (h.tags x j hd.lt).trans htag⟩, hmade,
    ⟨base, hbase, hr.mono h.le⟩, fun m hm => ?_⟩
  obtain ⟨hversion, hi⟩ := hpre m hm
  exact ⟨hversion, hi.mono h.le⟩

/-- **A ratchet key belongs to one secret**: a session with a chain for the ratchet key of a
message has the secret of the message. -/
theorem SentWith.secret_of_chain [DecidableEq B] (hg : peers.Generating) {secret' : List B}
    (hI : Ideal peers.provider) {e : CiphertextMessage Pub B × Option Pub}
    (he : SentWith peers ident n tag x.other secret e) (ht : Tracks peers ident n tag x secret' s)
    {c : ReceivingChain Pub B} (hc : c ∈ s.receivers)
    (hkey : c.ratchetKey = e.1.inner.senderRatchetKey) : secret' = secret := by
  obtain ⟨j, k, hd, hk, htag⟩ := he.key
  rcases ht.chains c hc with hlong | ⟨j', k', hd', hk', htag'⟩
  · exact absurd (hkey.trans hk) (hd.ne_longTerm hlong)
  · have hkk : k' = k := hI.publicKey_inj (hk'.symm.trans (hkey.trans hk))
    subst hkk
    obtain ⟨-, rfl⟩ := hg.inj hd.eq hd'.eq
    exact htag'.symm.trans htag

/-- The tags after a draw for a secret. -/
def retag (tag : Party → Nat → List B) (y : Party) (k : Nat) (secret : List B) :
    Party → Nat → List B :=
  fun x j => if x = y ∧ j = k then secret else tag x j

@[simp] theorem retag_self (tag : Party → Nat → List B) (y : Party) (k : Nat) (secret : List B) :
    retag tag y k secret y k = secret := if_pos ⟨rfl, rfl⟩

theorem continues_retag {y : Party} {k : Nat} (hle : ∀ x, n x ≤ n' x) (hk : n y ≤ k) :
    Continues n n' tag (retag tag y k secret) := by
  refine ⟨hle, fun x j hj => if_neg ?_⟩
  rintro ⟨rfl, rfl⟩
  omega

theorem continues_refl (hle : ∀ x, n x ≤ n' x) : Continues n n' tag tag := ⟨hle, fun _ _ _ => rfl⟩

section Receive

variable [DecidableEq Pub] [DecidableEq B] {y : Party} {secret' : List B}
  {e : CiphertextMessage Pub B × Option Pub} {s' : Session Priv Pub B} {p : B} {k k' : Nat}

/-- An accepted message has the secret of the session. -/
theorem Tracks.secret_eq (hI : Ideal peers.provider)
    (he : SentWith peers ident n tag y.other secret' e) (ht : Tracks peers ident n tag y secret s)
    (hr : s.receive peers.provider (peers.rng y) e.1.inner k = (.ok (p, s'), k')) :
    secret = secret' := by
  obtain ⟨d, hgrown⟩ := ht.grown
  exact he.made.secret_eq hI hgrown (Session.verifyMac_of_receive hr)

/-- **Receiving keeps the account.**  The session stays with its secret; a new chain is for the
ratchet key of the message, and a new ratchet key is drawn for the same secret. -/
theorem Tracks.receive (hI : Ideal peers.provider)
    (he : SentWith peers ident n tag y.other secret e) (ht : Tracks peers ident n tag y secret s)
    (hsends : s.receivers ≠ [] → Sends peers n tag y secret s)
    (hr : s.receive peers.provider (peers.rng y) e.1.inner k = (.ok (p, s'), k')) (hk : n y ≤ k)
    (hle : ∀ x, n x ≤ n' x) (hk' : k' ≤ n' y) :
    ∃ tag', Continues n n' tag tag' ∧ Tracks peers ident n' tag' y secret s' ∧
      Sends peers n' tag' y secret s' := by
  obtain ⟨d, hgrown⟩ := ht.grown
  obtain ⟨d', -, hgrown'⟩ := hgrown.receive hI hr
  obtain ⟨-, -, hbase, -, hpending⟩ := Session.receive_frame hr
  obtain ⟨j, kj, hdrew, hkey, htag⟩ := he.key
  -- whatever the tags are in the end, only the chains depend on them
  have htracks : ∀ tag', Continues n n' tag tag' →
      (∀ c ∈ s'.receivers, (∃ c₀ ∈ s.receivers, c₀.ratchetKey = c.ratchetKey) ∨
        c.ratchetKey = e.1.inner.senderRatchetKey) → Tracks peers ident n' tag' y secret s' := by
    intro tag' hcont hchains
    refine ⟨⟨d', hgrown'⟩, ?_, fun c hc => ?_, fun q hq => ?_⟩
    · rw [hbase]
      exact (ht.mono hcont).rooted
    · rcases hchains c hc with ⟨c₀, hc₀, heq⟩ | heq
      · rw [← heq]
        exact (ht.mono hcont).chains c₀ hc₀
      · exact Or.inr ⟨j, kj, hdrew.mono hle, heq.trans hkey, (hcont.tags _ j hdrew.lt).trans htag⟩
    · rw [hpending] at hq
      exact absurd hq (Option.not_mem_none q)
  obtain ⟨-, c, s₁, w, hopen, -, -, -, rfl⟩ := Session.receive_ok_iff.1 hr
  rcases openChain_ok_iff.1 hopen with ⟨hc, rfl, -⟩ | ⟨hnone, ours, hours, rfl, rfl, rfl⟩
  · -- the message fits a chain, and the sending chain stays
    have hne : s₁.receivers ≠ [] := List.ne_nil_of_mem (Session.chainFor_mem hc).1
    refine ⟨tag, continues_refl hle, htracks tag (continues_refl hle) fun c' hc' => Or.inl ?_,
      ?_, ?_⟩
    · rcases Session.mem_setWindow hc' with ⟨hmem, -⟩ | ⟨c₀, hmem, hkey₀, rfl⟩
      · exact ⟨c', hmem, rfl⟩
      · exact ⟨c₀, hmem, rfl⟩
    · exact ((hsends hne).mono (continues_refl hle)).key
    · exact (hsends hne).start
  · -- the message opens a chain, and a ratchet key is drawn
    have hcont : Continues n n' tag (retag tag y k secret) := continues_retag hle hk
    refine ⟨retag tag y k secret, hcont, htracks _ hcont fun c' hc' => ?_,
      ⟨k, ours, ⟨hk', hours⟩, rfl, retag_self ..⟩, d + 2, ?_⟩
    · obtain ⟨c₀, hmem, heq⟩ : ∃ c₀ ∈ (s.ratchet peers.provider e.1.inner.senderRatchetKey hnone
          ours).receivers, c₀.ratchetKey = c'.ratchetKey := by
        rcases Session.mem_setWindow hc' with ⟨hmem, -⟩ | ⟨c₀, hmem, hkey₀, rfl⟩
        · exact ⟨c', hmem, rfl⟩
        · exact ⟨c₀, hmem, rfl⟩
      rcases List.mem_append.1 (Window.mem_of_mem_rtake hmem) with hold | hnew
      · exact Or.inl ⟨c₀, hold, heq⟩
      · rw [List.mem_singleton.1 hnew] at heq
        exact Or.inr heq.symm
    · exact ⟨_, _, ⟨_, _, hgrown.root, rfl⟩, rfl⟩

/-- After a message was accepted the session has a chain. -/
theorem receivers_ne_nil_of_receive {P : Provider Priv Pub B} {rng : Rng Priv B}
    {m : SignalMessage Pub B} (hr : s.receive P rng m k = (.ok (p, s'), k')) :
    s'.receivers ≠ [] := by
  obtain ⟨-, c, s₁, w, hopen, -, -, -, rfl⟩ := Session.receive_ok_iff.1 hr
  have hmem : c ∈ s₁.receivers := by
    rcases openChain_ok_iff.1 hopen with ⟨hc, rfl, -⟩ | ⟨hnone, ours, -, rfl, rfl, -⟩
    · exact (Session.chainFor_mem hc).1
    · exact (Session.chainFor_mem (chainFor_ratchet s hnone ours)).1
  exact List.ne_nil_of_mem (List.mem_map_of_mem hmem)

end Receive

/-- **Sending keeps the account**: the message is made with the secret of the session. -/
theorem Tracks.send [DecidableEq B] {p : B} {c : CiphertextMessage Pub B} {s' : Session Priv Pub B}
    (ht : Tracks peers ident n tag x secret s) (hsends : Sends peers n tag x secret s)
    (hrange : s.sender.next < 2 ^ 32) (hs : s.send peers.provider p = .ok (c, s')) :
    Tracks peers ident n tag x secret s' ∧ Sends peers n tag x secret s' ∧
      SentWith peers ident n tag x secret (c, s.aliceBaseKey) := by
  obtain ⟨ciphertext, -, hwrap, rfl⟩ := Session.send_ok_iff.1 hs
  have hinner : c.inner = s.message peers.provider ciphertext := Session.wrap_inner hwrap
  obtain ⟨j, k, hd, hpair, htag⟩ := hsends.key
  obtain ⟨depth, hstart⟩ := hsends.start
  obtain ⟨dg, hgrown⟩ := ht.grown
  refine ⟨⟨⟨dg, hgrown.root, hgrown.chains, hgrown.starts⟩, ht.rooted, ht.chains, ht.pending⟩,
    ⟨⟨j, k, hd, hpair, htag⟩, depth, hstart⟩, ⟨j, k, hd, ?_, htag⟩, ?_, ht.rooted, fun m hm => ?_⟩
  · exact (congrArg SignalMessage.senderRatchetKey hinner).trans
      (congrArg EcKeyPair.publicKey hpair)
  · refine ⟨depth, s.sender.start, s.localIdentity, s.remoteIdentity, hstart, ?_⟩
    have hcounter : (s.message peers.provider ciphertext).counter.toNat = s.sender.next :=
      toNat_ofNat32 hrange
    dsimp only
    rw [hinner, hcounter]
    exact SignalMessage.verifyMac_create ..
  · have hm' : c = .preKey m := hm
    subst hm'
    unfold Session.wrap at hwrap
    split at hwrap
    · cases hwrap
    · cases hwrap
    · rename_i hpending
      cases hwrap
      exact ⟨rfl, ht.pending _ hpending _ rfl⟩

variable (peers ident n tag) in
/-- **The sessions of a party**: each descends from a secret, sends for it once it has received
something, and has a base key of its own. -/
structure Family (x : Party) (l : List (Session Priv Pub B)) : Prop where
  members : ∀ s ∈ l, ∃ secret, Tracks peers ident n tag x secret s ∧
    (s.receivers ≠ [] → Sends peers n tag x secret s)
  apart : l.Pairwise fun s t => s.aliceBaseKey ≠ t.aliceBaseKey

namespace Family

variable {l l' : List (Session Priv Pub B)} {y : Party}

theorem nil : Family peers ident n tag x [] :=
  ⟨fun _ h => absurd h List.not_mem_nil, .nil⟩

variable (h : Family peers ident n tag x l)
include h

theorem mono (hcont : Continues n n' tag tag') : Family peers ident n' tag' x l := by
  refine ⟨fun s hs => ?_, h.apart⟩
  obtain ⟨secret, ht, hsends⟩ := h.members s hs
  exact ⟨secret, ht.mono hcont, fun hne => (hsends hne).mono hcont⟩

theorem sublist (hl : l'.Sublist l) : Family peers ident n tag x l' :=
  ⟨fun s hs => h.members s (hl.subset hs), h.apart.sublist hl⟩

theorem perm (hl : l.Perm l') : Family peers ident n tag x l' :=
  ⟨fun s hs => h.members s (hl.mem_iff.2 hs), (hl.pairwise_iff fun hst => hst.symm).1 h.apart⟩

/-- A session with a base key that no other has. -/
theorem cons (ht : Tracks peers ident n tag x secret s)
    (hsends : s.receivers ≠ [] → Sends peers n tag x secret s)
    (hnew : ∀ t ∈ l, s.aliceBaseKey ≠ t.aliceBaseKey) : Family peers ident n tag x (s :: l) := by
  refine ⟨fun t hmem => ?_, List.pairwise_cons.2 ⟨hnew, h.apart⟩⟩
  rcases List.mem_cons.1 hmem with rfl | hmem
  · exact ⟨secret, ht, hsends⟩
  · exact h.members t hmem

/-- **Sessions of one secret are one session.** -/
theorem eq_of_secret (hI : Ideal peers.provider)
    (hid : ∀ x, peers.LongTerm (peers.provider.publicKey (ident x))) {t : Session Priv Pub B}
    (hs : s ∈ l) (ht : t ∈ l) (hst : Tracks peers ident n tag x secret s)
    (htt : Tracks peers ident n tag x secret t) : s = t := by
  obtain ⟨base, hbase, hroot⟩ := hst.rooted
  obtain ⟨base', hbase', hroot'⟩ := htt.rooted
  have heq : s.aliceBaseKey = t.aliceBaseKey := by
    rw [hbase, hbase', hroot.unique hI hid hroot']
  have hsymm : Std.Symm fun s t : Session Priv Pub B => s.aliceBaseKey ≠ t.aliceBaseKey :=
    ⟨fun _ _ hab => hab.symm⟩
  by_contra hne
  exact h.apart.forall hs ht hne heq

/-- **Receiving keeps the family.** -/
theorem receive [DecidableEq Pub] [DecidableEq B] (hI : Ideal peers.provider)
    {e : CiphertextMessage Pub B × Option Pub} {s' : Session Priv Pub B} {p : B} {i k k' : Nat}
    (hi : l[i]? = some s) (he : SentWith peers ident n tag x.other secret e)
    (hr : s.receive peers.provider (peers.rng x) e.1.inner k = (.ok (p, s'), k')) (hk : n x ≤ k)
    (hle : ∀ x, n x ≤ n' x) (hk' : k' ≤ n' x) :
    ∃ tag', Continues n n' tag tag' ∧ Family peers ident n' tag' x (s' :: l.eraseIdx i) ∧
      Tracks peers ident n' tag' x secret s' := by
  obtain ⟨secret', ht, hsends⟩ := h.members s (List.mem_of_getElem? hi)
  obtain rfl := ht.secret_eq hI he hr
  obtain ⟨tag', hcont, ht', hsends'⟩ := ht.receive hI he hsends hr hk hle hk'
  have hfront := h.perm (perm_cons_eraseIdx hi)
  obtain ⟨hnew, -⟩ := List.pairwise_cons.1 hfront.apart
  refine ⟨tag', hcont, ?_, ht'⟩
  refine ((h.sublist (List.eraseIdx_sublist ..)).mono hcont).cons ht' (fun _ => hsends')
    fun t hmem => ?_
  rw [(Session.receive_frame hr).aliceBaseKey]
  exact hnew t hmem

end Family

end Account

/-! ## 5. The invariant of the network -/

/-- How far each party has come in its random source. -/
def Network.drawn (d : Network Addr Priv Pub B) (x : Party) : Nat := (d.world x).drawn

section Sound

variable [DecidableEq B]

/-- **The network keeps account**: each party stores a family of sessions, every one of which has
received something or was started by it, and everything was sent with a secret. -/
structure Network.Sound (peers : Peers Addr Priv Pub B) (ident : Party → Priv)
    (d : Network Addr Priv Pub B) (l : Party → List (Session Priv Pub B))
    (tag : Party → Nat → List B) : Prop where
  stored : ∀ x, Stored peers.provider (peers.address x) (d.world x) (l x)
  identity : ∀ x, (d.world x).identityKeyPair.privateKey = ident x
  family : ∀ x, Family peers ident d.drawn tag x (l x)
  live : ∀ x, ∀ s ∈ l x, s.receivers ≠ []
  sent : ∀ x, ∀ e ∈ d.sent x, ∃ secret, SentWith peers ident d.drawn tag x secret e

variable {peers : Peers Addr Priv Pub B} {ident : Party → Priv} {d : Network Addr Priv Pub B}
  {l : Party → List (Session Priv Pub B)} {tag tag' : Party → Nat → List B} {y : Party}
  {w' : World Addr Priv Pub B} {l' : List (Session Priv Pub B)}

theorem Network.Started.sound (h : d.Started peers) :
    d.Sound peers (fun x => (d.world x).identityKeyPair.privateKey) (fun _ => []) tag where
  stored x := ⟨h.sessions x, fun _ hs => absurd hs List.not_mem_nil, Nat.zero_le _⟩
  identity _ := rfl
  family _ := .nil
  live _ _ hs := absurd hs List.not_mem_nil
  sent x e he := by
    rw [h.sent x] at he
    exact absurd he List.not_mem_nil

omit [DecidableEq B] in
theorem Network.drawn_put (hle : (d.world y).drawn ≤ w'.drawn) (x : Party) :
    d.drawn x ≤ (d.put y w').drawn x := by
  rw [Network.drawn, Network.drawn, Network.put]
  dsimp only
  rcases eq_or_ne x y with rfl | hx
  · rwa [Function.update_self]
  · rw [Function.update_of_ne hx]

omit [DecidableEq B] in
theorem Network.drawn_put_self : (d.put y w').drawn y = w'.drawn :=
  congrArg World.drawn (Function.update_self ..)

namespace Network.Sound

variable (h : d.Sound peers ident l tag)
include h

/-- **One party has moved on**, and may have sent something. -/
theorem put (hcont : Continues d.drawn (d.put y w').drawn tag tag')
    (hstored : Stored peers.provider (peers.address y) w' l')
    (hid : w'.identityKeyPair = (d.world y).identityKeyPair)
    (hfamily : Family peers ident (d.put y w').drawn tag' y l')
    (hlive : ∀ s ∈ l', s.receivers ≠ [])
    (sent : Party → List (CiphertextMessage Pub B × Option Pub))
    (hsent : ∀ x, ∀ e ∈ sent x, e ∈ d.sent x ∨
      ∃ secret, SentWith peers ident (d.put y w').drawn tag' x secret e) :
    ({ d.put y w' with sent := sent } : Network Addr Priv Pub B).Sound peers ident
      (Function.update l y l') tag' := by
  have hworld : ({ d.put y w' with sent := sent } : Network Addr Priv Pub B).world =
    Function.update d.world y w' := rfl
  refine ⟨fun x => ?_, fun x => ?_, fun x => ?_, fun x => ?_, fun x e he => ?_⟩
  · rw [hworld]
    rcases eq_or_ne x y with rfl | hx
    · rwa [Function.update_self, Function.update_self]
    · rw [Function.update_of_ne hx, Function.update_of_ne hx]
      exact h.stored x
  · rw [hworld]
    rcases eq_or_ne x y with rfl | hx
    · rw [Function.update_self, hid]
      exact h.identity x
    · rw [Function.update_of_ne hx]
      exact h.identity x
  · rcases eq_or_ne x y with rfl | hx
    · rw [Function.update_self]
      exact hfamily
    · rw [Function.update_of_ne hx]
      exact (h.family x).mono hcont
  · rcases eq_or_ne x y with rfl | hx
    · rwa [Function.update_self]
    · rw [Function.update_of_ne hx]
      exact h.live x
  · rcases hsent x e he with hold | hnew
    · obtain ⟨secret, hs⟩ := h.sent x e hold
      exact ⟨secret, hs.mono hcont⟩
    · exact hnew

/-- A party has moved on without sending. -/
theorem put_silent (hcont : Continues d.drawn (d.put y w').drawn tag tag')
    (hstored : Stored peers.provider (peers.address y) w' l')
    (hid : w'.identityKeyPair = (d.world y).identityKeyPair)
    (hfamily : Family peers ident (d.put y w').drawn tag' y l')
    (hlive : ∀ s ∈ l', s.receivers ≠ []) :
    (d.put y w').Sound peers ident (Function.update l y l') tag' :=
  h.put hcont hstored hid hfamily hlive d.sent fun _ _ he => Or.inl he

/-- The sessions of a party are as before. -/
theorem put_same (hstored : Stored peers.provider (peers.address y) w' (l y))
    (hid : w'.identityKeyPair = (d.world y).identityKeyPair)
    (hle : (d.world y).drawn ≤ w'.drawn) : (d.put y w').Sound peers ident l tag := by
  have hcont : Continues d.drawn (d.put y w').drawn tag tag := continues_refl (drawn_put hle)
  have hput := h.put_silent hcont hstored hid ((h.family y).mono hcont) (h.live y)
  rwa [Function.update_eq_self] at hput

/-- Calls that fail change no session. -/
theorem fail [DecidableEq Addr] [LinearOrder Pub] {c : Command Pub B} {err : SgError}
    (hr : peers.call y c (d.world y) = (.error err, w')) :
    (d.put y w').Sound peers ident l tag := by
  have hbefore : Stored (peers.context y).provider (peers.cipher y).remoteAddress (d.world y)
    (l y) := h.stored y
  obtain ⟨hstored, hle, hkeys⟩ := Command.run_error hbefore (SessionCipher.passive_create _) hr
  exact h.put_same hstored hkeys.identityKeyPair hle

/-- **A call that succeeds** moves the sessions. -/
theorem call_ok [DecidableEq Addr] [LinearOrder Pub] {c : Command Pub B} {out : Reply Pub B}
    (hr : peers.call y c (d.world y) = (.ok out, w'))
    (hcount : ∀ n ∈ (c.call (peers.cipher y)).counter (.ok out), n.toNat + 1 < 2 ^ 32) :
    ∃ l', Move (peers.context y) (peers.address y) (d.world y) (l y) c out l' w'.drawn ∧
      Stored peers.provider (peers.address y) w' l' ∧ (d.world y).SameKeys w' := by
  have hbefore : Stored (peers.context y).provider (peers.cipher y).remoteAddress (d.world y)
    (l y) := h.stored y
  exact Command.run_ok hbefore (SessionCipher.passive_create _) hr hcount

/-- **Processing a bundle** starts a session of its own. -/
theorem process [DecidableEq Addr] [LinearOrder Pub] (hI : Ideal peers.provider)
    (hg : peers.Generating) {bundle : PreKeyBundle Pub B}
    (hfresh : ∀ key ∈ bundle.keys, peers.LongTerm key) :
    ∃ l tag, (d.step peers (.process y bundle)).Sound peers ident l tag := by
  rw [Network.step]
  rcases hr : peers.call y (.processPreKeyBundle bundle) (d.world y) with ⟨err | out, w'⟩
  · exact ⟨l, tag, h.fail hr⟩
  obtain ⟨l', hmove, hstored, hkeys⟩ := h.call_ok hr fun m hm => absurd hm (Option.not_mem_none m)
  generalize hn : w'.drawn = nw at hmove
  cases hmove with
  | @initiate _ identity signedPreKey base sending ha hb hs =>
    have hle : ∀ x, d.drawn x ≤ (d.put y w').drawn x := drawn_put (by omega)
    have hself : (d.put y w').drawn y = (d.world y).drawn + 2 := drawn_put_self.trans hn
    generalize hsecret : (bundleParameters (d.world y).identityKeyPair bundle identity signedPreKey
      (peers.provider.pair base)).secret peers.provider = secret
    have hcont : Continues d.drawn (d.put y w').drawn tag
        (retag tag y ((d.world y).drawn + 1) secret) := continues_retag hle (Nat.le_succ _)
    have hinit : Initiates peers (d.put y w').drawn y secret (peers.provider.publicKey base) :=
      ⟨(d.world y).drawn, base, identity, ⟨by omega, hb⟩, hfresh _ ha.mem_keys.2,
        by rw [← hsecret]; rfl, rfl⟩
    refine ⟨_, _, h.put_silent hcont hstored hkeys.identityKeyPair ?_ ?_⟩
    · refine (((h.family y).sublist (List.take_sublist ..)).mono hcont).cons
        ⟨⟨1, hsecret ▸ Kin.grown_initiated ..⟩, ⟨_, rfl, .initiated hinit⟩, fun c hc => ?_,
          fun q hq b hb => ?_⟩ (fun _ => ⟨⟨(d.world y).drawn + 1, sending, ⟨by omega, hs⟩, rfl,
            retag_self ..⟩, 1, ?_⟩) fun t ht he => ?_
      · rw [List.mem_singleton.1 hc]
        exact Or.inl (hfresh _ ha.mem_keys.1)
      · cases hq
        cases hb
        exact hinit
      · rw [← hsecret]
        exact ⟨_, _, rfl, rfl⟩
      · obtain ⟨secret', htracks, -⟩ := (h.family y).members t (List.mem_of_mem_take ht)
        obtain ⟨base', hbase', hroot⟩ := htracks.rooted
        have hsame : some (peers.provider.publicKey base) = some base' := he.trans hbase'
        exact hroot.ne_of_le hI hg hb (Nat.le_refl _) (Option.some.inj hsame).symm
    · intro s hs
      rcases List.mem_cons.1 hs with rfl | hs
      · exact List.cons_ne_nil _ _
      · exact h.live y s (List.mem_of_mem_take hs)

/-- **Encrypting** is sending with the current session. -/
theorem encrypt [DecidableEq Addr] [LinearOrder Pub] (p : B)
    (hcount : ∀ e ∈ (d.step peers (.encrypt y p)).sent y, e.1.inner.counter.toNat + 1 < 2 ^ 32) :
    ∃ l tag, (d.step peers (.encrypt y p)).Sound peers ident l tag := by
  rw [Network.step] at hcount ⊢
  rcases hr : peers.call y (.encrypt p) (d.world y) with ⟨err | out, w'⟩
  · exact ⟨l, tag, h.fail hr⟩
  obtain ⟨c, w₁, hencrypt, hout⟩ := Op.bind_ok_iff.1 hr
  cases hout
  rw [hr] at hcount
  dsimp only at hcount ⊢
  have hc : c.inner.counter.toNat + 1 < 2 ^ 32 :=
    hcount (c, _) (by rw [Function.update_self]; exact List.mem_append_right _ List.mem_cons_self)
  obtain ⟨l', hmove, hstored, hkeys⟩ := h.call_ok hr fun m hm => by cases hm; exact hc
  generalize hn : w'.drawn = nw at hmove
  cases hmove with
  | @send _ _ s s' rest hl hs =>
    have hsl : s ∈ l y := hl ▸ List.mem_cons_self
    obtain ⟨secret, ht, hsends⟩ := (h.family y).members s hsl
    have hne := h.live y s hsl
    obtain ⟨ht', hsends', hsent⟩ := ht.send (hsends hne) ((h.stored y).inRange s hsl).sender hs
    have hcont : Continues d.drawn (d.put y w').drawn tag tag :=
      continues_refl (drawn_put (Nat.le_of_eq hn.symm))
    have hbase : (d.world y).currentBaseKey peers.provider (peers.address y) = s.aliceBaseKey := by
      rw [World.currentBaseKey, record_of_holds (h.stored y).holds, hl]
      rfl
    obtain ⟨_, -, -, rfl⟩ := Session.send_ok_iff.1 hs
    have hfamily := h.family y
    rw [hl] at hfamily
    refine ⟨_, _, h.put hcont hstored hkeys.identityKeyPair ?_ ?_ _ fun x e he => ?_⟩
    · refine ((hfamily.sublist (List.sublist_cons_self ..)).mono hcont).cons (ht'.mono hcont)
        (fun _ => hsends'.mono hcont) (List.pairwise_cons.1 hfamily.apart).1
    · intro t htmem
      rcases List.mem_cons.1 htmem with rfl | htmem
      · exact hne
      · exact h.live y t (hl ▸ List.mem_cons_of_mem _ htmem)
    · rcases eq_or_ne x y with rfl | hx
      · rw [Function.update_self] at he
        rcases List.mem_append.1 he with hold | hnew
        · exact Or.inl hold
        · rw [List.mem_singleton.1 hnew, hbase]
          exact Or.inr ⟨secret, hsent.mono hcont⟩
      · rw [Function.update_of_ne hx] at he
        exact Or.inl he

variable {e : CiphertextMessage Pub B × Option Pub} {secret : List B}

/-- **The sessions on which a pre-key message is tried** are a family: a new one is set up only
for a new base key, which its sender has drawn. -/
theorem prepare [LinearOrder Pub] {m : PreKeySignalMessage Pub B} (hv : m.version = 3)
    (hm : Initiates peers d.drawn y.other secret m.baseKey) {used : Option UInt32}
    (hp : SignalProtocol.prepare peers.provider (d.world y).toStore (l y) m = .ok (l', used)) :
    Family peers ident d.drawn tag y l' := by
  rcases prepare_ok hp with ⟨-, rfl, -⟩ | ⟨hk, signedPreKey, oneTimePreKey, -, rfl⟩
  · exact h.family y
  obtain ⟨j, k, their, hd, -, -, hbase⟩ := hm
  have hroot : Rooted peers ident d.drawn y ((responseParameters (d.world y).identityKeyPair
      signedPreKey oneTimePreKey m).secret peers.provider) m.baseKey := by
    rw [hbase]
    refine .responded hd ?_
    rw [← hbase, ← h.identity y]
    rfl
  refine ((h.family y).sublist (List.take_sublist ..)).cons
    ⟨⟨0, Kin.grown_responded ..⟩, ⟨_, rfl, hroot⟩, fun c hc => absurd hc List.not_mem_nil,
      fun q hq => absurd hq (Option.not_mem_none q)⟩ (fun hne => absurd rfl hne) fun t ht he => ?_
  exact hk ⟨hv, t, List.mem_of_mem_take ht, he.symm⟩

/-- **A new session accepts the message that it was set up for**, and no other one does: one that
has the secret of the message has its base key. -/
theorem respond_zero [LinearOrder Pub] (hI : Ideal peers.provider)
    (hid : ∀ x, peers.LongTerm (peers.provider.publicKey (ident x)))
    (he : SentWith peers ident d.drawn tag y.other secret e) {m : PreKeySignalMessage Pub B}
    (hem : e.1 = .preKey m) {s₀ s s' : Session Priv Pub B} {p : B} {i k k' : Nat}
    (hk : ¬ Known (l y) m) (hi : (s₀ :: (l y).take archivedStatesMaxLength)[i]? = some s)
    (hr : s.receive peers.provider (peers.rng y) e.1.inner k = (.ok (p, s'), k')) : i = 0 := by
  by_contra hne
  obtain ⟨i, rfl⟩ := Nat.exists_eq_succ_of_ne_zero hne
  have hmem : s ∈ l y := List.mem_of_mem_take (List.mem_of_getElem? hi)
  obtain ⟨secret', ht, -⟩ := (h.family y).members s hmem
  obtain rfl := ht.secret_eq hI he hr
  obtain ⟨base, hbase, hroot⟩ := ht.rooted
  obtain ⟨hv, hinit⟩ := he.preKey m hem
  exact hk ⟨hv, s, hmem, by rw [hbase, hroot.unique hI hid (.initiated hinit)]⟩

/-- **A delivery that succeeds** promotes the session with the secret of the message. -/
theorem deliver_ok [DecidableEq Addr] [LinearOrder Pub] (hI : Ideal peers.provider)
    (hid : ∀ x, peers.LongTerm (peers.provider.publicKey (ident x)))
    (he : SentWith peers ident d.drawn tag y.other secret e)
    (hcount : e.1.inner.counter.toNat + 1 < 2 ^ 32) {out : Reply Pub B}
    (hr : peers.call y e.1.command (d.world y) = (.ok out, w')) :
    ∃ s rest tag', (d.put y w').Sound peers ident (Function.update l y (s :: rest)) tag' ∧
      Continues d.drawn (d.put y w').drawn tag tag' ∧
      Tracks peers ident (d.put y w').drawn tag' y secret s := by
  obtain ⟨l', hmove, hstored, hkeys⟩ := h.call_ok hr fun m hm => by
    obtain ⟨c, b⟩ := e
    cases c with
    | signal m =>
      cases hm
      exact hcount
    | preKey m =>
      cases hm
      exact hcount
  have hdrawn : (d.put y w').drawn y = w'.drawn := drawn_put_self
  generalize hcmd : e.1.command = cmd at hmove
  generalize hn : w'.drawn = nw at hmove
  have hle : (d.world y).drawn ≤ nw → ∀ x, d.drawn x ≤ (d.put y w').drawn x :=
    fun hnw => drawn_put (hnw.trans_eq hn.symm)
  cases hmove with
  | send hl hs =>
    obtain ⟨c, b⟩ := e
    cases c <;> cases hcmd
  | initiate ha hb hs =>
    obtain ⟨c, b⟩ := e
    cases c <;> cases hcmd
  | @receive m p s s' i k _ hi hk hnw hrec =>
    have hinner : e.1.inner = m := by
      obtain ⟨c, b⟩ := e
      cases c <;> cases hcmd
      rfl
    rw [← hinner] at hrec
    obtain ⟨tag', hcont, hfamily, ht⟩ := (h.family y).receive hI hi he hrec hk (hle hnw)
      (by rw [hdrawn, hn])
    refine ⟨s', (l y).eraseIdx i, tag', h.put_silent hcont hstored hkeys.identityKeyPair hfamily
      ?_, hcont, ht⟩
    intro t htmem
    rcases List.mem_cons.1 htmem with rfl | htmem
    · exact receivers_ne_nil_of_receive hrec
    · exact h.live y t (List.mem_of_mem_eraseIdx htmem)
  | @respond m l₁ used p s s' i k _ hp hi hk hnw hrec =>
    have hem : e.1 = .preKey m := by
      obtain ⟨c, b⟩ := e
      cases c <;> cases hcmd
      rfl
    have hinner : e.1.inner = m.message := by rw [hem]; rfl
    rw [← hinner] at hrec
    obtain ⟨hv, hinit⟩ := he.preKey m hem
    obtain ⟨tag', hcont, hfamily, ht⟩ := (h.prepare hv hinit hp).receive hI hi he hrec hk
      (hle hnw) (by rw [hdrawn, hn])
    refine ⟨s', l₁.eraseIdx i, tag', h.put_silent hcont hstored hkeys.identityKeyPair hfamily
      ?_, hcont, ht⟩
    intro t htmem
    rcases List.mem_cons.1 htmem with rfl | htmem
    · exact receivers_ne_nil_of_receive hrec
    · rcases prepare_ok hp with ⟨-, rfl, -⟩ | ⟨hnew, signedPreKey, oneTimePreKey, -, rfl⟩
      · exact h.live y t (List.mem_of_mem_eraseIdx htmem)
      · obtain rfl := h.respond_zero hI hid he hem hnew hi hrec
        exact h.live y t (List.mem_of_mem_take htmem)

end Network.Sound

/-! ## 6. Runs -/

section Runs

variable [DecidableEq Addr] [LinearOrder Pub]

/-- What was sent stays sent. -/
theorem Network.sent_prefix_step (d : Network Addr Priv Pub B) (act : NetworkAct Addr Priv Pub B)
    (x : Party) : d.sent x <+: (d.step peers act).sent x := by
  cases act with
  | process z bundle => exact List.prefix_refl _
  | encrypt z plaintext =>
    rw [Network.step]
    split
    · dsimp only
      rcases eq_or_ne x z with rfl | hx
      · rw [Function.update_self]
        exact List.prefix_append ..
      · rw [Function.update_of_ne hx]
    · exact List.prefix_refl _
  | deliver z i =>
    rw [Network.step]
    split
    · exact List.prefix_refl _
    · exact List.prefix_refl _
  | configure z preKeys signedPreKeys identities => exact List.prefix_refl _

/-- **The account is kept in every run** on fresh keys in which no counter has reached the end of
its range. -/
theorem Network.Started.run_sound (hI : Ideal peers.provider) (hg : peers.Generating)
    (hd : d.Started peers) (acts : List (NetworkAct Addr Priv Pub B))
    (hfresh : ∀ act ∈ acts, act.Fresh peers)
    (hcount : ∀ x, ∀ e ∈ (d.run peers acts).sent x, e.1.inner.counter.toNat + 1 < 2 ^ 32) :
    ∃ l tag, (d.run peers acts).Sound peers
      (fun x => (d.world x).identityKeyPair.privateKey) l tag := by
  induction acts using List.reverseRecOn with
  | nil => exact ⟨_, fun _ _ => [], hd.sound⟩
  | append_singleton acts act ih =>
    have hrun : d.run peers (acts ++ [act]) = (d.run peers acts).step peers act := by
      rw [Network.run, Network.run, List.foldl_append]
      rfl
    rw [hrun] at hcount ⊢
    have hcount' : ∀ x, ∀ e ∈ (d.run peers acts).sent x,
        e.1.inner.counter.toNat + 1 < 2 ^ 32 :=
      fun x e he => hcount x e ((Network.sent_prefix_step _ act x).subset he)
    obtain ⟨l, tag, h⟩ := ih (fun a ha => hfresh a (List.mem_append_left _ ha)) hcount'
    cases act with
    | process x bundle =>
      exact h.process hI hg (hfresh _ (List.mem_append_right _ List.mem_cons_self))
    | encrypt x plaintext => exact h.encrypt plaintext (hcount x)
    | deliver y i =>
      rw [Network.step]
      split
      · exact ⟨l, tag, h⟩
      · rename_i e hi
        have hmem := List.mem_of_getElem? hi
        rcases hr : peers.call y e.1.command ((d.run peers acts).world y) with ⟨err | out, w'⟩
        · exact ⟨l, tag, h.fail hr⟩
        · obtain ⟨secret, he⟩ := h.sent _ e hmem
          obtain ⟨s, rest, tag', hsound, -⟩ := h.deliver_ok hI hd.identity he
            (hcount' _ e hmem) hr
          exact ⟨_, tag', hsound⟩
    | configure x preKeys signedPreKeys identities =>
      exact ⟨l, tag, h.put_same ⟨(h.stored x).holds, (h.stored x).inRange, (h.stored x).length⟩ rfl
        (Nat.le_refl _)⟩

end Runs

end Sound

/-! ## 7. The search over a record -/

section Search

variable [DecidableEq Pub] [DecidableEq B]

/-- **A session that accepts a message accepts it at any position of the random source.** -/
theorem Session.receive_anywhere {P : Provider Priv Pub B} {rng : Rng Priv B}
    {s s' : Session Priv Pub B} {m : SignalMessage Pub B} {p : B} {k k' : Nat}
    (h : s.receive P rng m k = (.ok (p, s'), k')) (hrng : ∀ n, ∃ key, rng.privateKey n = .ok key)
    (n : Nat) : ∃ s'' n', s.receive P rng m n = (.ok (p, s''), n') := by
  obtain ⟨hv, c, s₁, w, hopen, hw, hmac, hdecrypt, -⟩ := Session.receive_ok_iff.1 h
  rcases openChain_ok_iff.1 hopen with ⟨hc, rfl, -⟩ | ⟨hnone, ours, -, rfl, rfl, -⟩
  · exact ⟨_, n, Session.receive_ok_iff.2 ⟨hv, c, s₁, w,
      openChain_ok_iff.2 (Or.inl ⟨hc, rfl, rfl⟩), hw, hmac, hdecrypt, rfl⟩⟩
  · obtain ⟨ours', hours'⟩ := hrng n
    exact ⟨_, n + 1, Session.receive_ok_iff.2 ⟨hv, _, _, w,
      openChain_ok_iff.2 (Or.inr ⟨hnone, ours', hours', rfl, rfl, rfl⟩), hw, hmac, hdecrypt, rfl⟩⟩

variable {peers : Peers Addr Priv Pub B} {ident : Party → Priv} {n : Party → Nat}
  {tag : Party → Nat → List B} {y : Party} {e : CiphertextMessage Pub B × Option Pub}
  {secret : List B} {s s' : Session Priv Pub B} {p : B} {k k' : Nat}

/-- **A session with another secret answers `SG_ERR_INVALID_MESSAGE`**, so the search goes on. -/
theorem Tracks.refuses (hI : Ideal peers.provider) (hg : peers.Generating) {secret' : List B}
    (he : SentWith peers ident n tag y.other secret e) (ht : Tracks peers ident n tag y secret' s)
    (hne : secret' ≠ secret) (k : Nat) :
    ∃ k', s.receive peers.provider (peers.rng y) e.1.inner k = (.error .invalidMessage, k') := by
  obtain ⟨d, hgrown⟩ := ht.grown
  refine he.made.refuses hI hgrown hne (Session.chainFor_none.2 fun c hc hkey => ?_)
    (hg.total y) k
  exact hne (he.secret_of_chain hg hI ht hc hkey)

/-- **What one session can decrypt, the search accepts**, whatever stands before it. -/
theorem Family.receiveAny (hI : Ideal peers.provider) (hg : peers.Generating)
    (hid : ∀ x, peers.LongTerm (peers.provider.publicKey (ident x)))
    (he : SentWith peers ident n tag y.other secret e)
    (hr : s.receive peers.provider (peers.rng y) e.1.inner k = (.ok (p, s'), k'))
    {l : List (Session Priv Pub B)} (h : Family peers ident n tag y l) (hs : s ∈ l) (m : Nat) :
    ∃ t i m', Session.receiveAny peers.provider (peers.rng y) e.1.inner l m =
      (.ok (p, t, i), m') := by
  induction l generalizing m with
  | nil => exact absurd hs List.not_mem_nil
  | cons t rest ih =>
    obtain ⟨secret', ht, -⟩ := h.members t List.mem_cons_self
    obtain ⟨secret'', hts, -⟩ := h.members s hs
    obtain rfl := hts.secret_eq hI he hr
    obtain ⟨s'', m'', hagain⟩ := Session.receive_anywhere hr (hg.total y) m
    by_cases hsecret : secret' = secret''
    · subst hsecret
      obtain rfl := h.eq_of_secret hI hid hs List.mem_cons_self hts ht
      exact ⟨s'', 0, m'', Session.receiveAny_of_ok hagain rest⟩
    · obtain ⟨m₁, hrefused⟩ := ht.refuses hI hg he hsecret m
      have hrest : s ∈ rest := by
        refine (List.mem_cons.1 hs).resolve_left fun heq => ?_
        rw [← heq, hagain] at hrefused
        cases hrefused
      obtain ⟨t', i, m', hfound⟩ := ih (h.sublist (List.sublist_cons_self ..)) hrest m₁
      refine ⟨t', i + 1, m', ?_⟩
      rw [Session.receiveAny, Op.recover_of_error (Op.bind_of_error hrefused),
        Op.bind_of_ok hfound]
      rfl

end Search

end SignalProtocol
