/-
# Setting up a session before the peer answers

Alice processes a bundle of Bob's and writes to Bob at once.  Bob may see any of the messages, in
any order and more than once, and the first one to arrive has to set up the session.  So
`session_cipher_encrypt` wraps every message into a pre-key message until a message of the session
has come back, and `session_builder_process_pre_key_signal_message_v3` looks for a state with the
base key before it makes one.

* section 1: an `Introduction` is such a run, with a `Lane` for each direction;
* section 2: the calls of a party, in terms of its current session;
* section 3: what the two parties know of each other (`Introduction.Sound`);
* section 4: every act keeps it;
* section 5: the messages set up one session, every message is accepted once, and the first
  answer ends the pre-key messages (`Sound.established`).  This needs that no late message of an
  older session is accepted meanwhile; the last run is one in which one is.

The conversation may go on: Bob may accept what Alice writes after the first answer, and Alice
what Bob writes then.  Each such message on a new ratchet key adds a receiver chain to the state
of the one who accepts it, and a state keeps five of them.  So the first messages are still
delivered as long as their chain is there (`Introduction.Furthers`).

Nothing is assumed of the older sessions of the two parties: the session is the current one of
either from the first message on, and the current one is tried first.
-/
import SignalProtocol.Current
import SignalProtocol.Network
import SignalProtocol.Stream

namespace SignalProtocol

variable {Addr Priv Pub B : Type}

/-! ## 1. Introductions -/

/-- The stores of both parties, Alice's messages until she has accepted an answer and their
deliveries, Bob's messages since Bob has accepted one of hers and their deliveries, what Alice
has encrypted after her first answer, and whether Bob has been handed a message of a later
round: what Bob encrypts then is not one of the answers any more. -/
structure Introduction (Addr Priv Pub B : Type) where
  world : Party → World Addr Priv Pub B
  forth : Lane Pub B
  back : Lane Pub B
  later : List (CiphertextMessage Pub B)
  onward : Bool

/-- Alice encrypts, Bob is handed the message at some position of hers, Bob encrypts, Alice is
handed one of Bob's answers, one of them is handed a message of a later round of the session, or
any other message, or writes to the pre key and identity stores. -/
inductive IntroductionAct (Addr Priv Pub B : Type) where
  | write (plaintext : B)
  | deliver (i : Nat)
  | reply (plaintext : B)
  | answer (i : Nat)
  | follow (x : Party) (message : SignalMessage Pub B)
  | stray (x : Party) (message : CiphertextMessage Pub B)
  | configure (x : Party) (preKeys signedPreKeys : UInt32 → Option (EcKeyPair Priv Pub))
      (identities : Addr → Option Pub)

/-- The number of states of a record that were set up with a base key. -/
def World.statesWith [DecidableEq Pub] (P : Provider Priv Pub B) (address : Addr) (base : Pub)
    (w : World Addr Priv Pub B) : Nat :=
  match w.record P address with
  | .ok record => record.states.countP fun state => state.aliceBaseKey = some base
  | .error _ => 0

/-- **The stores hold the keys that a bundle names.** -/
structure World.Offers (P : Provider Priv Pub B) (bundle : PreKeyBundle Pub B)
    (w : World Addr Priv Pub B) : Prop where
  identity : bundle.identityKey = some w.identityKeyPair.publicKey
  identityMatched : w.identityKeyPair.Matched P
  signed : ∃ pair, w.signedPreKeys bundle.signedPreKeyId = some pair ∧ pair.Matched P ∧
    bundle.signedPreKeyPublic = some pair.publicKey
  oneTime : ∀ key ∈ bundle.preKeyPublic, ∃ pair, w.preKeys bundle.preKeyId = some pair ∧
    pair.Matched P ∧ key = pair.publicKey

namespace Introduction

/-- The introduction with another store for one party. -/
def put (d : Introduction Addr Priv Pub B) (x : Party) (w : World Addr Priv Pub B) :
    Introduction Addr Priv Pub B :=
  { d with world := Function.update d.world x w }

@[simp] theorem put_world_self (d : Introduction Addr Priv Pub B) (x : Party)
    (w : World Addr Priv Pub B) : (d.put x w).world x = w := Function.update_self ..

theorem put_world_of_ne (d : Introduction Addr Priv Pub B) {x y : Party} (h : y ≠ x)
    (w : World Addr Priv Pub B) : (d.put x w).world y = d.world y := Function.update_of_ne h ..

/-- Alice has encrypted a message: it is one of the first until she has accepted an answer. -/
def wrote (d : Introduction Addr Priv Pub B) (p : B) (c : CiphertextMessage Pub B) :
    Introduction Addr Priv Pub B :=
  if d.back.accepted = [] then { d with forth := d.forth.send p c }
  else { d with later := d.later ++ [c] }

/-- Bob has encrypted a message: it is an answer if one of Alice's first messages was accepted
before, and none of a later round. -/
def replied (d : Introduction Addr Priv Pub B) (p : B) (c : CiphertextMessage Pub B) :
    Introduction Addr Priv Pub B :=
  if d.forth.accepted = [] ∨ d.onward = true then d else { d with back := d.back.send p c }

/-- The first messages to a party. -/
def inbound (d : Introduction Addr Priv Pub B) : Party → Lane Pub B
  | .alice => d.back
  | .bob => d.forth

section Step

variable [DecidableEq Addr] [LinearOrder Pub] [DecidableEq B]

/-- **One act.** -/
def step (peers : Peers Addr Priv Pub B) (d : Introduction Addr Priv Pub B) :
    IntroductionAct Addr Priv Pub B → Introduction Addr Priv Pub B
  | .write p =>
    match peers.call .alice (.encrypt p) (d.world .alice) with
    | (.ok (.ciphertext c), w) => (d.wrote p c).put .alice w
    | (_, w) => d.put .alice w
  | .deliver i =>
    match d.forth.sent[i]? with
    | none => d
    | some e =>
      let result := peers.call .bob e.2.command (d.world .bob)
      { d.put .bob result.2 with forth := d.forth.deliver e.2 result.1 }
  | .reply p =>
    match peers.call .bob (.encrypt p) (d.world .bob) with
    | (.ok (.ciphertext c), w) => (d.replied p c).put .bob w
    | (_, w) => d.put .bob w
  | .answer i =>
    match d.back.sent[i]? with
    | none => d
    | some e =>
      let result := peers.call .alice e.2.command (d.world .alice)
      { d.put .alice result.2 with back := d.back.deliver e.2 result.1 }
  | .follow x m =>
    { d.put x (peers.call x (.decryptSignal m) (d.world x)).2 with
      onward := d.onward || decide (x = .bob) }
  | .stray x c => d.put x (peers.call x c.command (d.world x)).2
  | .configure x preKeys signedPreKeys identities =>
    d.put x { d.world x with
      preKeys := preKeys, signedPreKeys := signedPreKeys, identities := identities }

/-- A run is any sequence of acts. -/
def run (peers : Peers Addr Priv Pub B) (d : Introduction Addr Priv Pub B)
    (acts : List (IntroductionAct Addr Priv Pub B)) : Introduction Addr Priv Pub B :=
  acts.foldl (step peers) d

/-- The index of the receiver's chain for a message, as the store holds it.  A chain that is not
there yet starts at 0. -/
def chainIndex (peers : Peers Addr Priv Pub B) (d : Introduction Addr Priv Pub B) (y : Party)
    (lane : Lane Pub B) (m : SignalMessage Pub B) : Nat :=
  if lane.accepted = [] then 0
  else ((d.world y).receiverChainKey peers.provider (peers.address y) m.senderRatchetKey).elim 0
    fun chainKey => chainKey.index.toNat

/-- **A delivery within the limits**: the message was delivered before, or its counter is at most
2000 beyond the receiver's chain index and its key is not one that gave way because more than 2000
keys were skipped. -/
def Within (peers : Peers Addr Priv Pub B) (d : Introduction Addr Priv Pub B) (y : Party)
    (lane : Lane Pub B) (c : CiphertextMessage Pub B) : Prop :=
  lane.Delivered c ∨ c.inner.counter.toNat ≤ d.chainIndex peers y lane c.inner + 2000 ∧
    c.inner.counter.toNat ∉ Window.evicted maxMessageKeys lane.accepted

/-- Bob trusts Alice. -/
def Trusts (peers : Peers Addr Priv Pub B) (d : Introduction Addr Priv Pub B) : Prop :=
  peers.trusted .bob (peers.address .bob) ((d.world .bob).identities (peers.address .bob))
    (d.world .alice).identityKeyPair.publicKey = true

/-- The current state of the record accepts the message. -/
def currentAccepts (peers : Peers Addr Priv Pub B) (d : Introduction Addr Priv Pub B) (x : Party)
    (m : SignalMessage Pub B) : Bool :=
  match (d.world x).record peers.provider (peers.address x) with
  | .ok record => (sessionCipherDecryptFromState peers.provider (peers.rng x) record.state m
      (d.world x).drawn).1.isOk
  | .error _ => false

/-- **A message of a later round**: the party has accepted one of the first messages to it; the
current state accepts this one, which has another ratchet key; and that does not make the state
drop the receiver chain of the first messages. -/
structure Furthers (peers : Peers Addr Priv Pub B) (d : Introduction Addr Priv Pub B) (x : Party)
    (m : SignalMessage Pub B) : Prop where
  begun : (d.inbound x).accepted ≠ []
  accepts : d.currentAccepts peers x m = true
  bounded : m.counter.toNat + 1 < 2 ^ 32
  other : ∀ e ∈ (d.inbound x).sent, m.senderRatchetKey ≠ e.2.inner.senderRatchetKey
  kept : ∀ e ∈ (d.inbound x).sent,
    ((peers.call x (.decryptSignal m) (d.world x)).2.receiverChainKey peers.provider
      (peers.address x) e.2.inner.senderRatchetKey).isSome = true

/-- **The conditions on an act.**
* No counter reaches the end of its 32 bits.
* Deliveries are within the limits.  Bob trusts Alice, and at the first delivery the stores hold
  the keys that the bundle names.
* Messages of later rounds leave the chain of the first messages in place.
* No other message is accepted. -/
def Allows (peers : Peers Addr Priv Pub B) (bundle : PreKeyBundle Pub B)
    (d : Introduction Addr Priv Pub B) : IntroductionAct Addr Priv Pub B → Prop
  | .write p => (((Command.encrypt p).action (peers.cipher .alice)).step (peers.context .alice)
      (d.world .alice)).Bounded
  | .deliver i => ∀ e ∈ d.forth.sent[i]?, d.Within peers .bob d.forth e.2 ∧ d.Trusts peers ∧
      (d.forth.deliveries = [] → (d.world .bob).Offers peers.provider bundle)
  | .reply p => (((Command.encrypt p).action (peers.cipher .bob)).step (peers.context .bob)
      (d.world .bob)).Bounded
  | .answer i => ∀ e ∈ d.back.sent[i]?, d.Within peers .alice d.back e.2
  | .follow x m => d.Furthers peers x m
  | .stray x c => ∃ e, (peers.call x c.command (d.world x)).1 = .error e
  | .configure _ _ _ _ => True

/-- A run whose acts all meet the conditions. -/
def Regular (peers : Peers Addr Priv Pub B) (bundle : PreKeyBundle Pub B)
    (d : Introduction Addr Priv Pub B) : List (IntroductionAct Addr Priv Pub B) → Prop
  | [] => True
  | act :: acts => d.Allows peers bundle act ∧ (d.step peers act).Regular peers bundle acts

/-- **The start**: from the stores `w` Alice has processed a bundle, for which she drew the key pair
of `base`.  Either party may have had any sessions before.  The base key is new to Bob, and the
signed pre key is not drawn again. -/
structure Started (peers : Peers Addr Priv Pub B) (bundle : PreKeyBundle Pub B)
    (w : World Addr Priv Pub B) (base : Priv) (d : Introduction Addr Priv Pub B) : Prop where
  processed : ∃ out, peers.call .alice (.processPreKeyBundle bundle) w = (.ok out, d.world .alice)
  drawn : (peers.rng .alice).privateKey w.drawn = .ok base
  identity : w.identityKeyPair.Matched peers.provider
  bob : ∃ record, (d.world .bob).record peers.provider (peers.address .bob) = .ok record ∧
    ∀ state ∈ record.states, state.aliceBaseKey ≠ some (peers.provider.publicKey base)
  old : ∀ key ∈ bundle.signedPreKeyPublic, OldKey (peers.context .bob) (d.world .bob).drawn key
  forth : d.forth = Lane.empty
  back : d.back = Lane.empty
  later : d.later = []
  onward : d.onward = false

end Step

/-- **What an introduction has led to.** -/
structure Established [DecidableEq Pub] (peers : Peers Addr Priv Pub B)
    (bundle : PreKeyBundle Pub B) (base : Pub) (d : Introduction Addr Priv Pub B) : Prop where
  /-- Until she has accepted an answer, Alice encrypts to pre-key messages that name the same
  keys. -/
  preKey : ∀ e ∈ d.forth.sent, ∃ m, e.2 = .preKey m ∧ m.baseKey = base ∧
    m.signedPreKeyId = bundle.signedPreKeyId ∧
    m.preKeyId = bundle.preKeyPublic.map fun _ => bundle.preKeyId
  /-- The first delivery, and no other, makes a state for the base key. -/
  states : (d.world .bob).statesWith peers.provider (peers.address .bob) base =
    if d.forth.deliveries = [] then 0 else 1
  delivered : Lane.Served d.forth.sent d.forth.deliveries
  answered : Lane.Served d.back.sent d.back.deliveries
  /-- After her first answer Alice encrypts to signal messages. -/
  signal : ∀ c ∈ d.later, ∃ m, c = .signal m

end Introduction

/-! ## 2. The calls -/

section Calls

variable [DecidableEq Addr] [LinearOrder Pub] [DecidableEq B] {peers : Peers Addr Priv Pub B}
  {x : Party} {w w' : World Addr Priv Pub B} {s s' : Session Priv Pub B}
  {previous : List (SessionState Priv Pub B)} {p : B} {n : Nat}

/-- The session store, the own identity and the random source of a party are the same, or the
source has moved on. -/
structure Peers.Idle (peers : Peers Addr Priv Pub B) (x : Party) (w w' : World Addr Priv Pub B) :
    Prop where
  record : w'.record peers.provider (peers.address x) = w.record peers.provider (peers.address x)
  identity : w'.identityKeyPair = w.identityKeyPair
  drawn : w.drawn ≤ w'.drawn

/-- A failing call makes no change, unless it is about a key exchange message. -/
theorem Outcome.idle_of_error {ctx : SignalContext Addr Priv Pub B} {c : Call Addr Priv Pub B}
    {e : SgError} (h : Outcome ctx w c (.error e) w') (hc : ¬ c.IsKeyExchange) :
    ∃ saved n, w.drawn ≤ n ∧ w' = (w.saveOptional c.address saved).at n := by
  cases h with
  | idle saved _ hn _ => exact ⟨saved, _, hn, rfl⟩
  | changed saved used hr hchange hn =>
    cases hchange with
    | agree _ _ => exact absurd trivial hc

/-- **A call that fails leaves the sessions alone.** -/
theorem Peers.idle_of_error {c : Command Pub B} {e : SgError}
    (h : peers.call x c w = (.error e, w')) : peers.Idle x w w' := by
  have hidle : ∃ (address : Addr) (saved : Option Pub) (n : Nat), w.drawn ≤ n ∧
      w' = (w.saveOptional address saved).at n := by
    have hpassive : (peers.cipher x).Passive := SessionCipher.passive_create _
    cases c with
    | processPreKeyBundle bundle =>
      obtain ⟨r, hx, hr⟩ := Op.bind_pure_cases h
      cases r with
      | error e' => exact ⟨_, (bundle_outcome hx).idle_of_error id⟩
      | ok a => cases hr
    | decryptPreKey m =>
      obtain ⟨r, hx, hr⟩ := Op.bind_pure_cases h
      cases r with
      | error e' => exact ⟨_, (decryptPreKey_outcome hpassive hx).idle_of_error id⟩
      | ok a => cases hr
    | decryptSignal m =>
      obtain ⟨r, hx, hr⟩ := Op.bind_pure_cases h
      cases r with
      | error e' => exact ⟨_, (decryptSignal_outcome hpassive hx).idle_of_error id⟩
      | ok a => cases hr
    | encrypt p =>
      obtain ⟨r, hx, hr⟩ := Op.bind_pure_cases h
      cases r with
      | error e' => exact ⟨_, (encrypt_outcome hx).idle_of_error id⟩
      | ok a => cases hr
  obtain ⟨address, saved, n, hn, rfl⟩ := hidle
  refine ⟨World.record_congr ?_, ?_, hn⟩
  · exact congrFun (World.saveOptional_sessions address saved w) _
  · cases saved <;> rfl

/-- Encrypting gives a ciphertext or fails. -/
theorem Peers.call_encrypt_cases {r : Except SgError (Reply Pub B)}
    (h : peers.call x (.encrypt p) w = (r, w')) :
    (∃ e, r = .error e) ∨ ∃ c, r = .ok (.ciphertext c) := by
  obtain ⟨r', -, rfl⟩ := Op.bind_pure_cases h
  cases r' with
  | error e => exact Or.inl ⟨e, rfl⟩
  | ok c => exact Or.inr ⟨c, rfl⟩

/-- **Encrypting sends with the current session.** -/
theorem Peers.call_encrypt_ok (h : w.Current peers.provider (peers.address x) s previous)
    {c : CiphertextMessage Pub B} (hc : peers.call x (.encrypt p) w = (.ok (.ciphertext c), w')) :
    s.send peers.provider p = .ok (c, s.sent) ∧
      w'.Current peers.provider (peers.address x) s.sent previous ∧
      w'.identityKeyPair = w.identityKeyPair := by
  have hcall : sessionCipherEncrypt (peers.context x) (peers.cipher x) p w = (.ok c, w') := by
    obtain ⟨r, hx, hr⟩ := Op.bind_pure_cases hc
    cases r with
    | error e => cases hr
    | ok c' => cases hr; exact hx
  have hcurrent : w.Current (peers.context x).provider (peers.address x) s previous := h
  rw [Peers.cipher, encrypt_current hcurrent] at hcall
  cases hs : s.send peers.provider p with
  | error e =>
    rw [show (peers.context x).provider = peers.provider from rfl, hs] at hcall
    cases hcall
  | ok result =>
    obtain ⟨c', s'⟩ := result
    obtain ⟨_, -, -, rfl⟩ := Session.send_ok_iff.1 hs
    rw [show (peers.context x).provider = peers.provider from rfl, hs] at hcall
    cases hcall
    exact ⟨rfl, h.store _ _, rfl⟩

/-- Encrypting with whatever state is current keeps the base keys of a record. -/
theorem Peers.call_encrypt_record {record : SessionRecord Priv Pub B}
    (hr : w.record peers.provider (peers.address x) = .ok record) {c : CiphertextMessage Pub B}
    (hc : peers.call x (.encrypt p) w = (.ok (.ciphertext c), w')) :
    ∃ state', w'.record peers.provider (peers.address x) =
        .ok ⟨state', record.previousStates, false⟩ ∧
      state'.aliceBaseKey = record.state.aliceBaseKey ∧ w.drawn ≤ w'.drawn := by
  obtain ⟨r, hx, hr'⟩ := Op.bind_pure_cases hc
  cases r with
  | error e => cases hr'
  | ok c' =>
    cases encrypt_outcome hx with
    | idle saved hf _ _ =>
      rcases hf with ⟨e, he⟩ | hf
      · cases he
      · exact absurd hf id
    | changed saved used hrecord hchange hn =>
      obtain rfl := Except.ok.inj (hr.symm.trans hrecord)
      cases hchange with
      | @send _ _ _ state' hsend =>
        refine ⟨state', ?_, congrArg StateLabel.aliceBaseKey (label_encryptWithState hsend), hn⟩
        exact record_changed ((readable_of_record hr).setState
          ((readable_of_record hr _ List.mem_cons_self).encryptWithState hsend)) _ _ _

/-- The current session accepts a signal message. -/
theorem Peers.call_decryptSignal_ok (h : w.Current peers.provider (peers.address x) s previous)
    (hrange : s.InRange) {m : SignalMessage Pub B}
    (hr : s.receive peers.provider (peers.rng x) m w.drawn = (.ok (p, s'), n)) :
    ∃ w', peers.call x (.decryptSignal m) w = (.ok (.plaintext p), w') ∧
      w'.Current peers.provider (peers.address x) s' previous ∧
      w'.identityKeyPair = w.identityKeyPair := by
  have hcurrent : w.Current (peers.context x).provider (peers.address x) s previous := h
  have hcall := decryptSignal_current hcurrent (decryptFromRecord_current rfl hrange hr)
  exact ⟨_, Op.bind_of_ok hcall, (h.congr (World.record_at _ _ n w)).store _ _, rfl⟩

/-- The current session refuses a signal message as a duplicate. -/
theorem Peers.call_decryptSignal_duplicate
    (h : w.Current peers.provider (peers.address x) s previous) (hrange : s.InRange)
    {m : SignalMessage Pub B}
    (hr : s.receive peers.provider (peers.rng x) m w.drawn = (.error .duplicateMessage, n)) :
    ∃ w', peers.call x (.decryptSignal m) w = (.error .duplicateMessage, w') := by
  have hcurrent : w.Current (peers.context x).provider (peers.address x) s previous := h
  have hcall := decryptSignal_current hcurrent (decryptFromRecord_duplicate rfl hrange hr)
  exact ⟨_, Op.bind_of_error hcall⟩

variable {m : PreKeySignalMessage Pub B} {record built : SessionRecord Priv Pub B}
  {used : Option UInt32}

/-- The first session of the record that the builder returns accepts a pre-key message. -/
theorem Peers.call_decryptPreKey_ok
    (hw : w.record peers.provider (peers.address x) = .ok record)
    (ht : peers.trusted x (peers.address x) (w.identities (peers.address x)) m.identityKey = true)
    (hb : sessionBuilderProcessPreKeySignalMessageV3 (peers.context x) record m w =
      (.ok (built, used), w)) (hreadable : built.Readable peers.provider)
    (hs : built.state = s.toState peers.provider) (hrange : s.InRange)
    (hr : s.receive peers.provider (peers.rng x) m.message w.drawn = (.ok (p, s'), n)) :
    ∃ w', peers.call x (.decryptPreKey m) w = (.ok (.plaintext p), w') ∧
      w'.Current peers.provider (peers.address x) s' built.previousStates := by
  have hrecord : w.record (peers.context x).provider (peers.address x) = .ok record := hw
  have hcall := decryptPreKey_built hrecord ht hb
    (decryptFromRecord_current hs hrange hr)
  refine ⟨_, Op.bind_of_ok hcall, ?_⟩
  exact record_changed (hreadable.setState (Session.storable_toState _ s').readable) _ _ _

/-- It refuses it as a duplicate. -/
theorem Peers.call_decryptPreKey_duplicate
    (hw : w.record peers.provider (peers.address x) = .ok record)
    (ht : peers.trusted x (peers.address x) (w.identities (peers.address x)) m.identityKey = true)
    (hb : sessionBuilderProcessPreKeySignalMessageV3 (peers.context x) record m w =
      (.ok (built, used), w)) (hs : built.state = s.toState peers.provider) (hrange : s.InRange)
    (hr : s.receive peers.provider (peers.rng x) m.message w.drawn =
      (.error .duplicateMessage, n)) :
    ∃ w', peers.call x (.decryptPreKey m) w = (.error .duplicateMessage, w') := by
  have hrecord : w.record (peers.context x).provider (peers.address x) = .ok record := hw
  have hcall := decryptPreKey_built hrecord ht hb
    (decryptFromRecord_duplicate hs hrange hr)
  exact ⟨_, Op.bind_of_error hcall⟩

end Calls

/-! ## 3. The account of an introduction -/

/-- The session that processing a bundle has set up, with this base key. -/
def Peers.Introduced (peers : Peers Addr Priv Pub B) (bundle : PreKeyBundle Pub B) (base : Priv)
    (s : Session Priv Pub B) : Prop :=
  ∃ (store : Store Addr Priv Pub B) (identity signedPreKey : Pub) (sending : Priv),
    bundle.identityKey = some identity ∧ bundle.signedPreKeyPublic = some signedPreKey ∧
      store.identityKeyPair.Matched peers.provider ∧
      s = Session.initiated peers.provider store bundle identity signedPreKey base sending

/-- The session after some messages were sent: the next one has the number `k`. -/
def Session.numbered (s : Session Priv Pub B) (k : Nat) : Session Priv Pub B :=
  { s with sender := { s.sender with next := k } }

/-- A pre-key message names the keys of a bundle, the base key and the sender. -/
structure PreKeySignalMessage.Introduces (bundle : PreKeyBundle Pub B) (base identity : Pub)
    (m : PreKeySignalMessage Pub B) : Prop where
  version : m.version = 3
  preKeyId : m.preKeyId = bundle.preKeyPublic.map fun _ => bundle.preKeyId
  signedPreKeyId : m.signedPreKeyId = bundle.signedPreKeyId
  baseKey : m.baseKey = base
  identityKey : m.identityKey = identity

namespace Introduction

section Account

variable [LinearOrder Pub] [DecidableEq B] (peers : Peers Addr Priv Pub B)
  (bundle : PreKeyBundle Pub B) (base : Pub) (s₀ : Session Priv Pub B)

/-- **Alice's side.**  Her current session is the one she set up, and only its counter has moved
until she accepts an answer. -/
structure AliceSide (s : Session Priv Pub B) (d : Introduction Addr Priv Pub B) : Prop where
  current : ∃ previous,
    (d.world .alice).Current peers.provider (peers.address .alice) s previous
  inRange : s.InRange
  identity : (d.world .alice).identityKeyPair.publicKey = s₀.localIdentity
  waiting : d.back.accepted = [] → (∃ k, s = s₀.numbered k) ∧ d.forth.Below s.sender.next
  answered : d.back.accepted ≠ [] → s.pendingPreKey = none

/-- **Bob before the first delivery**: no state has the base key. -/
structure BobBefore (d : Introduction Addr Priv Pub B) : Prop where
  record : ∃ record, (d.world .bob).record peers.provider (peers.address .bob) = .ok record ∧
    ∀ state ∈ record.states, state.aliceBaseKey ≠ some base
  deliveries : d.forth.deliveries = []
  back : d.back = Lane.empty
  onward : d.onward = false
  old : ∀ key ∈ bundle.signedPreKeyPublic, OldKey (peers.context .bob) (d.world .bob).drawn key

/-- **Bob after the first delivery**: the current session is the one for the base key, no other
state has it, and the two parties read each other.  The answers are on the chain `c`, which is
Bob's sending chain until a message of a later round was accepted. -/
structure BobAfter (s t : Session Priv Pub B) (c : Stream Pub B)
    (d : Introduction Addr Priv Pub B) : Prop where
  current : ∃ previous, (d.world .bob).Current peers.provider (peers.address .bob) t previous ∧
    ∀ state ∈ previous, state.aliceBaseKey ≠ some base
  inRange : t.InRange
  baseKey : t.aliceBaseKey = some base
  deliveries : d.forth.deliveries ≠ []
  reads : t.Reads peers.provider s₀.stream d.forth.accepted
  acknowledged : t.pendingPreKey = none
  follows : d.back.Follows peers.provider c
  sending : d.onward = false → t.stream = c ∧ d.back.Below t.sender.next
  signal : ∀ e ∈ d.back.sent, ∃ m, e.2 = .signal m
  answers : s.Reads peers.provider c d.back.accepted

/-- **The account.** -/
structure Sound (s : Session Priv Pub B) (d : Introduction Addr Priv Pub B) : Prop where
  forth : d.forth.Follows peers.provider s₀.stream
  preKey : ∀ e ∈ d.forth.sent, ∃ m, e.2 = .preKey m ∧
    m.Introduces bundle base s₀.localIdentity
  later : ∀ c ∈ d.later, ∃ m, c = .signal m
  alice : d.AliceSide peers s₀ s
  bob : d.BobBefore peers bundle base ∨ ∃ t c, d.BobAfter peers base s₀ s t c

end Account

section Lemmas

variable [LinearOrder Pub] [DecidableEq B] {peers : Peers Addr Priv Pub B}
  {bundle : PreKeyBundle Pub B} {base : Pub} {s₀ s s' t t' : Session Priv Pub B}
  {c : Stream Pub B} {d d' : Introduction Addr Priv Pub B}

/-- Bob has accepted a message of Alice's once there was a delivery. -/
theorem BobAfter.accepted_ne_nil (h : d.BobAfter peers base s₀ s t c)
    (hf : d.forth.Follows peers.provider s₀.stream) : d.forth.accepted ≠ [] := by
  obtain ⟨e, earlier, he⟩ := List.exists_cons_of_ne_nil h.deliveries
  have hmem : d.forth.Delivered e.1 := by
    rw [Lane.Delivered, he]
    exact List.mem_cons_self
  exact List.ne_nil_of_mem (hf.served.accepted hmem)

/-- **Nothing has happened to the sessions.** -/
theorem Sound.idle (h : d.Sound peers bundle base s₀ s) {x : Party} {w : World Addr Priv Pub B}
    (hw : peers.Idle x (d.world x) w) : (d.put x w).Sound peers bundle base s₀ s := by
  have hidle : ∀ y, peers.Idle y (d.world y) ((d.put x w).world y) := by
    intro y
    rcases eq_or_ne y x with rfl | hy
    · rw [put_world_self]
      exact hw
    · rw [put_world_of_ne d hy]
      exact ⟨rfl, rfl, le_rfl⟩
  refine ⟨h.forth, h.preKey, h.later, ?_, ?_⟩
  · obtain ⟨previous, hcurrent⟩ := h.alice.current
    exact ⟨⟨previous, hcurrent.congr (hidle .alice).record⟩, h.alice.inRange,
      by rw [(hidle .alice).identity]; exact h.alice.identity, h.alice.waiting, h.alice.answered⟩
  · rcases h.bob with hb | ⟨t, c, hb⟩
    · obtain ⟨record, hrecord, hnew⟩ := hb.record
      exact Or.inl ⟨⟨record, (hidle .bob).record.trans hrecord, hnew⟩, hb.deliveries, hb.back,
        hb.onward, fun key hkey => (hb.old key hkey).mono (hidle .bob).drawn⟩
    · obtain ⟨previous, hcurrent, hnew⟩ := hb.current
      exact Or.inr ⟨t, c, ⟨previous, hcurrent.congr (hidle .bob).record, hnew⟩, hb.inRange,
        hb.baseKey, hb.deliveries, hb.reads, hb.acknowledged, hb.follows, hb.sending, hb.signal,
        hb.answers⟩

/-! ## 4. The acts

What Alice does is no concern of Bob's, as long as she keeps reading. -/

omit [LinearOrder Pub] [DecidableEq B] in
theorem BobBefore.of_eq (h : d.BobBefore peers bundle base) (hworld : d'.world .bob = d.world .bob)
    (hforth : d'.forth.deliveries = d.forth.deliveries) (hback : d'.back = d.back)
    (honward : d'.onward = d.onward) : d'.BobBefore peers bundle base :=
  ⟨by rw [hworld]; exact h.record, hforth.trans h.deliveries, hback.trans h.back,
    honward.trans h.onward, by rw [hworld]; exact h.old⟩

theorem BobAfter.of_eq (h : d.BobAfter peers base s₀ s t c) (hworld : d'.world .bob = d.world .bob)
    (hforth : d'.forth.deliveries = d.forth.deliveries) (hback : d'.back = d.back)
    (honward : d'.onward = d.onward) (hreads : s'.Reads peers.provider c d.back.accepted) :
    d'.BobAfter peers base s₀ s' t c where
  current := by rw [hworld]; exact h.current
  inRange := h.inRange
  baseKey := h.baseKey
  deliveries := by rw [hforth]; exact h.deliveries
  reads := by rw [Lane.accepted, hforth]; exact h.reads
  acknowledged := h.acknowledged
  follows := by rw [hback]; exact h.follows
  sending := by rw [honward, hback]; exact h.sending
  signal := by rw [hback]; exact h.signal
  answers := by rw [hback]; exact hreads

variable [DecidableEq Addr] {key : Priv} {p : B}

omit [LinearOrder Pub] [DecidableEq B] [DecidableEq Addr] in
/-- What a session sends before it is acknowledged introduces it. -/
theorem preKey_of_wrap (hs₀ : peers.Introduced bundle key s₀) {k : Nat} {m : SignalMessage Pub B}
    {c : CiphertextMessage Pub B} (h : (s₀.numbered k).wrap m = .ok c) :
    ∃ m', c = .preKey m' ∧
      m'.Introduces bundle (peers.provider.publicKey key) s₀.localIdentity := by
  obtain ⟨store, identity, signedPreKey, sending, -, -, -, rfl⟩ := hs₀
  cases h
  exact ⟨_, rfl, rfl, rfl, rfl, rfl, rfl⟩

omit [LinearOrder Pub] [DecidableEq B] [DecidableEq Addr] in
/-- What an acknowledged session sends is a signal message. -/
theorem signal_of_wrap (hs : s.pendingPreKey = none) {m : SignalMessage Pub B}
    {c : CiphertextMessage Pub B} (h : s.wrap m = .ok c) : ∃ m', c = .signal m' := by
  rw [Session.wrap, hs] at h
  cases h
  exact ⟨m, rfl⟩

/-- The condition on an encryption, for the session that sends. -/
theorem next_of_bounded {x : Party} {w w' : World Addr Priv Pub B} {c : CiphertextMessage Pub B}
    (hbounded : (((Command.encrypt p).action (peers.cipher x)).step (peers.context x) w).Bounded)
    (hcall : peers.call x (.encrypt p) w = (.ok (.ciphertext c), w'))
    (hsend : s.send peers.provider p = .ok (c, s')) (hrange : s.InRange) :
    s.sender.next + 1 < 2 ^ 32 := by
  rw [← Session.counter_of_send hsend hrange.sender]
  refine hbounded c.inner.counter ?_
  rw [Command.step_action hcall]
  rfl

/-- **Alice encrypts.** -/
theorem Sound.write (hs₀ : peers.Introduced bundle key s₀)
    (h : d.Sound peers bundle (peers.provider.publicKey key) s₀ s)
    (ha : d.Allows peers bundle (.write p)) :
    ∃ s', (d.step peers (.write p)).Sound peers bundle (peers.provider.publicKey key) s₀ s' := by
  rcases hcall : peers.call .alice (.encrypt p) (d.world .alice) with ⟨r, w⟩
  rcases Peers.call_encrypt_cases hcall with ⟨e, rfl⟩ | ⟨c, rfl⟩
  · refine ⟨s, ?_⟩
    rw [step, hcall]
    exact h.idle (Peers.idle_of_error hcall)
  obtain ⟨previous, hcurrent⟩ := h.alice.current
  obtain ⟨hsend, hcurrent', hidentity⟩ := Peers.call_encrypt_ok hcurrent hcall
  have hnext := next_of_bounded ha hcall hsend h.alice.inRange
  have hrange := Session.inRange_sent h.alice.inRange hnext
  have hown := (congrArg EcKeyPair.publicKey hidentity).trans h.alice.identity
  obtain ⟨ciphertext, -, hwrap, -⟩ := Session.send_ok_iff.1 hsend
  -- Bob has nothing to do with it
  have hbob : ∀ d' : Introduction Addr Priv Pub B, d'.world .bob = d.world .bob →
      d'.forth.deliveries = d.forth.deliveries → d'.back = d.back → d'.onward = d.onward →
      d'.BobBefore peers bundle (peers.provider.publicKey key) ∨
        ∃ t c, d'.BobAfter peers (peers.provider.publicKey key) s₀ s.sent t c := by
    intro d' hworld hforth hback honward
    rcases h.bob with hb | ⟨t, c, hb⟩
    · exact Or.inl (hb.of_eq hworld hforth hback honward)
    · exact Or.inr ⟨t, c, hb.of_eq hworld hforth hback honward hb.answers.sent⟩
  refine ⟨s.sent, ?_⟩
  rw [step, hcall]
  dsimp only
  by_cases hback : d.back.accepted = []
  · obtain ⟨⟨k, rfl⟩, hbelow⟩ := h.alice.waiting hback
    rw [wrote, if_pos hback]
    have hforth : d.forth.Follows peers.provider (s₀.numbered k).stream := h.forth
    obtain ⟨hforth', hbelow'⟩ := hforth.send hbelow hsend hnext
    refine ⟨hforth', fun e he => ?_, h.later, ?_, hbob _ rfl rfl rfl rfl⟩
    · rcases List.mem_append.1 he with he | he
      · exact h.preKey e he
      · rw [List.mem_singleton.1 he]
        exact preKey_of_wrap hs₀ hwrap
    · exact ⟨⟨previous, hcurrent'⟩, hrange, hown, fun _ => ⟨⟨k + 1, rfl⟩, hbelow'⟩,
        fun hne => absurd hback hne⟩
  · rw [wrote, if_neg hback]
    refine ⟨h.forth, h.preKey, fun c' hc' => ?_, ?_, hbob _ rfl rfl rfl rfl⟩
    · rcases List.mem_append.1 hc' with hc' | hc'
      · exact h.later c' hc'
      · rw [List.mem_singleton.1 hc']
        exact signal_of_wrap (h.alice.answered hback) hwrap
    · exact ⟨⟨previous, hcurrent'⟩, hrange, hown, fun hnil => absurd hnil hback,
        fun _ => h.alice.answered hback⟩

omit [DecidableEq Addr] in
/-- Bob's side when Bob has sent an answer. -/
theorem BobAfter.sent {w : World Addr Priv Pub B} {m : CiphertextMessage Pub B}
    {previous : List (SessionState Priv Pub B)} (h : d.BobAfter peers base s₀ s t c)
    (honward : d.onward = false)
    (hcurrent : w.Current peers.provider (peers.address .bob) t.sent previous)
    (hprevious : ∀ state ∈ previous, state.aliceBaseKey ≠ some base)
    (hsend : t.send peers.provider p = .ok (m, t.sent)) (hnext : t.sender.next + 1 < 2 ^ 32) :
    ({ d with back := d.back.send p m }.put .bob w).BobAfter peers base s₀ s t.sent c := by
  obtain ⟨rfl, hbelow⟩ := h.sending honward
  obtain ⟨hfollows, hbelow⟩ := h.follows.send hbelow hsend hnext
  obtain ⟨ciphertext, -, hwrap, -⟩ := Session.send_ok_iff.1 hsend
  refine ⟨⟨previous, ?_, hprevious⟩, Session.inRange_sent h.inRange hnext, h.baseKey, h.deliveries,
    h.reads.sent, h.acknowledged, hfollows, fun _ => ⟨rfl, hbelow⟩, fun e he => ?_, h.answers⟩
  · rw [put_world_self]
    exact hcurrent
  · rcases List.mem_append.1 he with he | he
    · exact h.signal e he
    · rw [List.mem_singleton.1 he]
      exact signal_of_wrap h.acknowledged hwrap

omit [DecidableEq Addr] in
/-- Bob's side when Bob has sent something in a later round. -/
theorem BobAfter.sent_onward {w : World Addr Priv Pub B}
    {previous : List (SessionState Priv Pub B)} (h : d.BobAfter peers base s₀ s t c)
    (honward : d.onward = true)
    (hcurrent : w.Current peers.provider (peers.address .bob) t.sent previous)
    (hprevious : ∀ state ∈ previous, state.aliceBaseKey ≠ some base)
    (hnext : t.sender.next + 1 < 2 ^ 32) :
    (d.put .bob w).BobAfter peers base s₀ s t.sent c := by
  refine ⟨⟨previous, ?_, hprevious⟩, Session.inRange_sent h.inRange hnext, h.baseKey, h.deliveries,
    h.reads.sent, h.acknowledged, h.follows, fun hfalse => ?_, h.signal, h.answers⟩
  · rw [put_world_self]
    exact hcurrent
  · exact absurd (hfalse.symm.trans honward) Bool.false_ne_true

omit [DecidableEq Addr] [LinearOrder Pub] [DecidableEq B] in
/-- Alice's side when Bob has done something. -/
theorem AliceSide.of_eq (h : d.AliceSide peers s₀ s) (hworld : d'.world .alice = d.world .alice)
    (hforth : d'.forth.sent = d.forth.sent) (hback : d'.back.accepted = d.back.accepted) :
    d'.AliceSide peers s₀ s where
  current := by rw [hworld]; exact h.current
  inRange := h.inRange
  identity := by rw [hworld]; exact h.identity
  waiting := by rw [hback, Lane.Below, hforth]; exact h.waiting
  answered := by rw [hback]; exact h.answered

/-- **Bob encrypts.** -/
theorem Sound.reply (h : d.Sound peers bundle base s₀ s)
    (ha : d.Allows peers bundle (.reply p)) :
    (d.step peers (.reply p)).Sound peers bundle base s₀ s := by
  rcases hcall : peers.call .bob (.encrypt p) (d.world .bob) with ⟨r, w⟩
  rcases Peers.call_encrypt_cases hcall with ⟨e, rfl⟩ | ⟨c, rfl⟩
  · rw [step, hcall]
    exact h.idle (Peers.idle_of_error hcall)
  rw [step, hcall]
  dsimp only
  rcases h.bob with hb | ⟨t, c', hb⟩
  · -- with an older session, if there is one
    have hnil : d.forth.accepted = [] := by rw [Lane.accepted, hb.deliveries]; rfl
    obtain ⟨record, hrecord, hnew⟩ := hb.record
    obtain ⟨state', hrecord', hbase, hdrawn⟩ := Peers.call_encrypt_record hrecord hcall
    rw [replied, if_pos (Or.inl hnil)]
    refine ⟨h.forth, h.preKey, h.later, h.alice.of_eq rfl rfl rfl,
      Or.inl ⟨⟨_, hrecord', fun state hstate => ?_⟩, hb.deliveries, hb.back, hb.onward,
        fun key hkey => ?_⟩⟩
    · rcases List.mem_cons.1 hstate with rfl | hstate
      · rw [hbase]
        exact hnew _ List.mem_cons_self
      · exact hnew state (List.mem_cons_of_mem _ hstate)
    · exact (hb.old key hkey).mono hdrawn
  · obtain ⟨previous, hcurrent, hprevious⟩ := hb.current
    obtain ⟨hsend, hcurrent', -⟩ := Peers.call_encrypt_ok hcurrent hcall
    have hnext := next_of_bounded ha hcall hsend hb.inRange
    cases honward : d.onward with
    | false =>
      rw [replied, if_neg (by simp [hb.accepted_ne_nil h.forth, honward])]
      exact ⟨h.forth, h.preKey, h.later, h.alice.of_eq rfl rfl rfl,
        Or.inr ⟨t.sent, c', hb.sent honward hcurrent' hprevious hsend hnext⟩⟩
    | true =>
      rw [replied, if_pos (Or.inr honward)]
      exact ⟨h.forth, h.preKey, h.later, h.alice.of_eq rfl rfl rfl,
        Or.inr ⟨t.sent, c', hb.sent_onward honward hcurrent' hprevious hnext⟩⟩

/-! The limits of a delivery, for the window of the reader. -/

omit [DecidableEq Addr] [DecidableEq B] in
theorem limits_of_within_nil {y : Party} {lane : Lane Pub B} {c : CiphertextMessage Pub B}
    (hnil : lane.accepted = []) (h : d.Within peers y lane c) :
    lane.Delivered c ∨ c.inner.counter.toNat ≤
      (Window.replay maxMessageKeys lane.accepted).next + Session.reach ∧
        c.inner.counter.toNat ∉ Window.evicted maxMessageKeys lane.accepted := by
  rw [Within, chainIndex, if_pos hnil] at h
  rw [hnil] at h ⊢
  exact h

omit [DecidableEq Addr] [DecidableEq B] in
theorem limits_of_within {y : Party} {lane : Lane Pub B} {c : CiphertextMessage Pub B}
    {stream : Stream Pub B} {previous : List (SessionState Priv Pub B)}
    (hcurrent : (d.world y).Current peers.provider (peers.address y) s previous)
    (hrange : s.InRange) (hreads : s.Reads peers.provider stream lane.accepted)
    (hkey : c.inner.senderRatchetKey = stream.key) (h : d.Within peers y lane c) :
    lane.Delivered c ∨ c.inner.counter.toNat ≤
      (Window.replay maxMessageKeys lane.accepted).next + Session.reach ∧
        c.inner.counter.toNat ∉ Window.evicted maxMessageKeys lane.accepted := by
  by_cases hnil : lane.accepted = []
  · exact limits_of_within_nil hnil h
  have hchain := hreads.chainFor hnil
  have hlt : (Window.replay maxMessageKeys lane.accepted).next < 2 ^ 32 :=
    hrange.receivers _ (Session.chainFor_mem hchain).1
  have hindex : d.chainIndex peers y lane c.inner =
      (Window.replay maxMessageKeys lane.accepted).next := by
    rw [chainIndex, if_neg hnil, World.receiverChainKey, load_eq, hcurrent]
    dsimp only
    rw [getReceiverChainKey_toState, hkey, hchain]
    exact toNat_ofNat32 hlt
  rw [Within, hindex] at h
  exact h

/-- **Alice is handed an answer.** -/
theorem Sound.answer (hrng : ∀ n, ∃ k, (peers.rng .alice).privateKey n = .ok k)
    (h : d.Sound peers bundle base s₀ s) {i : Nat} (ha : d.Allows peers bundle (.answer i)) :
    ∃ s', (d.step peers (.answer i)).Sound peers bundle base s₀ s' := by
  cases he : d.back.sent[i]? with
  | none =>
    refine ⟨s, ?_⟩
    rw [step, he]
    exact h
  | some e =>
    have hmem : e ∈ d.back.sent := List.mem_of_getElem? he
    rcases h.bob with hb | ⟨t, c, hb⟩
    · rw [hb.back] at hmem
      cases hmem
    obtain ⟨previous, hcurrent⟩ := h.alice.current
    obtain ⟨m, hm⟩ := hb.signal e hmem
    have hcarried := hb.follows.carried e hmem
    have hlimits := limits_of_within hcurrent h.alice.inRange hb.answers hcarried.key (ha e he)
    have hcommand : e.2.command = .decryptSignal e.2.inner := by rw [hm]; rfl
    rw [step, he]
    dsimp only
    rw [hcommand]
    rcases hb.answers.deliver hb.follows hmem hrng hlimits (d.world .alice).drawn with
      ⟨hnew, s', n', hreceive, hreads⟩ | ⟨hold, n', hreceive⟩
    · obtain ⟨w, hcall, hcurrent', hidentity⟩ :=
        Peers.call_decryptSignal_ok hcurrent h.alice.inRange hreceive
      have hframe := Session.receive_frame hreceive
      refine ⟨s', h.forth, h.preKey, h.later, ?_, Or.inr ⟨t, c, ?_⟩⟩ <;> rw [hcall]
      · refine ⟨⟨previous, ?_⟩, Session.inRange_receive h.alice.inRange hcarried.bounded hreceive,
          ?_, fun hnil => ?_, fun _ => hframe.pendingPreKey⟩
        · exact hcurrent'
        · exact (congrArg EcKeyPair.publicKey hidentity).trans h.alice.identity
        · cases hnil
      · exact ⟨hb.current, hb.inRange, hb.baseKey, hb.deliveries, hb.reads, hb.acknowledged,
          hb.follows.deliver_first hmem hnew, hb.sending, hb.signal, hreads⟩
    · obtain ⟨w, hcall⟩ := Peers.call_decryptSignal_duplicate hcurrent h.alice.inRange hreceive
      have hidle := h.idle (Peers.idle_of_error hcall)
      refine ⟨s, h.forth, h.preKey, h.later, ?_, Or.inr ⟨t, c, ?_⟩⟩ <;> rw [hcall]
      · exact hidle.alice.of_eq rfl rfl rfl
      · exact ⟨hb.current, hb.inRange, hb.baseKey, hb.deliveries, hb.reads, hb.acknowledged,
          hb.follows.deliver_again hmem hold, hb.sending, hb.signal, hb.answers⟩

omit [LinearOrder Pub] [DecidableEq B] [DecidableEq Addr] in
/-- The session that a pre-key message of Alice's sets up matches hers. -/
theorem exists_matching (hs₀ : peers.Introduced bundle key s₀) {w : World Addr Priv Pub B}
    (hw : w.Offers peers.provider bundle) {m : PreKeySignalMessage Pub B}
    (hm : m.Introduces bundle (peers.provider.publicKey key) s₀.localIdentity) :
    ∃ signedPreKey oneTimePreKey a b sending,
      w.signedPreKeys m.signedPreKeyId = some signedPreKey ∧
      loadOneTimePreKey m.preKeyId w = (.ok oneTimePreKey, w) ∧
      Matching peers.provider a b ∧ a.theirRatchetKey ∈ bundle.signedPreKeyPublic ∧
      s₀.SameKeys (Session.alice peers.provider a sending) ∧
      (Session.responded peers.provider w.toStore signedPreKey oneTimePreKey m).SameKeys
        (Session.bob peers.provider b) := by
  obtain ⟨store, identity, signed, sending, hidentity, hsigned, hmatched, rfl⟩ := hs₀
  obtain ⟨pair, hpair, hpairMatched, hpairKey⟩ := hw.signed
  -- the one-time pre key, if the bundle has one
  obtain ⟨oneTimePreKey, hload, hpublic, honeTime⟩ : ∃ oneTimePreKey,
      loadOneTimePreKey m.preKeyId w = (.ok oneTimePreKey, w) ∧
      bundle.preKeyPublic = oneTimePreKey.map EcKeyPair.publicKey ∧
      ∀ k ∈ oneTimePreKey, k.Matched peers.provider := by
    rw [hm.preKeyId]
    cases hkey : bundle.preKeyPublic with
    | none => exact ⟨none, rfl, rfl, fun k hk => by cases hk⟩
    | some theirs =>
      obtain ⟨pair, hpair, hmatched, rfl⟩ := hw.oneTime theirs hkey
      refine ⟨some pair, loadOneTimePreKey_of_some hpair, rfl, fun k hk => ?_⟩
      cases hk
      exact hmatched
  have hsame : signed = pair.publicKey := Option.some.inj (hsigned.symm.trans hpairKey)
  have hpeer : identity = w.identityKeyPair.publicKey :=
    Option.some.inj (hidentity.symm.trans hw.identity)
  refine ⟨pair, oneTimePreKey,
    bundleParameters store.identityKeyPair bundle identity signed (peers.provider.pair key),
    responseParameters w.identityKeyPair pair oneTimePreKey m, sending,
    by rw [hm.signedPreKeyId]; exact hpair, hload, ?_, hsigned, ⟨rfl, rfl, rfl, rfl, rfl⟩,
    ⟨rfl, rfl, rfl, rfl, rfl⟩⟩
  exact ⟨hmatched, rfl, hw.identityMatched, hpairMatched, honeTime, hpairMatched, hpeer, hsame,
    hpublic, hsame, hm.identityKey, hm.baseKey⟩

omit [DecidableEq Addr] in
/-- Bob trusts the identity in a message of Alice's. -/
theorem Sound.trusted (h : d.Sound peers bundle base s₀ s) (htrust : d.Trusts peers)
    {m : PreKeySignalMessage Pub B} (hm : m.Introduces bundle base s₀.localIdentity) :
    peers.trusted .bob (peers.address .bob) ((d.world .bob).identities (peers.address .bob))
      m.identityKey = true := by
  rw [hm.identityKey, ← h.alice.identity]
  exact htrust

/-- **The first delivery** sets up Bob's session. -/
theorem Sound.deliver_first (hrng : ∀ n, ∃ k, (peers.rng .bob).privateKey n = .ok k)
    (hs₀ : peers.Introduced bundle key s₀)
    (h : d.Sound peers bundle (peers.provider.publicKey key) s₀ s)
    (hb : d.BobBefore peers bundle (peers.provider.publicKey key)) {i : Nat}
    {e : B × CiphertextMessage Pub B} (he : d.forth.sent[i]? = some e)
    (ha : d.Allows peers bundle (.deliver i)) :
    (d.step peers (.deliver i)).Sound peers bundle (peers.provider.publicKey key) s₀ s := by
  have hmem : e ∈ d.forth.sent := List.mem_of_getElem? he
  obtain ⟨hwithin, htrust, hoffers⟩ := ha e he
  obtain ⟨m, hm, hintroduces⟩ := h.preKey e hmem
  obtain ⟨record, hrecord, hunknown⟩ := hb.record
  obtain ⟨signedPreKey, oneTimePreKey, a, b, sending, hsigned, honce, hmatching, hratchet, hsame,
    hsame'⟩ := exists_matching hs₀ (hoffers hb.deliveries) hintroduces
  have hnil : d.forth.accepted = [] := by rw [Lane.accepted, hb.deliveries]; rfl
  have hnew : ¬ d.forth.Delivered e.2 := by
    rw [Lane.Delivered, hb.deliveries]
    exact List.not_mem_nil
  -- the builder puts a new session in front
  have hnot : ¬ record.hasSessionState m.version.toUInt32 m.baseKey = true := by
    rw [hintroduces.baseKey]
    exact SessionRecord.not_hasSessionState hunknown _
  have hrecord' : (d.world .bob).record (peers.context .bob).provider (peers.address .bob) =
      .ok record := hrecord
  have hbuilt := processV3_of_new hrecord' hnot hsigned honce
  have hreadable := (readable_of_record hrecord).front
    (Session.responded peers.provider (d.world .bob).toStore signedPreKey oneTimePreKey m)
  -- which reads the message
  have hreads := hmatching.reads_alice hsame hsame'
  rw [← hnil] at hreads
  obtain ⟨-, t, n, hreceive, hreads'⟩ := (hreads.deliver h.forth hmem hrng
    (limits_of_within_nil hnil hwithin) (d.world .bob).drawn).resolve_right
    fun hold => hnew hold.1
  have hcarried := h.forth.carried e hmem
  have hinner : e.2.inner = m.message := by rw [hm]; rfl
  have hframe := Session.receive_frame hreceive
  rw [hinner] at hreceive
  obtain ⟨w, hcall, hcurrent⟩ := Peers.call_decryptPreKey_ok hrecord
    (h.trusted htrust hintroduces) hbuilt hreadable rfl (Session.inRange_responded ..) hreceive
  -- and answers with a key that it has drawn for it
  have hkey : m.message.senderRatchetKey = s₀.stream.key := by rw [← hinner]; exact hcarried.key
  obtain ⟨ours, hours, hsender⟩ := sender_of_first hsame' hkey hreceive
  have hfresh : peers.provider.publicKey ours ≠ a.theirRatchetKey :=
    hb.old _ hratchet _ le_rfl ours hours
  have hback : d.back.accepted = [] := by rw [hb.back]; rfl
  have hanswers : s.Reads peers.provider t.stream d.back.accepted := by
    obtain ⟨⟨k, rfl⟩, -⟩ := h.alice.waiting hback
    have hreads₀ := hmatching.reads_answer hsame hsame' hfresh hframe.localIdentity
      hframe.remoteIdentity hsender
    rw [hback]
    exact ⟨hreads₀.own, hreads₀.peer, hreads₀.chain⟩
  have hcommand : e.2.command = .decryptPreKey m := by rw [hm]; rfl
  rw [step, he]
  dsimp only
  rw [hcommand, hcall]
  refine ⟨h.forth.deliver_first hmem hnew, h.preKey, h.later, h.alice.of_eq rfl rfl rfl,
    Or.inr ⟨t, t.stream, ⟨_, hcurrent, fun state hstate =>
      hunknown state (mem_previousStates_makeRoom hstate)⟩, ?_, ?_, List.cons_ne_nil _ _, hreads',
      hframe.pendingPreKey, ?_, fun _ => ⟨rfl, ?_⟩, ?_, hanswers⟩⟩
  · refine Session.inRange_receive (Session.inRange_responded ..) ?_ hreceive
    rw [← hinner]
    exact hcarried.bounded
  · exact hframe.aliceBaseKey.trans (congrArg some hintroduces.baseKey)
  all_goals
    dsimp only
    rw [show (d.put .bob w).back = Lane.empty from hb.back]
  · exact Lane.follows_empty ..
  · exact fun e he => by cases he
  · exact fun e he => by cases he

/-- **A further delivery** finds the session. -/
theorem Sound.deliver_known (hrng : ∀ n, ∃ k, (peers.rng .bob).privateKey n = .ok k)
    (h : d.Sound peers bundle base s₀ s) (hb : d.BobAfter peers base s₀ s t c) {i : Nat}
    {e : B × CiphertextMessage Pub B} (he : d.forth.sent[i]? = some e)
    (ha : d.Allows peers bundle (.deliver i)) :
    (d.step peers (.deliver i)).Sound peers bundle base s₀ s := by
  have hmem : e ∈ d.forth.sent := List.mem_of_getElem? he
  obtain ⟨hwithin, htrust, -⟩ := ha e he
  obtain ⟨m, hm, hintroduces⟩ := h.preKey e hmem
  obtain ⟨previous, hcurrent, hprevious⟩ := hb.current
  have hcarried := h.forth.carried e hmem
  have hinner : e.2.inner = m.message := by rw [hm]; rfl
  have hcommand : e.2.command = .decryptPreKey m := by rw [hm]; rfl
  -- the builder finds the base key
  have hknown : (⟨t.toState peers.provider, previous, false⟩ :
      SessionRecord Priv Pub B).hasSessionState m.version.toUInt32 m.baseKey = true := by
    refine List.any_eq_true.2 ⟨_, List.mem_cons_self, decide_eq_true ⟨?_, ?_⟩⟩
    · rw [hintroduces.version]
      rfl
    · rw [hintroduces.baseKey]
      exact hb.baseKey
  have hbuilt : sessionBuilderProcessPreKeySignalMessageV3 (peers.context .bob) _ m
      (d.world .bob) = _ := processV3_of_known hknown
  have htrusted := h.trusted htrust hintroduces
  have hlimits := limits_of_within hcurrent hb.inRange hb.reads hcarried.key hwithin
  rw [step, he]
  dsimp only
  rw [hcommand]
  rcases hb.reads.deliver h.forth hmem hrng hlimits (d.world .bob).drawn with
    ⟨hnew, t', n, hreceive, hreads⟩ | ⟨hold, n, hreceive⟩
  · have hframe := Session.receive_frame hreceive
    have hrange := Session.inRange_receive hb.inRange hcarried.bounded hreceive
    have hsender : t'.sender = t.sender := by
      rcases sender_of_receive hreceive with ⟨-, hsender⟩ | ⟨hnone, -⟩
      · exact hsender
      · rw [hcarried.key, hb.reads.chainFor (hb.accepted_ne_nil h.forth)] at hnone
        cases hnone
    have hstream : t'.stream = t.stream := by
      rw [Session.stream, hsender, hframe.localIdentity, hframe.remoteIdentity]
      rfl
    rw [hinner] at hreceive
    obtain ⟨w, hcall, hcurrent'⟩ := Peers.call_decryptPreKey_ok hcurrent htrusted hbuilt
      (readable_of_record hcurrent) rfl hb.inRange hreceive
    rw [hcall]
    refine ⟨h.forth.deliver_first hmem hnew, h.preKey, h.later, h.alice.of_eq rfl rfl rfl,
      Or.inr ⟨t', c, ⟨previous, hcurrent', hprevious⟩, hrange,
        hframe.aliceBaseKey.trans hb.baseKey, List.cons_ne_nil _ _, hreads, hframe.pendingPreKey,
        hb.follows, ?_, hb.signal, hb.answers⟩⟩
    rw [hstream, hsender]
    exact hb.sending
  · rw [hinner] at hreceive
    obtain ⟨w, hcall⟩ := Peers.call_decryptPreKey_duplicate hcurrent htrusted hbuilt rfl hb.inRange
      hreceive
    have hrecord : w.record peers.provider (peers.address .bob) = _ :=
      (Peers.idle_of_error hcall).record
    rw [hcall]
    exact ⟨h.forth.deliver_again hmem hold, h.preKey, h.later, h.alice.of_eq rfl rfl rfl,
      Or.inr ⟨t, c, ⟨previous, hcurrent.congr hrecord, hprevious⟩, hb.inRange, hb.baseKey,
        List.cons_ne_nil _ _, hb.reads, hb.acknowledged, hb.follows, hb.sending, hb.signal,
        hb.answers⟩⟩

/-- A message of a later round, for the session that is current: it receives the message and
stays a reader of the first ones. -/
theorem Furthers.receive {x : Party} {m : SignalMessage Pub B}
    (hm : d.Furthers peers x m) {previous : List (SessionState Priv Pub B)}
    (hcurrent : (d.world x).Current peers.provider (peers.address x) s previous)
    (hrange : s.InRange) (hreads : s.Reads peers.provider c (d.inbound x).accepted)
    (hfollows : (d.inbound x).Follows peers.provider c) :
    ∃ p s' n w, s.receive peers.provider (peers.rng x) m (d.world x).drawn = (.ok (p, s'), n) ∧
      peers.call x (.decryptSignal m) (d.world x) = (.ok (.plaintext p), w) ∧
      w.Current peers.provider (peers.address x) s' previous ∧
      w.identityKeyPair = (d.world x).identityKeyPair ∧ s'.InRange ∧
      s'.Reads peers.provider c (d.inbound x).accepted := by
  have haccepts := hm.accepts
  rw [currentAccepts, hcurrent] at haccepts
  dsimp only at haccepts
  rw [decryptFromState_toState (peers.rng x) hrange] at haccepts
  rcases hr : s.receive peers.provider (peers.rng x) m (d.world x).drawn with ⟨e | ⟨p, s'⟩, n⟩
  · rw [Op.bind_of_error hr] at haccepts
    cases haccepts
  obtain ⟨w, hcall, hcurrent', hidentity⟩ := Peers.call_decryptSignal_ok hcurrent hrange hr
  refine ⟨p, s', n, w, rfl, hcall, hcurrent', hidentity,
    Session.inRange_receive hrange hm.bounded hr, ?_⟩
  -- some message of the chain was sent, as one was accepted
  obtain ⟨counter, hcounter⟩ := List.exists_mem_of_ne_nil _ hm.begun
  obtain ⟨message, hdelivered, -⟩ := Lane.exists_of_mem_accepted hcounter
  obtain ⟨q, hsent⟩ := hfollows.served.exists_sent hdelivered
  have hkey := (hfollows.carried _ hsent).key
  refine hreads.other hm.begun hr (hkey ▸ hm.other _ hsent) fun hnone => ?_
  have hkept := hm.kept _ hsent
  rw [hcall, hkey, World.receiverChainKey, load_eq, hcurrent'] at hkept
  dsimp only at hkept
  rw [getReceiverChainKey_toState, hnone] at hkept
  cases hkept

/-- **A message of a later round.** -/
theorem Sound.follow (h : d.Sound peers bundle base s₀ s) {x : Party} {m : SignalMessage Pub B}
    (hm : d.Furthers peers x m) :
    ∃ s', (d.step peers (.follow x m)).Sound peers bundle base s₀ s' := by
  have hbegun := hm.begun
  cases x with
  | alice =>
    rcases h.bob with hb | ⟨t, c, hb⟩
    · rw [inbound, hb.back] at hbegun
      exact absurd rfl hbegun
    obtain ⟨previous, hcurrent⟩ := h.alice.current
    obtain ⟨p, s', n, w, hreceive, hcall, hcurrent', hidentity, hrange, hreads⟩ :=
      hm.receive hcurrent h.alice.inRange hb.answers hb.follows
    refine ⟨s', ?_⟩
    rw [step, hcall]
    refine ⟨h.forth, h.preKey, h.later, ⟨⟨previous, ?_⟩, hrange, ?_, fun hnil => ?_, fun _ => ?_⟩,
      Or.inr ⟨t, c, hb.of_eq rfl rfl rfl (Bool.or_false _) hreads⟩⟩
    · exact hcurrent'
    · exact (congrArg EcKeyPair.publicKey hidentity).trans h.alice.identity
    · exact absurd hnil hbegun
    · exact (Session.receive_frame hreceive).pendingPreKey
  | bob =>
    rcases h.bob with hb | ⟨t, c, hb⟩
    · rw [inbound, Lane.accepted, hb.deliveries] at hbegun
      exact absurd rfl hbegun
    obtain ⟨previous, hcurrent, hprevious⟩ := hb.current
    obtain ⟨p, t', n, w, hreceive, hcall, hcurrent', -, hrange, hreads⟩ :=
      hm.receive hcurrent hb.inRange hb.reads h.forth
    have hframe := Session.receive_frame hreceive
    refine ⟨s, ?_⟩
    rw [step, hcall]
    refine ⟨h.forth, h.preKey, h.later, h.alice.of_eq rfl rfl rfl,
      Or.inr ⟨t', c, ⟨previous, hcurrent', hprevious⟩, hrange,
        hframe.aliceBaseKey.trans hb.baseKey, hb.deliveries, hreads, hframe.pendingPreKey,
        hb.follows, fun hfalse => ?_, hb.signal, hb.answers⟩⟩
    exact absurd (hfalse.symm.trans (Bool.or_true _)) Bool.false_ne_true

/-- **Every act that meets the conditions keeps the account.** -/
theorem Sound.step (hrng : ∀ x n, ∃ k, (peers.rng x).privateKey n = .ok k)
    (hs₀ : peers.Introduced bundle key s₀)
    (h : d.Sound peers bundle (peers.provider.publicKey key) s₀ s)
    (act : IntroductionAct Addr Priv Pub B) (ha : d.Allows peers bundle act) :
    ∃ s', (d.step peers act).Sound peers bundle (peers.provider.publicKey key) s₀ s' := by
  cases act with
  | write p => exact h.write hs₀ ha
  | deliver i =>
    refine ⟨s, ?_⟩
    cases he : d.forth.sent[i]? with
    | none =>
      rw [Introduction.step, he]
      exact h
    | some e =>
      rcases h.bob with hb | ⟨t, c, hb⟩
      · exact h.deliver_first (hrng .bob) hs₀ hb he ha
      · exact h.deliver_known (hrng .bob) hb he ha
  | reply p => exact ⟨s, h.reply ha⟩
  | answer i => exact h.answer (hrng .alice) ha
  | follow x m => exact h.follow ha
  | stray x c =>
    obtain ⟨e, he⟩ := ha
    exact ⟨s, h.idle (Peers.idle_of_error (Prod.ext he rfl))⟩
  | configure x preKeys signedPreKeys identities =>
    exact ⟨s, h.idle ⟨World.record_congr rfl, rfl, le_rfl⟩⟩

/-- **So does every run.** -/
theorem Sound.run (hrng : ∀ x n, ∃ k, (peers.rng x).privateKey n = .ok k)
    (hs₀ : peers.Introduced bundle key s₀) (acts : List (IntroductionAct Addr Priv Pub B)) :
    ∀ {d : Introduction Addr Priv Pub B} {s : Session Priv Pub B},
      d.Sound peers bundle (peers.provider.publicKey key) s₀ s → d.Regular peers bundle acts →
      ∃ s', (d.run peers acts).Sound peers bundle (peers.provider.publicKey key) s₀ s' := by
  induction acts with
  | nil => exact fun h _ => ⟨_, h⟩
  | cons act acts ih =>
    intro d s h hr
    obtain ⟨s', h'⟩ := h.step hrng hs₀ act hr.1
    exact ih h' hr.2

/-- **The start is in order.** -/
theorem Started.sound {w : World Addr Priv Pub B} (h : d.Started peers bundle w key) :
    ∃ s₀, peers.Introduced bundle key s₀ ∧
      d.Sound peers bundle (peers.provider.publicKey key) s₀ s₀ := by
  obtain ⟨out, hcall⟩ := h.processed
  obtain ⟨r, hx, hr⟩ := Op.bind_pure_cases hcall
  cases r with
  | error e => cases hr
  | ok u =>
    generalize hw' : d.world .alice = w' at hx
    cases bundle_outcome hx with
    | idle saved hf _ _ =>
      rcases hf with ⟨e, he⟩ | hf
      · cases he
      · exact absurd hf id
    | @changed record _ saved used _ _ hrecord hchange hn =>
      cases hchange with
      | @initiate _ _ identity signedPreKey base sending haccepted hb hs =>
        obtain rfl := Except.ok.inj (hb.symm.trans h.drawn)
        have hsession : peers.Introduced bundle base (Session.initiated peers.provider w.toStore
            bundle identity signedPreKey base sending) :=
          ⟨w.toStore, identity, signedPreKey, sending, haccepted.identity_eq,
            haccepted.signedPreKey_eq, h.identity, rfl⟩
        have hcurrent : (d.world .alice).Current peers.provider (peers.address .alice)
            (Session.initiated peers.provider w.toStore bundle identity signedPreKey base sending)
            record.makeRoom.previousStates := by
          rw [hw']
          exact record_changed ((readable_of_record hrecord).front _) _ _ _
        refine ⟨_, hsession, ?_, ?_, ?_, ?_, Or.inl ⟨h.bob, ?_, h.back, h.onward, h.old⟩⟩
        · rw [h.forth]
          exact Lane.follows_empty ..
        · rw [h.forth]
          intro e he
          cases he
        · rw [h.later]
          intro c hc
          cases hc
        · refine ⟨⟨_, hcurrent⟩, Session.inRange_initiated .., ?_, fun _ => ⟨⟨0, rfl⟩, ?_⟩, ?_⟩
          · rw [hw']
            rfl
          · rw [h.forth]
            intro e he
            cases he
          · rw [h.back]
            exact fun hne => absurd rfl hne
        · rw [h.forth]
          rfl

omit [DecidableEq Addr] [DecidableEq B] in
theorem statesWith_of_record {w : World Addr Priv Pub B} {address : Addr}
    {record : SessionRecord Priv Pub B} (h : w.record peers.provider address = .ok record) :
    w.statesWith peers.provider address base =
      record.states.countP fun state => state.aliceBaseKey = some base := by
  rw [World.statesWith, h]

omit [DecidableEq Addr] in
/-- **What the account says.** -/
theorem Sound.established (h : d.Sound peers bundle base s₀ s) :
    d.Established peers bundle base where
  preKey e he := by
    obtain ⟨m, hm, hintroduces⟩ := h.preKey e he
    exact ⟨m, hm, hintroduces.baseKey, hintroduces.signedPreKeyId, hintroduces.preKeyId⟩
  states := by
    rcases h.bob with hb | ⟨t, c, hb⟩
    · obtain ⟨record, hrecord, hunknown⟩ := hb.record
      rw [statesWith_of_record hrecord, if_pos hb.deliveries, List.countP_eq_zero]
      exact fun state hstate heq => hunknown state hstate (of_decide_eq_true heq)
    · obtain ⟨previous, hcurrent, hprevious⟩ := hb.current
      have hzero : previous.countP (fun state => state.aliceBaseKey = some base) = 0 :=
        List.countP_eq_zero.2 fun state hstate heq =>
          hprevious state hstate (of_decide_eq_true heq)
      rw [statesWith_of_record hcurrent, if_neg hb.deliveries]
      refine (List.countP_cons_of_pos ?_).trans (congrArg Nat.succ hzero)
      exact decide_eq_true hb.baseKey
  delivered := h.forth.served
  answered := by
    rcases h.bob with hb | ⟨t, c, hb⟩
    · rw [hb.back]
      exact trivial
    · exact hb.follows.served
  signal := h.later

end Lemmas

end Introduction

/-! ## 5. Establishment -/

section Establishment

variable [DecidableEq Addr] [LinearOrder Pub] [DecidableEq B] {peers : Peers Addr Priv Pub B}

/-- **Asynchronous session establishment.**  Alice has processed a bundle of Bob's.  In every run in
which her messages reach Bob in any order, any of them not at all and any of them repeatedly,
within the limits, in which the conversation goes on only as long as the states keep the chain of
the first messages, and in which no message of another session is accepted:
* all her messages up to her first answer are pre-key messages with the same base key and pre key
  ids;
* Bob has one state for the base key from the first delivery on;
* each message of hers is accepted the first time and then refused as a duplicate, and so is each
  answer of Bob's at hers;
* after her first answer her messages are signal messages. -/
theorem asynchronous_establishment (hrng : ∀ x n, ∃ k, (peers.rng x).privateKey n = .ok k)
    {bundle : PreKeyBundle Pub B} {w : World Addr Priv Pub B} {base : Priv}
    {d : Introduction Addr Priv Pub B} (h : d.Started peers bundle w base)
    (acts : List (IntroductionAct Addr Priv Pub B)) (hacts : d.Regular peers bundle acts) :
    (d.run peers acts).Established peers bundle (peers.provider.publicKey base) := by
  obtain ⟨s₀, hs₀, hsound⟩ := h.sound
  obtain ⟨s, hrun⟩ := hsound.run hrng hs₀ acts hacts
  exact hrun.established

end Establishment

section Samples

namespace Introduction

variable [DecidableEq Addr] [LinearOrder Pub] [DecidableEq B] (peers : Peers Addr Priv Pub B)
  (d : Introduction Addr Priv Pub B)

instance (y : Party) (lane : Lane Pub B) (c : CiphertextMessage Pub B) :
    Decidable (d.Within peers y lane c) :=
  inferInstanceAs (Decidable (c ∈ lane.deliveries.map Prod.fst ∨ _ ∧ _))

instance (x : Party) (m : SignalMessage Pub B) : Decidable (d.Furthers peers x m) :=
  decidable_of_iff (_ ∧ _ ∧ _ ∧ _ ∧ _)
    ⟨fun ⟨hbegun, haccepts, hbounded, hother, hkept⟩ =>
      ⟨hbegun, haccepts, hbounded, hother, hkept⟩,
      fun h => ⟨h.begun, h.accepts, h.bounded, h.other, h.kept⟩⟩

variable {peers d} {bundle : PreKeyBundle Pub B} {p : B}

theorem allows_write (h : (((Command.encrypt p).action (peers.cipher .alice)).step
    (peers.context .alice) (d.world .alice)).Bounded) : d.Allows peers bundle (.write p) := h

theorem allows_deliver {i : Nat} (htrusts : d.Trusts peers)
    (hwithin : ∀ e ∈ d.forth.sent[i]?, d.Within peers .bob d.forth e.2)
    (hoffers : d.forth.deliveries = [] → (d.world .bob).Offers peers.provider bundle) :
    d.Allows peers bundle (.deliver i) :=
  fun e he => ⟨hwithin e he, htrusts, hoffers⟩

theorem allows_reply (h : (((Command.encrypt p).action (peers.cipher .bob)).step
    (peers.context .bob) (d.world .bob)).Bounded) : d.Allows peers bundle (.reply p) := h

theorem allows_answer {i : Nat} (h : ∀ e ∈ d.back.sent[i]?, d.Within peers .alice d.back e.2) :
    d.Allows peers bundle (.answer i) := h

theorem allows_follow {x : Party} {m : SignalMessage Pub B} (h : d.Furthers peers x m) :
    d.Allows peers bundle (.follow x m) := h

variable (peers d)

theorem step_write_world_bob (p : B) : (d.step peers (.write p)).world .bob = d.world .bob := by
  rw [step]
  split
  · rw [put_world_of_ne _ (by decide), wrote]
    split <;> rfl
  · exact put_world_of_ne _ (by decide) _

end Introduction

/-- The sample bundle with a one-time pre key. -/
def welcomeBundle : PreKeyBundle Nat Term := { sampleBundle with
  preKeyId := 9
  preKeyPublic := some 13 }

/-- The stores of the sample Bob, who has made the bundle. -/
def welcomeBob : World Nat Nat Nat Term := { sampleStore with
  identityKeyPair := symbolic.pair 11
  preKeys := fun i => if i = 9 then some (symbolic.pair 13) else none
  signedPreKeys := fun i => if i = 3 then some (symbolic.pair 12) else none }

/-- Alice has processed the bundle. -/
def welcomeStart : Introduction Nat Nat Nat Term where
  world
    | .alice => (samplePeers.call .alice (.processPreKeyBundle welcomeBundle) sampleStore).2
    | .bob => welcomeBob
  forth := Lane.empty
  back := Lane.empty
  later := []
  onward := false

theorem sample_oldKey (x : Party) (n : Nat) : OldKey (samplePeers.context x) n 12 :=
  fun m _ _ hk heq => sample_fresh.ne x m (by rw [← show _ = 12 from heq]; exact hk)

theorem welcome_offers : welcomeBob.Offers symbolic welcomeBundle where
  identity := rfl
  identityMatched := rfl
  signed := ⟨symbolic.pair 12, rfl, rfl, rfl⟩
  oneTime key hkey := by
    cases hkey
    exact ⟨symbolic.pair 13, rfl, rfl, rfl⟩

/-- A store whose record loads and has no state for the base key. -/
theorem exists_record_without {w : World Nat Nat Nat Term} {address base : Nat}
    (h : (w.record symbolic address).toOption.any (fun record =>
      decide (∀ state ∈ record.states, state.aliceBaseKey ≠ some base)) = true) :
    ∃ record, w.record symbolic address = .ok record ∧
      ∀ state ∈ record.states, state.aliceBaseKey ≠ some base := by
  cases hrecord : w.record symbolic address with
  | error e =>
    rw [hrecord] at h
    cases h
  | ok record =>
    rw [hrecord] at h
    exact ⟨record, rfl, of_decide_eq_true h⟩

theorem welcome_started : welcomeStart.Started samplePeers welcomeBundle sampleStore 100 where
  processed := ⟨.nothing, Prod.ext (by decide +kernel) rfl⟩
  drawn := rfl
  identity := rfl
  bob := exists_record_without (by decide +kernel)
  old key hkey := by
    cases hkey
    exact sample_oldKey .bob _
  forth := rfl
  back := rfl
  later := rfl
  onward := rfl

/-- Alice writes twice.  Her second message sets up the session.  Bob answers, and Alice writes
once more. -/
def welcomeRound : List (IntroductionAct Nat Nat Nat Term) :=
  [.write (.text 0), .write (.text 1), .deliver 1, .reply (.text 2), .answer 0, .write (.text 3)]

theorem welcomeRound_later : (welcomeStart.run samplePeers welcomeRound).later ≠ [] := by
  decide +kernel

/-- What Alice writes after the answer. -/
def welcomeLater : SignalMessage Nat Term :=
  ((welcomeStart.run samplePeers welcomeRound).later.head welcomeRound_later).inner

/-- After the first round Bob accepts what Alice wrote last.  Only then does her first message
arrive, and the second one once more. -/
def welcomeActs : List (IntroductionAct Nat Nat Nat Term) :=
  welcomeRound ++ [.follow .bob welcomeLater, .deliver 0, .deliver 1]

open Introduction in
theorem welcome_regular : welcomeStart.Regular samplePeers welcomeBundle welcomeActs := by
  have hoffers : (((welcomeStart.step samplePeers (.write (.text 0))).step samplePeers
      (.write (.text 1))).world .bob).Offers symbolic welcomeBundle := by
    rw [step_write_world_bob, step_write_world_bob]
    exact welcome_offers
  refine ⟨allows_write ?_, allows_write ?_, allows_deliver rfl ?_ fun _ => hoffers,
    allows_reply ?_, allows_answer ?_, allows_write ?_, allows_follow ?_,
    allows_deliver rfl ?_ fun h => absurd (congrArg List.length h) ?_,
    allows_deliver rfl ?_ fun h => absurd (congrArg List.length h) ?_, trivial⟩ <;> decide +kernel

/-- One message is accepted out of order and in a later round, one is refused as a duplicate, and
the last message of Alice's is not a pre-key message. -/
theorem asynchronous_establishment_reordered :
    (welcomeStart.run samplePeers welcomeActs).forth.deliveries.length = 3 ∧
      (welcomeStart.run samplePeers welcomeActs).later.length = 1 ∧
      (welcomeStart.run samplePeers welcomeActs).Established samplePeers welcomeBundle 100 :=
  ⟨by decide +kernel, by decide +kernel,
    asynchronous_establishment sample_fresh.total welcome_started welcomeActs welcome_regular⟩

/-- An older session: Alice has written, and Bob has answered. -/
def lateBefore : Introduction Nat Nat Nat Term :=
  welcomeStart.run samplePeers [.write (.text 0), .deliver 0, .reply (.text 1)]

theorem lateBefore_answered : lateBefore.back.sent ≠ [] := by decide +kernel

/-- Bob's answer, which has not arrived yet. -/
def lateMessage : CiphertextMessage Nat Term :=
  (lateBefore.back.sent.head lateBefore_answered).2

/-- Alice processes another bundle. -/
def lateStart : Introduction Nat Nat Nat Term where
  world
    | .alice =>
      (samplePeers.call .alice (.processPreKeyBundle sampleBundle) (lateBefore.world .alice)).2
    | .bob => lateBefore.world .bob
  forth := Lane.empty
  back := Lane.empty
  later := []
  onward := false

theorem late_started :
    lateStart.Started samplePeers sampleBundle (lateBefore.world .alice) 104 where
  processed := ⟨.nothing, Prod.ext (by decide +kernel) rfl⟩
  drawn := by decide +kernel
  identity := by
    rw [EcKeyPair.Matched]
    decide +kernel
  bob := exists_record_without (by decide +kernel)
  old key hkey := by
    cases hkey
    exact sample_oldKey .bob _
  forth := rfl
  back := rfl
  later := rfl
  onward := rfl

theorem late_offers : (lateStart.world .bob).Offers symbolic sampleBundle where
  identity := by decide +kernel
  identityMatched := by
    rw [EcKeyPair.Matched]
    decide +kernel
  signed := ⟨symbolic.pair 12, by decide +kernel, rfl, rfl⟩
  oneTime key hkey := by cases hkey

/-- The message is a pre-key message. -/
def CiphertextMessage.isPreKey : CiphertextMessage Pub B → Bool
  | .preKey _ => true
  | .signal _ => false

/-- **A late message of an older session.**  Alice accepts it after she has processed the bundle:
the older session is her current one again, and her next message is not a pre-key message. -/
theorem late_message_ends_introduction :
    lateStart.Started samplePeers sampleBundle (lateBefore.world .alice) 104 ∧
      (lateStart.world .bob).Offers symbolic sampleBundle ∧
      (lateStart.step samplePeers (.stray .alice lateMessage)).Allows samplePeers sampleBundle
        (.write (.text 3)) ∧
      ¬ (lateStart.run samplePeers [.stray .alice lateMessage, .write (.text 3)]).Established
        samplePeers sampleBundle 104 := by
  refine ⟨late_started, late_offers, Introduction.allows_write (by decide +kernel), fun h => ?_⟩
  have hsignal : ∃ e ∈ (lateStart.run samplePeers [.stray .alice lateMessage,
      .write (.text 3)]).forth.sent, e.2.isPreKey = false := by decide +kernel
  obtain ⟨e, he, hnot⟩ := hsignal
  obtain ⟨m, hm, -⟩ := h.preKey e he
  rw [hm] at hnot
  cases hnot

end Samples

end SignalProtocol
