/-
# Two parties exchange key exchange messages

`session_builder_process` and `session_builder_process_key_exchange_message`, called by two parties
for each other.  Every message that a call returns is delivered exactly once, at any later time.

* section 2 says what each call does to the party that makes it;
* section 3 follows a run in the outline of `Handshake.lean`: `Shows` gives, for every set of keys
  in the outline, the key pairs that were drawn, and every act does in the stores what it does in
  the outline (`Shows.step`);
* section 4 is the result: if no answer overtakes an offer that its sender made before, then, when
  everything has arrived, either party decrypts what the other encrypts.  The run in which an
  answer overtakes ends with two sessions.
-/
import SignalProtocol.Handshake
import SignalProtocol.Current
import SignalProtocol.InitialKeys
import SignalProtocol.Network
import SignalProtocol.Stream

namespace SignalProtocol

variable {Addr Priv Pub B : Type}

/-! ## 1. Runs -/

/-- The stores of both parties, the messages on their way to each, and who has called
`session_builder_process`. -/
structure Handshake (Addr Priv Pub B : Type) where
  world : Party → World Addr Priv Pub B
  inbox : Party → List (KeyExchangeMessage Pub B)
  offered : Party → Bool

/-- **Random sources that deliver, fresh key pairs, and signatures that verify.** -/
structure Peers.Working (peers : Peers Addr Priv Pub B) : Prop where
  generating : peers.Generating
  word : ∀ x n, ∃ v, (peers.rng x).word n = .ok v
  signatureRandom : ∀ x n, ∃ r, (peers.rng x).signatureRandom n = .ok r
  verifies : ∀ k m r, peers.provider.verifySignature (peers.provider.publicKey k) m
    (peers.provider.calculateSignature k m r) = true
  publicKey_inj : Function.Injective peers.provider.publicKey

namespace Handshake

/-- **The start**: no sessions and no messages, and each party trusts the other's identity, before
and after it has saved it. -/
structure Started (peers : Peers Addr Priv Pub B) (d : Handshake Addr Priv Pub B) : Prop where
  sessions : ∀ x, (d.world x).sessions (peers.address x) = none
  inbox : ∀ x, d.inbox x = []
  offered : ∀ x, d.offered x = false
  matched : ∀ x, (d.world x).identityKeyPair.Matched peers.provider
  trusted : ∀ x saved, saved = (d.world x).identities (peers.address x) ∨
    saved = some (d.world x.other).identityKeyPair.publicKey →
    peers.trusted x (peers.address x) saved (d.world x.other).identityKeyPair.publicKey = true

variable [DecidableEq Addr] [LinearOrder Pub]

/-- A party has made its offer. -/
def afterProcess (d : Handshake Addr Priv Pub B) (x : Party)
    (r : Except SgError (KeyExchangeMessage Pub B) × World Addr Priv Pub B) :
    Handshake Addr Priv Pub B where
  world := Function.update d.world x r.2
  inbox := Function.update d.inbox x.other (d.inbox x.other ++ r.1.toOption.toList)
  offered := Function.update d.offered x true

/-- A party was handed the message at a position, and may have answered it. -/
def afterDeliver (d : Handshake Addr Priv Pub B) (y : Party) (i : Nat)
    (r : Except SgError (Option (KeyExchangeMessage Pub B)) × World Addr Priv Pub B) :
    Handshake Addr Priv Pub B where
  world := Function.update d.world y r.2
  inbox := Function.update (Function.update d.inbox y ((d.inbox y).eraseIdx i)) y.other
    (d.inbox y.other ++ (r.1.toOption.bind id).toList)
  offered := d.offered

/-- **One act.**  A party calls `session_builder_process` once. -/
def step (peers : Peers Addr Priv Pub B) (d : Handshake Addr Priv Pub B) :
    HandshakeAct → Handshake Addr Priv Pub B
  | .process x =>
    if d.offered x then d
    else d.afterProcess x
      (sessionBuilderProcess (peers.context x) (peers.address x) (d.world x))
  | .deliver y i =>
    match (d.inbox y)[i]? with
    | none => d
    | some m => d.afterDeliver y i
      (sessionBuilderProcessKeyExchangeMessage (peers.context y) (peers.address y) m (d.world y))

/-- A run is any sequence of acts. -/
def run (peers : Peers Addr Priv Pub B) (d : Handshake Addr Priv Pub B)
    (acts : List HandshakeAct) : Handshake Addr Priv Pub B :=
  acts.foldl (step peers) d

omit [DecidableEq Addr] [LinearOrder Pub] in
/-- **The answer to a simultaneous initiate overtakes**: it is handed over while an initiate of its
sender is still on its way. -/
def Overtakes (d : Handshake Addr Priv Pub B) : HandshakeAct → Prop
  | .process _ => False
  | .deliver y i => ∃ m ∈ (d.inbox y)[i]?,
    m.isInitiate = false ∧ m.isResponseForSimultaneousInitiate = true ∧
      ∃ m' ∈ d.inbox y, m'.isInitiate = true

instance (d : Handshake Addr Priv Pub B) : DecidablePred d.Overtakes
  | .process _ => inferInstanceAs (Decidable False)
  | .deliver y i => inferInstanceAs (Decidable (∃ m ∈ (d.inbox y)[i]?, _))

/-- A run in which nothing is overtaken. -/
def Orderly (peers : Peers Addr Priv Pub B) (d : Handshake Addr Priv Pub B) :
    List HandshakeAct → Prop
  | [] => True
  | act :: acts => ¬ d.Overtakes act ∧ (d.step peers act).Orderly peers acts

instance decidableOrderly (peers : Peers Addr Priv Pub B) :
    ∀ (acts : List HandshakeAct) (d : Handshake Addr Priv Pub B), Decidable (d.Orderly peers acts)
  | [], _ => inferInstanceAs (Decidable True)
  | act :: acts, d =>
    have := decidableOrderly peers acts (d.step peers act)
    inferInstanceAs (Decidable (_ ∧ _))

/-- No message is on its way, and someone has called `session_builder_process`. -/
def Finished (d : Handshake Addr Priv Pub B) : Prop :=
  (∀ x, d.inbox x = []) ∧ ∃ x, d.offered x = true

end Handshake

/-! ## 2. The calls -/

section Calls

variable [DecidableEq Addr] {ctx : SignalContext Addr Priv Pub B} {address : Addr}
  {w : World Addr Priv Pub B} {record : SessionRecord Priv Pub B}

/-- The offer of a party. -/
def initiateMessage (P : Provider Priv Pub B) (identity : EcKeyPair Priv Pub) (sequence : UInt32)
    (base ratchet : Priv) (random : B) : KeyExchangeMessage Pub B where
  version := ciphertextCurrentVersion
  sequence := sequence
  flags := keyExchangeInitiateFlag
  baseKey := P.publicKey base
  baseKeySignature :=
    P.calculateSignature identity.privateKey (P.encodePoint (P.publicKey base)) random
  ratchetKey := P.publicKey ratchet
  identityKey := identity.publicKey

theorem isInitiate_initiateMessage (P : Provider Priv Pub B) (identity : EcKeyPair Priv Pub)
    (sequence : UInt32) (base ratchet : Priv) (random : B) :
    (initiateMessage P identity sequence base ratchet random).isInitiate = true :=
  (by decide : decide (keyExchangeInitiateFlag &&& keyExchangeInitiateFlag ≠ 0) = true)

/-- The record in which an offer is pending. -/
def SessionRecord.withPending (P : Provider Priv Pub B) (identity : EcKeyPair Priv Pub)
    (sequence : UInt32) (base ratchet : Priv) (record : SessionRecord Priv Pub B) :
    SessionRecord Priv Pub B :=
  record.setState (record.state.setPendingKeyExchange sequence (P.pair base) (P.pair ratchet)
    identity)

theorem SessionRecord.Readable.withPending {P : Provider Priv Pub B} (h : record.Readable P)
    (identity : EcKeyPair Priv Pub) (sequence : UInt32) (base ratchet : Priv) :
    (record.withPending P identity sequence base ratchet).Readable P := by
  have hstate := h record.state List.mem_cons_self
  exact h.setState ⟨hstate.rootKey, hstate.senderChain, hstate.receiverChains, hstate.messageKeys⟩

/-- **Offering a key exchange** draws two key pairs and leaves them in the current state. -/
theorem process_of_draws (hr : w.record ctx.provider address = .ok record) {v : UInt32}
    (hv : ctx.rng.word w.drawn = .ok v) {base ratchet : Priv}
    (hb : ctx.rng.privateKey (w.drawn + 1) = .ok base)
    (hk : ctx.rng.privateKey (w.drawn + 2) = .ok ratchet) {random : B}
    (hs : ctx.rng.signatureRandom (w.drawn + 3) = .ok random) :
    ∃ sequence, sessionBuilderProcess ctx address w =
      (.ok (initiateMessage ctx.provider w.identityKeyPair sequence base ratchet random),
        (w.storeRecord ctx.provider address
          (record.withPending ctx.provider w.identityKeyPair sequence base ratchet)).at
            (w.drawn + 4)) := by
  have hword : atRandom (signalProtocolKeyHelperGetRandomSequence ctx.rng 65534) w =
      (.ok ((v &&& 0x7FFFFFFF) % 65534), w.at (w.drawn + 1)) :=
    (atRandom_draw _ _ w).trans (by rw [hv]; rfl)
  have hbase : atRandom (curveGenerateKeyPair ctx.provider ctx.rng) (w.at (w.drawn + 1)) =
      (.ok (ctx.provider.pair base), w.at (w.drawn + 2)) :=
    (atRandom_draw _ _ _).trans (by rw [World.at_drawn, hb]; rfl)
  have hratchet : atRandom (curveGenerateKeyPair ctx.provider ctx.rng) (w.at (w.drawn + 2)) =
      (.ok (ctx.provider.pair ratchet), w.at (w.drawn + 3)) :=
    (atRandom_draw _ _ _).trans (by rw [World.at_drawn, hk]; rfl)
  have hsign : atRandom (curveCalculateSignature ctx.provider ctx.rng w.identityKeyPair.privateKey
      (ctx.provider.encodePoint (ctx.provider.pair base).publicKey)) (w.at (w.drawn + 3)) =
      (.ok (ctx.provider.calculateSignature w.identityKeyPair.privateKey
        (ctx.provider.encodePoint (ctx.provider.publicKey base)) random), w.at (w.drawn + 4)) :=
    (atRandom_draw _ _ _).trans (by rw [World.at_drawn, hs]; rfl)
  have hload : signalProtocolSessionLoadSession ctx.provider address (w.at (w.drawn + 4)) =
      (.ok record, w.at (w.drawn + 4)) := by rw [load_eq, World.record_at, hr]
  refine ⟨(v &&& 0x7FFFFFFF) % 65534 + 1, ?_⟩
  simp only [sessionBuilderProcess, Threaded.sessionBuilderProcess, Program.run_eqs]
  refine Op.mapError_of_ok ?_
  rw [Op.bind_of_ok hword, Op.bind_of_ok hbase, Op.bind_of_ok hratchet]
  refine (Op.bind_of_ok hsign).trans ?_
  refine (Op.bind_of_ok (a := ()) (Op.require_ok_iff.2
    ⟨ctx.provider.len_calculateSignature .., rfl⟩)).trans ?_
  exact (Op.bind_of_ok hload).trans rfl

variable [LinearOrder Pub] {m : KeyExchangeMessage Pub B} {agreed : Agreed Priv Pub B} {n : Nat}

/-- **Answering an offer.** -/
theorem initiate_of_agrees (hi : m.isInitiate = true)
    (ha : Agrees ctx address m w record agreed n) {random : B}
    (hs : ctx.rng.signatureRandom n = .ok random) :
    sessionBuilderProcessKeyExchangeMessage ctx address m w =
      (.ok (some (agreed.response m (ctx.provider.calculateSignature
          agreed.parameters.ourIdentityKey.privateKey
          (ctx.provider.encodePoint agreed.parameters.ourBaseKey.publicKey) random))),
        (w.commit ctx.provider address m agreed).at (n + 1)) := by
  rw [processKeyExchangeMessage_eq, Op.bind_of_ok (agreedSession_iff.2 ⟨record, n, ha, rfl⟩),
    writeAgreed_initiate hi, World.at_drawn, hs]
  rfl

/-- **Taking an answer** whose signature verifies. -/
theorem response_of_agrees (hi : m.isInitiate = false)
    (ha : Agrees ctx address m w record agreed n) (hs : m.checkSignature ctx.provider = .ok ()) :
    sessionBuilderProcessKeyExchangeMessage ctx address m w =
      (.ok none, (w.commit ctx.provider address m agreed).at n) := by
  rw [processKeyExchangeMessage_eq, Op.bind_of_ok (agreedSession_iff.2 ⟨record, n, ha, rfl⟩),
    writeAgreed_response hi agreed ha.state.1, hs]
  rfl

/-- **An answer without a pending offer changes nothing**, and is not answered. -/
theorem response_of_idle (hi : m.isInitiate = false)
    (hr : w.record ctx.provider address = .ok record)
    (hidle : record.state.pendingKeyExchange = none) :
    (sessionBuilderProcessKeyExchangeMessage ctx address m w).2 = w ∧
      (sessionBuilderProcessKeyExchangeMessage ctx address m w).1.toOption.bind id = none := by
  have hresponse : sessionBuilderProcessResponse ctx address m w =
      Op.require (m.isResponseForSimultaneousInitiate = true) .staleKeyExchange w := by
    simp only [sessionBuilderProcessResponse, Threaded.sessionBuilderProcessResponse,
      Program.run_eqs]
    rw [Op.bind_of_ok ((load_eq ..).trans (by rw [hr])), hidle]
    simp only [Option.filter_none, Program.run_eqs]
  simp only [sessionBuilderProcessKeyExchangeMessage,
    Threaded.sessionBuilderProcessKeyExchangeMessage, Program.run_eqs,
    Threaded.run_processInitiate, Threaded.run_processResponse]
  rw [signalProtocolIdentityIsTrustedIdentity, Op.ofOption_some, Op.pure_bind_apply, Op.bind_assoc,
    Op.get_bind_apply, Op.pure_bind_apply]
  by_cases htrusted : ctx.trusted address (w.identities address) m.identityKey = true
  · rw [Op.require_of htrusted, Op.pure_bind_apply, if_neg (by simp [hi])]
    by_cases hsim : m.isResponseForSimultaneousInitiate = true
    · rw [Op.require_of hsim] at hresponse
      rw [Op.bind_of_ok hresponse]
      exact ⟨rfl, rfl⟩
    · rw [Op.require_of_not hsim] at hresponse
      rw [Op.bind_of_error hresponse]
      exact ⟨rfl, rfl⟩
  · rw [Op.bind_of_error (by rw [Op.require_of_not htrusted]; rfl)]
    exact ⟨rfl, rfl⟩

/-- A random source that delivers gives a new session its keys. -/
theorem exists_draws {rng : Rng Priv B} (hrng : ∀ n, ∃ k, rng.privateKey n = .ok k)
    (p : SymmetricParameters Priv Pub) (n : Nat) :
    ∃ sending, p.Draws rng n sending ∧ sending.isSome = ratchetingSessionSymmetricIsAlice p := by
  obtain ⟨k, hk⟩ := hrng n
  cases hp : ratchetingSessionSymmetricIsAlice p with
  | true => exact ⟨some k, ⟨hp, hk⟩, rfl⟩
  | false => exact ⟨none, hp, rfl⟩

omit [LinearOrder Pub] in
/-- **A new session that was written is loaded again.** -/
theorem record_commit (hr : w.record ctx.provider address = .ok record) {t : Session Priv Pub B}
    (hagreed : agreed.record = record.makeRoom.setState (t.toState ctx.provider)) :
    ((w.commit ctx.provider address m agreed).at n).record ctx.provider address =
      .ok { agreed.record with isFresh := false } := by
  have hreadable : agreed.record.Readable ctx.provider := by
    rw [hagreed]
    exact (readable_of_record hr).front t
  have hstored : (w.storeRecord ctx.provider address agreed.record).record ctx.provider address =
      .ok { agreed.record with isFresh := false } := record_storeRecord w hreadable
  rw [World.record_at, World.record_eq]
  rw [World.record_eq] at hstored
  exact hstored

end Calls

/-! ## 3. A run in outline -/

/-- The private keys of an offer or an answer, and the sequence number of an offer. -/
structure Ring (Priv : Type) where
  base : Priv
  ratchet : Priv
  sequence : UInt32

section Outline

variable (peers : Peers Addr Priv Pub B) (ident : Party → EcKeyPair Priv Pub)
  (rings : Party → Keys → Option (Ring Priv))

/-- The parameters of a session between two sets of keys, as a party sees them. -/
def Ring.parameters (x : Party) (ours theirs : Ring Priv) : SymmetricParameters Priv Pub where
  ourIdentityKey := ident x
  ourBaseKey := peers.provider.pair ours.base
  ourRatchetKey := peers.provider.pair ours.ratchet
  theirBaseKey := peers.provider.publicKey theirs.base
  theirRatchetKey := peers.provider.publicKey theirs.ratchet
  theirIdentityKey := (ident x.other).publicKey

/-- The pending offer with these keys. -/
def Ring.pending (x : Party) (ours : Ring Priv) : PendingKeyExchange Priv Pub :=
  ⟨ours.sequence, some (peers.provider.pair ours.base), some (peers.provider.pair ours.ratchet),
    some (ident x)⟩

/-- A message of a party with these keys, and a signature that verifies. -/
structure Ring.Carried (x : Party) (ring : Ring Priv) (m : KeyExchangeMessage Pub B) : Prop where
  base : m.baseKey = peers.provider.publicKey ring.base
  ratchet : m.ratchetKey = peers.provider.publicKey ring.ratchet
  identity : m.identityKey = (ident x).publicKey
  signed : m.checkSignature peers.provider = .ok ()

/-- **A message on its way to a party says this.** -/
inductive Says (x : Party) : Note → KeyExchangeMessage Pub B → Prop
  | initiate {ring : Ring Priv} {m : KeyExchangeMessage Pub B}
      (hring : rings x.other .offered = some ring) (hm : m.isInitiate = true)
      (hkeys : ring.Carried peers ident x.other m) (hsequence : m.sequence = ring.sequence) :
      Says x .initiate m
  | response {keys : Keys} {ring offer : Ring Priv} {m : KeyExchangeMessage Pub B}
      (hring : rings x.other keys = some ring) (hoffer : rings x .offered = some offer)
      (hm : m.isInitiate = false)
      (hsim : m.isResponseForSimultaneousInitiate = decide (keys = .offered))
      (hkeys : ring.Carried peers ident x.other m) (hsequence : m.sequence = offer.sequence) :
      Says x (.response keys) m

variable [LinearOrder Pub]

/-- **The current state of a party shows this**: the pending offer, and the session between two
sets of keys, with nothing sent or received yet. -/
structure ShowsState (x : Party) (v : View) (state : SessionState Priv Pub B) : Prop where
  pending : v.pending = true → ∃ ring, rings x .offered = some ring ∧
    state.pendingKeyExchange = some (ring.pending peers ident x)
  idle : v.pending = false → state.pendingKeyExchange = none
  session : ∀ own theirs, v.session = some (own, theirs) → ∃ ring ring' t sending,
    rings x own = some ring ∧ rings x.other theirs = some ring' ∧
      state = Session.toState peers.provider t ∧ t.pendingPreKey = none ∧
      t.SameKeys ((ring.parameters peers ident x ring').session peers.provider sending) ∧
      sending.isSome = ratchetingSessionSymmetricIsAlice (ring.parameters peers ident x ring')

/-- **The stores of a party show this.** -/
structure ShowsWorld (x : Party) (v : View) (w : World Addr Priv Pub B) : Prop where
  identity : w.identityKeyPair = ident x
  trusted : peers.trusted x (peers.address x) (w.identities (peers.address x))
    (ident x.other).publicKey = true
  record : ∃ record, w.record peers.provider (peers.address x) = .ok record ∧
    ShowsState peers ident rings x v record.state

/-- **A handshake in outline.** -/
structure Shows (d : Handshake Addr Priv Pub B) (s : Joint) : Prop where
  world : ∀ x, ShowsWorld peers ident rings x (s.view x) (d.world x)
  inbox : ∀ x, List.Forall₂ (Says peers ident rings x) (s.view x).inbox (d.inbox x)
  offered : ∀ x, d.offered x = (s.view x).offered
  drawn : ∀ x keys ring, rings x keys = some ring →
    ∃ n, (peers.rng x).privateKey n = .ok ring.base
  notOffered : ∀ x, (s.view x).offered = false → rings x .offered = none
  notAnswered : ∀ x, (s.view x).answered = false → rings x .answering = none

end Outline

section Sender

variable {peers : Peers Addr Priv Pub B} {ident : Party → EcKeyPair Priv Pub}
  {rings : Party → Keys → Option (Ring Priv)} {x : Party} {keys : Keys} {ring offer : Ring Priv}
  {m : KeyExchangeMessage Pub B}

/-! What a party sends is on its way to its peer. -/

theorem says_initiate (hring : rings x .offered = some ring) (hm : m.isInitiate = true)
    (hkeys : ring.Carried peers ident x m) (hsequence : m.sequence = ring.sequence) :
    Says peers ident rings x.other .initiate m := by
  rw [← Party.other_other x] at hring hkeys
  exact .initiate hring hm hkeys hsequence

theorem says_response (hring : rings x keys = some ring)
    (hoffer : rings x.other .offered = some offer) (hm : m.isInitiate = false)
    (hsim : m.isResponseForSimultaneousInitiate = decide (keys = .offered))
    (hkeys : ring.Carried peers ident x m) (hsequence : m.sequence = offer.sequence) :
    Says peers ident rings x.other (.response keys) m := by
  rw [← Party.other_other x] at hring hkeys
  exact .response hring hoffer hm hsim hkeys hsequence

end Sender

/-- More keys were drawn. -/
def Grows (rings rings' : Party → Keys → Option (Ring Priv)) : Prop :=
  ∀ x keys ring, rings x keys = some ring → rings' x keys = some ring

/-- The keys after a draw. -/
def setRing (rings : Party → Keys → Option (Ring Priv)) (x : Party) (keys : Keys)
    (ring : Ring Priv) : Party → Keys → Option (Ring Priv) :=
  fun y keys' => if y = x ∧ keys' = keys then some ring else rings y keys'

section Growing

variable {rings rings' : Party → Keys → Option (Ring Priv)} {x : Party} {keys : Keys}

@[simp] theorem setRing_self (ring : Ring Priv) : setRing rings x keys ring x keys = some ring :=
  if_pos ⟨rfl, rfl⟩

theorem setRing_of_ne (ring : Ring Priv) {y : Party} {keys' : Keys} (h : y ≠ x ∨ keys' ≠ keys) :
    setRing rings x keys ring y keys' = rings y keys' := by
  refine if_neg fun heq => ?_
  rcases h with h | h
  · exact h heq.1
  · exact h heq.2

theorem grows_refl (rings : Party → Keys → Option (Ring Priv)) : Grows rings rings :=
  fun _ _ _ h => h

theorem grows_setRing (h : rings x keys = none) (ring : Ring Priv) :
    Grows rings (setRing rings x keys ring) := by
  intro y keys' r hr
  rw [setRing_of_ne]
  · exact hr
  · by_contra hne
    rw [not_or, not_not, not_not] at hne
    obtain ⟨rfl, rfl⟩ := hne
    rw [h] at hr
    cases hr

variable {peers : Peers Addr Priv Pub B} {ident : Party → EcKeyPair Priv Pub}

theorem Says.mono (h : Grows rings rings') {note : Note} {m : KeyExchangeMessage Pub B}
    (hs : Says peers ident rings x note m) : Says peers ident rings' x note m := by
  cases hs with
  | initiate hring hm hkeys hsequence => exact .initiate (h _ _ _ hring) hm hkeys hsequence
  | response hring hoffer hm hsim hkeys hsequence =>
    exact .response (h _ _ _ hring) (h _ _ _ hoffer) hm hsim hkeys hsequence

variable [LinearOrder Pub]

/-- What a state shows depends on the pending offer and the session only. -/
theorem ShowsState.mono (h : Grows rings rings') {v v' : View} {state : SessionState Priv Pub B}
    (hs : ShowsState peers ident rings x v state) (hpending : v'.pending = v.pending)
    (hsession : v'.session = v.session) : ShowsState peers ident rings' x v' state where
  pending hp := by
    obtain ⟨ring, hring, hstate⟩ := hs.pending (hpending ▸ hp)
    exact ⟨ring, h _ _ _ hring, hstate⟩
  idle hp := hs.idle (hpending ▸ hp)
  session own theirs heq := by
    obtain ⟨ring, ring', t, sending, hring, hring', hrest⟩ := hs.session own theirs (hsession ▸ heq)
    exact ⟨ring, ring', t, sending, h _ _ _ hring, h _ _ _ hring', hrest⟩

theorem ShowsWorld.mono (h : Grows rings rings') {v v' : View} {w : World Addr Priv Pub B}
    (hs : ShowsWorld peers ident rings x v w) (hpending : v'.pending = v.pending)
    (hsession : v'.session = v.session) : ShowsWorld peers ident rings' x v' w := by
  obtain ⟨record, hr, hstate⟩ := hs.record
  exact ⟨hs.identity, hs.trusted, record, hr, hstate.mono h hpending hsession⟩

end Growing

section Lists

variable {α β : Type} {R : α → β → Prop} {l : List α} {l' : List β} {i : Nat}

theorem forall₂_getElem? (h : List.Forall₂ R l l') {a : α} (hi : l[i]? = some a) :
    ∃ b, l'[i]? = some b ∧ R a b := by
  obtain ⟨hlt, rfl⟩ := List.getElem?_eq_some_iff.1 hi
  have hlt' : i < l'.length := h.length_eq ▸ hlt
  exact ⟨l'[i], List.getElem?_eq_getElem hlt', h.get hlt hlt'⟩

theorem forall₂_eraseIdx (h : List.Forall₂ R l l') :
    List.Forall₂ R (l.eraseIdx i) (l'.eraseIdx i) := by
  induction h generalizing i with
  | nil => exact .nil
  | cons hab h ih =>
    cases i with
    | zero => exact h
    | succ i => exact .cons hab ih

end Lists

section Steps

variable {peers : Peers Addr Priv Pub B} {ident : Party → EcKeyPair Priv Pub}
  {rings : Party → Keys → Option (Ring Priv)}

theorem checkSignature_of_signed (hp : peers.Working) {identity : EcKeyPair Priv Pub}
    (hid : identity.Matched peers.provider) {m : KeyExchangeMessage Pub B} {random : B}
    (hs : m.baseKeySignature = peers.provider.calculateSignature identity.privateKey
      (peers.provider.encodePoint m.baseKey) random) (hi : m.identityKey = identity.publicKey) :
    m.checkSignature peers.provider = .ok () := by
  have hverify : curveVerifySignature peers.provider m.identityKey
      (peers.provider.encodePoint m.baseKey) m.baseKeySignature curveSignatureLen = .ok true := by
    rw [curveVerifySignature, if_neg (fun h => h rfl), hi, hid, hs, hp.verifies]
  rw [KeyExchangeMessage.checkSignature, hverify]
  rfl

variable [DecidableEq Addr] [LinearOrder Pub] {d : Handshake Addr Priv Pub B} {s : Joint}
  {x y : Party}

omit [DecidableEq Addr] in
/-- A state in which an offer is left. -/
theorem ShowsState.offer {v : View} {state : SessionState Priv Pub B} {ring : Ring Priv}
    (h : ShowsState peers ident rings x v state) (hring : rings x .offered = some ring) :
    ShowsState peers ident rings x v.offer (state.setPendingKeyExchange ring.sequence
      (peers.provider.pair ring.base) (peers.provider.pair ring.ratchet) (ident x)) where
  pending _ := ⟨ring, hring, rfl⟩
  idle hp := by cases hp
  session own theirs heq := by
    obtain ⟨r, r', t, sending, hr, hr', rfl, hprekey, hkeys, hrole⟩ := h.session own theirs heq
    exact ⟨r, r', { t with pendingKeyExchange := some (ring.pending peers ident x) }, sending,
      hr, hr', rfl, hprekey,
      ⟨hkeys.localIdentity, hkeys.remoteIdentity, hkeys.root, hkeys.sender, hkeys.receivers⟩, hrole⟩

omit [DecidableEq Addr] in
/-- **One party has moved on**: it may have drawn keys, and may have sent something to the other,
which is otherwise as it was. -/
theorem Shows.put (h : Shows peers ident rings d s) {rings' : Party → Keys → Option (Ring Priv)}
    (hgrow : Grows rings rings') {d' : Handshake Addr Priv Pub B} {s' : Joint} {notes : List Note}
    {messages : List (KeyExchangeMessage Pub B)}
    (hview : s'.view x.other =
      { s.view x.other with inbox := (s.view x.other).inbox ++ notes })
    (hworld : d'.world x.other = d.world x.other)
    (hoffered : d'.offered x.other = d.offered x.other)
    (hinbox : d'.inbox x.other = d.inbox x.other ++ messages)
    (hsaid : List.Forall₂ (Says peers ident rings' x.other) notes messages)
    (hrings : ∀ keys, rings' x.other keys = rings x.other keys)
    (hself : ShowsWorld peers ident rings' x (s'.view x) (d'.world x))
    (hown : List.Forall₂ (Says peers ident rings' x) (s'.view x).inbox (d'.inbox x))
    (hselfOffered : d'.offered x = (s'.view x).offered)
    (hdrawn : ∀ keys ring, rings' x keys = some ring →
      ∃ n, (peers.rng x).privateKey n = .ok ring.base)
    (hnotOffered : (s'.view x).offered = false → rings' x .offered = none)
    (hnotAnswered : (s'.view x).answered = false → rings' x .answering = none) :
    Shows peers ident rings' d' s' := by
  have hother : ∀ z, z = x ∨ z = x.other := fun z => z.eq_or_eq_other x
  refine ⟨fun z => ?_, fun z => ?_, fun z => ?_, fun z => ?_, fun z => ?_, fun z => ?_⟩ <;>
    rcases hother z with rfl | rfl
  · exact hself
  · rw [hworld]
    exact (h.world x.other).mono hgrow (by rw [hview]) (by rw [hview])
  · exact hown
  · rw [hinbox, hview]
    exact List.rel_append ((h.inbox x.other).imp fun _ _ hm => hm.mono hgrow) hsaid
  · exact hselfOffered
  · rw [hoffered, h.offered, hview]
  · exact hdrawn
  · intro keys ring hring
    exact h.drawn x.other keys ring (hrings keys ▸ hring)
  · exact hnotOffered
  · intro hz
    rw [hview] at hz
    rw [hrings]
    exact h.notOffered x.other hz
  · exact hnotAnswered
  · intro hz
    rw [hview] at hz
    rw [hrings]
    exact h.notAnswered x.other hz

/-- **Making the offer.** -/
theorem Shows.process (hp : peers.Working) (hid : ∀ x, (ident x).Matched peers.provider)
    (h : Shows peers ident rings d s) (hx : (s.view x).offered = false) :
    ∃ rings', Shows peers ident rings' (d.step peers (.process x)) (s.step (.process x)) := by
  have hworld := h.world x
  obtain ⟨record, hr, hstate⟩ := hworld.record
  obtain ⟨v, hv⟩ := hp.word x (d.world x).drawn
  obtain ⟨base, hb⟩ := hp.generating.total x ((d.world x).drawn + 1)
  obtain ⟨ratchet, hk⟩ := hp.generating.total x ((d.world x).drawn + 2)
  obtain ⟨random, hrandom⟩ := hp.signatureRandom x ((d.world x).drawn + 3)
  have hloaded : (d.world x).record (peers.context x).provider (peers.address x) = .ok record := hr
  obtain ⟨sequence, hprocess⟩ := process_of_draws hloaded hv hb hk hrandom
  rw [hworld.identity] at hprocess
  have hgrow := grows_setRing (h.notOffered x hx) ⟨base, ratchet, sequence⟩
  have hset : setRing rings x .offered ⟨base, ratchet, sequence⟩ x .offered =
      some ⟨base, ratchet, sequence⟩ := setRing_self _
  rw [Handshake.step, h.offered x, hx, if_neg Bool.false_ne_true, hprocess, Joint.step, hx,
    if_neg Bool.false_ne_true]
  have hsaid : Says peers ident (setRing rings x .offered ⟨base, ratchet, sequence⟩) x.other
      .initiate (initiateMessage peers.provider (ident x) sequence base ratchet random) :=
    says_initiate hset (isInitiate_initiateMessage ..)
      ⟨rfl, rfl, rfl, checkSignature_of_signed hp (hid x) rfl rfl⟩ rfl
  have hview : ((s.modify x View.offer).modify x.other (View.send .initiate)).view x =
      (s.view x).offer := by rw [Joint.view_modify_other', Joint.view_modify_self]
  refine ⟨_, h.put hgrow ?_ (Function.update_of_ne (Party.other_ne x) _ _)
    (Function.update_of_ne (Party.other_ne x) _ _) (Function.update_self ..) (.cons hsaid .nil)
    (fun keys => setRing_of_ne _ (Or.inl (Party.other_ne x))) ?_ ?_ ?_ ?_ ?_ ?_⟩
  · rw [Joint.view_modify_self, Joint.view_modify_other]
    rfl
  · rw [hview]
    dsimp only [Handshake.afterProcess]
    rw [Function.update_self]
    exact ⟨hworld.identity, hworld.trusted, _, (World.record_at ..).trans
      (record_storeRecord _ ((readable_of_record hr).withPending _ _ _ _)),
      (hstate.mono hgrow rfl rfl).offer hset⟩
  · rw [hview]
    dsimp only [Handshake.afterProcess]
    rw [Function.update_of_ne (Party.other_ne x).symm]
    exact (h.inbox x).imp fun _ _ hm => hm.mono hgrow
  · rw [hview]
    exact Function.update_self ..
  · intro keys ring hring
    cases keys with
    | offered =>
      cases hset.symm.trans hring
      exact ⟨_, hb⟩
    | answering =>
      rw [setRing_of_ne _ (Or.inr (by decide))] at hring
      exact h.drawn x _ ring hring
  · rw [hview]
    intro hoffered
    cases hoffered
  · rw [hview, setRing_of_ne _ (Or.inr (by decide))]
    exact h.notAnswered x

omit [DecidableEq Addr] [LinearOrder Pub] in
/-- The parameters that a message with some keys gives to a party. -/
theorem Ring.Carried.parameters {m : KeyExchangeMessage Pub B} {ring ring' : Ring Priv}
    (h : ring'.Carried peers ident x.other m) :
    (⟨ident x, peers.provider.pair ring.base, peers.provider.pair ring.ratchet, m.baseKey,
      m.ratchetKey, m.identityKey⟩ : SymmetricParameters Priv Pub) =
      ring.parameters peers ident x ring' := by
  rw [h.base, h.ratchet, h.identity]
  rfl

/-- **A new session is in the stores.** -/
theorem ShowsWorld.agree {v : View} {w : World Addr Priv Pub B}
    (h : ShowsWorld peers ident rings x v w) {m : KeyExchangeMessage Pub B}
    (htrust : peers.trusted x (peers.address x) (some (ident x.other).publicKey)
      (ident x.other).publicKey = true) {own theirs : Keys} {ring ring' : Ring Priv}
    (hring : rings x own = some ring) (hring' : rings x.other theirs = some ring')
    (hm : ring'.Carried peers ident x.other m) {record : SessionRecord Priv Pub B}
    (hr : w.record peers.provider (peers.address x) = .ok record) {sending : Option Priv}
    (hrole : sending.isSome =
      ratchetingSessionSymmetricIsAlice (ring.parameters peers ident x ring'))
    {agreed : Agreed Priv Pub B} (hagreed : agreed.record = record.makeRoom.setState
      (((ring.parameters peers ident x ring').session peers.provider sending).toState
        peers.provider)) (n : Nat) :
    ShowsWorld peers ident rings x (v.agree own theirs)
      ((w.commit peers.provider (peers.address x) m agreed).at n) := by
  have hrecord : ((w.commit peers.provider (peers.address x) m agreed).at n).record peers.provider
      (peers.address x) = .ok { agreed.record with isFresh := false } := by
    have hloaded : w.record (peers.context x).provider (peers.address x) = .ok record := hr
    have hstored := record_commit (m := m) (n := n) hloaded hagreed
    exact hstored
  have htrusted : peers.trusted x (peers.address x)
      (((w.commit peers.provider (peers.address x) m agreed).at n).identities (peers.address x))
      (ident x.other).publicKey = true := by
    have hsaved : ((w.commit peers.provider (peers.address x) m agreed).at n).identities
        (peers.address x) = some m.identityKey := Function.update_self ..
    rw [hsaved, hm.identity]
    exact htrust
  refine ⟨h.identity, htrusted, _, hrecord, ?_, fun _ => ?_, fun a b heq => ?_⟩
  · intro hp
    cases hp
  · obtain ⟨-, -, hidle, -⟩ := SymmetricParameters.session_spec peers.provider
      (ring.parameters peers ident x ring') sending
    dsimp only
    rw [hagreed]
    exact hidle
  · cases heq
    dsimp only
    rw [hagreed]
    refine ⟨ring, ring', _, sending, hring, hring', rfl, ?_, ⟨rfl, rfl, rfl, rfl, rfl⟩, hrole⟩
    cases sending <;> rfl

omit [DecidableEq Addr] in
/-- **The keys with which an offer is answered**: those of the party's own offer if it is pending,
otherwise new ones; the flags of the answer tell which. -/
theorem Shows.answerKeys (hp : peers.Working) (h : Shows peers ident rings d s)
    (hnew : (s.view y).answered = false) {record : SessionRecord Priv Pub B}
    (hstate : ShowsState peers ident rings y (s.view y) record.state)
    {m : KeyExchangeMessage Pub B} {ring' : Ring Priv} (hi : m.isInitiate = true)
    (hm : ring'.Carried peers ident y.other m) :
    ∃ rings' ring flags n, Grows rings rings' ∧ rings' y (s.view y).answerKeys = some ring ∧
      (∀ keys, rings' y.other keys = rings y.other keys) ∧
      (∀ keys ring, rings' y keys = some ring → ∃ n, (peers.rng y).privateKey n = .ok ring.base) ∧
      rings' y .offered = rings y .offered ∧
      FoundKeys (peers.context y) m (d.world y) record (ring.parameters peers ident y ring')
        flags n ∧
      decide (flags &&& keyExchangeInitiateFlag ≠ 0) = false ∧
      decide (flags &&& keyExchangeSimultaneousInitiateFlag ≠ 0) =
        decide ((s.view y).answerKeys = .offered) := by
  cases hpending : (s.view y).pending with
  | true =>
    obtain ⟨ring, hring, hsome⟩ := hstate.pending hpending
    have hkeys : (s.view y).answerKeys = .offered := if_pos hpending
    rw [hkeys]
    exact ⟨rings, ring, _, _, grows_refl rings, hring, fun _ => rfl, h.drawn y, rfl,
      .simultaneous _ _ hi hm.signed hsome (congrArg some hm.parameters), by decide, by decide⟩
  | false =>
    have hkeys : (s.view y).answerKeys = .answering := if_neg (by simp [hpending])
    obtain ⟨base, hb⟩ := hp.generating.total y (d.world y).drawn
    obtain ⟨ratchet, hk⟩ := hp.generating.total y ((d.world y).drawn + 1)
    rw [hkeys]
    refine ⟨setRing rings y .answering ⟨base, ratchet, 0⟩, _, keyExchangeResponseFlag,
      (d.world y).drawn + 2, grows_setRing (h.notAnswered y hnew) _, setRing_self _,
      fun keys => setRing_of_ne _ (Or.inl (Party.other_ne y)), fun keys ring hring => ?_,
      setRing_of_ne _ (Or.inr (by decide)), ?_, by decide, by decide⟩
    · cases keys with
      | offered =>
        rw [setRing_of_ne _ (Or.inr (by decide))] at hring
        exact h.drawn y _ ring hring
      | answering =>
        rw [setRing_self] at hring
        cases hring
        exact ⟨_, hb⟩
    · have hsigned : m.checkSignature (peers.context y).provider = .ok () := hm.signed
      have hfound := FoundKeys.fresh base ratchet hi hsigned (hstate.idle hpending) hb hk
      rw [(h.world y).identity] at hfound
      rw [← hm.parameters]
      exact hfound

/-- **Answering the peer's offer.** -/
theorem Shows.deliver_initiate (hp : peers.Working) (hid : ∀ x, (ident x).Matched peers.provider)
    (htrust : ∀ x, peers.trusted x (peers.address x) (some (ident x.other).publicKey)
      (ident x.other).publicKey = true) (h : Shows peers ident rings d s) {i : Nat}
    (hi : (s.view y).inbox[i]? = some .initiate) (hnew : (s.view y).answered = false) :
    ∃ rings', Shows peers ident rings' (d.step peers (.deliver y i)) (s.step (.deliver y i)) := by
  have hworld := h.world y
  obtain ⟨record, hr, hstate⟩ := hworld.record
  obtain ⟨m, hget, hsaid⟩ := forall₂_getElem? (h.inbox y) hi
  obtain @⟨ring', _, hring', hm, hkeys, hsequence⟩ := hsaid
  obtain ⟨rings', ring, flags, n, hgrow, hring, hother, hdrawn, hsame, hfound, hflag, hsim⟩ :=
    h.answerKeys hp hnew hstate hm hkeys
  obtain ⟨sending, hdraws, hrole⟩ := exists_draws (hp.generating.total y)
    (ring.parameters peers ident y ring') n
  obtain ⟨random, hrandom⟩ := hp.signatureRandom y (n + sending.toList.length)
  have hagrees : Agrees (peers.context y) (peers.address y) m (d.world y) record
      ⟨record.makeRoom.setState (((ring.parameters peers ident y ring').session peers.provider
        sending).toState peers.provider), ring.parameters peers ident y ring', flags⟩
      (n + sending.toList.length) :=
    ⟨hkeys.identity ▸ hworld.trusted, hr, n, sending, hfound, hdraws, rfl, rfl⟩
  have hcall := initiate_of_agrees hm hagrees hrandom
  rw [Handshake.step, hget, Joint.step, hi]
  dsimp only
  rw [hcall]
  have hview : ((s.modify y fun v => (v.take i).answer).modify y.other
      (View.send (.response (s.view y).answerKeys))).view y = ((s.view y).take i).answer := by
    rw [Joint.view_modify_other', Joint.view_modify_self]
  refine ⟨rings', h.put hgrow ?_ (Function.update_of_ne (Party.other_ne y) _ _) rfl
    (Function.update_self ..) (.cons (says_response hring (hgrow _ _ _ hring') hflag hsim
      ⟨rfl, rfl, rfl, checkSignature_of_signed hp (hid y) rfl rfl⟩ hsequence) .nil)
    hother ?_ ?_ ?_ hdrawn ?_ ?_⟩
  · rw [Joint.view_modify_self, Joint.view_modify_other]
    rfl
  · rw [hview]
    dsimp only [Handshake.afterDeliver]
    rw [Function.update_self]
    exact ((hworld.mono hgrow rfl rfl).agree (htrust y) hring (hgrow _ _ _ hring') hkeys hr hrole
      rfl _).mono (grows_refl _) rfl rfl
  · rw [hview]
    dsimp only [Handshake.afterDeliver]
    rw [Function.update_of_ne (Party.other_ne y).symm, Function.update_self]
    exact forall₂_eraseIdx ((h.inbox y).imp fun _ _ hm => hm.mono hgrow)
  · rw [hview]
    exact h.offered y
  · rw [hview, hsame]
    exact h.notOffered y
  · rw [hview]
    intro hanswered
    cases hanswered

/-- **Taking an answer**, or dropping it. -/
theorem Shows.deliver_response (hp : peers.Working)
    (htrust : ∀ x, peers.trusted x (peers.address x) (some (ident x.other).publicKey)
      (ident x.other).publicKey = true) (h : Shows peers ident rings d s) {i : Nat} {keys : Keys}
    (hi : (s.view y).inbox[i]? = some (.response keys)) :
    Shows peers ident rings (d.step peers (.deliver y i)) (s.step (.deliver y i)) := by
  have hworld := h.world y
  obtain ⟨record, hr, hstate⟩ := hworld.record
  obtain ⟨m, hget, hsaid⟩ := forall₂_getElem? (h.inbox y) hi
  obtain _ | @⟨_, ring', offer, _, hring', hoffer, hm, hsim, hkeys, hsequence⟩ := hsaid
  obtain ⟨w', hanswer, hcall, hself⟩ : ∃ w',
      (sessionBuilderProcessKeyExchangeMessage (peers.context y) (peers.address y) m
        (d.world y)).1.toOption.bind id = none ∧
      (sessionBuilderProcessKeyExchangeMessage (peers.context y) (peers.address y) m
        (d.world y)).2 = w' ∧
      ShowsWorld peers ident rings y (((s.view y).take i).accept keys) w' := by
    cases hpending : (s.view y).pending with
    | false =>
      have hloaded : (d.world y).record (peers.context y).provider (peers.address y) =
        .ok record := hr
      obtain ⟨hsame, hanswer⟩ := response_of_idle hm hloaded (hstate.idle hpending)
      have haccept : ((s.view y).take i).accept keys = (s.view y).take i :=
        if_neg (by simp [View.take, hpending])
      rw [haccept]
      exact ⟨_, hanswer, hsame, hworld.mono (grows_refl _) rfl rfl⟩
    | true =>
      obtain ⟨ring, hring, hsome⟩ := hstate.pending hpending
      obtain rfl : offer = ring := Option.some.inj (hoffer.symm.trans hring)
      obtain ⟨sending, hdraws, hrole⟩ := exists_draws (hp.generating.total y)
        (offer.parameters peers ident y ring') (d.world y).drawn
      obtain ⟨agreed, hrecord, hagrees⟩ : ∃ agreed : Agreed Priv Pub B,
          agreed.record = record.makeRoom.setState (((offer.parameters peers ident y
            ring').session peers.provider sending).toState peers.provider) ∧
          Agrees (peers.context y) (peers.address y) m (d.world y) record agreed
            ((d.world y).drawn + sending.toList.length) :=
        ⟨⟨_, offer.parameters peers ident y ring', 0⟩, rfl, hkeys.identity ▸ hworld.trusted, hr, _,
          sending, .response _ _ hm hsome hsequence.symm (congrArg some hkeys.parameters), hdraws,
          rfl, rfl⟩
      have haccept : ((s.view y).take i).accept keys = ((s.view y).take i).agree .offered keys :=
        if_pos hpending
      rw [response_of_agrees hm hagrees hkeys.signed, haccept]
      exact ⟨_, rfl, rfl, (hworld.agree (htrust y) hring hring' hkeys hr hrole hrecord _).mono
        (grows_refl _) rfl rfl⟩
  rw [Handshake.step, hget, Joint.step, hi]
  dsimp only
  have hoffered : (((s.view y).take i).accept keys).offered = (s.view y).offered := by
    unfold View.accept
    split <;> rfl
  have hanswered : (((s.view y).take i).accept keys).answered = (s.view y).answered := by
    unfold View.accept
    split <;> rfl
  have hinbox : (((s.view y).take i).accept keys).inbox = (s.view y).inbox.eraseIdx i := by
    unfold View.accept
    split <;> rfl
  have hsilent : List.Forall₂ (Says peers ident rings y.other) [] [] := .nil
  refine h.put (grows_refl rings) ?_ (Function.update_of_ne (Party.other_ne y) _ _) rfl ?_
    hsilent (fun _ => rfl) ?_ ?_ ?_ (h.drawn y) ?_ ?_
  · rw [Joint.view_modify_other, List.append_nil]
  · dsimp only [Handshake.afterDeliver]
    rw [Function.update_self, hanswer]
    rfl
  · dsimp only [Handshake.afterDeliver]
    rw [Function.update_self, Joint.view_modify_self, hcall]
    exact hself
  · dsimp only [Handshake.afterDeliver]
    rw [Function.update_of_ne (Party.other_ne y).symm, Function.update_self,
      Joint.view_modify_self, hinbox]
    exact forall₂_eraseIdx (h.inbox y)
  · rw [Joint.view_modify_self, hoffered]
    exact h.offered y
  · rw [Joint.view_modify_self, hoffered]
    exact h.notOffered y
  · rw [Joint.view_modify_self, hanswered]
    exact h.notAnswered y

omit [DecidableEq Addr] in
/-- What overtakes in the outline overtakes. -/
theorem Shows.overtakes (h : Shows peers ident rings d s) {act : HandshakeAct}
    (ho : s.Overtakes act) : d.Overtakes act := by
  cases act with
  | process x => exact ho
  | deliver y i =>
    obtain ⟨hi, hmem⟩ := ho
    obtain ⟨m, hget, hsaid⟩ := forall₂_getElem? (h.inbox y) hi
    obtain ⟨j, hj⟩ := List.mem_iff_getElem?.1 hmem
    obtain ⟨m', hget', hsaid'⟩ := forall₂_getElem? (h.inbox y) hj
    cases hsaid with
    | response _ _ hm hsim _ _ =>
      cases hsaid' with
      | initiate _ hm' _ _ =>
        exact ⟨m, hget, hm, hsim.trans (by decide), m', List.mem_of_getElem? hget', hm'⟩

/-- **Every act does what it does in the outline.** -/
theorem Shows.step (hp : peers.Working) (hid : ∀ x, (ident x).Matched peers.provider)
    (htrust : ∀ x, peers.trusted x (peers.address x) (some (ident x.other).publicKey)
      (ident x.other).publicKey = true) (h : Shows peers ident rings d s)
    (hs : s ∈ Joint.configurations) (act : HandshakeAct) :
    ∃ rings', Shows peers ident rings' (d.step peers act) (s.step act) := by
  cases act with
  | process x =>
    cases hx : (s.view x).offered with
    | true =>
      rw [Handshake.step, h.offered x, hx, if_pos rfl, Joint.step, hx, if_pos rfl]
      exact ⟨rings, h⟩
    | false => exact h.process hp hid hx
  | deliver y i =>
    rcases hi : (s.view y).inbox[i]? with _ | _ | keys
    · have hnone : (d.inbox y)[i]? = none := by
        rw [List.getElem?_eq_none_iff, ← (h.inbox y).length_eq]
        exact List.getElem?_eq_none_iff.1 hi
      rw [Handshake.step, hnone, Joint.step, hi]
      exact ⟨rings, h⟩
    · exact h.deliver_initiate hp hid htrust hi
        (((Joint.configurations_spec s hs).2.1 y (Joint.mem_parties y)).2 (List.mem_of_getElem? hi))
    · exact ⟨rings, h.deliver_response hp htrust hi⟩

/-- **Every orderly run does what it does in the outline**, and is orderly there. -/
theorem Shows.run (hp : peers.Working) (hid : ∀ x, (ident x).Matched peers.provider)
    (htrust : ∀ x, peers.trusted x (peers.address x) (some (ident x.other).publicKey)
      (ident x.other).publicKey = true) (acts : List HandshakeAct) :
    ∀ {rings : Party → Keys → Option (Ring Priv)} {d : Handshake Addr Priv Pub B} {s : Joint},
      Shows peers ident rings d s → s ∈ Joint.configurations → d.Orderly peers acts →
      ∃ rings' s', Shows peers ident rings' (d.run peers acts) s' ∧ s' ∈ Joint.configurations := by
  induction acts with
  | nil => exact fun h hs _ => ⟨_, _, h, hs⟩
  | cons act acts ih =>
    intro rings d s h hs ho
    obtain ⟨rings', h'⟩ := h.step hp hid htrust hs act
    exact ih h' (Joint.step_mem_configurations hs fun hover => ho.1 (h.overtakes hover)) ho.2

omit [DecidableEq Addr] in
theorem Handshake.Started.shows (h : d.Started peers) :
    Shows peers (fun x => (d.world x).identityKeyPair) (fun _ _ => none) d Joint.start where
  world x := by
    have hr : (d.world x).record peers.provider (peers.address x) =
        .ok (SessionRecord.create none) := by rw [World.record_eq, h.sessions x]
    refine ⟨rfl, h.trusted x _ (Or.inl rfl), _, hr, ?_⟩
    cases x <;> exact ⟨fun hp => (by cases hp), fun _ => rfl, fun _ _ heq => (by cases heq)⟩
  inbox x := by
    rw [h.inbox x]
    cases x <;> exact .nil
  offered x := by
    rw [h.offered x]
    cases x <;> rfl
  drawn _ _ _ hring := by cases hring
  notOffered _ _ := rfl
  notAnswered _ _ := rfl

end Steps

/-! ## 4. Agreement -/

section FirstMessage

variable [DecidableEq Pub] [DecidableEq B] {P : Provider Priv Pub B} {rng : Rng Priv B}
  {a : AliceParameters Priv Pub} {b : BobParameters Priv Pub} {s s' t t' : Session Priv Pub B}
  {sending : Priv} {p : B} {c : CiphertextMessage Pub B}

/-- **Bob accepts Alice's first message**: her ratchet key opens the chain on which she sends. -/
theorem Matching.receive_from_alice (hm : Matching P a b)
    (hs : s.SameKeys (Session.alice P a sending)) (ht : t.SameKeys (Session.bob P b))
    (hsend : s.send P p = .ok (c, s')) (hrng : ∀ n, ∃ k, rng.privateKey n = .ok k) (n : Nat) :
    ∃ t' n', t.receive P rng c.inner n = (.ok (p, t'), n') := by
  have hnext : s.sender.next = 0 := by rw [hs.sender]; rfl
  obtain ⟨t', n', hreceive, -⟩ := (hm.reads_alice hs ht).receive
    (carries_of_send hsend (by rw [hnext]; decide)) hrng
    (Window.request_of_ahead (Nat.zero_le _) (by
      rw [Session.counter_of_send hsend (by rw [hnext]; decide), hnext]
      exact Nat.zero_le _)) n
  exact ⟨t', n', hreceive⟩

/-- **Alice accepts Bob's first message**: she has started with the chain on which he sends. -/
theorem Matching.receive_from_bob (hm : Matching P a b)
    (hs : s.SameKeys (Session.alice P a sending)) (ht : t.SameKeys (Session.bob P b))
    (hsend : t.send P p = .ok (c, t')) (hrng : ∀ n, ∃ k, rng.privateKey n = .ok k) (n : Nat) :
    ∃ s' n', s.receive P rng c.inner n = (.ok (p, s'), n') := by
  have hnext : t.sender.next = 0 := by rw [ht.sender]; rfl
  obtain ⟨s', n', hreceive, -⟩ := (hm.reads_bob hs ht).receive
    (carries_of_send hsend (by rw [hnext]; decide)) hrng
    (Window.request_of_ahead (Nat.zero_le _) (by
      rw [Session.counter_of_send hsend (by rw [hnext]; decide), hnext]
      exact Nat.zero_le _)) n
  exact ⟨s', n', hreceive⟩

end FirstMessage

/-- Without a pending pre key message, sending fails only if the cipher does. -/
theorem send_error_of_acknowledged {P : Provider Priv Pub B} {s : Session Priv Pub B} {p : B}
    {e : SgError} (hs : s.pendingPreKey = none) (h : s.send P p = .error e) :
    P.encrypt .cbcPkcs5 (P.messageKeysAt s.sender.start s.sender.next).cipherKey
      (P.messageKeysAt s.sender.start s.sender.next).iv p = .error e := by
  rw [Session.send] at h
  cases hc : P.encrypt .cbcPkcs5 (P.messageKeysAt s.sender.start s.sender.next).cipherKey
      (P.messageKeysAt s.sender.start s.sender.next).iv p with
  | error e' =>
    rw [hc] at h
    cases h
    rfl
  | ok ciphertext =>
    simp only [hc, Session.wrap, hs] at h
    cases h

theorem Session.SameKeys.inRange {s t : Session Priv Pub B} (h : s.SameKeys t) (ht : t.InRange) :
    s.InRange where
  sender := h.sender ▸ ht.sender
  receivers := h.receivers ▸ ht.receivers

section Front

variable [DecidableEq Addr] [LinearOrder Pub] [DecidableEq B] {peers : Peers Addr Priv Pub B}
  {x : Party} {w : World Addr Priv Pub B} {record : SessionRecord Priv Pub B}
  {s : Session Priv Pub B} {p : B}

/-- Encrypting is sending with the current session. -/
theorem call_encrypt (hr : w.record peers.provider (peers.address x) = .ok record)
    (hs : record.state = s.toState peers.provider) :
    (peers.call x (.encrypt p) w).1 =
      (s.send peers.provider p).map fun result => Reply.ciphertext result.1 := by
  have hcurrent : w.Current (peers.context x).provider (peers.address x) s record.previousStates :=
    current_of_record hr hs
  rw [Peers.call, Command.run, Command.call, Call.run, Op.bind_apply, Peers.cipher,
    encrypt_current hcurrent, show (peers.context x).provider = peers.provider from rfl]
  cases s.send peers.provider p with
  | error e => rfl
  | ok result => rfl

/-- The current session is the first to try a message. -/
theorem call_decryptSignal (hr : w.record peers.provider (peers.address x) = .ok record)
    (hs : record.state = s.toState peers.provider) (hrange : s.InRange) {m : SignalMessage Pub B}
    {s' : Session Priv Pub B} {n : Nat}
    (hreceive : s.receive peers.provider (peers.rng x) m w.drawn = (.ok (p, s'), n)) :
    ∃ w', peers.call x (.decryptSignal m) w = (.ok (.plaintext p), w') := by
  have hcurrent : w.Current (peers.context x).provider (peers.address x) s record.previousStates :=
    current_of_record hr hs
  have hcall := decryptSignal_current hcurrent (decryptFromRecord_current rfl hrange hreceive)
  exact ⟨_, Op.bind_of_ok hcall⟩

end Front

section Agreement

variable [DecidableEq Addr] [LinearOrder Pub] [DecidableEq B] {peers : Peers Addr Priv Pub B}
  {d : Handshake Addr Priv Pub B} {x : Party}

/-- **The messages of a party are decrypted by the other.**  Encrypting fails only if the cipher
does, and what it gives is a signal message that the other one decrypts to the plaintext. -/
def Handshake.Understood (peers : Peers Addr Priv Pub B) (d : Handshake Addr Priv Pub B)
    (x : Party) : Prop :=
  ∀ p, match (peers.call x (.encrypt p) (d.world x)).1 with
    | .error e => ∃ key iv, peers.provider.encrypt .cbcPkcs5 key iv p = .error e
    | .ok out => ∃ m w', out = .ciphertext (.signal m) ∧
      peers.call x.other (.decryptSignal m) (d.world x.other) = (.ok (.plaintext p), w')

section Mirror

variable {ident : Party → EcKeyPair Priv Pub} {rings : Party → Keys → Option (Ring Priv)}
  {s : Joint}

omit [DecidableEq Addr] [LinearOrder Pub] [DecidableEq B] in
/-- The two parties see the same keys from opposite sides. -/
theorem Ring.mirrored (hid : ∀ x, (ident x).Matched peers.provider) (x : Party)
    (ring ring' : Ring Priv) : Mirrored peers.provider (ring.parameters peers ident x ring')
      (ring'.parameters peers ident x.other ring) :=
  ⟨hid x, rfl, rfl, rfl, rfl, rfl⟩

omit [DecidableEq Addr] [LinearOrder Pub] [DecidableEq B] in
theorem Ring.mirrored' (hid : ∀ x, (ident x).Matched peers.provider) (x : Party)
    (ring ring' : Ring Priv) : Mirrored peers.provider (ring'.parameters peers ident x.other ring)
      (ring.parameters peers ident x ring') := by
  refine ⟨hid x.other, rfl, rfl, ?_, rfl, rfl⟩
  dsimp only [Ring.parameters]
  rw [Party.other_other]

/-- **Sessions from the same keys understand each other.** -/
theorem Shows.understood (hp : peers.Working) (hid : ∀ x, (ident x).Matched peers.provider)
    (h : Shows peers ident rings d s) {own theirs : Keys}
    (hx : (s.view x).session = some (own, theirs))
    (hy : (s.view x.other).session = some (theirs, own)) : d.Understood peers x := by
  obtain ⟨record, hr, hstate⟩ := (h.world x).record
  obtain ⟨ring, ring', t, sending, hring, hring', ht, hprekey, hkeys, hrole⟩ :=
    hstate.session _ _ hx
  obtain ⟨recordY, hrY, hstateY⟩ := (h.world x.other).record
  obtain ⟨ringY, ringY', u, sendingY, hringY, hringY', hu, -, hkeysY, hroleY⟩ :=
    hstateY.session _ _ hy
  rw [Party.other_other] at hringY'
  cases hring.symm.trans hringY'
  cases hring'.symm.trans hringY
  have hpq := ring.mirrored hid x ring'
  have hqp := ring.mirrored' hid x ring'
  have hne : peers.provider.publicKey ring.base ≠ peers.provider.publicKey ring'.base := by
    obtain ⟨n, hn⟩ := h.drawn x _ ring hring
    obtain ⟨n', hn'⟩ := h.drawn x.other _ ring' hring'
    intro heq
    rw [← hp.publicKey_inj heq] at hn'
    exact Party.other_ne x (hp.generating.inj hn' hn).1
  have hroles := isAlice_mirrored hpq hqp hne
  -- the message of the one is received by the other, whoever plays Alice
  have hreceive : ∀ p c t', t.send peers.provider p = .ok (c, t') → ∃ u' n',
      u.receive peers.provider (peers.rng x.other) c.inner (d.world x.other).drawn =
        (.ok (p, u'), n') := by
    intro p c t' hsend
    rw [← hrole, ← hroleY] at hroles
    rcases sending with _ | k <;> rcases sendingY with _ | k'
    · cases hroles
    · exact (hqp.matching hpq).receive_from_bob hkeysY hkeys hsend
        (hp.generating.total x.other) _
    · exact (hpq.matching hqp).receive_from_alice hkeys hkeysY hsend
        (hp.generating.total x.other) _
    · cases hroles
  intro p
  rw [call_encrypt hr ht]
  cases hsend : t.send peers.provider p with
  | error e => exact ⟨_, _, send_error_of_acknowledged hprekey hsend⟩
  | ok result =>
    obtain ⟨c, t'⟩ := result
    obtain ⟨u', n', hu'⟩ := hreceive p c t' hsend
    obtain ⟨ciphertext, -, hwrap, -⟩ := Session.send_ok_iff.1 hsend
    rw [Session.wrap, hprekey] at hwrap
    cases hwrap
    obtain ⟨w', hw'⟩ := call_decryptSignal hrY hu
      (hkeysY.inRange (SymmetricParameters.session_spec ..).1) hu'
    exact ⟨_, w', rfl, hw'⟩

end Mirror

/-- **Agreement by key exchange messages.**  Two parties without sessions that trust each other
call `session_builder_process` at most once each, and every message is delivered exactly once.  If
no answer to a simultaneous initiate overtakes an initiate of its sender, then, once no message is
on its way, each party decrypts what the other encrypts. -/
theorem key_exchange_agreement (hp : peers.Working) (hd : d.Started peers)
    (acts : List HandshakeAct) (horderly : d.Orderly peers acts)
    (hfinished : (d.run peers acts).Finished) (x : Party) :
    (d.run peers acts).Understood peers x := by
  have htrust : ∀ x, peers.trusted x (peers.address x)
      (some (d.world x.other).identityKeyPair.publicKey)
      (d.world x.other).identityKeyPair.publicKey = true := fun x => hd.trusted x _ (Or.inr rfl)
  obtain ⟨rings, s, h, hs⟩ := hd.shows.run hp hd.matched htrust acts
    Joint.start_mem_configurations horderly
  have hempty : ∀ y, (s.view y).inbox = [] := by
    intro y
    have hinbox := h.inbox y
    rw [hfinished.1 y] at hinbox
    exact List.forall₂_nil_right_iff.1 hinbox
  have hoffered : s.alice.offered = true ∨ s.bob.offered = true := by
    obtain ⟨y, hy⟩ := hfinished.2
    rw [h.offered y] at hy
    cases y with
    | alice => exact Or.inl hy
    | bob => exact Or.inr hy
  obtain ⟨a, -, b, -, ha, hb⟩ := (Joint.configurations_spec s hs).2.2
    ⟨hempty .alice, hempty .bob, hoffered⟩
  cases x with
  | alice => exact h.understood hp hd.matched ha hb
  | bob => exact h.understood hp hd.matched hb ha

end Agreement

/-- The sample parties without sessions. -/
def meetingStart : Handshake Nat Nat Nat Term where
  world
    | .alice => sampleStore
    | .bob => { sampleStore with identityKeyPair := symbolic.pair 11 }
  inbox _ := []
  offered _ := false

theorem samplePeers_working : samplePeers.Working where
  generating := ⟨sample_fresh.total, sample_fresh.inj⟩
  word x n := by cases x <;> exact ⟨_, rfl⟩
  signatureRandom x n := by cases x <;> exact ⟨_, rfl⟩
  verifies k m r := by simp [samplePeers, symbolic]
  publicKey_inj := symbolic_ideal.publicKey_inj

theorem meeting_started : meetingStart.Started samplePeers where
  sessions x := by cases x <;> rfl
  inbox _ := rfl
  offered _ := rfl
  matched x := by cases x <;> rfl
  trusted _ _ _ := rfl

/-- Both offers cross, and the answers arrive after them. -/
def crossingOffers : List HandshakeAct :=
  [.process .alice, .process .bob, .deliver .alice 0, .deliver .bob 0, .deliver .alice 0,
    .deliver .bob 0]

/-- Both offers cross, and Alice's answer arrives before her offer. -/
def overtakingAnswer : List HandshakeAct :=
  [.process .alice, .process .bob, .deliver .alice 0, .deliver .bob 1, .deliver .bob 0,
    .deliver .alice 0]

theorem meeting_orderly : meetingStart.Orderly samplePeers crossingOffers := by decide +kernel

/-- The answers to two crossing offers are superfluous. -/
theorem key_exchange_agreement_crossing :
    (∀ x, (meetingStart.run samplePeers crossingOffers).inbox x = []) ∧
      (meetingStart.run samplePeers crossingOffers).Understood samplePeers .alice := by
  have hempty : ∀ x, (meetingStart.run samplePeers crossingOffers).inbox x = [] := by
    intro x
    cases x <;> decide +kernel
  exact ⟨hempty, key_exchange_agreement samplePeers_working meeting_started crossingOffers
    meeting_orderly ⟨hempty, .alice, by decide +kernel⟩ .alice⟩

/-- The code with which the other party refuses what a party encrypts. -/
def Handshake.refusal (d : Handshake Nat Nat Nat Term) (x : Party) (p : Term) : Option SgError :=
  match (samplePeers.call x (.encrypt p) (d.world x)).1 with
  | .ok (.ciphertext (.signal m)) =>
    match (samplePeers.call x.other (.decryptSignal m) (d.world x.other)).1 with
    | .ok _ => none
    | .error e => some e
  | _ => none

theorem not_understood_of_refusal {d : Handshake Nat Nat Nat Term} {x : Party} {p : Term}
    {e : SgError} (h : d.refusal x p = some e) : ¬ d.Understood samplePeers x := by
  intro hu
  have hp := hu p
  unfold Handshake.refusal at h
  cases hout : (samplePeers.call x (.encrypt p) (d.world x)).1 with
  | error e' =>
    rw [hout] at h
    cases h
  | ok out =>
    rw [hout] at h hp
    obtain ⟨m, w', rfl, hdecrypt⟩ := hp
    dsimp only at h
    rw [hdecrypt] at h
    cases h

/-- **Alice's answer overtakes her offer**: Bob ends in a session of which Alice has no part. -/
theorem overtaking_answer_splits_sessions :
    (meetingStart.run samplePeers overtakingAnswer).Finished ∧
      ¬ (meetingStart.run samplePeers overtakingAnswer).Understood samplePeers .bob := by
  refine ⟨⟨fun x => ?_, .alice, by decide +kernel⟩, not_understood_of_refusal (p := .text 5)
    (e := .invalidMessage) (by decide +kernel)⟩
  cases x <;> decide +kernel

end SignalProtocol
