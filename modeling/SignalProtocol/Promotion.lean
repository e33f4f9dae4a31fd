/-
# Which session becomes current

`session_cipher_decrypt_from_record_and_signal_message` tries a message on copies of the states of
a record, the current one first, and goes on to the next state only after
`SG_ERR_INVALID_MESSAGE`.  The copy that decrypts the message becomes the current state.

* section 1: this is all that happens to the record: one state is replaced by its updated copy
  and moves to the front, and the others stay in their order (`Promoted`);
* section 2: when both parties use the library, no other state stops the search, so a message
  that some state can decrypt is accepted; and the parties' current sessions are then the same
  one, as long as the sender has not moved on to another.
-/
import SignalProtocol.Network
import SignalProtocol.WellFormed

namespace SignalProtocol

variable {Addr Priv Pub B : Type}

/-! ## 1. What happens to the record -/

section Record

variable [LinearOrder Pub] [DecidableEq B]

/-- **The keys of a state authenticate a message**, which decrypts to `p` and leaves `state'`: the
chain and the message keys come from the state, and the MAC verifies under them. -/
def Authenticates (P : Provider Priv Pub B) (rng : Rng Priv B) (state : SessionState Priv Pub B)
    (m : SignalMessage Pub B) (p : B) (state' : SessionState Priv Pub B) : Prop :=
  ∃ n n' chain keys remoteIdentity localIdentity,
    sessionCipherGetOrCreateChainKey P rng state m.senderRatchetKey n = (.ok chain, n') ∧
    (sessionCipherGetOrCreateMessageKeys P m.senderRatchetKey chain.1 m.counter).onCopy chain.2 =
      .ok keys ∧
    keys.2.remoteIdentityPublic = some remoteIdentity ∧
    keys.2.localIdentityPublic = some localIdentity ∧
    m.verifyMac P remoteIdentity localIdentity keys.1.macKey = true ∧
    sessionCipherGetPlaintext P m.messageVersion.toUInt32 keys.1 m.ciphertext = .ok p ∧
    state' = keys.2.clearUnacknowledgedPreKeyMessage

/-- **A record after it has accepted a message.**  The state at some position authenticates it.
Its updated copy is the current state, and the previous states are all the other states, in their
order: the former current one first, if it is not the one that moved. -/
def Promoted (P : Provider Priv Pub B) (rng : Rng Priv B) (record : SessionRecord Priv Pub B)
    (m : SignalMessage Pub B) (p : B) (record' : SessionRecord Priv Pub B) : Prop :=
  ∃ i state, record.states[i]? = some state ∧ Authenticates P rng state m p record'.state ∧
    record'.previousStates = record.states.eraseIdx i

variable {P : Provider Priv Pub B} {rng : Rng Priv B} {record record' : SessionRecord Priv Pub B}
  {state state' : SessionState Priv Pub B} {m : SignalMessage Pub B} {p : B} {n n' : Nat}

/-- What decrypting from a state has gone through. -/
theorem authenticates_of_decryptFromState
    (h : sessionCipherDecryptFromState P rng state m n = (.ok (p, state'), n')) :
    Authenticates P rng state m p state' := by
  obtain ⟨_, n₁, -, h⟩ := Op.bind_ok_iff.1 h
  obtain ⟨_, n₂, -, h⟩ := Op.bind_ok_iff.1 h
  obtain ⟨chain, n₃, hchain, h⟩ := Op.bind_ok_iff.1 h
  obtain ⟨keys, n₄, hkeys, h⟩ := Op.bind_ok_iff.1 h
  obtain ⟨remote, n₅, hremote, h⟩ := Op.bind_ok_iff.1 h
  obtain ⟨own, n₆, hown, h⟩ := Op.bind_ok_iff.1 h
  obtain ⟨_, n₇, hmac, h⟩ := Op.bind_ok_iff.1 h
  obtain ⟨plaintext, n₈, hplaintext, h⟩ := Op.bind_ok_iff.1 h
  cases h
  rw [Op.ofExcept_apply] at hkeys hplaintext
  exact ⟨n₂, n₃, chain, keys, remote, own, hchain, (Prod.mk.inj hkeys).1,
    (Op.ofOption_ok_iff.1 hremote).1, (Op.ofOption_ok_iff.1 hown).1, (Op.require_ok_iff.1 hmac).1,
    (Prod.mk.inj hplaintext).1, rfl⟩

/-- **A record that can be searched**: within its limit, with states that can be copied. -/
structure Searchable (P : Provider Priv Pub B) (record : SessionRecord Priv Pub B) : Prop where
  length : record.previousStates.length ≤ archivedStatesMaxLength
  readable : record.Readable P

/-- **Decrypting promotes the state that authenticates the message.** -/
theorem Searchable.promoted (hr : Searchable P record)
    (h : sessionCipherDecryptFromRecord P rng record m n = (.ok (p, record'), n')) :
    Promoted P rng record m p record' := by
  obtain ⟨state', i, ⟨state, copy, k, hi, hcopy, hdecrypt⟩, rfl⟩ := decryptFromRecord_ok h
  rw [(hr.readable state (List.mem_of_getElem? hi)).copy] at hcopy
  cases hcopy
  have hlt : i < record.states.length := (List.getElem?_eq_some_iff.1 hi).1
  obtain ⟨hstate, hprevious⟩ := List.cons.inj (states_accept state' hr.length hlt)
  refine ⟨i, state, hi, ?_, hprevious⟩
  have hstate' : (record.accept state' i).state = state' := hstate
  rw [hstate']
  exact authenticates_of_decryptFromState hdecrypt

end Record

/-! ## 2. The records that are searched -/

section Limits

variable {ctx : SignalContext Addr Priv Pub B} {w w' : World Addr Priv Pub B}
  {record record' : SessionRecord Priv Pub B} {address : Addr}

/-- Every stored record respects the limit. -/
def World.Limited (ctx : SignalContext Addr Priv Pub B) (w : World Addr Priv Pub B) : Prop :=
  w.All ctx fun record => record.previousStates.length ≤ archivedStatesMaxLength

/-- **A record that was loaded can be searched.** -/
theorem World.Limited.searchable (hw : w.Limited ctx)
    (h : w.record ctx.provider address = .ok record) : Searchable ctx.provider record := by
  refine ⟨?_, readable_of_record h⟩
  rcases record_cases h with ⟨-, rfl⟩ | ⟨-, stored, hstored, hread⟩
  · exact Nat.zero_le _
  · obtain ⟨current, -, hread⟩ := Op.exists_of_bind_eq_ok hread
    obtain ⟨previous, hprevious, hread⟩ := Op.exists_of_bind_eq_ok hread
    cases hread
    obtain ⟨record₀, rfl, hlen⟩ := hw address stored hstored
    rw [← (Op.mapM_ok_forall₂ hprevious).length_eq]
    exact (List.length_map _).trans_le hlen

/-- A new session may be put in front. -/
theorem Searchable.front {P : Provider Priv Pub B} (hr : Searchable P record)
    (s : Session Priv Pub B) : Searchable P (record.makeRoom.setState (s.toState P)) := by
  obtain ⟨rest, hstates, -, hlen⟩ := states_makeRoom_setState (s.toState P) hr.length
  have hrest := (List.cons.inj hstates).2
  exact ⟨hrest ▸ hlen, hr.readable.front s⟩

variable [LinearOrder Pub] [DecidableEq B]

/-- **The record on which a message for an address is tried**: the stored one, or the one that the
builder makes of it if it is a pre-key message. -/
inductive SearchedRecord (ctx : SignalContext Addr Priv Pub B) (address : Addr)
    (w : World Addr Priv Pub B) (c : CiphertextMessage Pub B) : SessionRecord Priv Pub B → Prop
  | stored {record : SessionRecord Priv Pub B} (h : w.record ctx.provider address = .ok record) :
      SearchedRecord ctx address w c record
  | built {record built : SessionRecord Priv Pub B} {m : PreKeySignalMessage Pub B}
      {used : Option UInt32} {w' : World Addr Priv Pub B} (hm : c = .preKey m)
      (h : w.record ctx.provider address = .ok record)
      (hb : sessionBuilderProcessPreKeySignalMessageV3 ctx record m w = (.ok (built, used), w')) :
      SearchedRecord ctx address w c built

omit [DecidableEq B] in
theorem World.Limited.searched (hw : w.Limited ctx) {c : CiphertextMessage Pub B}
    (h : SearchedRecord ctx address w c record) : Searchable ctx.provider record := by
  cases h with
  | stored h => exact hw.searchable h
  | built hm h hb =>
    obtain ⟨-, ⟨e, he⟩ | ⟨built, used, hr, hb⟩⟩ := processV3_outcome (state_makeRoom h) hb
    · cases he
    · cases hr
      cases hb with
      | known => exact hw.searchable h
      | new => exact (hw.searchable h).front _

variable [DecidableEq Addr]

/-- **In every history of calls all stored records respect the limit.** -/
theorem limited_history (hw : ∀ address, w.sessions address = none)
    (actions : List (Action Addr Priv Pub B)) (ha : ∀ s ∈ history ctx actions w, s.Atomic) :
    ∀ s ∈ history ctx actions w, s.before.Limited ctx := by
  intro s hs
  refine (history_invariant (I := World.Limited ctx) (fun w a hw ha => ?_) actions w ?_ ha s hs).1
  · cases a with
    | call c =>
      rcases hrun : c.run ctx w with ⟨r, w'⟩
      rw [Action.step_call hrun] at ha ⊢
      exact (Call.run_outcome (ha c rfl) hrun).all hw (fun _ h => h) fun hr hc _ =>
        hc.length_le (hw.searchable hr).length
    | storePreKey preKeyId keyPair => exact hw
    | replaceIdentity address identityKey => exact hw
  · intro address stored hstored
    rw [hw] at hstored
    cases hstored

end Limits

/-! ## 3. Two parties -/

section Network

variable [LinearOrder Pub] [DecidableEq B] {peers : Peers Addr Priv Pub B} {ident : Party → Priv}
  {d : Network Addr Priv Pub B} {l : Party → List (Session Priv Pub B)}
  {tag : Party → Nat → List B} {y : Party} {e : CiphertextMessage Pub B × Option Pub}
  {secret : List B} {record : SessionRecord Priv Pub B}

/-- An empty record decrypts nothing. -/
theorem not_decrypts_create {P : Provider Priv Pub B} {rng : Rng Priv B} {m : SignalMessage Pub B}
    {state state' : SessionState Priv Pub B} {p : B} {n n' : Nat}
    (hs : state ∈ (SessionRecord.create none : SessionRecord Priv Pub B).states) :
    sessionCipherDecryptFromState P rng state m n ≠ (.ok (p, state'), n') := by
  rw [List.mem_singleton.1 hs]
  intro h
  cases h

namespace Network.Sound

variable (h : d.Sound peers ident l tag)
include h

/-- **The record on which a message of the peer is tried** is empty or holds a family of
sessions. -/
theorem searched (he : SentWith peers ident d.drawn tag y.other secret e)
    (hs : SearchedRecord (peers.context y) (peers.address y) (d.world y) e.1 record) :
    record = SessionRecord.create none ∨ ∃ isFresh s rest,
      record = recordOf peers.provider isFresh s rest ∧
      Family peers ident d.drawn tag y (s :: rest) ∧ (∀ t ∈ s :: rest, t.InRange) ∧
      rest.length ≤ archivedStatesMaxLength := by
  have hrecord := record_of_holds (h.stored y).holds
  cases hs with
  | stored hr =>
    cases hrecord.symm.trans hr
    cases hl : l y with
    | nil => exact Or.inl rfl
    | cons s rest =>
      have hlen := (h.stored y).length
      rw [hl] at hlen
      exact Or.inr ⟨false, s, rest, rfl, hl ▸ h.family y, hl ▸ (h.stored y).inRange,
        Nat.le_of_succ_le_succ hlen⟩
  | @built record _ m used w' hm hr hb =>
    cases hrecord.symm.trans hr
    have hv3 := processV3_loadedAs (peers.context y) (l y) m (d.world y)
    cases hp : SignalProtocol.prepare peers.provider (d.world y).toStore (l y) m with
    | error err =>
      rw [show (peers.context y).provider = peers.provider from rfl, hp] at hv3
      cases hv3.symm.trans hb
    | ok result =>
      obtain ⟨l₁, used'⟩ := result
      rw [show (peers.context y).provider = peers.provider from rfl, hp] at hv3
      obtain ⟨isFresh, s, rest, rfl, hv3⟩ := hv3
      cases hv3.symm.trans hb
      obtain ⟨hversion, hinit⟩ := he.preKey m hm
      exact Or.inr ⟨isFresh, s, rest, rfl, h.prepare hversion hinit hp,
        inRange_prepare (h.stored y).inRange hp,
        Nat.le_of_succ_le_succ (length_prepare (h.stored y).length hp)⟩

/-- **What one state can decrypt, the record accepts.** -/
theorem accepts (hI : Ideal peers.provider) (hg : peers.Generating)
    (hid : ∀ x, peers.LongTerm (peers.provider.publicKey (ident x)))
    (he : SentWith peers ident d.drawn tag y.other secret e)
    (hs : SearchedRecord (peers.context y) (peers.address y) (d.world y) e.1 record)
    {state state' : SessionState Priv Pub B} {p : B} {k k' : Nat} (hstate : state ∈ record.states)
    (hdecrypt : sessionCipherDecryptFromState peers.provider (peers.rng y) state e.1.inner k =
      (.ok (p, state'), k')) (n : Nat) :
    ∃ record' n', sessionCipherDecryptFromRecord peers.provider (peers.rng y) record e.1.inner n =
      (.ok (p, record'), n') := by
  rcases h.searched he hs with rfl | ⟨isFresh, s, rest, rfl, hfamily, hrange, hlen⟩
  · exact absurd hdecrypt (not_decrypts_create hstate)
  · have hstate : state ∈ (s :: rest).map (Session.toState peers.provider) := hstate
    obtain ⟨t, ht, rfl⟩ := List.mem_map.1 hstate
    rw [decryptFromState_toState _ (hrange t ht)] at hdecrypt
    obtain ⟨⟨q, t'⟩, n₁, hreceive, hresult⟩ := Op.bind_ok_iff.1 hdecrypt
    cases hresult
    obtain ⟨t'', i, n', hany⟩ := Family.receiveAny hI hg hid he hreceive hfamily ht n
    rw [decryptFromRecord_recordOf _ _ _ hrange hlen, Op.bind_of_ok hany]
    exact ⟨_, _, rfl⟩

/-- **After a delivery the receiver's current session is the one the message was encrypted
in.** -/
theorem currentBaseKey_of_deliver [DecidableEq Addr] (hI : Ideal peers.provider)
    (hid : ∀ x, peers.LongTerm (peers.provider.publicKey (ident x)))
    (he : SentWith peers ident d.drawn tag y.other secret e)
    (hcount : e.1.inner.counter.toNat + 1 < 2 ^ 32) {out : Reply Pub B}
    {w' : World Addr Priv Pub B} (hr : peers.call y e.1.command (d.world y) = (.ok out, w')) :
    w'.currentBaseKey peers.provider (peers.address y) = e.2 := by
  obtain ⟨s, rest, tag', hsound, hcont, htracks⟩ := h.deliver_ok hI hid he hcount hr
  have hstored : Stored peers.provider (peers.address y) w' (s :: rest) := by
    have hstored := hsound.stored y
    dsimp only [Network.put] at hstored
    rwa [Function.update_self, Function.update_self] at hstored
  obtain ⟨base, hbase, hrooted⟩ := htracks.rooted
  obtain ⟨base', hbase', hrooted'⟩ := he.rooted
  rw [World.currentBaseKey, record_of_holds hstored.holds, hbase',
    (hrooted'.mono hcont.le).unique hI hid hrooted]
  exact hbase

end Network.Sound

variable [DecidableEq Addr]

/-- **Promotion and convergence.**

* In every record that a history of calls leads to, decrypting promotes the state whose keys
  authenticated the message and keeps all others, whatever the message is.
* Between two parties that use the library, after any run: a message of the peer that some state
  of the record can decrypt is accepted.
* There, after a party has accepted a message that was encrypted in the peer's still current
  session, both current sessions have the same base key. -/
theorem session_promotion (hI : Ideal peers.provider) (hg : peers.Generating)
    (hd : d.Started peers) (acts : List (NetworkAct Addr Priv Pub B))
    (hfresh : ∀ act ∈ acts, act.Fresh peers)
    (hcount : ∀ x, ∀ e ∈ (d.run peers acts).sent x, e.1.inner.counter.toNat + 1 < 2 ^ 32) :
    (∀ (ctx : SignalContext Addr Priv Pub B) (w : World Addr Priv Pub B)
      (actions : List (Action Addr Priv Pub B)), (∀ address, w.sessions address = none) →
      (∀ s ∈ history ctx actions w, s.Atomic) →
      ∀ s ∈ history ctx actions w, ∀ address c record,
        SearchedRecord ctx address s.before c record → ∀ m n p record' n',
        sessionCipherDecryptFromRecord ctx.provider ctx.rng record m n = (.ok (p, record'), n') →
        Promoted ctx.provider ctx.rng record m p record') ∧
      ∀ y, ∀ e ∈ (d.run peers acts).sent y.other,
        (∀ record, SearchedRecord (peers.context y) (peers.address y)
            ((d.run peers acts).world y) e.1 record →
          ∀ state ∈ record.states, ∀ k p state' k',
          sessionCipherDecryptFromState peers.provider (peers.rng y) state e.1.inner k =
            (.ok (p, state'), k') →
          ∀ n, ∃ record' n', sessionCipherDecryptFromRecord peers.provider (peers.rng y) record
            e.1.inner n = (.ok (p, record'), n')) ∧
        ∀ out w', peers.call y e.1.command ((d.run peers acts).world y) = (.ok out, w') →
          ((d.run peers acts).world y.other).currentBaseKey peers.provider
            (peers.address y.other) = e.2 →
          w'.currentBaseKey peers.provider (peers.address y) =
            ((d.run peers acts).world y.other).currentBaseKey peers.provider
              (peers.address y.other) := by
  refine ⟨fun ctx w actions hw ha s hs address c record hsearched m n p record' n' hdecrypt => ?_,
    fun y e hmem => ?_⟩
  · exact ((limited_history hw actions ha s hs).searched hsearched).promoted hdecrypt
  · obtain ⟨l, tag, h⟩ := hd.run_sound hI hg acts hfresh hcount
    obtain ⟨secret, he⟩ := h.sent _ e hmem
    refine ⟨fun record hsearched state hstate k p state' k' hdecrypt n => ?_,
      fun out w' hr hcurrent => ?_⟩
    · exact h.accepts hI hg hd.identity he hsearched hstate hdecrypt n
    · rw [hcurrent]
      exact h.currentBaseKey_of_deliver hI hd.identity he (hcount _ e hmem) hr

end Network

/-- The sample parties without sessions, each with a signed pre key. -/
def crossingStart : Network Nat Nat Nat Term where
  world
    | .alice => sampleStore
    | .bob => { sampleStore with
        identityKeyPair := symbolic.pair 11
        signedPreKeys := fun i => if i = 3 then some (symbolic.pair 12) else none }
  sent _ := []

/-- The bundle of the party with identity 1. -/
def crossingBundle : PreKeyBundle Nat Term :=
  { sampleBundle with
    signedPreKeyId := 7
    signedPreKeyPublic := some 22
    signedPreKeySignature := some (.signed 1 (.point 22) .nil)
    identityKey := some 1 }

/-- Both parties start a session, and their first messages cross: each now has the other's
session as its current one.  Then Alice answers in Bob's session. -/
def crossingActs : List (NetworkAct Nat Nat Nat Term) :=
  [.process .alice sampleBundle, .process .bob crossingBundle, .encrypt .alice (.text 0),
    .encrypt .bob (.text 1), .deliver .bob 0, .deliver .alice 0, .encrypt .alice (.text 2)]

theorem crossing_generating : samplePeers.Generating :=
  ⟨sample_fresh.total, sample_fresh.inj⟩

/-- Keys below 100 are not drawn. -/
theorem crossing_longTerm {key : Nat} (h : key < 100) : samplePeers.LongTerm key := by
  intro x n k hk heq
  have hkey : k = key := heq
  cases x <;> have := Except.ok.inj hk <;> omega

theorem crossing_started : crossingStart.Started samplePeers where
  sessions x := by cases x <;> rfl
  sent _ := rfl
  identity x := by cases x <;> exact crossing_longTerm (by decide)

theorem crossing_acts_fresh : ∀ act ∈ crossingActs, act.Fresh samplePeers := by
  intro act hact
  have hkeys : ∀ bundle ∈ [sampleBundle, crossingBundle],
      ∀ key ∈ bundle.keys, key < 100 := by decide
  cases act with
  | process x bundle =>
    intro key hkey
    refine crossing_longTerm (hkeys bundle ?_ key hkey)
    simp only [crossingActs, List.mem_cons, NetworkAct.process.injEq, reduceCtorEq,
      List.not_mem_nil, or_false] at hact
    rcases hact with ⟨-, rfl⟩ | ⟨-, rfl⟩ <;> simp
  | encrypt x plaintext => trivial
  | deliver y i => trivial
  | configure x preKeys signedPreKeys identities => trivial

/-- Alice's answer. -/
def crossingAnswer : CiphertextMessage Nat Term × Option Nat :=
  ((crossingStart.run samplePeers crossingActs).sent .alice).getLast (by decide +kernel)

/-- Before the answer arrives the current sessions differ; afterwards both are Bob's. -/
theorem session_promotion_crossing :
    ((crossingStart.run samplePeers crossingActs).world .bob).currentBaseKey symbolic 0 = some 100 ∧
      ((crossingStart.run samplePeers crossingActs).world .alice).currentBaseKey symbolic 1 =
        some 101 ∧
      (samplePeers.call .bob crossingAnswer.1.command
        ((crossingStart.run samplePeers crossingActs).world .bob)).2.currentBaseKey symbolic 0 =
          some 101 := by
  have halice : ((crossingStart.run samplePeers crossingActs).world .alice).currentBaseKey
      symbolic 1 = some 101 := by decide +kernel
  refine ⟨by decide +kernel, halice, ?_⟩
  have hok : (samplePeers.call .bob crossingAnswer.1.command
      ((crossingStart.run samplePeers crossingActs).world .bob)).1.isOk = true := by
    decide +kernel
  have hcount : ∀ x, ∀ e ∈ (crossingStart.run samplePeers crossingActs).sent x,
      e.1.inner.counter.toNat + 1 < 2 ^ 32 := by
    intro x
    cases x <;> decide +kernel
  rcases hcall : samplePeers.call .bob crossingAnswer.1.command
      ((crossingStart.run samplePeers crossingActs).world .bob) with ⟨err | out, w'⟩
  · rw [hcall] at hok
    cases hok
  · have hagree := ((session_promotion symbolic_ideal crossing_generating crossing_started
      crossingActs crossing_acts_fresh hcount).2 .bob crossingAnswer (List.getLast_mem _)).2 out w'
        hcall (halice.trans (by decide +kernel))
    exact hagree.trans halice

end SignalProtocol
