/-
# Replay protection for signal messages

Once a message has been accepted, no session of the record accepts it again.  The MAC fixes
the chain on which it can be accepted.  The session that accepted
it has spent the counter there and has a root key from which the chain cannot be opened
again, even after the chain was evicted; no other session of the record has the secret the
chain descends from.  `Retired` is this situation, and nothing that receives or sends ends it.
-/
import SignalProtocol.Lineage

namespace SignalProtocol

variable {Addr Priv Pub B : Type}

/-! ## 1. Retired messages -/

section Retired

variable [DecidableEq Pub] [DecidableEq B]

/-- A session that descends from the secret is in the record. -/
def Living (P : Provider Priv Pub B) (secret : List B) (l : List (Session Priv Pub B)) : Prop :=
  ∃ u ∈ l, ∃ d, u.Grown P secret d

/-- **A message that no session of the record can accept**: it verifies on one chain only, and
there its counter is used.  The session of that chain is still in the record. -/
def Retired (P : Provider Priv Pub B) (l : List (Session Priv Pub B)) (m : SignalMessage Pub B) :
    Prop :=
  ∃ secret e start sender receiver, StartAt P secret e start ∧
    m.verifyMac P sender receiver (P.messageKeysAt start m.counter.toNat).macKey = true ∧
    (∀ s ∈ l, Consumed P secret e start m.counter.toNat s) ∧ Living P secret l

variable {ctx : SignalContext Addr Priv Pub B} {n₀ n n' k i : Nat} {identity : Priv}
  {l l' : List (Session Priv Pub B)} {s s' : Session Priv Pub B} {m m₀ : SignalMessage Pub B}
  {p : B}

omit [DecidableEq Pub] in
theorem Retired.of_forall (h : Retired ctx.provider l m)
    (hl : ∀ {secret e start}, StartAt ctx.provider secret e start → Living ctx.provider secret l →
      (∀ s ∈ l, Consumed ctx.provider secret e start m.counter.toNat s) →
      (∀ s ∈ l', Consumed ctx.provider secret e start m.counter.toNat s) ∧
        Living ctx.provider secret l') :
    Retired ctx.provider l' m := by
  obtain ⟨secret, e, start, a, b, hs, hv, hc, hlive⟩ := h
  exact ⟨secret, e, start, a, b, hs, hv, hl hs hlive hc⟩

/-- **An accepted message is retired.** -/
theorem Kin.retired (hI : Ideal ctx.provider)
    (hid : OldKey ctx n₀ (ctx.provider.publicKey identity)) (h : Kin ctx n₀ n identity l)
    (hi : l[i]? = some s) (hr : s.receive ctx.provider ctx.rng m k = (.ok (p, s'), n')) :
    Retired ctx.provider (s' :: l.eraseIdx i) m := by
  have hp := h.perm (perm_cons_eraseIdx hi)
  obtain ⟨secret, d, base, hg, hb, ho⟩ := hp.grown s List.mem_cons_self
  obtain ⟨e, hs, hc⟩ := consumed_of_receive hI hg hr
  obtain ⟨d', -, hg'⟩ := hg.receive hI hr
  refine ⟨secret, e, _, _, _, hs, Session.verifyMac_of_receive hr, fun t ht => ?_,
    s', List.mem_cons_self, d', hg'⟩
  rcases List.mem_cons.1 ht with rfl | ht
  · exact hc
  · obtain ⟨secret', d', base', hg', hb', ho'⟩ := hp.grown t (List.mem_cons_of_mem _ ht)
    refine hg'.consumed_of_ne hI hs (Kin.secret_ne hI hid ho' ho ?_)
    rintro rfl
    exact (List.pairwise_cons.1 hp.apart).1 t ht (hb.trans hb'.symm)

/-- A retired message stays retired when a session receives another one. -/
theorem Retired.receive (hI : Ideal ctx.provider) (h : Kin ctx n₀ n identity l)
    (hm : Retired ctx.provider l m₀) (hi : l[i]? = some s)
    (hr : s.receive ctx.provider ctx.rng m k = (.ok (p, s'), n')) :
    Retired ctx.provider (s' :: l.eraseIdx i) m₀ := by
  refine hm.of_forall fun hs ⟨u, hu, d, hg⟩ hc => ⟨fun t ht => ?_, ?_⟩
  · rcases List.mem_cons.1 ht with rfl | ht
    · obtain ⟨secret, d, base, hg, -, -⟩ := h.grown s (List.mem_of_getElem? hi)
      exact (hc s (List.mem_of_getElem? hi)).receive hI hs hg hr
    · exact hc t (List.mem_of_mem_eraseIdx ht)
  · rcases List.mem_cons.1 ((perm_cons_eraseIdx hi).mem_iff.1 hu) with rfl | hu
    · obtain ⟨d', -, hg'⟩ := hg.receive hI hr
      exact ⟨s', List.mem_cons_self, d', hg'⟩
    · exact ⟨u, List.mem_cons_of_mem _ hu, d, hg⟩

omit [DecidableEq Pub] in
/-- A retired message stays retired when the first session sends. -/
theorem Retired.sent {rest : List (Session Priv Pub B)} (hl : l = s :: rest)
    (hm : Retired ctx.provider l m₀) : Retired ctx.provider (s.sent :: rest) m₀ := by
  subst hl
  refine hm.of_forall fun hs ⟨u, hu, d, hg⟩ hc => ⟨fun t ht => ?_, ?_⟩
  · rcases List.mem_cons.1 ht with rfl | ht
    · have := hc s List.mem_cons_self
      exact ⟨this.spent, this.below⟩
    · exact hc t (List.mem_cons_of_mem _ ht)
  · rcases List.mem_cons.1 hu with rfl | hu
    · exact ⟨u.sent, List.mem_cons_self, d, hg.root, hg.chains, hg.starts⟩
    · exact ⟨u, List.mem_cons_of_mem _ hu, d, hg⟩

omit [DecidableEq Pub] in
/-- **A retired message stays retired when a session is added**: the new one has another base
key than the one of the message's chain, hence another secret. -/
theorem Retired.cons (hI : Ideal ctx.provider)
    (hid : OldKey ctx n₀ (ctx.provider.publicKey identity)) (h : Kin ctx n₀ n identity (s :: l))
    (hm : Retired ctx.provider l m₀) : Retired ctx.provider (s :: l) m₀ := by
  refine hm.of_forall fun hs ⟨u, hu, d, hgu⟩ hc =>
    ⟨fun t ht => ?_, u, List.mem_cons_of_mem _ hu, d, hgu⟩
  rcases List.mem_cons.1 ht with rfl | ht
  · obtain ⟨secret, _, base, hg, hb, ho⟩ := h.grown t List.mem_cons_self
    obtain ⟨secret', _, base', hg', hb', ho'⟩ := h.grown u (List.mem_cons_of_mem _ hu)
    obtain ⟨rfl, -⟩ := rootAt_unique hI hgu.root hg'.root
    refine hg.consumed_of_ne hI hs (Kin.secret_ne hI hid ho ho' ?_)
    rintro rfl
    exact (List.pairwise_cons.1 h.apart).1 u hu (hb.trans hb'.symm)
  · exact hc t ht

/-- **A retired message is refused by every session.** -/
theorem Retired.refuses (hI : Ideal ctx.provider) (h : Kin ctx n₀ n identity l)
    (hm : Retired ctx.provider l m) (hi : l[i]? = some s) :
    s.receive ctx.provider ctx.rng m k ≠ (.ok (p, s'), n') := by
  intro hr
  obtain ⟨secret, e, start, a, b, hs, hv, hc, -⟩ := hm
  obtain ⟨secret', d, base, hg, -, -⟩ := h.grown s (List.mem_of_getElem? hi)
  have hstart : s.startFor ctx.provider m.senderRatchetKey = start :=
    hI.macKey_inj (SignalMessage.verifyMac_unique hI (Session.verifyMac_of_receive hr) hv)
  exact (hc s (List.mem_of_getElem? hi)).refuses hI hs hg hstart hr

end Retired

/-! ## 2. Runs -/

section Run

variable [DecidableEq Addr] [LinearOrder Pub] [DecidableEq B]

/-- A signal message that a call of `session_cipher_decrypt_signal_message` accepted. -/
def Step.accepted (s : Step Addr Priv Pub B) : List (SignalMessage Pub B) :=
  match s.action, s.result with
  | .call (.decryptSignal _ m), .ok _ => [m]
  | _, _ => []

/-- The signal message whose plaintext a call has returned, bare or from inside a pre-key
message. -/
def Step.returned (s : Step Addr Priv Pub B) : List (SignalMessage Pub B) :=
  match s.action, s.result with
  | .call (.decryptPreKey _ m), .ok _ => [m.message]
  | .call (.decryptSignal _ m), .ok _ => [m]
  | _, _ => []

/-- **The call drops no session from the record**: one that sets up a session finds at most 40
states there. -/
def Step.Keeps (P : Provider Priv Pub B) (s : Step Addr Priv Pub B) : Prop :=
  match s.action with
  | .call (.processPreKeyBundle address _) => ∀ record ∈ (s.before.record P address).toOption,
      record.states.length ≤ archivedStatesMaxLength
  | .call (.processKeyExchangeMessage address _) =>
      ∀ record ∈ (s.before.record P address).toOption,
        record.states.length ≤ archivedStatesMaxLength
  | .call (.decryptPreKey cipher m) =>
      ∀ record ∈ (s.before.record P cipher.remoteAddress).toOption,
        record.hasSessionState m.version.toUInt32 m.baseKey = false →
          record.states.length ≤ archivedStatesMaxLength
  | _ => True

instance (P : Provider Priv Pub B) (s : Step Addr Priv Pub B) : Decidable (s.Keeps P) := by
  unfold Step.Keeps
  split
  · exact Option.decidableForallMem _
  · exact Option.decidableForallMem _
  · exact Option.decidableForallMem _
  · exact instDecidableTrue

/-- Calls that set up no session. -/
def Command.Plain : Command Pub B → Prop
  | decryptSignal _ => True
  | encrypt _ => True
  | _ => False

/-- A step on fresh keys and received messages. -/
structure Step.Genuine (ctx : SignalContext Addr Priv Pub B) (s : Step Addr Priv Pub B) :
    Prop where
  fresh : s.FreshKeys ctx
  received : s.Received ctx.provider

variable {ctx : SignalContext Addr Priv Pub B} {cipher : SessionCipher Addr Priv Pub B}
  {w : World Addr Priv Pub B}

/-- The sessions of the address are kin, with the party's own identity. -/
structure KinAt (ctx : SignalContext Addr Priv Pub B) (n₀ : Nat) (identity : Priv)
    (w : World Addr Priv Pub B) (l : List (Session Priv Pub B)) : Prop where
  kin : Kin ctx n₀ w.drawn identity l
  identity_eq : w.identityKeyPair.privateKey = identity
  le : n₀ ≤ w.drawn

omit [DecidableEq Addr] [LinearOrder Pub] [DecidableEq B] in
theorem KinAt.advance {n₀ : Nat} {identity : Priv} {w w' : World Addr Priv Pub B}
    {l : List (Session Priv Pub B)} (h : KinAt ctx n₀ identity w l) (hn : w.drawn ≤ w'.drawn)
    (hk : w.SameKeys w') : KinAt ctx n₀ identity w' l :=
  ⟨h.kin.mono hn, hk.identityKeyPair ▸ h.identity_eq, h.le.trans hn⟩

omit [DecidableEq Addr] in
theorem KinAt.move {n₀ : Nat} {identity : Priv} {w w' : World Addr Priv Pub B}
    {l l' : List (Session Priv Pub B)} {c : Command Pub B} {out : Reply Pub B}
    (hI : Ideal ctx.provider) (hd : ctx.rng.Distinct) (h : KinAt ctx n₀ identity w l)
    (hr : Step.Genuine ctx ⟨w, c.action cipher, .ok out, w'⟩)
    (hm : Move ctx cipher.remoteAddress w l c out l' w'.drawn) (hk : w.SameKeys w') :
    KinAt ctx n₀ identity w' l' :=
  ⟨h.kin.move hI hd rfl h.le h.identity_eq hr.fresh (hr.received _ rfl) hm,
    hk.identityKeyPair ▸ h.identity_eq, h.le.trans hm.drawn_le⟩

/-- **The sessions of every reachable record are kin.** -/
theorem reachable_kin (hI : Ideal ctx.provider) (hd : ctx.rng.Distinct) (hc : cipher.Passive)
    (hw : w.sessions cipher.remoteAddress = none) (cs : List (Command Pub B))
    (hrun : ∀ s ∈ trace ctx cipher cs w, s.Bounded ∧ s.Genuine ctx) :
    ∃ l, Stored ctx.provider cipher.remoteAddress (runAll ctx cipher cs w) l ∧
      KinAt ctx w.drawn w.identityKeyPair.privateKey (runAll ctx cipher cs w) l := by
  have hstored : Stored ctx.provider cipher.remoteAddress w [] := Stored.nil hw
  exact trace_invariant hc (fun _ => ([] : List Unit))
    (I := fun w' l _ => KinAt ctx w.drawn w.identityKeyPair.privateKey w' l)
    (fun _ _ _ => rfl) (fun w₁ w₂ l _ h hn hk => h.advance hn hk)
    (fun w₁ w₂ l l' _ c out _ h hg hm hk => h.move hI hd hg hm hk) cs w [] [] hstored
    ⟨Kin.nil .., rfl, Nat.le_refl _⟩ hrun

/-- The invariant of runs that drop no session: what was returned is retired, and no two
messages are the same bytes. -/
structure Watched (ctx : SignalContext Addr Priv Pub B) (n₀ : Nat) (identity : Priv)
    (w : World Addr Priv Pub B) (l : List (Session Priv Pub B))
    (log : List (SignalMessage Pub B)) : Prop where
  kin : KinAt ctx n₀ identity w l
  parsed : ∀ m ∈ log, m.Parsed ctx.provider
  retired : ∀ m ∈ log, Retired ctx.provider l m
  nodup : (log.map SignalMessage.serialized).Nodup

section Watch

variable {n₀ n k k' i : Nat} {identity : Priv} {l : List (Session Priv Pub B)}
  {log : List (SignalMessage Pub B)} {s s' : Session Priv Pub B} {m : SignalMessage Pub B} {p : B}

omit [DecidableEq Addr] in
/-- **What is accepted was not accepted before**, and is retired from now on. -/
theorem retired_of_accept (hI : Ideal ctx.provider)
    (hid : OldKey ctx n₀ (ctx.provider.publicKey identity)) (hkin : Kin ctx n₀ n identity l)
    (hparsed : ∀ m ∈ log, m.Parsed ctx.provider) (hret : ∀ m ∈ log, Retired ctx.provider l m)
    (hnodup : (log.map SignalMessage.serialized).Nodup) (hm : m.Parsed ctx.provider)
    (hi : l[i]? = some s) (hr : s.receive ctx.provider ctx.rng m k = (.ok (p, s'), k')) :
    (∀ m₀ ∈ log ++ [m], m₀.Parsed ctx.provider) ∧
      (∀ m₀ ∈ log ++ [m], Retired ctx.provider (s' :: l.eraseIdx i) m₀) ∧
      ((log ++ [m]).map SignalMessage.serialized).Nodup := by
  have hnew : m.serialized ∉ log.map SignalMessage.serialized := by
    intro hmem
    obtain ⟨m₀, hm₀, he⟩ := List.mem_map.1 hmem
    have hmm : m₀ = m := (hparsed m₀ hm₀).eq_of_serialized hm he
    exact (hmm ▸ hret m₀ hm₀).refuses hI hkin hi hr
  refine ⟨fun m₀ hm₀ => ?_, fun m₀ hm₀ => ?_, ?_⟩
  · rcases List.mem_append.1 hm₀ with hm₀ | hm₀
    · exact hparsed m₀ hm₀
    · rwa [List.mem_singleton.1 hm₀]
  · rcases List.mem_append.1 hm₀ with hm₀ | hm₀
    · exact (hret m₀ hm₀).receive hI hkin hi hr
    · rw [List.mem_singleton.1 hm₀]
      exact hkin.retired hI hid hi hr
  · rw [List.map_append, List.map_singleton]
    exact hnodup.append (List.nodup_singleton _) (List.disjoint_singleton.2 hnew)

omit [DecidableEq Addr] [LinearOrder Pub] [DecidableEq B] in
/-- A record with at most 40 states keeps them all when a session is added. -/
theorem take_of_states_length {P : Provider Priv Pub B}
    (h : (loadedAs P l).states.length ≤ archivedStatesMaxLength) :
    l.take archivedStatesMaxLength = l := by
  cases l with
  | nil => rfl
  | cons s rest =>
    refine List.take_of_length_le ?_
    simpa [loadedAs, recordOf, SessionRecord.states] using h

end Watch

omit [DecidableEq Addr] in
/-- **Every call that drops no session keeps the watch.** -/
theorem Watched.move {n₀ : Nat} {identity : Priv} {w w' : World Addr Priv Pub B}
    {l l' : List (Session Priv Pub B)} {log : List (SignalMessage Pub B)}
    {c : Command Pub B} {out : Reply Pub B} (hI : Ideal ctx.provider) (hd : ctx.rng.Distinct)
    (hid : OldKey ctx n₀ (ctx.provider.publicKey identity)) (h : Watched ctx n₀ identity w l log)
    (hstored : Stored ctx.provider cipher.remoteAddress w l)
    (hr : Step.Genuine ctx ⟨w, c.action cipher, .ok out, w'⟩)
    (hkeeps : Step.Keeps ctx.provider ⟨w, c.action cipher, .ok out, w'⟩)
    (hm : Move ctx cipher.remoteAddress w l c out l' w'.drawn) (hk : w.SameKeys w') :
    Watched ctx n₀ identity w' l' (log ++ Step.returned ⟨w, c.action cipher, .ok out, w'⟩) := by
  have hkin := h.kin.move hI hd hr hm hk
  have hrecord : loadedAs ctx.provider l ∈
      (w.record ctx.provider cipher.remoteAddress).toOption := by
    rw [record_of_holds hstored.holds]
    rfl
  generalize hn : w'.drawn = n at hm
  cases hm with
  | send hl hs =>
    obtain ⟨_, -, -, rfl⟩ := Session.send_ok_iff.1 hs
    rw [show Step.returned _ = [] from rfl, List.append_nil]
    exact ⟨hkin, h.parsed, fun m hm => (h.retired m hm).sent hl, h.nodup⟩
  | @receive m p s s' i k n hi hk' hn' hrec =>
    obtain ⟨hparsed, hretired, hnodup⟩ := retired_of_accept hI hid h.kin.kin h.parsed h.retired
      h.nodup (hr.received _ rfl) hi hrec
    exact ⟨hkin, hparsed, hretired, hnodup⟩
  | initiate =>
    rw [show Step.returned _ = [] from rfl, List.append_nil]
    rw [take_of_states_length (hkeeps _ hrecord)] at hkin ⊢
    exact ⟨hkin, h.parsed, fun m hm => (h.retired m hm).cons hI hid hkin.kin, h.nodup⟩
  | @respond m l₁ used p s s' i k n hp hi hk' hn' hrec =>
    have hspec := (hr.received _ rfl).spec
    have hkin₁ := h.kin.kin.prepare h.kin.identity_eq hspec.1 (hr.fresh _ List.mem_cons_self) hp
    have hretired₁ : ∀ m₀ ∈ log, Retired ctx.provider l₁ m₀ := by
      intro m₀ hm₀
      rcases prepare_ok hp with ⟨-, rfl, -⟩ | ⟨hnew, _, _, -, rfl⟩
      · exact h.retired m₀ hm₀
      · have hlen := hkeeps _ hrecord
          (by rw [hasSessionState_loadedAs, decide_eq_false_iff_not]; exact hnew)
        rw [take_of_states_length hlen] at hkin₁ ⊢
        exact (h.retired m₀ hm₀).cons hI hid hkin₁
    obtain ⟨hparsed, hretired, hnodup⟩ := retired_of_accept hI hid hkin₁ h.parsed hretired₁
      h.nodup hspec.2 hi hrec
    exact ⟨hkin, hparsed, hretired, hnodup⟩

/-- **Over a run that drops no session, no message is returned twice.** -/
theorem returned_nodup {n₀ : Nat} {identity : Priv} {l : List (Session Priv Pub B)}
    (hI : Ideal ctx.provider) (hd : ctx.rng.Distinct) (hc : cipher.Passive)
    (hid : OldKey ctx n₀ (ctx.provider.publicKey identity))
    (hstored : Stored ctx.provider cipher.remoteAddress w l) (hkin : KinAt ctx n₀ identity w l)
    (cs : List (Command Pub B)) (hrun : ∀ s ∈ trace ctx cipher cs w,
      s.Bounded ∧ s.Genuine ctx ∧ s.Keeps ctx.provider) :
    (((trace ctx cipher cs w).flatMap Step.returned).map SignalMessage.serialized).Nodup := by
  obtain ⟨l', -, hwatch⟩ := trace_invariant hc Step.returned
    (I := Watched ctx n₀ identity)
    (G := fun s => s.Genuine ctx ∧ s.Keeps ctx.provider)
    (fun s err he => by rw [Step.returned, he]; split <;> simp_all)
    (fun w₁ w₂ l log h hn hk => ⟨h.kin.advance hn hk, h.parsed, h.retired, h.nodup⟩)
    (fun w₁ w₂ l l' log c out hs h hg hm hk => h.move hI hd hid hs hg.1 hg.2 hm hk) cs w l []
    hstored ⟨hkin, nofun, nofun, List.nodup_nil⟩ hrun
  exact hwatch.nodup

omit [DecidableEq Addr] [LinearOrder Pub] [DecidableEq B] in
theorem accepted_sublist_returned (t : List (Step Addr Priv Pub B)) :
    (t.flatMap Step.accepted).Sublist (t.flatMap Step.returned) := by
  refine List.Sublist.flatMap_right t fun e _ => ?_
  unfold Step.accepted Step.returned
  split <;> simp_all

/-- **Replay protection for signal messages.**  From every record that is reachable by any
calls, and over every further sequence of decryptions and encryptions, the same serialized
message is accepted at most once. -/
theorem signal_message_accepted_once (hI : Ideal ctx.provider) (hd : ctx.rng.Distinct)
    (hc : cipher.Passive) (hw : w.sessions cipher.remoteAddress = none)
    (hid : OldKey ctx w.drawn (ctx.provider.publicKey w.identityKeyPair.privateKey))
    (cs₁ cs₂ : List (Command Pub B)) (hplain : ∀ c ∈ cs₂, c.Plain)
    (hrun : ∀ s ∈ trace ctx cipher (cs₁ ++ cs₂) w, s.Bounded ∧ s.Genuine ctx) :
    (((trace ctx cipher cs₂ (runAll ctx cipher cs₁ w)).flatMap Step.accepted).map
      SignalMessage.serialized).Nodup := by
  rw [trace_append] at hrun
  obtain ⟨l, hstored, hkin⟩ := reachable_kin hI hd hc hw cs₁
    fun e he => hrun e (List.mem_append_left _ he)
  refine (returned_nodup hI hd hc hid hstored hkin cs₂ fun e he => ?_).sublist
    ((accepted_sublist_returned _).map _)
  obtain ⟨hbounded, hgenuine⟩ := hrun e (List.mem_append_right _ he)
  obtain ⟨c, hc, haction⟩ := command_of_trace he
  refine ⟨hbounded, hgenuine, ?_⟩
  rw [Step.Keeps, haction]
  cases c with
  | processPreKeyBundle bundle => exact absurd (hplain _ hc) id
  | decryptPreKey m => exact absurd (hplain _ hc) id
  | decryptSignal m => trivial
  | encrypt plaintext => trivial

end Run

/-- The peer's half of the session that the sample bundle leads to. -/
def samplePeerSession : Session Nat Nat Term :=
  Session.bob symbolic
    { ourIdentityKey := symbolic.pair 11
      ourSignedPreKey := symbolic.pair 12
      ourOneTimePreKey := none
      ourRatchetKey := symbolic.pair 12
      theirIdentityKey := 1
      theirBaseKey := 100 }

/-- A message of a session, encrypted under the keys of its current position. -/
def sampleMessage (s : Session Nat Nat Term) (plaintext : Term) : SignalMessage Nat Term :=
  s.message symbolic (.encrypted .cbcPkcs5
    (symbolic.messageKeysAt s.sender.start s.sender.next).cipherKey
    (symbolic.messageKeysAt s.sender.start s.sender.next).iv plaintext)

theorem sampleMessage_parsed (s : Session Nat Nat Term) (plaintext : Term) :
    (sampleMessage s plaintext).Parsed symbolic := SignalMessage.parsed_create ..

/-- The peer's first message arrives twice, with an encryption in between. -/
def sampleReplay : List (Command Nat Term) :=
  [.decryptSignal (sampleMessage samplePeerSession (.text 9)), .encrypt (.text 0),
    .decryptSignal (sampleMessage samplePeerSession (.text 9))]

/-- The first delivery is accepted and the second is not. -/
theorem signal_message_accepted_once_twice_delivered :
    (trace sampleContext (SessionCipher.create 0) sampleReplay (runAll sampleContext
      (SessionCipher.create 0) [.processPreKeyBundle sampleBundle] sampleStore)).flatMap
        Step.accepted = [sampleMessage samplePeerSession (.text 9)] ∧
    (((trace sampleContext (SessionCipher.create 0) sampleReplay (runAll sampleContext
      (SessionCipher.create 0) [.processPreKeyBundle sampleBundle] sampleStore)).flatMap
        Step.accepted).map SignalMessage.serialized).Nodup := by
  have hcalls : ∀ s ∈ trace sampleContext (SessionCipher.create 0)
      ([.processPreKeyBundle sampleBundle] ++ sampleReplay) sampleStore,
      s.Bounded ∧ ∀ key ∈ s.action.keys, key < 100 := by decide +kernel
  refine ⟨by decide +kernel, signal_message_accepted_once
    (show Ideal sampleContext.provider from symbolic_ideal) sampleContext_distinct
    (SessionCipher.passive_create 0) rfl (sampleContext_oldKey (by decide)) _ sampleReplay ?_
    fun s hs => ⟨(hcalls s hs).1, fun key hk => sampleContext_oldKey ((hcalls s hs).2 key hk), ?_⟩⟩
  · simp [sampleReplay, Command.Plain]
  · refine received_of_trace hs ?_
    simp only [sampleReplay, List.cons_append, List.nil_append, List.forall_mem_cons]
    exact ⟨trivial, sampleMessage_parsed .., trivial, sampleMessage_parsed .., nofun⟩

end SignalProtocol
