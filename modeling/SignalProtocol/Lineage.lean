/-
# Where a chain comes from

Every root key and every chain of a session descends from the secret the session started
with.  `RootAt secret d` says that a root key lies `d` steps of the root chain below a secret,
`StartAt secret d` that a first chain key was derived in the step that leads there.  With
ideal primitives a key tells its secret and its depth (`rootAt_unique`, `startAt_unique`),
and that is all replay protection rests on: a session holds chains above its root key and
can only open chains below it, so a chain that was evicted is never opened again, and two
sessions with different secrets never share a chain.

The secret in turn tells the base key of the initiator (`Origin.unique`), by which sessions of
one record are told apart.
-/
import SignalProtocol.SenderKeys

namespace SignalProtocol

variable {Addr Priv Pub B : Type}

/-! ## 1. Depth -/

section Depth

variable (P : Provider Priv Pub B) (secret : List B)

/-- A root key `d` steps below the secret. -/
def RootAt : Nat → B → Prop
  | 0, root => root = P.initialRoot secret
  | d + 1, root => ∃ root' shared, RootAt d root' ∧ root = P.ratchetRoot root' shared

/-- A first chain key from the step that leads to depth `d`. -/
def StartAt : Nat → B → Prop
  | 0, start => start = P.initialStart secret
  | d + 1, start => ∃ root shared, RootAt P secret d root ∧ start = P.ratchetStart root shared

variable {P secret} {secret' : List B}

/-- **A root key tells its secret and its depth.** -/
theorem rootAt_unique (hI : Ideal P) : ∀ {d d' : Nat} {root : B}, RootAt P secret d root →
    RootAt P secret' d' root → secret = secret' ∧ d = d'
  | 0, 0, _, h, h' => ⟨hI.initialRoot_inj (h.symm.trans h'), rfl⟩
  | 0, _ + 1, _, h, ⟨_, _, _, h'⟩ => absurd (h.symm.trans h') hI.initialRoot_ne_ratchetRoot
  | _ + 1, 0, _, ⟨_, _, _, h⟩, h' => absurd (h'.symm.trans h) hI.initialRoot_ne_ratchetRoot
  | _ + 1, _ + 1, _, ⟨_, _, hr, h⟩, ⟨_, _, hr', h'⟩ => by
    have he := (hI.ratchetRoot_inj (h.symm.trans h')).1
    rw [he] at hr
    obtain ⟨hs, hd⟩ := rootAt_unique hI hr hr'
    exact ⟨hs, congrArg Nat.succ hd⟩

/-- **A first chain key tells its secret and its depth.** -/
theorem startAt_unique (hI : Ideal P) : ∀ {d d' : Nat} {start : B}, StartAt P secret d start →
    StartAt P secret' d' start → secret = secret' ∧ d = d'
  | 0, 0, _, h, h' => ⟨hI.initialStart_inj (h.symm.trans h'), rfl⟩
  | 0, _ + 1, _, h, ⟨_, _, _, h'⟩ => absurd (h.symm.trans h') hI.initialStart_ne_ratchetStart
  | _ + 1, 0, _, ⟨_, _, _, h⟩, h' => absurd (h'.symm.trans h) hI.initialStart_ne_ratchetStart
  | _ + 1, _ + 1, _, ⟨_, _, hr, h⟩, ⟨_, _, hr', h'⟩ => by
    have he := (hI.ratchetStart_inj (h.symm.trans h')).1
    rw [he] at hr
    obtain ⟨hs, hd⟩ := rootAt_unique hI hr hr'
    exact ⟨hs, congrArg Nat.succ hd⟩

end Depth

/-! ## 2. Sessions of a depth -/

section Grown

variable (P : Provider Priv Pub B)

/-- **A session whose root key lies `d` steps below its secret** has chains from the steps up
to there, one from each. -/
structure Session.Grown (s : Session Priv Pub B) (secret : List B) (d : Nat) : Prop where
  root : RootAt P secret d s.root
  chains : ∀ c ∈ s.receivers, ∃ e, e ≤ d ∧ StartAt P secret e c.start
  starts : (s.receivers.map ReceivingChain.start).Nodup

variable {P} [DecidableEq Pub] {s : Session Priv Pub B} {secret : List B} {d : Nat}

theorem map_start_setWindow (s : Session Priv Pub B) (key : Pub) (w : Window maxMessageKeys) :
    (s.setWindow key w).receivers.map ReceivingChain.start =
      s.receivers.map ReceivingChain.start := by
  rw [Session.setWindow, List.map_map]
  refine List.map_congr_left fun c _ => ?_
  simp only [Function.comp_apply]
  split <;> rfl

theorem Session.Grown.setWindow (h : s.Grown P secret d) (key : Pub) (w : Window maxMessageKeys) :
    (s.setWindow key w).acknowledge.Grown P secret d := by
  refine ⟨h.root, fun c hc => ?_, ?_⟩
  · have hmem : c.start ∈ (s.setWindow key w).receivers.map ReceivingChain.start :=
      List.mem_map_of_mem hc
    rw [map_start_setWindow] at hmem
    obtain ⟨c', hc', he⟩ := List.mem_map.1 hmem
    rw [← he]
    exact h.chains c' hc'
  · show ((s.setWindow key w).receivers.map ReceivingChain.start).Nodup
    rw [map_start_setWindow]
    exact h.starts

omit [DecidableEq Pub] in
/-- The chain that a session would open next lies one step below its root key. -/
theorem Session.Grown.newChain (h : s.Grown P secret d) (key : Pub) :
    StartAt P secret (d + 1) (s.newChain P key).start := ⟨s.root, _, h.root, rfl⟩

/-- A ratchet step leads two steps down. -/
theorem Session.Grown.ratchet (hI : Ideal P) (h : s.Grown P secret d) (key : Pub)
    (hkey : s.chainFor key = none) (ours : Priv) :
    (s.ratchet P key hkey ours).Grown P secret (d + 2) := by
  refine ⟨⟨_, _, ⟨_, _, h.root, rfl⟩, rfl⟩, fun c hc => ?_, ?_⟩
  · rcases List.mem_append.1 (Window.mem_of_mem_rtake hc) with hc | hc
    · obtain ⟨e, he, hs⟩ := h.chains c hc
      exact ⟨e, Nat.le_add_right_of_le he, hs⟩
    · rw [List.mem_singleton.1 hc]
      exact ⟨d + 1, Nat.le_succ _, h.newChain key⟩
  · show (((s.receivers ++ [s.newChain P key]).rtake maxReceiverChains).map
      ReceivingChain.start).Nodup
    rw [Session.map_rtake, List.map_append]
    refine List.Nodup.sublist (List.drop_sublist ..) ?_
    refine List.Nodup.append h.starts (List.nodup_singleton _) ?_
    rw [List.map_singleton, List.disjoint_singleton]
    intro hmem
    obtain ⟨c, hc, hs⟩ := List.mem_map.1 hmem
    obtain ⟨e, he, hstart⟩ := h.chains c hc
    rw [hs] at hstart
    have := (startAt_unique hI hstart (h.newChain key)).2
    omega

variable [DecidableEq B] {rng : Rng Priv B} {m : SignalMessage Pub B} {p : B}
  {s' : Session Priv Pub B} {n n' : Nat}

/-- **Receiving keeps the secret and does not go up.** -/
theorem Session.Grown.receive (hI : Ideal P) (h : s.Grown P secret d)
    (hr : s.receive P rng m n = (.ok (p, s'), n')) : ∃ d', d ≤ d' ∧ s'.Grown P secret d' := by
  obtain ⟨-, c, s₁, w, ho, -, -, -, rfl⟩ := Session.receive_ok_iff.1 hr
  rcases openChain_ok_iff.1 ho with ⟨-, rfl, -⟩ | ⟨hc, ours, -, -, rfl, -⟩
  · exact ⟨d, Nat.le_refl d, h.setWindow _ w⟩
  · exact ⟨d + 2, Nat.le_add_right d 2, (h.ratchet hI _ hc ours).setWindow _ w⟩

omit [DecidableEq B] in
/-- A message is tried on a chain at most one step below the root key. -/
theorem Session.Grown.startFor (h : s.Grown P secret d) (key : Pub) :
    ∃ e, StartAt P secret e (s.startFor P key) ∧ (s.chainFor key ≠ none → e ≤ d) ∧ e ≤ d + 1 := by
  rcases Option.eq_none_or_eq_some (s.chainFor key) with hc | ⟨c, hc⟩
  · refine ⟨d + 1, ?_, fun hne => absurd hc hne, Nat.le_refl _⟩
    rw [Session.startFor, hc]
    exact h.newChain key
  · obtain ⟨e, he, hs⟩ := h.chains c (Session.chainFor_mem hc).1
    refine ⟨e, ?_, fun _ => he, Nat.le_succ_of_le he⟩
    rw [Session.startFor, hc]
    exact hs

end Grown

/-! ## 3. Positions that were used -/

section Consumed

variable (P : Provider Priv Pub B)

/-- **A position of a chain that a session cannot accept any more**: where the session holds
the chain, the counter is spent, and it is too deep to open the chain. -/
structure Consumed (secret : List B) (e : Nat) (start : B) (counter : Nat)
    (s : Session Priv Pub B) : Prop where
  spent : ∀ c ∈ s.receivers, c.start = start → c.window.Spent counter
  below : ∀ d, RootAt P secret d s.root → e ≤ d

variable {P} {secret secret' : List B} {d e counter : Nat} {start : B} {s s' : Session Priv Pub B}

/-- A session with another secret cannot accept the position. -/
theorem Session.Grown.consumed_of_ne (hI : Ideal P) (h : s.Grown P secret' d)
    (hs : StartAt P secret e start) (hne : secret' ≠ secret) :
    Consumed P secret e start counter s := by
  refine ⟨fun c hc he => ?_, fun d' hd' => absurd (rootAt_unique hI h.root hd').1 hne⟩
  obtain ⟨e', -, hs'⟩ := h.chains c hc
  rw [he] at hs'
  exact absurd (startAt_unique hI hs' hs).1 hne

variable [DecidableEq Pub]

variable [DecidableEq B] {rng : Rng Priv B} {m : SignalMessage Pub B} {p : B} {n n' : Nat}

/-- **What was used stays used**, whatever the session receives. -/
theorem Consumed.receive (hI : Ideal P) (hs : StartAt P secret e start)
    (h : Consumed P secret e start counter s) (hg : s.Grown P secret' d)
    (hr : s.receive P rng m n = (.ok (p, s'), n')) : Consumed P secret e start counter s' := by
  have hbelow : ∀ d', RootAt P secret d' s'.root → e ≤ d' := by
    intro d' hd'
    obtain ⟨d₂, hle, hg'⟩ := hg.receive hI hr
    obtain ⟨rfl, rfl⟩ := rootAt_unique hI hg'.root hd'
    exact (h.below d hg.root).trans hle
  refine ⟨fun c hc he => ?_, hbelow⟩
  obtain ⟨-, c₁, s₁, w, ho, hw, -, -, rfl⟩ := Session.receive_ok_iff.1 hr
  rcases openChain_ok_iff.1 ho with ⟨hc₁, rfl, -⟩ | ⟨hc₁, ours, -, rfl, rfl, -⟩
  · rcases Session.mem_setWindow hc with ⟨hc, -⟩ | ⟨c₀, hc₀, hk, rfl⟩
    · exact h.spent c hc he
    · -- the chain that accepted: a spent counter stays spent
      have hcc : c₀ = c₁ := by
        rw [← hk, Session.chainFor_of_mem hc₀] at hc₁
        exact Option.some.inj hc₁
      subst hcc
      exact (h.spent c₀ hc₀ he).mono hw
  · -- the chain just opened lies below the root key, the used one does not
    have hold : ∀ c ∈ s.receivers ++ [s.newChain P m.senderRatchetKey], c.start = start →
        c ∈ s.receivers := by
      intro c hc he
      rcases List.mem_append.1 hc with hc | hc
      · exact hc
      · have hnew := hg.newChain m.senderRatchetKey
        rw [← List.mem_singleton.1 hc, he] at hnew
        obtain ⟨rfl, rfl⟩ := startAt_unique hI hnew hs
        exact absurd (h.below d hg.root) (Nat.not_succ_le_self d)
    rcases Session.mem_setWindow hc with ⟨hc, -⟩ | ⟨c₀, hc₀, hk, rfl⟩
    · exact h.spent c (hold c (Window.mem_of_mem_rtake hc) he) he
    · exact absurd hk (Session.chainFor_none.1 hc₁ c₀
        (hold c₀ (Window.mem_of_mem_rtake hc₀) he))

/-- **What is accepted is used**: the chain and the counter of an accepted message. -/
theorem consumed_of_receive (hI : Ideal P) (hg : s.Grown P secret d)
    (hr : s.receive P rng m n = (.ok (p, s'), n')) :
    ∃ e, StartAt P secret e (s.startFor P m.senderRatchetKey) ∧
      Consumed P secret e (s.startFor P m.senderRatchetKey) m.counter.toNat s' := by
  obtain ⟨e, hs, hchain, hle⟩ := hg.startFor m.senderRatchetKey
  refine ⟨e, hs, ?_⟩
  obtain ⟨-, c₁, s₁, w, ho, hw, -, -, rfl⟩ := Session.receive_ok_iff.1 hr
  rw [← Session.startFor_of_openChain ho]
  -- in either case the session now holds the chain, and its root key lies below
  obtain ⟨d₁, hg₁, hc₁, hd₁⟩ : ∃ d₁, s₁.Grown P secret d₁ ∧
      s₁.chainFor m.senderRatchetKey = some c₁ ∧ e ≤ d₁ := by
    rcases openChain_ok_iff.1 ho with ⟨hc, rfl, -⟩ | ⟨hc, ours, -, rfl, rfl, -⟩
    · exact ⟨d, hg, hc, hchain (by rw [hc]; exact Option.some_ne_none _)⟩
    · exact ⟨d + 2, hg.ratchet hI _ hc ours, chainFor_ratchet s hc ours, Nat.le_succ_of_le hle⟩
  refine ⟨fun c hc he => ?_, fun d' hd' => ?_⟩
  · obtain ⟨hmem, hkey⟩ := Session.chainFor_mem hc₁
    rcases Session.mem_setWindow hc with ⟨hc, hk⟩ | ⟨c₀, hc₀, hk, rfl⟩
    · exact absurd (List.inj_on_of_nodup_map hg₁.starts hc hmem he ▸ hkey) hk
    · have hcc : c₀ = c₁ := by
        rw [← hk, Session.chainFor_of_mem hc₀] at hc₁
        exact Option.some.inj hc₁
      subst hcc
      exact Window.spent_of_request hw
  · have := (rootAt_unique hI hg₁.root hd').2
    omega

/-- **A used position is refused.** -/
theorem Consumed.refuses (hI : Ideal P) (hs : StartAt P secret e start)
    (h : Consumed P secret e start m.counter.toNat s) (hg : s.Grown P secret' d)
    (hstart : s.startFor P m.senderRatchetKey = start) :
    s.receive P rng m n ≠ (.ok (p, s'), n') := by
  intro hr
  obtain ⟨-, c₁, s₁, w, ho, hw, -⟩ := Session.receive_ok_iff.1 hr
  have hc₁ := (Session.startFor_of_openChain ho).trans hstart
  rcases openChain_ok_iff.1 ho with ⟨hc, -, -⟩ | ⟨hc, ours, -, rfl, -, -⟩
  · rw [(h.spent c₁ (Session.chainFor_mem hc).1 hc₁).request] at hw
    cases hw
  · have hnew := hg.newChain m.senderRatchetKey
    rw [hc₁] at hnew
    obtain ⟨rfl, rfl⟩ := startAt_unique hI hnew hs
    exact absurd (h.below d hg.root) (Nat.not_succ_le_self d)

end Consumed

/-! ## 4. The base key behind a secret -/

section Origin

/-- **Who started a session.**  The third part of the secret is the agreement of the
initiator's base key with the responder's identity key.  Either the party itself drew the base
key at a position from `n₀` on, when the identity was already there, or it was sent the base
key and used its own identity. -/
inductive Origin (ctx : SignalContext Addr Priv Pub B) (n₀ n : Nat) (identity : Priv)
    (secret : List B) : Pub → Prop
  | initiated {j : Nat} {base : Priv} {their : Pub} (hj : n₀ ≤ j) (hn : j < n)
      (hk : ctx.rng.privateKey j = .ok base) (hold : OldKey ctx j their)
      (hs : secret[2]? = some (ctx.provider.agreement their base)) :
      Origin ctx n₀ n identity secret (ctx.provider.publicKey base)
  | responded {base : Pub} (hold : OldKey ctx n base)
      (hs : secret[2]? = some (ctx.provider.agreement base identity)) :
      Origin ctx n₀ n identity secret base

variable {ctx : SignalContext Addr Priv Pub B} {n₀ n n' : Nat} {identity : Priv}
  {secret : List B} {base base' : Pub}

theorem Origin.mono (h : Origin ctx n₀ n identity secret base) (hn : n ≤ n') :
    Origin ctx n₀ n' identity secret base := by
  cases h with
  | initiated hj hlt hk hold hs => exact .initiated hj (Nat.lt_of_lt_of_le hlt hn) hk hold hs
  | responded hold hs => exact .responded (hold.mono hn) hs

/-- The base key of a session that exists is not drawn any more. -/
theorem Origin.oldKey (hI : Ideal ctx.provider) (hd : ctx.rng.Distinct)
    (h : Origin ctx n₀ n identity secret base) : OldKey ctx n base := by
  cases h with
  | initiated hj hlt hk hold hs =>
    intro m hm k hkm he
    rw [hI.publicKey_inj he] at hkm
    exact absurd (hd hk hkm) (Nat.ne_of_lt (Nat.lt_of_lt_of_le hlt hm))
  | responded hold hs => exact hold

/-- **The secret tells the base key.** -/
theorem Origin.unique (hI : Ideal ctx.provider)
    (hid : OldKey ctx n₀ (ctx.provider.publicKey identity))
    (h : Origin ctx n₀ n identity secret base) (h' : Origin ctx n₀ n' identity secret base') :
    base = base' := by
  cases h with
  | @initiated j k their hj hlt hk hold hs =>
    cases h' with
    | @initiated j' k' their' hj' hlt' hk' hold' hs' =>
      have he := hI.agreement_inj (Option.some.inj (hs.symm.trans hs'))
      rcases Sym2.eq_iff.1 he with ⟨-, h2⟩ | ⟨h1, h2⟩
      · exact h2
      · -- each base key was drawn after the other party's identity was there
        rcases Nat.le_total j j' with hle | hle
        · exact absurd h1.symm (hold j' hle k' hk')
        · exact absurd h2 (hold' j hle k hk)
    | responded hold' hs' =>
      have he := hI.agreement_inj (Option.some.inj (hs.symm.trans hs'))
      rcases Sym2.eq_iff.1 he with ⟨-, h2⟩ | ⟨-, h2⟩
      · exact absurd h2 (hid j hj k hk)
      · exact h2
  | responded hold hs =>
    cases h' with
    | @initiated j' k' their' hj' hlt' hk' hold' hs' =>
      have he := hI.agreement_inj (Option.some.inj (hs'.symm.trans hs))
      rcases Sym2.eq_iff.1 he with ⟨-, h2⟩ | ⟨-, h2⟩
      · exact absurd h2 (hid j' hj' k' hk')
      · exact h2.symm
    | responded hold' hs' =>
      exact hI.agreement_left (Option.some.inj (hs.symm.trans hs'))

end Origin

/-! ## 5. Records of different sessions -/

section Kin

/-- **The sessions of a record**: each descends from a secret that tells its base key, and the
base keys differ. -/
structure Kin (ctx : SignalContext Addr Priv Pub B) (n₀ n : Nat) (identity : Priv)
    (l : List (Session Priv Pub B)) : Prop where
  grown : ∀ s ∈ l, ∃ secret d base, s.Grown ctx.provider secret d ∧
    s.aliceBaseKey = some base ∧ Origin ctx n₀ n identity secret base
  apart : l.Pairwise fun s t => s.aliceBaseKey ≠ t.aliceBaseKey

namespace Kin

variable {ctx : SignalContext Addr Priv Pub B} {n₀ n n' : Nat} {identity : Priv}
  {l l' : List (Session Priv Pub B)} {s s' : Session Priv Pub B}

theorem nil (ctx : SignalContext Addr Priv Pub B) (n₀ n : Nat) (identity : Priv) :
    Kin ctx n₀ n identity [] := ⟨fun _ hs => absurd hs List.not_mem_nil, .nil⟩

/-- Sessions with different base keys have different secrets. -/
theorem secret_ne (hI : Ideal ctx.provider)
    (hid : OldKey ctx n₀ (ctx.provider.publicKey identity)) {secret secret' : List B}
    {base base' : Pub} (h : Origin ctx n₀ n identity secret base)
    (h' : Origin ctx n₀ n' identity secret' base') (hne : base ≠ base') : secret ≠ secret' := by
  rintro rfl
  exact hne (h.unique hI hid h')

variable (h : Kin ctx n₀ n identity l)
include h

theorem mono (hn : n ≤ n') : Kin ctx n₀ n' identity l := by
  refine ⟨fun s hs => ?_, h.apart⟩
  obtain ⟨secret, d, base, hg, hb, ho⟩ := h.grown s hs
  exact ⟨secret, d, base, hg, hb, ho.mono hn⟩

theorem sublist (hl : l'.Sublist l) : Kin ctx n₀ n identity l' :=
  ⟨fun s hs => h.grown s (hl.subset hs), h.apart.sublist hl⟩

theorem perm (hl : l.Perm l') : Kin ctx n₀ n identity l' :=
  ⟨fun s hs => h.grown s (hl.mem_iff.2 hs), (hl.pairwise_iff fun hst => hst.symm).1 h.apart⟩

/-- A session with a base key that no other has. -/
theorem cons {secret : List B} {d : Nat} {base : Pub} (hg : s.Grown ctx.provider secret d)
    (hb : s.aliceBaseKey = some base) (ho : Origin ctx n₀ n identity secret base)
    (hnew : ∀ t ∈ l, t.aliceBaseKey ≠ some base) : Kin ctx n₀ n identity (s :: l) := by
  refine ⟨fun t ht => ?_, List.pairwise_cons.2 ⟨fun t ht he => ?_, h.apart⟩⟩
  · rcases List.mem_cons.1 ht with rfl | ht
    · exact ⟨secret, d, base, hg, hb, ho⟩
    · exact h.grown t ht
  · exact hnew t ht (he.symm.trans hb)

omit h in
/-- A session that keeps its secret and its base key. -/
theorem replace (h : Kin ctx n₀ n identity (s :: l)) (hb : s'.aliceBaseKey = s.aliceBaseKey)
    (hg : ∀ secret d, s.Grown ctx.provider secret d → ∃ d', s'.Grown ctx.provider secret d') :
    Kin ctx n₀ n identity (s' :: l) := by
  obtain ⟨happ, hl⟩ := List.pairwise_cons.1 h.apart
  refine ⟨fun t ht => ?_, List.pairwise_cons.2 ⟨fun t ht => hb ▸ happ t ht, hl⟩⟩
  rcases List.mem_cons.1 ht with rfl | ht
  · obtain ⟨secret, d, base, hgs, hbs, ho⟩ := h.grown s List.mem_cons_self
    obtain ⟨d', hg'⟩ := hg secret d hgs
    exact ⟨secret, d', base, hg', hb.trans hbs, ho⟩
  · exact h.grown t (List.mem_cons_of_mem _ ht)

/-- Receiving keeps the kin. -/
theorem receive [DecidableEq Pub] [DecidableEq B] (hI : Ideal ctx.provider) {i k : Nat}
    {m : SignalMessage Pub B} {p : B} (hi : l[i]? = some s)
    (hr : s.receive ctx.provider ctx.rng m k = (.ok (p, s'), n')) (hn : n ≤ n') :
    Kin ctx n₀ n' identity (s' :: l.eraseIdx i) := by
  have hbase := (Session.receive_frame hr).aliceBaseKey
  refine ((h.perm (perm_cons_eraseIdx hi)).replace hbase ?_).mono hn
  intro secret d hg
  obtain ⟨d', -, hg'⟩ := hg.receive hI hr
  exact ⟨d', hg'⟩

/-- Sending keeps the kin. -/
theorem sent {rest : List (Session Priv Pub B)} (hl : l = s :: rest) :
    Kin ctx n₀ n identity (s.sent :: rest) := by
  subst hl
  exact h.replace rfl fun secret d hg => ⟨d, hg.root, hg.chains, hg.starts⟩

variable {w : World Addr Priv Pub B}

omit h in
theorem grown_initiated {P : Provider Priv Pub B} (store : Store Addr Priv Pub B)
    (bundle : PreKeyBundle Pub B) (their signedPreKey : Pub) (base sending : Priv) :
    (Session.initiated P store bundle their signedPreKey base sending).Grown P
      ((bundleParameters store.identityKeyPair bundle their signedPreKey (P.pair base)).secret P)
      1 := by
  refine ⟨⟨_, _, rfl, rfl⟩, fun c hc => ?_, List.nodup_singleton _⟩
  rw [List.mem_singleton.1 hc]
  exact ⟨0, Nat.zero_le 1, rfl⟩

omit h in
theorem grown_responded {P : Provider Priv Pub B} (store : Store Addr Priv Pub B)
    (signedPreKey : EcKeyPair Priv Pub) (oneTimePreKey : Option (EcKeyPair Priv Pub))
    (m : PreKeySignalMessage Pub B) :
    (Session.responded P store signedPreKey oneTimePreKey m).Grown P
      ((responseParameters store.identityKeyPair signedPreKey oneTimePreKey m).secret P) 0 :=
  ⟨rfl, nofun, List.nodup_nil⟩

/-- **A bundle starts a session of its own**: its base key was just drawn. -/
theorem initiate (hI : Ideal ctx.provider) (hd : ctx.rng.Distinct) (hn : n₀ ≤ n)
    {store : Store Addr Priv Pub B} {bundle : PreKeyBundle Pub B} {their signedPreKey : Pub}
    {base sending : Priv} (hold : OldKey ctx n their)
    (hb : ctx.rng.privateKey n = .ok base) :
    Kin ctx n₀ (n + 2) identity (Session.initiated ctx.provider store bundle their signedPreKey
      base sending :: l.take archivedStatesMaxLength) := by
  refine ((h.sublist (List.take_sublist ..)).mono (Nat.le_add_right n 2)).cons
    (grown_initiated ..) rfl (.initiated hn (Nat.lt_add_of_pos_right Nat.zero_lt_two) hb hold rfl)
    fun t ht he => ?_
  obtain ⟨secret, d, base', -, hb', ho⟩ := h.grown t (List.mem_of_mem_take ht)
  have hbase : ctx.provider.publicKey base = base' := Option.some.inj (he.symm.trans hb')
  exact ho.oldKey hI hd n (Nat.le_refl n) base hb hbase

/-- **A pre-key message starts a session only for a new base key.** -/
theorem prepare [LinearOrder Pub] {store : Store Addr Priv Pub B} {m : PreKeySignalMessage Pub B}
    {l₁ : List (Session Priv Pub B)} {used : Option UInt32}
    (hid : store.identityKeyPair.privateKey = identity) (hv : m.version = 3)
    (hold : OldKey ctx n m.baseKey)
    (hp : SignalProtocol.prepare ctx.provider store l m = .ok (l₁, used)) :
    Kin ctx n₀ n identity l₁ := by
  rcases prepare_ok hp with ⟨-, rfl, -⟩ | ⟨hk, signedPreKey, oneTimePreKey, -, rfl⟩
  · exact h
  · refine (h.sublist (List.take_sublist ..)).cons (grown_responded ..) rfl
      (.responded hold (by rw [← hid]; rfl)) fun t ht he => ?_
    exact hk ⟨hv, t, List.mem_of_mem_take ht, he⟩

/-- **Every call keeps the kin.** -/
theorem move [LinearOrder Pub] [DecidableEq B] (hI : Ideal ctx.provider) (hd : ctx.rng.Distinct)
    {cipher : SessionCipher Addr Priv Pub B} {c : Command Pub B} {out : Reply Pub B}
    {w' : World Addr Priv Pub B} (hw : w.drawn = n) (hn : n₀ ≤ n)
    (hid : w.identityKeyPair.privateKey = identity)
    (hfresh : Step.FreshKeys ctx ⟨w, c.action cipher, .ok out, w'⟩)
    (hrec : (c.call cipher).Received ctx.provider)
    (hm : Move ctx cipher.remoteAddress w l c out l' n') : Kin ctx n₀ n' identity l' := by
  subst hw
  cases hm with
  | send hl hs =>
    obtain ⟨_, -, -, rfl⟩ := Session.send_ok_iff.1 hs
    exact h.sent hl
  | receive hi hk hn' hr => exact h.receive hI hi hr hn'
  | initiate ha hb hs => exact h.initiate hI hd hn (hfresh _ ha.mem_keys.2) hb
  | respond hp hi hk hn' hr =>
    have hold := hfresh _ List.mem_cons_self
    exact (h.prepare hid hrec.spec.1 hold hp).receive hI hi hr hn'

end Kin

end Kin

end SignalProtocol
