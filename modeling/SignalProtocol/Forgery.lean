/-
# An attacker on the network

In `Agreement.lean` the network hands a party only what its peer produced.  Here it is the
attacker's: any message whose bytes the attacker can compute from what it has seen may be
handed to either party, with ratchet keys, counters and ciphertexts of its own choice.

Of the two sessions nothing has leaked, so every root key of the ladder is out of reach, and
with it every chain that an accepted message could be on, a chain opened by a ratchet key of
the attacker's own included.  A MAC on such a chain is not the attacker's, so it was copied from
a message that a party had sent, and the chain says which: `Synced.sent_of_receive`.  Hence an
attacker can do no more than the network of `Agreement.lean` does (`Exchange.Attacked.locked`).
-/
import SignalProtocol.Secrecy

namespace SignalProtocol

open Deduction

variable {Addr : Type}

/-! ## 1. Keys of which nothing has leaked -/

/-- No key of the ladder has leaked. -/
def Leak.nothing (texts keys : Set Nat) : Leak := ⟨texts, keys, ∅, ∅, ∅⟩

section Nothing

variable {texts keys : Set Nat} {secret : List Term} {ks : List Nat} {id : Party → Nat}
  {sent : Party → List (SignalMessage Nat Term × Term)}

theorem Leak.within_nothing : (Leak.nothing texts keys).Within ks :=
  ⟨fun _ h => absurd h (Set.notMem_empty _), fun _ h => absurd h (Set.notMem_empty _),
    fun _ h => absurd h (Set.notMem_empty _)⟩

/-- Every rung is guarded. -/
theorem Leak.guarded_nothing (hsafe : (Leak.nothing texts keys).SecretSafe secret) :
    ∀ {r : List Nat}, r ≠ [] → (Leak.nothing texts keys).Guarded secret r
  | [_], _ => hsafe
  | _ :: k' :: r, _ =>
    Or.inl ⟨Set.notMem_empty _, guarded_nothing hsafe (List.cons_ne_nil k' r)⟩

theorem Leak.safe_nothing (hsafe : (Leak.nothing texts keys).SecretSafe secret) {r : List Nat}
    (hr : r ≠ []) (n : Nat) : (Leak.nothing texts keys).Safe secret r n :=
  ⟨Leak.guarded_nothing hsafe hr, fun _ _ => Set.notMem_empty _, Set.notMem_empty _⟩

variable (hs : SentOn secret id ks sent)
include hs

/-- All that was sent was sent at safe positions. -/
theorem plaintextsKept_nothing (hsafe : (Leak.nothing texts keys).SecretSafe secret) :
    PlaintextsKept secret (Leak.nothing texts keys) id ks sent := by
  intro x e he
  obtain ⟨r, hr, -, hm⟩ := hs x e he
  obtain ⟨k, r', rfl, -⟩ := hm.head
  exact Or.inr ⟨_, hr, hm, Leak.safe_nothing hsafe (List.cons_ne_nil k r') _⟩

/-- A derived key takes its inputs. -/
theorem builds_derived_nothing {kdf n off l : Nat} {ikm salt : Term} {info : HkdfInfo}
    (h : attacker.Builds (view secret (Leak.nothing texts keys) sent)
      (.derived kdf ikm salt info n off l)) :
    attacker.Builds (view secret (Leak.nothing texts keys) sent) ikm ∧
      attacker.Builds (view secret (Leak.nothing texts keys) sent) salt := by
  refine (builds_derived_iff.1 h).resolve_left fun hv => ?_
  rcases (gives_of_derived_mem_view hs hv).derived with ⟨_, h, -⟩ | ⟨_, h, -⟩ | ⟨_, _, h, -⟩ <;>
    exact Set.notMem_empty _ h

/-- An HMAC takes its key. -/
theorem builds_hmac_nothing {k d : Term}
    (h : attacker.Builds (view secret (Leak.nothing texts keys) sent) (.hmac k d)) :
    attacker.Builds (view secret (Leak.nothing texts keys) sent) k := by
  rcases builds_hmac_iff.1 h with hv | ⟨hk, -⟩
  · obtain ⟨_, _, hc, -⟩ := (gives_of_hmac_mem_view hs hv).hmac
    exact absurd hc (Set.notMem_empty _)
  · exact hk

/-- A chain key takes the first key of the chain. -/
theorem builds_start_of_chainKey {start : Term} : ∀ {n : Nat},
    attacker.Builds (view secret (Leak.nothing texts keys) sent)
      (symbolic.chainKeyAt start n).key →
    attacker.Builds (view secret (Leak.nothing texts keys) sent) start
  | 0, h => h
  | n + 1, h => by
    rw [chainKeyAt_key_succ] at h
    exact builds_start_of_chainKey (builds_hmac_nothing hs h)

/-- A MAC key takes the first key of its chain. -/
theorem builds_start_of_macKey {start : Term} {n : Nat}
    (h : attacker.Builds (view secret (Leak.nothing texts keys) sent)
      (symbolic.messageKeysAt start n).macKey) :
    attacker.Builds (view secret (Leak.nothing texts keys) sent) start := by
  rw [macKey_eq] at h
  have hseed := builds_of_ofList (cons_notMem_view hs) List.mem_cons_self
    (builds_derived_nothing hs h).1
  exact builds_start_of_chainKey hs (builds_hmac_nothing hs hseed)

/-- **A MAC that can be computed was sent**, unless its key can be computed. -/
theorem exists_sent_of_builds_mac {key data : Term}
    (h : attacker.Builds (view secret (Leak.nothing texts keys) sent)
      (.truncated 8 (.hmac key data))) :
    (∃ x, ∃ e ∈ sent x, e.1.serialized.mac = .truncated 8 (.hmac key data)) ∨
      attacker.Builds (view secret (Leak.nothing texts keys) sent) key := by
  rcases builds_truncated_iff.1 h with hv | hb
  · generalize ht : Term.truncated 8 (.hmac key data) = t at hv
    rcases hv with h | @⟨x, e, h⟩ | @⟨x, e, h⟩ | @⟨x, e, h⟩
    · rcases h.shape with (⟨_, -, h⟩ | ⟨_, -, h⟩) | ⟨_, _, _, _, _, _, _, h⟩ | ⟨_, _, h⟩ <;>
        cases ht.trans h
    · obtain ⟨r, -, -, hm⟩ := hs x e h
      cases ht.trans hm.body_eq
    · exact Or.inl ⟨x, e, h, rfl⟩
    · obtain ⟨r, -, -, hm⟩ := hs x e h
      cases ht.trans hm.ciphertext_eq
  · exact Or.inr (builds_hmac_nothing hs hb)

end Nothing

/-! ## 2. Nothing is accepted that the peer did not send -/

section Accepting

variable {texts keys : Set Nat} {secret : List Term} {ks : List Nat} {id : Party → Nat}
  {initial : Party → List Nat} {link : Link Nat Nat Term} {y : Party}
  (h : Synced symbolic secret id initial link ks)
include h

theorem Synced.sentOn : SentOn secret id ks link.sent := fun x e he => (h.side x).made e he

/-- **No chain on which a party could accept can be computed**: those it has are chains of the
ladder, and a new one is derived from its root key. -/
theorem Synced.not_builds_startFor (hsafe : (Leak.nothing texts keys).SecretSafe secret)
    (key : Nat) : ¬ attacker.Builds (view secret (Leak.nothing texts keys) link.sent)
      ((link.session y).startFor symbolic key) := by
  intro hb
  rw [Session.startFor] at hb
  cases hc : (link.session y).chainFor key with
  | some c =>
    rw [hc, Option.getD_some] at hb
    obtain ⟨k, r, hf⟩ := (h.side y).chains c (Session.chainFor_mem hc).1
    obtain ⟨ikm, salt, info, -, he, hin⟩ := (Leak.guarded_nothing hsafe
      (List.cons_ne_nil k r)).inputs h.sentOn Leak.within_nothing hf.seen.suffix
    rw [hf.start, he] at hb
    exact hin (builds_derived_nothing h.sentOn hb)
  | none =>
    rw [hc, Option.getD_none] at hb
    have hroot := (builds_derived_nothing h.sentOn hb).2
    obtain ⟨ikm, salt, info, he, -, hin⟩ := (Leak.guarded_nothing hsafe
      (h.rungOf_ne_nil y)).inputs h.sentOn Leak.within_nothing (rungOf_suffix y ks)
    rw [(h.side y).atRung.root, he] at hroot
    exact hin (builds_derived_nothing h.sentOn hroot)

/-- A message that fits a session is on a rung of the peer. -/
theorem Synced.owner_of_startFor {k : Nat} {r : List Nat} (hr : k :: r <:+ ks)
    (hs : (link.session y).startFor symbolic k = symbolic.ladderStart secret (k :: r)) :
    owner (k :: r) = y.other := by
  cases hc : (link.session y).chainFor k with
  | some c => exact (h.start_of_chainFor symbolic_ideal hr hc).seen.2
  | none =>
    rw [Session.startFor, hc, Option.getD_none, Session.newChain, (h.side y).atRung.root] at hs
    have hl := ladderStart_length symbolic_ideal (h.rungOf_ne_nil y) (List.cons_ne_nil k r) hs
    rcases Party.eq_or_eq_other (owner (k :: r)) y with ho | ho
    · have := (suffix_rungOf hr ho).length_le
      omega
    · exact ho

/-- **A computed message that is accepted was sent by the peer.** -/
theorem Synced.sent_of_receive (hsafe : (Leak.nothing texts keys).SecretSafe secret)
    {rng : Rng Nat Term} {m : SignalMessage Nat Term} {q : Term} {s' : Session Nat Nat Term}
    {n n' : Nat} (hparsed : m.Parsed symbolic)
    (hmac : attacker.Derives (outsider texts keys ∪ traffic link.sent) m.serialized.mac)
    (hr : (link.session y).receive symbolic rng m n = (.ok (q, s'), n')) :
    ∃ p, (m, p) ∈ link.sent y.other := by
  obtain ⟨hversion, c, s₁, w, ho, -, hverify, -, -⟩ := Session.receive_ok_iff.1 hr
  have hstart := Session.startFor_of_openChain ho
  have hmac_eq : m.serialized.mac = .truncated 8 (.hmac
      (symbolic.messageKeysAt c.start m.counter.toNat).macKey
      (.ofList [.point (link.session y).remoteIdentity, .point (link.session y).localIdentity,
        .bytes m.serialized.version 1, m.serialized.body])) := by
    have hv := of_decide_eq_true hverify
    rw [hversion] at hv
    exact hv.symm
  have hbuilds := builds_of_derives h.sentOn Leak.within_nothing
    (plaintextsKept_nothing h.sentOn hsafe) (hmac.trans fun t ht => .known (ht.imp_left .free))
  rw [hmac_eq] at hbuilds
  rcases exists_sent_of_builds_mac h.sentOn hbuilds with ⟨x, e, he, hmac_e⟩ | hkey
  · obtain ⟨r, hsuf, hox, hm⟩ := h.sentOn x e he
    obtain ⟨-, hin⟩ := Term.truncated.inj (hmac_e.symm.trans hm.mac_eq)
    obtain ⟨hkeys, hdata⟩ := Term.hmac.inj hin
    have hlist := Term.ofList_inj hdata
    simp only [List.cons.injEq, Term.bytes.injEq, and_true] at hlist
    obtain ⟨-, -, hversion', hbody⟩ := hlist
    -- the bytes are those of the message that was sent, and bytes determine a message
    have hser : m.serialized = e.1.serialized := by
      rw [SerializedMessage.mk.injEq]
      exact ⟨hversion', hbody, hmac_eq.trans hmac_e.symm⟩
    have hparsed' : e.1.Parsed symbolic := by
      rw [hm.created]
      exact SignalMessage.parsed_create ..
    obtain rfl := hparsed.eq_of_serialized hparsed' hser
    obtain ⟨k, r', rfl, hk⟩ := hm.head
    have hchain : c.start = symbolic.ladderStart secret (k :: r') :=
      symbolic_ideal.macKey_inj hkeys
    rw [hk] at hstart
    have hx : x = y.other :=
      hox.symm.trans (h.owner_of_startFor hsuf (hstart.symm.trans hchain))
    exact ⟨e.2, hx ▸ he⟩
  · exact absurd (hstart ▸ builds_start_of_macKey h.sentOn hkey)
      (h.not_builds_startFor hsafe m.senderRatchetKey)

/-- A message that is accepted was not accepted before. -/
theorem Synced.notMem_accepted_of_receive {rng : Rng Nat Term}
    {e : SignalMessage Nat Term × Term} {q : Term} {s' : Session Nat Nat Term} {n n' : Nat}
    (he : e ∈ link.sent y.other)
    (hr : (link.session y).receive symbolic rng e.1 n = (.ok (q, s'), n')) :
    e.1 ∉ link.accepted y := by
  intro hacc
  obtain ⟨k, r, hseen, hk⟩ := (h.side y).known e.1 hacc
  rcases (h.receive_cases symbolic_ideal he hr).2 with
    ⟨c, w, hc, hw, -, -⟩ | ⟨-, -, -, -, ho, hkey, -, -, -⟩
  · have hf := h.start_of_chainFor symbolic_ideal hseen.suffix (hk ▸ hc)
    have hspent : c.window.Spent e.1.counter.toNat := by
      rw [hf.window]
      refine Window.spent_of_mem_replayFrom (List.mem_map.2 ⟨e.1, ?_, rfl⟩)
      rw [List.mem_filter]
      exact ⟨hacc, decide_eq_true (hk.trans hf.key.symm)⟩
    rw [hspent.request] at hw
    cases hw
  · -- the newest rung was not seen before
    match ks, h.nodup, hkey, hseen with
    | k₀ :: t, hnodup, hkey, hseen =>
      obtain rfl : k₀ = k := (Option.some.inj hkey).trans hk
      exact (List.nodup_cons.1 hnodup).1 (hseen.1.subset List.mem_cons_self)

end Accepting

/-! ## 3. Runs under attack -/

/-- A party is handed a message. -/
def Exchange.inject {Priv Pub B : Type} [DecidableEq Addr] [DecidableEq Pub] [DecidableEq B]
    (peers : Peers Addr Priv Pub B) (d : Exchange Addr Priv Pub B) (y : Party)
    (m : SignalMessage Pub B) : Exchange Addr Priv Pub B :=
  match sessionCipherDecryptSignalMessage (peers.context y) (peers.cipher y) m (d.world y) with
  | (.error _, w) => { d with world := Function.update d.world y w }
  | (.ok _, w) =>
    { d with
      world := Function.update d.world y w
      accepted := Function.update d.accepted y (m :: d.accepted y) }

section Runs

variable [DecidableEq Addr]

/-- **A run under attack**: the parties encrypt whatever they like, and either is handed
anything that reads as a message and that the attacker can compute at that point. -/
inductive Exchange.Attacked (peers : Peers Addr Nat Nat Term) (texts keys : Set Nat)
    (d : Exchange Addr Nat Nat Term) : Exchange Addr Nat Nat Term → Prop where
  | start : Attacked peers texts keys d d
  | encrypt {d'} (h : Attacked peers texts keys d d') (x : Party) (plaintext : Term) :
      Attacked peers texts keys d (d'.step peers (.encrypt x plaintext))
  | inject {d'} (h : Attacked peers texts keys d d') (y : Party) (m : SignalMessage Nat Term)
      (hparsed : m.Parsed symbolic)
      (hwire : ∀ t ∈ m.wire, attacker.Derives (outsider texts keys ∪ traffic d'.sent) t) :
      Attacked peers texts keys d (d'.inject peers y m)

theorem Exchange.inject_sent (peers : Peers Addr Nat Nat Term) (d : Exchange Addr Nat Nat Term)
    (y : Party) (m : SignalMessage Nat Term) : (d.inject peers y m).sent = d.sent := by
  unfold Exchange.inject
  split <;> rfl

/-- A message that the peer sent might as well have been delivered. -/
theorem Exchange.inject_eq_deliver (peers : Peers Addr Nat Nat Term)
    (d : Exchange Addr Nat Nat Term) {y : Party} {e : SignalMessage Nat Term × Term} {i : Nat}
    (hi : (d.sent y.other)[i]? = some e) :
    d.inject peers y e.1 = d.step peers (.deliver y i) := by
  rcases hr : sessionCipherDecryptSignalMessage (peers.context y) (peers.cipher y) e.1 (d.world y)
    with ⟨_ | _, _⟩ <;> simp only [Exchange.inject, Exchange.step, hi, hr]

variable {peers : Peers Addr Nat Nat Term} {a : AliceParameters Nat Nat}
  {b : BobParameters Nat Nat} {d d' : Exchange Addr Nat Nat Term} {texts keys : Set Nat}
  {session : Party → Session Nat Nat Term} {ks : List Nat} {y : Party}
  {m : SignalMessage Nat Term}

/-- **What the cipher accepts from an attacker**: a message that the peer sent, with its own
plaintext, and not for the second time. -/
theorem Exchange.Locked.sent_of_decrypt (hP : peers.provider = symbolic)
    (h : d.Locked peers a b session ks)
    (hsafe : (Leak.nothing texts keys).SecretSafe (a.secret symbolic))
    (hparsed : m.Parsed symbolic)
    (hwire : ∀ t ∈ m.wire, attacker.Derives (outsider texts keys ∪ traffic d.sent) t) {q : Term}
    (hdec : (sessionCipherDecryptSignalMessage (peers.context y) (peers.cipher y) m
      (d.world y)).1 = .ok q) : (m, q) ∈ d.sent y.other ∧ m ∉ d.accepted y := by
  have hlen : [session y].length ≤ archivedStatesMaxLength + 1 := Nat.succ_le_succ (Nat.zero_le _)
  have hpassive : (peers.cipher y).Passive := SessionCipher.passive_create _
  obtain ⟨s', j, n, ha, -⟩ := decrypt_ok (h.holds y) (h.inRange_stored y) hlen hpassive
    (Prod.ext hdec rfl)
  obtain ⟨s, k, hs, -, hrec⟩ := Session.receiveAny_ok ha
  obtain rfl : session y = s := List.mem_singleton.1 (List.mem_of_getElem? hs) |>.symm
  have hprovider : (peers.context y).provider = symbolic := hP
  rw [hprovider] at hrec
  have hsync := h.synced
  rw [hP] at hsync
  obtain ⟨p, hp⟩ := hsync.sent_of_receive (y := y) hsafe hparsed
    (hwire _ (Or.inr rfl)) hrec
  obtain rfl : q = p := (hsync.receive_cases symbolic_ideal hp hrec).1
  exact ⟨hp, hsync.notMem_accepted_of_receive hp hrec⟩

/-- Being handed a computed message keeps lock-step. -/
theorem Exchange.Locked.inject (hP : peers.provider = symbolic)
    (hf : peers.Fresh b.ourRatchetKey.privateKey) (h : d.Locked peers a b session ks)
    (hsafe : (Leak.nothing texts keys).SecretSafe (a.secret symbolic))
    (hcount : ∀ x, ∀ e ∈ d.sent x, e.1.counter.toNat + 1 < 2 ^ 32) (hparsed : m.Parsed symbolic)
    (hwire : ∀ t ∈ m.wire, attacker.Derives (outsider texts keys ∪ traffic d.sent) t) :
    ∃ session' ks', (d.inject peers y m).Locked peers a b session' ks' := by
  rcases hr : sessionCipherDecryptSignalMessage (peers.context y) (peers.cipher y) m
    (d.world y) with ⟨_ | q, w⟩
  · have hlen : [session y].length ≤ archivedStatesMaxLength + 1 :=
      Nat.succ_le_succ (Nat.zero_le _)
    obtain ⟨n, hn, rfl⟩ := decrypt_error (h.holds y) (h.inRange_stored y) hlen
      (SessionCipher.passive_create _) hr
    refine ⟨session, ks, h.advance y hn ?_ ?_ ?_⟩ <;> simp only [Exchange.inject, hr]
  · obtain ⟨hmem, -⟩ := h.sent_of_decrypt hP hsafe hparsed hwire (congrArg Prod.fst hr)
    obtain ⟨i, hi⟩ := List.mem_iff_getElem?.1 hmem
    have heq : d.inject peers y m = d.step peers (.deliver y i) :=
      Exchange.inject_eq_deliver peers d (e := (m, q)) hi
    obtain ⟨session', ks', h', -⟩ := h.deliver (hP ▸ symbolic_ideal) hf y i (hcount y.other)
    exact ⟨session', ks', heq ▸ h'⟩

/-- **Lock-step survives every attack** in which no counter reached the end of its range. -/
theorem Exchange.Attacked.locked (hP : peers.provider = symbolic) (hm : Matching symbolic a b)
    (hf : peers.Fresh b.ourRatchetKey.privateKey) (hd : d.Started peers a b)
    (hsafe : (Leak.nothing texts keys).SecretSafe (a.secret symbolic))
    (h : d.Attacked peers texts keys d')
    (hcount : ∀ x, ∀ e ∈ d'.sent x, e.1.counter.toNat + 1 < 2 ^ 32) :
    ∃ session ks, d'.Locked peers a b session ks := by
  induction h with
  | start =>
    obtain ⟨session, ks, h, -⟩ := hd.locked (hP ▸ hm) hf
    exact ⟨session, ks, h⟩
  | encrypt h x plaintext ih =>
    obtain ⟨session, ks, h⟩ := ih fun z e he =>
      hcount z e ((Exchange.sent_prefix_step _ _ z).subset he)
    obtain ⟨session', h', -⟩ := h.encrypt x plaintext (hcount x)
    exact ⟨session', ks, h'⟩
  | inject h y m hparsed hwire ih =>
    rw [Exchange.inject_sent] at hcount
    obtain ⟨session, ks, h⟩ := ih hcount
    exact h.inject hP hf hsafe hcount hparsed hwire

/-- **No forgery and no replay.**  Two of the private keys that an attacker lacks agree in the
initial secret.  Then in every run in which it hands the parties whatever it can compute, the
cipher accepts from it only what the peer encrypted, with the plaintext the peer encrypted, and
never twice. -/
theorem no_forgery (hP : peers.provider = symbolic) (hm : Matching symbolic a b)
    (hf : peers.Fresh b.ourRatchetKey.privateKey) (hd : d.Started peers a b)
    (hsecret : ∃ i ∈ keys, ∃ j ∈ keys, symbolicAgreement i j ∈ a.secret symbolic)
    (h : d.Attacked peers texts keys d')
    (hcount : ∀ x, ∀ e ∈ d'.sent x, e.1.counter.toNat + 1 < 2 ^ 32) (y : Party)
    {m : SignalMessage Nat Term} (hparsed : m.Parsed symbolic)
    (hwire : ∀ t ∈ m.wire, attacker.Derives (outsider texts keys ∪ traffic d'.sent) t) {q : Term}
    (hdec : (sessionCipherDecryptSignalMessage (peers.context y) (peers.cipher y) m
      (d'.world y)).1 = .ok q) : (m, q) ∈ d'.sent y.other ∧ m ∉ d'.accepted y := by
  obtain ⟨session, ks, hl⟩ := h.locked hP hm hf hd hsecret hcount
  exact hl.sent_of_decrypt hP hsecret hparsed hwire hdec

/-- **Secrecy under attack.**  In every such run, whatever the parties encrypt, no text that the
attacker lacks can be computed from the traffic, and neither can the key of any message. -/
theorem secrecy_under_attack (hP : peers.provider = symbolic) (hm : Matching symbolic a b)
    (hf : peers.Fresh b.ourRatchetKey.privateKey) (hd : d.Started peers a b)
    (hsecret : ∃ i ∈ keys, ∃ j ∈ keys, symbolicAgreement i j ∈ a.secret symbolic)
    (h : d.Attacked peers texts keys d')
    (hcount : ∀ x, ∀ e ∈ d'.sent x, e.1.counter.toNat + 1 < 2 ^ 32) :
    (∀ n ∈ texts, ¬ attacker.Derives (outsider texts keys ∪ traffic d'.sent) (.text n)) ∧
      ∀ x, ∀ e ∈ d'.sent x, ∀ key iv p,
        symbolic.decrypt .cbcPkcs5 key iv e.1.ciphertext = .ok p →
          ¬ attacker.Derives (outsider texts keys ∪ traffic d'.sent) key := by
  obtain ⟨session, ks, hl⟩ := h.locked hP hm hf hd hsecret hcount
  have hsync := hl.synced
  rw [hP] at hsync
  have hreach := Leak.out_of_reach (K := outsider texts keys ∪ traffic d'.sent) hsync.sentOn
    Leak.within_nothing (plaintextsKept_nothing hsync.sentOn hsecret)
    fun t ht => .known (ht.imp_left .free)
  refine ⟨hreach.1, fun x e he => hreach.2 x e he ?_⟩
  obtain ⟨r, hr, -, hmade⟩ := hsync.sentOn x e he
  obtain ⟨k, r', rfl, -⟩ := hmade.head
  exact ⟨_, hr, hmade, Leak.safe_nothing hsecret (List.cons_ne_nil k r') _⟩

end Runs

/-- What Alice sends first in the sample. -/
def sampleSent : Exchange Nat Nat Nat Term :=
  sampleStart.step samplePeers (.encrypt .alice (.text 0))

theorem sampleSent_attacked (texts keys : Set Nat) :
    sampleStart.Attacked samplePeers texts keys sampleSent := .encrypt .start _ _

/-- The attacker hands Bob what Alice sent, and Bob accepts it as hers. -/
theorem no_forgery_sample : ∃ e ∈ sampleSent.sent .alice, e.2 = .text 0 ∧
    e.1 ∉ sampleSent.accepted .bob := by
  obtain ⟨hmem, hnew⟩ := no_forgery rfl sample_matching sample_fresh sample_started
    ⟨11, by simp, 2, by simp, by decide⟩ (sampleSent_attacked ∅ {2, 11})
    (fun x => by cases x <;> decide +kernel) .bob
    (m := ((sampleSent.sent .alice).head (by decide +kernel)).1) (q := .text 0)
    (by unfold SignalMessage.Parsed; decide +kernel)
    (fun t ht => .known (Or.inr ⟨.alice, _, List.head_mem _, ht⟩)) (by decide +kernel)
  exact ⟨_, hmem, rfl, hnew⟩

/-- The text that Alice sent is out of the attacker's reach. -/
theorem secrecy_under_attack_sample :
    ¬ attacker.Derives (outsider {0} {2, 11} ∪ traffic sampleSent.sent) (.text 0) :=
  (secrecy_under_attack rfl sample_matching sample_fresh sample_started
    ⟨11, by simp, 2, by simp, by decide⟩ (sampleSent_attacked _ _)
    fun x => by cases x <;> decide +kernel).1 0 rfl

end SignalProtocol
