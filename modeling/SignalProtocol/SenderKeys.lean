/-
# No key is used twice by a sender

Over every run of one party, on arbitrary input, every message that is returned is encrypted and
authenticated under the message keys of the chain key then in the store, no two under the same,
and the messages under one sender ratchet key are numbered 0, 1, 2, ...

The sender's ratchet keys are what makes this work.  A session that has received anything
sends on a chain that was opened with a key pair drawn for it (`Born`), and such a chain is
determined by the draw: its first key is derived from an agreement of the drawn key with one
that was there before.  A session in Bob's role that has received nothing is different: it is
a function of the pre-key message, and the same message makes it again.  Such a session is
never the current one, because the message that would promote it also opens a new chain.
-/
import SignalProtocol.Run
import SignalProtocol.Symbolic

namespace SignalProtocol

variable {Addr Priv Pub B : Type}

/-! ## 1. Lists -/

/-- Moving an element to the front is a permutation. -/
theorem perm_cons_eraseIdx {α : Type} {l : List α} {i : Nat} {a : α} (h : l[i]? = some a) :
    l.Perm (a :: l.eraseIdx i) := by
  obtain ⟨hi, rfl⟩ := List.getElem?_eq_some_iff.1 h
  exact (List.getElem_cons_eraseIdx_perm hi).symm

/-- If the values of each class are distinct, so are the pairs of class and value. -/
theorem nodup_map_pair {α β γ : Type} [DecidableEq β] {f : α → β} {g : α → γ} :
    ∀ {l : List α}, (∀ b, ((l.filter fun a => f a = b).map g).Nodup) →
      (l.map fun a => (f a, g a)).Nodup
  | [], _ => List.nodup_nil
  | a :: l, h => by
    have hl : ∀ b, ((l.filter fun a => f a = b).map g).Nodup := by
      intro b
      refine (h b).sublist (List.Sublist.map g ?_)
      exact (List.sublist_cons_self a l).filter _
    rw [List.map_cons, List.nodup_cons]
    refine ⟨fun hmem => ?_, nodup_map_pair hl⟩
    obtain ⟨c, hc, he⟩ := List.mem_map.1 hmem
    obtain ⟨hf, hg⟩ := Prod.mk.inj he
    have ha := h (f a)
    rw [List.filter_cons_of_pos (by simp), List.map_cons, List.nodup_cons] at ha
    exact ha.1 (List.mem_map.2 ⟨c, List.mem_filter.2 ⟨hc, by simpa using hf⟩, hg⟩)

/-- A map that separates at least as much as another without repetitions has none. -/
theorem nodup_map_of_separates {α β γ : Type} {f : α → β} {g : α → γ} {l : List α}
    (h : (l.map f).Nodup) (hs : ∀ a ∈ l, ∀ b ∈ l, g a = g b → f a = f b) : (l.map g).Nodup := by
  rw [List.Nodup, List.pairwise_map] at h ⊢
  exact h.imp_of_mem fun ha hb hne he => hne (hs _ ha _ hb he)

/-! ## 2. Chains that were drawn -/

section Born

/-- A sending chain was opened with the key pair drawn at position `n`. -/
def Born (ctx : SignalContext Addr Priv Pub B) (n : Nat) (key : Pub) (start : B) : Prop :=
  ∃ k root their, ctx.rng.privateKey n = .ok k ∧ key = ctx.provider.publicKey k ∧
    start = ctx.provider.ratchetStart root (ctx.provider.agreement their k) ∧ OldKey ctx n their

variable {ctx : SignalContext Addr Priv Pub B} {n n' : Nat} {key key' : Pub} {start : B}

/-- **The first chain key determines the ratchet key.**  An agreement is an unordered pair, so
the two keys could have changed places; but each was generated after the other was there. -/
theorem Born.key_eq (hI : Ideal ctx.provider) (h : Born ctx n key start)
    (h' : Born ctx n' key' start) : key = key' := by
  obtain ⟨k, root, their, hk, rfl, rfl, hold⟩ := h
  obtain ⟨k', root', their', hk', rfl, he, hold'⟩ := h'
  have hs := hI.agreement_inj (hI.ratchetStart_inj he).2
  rcases Sym2.eq_iff.1 hs with ⟨-, hkk⟩ | ⟨h1, h2⟩
  · exact hkk
  · rcases Nat.le_total n n' with hle | hle
    · exact absurd h1.symm (hold n' hle k' hk')
    · exact absurd h2 (hold' n hle k hk)

/-- A key that is drawn now was not drawn before. -/
theorem Born.ne_of_lt (hI : Ideal ctx.provider) (hd : ctx.rng.Distinct) (h : Born ctx n key start)
    (hn : n < n') {k : Priv} (hk : ctx.rng.privateKey n' = .ok k) :
    key ≠ ctx.provider.publicKey k := by
  obtain ⟨k', -, -, hk', rfl, -⟩ := h
  intro he
  rw [hI.publicKey_inj he] at hk'
  exact absurd (hd hk' hk) (Nat.ne_of_lt hn)

end Born

/-! ## 3. The ledger -/

section Ledger

variable [LinearOrder Pub]

/-- The messages sent under a ratchet key. -/
def sentUnder (log : List (SignalMessage Pub B × B)) (key : Pub) : List (SignalMessage Pub B × B) :=
  log.filter fun g => g.1.senderRatchetKey = key

/-- **The sessions and what was sent.**  Every message was sent on a drawn chain and bears the
next number under its key; every session that has received something sends on a drawn chain of
its own, at the position the messages sent so far have reached. -/
structure Ledger (ctx : SignalContext Addr Priv Pub B) (n : Nat)
    (l : List (Session Priv Pub B)) (log : List (SignalMessage Pub B × B)) : Prop where
  born : ∀ g ∈ log, ∃ j, j < n ∧ Born ctx j g.1.senderRatchetKey g.2
  counters : ∀ key, (sentUnder log key).map (fun g => g.1.counter.toNat) =
    List.range (sentUnder log key).length
  live : ∀ s ∈ l, s.receivers ≠ [] →
    (∃ j, j < n ∧ Born ctx j s.sender.pair.publicKey s.sender.start) ∧
      s.sender.next = (sentUnder log s.sender.pair.publicKey).length
  apart : l.Pairwise fun s t => s.receivers ≠ [] → t.receivers ≠ [] →
    s.sender.pair.publicKey ≠ t.sender.pair.publicKey

namespace Ledger

variable {ctx : SignalContext Addr Priv Pub B} {n n' : Nat} {l l' : List (Session Priv Pub B)}
  {s s' : Session Priv Pub B} {log : List (SignalMessage Pub B × B)}

theorem nil (ctx : SignalContext Addr Priv Pub B) (n : Nat) : Ledger ctx n [] [] :=
  ⟨fun _ hg => absurd hg List.not_mem_nil, fun _ => rfl, fun _ hs => absurd hs List.not_mem_nil,
    .nil⟩

variable (h : Ledger ctx n l log)
include h

theorem mono (hn : n ≤ n') : Ledger ctx n' l log := by
  refine ⟨fun g hg => ?_, h.counters, fun s hs hne => ?_, h.apart⟩
  · obtain ⟨j, hj, hb⟩ := h.born g hg
    exact ⟨j, Nat.lt_of_lt_of_le hj hn, hb⟩
  · obtain ⟨⟨j, hj, hb⟩, hnext⟩ := h.live s hs hne
    exact ⟨⟨j, Nat.lt_of_lt_of_le hj hn, hb⟩, hnext⟩

theorem sublist (hl : l'.Sublist l) : Ledger ctx n l' log :=
  ⟨h.born, h.counters, fun s hs => h.live s (hl.subset hs), h.apart.sublist hl⟩

theorem perm (hl : l.Perm l') : Ledger ctx n l' log := by
  refine ⟨h.born, h.counters, fun s hs => h.live s (hl.mem_iff.2 hs), ?_⟩
  exact (hl.pairwise_iff fun hst ht hs => (hst hs ht).symm).1 h.apart

/-- A session that has received nothing does not count. -/
theorem cons_idle (hs : s.receivers = []) : Ledger ctx n (s :: l) log := by
  refine ⟨h.born, h.counters, fun t ht hne => ?_, List.pairwise_cons.2 ⟨?_, h.apart⟩⟩
  · rcases List.mem_cons.1 ht with rfl | ht
    · exact absurd hs hne
    · exact h.live t ht hne
  · exact fun t _ hne => absurd hs hne

/-- A new session sends on a chain that was just drawn. -/
theorem cons_new (hI : Ideal ctx.provider) (hd : ctx.rng.Distinct) {j : Nat} (hj : n ≤ j)
    (hn : j < n') (hb : Born ctx j s.sender.pair.publicKey s.sender.start)
    (hnext : s.sender.next = 0) : Ledger ctx n' (s :: l) log := by
  have hne : ∀ j' key start, j' < n → Born ctx j' key start → key ≠ s.sender.pair.publicKey := by
    intro j' key start hj' hb'
    obtain ⟨k, -, -, hk, hkey, -⟩ := hb
    rw [hkey]
    exact hb'.ne_of_lt hI hd (Nat.lt_of_lt_of_le hj' hj) hk
  have hm := h.mono (Nat.le_of_lt (Nat.lt_of_le_of_lt hj hn))
  refine ⟨hm.born, h.counters, fun t ht htne => ?_, List.pairwise_cons.2 ⟨fun t ht _ htne => ?_,
    h.apart⟩⟩
  · rcases List.mem_cons.1 ht with rfl | ht
    · refine ⟨⟨j, hn, hb⟩, hnext.trans ?_⟩
      rw [eq_comm, List.length_eq_zero_iff, sentUnder, List.filter_eq_nil_iff]
      intro g hg hkey
      obtain ⟨j', hj', hb'⟩ := h.born g hg
      exact hne j' _ _ hj' hb' (of_decide_eq_true hkey)
    · exact hm.live t ht htne
  · obtain ⟨⟨j', hj', hb'⟩, -⟩ := h.live t ht htne
    exact (hne j' _ _ hj' hb').symm

omit h in
/-- A session that keeps its sending chain. -/
theorem replace (h : Ledger ctx n (s :: l) log) (hsender : s'.sender = s.sender)
    (hne : s.receivers ≠ []) : Ledger ctx n (s' :: l) log := by
  obtain ⟨happ, hl⟩ := List.pairwise_cons.1 h.apart
  refine ⟨h.born, h.counters, fun t ht htne => ?_, List.pairwise_cons.2 ⟨fun t ht _ htne => ?_, hl⟩⟩
  · rcases List.mem_cons.1 ht with rfl | ht
    · rw [hsender]
      exact h.live s List.mem_cons_self hne
    · exact h.live t (List.mem_cons_of_mem _ ht) htne
  · rw [hsender]
    exact happ t ht hne htne

/-- **Receiving keeps the ledger**: the session keeps its sending chain or draws a new one. -/
theorem receive [DecidableEq B] (hI : Ideal ctx.provider) (hd : ctx.rng.Distinct) {i k : Nat}
    {m : SignalMessage Pub B} {p : B} (hi : l[i]? = some s) (hold : OldKey ctx n m.senderRatchetKey)
    (hk : n ≤ k) (hr : s.receive ctx.provider ctx.rng m k = (.ok (p, s'), n')) :
    Ledger ctx n' (s' :: l.eraseIdx i) log ∧ s'.receivers ≠ [] := by
  have hp := h.perm (perm_cons_eraseIdx hi)
  obtain ⟨-, c, s₁, w, ho, -, -, -, rfl⟩ := Session.receive_ok_iff.1 hr
  rcases openChain_ok_iff.1 ho with ⟨hc, rfl, rfl⟩ | ⟨hc, ours, hours, rfl, rfl, rfl⟩
  · have hne : s₁.receivers ≠ [] := List.ne_nil_of_mem (Session.chainFor_mem hc).1
    have hrep : Ledger ctx n
        ((s₁.setWindow m.senderRatchetKey w).acknowledge :: l.eraseIdx i) log :=
      hp.replace rfl hne
    exact ⟨hrep.mono hk, fun he => hne (List.map_eq_nil_iff.1 he)⟩
  · have hborn : Born ctx k (ctx.provider.publicKey ours)
        (ctx.provider.ratchetStart (s.middleRoot ctx.provider m.senderRatchetKey)
          (ctx.provider.agreement m.senderRatchetKey ours)) :=
      ⟨ours, _, _, hours, rfl, rfl, hold.mono hk⟩
    refine ⟨(hp.sublist (List.sublist_cons_self ..)).cons_new hI hd hk (Nat.lt_succ_self k) hborn
      rfl, fun he => ?_⟩
    have hmem := (Session.chainFor_mem (chainFor_ratchet (P := ctx.provider) s hc ours)).1
    exact List.ne_nil_of_mem hmem (List.map_eq_nil_iff.1 he)

omit h in
theorem sentUnder_append_self (log : List (SignalMessage Pub B × B))
    (g : SignalMessage Pub B × B) :
    sentUnder (log ++ [g]) g.1.senderRatchetKey = sentUnder log g.1.senderRatchetKey ++ [g] := by
  rw [sentUnder, sentUnder, List.filter_append, List.filter_cons_of_pos (by simp),
    List.filter_nil]

omit h in
theorem sentUnder_append_of_ne (log : List (SignalMessage Pub B × B))
    {g : SignalMessage Pub B × B} {key : Pub} (hne : g.1.senderRatchetKey ≠ key) :
    sentUnder (log ++ [g]) key = sentUnder log key := by
  rw [sentUnder, sentUnder, List.filter_append,
    List.filter_cons_of_neg (by simpa using hne), List.filter_nil, List.append_nil]

omit h in
/-- **Sending keeps the ledger**: the message bears the next number under its key. -/
theorem send (h : Ledger ctx n (s :: l) log) (hne : s.receivers ≠ [])
    (hlt : s.sender.next < 2 ^ 32) {p : B} {c : CiphertextMessage Pub B}
    (hs : s.send ctx.provider p = .ok (c, s')) :
    Ledger ctx n (s' :: l) (log ++ [(c.inner, s.sender.start)]) := by
  have hcounter := Session.counter_of_send hs hlt
  obtain ⟨ciphertext, -, hwrap, rfl⟩ := Session.send_ok_iff.1 hs
  obtain ⟨hborn, hnext⟩ := h.live s List.mem_cons_self hne
  obtain ⟨happ, hl⟩ := List.pairwise_cons.1 h.apart
  have hkey : c.inner.senderRatchetKey = s.sender.pair.publicKey := by
    rw [Session.wrap_inner hwrap]
    rfl
  refine ⟨fun g hg => ?_, fun key => ?_, fun t ht htne => ?_, List.pairwise_cons.2 ⟨?_, hl⟩⟩
  · rcases List.mem_append.1 hg with hg | hg
    · exact h.born g hg
    · rw [List.mem_singleton.1 hg, hkey]
      exact hborn
  · rcases eq_or_ne c.inner.senderRatchetKey key with rfl | hk
    · rw [sentUnder_append_self log (c.inner, s.sender.start), List.map_append, h.counters,
        List.length_append, List.length_singleton, List.range_succ, List.map_singleton, hcounter,
        hnext, hkey]
    · rw [sentUnder_append_of_ne (g := (c.inner, s.sender.start)) log hk]
      exact h.counters key
  · rcases List.mem_cons.1 ht with rfl | ht
    · refine ⟨hborn, ?_⟩
      have hself := sentUnder_append_self log (c.inner, s.sender.start)
      rw [show ((c.inner, s.sender.start) : SignalMessage Pub B × B).1.senderRatchetKey = _ from
        hkey] at hself
      show s.sender.next + 1 = (sentUnder _ s.sender.pair.publicKey).length
      rw [hself, List.length_append, List.length_singleton, ← hnext]
    · rw [sentUnder_append_of_ne (g := (c.inner, s.sender.start)) log
        (hkey ▸ happ t ht hne htne)]
      exact h.live t (List.mem_cons_of_mem _ ht) htne
  · exact fun t ht _ htne => happ t ht hne htne

/-- **No two logged messages used the same message keys**: equal keys lie at equal positions
of equal chains, and a chain has one ratchet key. -/
theorem nodup_messageKeys (hI : Ideal ctx.provider) :
    (log.map fun g => ctx.provider.messageKeysAt g.2 g.1.counter.toNat).Nodup := by
  have hpairs : (log.map fun g => (g.1.senderRatchetKey, g.1.counter.toNat)).Nodup :=
    nodup_map_pair fun key => by
      have := h.counters key
      rw [sentUnder] at this
      rw [this]
      exact List.nodup_range
  refine nodup_map_of_separates hpairs fun g hg g' hg' he => ?_
  have hcounter : g.1.counter.toNat = g'.1.counter.toNat := by
    have := congrArg RatchetMessageKeys.counter he
    rwa [Provider.messageKeysAt_counter, Provider.messageKeysAt_counter, UInt32.ofNat_toNat,
      UInt32.ofNat_toNat, ← UInt32.toNat_inj] at this
  have hmac := congrArg RatchetMessageKeys.macKey he
  rw [hcounter] at hmac
  have hstart := hI.macKey_inj hmac
  obtain ⟨j, -, hb⟩ := h.born g hg
  obtain ⟨j', -, hb'⟩ := h.born g' hg'
  rw [hstart] at hb
  exact Prod.ext (hb.key_eq hI hb') hcounter

end Ledger

end Ledger

/-! ## 4. Runs -/

section Run

variable [DecidableEq Addr] [LinearOrder Pub] [DecidableEq B]

/-- The sender chain key of the current state, as the store holds it. -/
def World.senderChainKey (P : Provider Priv Pub B) (address : Addr)
    (w : World Addr Priv Pub B) : Option (RatchetChainKey B) :=
  match signalProtocolSessionLoadSession P address w with
  | (.ok record, _) => record.state.getSenderChainKey
  | (.error _, _) => none

/-- A message that a call returned: what it was asked to encrypt, the message, and the message
keys of the chain key that the current state had before the call. -/
structure Sent (Pub B : Type) where
  plaintext : B
  message : SignalMessage Pub B
  keys : Option (RatchetMessageKeys B)
  deriving DecidableEq

/-- What a step has sent. -/
def Step.sent (P : Provider Priv Pub B) (s : Step Addr Priv Pub B) : List (Sent Pub B) :=
  match s.action, s.result with
  | .call (.encrypt cipher plaintext), .ok (.ciphertext c) =>
    [⟨plaintext, c.inner, (s.before.senderChainKey P cipher.remoteAddress).map
      (RatchetChainKey.getMessageKeys P)⟩]
  | _, _ => []

/-- **The keys protect the message**: its ciphertext is the plaintext under the cipher key and the
initialization vector, and it carries the MAC under the MAC key. -/
def RatchetMessageKeys.Protect (P : Provider Priv Pub B) (keys : RatchetMessageKeys B)
    (plaintext : B) (m : SignalMessage Pub B) : Prop :=
  P.encrypt .cbcPkcs5 keys.cipherKey keys.iv plaintext = .ok m.ciphertext ∧
    ∃ sender receiver, m = SignalMessage.create P 3 keys.macKey m.senderRatchetKey m.counter
      m.previousCounter m.ciphertext sender receiver

variable {ctx : SignalContext Addr Priv Pub B} {cipher : SessionCipher Addr Priv Pub B}
  {w w' : World Addr Priv Pub B} {l l' : List (Session Priv Pub B)}

omit [DecidableEq Addr] [LinearOrder Pub] [DecidableEq B] in
theorem senderChainKey_holds {P : Provider Priv Pub B} {address : Addr} {s : Session Priv Pub B}
    {rest : List (Session Priv Pub B)} (h : w.Holds P address (s :: rest)) :
    w.senderChainKey P address = some (P.chainKeyAt s.sender.start s.sender.next) := by
  rw [World.senderChainKey, load_holds h]
  rfl

omit [DecidableEq Addr] [LinearOrder Pub] [DecidableEq B] in
theorem Step.sent_error (P : Provider Priv Pub B) {s : Step Addr Priv Pub B} {e : SgError}
    (h : s.result = .error e) : s.sent P = [] := by
  rw [Step.sent, h]
  split <;> simp_all

omit [DecidableEq Addr] [LinearOrder Pub] [DecidableEq B] in
/-- **A session protects what it sends** with the keys of its position. -/
theorem Session.protect_send {P : Provider Priv Pub B} {s s' : Session Priv Pub B} {p : B}
    {c : CiphertextMessage Pub B} (h : s.send P p = .ok (c, s')) :
    (P.messageKeysAt s.sender.start s.sender.next).Protect P p c.inner := by
  obtain ⟨ciphertext, hencrypt, hwrap, -⟩ := Session.send_ok_iff.1 h
  rw [Session.wrap_inner hwrap]
  exact ⟨hencrypt, s.localIdentity, s.remoteIdentity, rfl⟩

/-- A logged message as a run reports it. -/
def reported (P : Provider Priv Pub B) (g : SignalMessage Pub B × B) :
    SignalMessage Pub B × Option (RatchetMessageKeys B) :=
  (g.1, some (P.messageKeysAt g.2 g.1.counter.toNat))

/-- The invariant of runs: what was sent is protected by its keys, there is a ledger for it, and
the current session has received something. -/
structure Reported (ctx : SignalContext Addr Priv Pub B) (w : World Addr Priv Pub B)
    (l : List (Session Priv Pub B)) (sent : List (Sent Pub B)) : Prop where
  protect : ∀ g ∈ sent, ∃ keys ∈ g.keys, keys.Protect ctx.provider g.plaintext g.message
  ledger : ∃ log, sent.map (fun g => (g.message, g.keys)) = log.map (reported ctx.provider) ∧
    Ledger ctx w.drawn l log
  head : ∀ s rest, l = s :: rest → s.receivers ≠ []

omit [DecidableEq Addr] [DecidableEq B] in
theorem Reported.nil (ctx : SignalContext Addr Priv Pub B) (w : World Addr Priv Pub B) :
    Reported ctx w [] [] :=
  ⟨fun _ hg => absurd hg List.not_mem_nil, ⟨[], rfl, Ledger.nil ctx w.drawn⟩,
    fun _ _ hnil => absurd hnil.symm (List.cons_ne_nil _ _)⟩

omit [DecidableEq Addr] [DecidableEq B] in
theorem Reported.mono {sent : List (Sent Pub B)} (h : Reported ctx w l sent)
    (hn : w.drawn ≤ w'.drawn) : Reported ctx w' l sent := by
  obtain ⟨log, hlog, hledger⟩ := h.ledger
  exact ⟨h.protect, ⟨log, hlog, hledger.mono hn⟩, h.head⟩

omit [DecidableEq Addr] [DecidableEq B] in
/-- The current session sends: the message is reported with the keys of its position. -/
theorem Reported.send {sent : List (Sent Pub B)} {address : Addr} {s s' : Session Priv Pub B}
    {rest : List (Session Priv Pub B)} {p : B} {c : CiphertextMessage Pub B}
    (hs : Stored ctx.provider address w (s :: rest)) (h : Reported ctx w (s :: rest) sent)
    (hsend : s.send ctx.provider p = .ok (c, s')) (hdrawn : w'.drawn = w.drawn) :
    Reported ctx w' (s' :: rest) (sent ++ [⟨p, c.inner, (w.senderChainKey ctx.provider address).map
      (RatchetChainKey.getMessageKeys ctx.provider)⟩]) := by
  obtain ⟨hprotect, ⟨log, hlog, hledger⟩, hhead⟩ := h
  have hne := hhead s rest rfl
  have hlt := (hs.inRange s List.mem_cons_self).sender
  have hcounter := Session.counter_of_send hsend hlt
  have hkeys : (w.senderChainKey ctx.provider address).map
      (RatchetChainKey.getMessageKeys ctx.provider) =
        some (ctx.provider.messageKeysAt s.sender.start s.sender.next) := by
    rw [senderChainKey_holds hs.holds]
    rfl
  refine ⟨fun g hg => ?_, ⟨log ++ [(c.inner, s.sender.start)], ?_, ?_⟩, ?_⟩
  · rcases List.mem_append.1 hg with hg | hg
    · exact hprotect g hg
    · rw [List.mem_singleton.1 hg]
      exact ⟨_, hkeys, Session.protect_send hsend⟩
  · rw [List.map_append, List.map_append, hlog, List.map_singleton, List.map_singleton, reported,
      hcounter, hkeys]
  · rw [hdrawn]
    exact hledger.send hne hlt hsend
  · obtain ⟨-, -, -, rfl⟩ := Session.send_ok_iff.1 hsend
    rintro t rest' he
    obtain ⟨rfl, -⟩ := List.cons.inj he
    exact hne

omit [DecidableEq Addr] in
/-- **Every call keeps the ledger.** -/
theorem Reported.move (hI : Ideal ctx.provider) (hd : ctx.rng.Distinct)
    {sent : List (Sent Pub B)} {c : Command Pub B} {out : Reply Pub B}
    (hs : Stored ctx.provider cipher.remoteAddress w l) (h : Reported ctx w l sent)
    (hfresh : Step.FreshKeys ctx ⟨w, c.action cipher, .ok out, w'⟩)
    (hm : Move ctx cipher.remoteAddress w l c out l' w'.drawn) :
    Reported ctx w' l' (sent ++ Step.sent ctx.provider ⟨w, c.action cipher, .ok out, w'⟩) := by
  obtain ⟨log, hlog, hledger⟩ := h.ledger
  -- a call that does not encrypt sends nothing
  have hquiet : ∀ {l' : List (Session Priv Pub B)}, Ledger ctx w'.drawn l' log →
      (∀ s rest, l' = s :: rest → s.receivers ≠ []) → Reported ctx w' l' (sent ++ []) :=
    fun hl hne => by
      rw [List.append_nil]
      exact ⟨h.protect, ⟨log, hlog, hl⟩, hne⟩
  generalize hn' : w'.drawn = n at hm
  rw [hn'] at hquiet
  cases hm with
  | @send p c s s' rest hl hsend =>
    subst hl
    exact h.send hs hsend hn'
  | @receive m p s s' i k n hi hk hn hr =>
    obtain ⟨hl, hne⟩ := hledger.receive hI hd hi (hfresh _ List.mem_cons_self) hk hr
    refine hquiet hl fun t rest' he => ?_
    rw [← (List.cons.inj he).1]
    exact hne
  | @initiate bundle identity signedPreKey base sending ha hb hsend =>
    have hborn : ∀ root, Born ctx (w.drawn + 1) (ctx.provider.publicKey sending)
        (ctx.provider.ratchetStart root (ctx.provider.agreement signedPreKey sending)) :=
      fun root => ⟨sending, root, signedPreKey, hsend, rfl, rfl,
        (hfresh _ ha.mem_keys.1).mono (Nat.le_succ w.drawn)⟩
    have hold := hledger.sublist (List.take_sublist archivedStatesMaxLength l)
    refine hquiet (hold.cons_new hI hd (Nat.le_succ w.drawn) (Nat.lt_succ_self _) (hborn _) rfl)
      fun t rest' he => ?_
    rw [← (List.cons.inj he).1]
    exact List.cons_ne_nil _ _
  | @respond m l₁ used p s s' i k n hp hi hk hn hr =>
    have hl₁ : Ledger ctx w.drawn l₁ log := by
      rcases prepare_ok hp with ⟨-, rfl, -⟩ | ⟨-, _, _, -, rfl⟩
      · exact hledger
      · exact (hledger.sublist (List.take_sublist ..)).cons_idle rfl
    have hkey : m.message.senderRatchetKey ∈ ((Command.decryptPreKey m).action cipher).keys := by
      simp [Action.keys, Command.action, Command.call, Call.keys]
    obtain ⟨hl, hne⟩ := hl₁.receive hI hd hi (hfresh _ hkey) hk hr
    refine hquiet hl fun t rest' he => ?_
    rw [← (List.cons.inj he).1]
    exact hne

omit [DecidableEq Addr] [DecidableEq B] in
/-- **What was sent used distinct keys.** -/
theorem Reported.nodup_keys (hI : Ideal ctx.provider) {sent : List (Sent Pub B)}
    (h : Reported ctx w l sent) : (sent.map Sent.keys).Nodup := by
  obtain ⟨log, hlog, hledger⟩ := h.ledger
  have hkeys := congrArg (List.map Prod.snd) hlog
  rw [List.map_map, List.map_map] at hkeys
  have hnodup := (hledger.nodup_messageKeys hI).map (Option.some_injective _)
  rw [List.map_map] at hnodup
  exact Eq.mpr (congrArg List.Nodup hkeys) hnodup

omit [DecidableEq Addr] [DecidableEq B] in
/-- **What was sent under one ratchet key is numbered.** -/
theorem Reported.counters {sent : List (Sent Pub B)} (h : Reported ctx w l sent) (key : Pub) :
    ∃ n, ((sent.filter fun g => g.message.senderRatchetKey = key).map fun g =>
      g.message.counter) = (List.range n).map UInt32.ofNat := by
  obtain ⟨log, hlog, hledger⟩ := h.ledger
  have hmessages := congrArg (List.map Prod.fst) hlog
  rw [List.map_map, List.map_map] at hmessages
  have hcounters : ∀ {α : Type} (f : α → SignalMessage Pub B) (as : List α),
      ((as.filter fun a => (f a).senderRatchetKey = key).map fun a => (f a).counter) =
        ((as.map f).filter fun m => m.senderRatchetKey = key).map SignalMessage.counter := by
    intro α f as
    rw [List.filter_map, List.map_map]
    rfl
  refine ⟨(sentUnder log key).length, ?_⟩
  rw [hcounters Sent.message, show sent.map Sent.message = log.map Prod.fst from hmessages,
    ← hcounters Prod.fst, ← hledger.counters key, List.map_map]
  refine List.map_congr_left fun g _ => ?_
  exact UInt32.ofNat_toNat.symm

/-- **What a run reports**: from an empty store every call adds to it as `Reported` says. -/
theorem trace_reported (hI : Ideal ctx.provider) (hd : ctx.rng.Distinct) (hc : cipher.Passive)
    (hw : w.sessions cipher.remoteAddress = none) (cs : List (Command Pub B))
    (hrun : ∀ s ∈ trace ctx cipher cs w, s.Bounded ∧ s.FreshKeys ctx) :
    ∃ l, Reported ctx (runAll ctx cipher cs w) l
      ((trace ctx cipher cs w).flatMap (Step.sent ctx.provider)) := by
  have hstored : Stored ctx.provider cipher.remoteAddress w [] := Stored.nil hw
  obtain ⟨l, -, hreported⟩ := trace_invariant hc (Step.sent ctx.provider) (I := Reported ctx)
    (fun _ _ he => Step.sent_error _ he) (fun _ _ _ _ h hn _ => h.mono hn)
    (fun _ _ _ _ _ _ _ hs h hg hm _ => h.move hI hd hs hg hm) cs w [] [] hstored
    (Reported.nil ctx w) hrun
  exact ⟨l, hreported⟩

/-- **No message key is used twice by a sender.**  In every run from an empty store, every
message that was returned has its ciphertext and its MAC from the message keys of the chain key
that was in the store, these keys are distinct, and the messages under one ratchet key are
numbered 0, 1, 2, ... in order. -/
theorem sender_keys_distinct (hI : Ideal ctx.provider) (hd : ctx.rng.Distinct)
    (hc : cipher.Passive) (hw : w.sessions cipher.remoteAddress = none)
    (cs : List (Command Pub B))
    (hrun : ∀ s ∈ trace ctx cipher cs w, s.Bounded ∧ s.FreshKeys ctx) :
    (∀ g ∈ (trace ctx cipher cs w).flatMap (Step.sent ctx.provider),
        ∃ keys ∈ g.keys, keys.Protect ctx.provider g.plaintext g.message) ∧
      (((trace ctx cipher cs w).flatMap (Step.sent ctx.provider)).map Sent.keys).Nodup ∧
      ∀ key, ∃ n, ((((trace ctx cipher cs w).flatMap (Step.sent ctx.provider)).filter fun g =>
          g.message.senderRatchetKey = key).map fun g => g.message.counter) =
        (List.range n).map UInt32.ofNat := by
  obtain ⟨l, hreported⟩ := trace_reported hI hd hc hw cs hrun
  exact ⟨hreported.protect, hreported.nodup_keys hI, hreported.counters⟩

end Run

/-- One party over the ideal provider that trusts everyone and draws the keys from 100 on. -/
def sampleContext : SignalContext Nat Nat Nat Term :=
  ⟨symbolic, symbolicRng 100 1, fun _ _ _ => true⟩

/-- A party with identity 1 and a signed pre key, and no sessions. -/
def sampleStore : World Nat Nat Nat Term where
  sessions _ := none
  preKeys _ := none
  signedPreKeys i := if i = 7 then some (symbolic.pair 22) else none
  identityKeyPair := symbolic.pair 1
  localRegistrationId := 5
  identities _ := none
  drawn := 0

/-- The bundle of a peer with identity 11 and signed pre key 12. -/
def sampleBundle : PreKeyBundle Nat Term where
  registrationId := 6
  preKeyId := 0
  preKeyPublic := none
  signedPreKeyId := 3
  signedPreKeyPublic := some 12
  signedPreKeySignature := some (.signed 11 (.point 12) .nil)
  identityKey := some 11

theorem sampleContext_distinct : sampleContext.rng.Distinct := by
  intro m n k hm hn
  have := Except.ok.inj (hm.trans hn.symm)
  omega

/-- Keys below 100 are never drawn. -/
theorem sampleContext_oldKey {n key : Nat} (h : key < 100) : OldKey sampleContext n key := by
  intro m _ k hk
  have hk' : 100 + 1 * m = k := Except.ok.inj hk
  show k ≠ key
  omega

/-- Two sessions with the same peer, and two messages in each. -/
def sampleCalls : List (Command Nat Term) :=
  [.processPreKeyBundle sampleBundle, .encrypt (.text 0), .encrypt (.text 1),
    .processPreKeyBundle sampleBundle, .encrypt (.text 0), .encrypt (.text 1)]

/-- Four messages are returned, and they use four keys. -/
theorem sender_keys_distinct_two_sessions :
    ((trace sampleContext (SessionCipher.create 0) sampleCalls sampleStore).flatMap
        (Step.sent symbolic)).length = 4 ∧
      (∀ g ∈ (trace sampleContext (SessionCipher.create 0) sampleCalls sampleStore).flatMap
        (Step.sent symbolic), ∃ keys ∈ g.keys, keys.Protect symbolic g.plaintext g.message) ∧
      (((trace sampleContext (SessionCipher.create 0) sampleCalls sampleStore).flatMap
        (Step.sent symbolic)).map Sent.keys).Nodup := by
  have hcalls : ∀ s ∈ trace sampleContext (SessionCipher.create 0) sampleCalls sampleStore,
      s.Bounded ∧ ∀ key ∈ s.action.keys, key < 100 := by decide +kernel
  obtain ⟨hprotect, hnodup, -⟩ :=
    sender_keys_distinct (show Ideal sampleContext.provider from symbolic_ideal)
      sampleContext_distinct (SessionCipher.passive_create 0) rfl sampleCalls fun s hs =>
        ⟨(hcalls s hs).1, fun key hk => sampleContext_oldKey ((hcalls s hs).2 key hk)⟩
  exact ⟨by decide +kernel, hprotect, hnodup⟩

end SignalProtocol
