/-
# Which keys of a ladder an attacker can compute

An attacker that sees all traffic of two parties has, besides, some of the keys of their ladder
(`Ladder.lean`): root keys, chain keys, keys of single messages, ratchet keys.  `Leak` says
which.  Every derivation of the ladder mixes an agreement into the root key of the rung below,
so a rung is out of reach as long as one of the two is (`Leak.Guarded`); along a chain, a key
gives the later ones and not the earlier ones (`Leak.Safe`).

The result is `Leak.out_of_reach`: the key of a safe message, and a text that was sent in safe
messages only, stay so whatever else the attacker computes from the leak and the traffic.  Which
leak a compromised store amounts to is the subject of `Compromise.lean`.
-/
import SignalProtocol.Attacker

namespace SignalProtocol

open Deduction

/-! ## 1. The keys of a ladder are distinct -/

section Distinct

variable {Priv Pub B : Type} {P : Provider Priv Pub B} {secret : List B} {ks r r' : List Priv}

/-- A rung is determined by its height. -/
theorem rung_eq_of_length (h : r <:+ ks) (h' : r' <:+ ks) (hl : r.length = r'.length) : r = r' :=
  (List.suffix_of_suffix_length_le h h' (Nat.le_of_eq hl)).eq_of_length hl

theorem ladderRoot_inj (hI : Ideal P) (h : r <:+ ks) (h' : r' <:+ ks) (hr : r ≠ []) (hr' : r' ≠ [])
    (he : P.ladderRoot secret r = P.ladderRoot secret r') : r = r' :=
  rung_eq_of_length h h' (ladderRoot_length hI hr hr' he)

theorem ladderStart_inj (hI : Ideal P) (h : r <:+ ks) (h' : r' <:+ ks) (hr : r ≠ [])
    (hr' : r' ≠ []) (he : P.ladderStart secret r = P.ladderStart secret r') : r = r' := by
  refine rung_eq_of_length h h' ?_
  match r, hr with
  | [_], _ =>
    match r', hr' with
    | [_], _ => rfl
    | _ :: _ :: _, _ => exact absurd he hI.initialStart_ne_ratchetStart
  | k :: k' :: t, _ =>
    rw [ladderStart_cons_cons] at he
    exact (ladderStart_length hI (List.cons_ne_nil _ _) hr' he).symm

end Distinct

variable {secret : List Term} {ks r r' : List Nat}

/-- How the keys of a rung are derived: both from the same inputs, as the two halves of one
output. -/
theorem exists_derivation (secret : List Term) :
    ∀ r : List Nat, ∃ ikm salt info, (info = .whisperText ∨ info = .whisperRatchet) ∧
      symbolic.ladderRoot secret r = .derived 1 ikm salt info 64 0 32 ∧
      symbolic.ladderStart secret r = .derived 1 ikm salt info 64 32 32
  | [] => ⟨_, _, _, Or.inl rfl, rfl, rfl⟩
  | [_] => ⟨_, _, _, Or.inl rfl, rfl, rfl⟩
  | _ :: _ :: _ => ⟨_, _, _, Or.inr rfl, rfl, rfl⟩

/-- The key of a chain after some steps, and the first key, are not mistaken for each other. -/
theorem ladderStart_ne_hmac (secret : List Term) (r : List Nat) (k d : Term) :
    symbolic.ladderStart secret r ≠ .hmac k d := by
  obtain ⟨ikm, salt, info, -, -, h⟩ := exists_derivation secret r
  rw [h]
  exact Term.noConfusion

theorem chainKeyAt_key_succ (start : Term) (n : Nat) :
    (symbolic.chainKeyAt start (n + 1)).key =
      .hmac (symbolic.chainKeyAt start n).key (.ofList [.bytes 2 1]) := by
  simp only [Provider.chainKeyAt, Function.iterate_succ_apply']
  rfl

/-- **A chain key determines its chain and its position.** -/
theorem chainKeyAt_inj {s s' : Term} (hs : ∀ k d, s ≠ .hmac k d) (hs' : ∀ k d, s' ≠ .hmac k d) :
    ∀ {n n' : Nat}, (symbolic.chainKeyAt s n).key = (symbolic.chainKeyAt s' n').key →
      s = s' ∧ n = n'
  | 0, 0, he => ⟨he, rfl⟩
  | 0, n' + 1, he => absurd (he.trans (chainKeyAt_key_succ s' n')) (hs _ _)
  | n + 1, 0, he => absurd (he.symm.trans (chainKeyAt_key_succ s n)) (hs' _ _)
  | n + 1, n' + 1, he => by
    rw [chainKeyAt_key_succ, chainKeyAt_key_succ] at he
    injection he with he _
    obtain ⟨hss, hnn⟩ := chainKeyAt_inj hs hs' he
    exact ⟨hss, congrArg _ hnn⟩

/-- The seed of a message's keys. -/
def messageSeed (start : Term) (n : Nat) : Term :=
  .hmac (symbolic.chainKeyAt start n).key (.ofList [.bytes 1 1])

theorem cipherKey_eq (start : Term) (n : Nat) : (symbolic.messageKeysAt start n).cipherKey =
    .derived 1 (.ofList [messageSeed start n]) (.bytes 0 32) .whisperMessageKeys 80 0 32 := rfl

theorem macKey_eq (start : Term) (n : Nat) : (symbolic.messageKeysAt start n).macKey =
    .derived 1 (.ofList [messageSeed start n]) (.bytes 0 32) .whisperMessageKeys 80 32 32 := rfl

theorem iv_eq (start : Term) (n : Nat) : (symbolic.messageKeysAt start n).iv =
    .derived 1 (.ofList [messageSeed start n]) (.bytes 0 32) .whisperMessageKeys 80 64 16 := rfl

theorem messageSeed_inj {s s' : Term} (hs : ∀ k d, s ≠ .hmac k d) (hs' : ∀ k d, s' ≠ .hmac k d)
    {n n' : Nat} (he : messageSeed s n = messageSeed s' n') : s = s' ∧ n = n' := by
  injection he with he _
  exact chainKeyAt_inj hs hs' he

/-! ## 2. What an attacker has -/

/-- Which application texts and private keys an attacker does **not** have, and which keys of a
ladder it has: root keys of rungs, chain keys and message keys at positions of a rung's
chain. -/
structure Leak where
  texts : Set Nat
  keys : Set Nat
  roots : Set (List Nat)
  chains : Set (List Nat × Nat)
  messages : Set (List Nat × Nat)

namespace Leak

/-- The buffers that leaked. -/
inductive Gives (secret : List Term) (L : Leak) : Term → Prop where
  | free {t} (h : t ∈ outsider L.texts L.keys) : Gives secret L t
  | root {rung} (h : rung ∈ L.roots) : Gives secret L (symbolic.ladderRoot secret rung)
  | chain {rung n} (h : (rung, n) ∈ L.chains) :
      Gives secret L (symbolic.chainKeyAt (symbolic.ladderStart secret rung) n).key
  | cipherKey {rung n} (h : (rung, n) ∈ L.messages) :
      Gives secret L (symbolic.messageKeysAt (symbolic.ladderStart secret rung) n).cipherKey
  | macKey {rung n} (h : (rung, n) ∈ L.messages) :
      Gives secret L (symbolic.messageKeysAt (symbolic.ladderStart secret rung) n).macKey
  | iv {rung n} (h : (rung, n) ∈ L.messages) :
      Gives secret L (symbolic.messageKeysAt (symbolic.ladderStart secret rung) n).iv

/-- The leak is about this ladder. -/
structure Within (L : Leak) (ks : List Nat) : Prop where
  roots : ∀ r ∈ L.roots, r <:+ ks ∧ r ≠ []
  chains : ∀ p ∈ L.chains, p.1 <:+ ks ∧ p.1 ≠ []
  messages : ∀ p ∈ L.messages, p.1 <:+ ks ∧ p.1 ≠ []

/-- Two of the keys that the attacker lacks agree in the initial secret. -/
def SecretSafe (secret : List Term) (L : Leak) : Prop :=
  ∃ i ∈ L.keys, ∃ j ∈ L.keys, symbolicAgreement i j ∈ secret

/-- **A rung is guarded** when one of the inputs of its derivation is out of reach: the root
key of the rung below, or the agreement of the two ratchet keys. -/
def Guarded (secret : List Term) (L : Leak) : List Nat → Prop
  | [] => False
  | k :: r =>
    match r with
    | [] => L.SecretSafe secret
    | k' :: _ => r ∉ L.roots ∧ Guarded secret L r ∨ k ∈ L.keys ∧ k' ∈ L.keys

/-- **A position of a chain is safe** when its rung is guarded, no chain key up to the position
leaked, and neither did the keys of the message. -/
structure Safe (secret : List Term) (L : Leak) (r : List Nat) (n : Nat) : Prop where
  guarded : L.Guarded secret r
  chains : ∀ i ≤ n, (r, i) ∉ L.chains
  messages : (r, n) ∉ L.messages

end Leak

/-- Everything sent, with the ciphertexts unpacked, together with a leak. -/
inductive Viewed (secret : List Term) (L : Leak)
    (sent : Party → List (SignalMessage Nat Term × Term)) : Term → Prop where
  | leak {t} (h : L.Gives secret t) : Viewed secret L sent t
  | body {x e} (h : e ∈ sent x) : Viewed secret L sent e.1.serialized.body
  | mac {x e} (h : e ∈ sent x) : Viewed secret L sent e.1.serialized.mac
  | ciphertext {x e} (h : e ∈ sent x) : Viewed secret L sent e.1.ciphertext

/-- The same as a set. -/
def view (secret : List Term) (L : Leak) (sent : Party → List (SignalMessage Nat Term × Term)) :
    Set Term := {t | Viewed secret L sent t}

/-- Every message that was sent was made on a rung of the ladder. -/
def SentOn (secret : List Term) (id : Party → Nat) (ks : List Nat)
    (sent : Party → List (SignalMessage Nat Term × Term)) : Prop :=
  ∀ x, ∀ e ∈ sent x, ∃ r, r <:+ ks ∧ owner r = x ∧
    Made symbolic secret (id x) (id x.other) r e.1 e.2

/-- Every plaintext is open to an outsider or was sent at a safe position. -/
def PlaintextsKept (secret : List Term) (L : Leak) (id : Party → Nat) (ks : List Nat)
    (sent : Party → List (SignalMessage Nat Term × Term)) : Prop :=
  ∀ x, ∀ e ∈ sent x, attacker.Builds (outsider L.texts L.keys) e.2 ∨
    ∃ r, r <:+ ks ∧ Made symbolic secret (id x) (id x.other) r e.1 e.2 ∧
      L.Safe secret r e.1.counter.toNat

section Shapes

variable {sender receiver : Nat} {m : SignalMessage Nat Term} {p : Term}

theorem Made.body_eq (h : Made symbolic secret sender receiver r m p) :
    m.serialized.body = .packed (.cons (.point m.senderRatchetKey) .nil) (some m.counter)
      (some m.previousCounter) (.cons m.ciphertext .nil) := by
  rw [h.created]
  rfl

theorem Made.mac_eq (h : Made symbolic secret sender receiver r m p) :
    m.serialized.mac = .truncated 8 (.hmac
      (symbolic.messageKeysAt (symbolic.ladderStart secret r) m.counter.toNat).macKey
      (.ofList [.point sender, .point receiver, .bytes m.serialized.version 1,
        m.serialized.body])) := by
  rw [h.created]
  rfl

theorem Made.ciphertext_eq (h : Made symbolic secret sender receiver r m p) :
    m.ciphertext = .encrypted .cbcPkcs5
      (symbolic.messageKeysAt (symbolic.ladderStart secret r) m.counter.toNat).cipherKey
      (symbolic.messageKeysAt (symbolic.ladderStart secret r) m.counter.toNat).iv p :=
  (Except.ok.inj h.encrypted).symm

end Shapes

/-! ## 3. Reading a leak -/

section Reading

variable {L : Leak} {sent : Party → List (SignalMessage Nat Term × Term)} {id : Party → Nat}

/-- A leaked buffer is a text, a private key, or came out of a key derivation. -/
theorem Leak.Gives.shape {t : Term} (h : L.Gives secret t) : t ∈ outsider L.texts L.keys ∨
    (∃ kdf ikm salt info n off l, t = .derived kdf ikm salt info n off l) ∨
      ∃ k d, t = .hmac k d := by
  cases h with
  | free h => exact Or.inl h
  | @root r h =>
    obtain ⟨_, _, _, -, he, -⟩ := exists_derivation secret r
    exact Or.inr (Or.inl ⟨_, _, _, _, _, _, _, he⟩)
  | @chain r n h =>
    cases n with
    | zero =>
      obtain ⟨_, _, _, -, -, he⟩ := exists_derivation secret r
      exact Or.inr (Or.inl ⟨_, _, _, _, _, _, _, he⟩)
    | succ n => exact Or.inr (Or.inr ⟨_, _, chainKeyAt_key_succ _ n⟩)
  | cipherKey h => exact Or.inr (Or.inl ⟨_, _, _, _, _, _, _, cipherKey_eq _ _⟩)
  | macKey h => exact Or.inr (Or.inl ⟨_, _, _, _, _, _, _, macKey_eq _ _⟩)
  | iv h => exact Or.inr (Or.inl ⟨_, _, _, _, _, _, _, iv_eq _ _⟩)

/-- What is seen did not leak only if it is part of a message. -/
theorem Viewed.shape {t : Term} (hs : SentOn secret id ks sent) (h : Viewed secret L sent t) :
    L.Gives secret t ∨ (∃ k c p d, t = .packed k c p d) ∨ (∃ n b, t = .truncated n b) ∨
      ∃ c k v p, t = .encrypted c k v p := by
  cases h with
  | leak h => exact Or.inl h
  | body h =>
    obtain ⟨r, -, -, hm⟩ := hs _ _ h
    exact Or.inr (Or.inl ⟨_, _, _, _, hm.body_eq⟩)
  | mac h =>
    obtain ⟨r, -, -, hm⟩ := hs _ _ h
    exact Or.inr (Or.inr (Or.inl ⟨_, _, hm.mac_eq⟩))
  | ciphertext h =>
    obtain ⟨r, -, -, hm⟩ := hs _ _ h
    exact Or.inr (Or.inr (Or.inr ⟨_, _, _, _, hm.ciphertext_eq⟩))

variable (hs : SentOn secret id ks sent)
include hs

/-- No list is seen as one. -/
theorem cons_notMem_view (a b : Term) : .cons a b ∉ view secret L sent := by
  intro h
  rcases Viewed.shape hs h with h | ⟨_, _, _, _, h⟩ | ⟨_, _, h⟩ | ⟨_, _, _, _, h⟩
  · rcases h.shape with (⟨_, -, h⟩ | ⟨_, -, h⟩) | ⟨_, _, _, _, _, _, _, h⟩ | ⟨_, _, h⟩ <;> cases h
  all_goals cases h

/-- No agreement is seen. -/
theorem agreement_notMem_view (a b : Nat) : symbolicAgreement a b ∉ view secret L sent := by
  intro h
  rcases Viewed.shape hs h with h | ⟨_, _, _, _, h⟩ | ⟨_, _, h⟩ | ⟨_, _, _, _, h⟩
  · rcases h.shape with (⟨_, -, h⟩ | ⟨_, -, h⟩) | ⟨_, _, _, _, _, _, _, h⟩ | ⟨_, _, h⟩ <;> cases h
  all_goals cases h

theorem scalar_mem_view {k : Nat} (h : .scalar k ∈ view secret L sent) : k ∉ L.keys := by
  rcases Viewed.shape hs h with h | ⟨_, _, _, _, h⟩ | ⟨_, _, h⟩ | ⟨_, _, _, _, h⟩
  · rcases h.shape with h | ⟨_, _, _, _, _, _, _, h⟩ | ⟨_, _, h⟩
    · exact scalar_mem_outsider.1 h
    all_goals cases h
  all_goals cases h

theorem text_mem_view {n : Nat} (h : .text n ∈ view secret L sent) : n ∉ L.texts := by
  rcases Viewed.shape hs h with h | ⟨_, _, _, _, h⟩ | ⟨_, _, h⟩ | ⟨_, _, _, _, h⟩
  · rcases h.shape with h | ⟨_, _, _, _, _, _, _, h⟩ | ⟨_, _, h⟩
    · exact text_mem_outsider.1 h
    all_goals cases h
  all_goals cases h

/-- Two keys that the attacker lacks agree on something it cannot compute. -/
theorem not_builds_agreement {i j : Nat} (hi : i ∈ L.keys) (hj : j ∈ L.keys) :
    ¬ attacker.Builds (view secret L sent) (symbolicAgreement i j) := by
  rw [builds_agreement_iff]
  rintro (h | h | h)
  · exact agreement_notMem_view hs i j h
  · exact scalar_mem_view hs h hi
  · exact scalar_mem_view hs h hj

omit hs in
/-- What a leak gives of the outputs of root derivations and of message key derivations. -/
theorem Leak.Gives.derived {kdf n off l : Nat} {ikm salt : Term} {info : HkdfInfo}
    (h : L.Gives secret (.derived kdf ikm salt info n off l)) :
    (∃ r ∈ L.roots, off = 0 ∧
        symbolic.ladderRoot secret r = .derived kdf ikm salt info n off l) ∨
      (∃ r, (r, 0) ∈ L.chains ∧ off = 32 ∧
        symbolic.ladderStart secret r = .derived kdf ikm salt info n off l) ∨
      ∃ r i, (r, i) ∈ L.messages ∧ info = .whisperMessageKeys ∧
        ikm = .ofList [messageSeed (symbolic.ladderStart secret r) i] := by
  generalize ht : Term.derived kdf ikm salt info n off l = t at h
  cases h with
  | free h => rcases h with ⟨_, -, rfl⟩ | ⟨_, -, rfl⟩ <;> cases ht
  | @root r h =>
    obtain ⟨_, _, _, -, he, -⟩ := exists_derivation secret r
    rw [he] at ht
    injection ht with _ _ _ _ _ hoff
    exact Or.inl ⟨r, h, hoff, rfl⟩
  | @chain r i h =>
    cases i with
    | zero =>
      obtain ⟨_, _, _, -, -, he⟩ := exists_derivation secret r
      have hzero : (symbolic.chainKeyAt (symbolic.ladderStart secret r) 0).key =
          symbolic.ladderStart secret r := rfl
      rw [hzero] at ht ⊢
      refine Or.inr (Or.inl ⟨r, h, ?_, rfl⟩)
      rw [he] at ht
      injection ht
    | succ i =>
      rw [chainKeyAt_key_succ] at ht
      cases ht
  | @cipherKey r i h =>
    cases ht
    exact Or.inr (Or.inr ⟨r, i, h, rfl, rfl⟩)
  | @macKey r i h =>
    cases ht
    exact Or.inr (Or.inr ⟨r, i, h, rfl, rfl⟩)
  | @iv r i h =>
    cases ht
    exact Or.inr (Or.inr ⟨r, i, h, rfl, rfl⟩)

omit hs in
/-- Of the HMACs under chain keys, a leak gives chain keys only. -/
theorem Leak.Gives.hmac {k d : Term} (h : L.Gives secret (.hmac k d)) :
    ∃ r i, (r, i + 1) ∈ L.chains ∧
      (symbolic.chainKeyAt (symbolic.ladderStart secret r) (i + 1)).key = .hmac k d := by
  generalize ht : Term.hmac k d = t at h
  cases h with
  | free h => rcases h with ⟨_, -, rfl⟩ | ⟨_, -, rfl⟩ <;> cases ht
  | @root r h =>
    obtain ⟨_, _, _, -, he, -⟩ := exists_derivation secret r
    rw [he] at ht
    cases ht
  | @chain r i h =>
    cases i with
    | zero => exact absurd ht.symm (ladderStart_ne_hmac secret r _ _)
    | succ i => exact ⟨r, i, h, rfl⟩
  | cipherKey h => cases ht
  | macKey h => cases ht
  | iv h => cases ht

/-- What came out of a derivation and is seen has leaked. -/
theorem gives_of_derived_mem_view {kdf n off l : Nat} {ikm salt : Term} {info : HkdfInfo}
    (h : .derived kdf ikm salt info n off l ∈ view secret L sent) :
    L.Gives secret (.derived kdf ikm salt info n off l) := by
  rcases Viewed.shape hs h with h | ⟨_, _, _, _, h⟩ | ⟨_, _, h⟩ | ⟨_, _, _, _, h⟩
  · exact h
  all_goals cases h

theorem gives_of_hmac_mem_view {k d : Term} (h : .hmac k d ∈ view secret L sent) :
    L.Gives secret (.hmac k d) := by
  rcases Viewed.shape hs h with h | ⟨_, _, _, _, h⟩ | ⟨_, _, h⟩ | ⟨_, _, _, _, h⟩
  · exact h
  all_goals cases h

/-! ## 4. What cannot be computed -/

variable (hw : L.Within ks)
include hw

theorem ladderRoot_notMem_view (hr : r <:+ ks) (hne : r ≠ []) (h : r ∉ L.roots) :
    symbolic.ladderRoot secret r ∉ view secret L sent := by
  intro hv
  obtain ⟨ikm, salt, info, hinfo, he, -⟩ := exists_derivation secret r
  rw [he] at hv
  rcases (gives_of_derived_mem_view hs hv).derived with
    ⟨r', h', -, heq⟩ | ⟨-, -, hoff, -⟩ | ⟨-, -, -, hi, -⟩
  · rw [← he] at heq
    obtain ⟨hsuf, hne'⟩ := hw.roots r' h'
    exact h (ladderRoot_inj symbolic_ideal hsuf hr hne' hne heq ▸ h')
  · cases hoff
  · rcases hinfo with rfl | rfl <;> cases hi

theorem chainKey_notMem_view {n : Nat} (hr : r <:+ ks) (hne : r ≠ []) (h : (r, n) ∉ L.chains) :
    (symbolic.chainKeyAt (symbolic.ladderStart secret r) n).key ∉ view secret L sent := by
  intro hv
  have hclash : ∀ {r' n'}, (r', n') ∈ L.chains →
      (symbolic.chainKeyAt (symbolic.ladderStart secret r') n').key ≠
        (symbolic.chainKeyAt (symbolic.ladderStart secret r) n).key := by
    intro r' n' h' heq
    obtain ⟨hsuf, hne'⟩ := hw.chains _ h'
    obtain ⟨hstart, rfl⟩ := chainKeyAt_inj (ladderStart_ne_hmac secret r')
      (ladderStart_ne_hmac secret r) heq
    exact h (ladderStart_inj symbolic_ideal hsuf hr hne' hne hstart ▸ h')
  cases n with
  | zero =>
    obtain ⟨ikm, salt, info, hinfo, -, he⟩ := exists_derivation secret r
    have hzero : (symbolic.chainKeyAt (symbolic.ladderStart secret r) 0).key =
        .derived 1 ikm salt info 64 32 32 := he
    rw [hzero] at hv
    rcases (gives_of_derived_mem_view hs hv).derived with
      ⟨-, -, hoff, -⟩ | ⟨r', h', -, heq⟩ | ⟨-, -, -, hi, -⟩
    · cases hoff
    · exact hclash h' (heq.trans he.symm)
    · rcases hinfo with rfl | rfl <;> cases hi
  | succ n =>
    rw [chainKeyAt_key_succ] at hv
    obtain ⟨r', i, h', heq⟩ := (gives_of_hmac_mem_view hs hv).hmac
    exact hclash h' (heq.trans (chainKeyAt_key_succ _ n).symm)

omit hw in
/-- The seed of a message key is never stored. -/
theorem messageSeed_notMem_view (start : Term) (n : Nat) :
    messageSeed start n ∉ view secret L sent := by
  intro hv
  obtain ⟨r', i, -, heq⟩ := (gives_of_hmac_mem_view hs hv).hmac
  rw [chainKeyAt_key_succ] at heq
  injection heq with _ hd
  cases hd

theorem messageKey_notMem_view {n : Nat} (hr : r <:+ ks) (hne : r ≠ []) (h : (r, n) ∉ L.messages)
    (off l : Nat) : .derived 1 (.ofList [messageSeed (symbolic.ladderStart secret r) n])
      (.bytes 0 32) .whisperMessageKeys 80 off l ∉ view secret L sent := by
  intro hv
  rcases (gives_of_derived_mem_view hs hv).derived with
    ⟨r', -, -, heq⟩ | ⟨r', -, -, heq⟩ | ⟨r', n', h', -, hseed⟩
  · obtain ⟨_, _, _, hinfo, he, -⟩ := exists_derivation secret r'
    rw [he] at heq
    rcases hinfo with rfl | rfl <;> cases heq
  · obtain ⟨_, _, _, hinfo, -, he⟩ := exists_derivation secret r'
    rw [he] at heq
    rcases hinfo with rfl | rfl <;> cases heq
  · obtain ⟨hsuf, hne'⟩ := hw.messages _ h'
    injection hseed with hseed _
    obtain ⟨hstart, rfl⟩ := messageSeed_inj (ladderStart_ne_hmac secret r)
      (ladderStart_ne_hmac secret r') hseed
    exact h ((ladderStart_inj symbolic_ideal hr hsuf hne hne' hstart).symm ▸ h')

/-- **The inputs of a guarded rung's derivation are not both computable.**  By recursion down
the ladder: the root key below is itself the output of a guarded derivation. -/
theorem Leak.Guarded.inputs : ∀ {r : List Nat}, L.Guarded secret r → r <:+ ks →
    ∃ ikm salt info, symbolic.ladderRoot secret r = .derived 1 ikm salt info 64 0 32 ∧
      symbolic.ladderStart secret r = .derived 1 ikm salt info 64 32 32 ∧
      ¬ (attacker.Builds (view secret L sent) ikm ∧ attacker.Builds (view secret L sent) salt)
  | [_], hg, _ => by
    refine ⟨_, _, _, rfl, rfl, fun h => ?_⟩
    obtain ⟨i, hi, j, hj, hij⟩ := hg
    exact not_builds_agreement hs hi hj (builds_of_ofList (cons_notMem_view hs) hij h.1)
  | k :: k' :: r, hg, hr => by
    refine ⟨_, _, _, rfl, rfl, fun h => ?_⟩
    rcases hg with ⟨hroot, hg⟩ | ⟨hk, hk'⟩
    · have hsuf : k' :: r <:+ ks := (List.suffix_cons k _).trans hr
      obtain ⟨ikm, salt, info, he, -, hin⟩ := hg.inputs hsuf
      have hsalt := h.2
      rw [he] at hsalt
      rcases builds_derived_iff.1 hsalt with hv | hb
      · exact ladderRoot_notMem_view hs hw hsuf (List.cons_ne_nil _ _) hroot (he ▸ hv)
      · exact hin hb
    · exact not_builds_agreement hs hk' hk
        (builds_of_ofList (cons_notMem_view hs) List.mem_cons_self h.1)

omit hs hw in
theorem Leak.Guarded.ne_nil (hg : L.Guarded secret r) : r ≠ [] := by
  rintro rfl
  exact hg

/-- **A chain key out of reach stays so up to the first one that leaked.** -/
theorem Leak.Guarded.not_builds_chainKey (hg : L.Guarded secret r) (hr : r <:+ ks) :
    ∀ {n : Nat}, (∀ i ≤ n, (r, i) ∉ L.chains) → ¬ attacker.Builds (view secret L sent)
      (symbolic.chainKeyAt (symbolic.ladderStart secret r) n).key
  | 0, hn => by
    obtain ⟨ikm, salt, info, -, he, hin⟩ := hg.inputs hs hw hr
    have hv := chainKey_notMem_view hs hw hr hg.ne_nil (hn 0 (Nat.le_refl 0))
    have hzero : (symbolic.chainKeyAt (symbolic.ladderStart secret r) 0).key =
        .derived 1 ikm salt info 64 32 32 := he
    rw [hzero] at hv ⊢
    rw [builds_derived_iff]
    exact not_or.2 ⟨hv, hin⟩
  | n + 1, hn => by
    have ih := hg.not_builds_chainKey hr fun i hi => hn i (Nat.le_succ_of_le hi)
    have hv := chainKey_notMem_view hs hw hr hg.ne_nil (hn (n + 1) (Nat.le_refl _))
    rw [chainKeyAt_key_succ] at hv ⊢
    rw [builds_hmac_iff]
    exact not_or.2 ⟨hv, fun h => ih h.1⟩

/-- No part of a safe message's key material can be computed. -/
theorem Leak.Safe.not_builds {n : Nat} (h : L.Safe secret r n) (hr : r <:+ ks) (off l : Nat) :
    ¬ attacker.Builds (view secret L sent) (.derived 1
      (.ofList [messageSeed (symbolic.ladderStart secret r) n]) (.bytes 0 32)
      .whisperMessageKeys 80 off l) := by
  rw [builds_derived_iff]
  rintro (hv | ⟨hseed, -⟩)
  · exact messageKey_notMem_view hs hw hr h.guarded.ne_nil h.messages off l hv
  · have hseed := builds_of_ofList (cons_notMem_view hs) List.mem_cons_self hseed
    rcases builds_hmac_iff.1 hseed with hv | ⟨hkey, -⟩
    · exact messageSeed_notMem_view hs _ _ hv
    · exact h.guarded.not_builds_chainKey hs hw hr h.chains hkey

/-! ## 5. Deriving from a leak and the traffic -/

variable (hkept : PlaintextsKept secret L id ks sent)
include hkept

/-- **Unpacking and decrypting the traffic shows nothing new.**  Only a ciphertext holds
anything, and its key is out of reach unless its plaintext is open. -/
theorem view_analysed : attacker.Analysed (view secret L sent) := by
  intro c hc keys t ht hkeys
  rcases hc with h | @⟨x, e, h⟩ | @⟨x, e, h⟩ | @⟨x, e, h⟩
  · rcases h.shape with h | ⟨_, _, _, _, _, _, _, rfl⟩ | ⟨_, _, rfl⟩
    · exact absurd ht (outsider_atomic h _ _)
    all_goals cases ht
  · obtain ⟨r, -, -, hm⟩ := hs x e h
    rw [hm.body_eq] at ht
    cases ht with
    | ratchetKey => exact builds_cons_iff.2 (Or.inr ⟨builds_point _, builds_nil⟩)
    | ciphertext => exact builds_cons_iff.2 (Or.inr ⟨.known (.ciphertext h), builds_nil⟩)
  · obtain ⟨r, -, -, hm⟩ := hs x e h
    rw [hm.mac_eq] at ht
    cases ht
  · rcases hkept x e h with hopen | ⟨r, hr, hm, hsafe⟩
    · obtain ⟨r, -, -, hm⟩ := hs x e h
      rw [hm.ciphertext_eq] at ht
      cases ht
      exact hopen.mono fun s hs => .leak (.free hs)
    · rw [hm.ciphertext_eq] at ht
      cases ht
      exact absurd (hkeys _ List.mem_cons_self) (hsafe.not_builds hs hw hr 0 32)

/-- Everything derived from a leak and the traffic can be built from the view. -/
theorem builds_of_derives {t : Term}
    (h : attacker.Derives ({t | L.Gives secret t} ∪ traffic sent) t) :
    attacker.Builds (view secret L sent) t := by
  refine (h.trans fun s hmem => .known ?_).builds attacker_closed (view_analysed hs hw hkept)
  rcases hmem with h | ⟨x, e, he, rfl | rfl⟩
  · exact .leak h
  · exact .body he
  · exact .mac he

/-- The key of a safe message cannot be derived. -/
theorem Leak.Safe.not_derives_cipherKey {n : Nat} (h : L.Safe secret r n) (hr : r <:+ ks) :
    ¬ attacker.Derives ({t | L.Gives secret t} ∪ traffic sent)
      (symbolic.messageKeysAt (symbolic.ladderStart secret r) n).cipherKey :=
  fun hd => h.not_builds hs hw hr 0 32 (builds_of_derives hs hw hkept hd)

/-- A text that was only sent at safe positions cannot be derived. -/
theorem Leak.not_derives_text {n : Nat} (h : n ∈ L.texts) :
    ¬ attacker.Derives ({t | L.Gives secret t} ∪ traffic sent) (.text n) := fun hd =>
  text_mem_view hs (builds_text_iff.1 (builds_of_derives hs hw hkept hd)) h

/-- **What is safe stays out of reach** of anyone whose knowledge comes from the leak and the
traffic: the texts that were sent at safe positions only, and whatever decrypts a message that
was sent at one. -/
theorem Leak.out_of_reach {K : Set Term}
    (hK : ∀ t ∈ K, attacker.Derives ({t | L.Gives secret t} ∪ traffic sent) t) :
    (∀ n ∈ L.texts, ¬ attacker.Derives K (.text n)) ∧
      ∀ x, ∀ e ∈ sent x, (∃ r, r <:+ ks ∧ Made symbolic secret (id x) (id x.other) r e.1 e.2 ∧
        L.Safe secret r e.1.counter.toNat) → ∀ key iv p,
        symbolic.decrypt .cbcPkcs5 key iv e.1.ciphertext = .ok p → ¬ attacker.Derives K key := by
  refine ⟨fun n hn ht => Leak.not_derives_text hs hw hkept hn (ht.trans hK), ?_⟩
  rintro x e - ⟨r, hr, hm, hsafe⟩ key iv p hdec ht
  rw [hm.ciphertext_eq] at hdec
  obtain ⟨-, rfl, -⟩ := symbolic_decrypt_ok hdec
  exact hsafe.not_derives_cipherKey hs hw hkept hr (ht.trans hK)

end Reading

end SignalProtocol
