/-
# Group messages and an attacker

Two things protect a group message.  Its key is on the sender's chain, which runs one way: a
stolen record gives the keys from the receiver's iteration on and those it has skipped, and
nothing of what it has accepted (`group_forward_secrecy`).  And it is signed: a member of the
group knows every key of the chain and can still not speak for the sender
(`group_no_impersonation`).

Both are about the same knowledge (`GroupViewed`): some keys of the chain, and all messages.
The chain of a sender key is that of `chainKeyAt`, from its seed.
-/
import SignalProtocol.Secrecy
import SignalProtocol.Redistribution

namespace SignalProtocol

open Deduction

/-! ## 1. The keys of a sender chain -/

/-- **A sender chain is a chain of `nextKey`.** -/
theorem SenderKey.chainKey_eq (k : SenderKey Nat Term) :
    ∀ n, (k.chainKey symbolic n).chainKey = (symbolic.chainKeyAt k.seed n).key
  | 0 => rfl
  | n + 1 => by
    rw [SenderKey.chainKey, SenderChainKey.after_succ', chainKeyAt_key_succ, ← k.chainKey_eq n]
    rfl

/-- The cipher key of an iteration. -/
def SenderKey.cipherKey (k : SenderKey Nat Term) (n : Nat) : Term :=
  .derived 1 (.ofList [messageSeed k.seed n]) (.bytes 0 32) .whisperGroup 48 16 32

/-- The initialisation vector of an iteration. -/
def SenderKey.iv (k : SenderKey Nat Term) (n : Nat) : Term :=
  .derived 1 (.ofList [messageSeed k.seed n]) (.bytes 0 32) .whisperGroup 48 0 16

theorem SenderKey.seed_createMessageKey (k : SenderKey Nat Term) (n : Nat) :
    ((k.chainKey symbolic n).createMessageKey symbolic).seed = messageSeed k.seed n :=
  congrArg (fun key => Term.hmac key (.ofList [.bytes 1 1])) (k.chainKey_eq n)

theorem SenderKey.cipherKey_createMessageKey (k : SenderKey Nat Term) (n : Nat) :
    ((k.chainKey symbolic n).createMessageKey symbolic).cipherKey = k.cipherKey n :=
  congrArg (fun seed => Term.derived 1 (.ofList [seed]) (.bytes 0 32) .whisperGroup 48 16 32)
    (k.seed_createMessageKey n)

theorem SenderKey.iv_createMessageKey (k : SenderKey Nat Term) (n : Nat) :
    ((k.chainKey symbolic n).createMessageKey symbolic).iv = k.iv n :=
  congrArg (fun seed => Term.derived 1 (.ofList [seed]) (.bytes 0 32) .whisperGroup 48 0 16)
    (k.seed_createMessageKey n)

section Shapes

variable {k : SenderKey Nat Term} {n : Nat} {p : Term} {m : SenderKeyMessage Term}
  (h : GroupSent symbolicGroup k.keyId (k.chainKey symbolic n) k.signingKey p m)
include h

theorem GroupSent.ciphertext_eq :
    m.ciphertext = .encrypted .cbcPkcs5 (k.cipherKey n) (k.iv n) p := by
  have he := Except.ok.inj h.encrypted
  rw [← he, ← k.cipherKey_createMessageKey, ← k.iv_createMessageKey]
  rfl

theorem GroupSent.body_eq : m.serialized.body =
    .packed .nil (some m.keyId) (some m.iteration) (.cons m.ciphertext .nil) := by
  obtain ⟨random, hs⟩ := h.signed
  rw [hs]
  rfl

theorem GroupSent.signature_eq : ∃ random, m.serialized.signature = .signed k.signingKey
    (.cons (.bytes m.serialized.version 1) m.serialized.body) random := by
  obtain ⟨random, hs⟩ := h.signed
  refine ⟨random, ?_⟩
  rw [hs]
  rfl

theorem GroupSent.deserialize : m.serialized.deserialize symbolicGroup = .ok m := by
  obtain ⟨random, hs⟩ := h.signed
  rw [hs]
  exact SenderKeyMessage.deserialize_signedWith ..

end Shapes

/-- What verifies was signed with the private key. -/
theorem SenderKeyMessage.signed_of_verified {m : SenderKeyMessage Term} {key : Nat}
    (h : m.verifySignature symbolicGroup key = .ok ()) : ∃ random, m.serialized.signature =
      .signed key (.cons (.bytes m.serialized.version 1) m.serialized.body) random := by
  have hver : symbolic.verifySignature key
      (.cons (.bytes m.serialized.version 1) m.serialized.body) m.serialized.signature = true := by
    rw [SenderKeyMessage.verifySignature] at h
    split at h
    · rename_i htrue
      exact Except.ok.inj htrue
    · cases h
  rw [symbolic] at hver
  dsimp only at hver
  split at hver
  · rename_i k' m' random hsig
    simp only [Bool.and_eq_true, decide_eq_true_eq] at hver
    obtain ⟨rfl, rfl⟩ := hver
    exact ⟨random, hsig⟩
  · cases hver

/-! ## 2. What an attacker has -/

/-- What a network sees of a sender key message. -/
def SenderKeyMessage.wire (m : SenderKeyMessage Term) : Set Term :=
  {m.serialized.body, m.serialized.signature}

/-- Everything the sender sent to the group. -/
def groupTraffic (sent : List (SenderKeyMessage Term × Term)) : Set Term :=
  {t | ∃ e ∈ sent, t ∈ e.1.wire}

/-- Some chain keys and some message seeds of a sender key, and all messages with their
ciphertexts unpacked. -/
inductive GroupViewed (texts keys : Set Nat) (k : SenderKey Nat Term) (chains seeds : Set Nat)
    (sent : List (SenderKeyMessage Term × Term)) : Term → Prop where
  | free {t} (h : t ∈ outsider texts keys) : GroupViewed texts keys k chains seeds sent t
  | chain {n} (h : n ∈ chains) :
      GroupViewed texts keys k chains seeds sent (symbolic.chainKeyAt k.seed n).key
  | seed {n} (h : n ∈ seeds) :
      GroupViewed texts keys k chains seeds sent (messageSeed k.seed n)
  | body {e} (h : e ∈ sent) : GroupViewed texts keys k chains seeds sent e.1.serialized.body
  | signature {e} (h : e ∈ sent) :
      GroupViewed texts keys k chains seeds sent e.1.serialized.signature
  | ciphertext {e} (h : e ∈ sent) : GroupViewed texts keys k chains seeds sent e.1.ciphertext

/-- The same as a set. -/
def groupView (texts keys : Set Nat) (k : SenderKey Nat Term) (chains seeds : Set Nat)
    (sent : List (SenderKeyMessage Term × Term)) : Set Term :=
  {t | GroupViewed texts keys k chains seeds sent t}

/-- Message `j` of the list was made at iteration `j` of the chain. -/
def GroupSentOn (k : SenderKey Nat Term) (sent : List (SenderKeyMessage Term × Term)) : Prop :=
  ∀ (j : Nat) e, sent[j]? = some e →
    GroupSent symbolicGroup k.keyId (k.chainKey symbolic j) k.signingKey e.2 e.1

/-- The traffic is part of every view. -/
theorem mem_groupView_of_traffic {texts keys : Set Nat} {k : SenderKey Nat Term}
    {chains seeds : Set Nat} {sent : List (SenderKeyMessage Term × Term)} {t : Term}
    (h : t ∈ outsider texts keys ∪ groupTraffic sent) :
    t ∈ groupView texts keys k chains seeds sent := by
  rcases h with h | ⟨e, he, rfl | rfl⟩
  · exact .free h
  · exact .body he
  · exact .signature he

section Reading

variable {texts keys : Set Nat} {k : SenderKey Nat Term} {chains seeds : Set Nat}
  {sent : List (SenderKeyMessage Term × Term)} {i : Nat}
  (hs : GroupSentOn k sent) (hseed : k.seed = .text i)
include hs

theorem GroupSentOn.of_mem {e : SenderKeyMessage Term × Term} (he : e ∈ sent) : ∃ j,
    GroupSent symbolicGroup k.keyId (k.chainKey symbolic j) k.signingKey e.2 e.1 := by
  obtain ⟨j, hj⟩ := List.getElem?_of_mem he
  exact ⟨j, hs j e hj⟩

include hseed

/-- What is seen is a text, a private key, an HMAC, or part of a message. -/
theorem GroupViewed.shape {t : Term} (h : GroupViewed texts keys k chains seeds sent t) :
    t ∈ outsider texts keys ∨ (t = .text i ∧ 0 ∈ chains) ∨ (∃ a b, t = .hmac a b) ∨
      (∃ a c d b, t = .packed a c d b) ∨ (∃ a b c, t = .signed a b c) ∨
      ∃ c a v p, t = .encrypted c a v p := by
  cases h with
  | free h => exact Or.inl h
  | @chain n h =>
    cases n with
    | zero => exact Or.inr (Or.inl ⟨hseed, h⟩)
    | succ n => exact Or.inr (Or.inr (Or.inl ⟨_, _, chainKeyAt_key_succ _ n⟩))
  | seed h => exact Or.inr (Or.inr (Or.inl ⟨_, _, rfl⟩))
  | body h =>
    obtain ⟨j, hm⟩ := hs.of_mem h
    exact Or.inr (Or.inr (Or.inr (Or.inl ⟨_, _, _, _, hm.body_eq⟩)))
  | signature h =>
    obtain ⟨j, hm⟩ := hs.of_mem h
    obtain ⟨random, he⟩ := hm.signature_eq
    exact Or.inr (Or.inr (Or.inr (Or.inr (Or.inl ⟨_, _, _, he⟩))))
  | ciphertext h =>
    obtain ⟨j, hm⟩ := hs.of_mem h
    exact Or.inr (Or.inr (Or.inr (Or.inr (Or.inr ⟨_, _, _, _, hm.ciphertext_eq⟩))))

theorem cons_notMem_groupView (a b : Term) :
    .cons a b ∉ groupView texts keys k chains seeds sent := by
  intro h
  rcases GroupViewed.shape hs hseed h with (⟨_, -, h⟩ | ⟨_, -, h⟩) | ⟨h, -⟩ | ⟨_, _, h⟩ |
    ⟨_, _, _, _, h⟩ | ⟨_, _, _, h⟩ | ⟨_, _, _, _, h⟩ <;> cases h

theorem derived_notMem_groupView (kdf : Nat) (ikm salt : Term) (info : HkdfInfo) (n off l : Nat) :
    .derived kdf ikm salt info n off l ∉ groupView texts keys k chains seeds sent := by
  intro h
  rcases GroupViewed.shape hs hseed h with (⟨_, -, h⟩ | ⟨_, -, h⟩) | ⟨h, -⟩ | ⟨_, _, h⟩ |
    ⟨_, _, _, _, h⟩ | ⟨_, _, _, h⟩ | ⟨_, _, _, _, h⟩ <;> cases h

theorem scalar_mem_groupView {key : Nat}
    (h : .scalar key ∈ groupView texts keys k chains seeds sent) : key ∉ keys := by
  rcases GroupViewed.shape hs hseed h with h | ⟨h, -⟩ | ⟨_, _, h⟩ | ⟨_, _, _, _, h⟩ |
    ⟨_, _, _, h⟩ | ⟨_, _, _, _, h⟩
  · exact scalar_mem_outsider.1 h
  all_goals cases h

theorem text_mem_groupView {n : Nat} (h : .text n ∈ groupView texts keys k chains seeds sent) :
    n ∉ texts ∨ n = i ∧ 0 ∈ chains := by
  rcases GroupViewed.shape hs hseed h with h | ⟨h, hz⟩ | ⟨_, _, h⟩ | ⟨_, _, _, _, h⟩ |
    ⟨_, _, _, h⟩ | ⟨_, _, _, _, h⟩
  · exact Or.inl (text_mem_outsider.1 h)
  · exact Or.inr ⟨Term.text.inj h, hz⟩
  all_goals cases h

/-- An HMAC that is seen is a chain key or a message seed. -/
theorem hmac_mem_groupView {a b : Term} (h : .hmac a b ∈ groupView texts keys k chains seeds sent) :
    (∃ n, n + 1 ∈ chains ∧ (symbolic.chainKeyAt k.seed (n + 1)).key = .hmac a b) ∨
      ∃ n ∈ seeds, messageSeed k.seed n = .hmac a b := by
  generalize ht : Term.hmac a b = t at h
  cases h with
  | free h => rcases h with ⟨_, -, rfl⟩ | ⟨_, -, rfl⟩ <;> cases ht
  | @chain n h =>
    cases n with
    | zero => cases ht.trans hseed
    | succ n => exact Or.inl ⟨n, h, rfl⟩
  | @seed n h => exact Or.inr ⟨n, h, rfl⟩
  | body h =>
    obtain ⟨j, hm⟩ := hs.of_mem h
    cases ht.trans hm.body_eq
  | signature h =>
    obtain ⟨j, hm⟩ := hs.of_mem h
    obtain ⟨random, he⟩ := hm.signature_eq
    cases ht.trans he
  | ciphertext h =>
    obtain ⟨j, hm⟩ := hs.of_mem h
    cases ht.trans hm.ciphertext_eq

/-- A signature that is seen was sent. -/
theorem signed_mem_groupView {key : Nat} {a b : Term}
    (h : .signed key a b ∈ groupView texts keys k chains seeds sent) :
    ∃ e ∈ sent, e.1.serialized.signature = .signed key a b := by
  generalize ht : Term.signed key a b = t at h
  cases h with
  | free h => rcases h with ⟨_, -, rfl⟩ | ⟨_, -, rfl⟩ <;> cases ht
  | @chain n h =>
    cases n with
    | zero => cases ht.trans hseed
    | succ n => cases ht.trans (chainKeyAt_key_succ _ n)
  | seed h => cases ht
  | body h =>
    obtain ⟨j, hm⟩ := hs.of_mem h
    cases ht.trans hm.body_eq
  | signature h => exact ⟨_, h, rfl⟩
  | ciphertext h =>
    obtain ⟨j, hm⟩ := hs.of_mem h
    cases ht.trans hm.ciphertext_eq

/-! ## 3. What cannot be computed -/

omit hs in
theorem SenderKey.seed_ne_hmac (a b : Term) : k.seed ≠ .hmac a b := by
  rw [hseed]
  exact Term.noConfusion

/-- **The chain runs one way**: without the seed and without a chain key up to an iteration,
that one's is out of reach. -/
theorem not_builds_groupChainKey (hi : i ∈ texts) : ∀ {n : Nat}, (∀ j ≤ n, j ∉ chains) →
    ¬ attacker.Builds (groupView texts keys k chains seeds sent)
      (symbolic.chainKeyAt k.seed n).key
  | 0, hn => by
    have hzero : (symbolic.chainKeyAt k.seed 0).key = .text i := hseed
    rw [hzero, builds_text_iff]
    intro h
    rcases text_mem_groupView hs hseed h with h | ⟨-, h⟩
    · exact h hi
    · exact hn 0 (Nat.le_refl 0) h
  | n + 1, hn => by
    have ih := not_builds_groupChainKey hi fun j hj => hn j (Nat.le_succ_of_le hj)
    rw [chainKeyAt_key_succ, builds_hmac_iff]
    rintro (h | ⟨h, -⟩)
    · rcases hmac_mem_groupView hs hseed h with ⟨n', hc, he⟩ | ⟨n', -, he⟩
      · have hinj := chainKeyAt_inj (k.seed_ne_hmac hseed) (k.seed_ne_hmac hseed)
          (he.trans (chainKeyAt_key_succ _ n).symm)
        exact hn (n + 1) (Nat.le_refl _) (hinj.2 ▸ hc)
      · injection he with _ hd
        cases hd
    · exact ih h

/-- No part of a message's key material can be computed before the chain keys that are known,
unless its seed is. -/
theorem not_builds_groupKey (hi : i ∈ texts) {n : Nat} (hn : ∀ j ≤ n, j ∉ chains)
    (hns : n ∉ seeds) (off l : Nat) :
    ¬ attacker.Builds (groupView texts keys k chains seeds sent)
      (.derived 1 (.ofList [messageSeed k.seed n]) (.bytes 0 32) .whisperGroup 48 off l) := by
  rw [builds_derived_iff]
  rintro (h | ⟨h, -⟩)
  · exact derived_notMem_groupView hs hseed _ _ _ _ _ _ _ h
  · have h := builds_of_ofList (cons_notMem_groupView hs hseed) List.mem_cons_self h
    rcases builds_hmac_iff.1 h with h | ⟨h, -⟩
    · rcases hmac_mem_groupView hs hseed h with ⟨n', -, he⟩ | ⟨n', hc, he⟩
      · rw [chainKeyAt_key_succ] at he
        injection he with _ hd
        cases hd
      · have hinj := messageSeed_inj (k.seed_ne_hmac hseed) (k.seed_ne_hmac hseed) he
        exact hns (hinj.2 ▸ hc)
    · exact not_builds_groupChainKey hs hseed hi hn h

/-- **Opening the messages shows nothing new**, if every plaintext is open to an outsider or was
sent at an iteration whose key is out of reach. -/
theorem groupView_analysed (hkept : ∀ (j : Nat) e, sent[j]? = some e →
      attacker.Builds (outsider texts keys) e.2 ∨
        i ∈ texts ∧ (∀ n ≤ j, n ∉ chains) ∧ j ∉ seeds) :
    attacker.Analysed (groupView texts keys k chains seeds sent) := by
  intro c hc ks t ht hkeys
  rcases hc with h | @⟨n, h⟩ | h | @⟨e, h⟩ | @⟨e, h⟩ | @⟨e, h⟩
  · exact absurd ht (outsider_atomic h _ _)
  · cases n with
    | zero =>
      have hzero : (symbolic.chainKeyAt k.seed 0).key = .text i := hseed
      rw [hzero] at ht
      cases ht
    | succ n =>
      rw [chainKeyAt_key_succ] at ht
      cases ht
  · cases ht
  · obtain ⟨j, hm⟩ := hs.of_mem h
    rw [hm.body_eq] at ht
    cases ht with
    | ratchetKey => exact builds_nil
    | ciphertext => exact builds_cons_iff.2 (Or.inr ⟨.known (.ciphertext h), builds_nil⟩)
  · obtain ⟨j, hm⟩ := hs.of_mem h
    obtain ⟨random, he⟩ := hm.signature_eq
    rw [he] at ht
    cases ht
    exact builds_cons_iff.2 (Or.inr ⟨builds_bytes _ _, .known (.body h)⟩)
  · obtain ⟨j, hj⟩ := List.getElem?_of_mem h
    rw [(hs j e hj).ciphertext_eq] at ht
    cases ht
    rcases hkept j e hj with hopen | ⟨hi, hn, hns⟩
    · exact hopen.mono fun s hs => .free hs
    · exact absurd (hkeys _ List.mem_cons_self) (not_builds_groupKey hs hseed hi hn hns 16 32)

/-- **What was sent out of reach stays so**: for anyone whose knowledge can be derived from the
view, the texts that were sent in no other way, and whatever decrypts such a message. -/
theorem group_out_of_reach (hi : i ∈ texts) {Past : SenderKeyMessage Term → Prop}
    (hpast : ∀ (j : Nat) e, sent[j]? = some e → Past e.1 → (∀ n ≤ j, n ∉ chains) ∧ j ∉ seeds)
    (hplain : ∀ e ∈ sent, attacker.Builds (outsider texts keys) e.2 ∨ Past e.1) {K : Set Term}
    (hK : ∀ t ∈ K, attacker.Derives (groupView texts keys k chains seeds sent) t) :
    (∀ n ∈ texts, (n = i → 0 ∉ chains) → ¬ attacker.Derives K (.text n)) ∧
      ∀ e ∈ sent, Past e.1 → ∀ key iv p,
        symbolic.decrypt .cbcPkcs5 key iv e.1.ciphertext = .ok p → ¬ attacker.Derives K key := by
  have hbuilds : ∀ {t}, attacker.Derives K t →
      attacker.Builds (groupView texts keys k chains seeds sent) t := by
    intro t ht
    refine (ht.trans hK).builds attacker_closed (groupView_analysed hs hseed ?_)
    intro j e hj
    exact (hplain e (List.mem_of_getElem? hj)).imp_right fun hp => ⟨hi, hpast j e hj hp⟩
  refine ⟨fun n hn hne ht => ?_, fun e he hp key iv p hdec ht => ?_⟩
  · rcases text_mem_groupView hs hseed (builds_text_iff.1 (hbuilds ht)) with h | ⟨h, hz⟩
    · exact h hn
    · exact hne h hz
  · obtain ⟨j, hj⟩ := List.getElem?_of_mem he
    obtain ⟨hn, hns⟩ := hpast j e hj hp
    rw [(hs j e hj).ciphertext_eq] at hdec
    obtain ⟨-, rfl, -⟩ := symbolic_decrypt_ok hdec
    exact not_builds_groupKey hs hseed hi hn hns 16 32 (hbuilds ht)

end Reading

/-! ## 4. A stolen record -/

/-- The buffers in a stored sender key state. -/
def SenderKeyStateStructure.buffers {B : Type} (s : SenderKeyStateStructure B) : List B :=
  (s.senderChainKey.bind Prod.snd).toList ++ (s.senderSigningKey.bind Prod.fst).toList ++
    (s.senderSigningKey.bind Prod.snd).toList ++ s.senderMessageKeys.filterMap Prod.snd

/-- A store that holds no signing key for a name. -/
def GroupWorld.Receiving {Name Priv Pub B : Type} (P : Provider Priv Pub B) (name : Name)
    (w : GroupWorld Name B) : Prop :=
  ∀ record : SenderKeyRecord Priv Pub B, w.record P name = .ok record →
    ∀ state ∈ record.states, state.signaturePrivateKey = none

section Receiving

variable {R Name Priv Pub B : Type} [DecidableEq Name] {P : GroupProvider Priv Pub B} {name : Name}
  {w : GroupWorld Name B}

/-- Decrypting puts no signing key into the store. -/
theorem GroupWorld.Receiving.decrypt (h : w.Receiving P.toProvider name) (m : SenderKeyMessage B) :
    (groupCipherDecrypt P (GroupCipher.create name) m w).2.Receiving P.toProvider name := by
  rcases hr : (w.record P.toProvider name : Except SgError (SenderKeyRecord Priv Pub B)) with
    e | record
  · rw [groupCipherDecrypt_of_error hr]
    exact h
  rw [groupCipherDecrypt_of_record hr]
  rcases hd : record.decrypt P m with e | ⟨p, record'⟩
  · exact h
  intro record₁ hr₁ state hstate
  have hput : (w.put P.toProvider name record').record P.toProvider name = .ok record' :=
    record_put (SenderKeyRecord.storable_of_decrypt (storable_of_record hr) hd)
  obtain rfl := Except.ok.inj (hr₁.symm.trans hput)
  obtain ⟨state₀, state', hs, hdec, hset⟩ := SenderKeyRecord.decrypt_ok_iff.1 hd
  obtain ⟨key, hkey⟩ := SenderKeyState.getSenderKey_of_decrypt hdec
  have hstate₀ := h record hr state₀ (SenderKeyRecord.mem_of_stateFor hs)
  have hset : record₁ = record.setStateById m.keyId state' := hset
  rw [hset] at hstate
  rcases mem_modifyFirst hstate with hmem | ⟨_, -, rfl⟩
  · exact h record hr state hmem
  · have hlen := (storable_of_record hr state₀ (SenderKeyRecord.mem_of_stateFor hs)).1
    have hcases := getSenderKey_cases P.toProvider hlen m.iteration
    rw [hkey] at hcases
    cases hcases <;> exact hstate₀

/-- Neither does processing a distribution message. -/
theorem GroupWorld.Receiving.process (h : w.Receiving P.toProvider name)
    (d : SenderKeyDistributionMessage Pub B) :
    (groupSessionBuilderProcessSession P.toProvider name d w).2.Receiving P.toProvider name := by
  rcases hr : (w.record P.toProvider name : Except SgError (SenderKeyRecord Priv Pub B)) with
    e | record
  · rw [processSession_of_error hr]
    exact h
  rw [processSession_of_record hr]
  intro record₁ hr₁ state hstate
  have hput : (w.put P.toProvider name _).record P.toProvider name = .ok _ := record_put
    ((storable_of_record hr).addSenderKeyStateImpl d.id d.iteration d.chainKey d.signatureKey none)
  obtain rfl := Except.ok.inj (hr₁.symm.trans hput)
  rcases List.mem_cons.1 (List.mem_of_mem_take hstate) with rfl | hmem
  · rfl
  · exact h record hr state hmem

/-- **No receiver ever gets hold of the signing key.** -/
theorem Group.Started.run_receiving [DecidableEq R] {ctx : GroupContext Priv Pub B}
    {g : Group R Name Pub B} (hg : g.Started name) (acts : List (GroupAct R B)) (r : R) :
    ((g.run ctx name acts).receiver r).Receiving ctx.provider.toProvider name := by
  induction acts using List.reverseRecOn generalizing r with
  | nil =>
    intro record hr state hstate
    have hnone : (g.receiver r).record ctx.provider.toProvider name =
        .ok (⟨[]⟩ : SenderKeyRecord Priv Pub B) := by
      rw [GroupWorld.record, hg.receiver r]
    obtain rfl := Except.ok.inj (hr.symm.trans hnone)
    cases hstate
  | append_singleton acts act ih =>
    rw [Group.run_concat]
    generalize g.run ctx name acts = g' at ih ⊢
    cases act with
    | createSession =>
      rw [Group.step]
      split <;> exact ih r
    | encrypt plaintext =>
      rw [Group.step]
      split <;> exact ih r
    | process r' i =>
      rw [Group.step]
      split
      · rename_i d _ _
        have hp := (ih r').process d
        split <;> rename_i hstep <;> rw [hstep] at hp <;> dsimp only <;>
          (rcases eq_or_ne r r' with rfl | hr
           · rwa [Function.update_self]
           · rw [Function.update_of_ne hr]
             exact ih r)
      · exact ih r
    | deliver r' i =>
      rw [Group.step]
      split
      · exact ih r
      · rename_i e _
        have hp := (ih r').decrypt e.1
        split <;> rename_i hstep <;> rw [hstep] at hp <;> dsimp only <;>
          (rcases eq_or_ne r r' with rfl | hr
           · rwa [Function.update_self]
           · rw [Function.update_of_ne hr]
             exact ih r)

end Receiving

section Stolen

variable {R Name : Type} {name : Name} {g : Group R Name Nat Term} {r : R}

/-- What a thief finds in a receiver's store under the sender's name. -/
def Group.exposed (name : Name) (g : Group R Name Nat Term) (r : R) : Set Term :=
  {t | ∃ record : SenderKeyRecord Nat Nat Term, (g.receiver r).record symbolic name = .ok record ∧
    ∃ s ∈ record.serialize symbolic, t ∈ s.buffers}

/-- The receiver is past a message: it has accepted it, or joined later. -/
def Group.Past (g : Group R Name Nat Term) (r : R) (m : SenderKeyMessage Term) : Prop :=
  m ∈ g.accepted r ∨ ∃ n, g.joined r = some n ∧ m.iteration < n

theorem SenderKeyState.mem_buffers {state : SenderKeyState Nat Nat Term}
    (hp : state.signaturePrivateKey = none) {t : Term}
    (ht : t ∈ (state.serialize symbolic).buffers) : (∃ key, t = .point key) ∨
      t = state.chainKey.chainKey ∨ ∃ key ∈ state.messageKeys, t = key.seed := by
  simp only [SenderKeyStateStructure.buffers, SenderKeyState.serialize, hp, Option.bind_some,
    Option.map_none, Option.toList_some, Option.toList_none, List.append_nil, List.mem_append,
    List.mem_singleton, List.mem_filterMap, List.mem_map] at ht
  rcases ht with (ht | ht) | ⟨_, ⟨key, hkey, rfl⟩, ht⟩
  · exact Or.inr (Or.inl ht)
  · exact Or.inl ⟨_, ht⟩
  · exact Or.inr (Or.inr ⟨key, hkey, (Option.some.inj ht).symm⟩)

/-- **What the thief can use**: the chain key of the receiver's iteration, and the seeds of the
iterations it has skipped. -/
theorem SenderKey.ReceivedBy.derives_of_mem_buffers {k : SenderKey Nat Term} {n : Nat}
    {accepted : List Nat} {state : SenderKeyState Nat Nat Term} {texts keys : Set Nat}
    {sent : List (SenderKeyMessage Term × Term)}
    (h : k.ReceivedBy symbolicGroup n accepted state) (hp : state.signaturePrivateKey = none)
    {t : Term} (ht : t ∈ (state.serialize symbolic).buffers) :
    attacker.Derives (groupView texts keys k {(state.window h.wellFormed).next}
      {j | j ∈ (state.window h.wellFormed).held} sent) t := by
  rcases SenderKeyState.mem_buffers hp ht with ⟨key, rfl⟩ | rfl | ⟨key, hkey, rfl⟩
  · exact (builds_point key).derives
  · have hchain : state.chainKey.chainKey =
        (symbolic.chainKeyAt k.seed (state.window h.wellFormed).next).key := by
      rw [h.follows.chain]
      exact k.chainKey_eq _
    rw [hchain]
    exact .known (.chain rfl)
  · have hseed : key.seed = messageSeed k.seed key.index := by
      have hk := congrArg SenderMessageKey.seed (h.follows.keys key hkey)
      exact hk.trans (k.seed_createMessageKey key.index)
    rw [hseed]
    exact .known (.seed (List.mem_map.2 ⟨key, hkey, rfl⟩))

/-- A message that the receiver is past is spent in its window. -/
theorem Group.Led.spent_of_past {k : SenderKey Nat Term} (h : g.Led symbolicGroup name k)
    (hcount : g.sent.length < 2 ^ 32) {n : UInt32} (hj : g.joined r = some n) {j : Nat}
    {e : SenderKeyMessage Term × Term} (he : g.sent[j]? = some e) (hp : g.Past r e.1) :
    (Window.replayFrom (Window.startingAt n.toNat : Window senderMaxMessageKeys)
      (g.acceptedIterations r)).Spent j := by
  rcases hp with hp | ⟨n', hn', hlt⟩
  · exact Window.spent_of_mem_replayFrom ((h.mem_accepted_iff hcount he r).1 hp)
  · obtain rfl := Option.some.inj (hj.symm.trans hn')
    refine Window.Spent.replayFrom ⟨?_, List.not_mem_nil⟩ _
    rw [← h.iteration hcount he]
    exact UInt32.lt_iff_toNat_lt.1 hlt

/-- **The traffic and a stolen record as a view**, which gives no chain key up to a message that
the receiver is past, and not that message's seed. -/
theorem Group.Led.exists_view {k : SenderKey Nat Term} (h : g.Led symbolicGroup name k)
    (hcount : g.sent.length < 2 ^ 32) (hr : (g.receiver r).Receiving symbolic name)
    (texts keys : Set Nat) : ∃ chains seeds : Set Nat,
      (∀ (j : Nat) e, g.sent[j]? = some e → g.Past r e.1 → (∀ n ≤ j, n ∉ chains) ∧ j ∉ seeds) ∧
        ∀ t ∈ outsider texts keys ∪ groupTraffic g.sent ∪ g.exposed name r,
          attacker.Derives (groupView texts keys k chains seeds g.sent) t := by
  have hat := h.receiver r
  rw [Group.ReceiverAt] at hat
  cases hj : g.joined r with
  | none =>
    rw [hj] at hat
    refine ⟨∅, ∅, fun j e _ _ => ⟨fun _ _ => id, id⟩, ?_⟩
    rintro t (ht | ⟨record, hrecord, s, hs, -⟩)
    · exact .known (mem_groupView_of_traffic ht)
    · obtain rfl := Except.ok.inj (hrecord.symm.trans hat.1)
      cases hs
  | some n =>
    rw [hj] at hat
    obtain ⟨state, hstate, hwindow⟩ := hat
    refine ⟨{(state.window hwindow.wellFormed).next},
      {j | j ∈ (state.window hwindow.wellFormed).held}, fun j e he hp => ?_, ?_⟩
    · obtain ⟨hlt, hheld⟩ := hwindow.window ▸ h.spent_of_past hcount hj he hp
      refine ⟨fun i hi hmem => ?_, hheld⟩
      rw [Set.mem_singleton_iff] at hmem
      omega
    · rintro t (ht | ⟨record, hrecord, s, hs, ht⟩)
      · exact .known (mem_groupView_of_traffic ht)
      · obtain rfl := Except.ok.inj (hrecord.symm.trans hstate)
        obtain ⟨state', hstate', rfl⟩ := List.mem_map.1 hs
        obtain rfl := List.mem_singleton.1 hstate'
        exact hwindow.derives_of_mem_buffers (hr _ hstate _ hstate') ht

variable [DecidableEq R] [DecidableEq Name]

/-- **Group forward secrecy.**  After every run, in which a receiver joins once, a thief takes a
receiver's sender key record; it has all group messages, every private key that it is not to lack
(the signing key may be among those), and not the random seeds.  Then it can compute no text that
was sent only in messages the receiver had accepted or that were from before it joined, and the
key of no such message. -/
theorem group_forward_secrecy {ctx : GroupContext Nat Nat Term}
    (hP : ctx.provider = symbolicGroup) (hg : g.Started name) (acts : List (GroupAct R Term))
    (hcount : (g.run ctx name acts).sent.length < 2 ^ 32) (r : R) {hidden keys : Set Nat}
    (hseed : ∀ n s, ctx.rng.senderKey n = .ok s → ∃ i ∈ hidden, s = .text i)
    (hplain : ∀ e ∈ (g.run ctx name acts).sent,
      attacker.Builds (outsider hidden keys) e.2 ∨ (g.run ctx name acts).Past r e.1) :
    (∀ n ∈ hidden, (∀ j, ctx.rng.senderKey j ≠ .ok (.text n)) →
        ¬ attacker.Derives (outsider hidden keys ∪ groupTraffic (g.run ctx name acts).sent ∪
          (g.run ctx name acts).exposed name r) (.text n)) ∧
      ∀ e ∈ (g.run ctx name acts).sent, (g.run ctx name acts).Past r e.1 → ∀ key iv p,
        symbolic.decrypt .cbcPkcs5 key iv e.1.ciphertext = .ok p →
          ¬ attacker.Derives (outsider hidden keys ∪ groupTraffic (g.run ctx name acts).sent ∪
            (g.run ctx name acts).exposed name r) key := by
  have hreceiving : ((g.run ctx name acts).receiver r).Receiving ctx.provider.toProvider name :=
    hg.run_receiving acts r
  have hrun : (g.run ctx name acts).Silent ctx.provider name ∨ ∃ k : SenderKey Nat Term,
      k.Drawn ctx ∧ (g.run ctx name acts).Led ctx.provider name k := hg.run_drawn acts hcount
  rw [hP] at hreceiving hrun
  generalize g.run ctx name acts = g' at hreceiving hrun hcount hplain ⊢
  rcases hrun with h | ⟨k, ⟨⟨m, hm⟩, -⟩, h⟩
  · -- nothing was sent and nothing is stored, so any sender key will do for the view
    have hno : ∀ e, e ∉ g'.sent := fun e => h.sent ▸ List.not_mem_nil
    refine ⟨fun n hn _ => ?_, fun e he => absurd he (hno e)⟩
    have hsent : GroupSentOn ⟨0, .text n, 0⟩ g'.sent :=
      fun j e he => absurd (List.mem_of_getElem? he) (hno e)
    have hpast : ∀ (j : Nat) e, g'.sent[j]? = some e → g'.Past r e.1 →
        (∀ n ≤ j, n ∉ (∅ : Set Nat)) ∧ j ∉ (∅ : Set Nat) :=
      fun j e _ _ => ⟨fun _ _ => id, id⟩
    refine (group_out_of_reach hsent rfl hn hpast hplain ?_).1 n hn fun _ => id
    rintro t ((ht | ⟨e, he, -⟩) | ⟨record, hrecord, s, hs, -⟩)
    · exact .known (.free ht)
    · exact absurd he (hno e)
    · obtain rfl := Except.ok.inj (hrecord.symm.trans (h.receiver r))
      cases hs
  · obtain ⟨i, hi, hk⟩ := hseed m k.seed hm
    obtain ⟨chains, seeds, hpast, hK⟩ := h.exists_view hcount hreceiving hidden keys
    obtain ⟨htext, hkey⟩ := group_out_of_reach h.sent hk hi hpast hplain hK
    refine ⟨fun n hn hne => htext n hn fun hni => ?_, hkey⟩
    exact absurd (by rw [hm, hk, hni]) (hne m)

end Stolen

/-- A sender whose seeds are none of the texts it sends. -/
def sampleSenderContext : GroupContext Nat Nat Term :=
  { symbolicGroupContext with
    rng := { symbolicGroupContext.rng with senderKey := fun n => .ok (.text (1000 + n)) } }

/-- The receiver joins after the first message and accepts the third. -/
def sampleJoined : Group Nat Nat Nat Term :=
  sampleGroup.run sampleSenderContext 0 sampleGroupActs

theorem sampleJoined_length : sampleJoined.sent.length = 3 := by
  decide +kernel

/-- The text from before the receiver joined and the one it has accepted are out of the thief's
reach, who knows the signing key. -/
theorem group_forward_secrecy_sample :
    ¬ attacker.Derives (outsider {n | n ≠ 1} ∅ ∪ groupTraffic sampleJoined.sent ∪
        sampleJoined.exposed 0 7) (.text 0) ∧
      ¬ attacker.Derives (outsider {n | n ≠ 1} ∅ ∪ groupTraffic sampleJoined.sent ∪
        sampleJoined.exposed 0 7) (.text 2) := by
  have hplain : ∀ e ∈ sampleJoined.sent,
      attacker.Builds (outsider {n | n ≠ 1} ∅) e.2 ∨ sampleJoined.Past 7 e.1 := by
    have hcases : ∀ e ∈ sampleJoined.sent,
        e.2 = .text 1 ∨ e.1 ∈ sampleJoined.accepted 7 ∨ e.1.iteration < 1 := by decide +kernel
    intro e he
    rcases hcases e he with h | h | h
    · rw [h]
      exact Or.inl (.known (text_mem_outsider.2 fun hne => hne rfl))
    · exact Or.inr (Or.inl h)
    · exact Or.inr (Or.inr ⟨1, by decide +kernel, h⟩)
  have hall := (group_forward_secrecy rfl sampleGroup_started sampleGroupActs
    (show sampleJoined.sent.length < 2 ^ 32 by rw [sampleJoined_length]; decide) 7
    (fun n s h => ⟨1000 + n, by simp; omega, (Except.ok.inj h).symm⟩) hplain).1
  have hno : ∀ n < 1000, ∀ j, sampleSenderContext.rng.senderKey j ≠ .ok (.text n) := by
    intro n hn j h
    have := Term.text.inj (Except.ok.inj h)
    omega
  exact ⟨hall 0 (by simp) (hno 0 (by decide)), hall 2 (by simp) (hno 2 (by decide))⟩

/-! ## 5. A dishonest member -/

section Member

variable {R Name : Type} [DecidableEq R] [DecidableEq Name]

/-- A receiver is handed a message. -/
def Group.inject {Priv Pub B : Type} (P : GroupProvider Priv Pub B) (name : Name)
    (g : Group R Name Pub B) (r : R) (m : SenderKeyMessage B) : Group R Name Pub B :=
  match groupCipherDecrypt P (GroupCipher.create name) m (g.receiver r) with
  | (.error _, w) => { g with receiver := Function.update g.receiver r w }
  | (.ok _, w) =>
    { g with
      receiver := Function.update g.receiver r w
      accepted := Function.update g.accepted r (m :: g.accepted r) }

/-- **A run with a dishonest member**: it knows every text, so the seed of the chain and all of
its keys, but not the private keys in `keys`; and it hands the receivers any messages that it can
compute.  The sender keeps the private keys out of its plaintexts. -/
inductive Group.Attacked (ctx : GroupContext Nat Nat Term) (name : Name) (keys : Set Nat)
    (g : Group R Name Nat Term) : Group R Name Nat Term → Prop where
  | start : Attacked ctx name keys g g
  | createSession {g'} (h : Attacked ctx name keys g g') :
      Attacked ctx name keys g (g'.step ctx name .createSession)
  | encrypt {g'} (h : Attacked ctx name keys g g') (plaintext : Term)
      (hopen : attacker.Builds (outsider ∅ keys) plaintext) :
      Attacked ctx name keys g (g'.step ctx name (.encrypt plaintext))
  | process {g'} (h : Attacked ctx name keys g g') (r : R) (i : Nat) :
      Attacked ctx name keys g (g'.step ctx name (.process r i))
  | inject {g'} (h : Attacked ctx name keys g g') (r : R) (m : SenderKeyMessage Term)
      (hparsed : m.serialized.deserialize symbolicGroup = .ok m)
      (hwire : ∀ t ∈ m.wire, attacker.Derives (outsider ∅ keys ∪ groupTraffic g'.sent) t) :
      Attacked ctx name keys g (g'.inject ctx.provider name r m)

/-- A message that the sender sent might as well have been delivered. -/
theorem Group.inject_eq_deliver (ctx : GroupContext Nat Nat Term) (name : Name)
    (g : Group R Name Nat Term) (r : R) {e : SenderKeyMessage Term × Term} {i : Nat}
    (hi : g.sent[i]? = some e) :
    g.inject ctx.provider name r e.1 = g.step ctx name (.deliver r i) := by
  rcases hr : groupCipherDecrypt ctx.provider (GroupCipher.create name) e.1 (g.receiver r) with
    ⟨_ | _, _⟩ <;> simp only [Group.inject, Group.step, hi, hr]

variable {name : Name} {g : Group R Name Nat Term} {keys : Set Nat} {r : R}
  {m : SenderKeyMessage Term}

/-- A message that is refused changes nothing. -/
theorem Group.inject_of_error {e : SgError} (hr : ∃ record : SenderKeyRecord Nat Nat Term,
      (g.receiver r).record symbolic name = .ok record)
    (he : (groupCipherDecrypt symbolicGroup (GroupCipher.create name) m (g.receiver r)).1 =
      .error e) : g.inject symbolicGroup name r m = g := by
  obtain ⟨record, hr⟩ := hr
  rw [Group.inject]
  rw [groupCipherDecrypt_of_record hr] at he ⊢
  rcases hd : record.decrypt symbolicGroup m with e' | ⟨p, record'⟩
  · simp only [Function.update_eq_self]
  · rw [hd] at he
    cases he

omit [DecidableEq R] [DecidableEq Name] in
/-- **A signature of the sender that a member can compute** is that of a message it sent. -/
theorem Group.Led.sent_of_verified {k : SenderKey Nat Term} {i : Nat}
    (h : g.Led symbolicGroup name k) (hseed : k.seed = .text i) (hkey : k.signingKey ∈ keys)
    (hopen : ∀ e ∈ g.sent, attacker.Builds (outsider ∅ keys) e.2)
    (hparsed : m.serialized.deserialize symbolicGroup = .ok m)
    (hwire : ∀ t ∈ m.wire, attacker.Derives (outsider ∅ keys ∪ groupTraffic g.sent) t)
    (hver : m.verifySignature symbolicGroup k.signingKey = .ok ()) : ∃ e ∈ g.sent, e.1 = m := by
  have hsent : GroupSentOn k g.sent := h.sent
  obtain ⟨random, hsig⟩ := SenderKeyMessage.signed_of_verified hver
  have hview : attacker.Derives (groupView ∅ keys k ∅ ∅ g.sent) m.serialized.signature :=
    (hwire _ (Or.inr rfl)).trans fun t ht => .known (mem_groupView_of_traffic ht)
  have hbuilds := hview.builds attacker_closed (groupView_analysed hsent hseed
    fun j e he => Or.inl (hopen e (List.mem_of_getElem? he)))
  rw [hsig, builds_signed_iff] at hbuilds
  rcases hbuilds with hmem | ⟨hmem, -⟩
  · obtain ⟨e, he, hse⟩ := signed_mem_groupView hsent hseed hmem
    obtain ⟨j, hm⟩ := hsent.of_mem he
    obtain ⟨random', hse'⟩ := hm.signature_eq
    rw [hse, Term.signed.injEq, Term.cons.injEq, Term.bytes.injEq] at hse'
    have hserialized : e.1.serialized = m.serialized := by
      rw [SignedMessage.mk.injEq]
      exact ⟨hse'.2.1.1.1.symm, hse'.2.1.2.symm, hse.trans hsig.symm⟩
    have hread := hm.deserialize
    rw [hserialized, hparsed] at hread
    exact ⟨e, he, (Except.ok.inj hread).symm⟩
  · exact absurd hkey (scalar_mem_groupView hsent hseed hmem)

omit [DecidableEq R] in
/-- **What a receiver accepts from a member**: a message that the sender sent, with its own
plaintext, and not for the second time. -/
theorem Group.Led.sent_of_decrypt {k : SenderKey Nat Term} {i : Nat}
    (h : g.Led symbolicGroup name k) (hseed : k.seed = .text i) (hkey : k.signingKey ∈ keys)
    (hcount : g.sent.length < 2 ^ 32)
    (hopen : ∀ e ∈ g.sent, attacker.Builds (outsider ∅ keys) e.2)
    (hparsed : m.serialized.deserialize symbolicGroup = .ok m)
    (hwire : ∀ t ∈ m.wire, attacker.Derives (outsider ∅ keys ∪ groupTraffic g.sent) t) {q : Term}
    (hdec : (groupCipherDecrypt symbolicGroup (GroupCipher.create name) m (g.receiver r)).1 =
      .ok q) : (m, q) ∈ g.sent ∧ m ∉ g.accepted r := by
  have hr := h.receiver r
  rw [Group.ReceiverAt] at hr
  cases hj : g.joined r with
  | none =>
    rw [hj] at hr
    rw [groupCipherDecrypt_of_record hr.1] at hdec
    cases hdec
  | some n =>
    rw [hj] at hr
    obtain ⟨state, hstate, hs⟩ := hr
    rw [groupCipherDecrypt_of_record hstate] at hdec
    rcases hd : SenderKeyRecord.decrypt symbolicGroup ⟨[state]⟩ m with e | ⟨p, record'⟩
    · rw [hd] at hdec
      cases hdec
    rw [hd] at hdec
    cases hdec
    obtain ⟨state₀, state', hfor, hdec, -⟩ := SenderKeyRecord.decrypt_ok_iff.1 hd
    obtain rfl := List.mem_singleton.1 (SenderKeyRecord.mem_of_stateFor hfor)
    obtain ⟨_, hver, -⟩ := Op.exists_of_bind_eq_ok hdec
    rw [hs.signatureKey] at hver
    obtain ⟨e, he, rfl⟩ := h.sent_of_verified hseed hkey hopen hparsed hwire hver
    obtain ⟨j, hat⟩ := List.getElem?_of_mem he
    have hm := h.sent j e hat
    have hlt : j < g.sent.length := (List.getElem?_eq_some_iff.1 hat).1
    obtain ⟨rfl, -⟩ := hs.of_decrypt hm (by omega) hdec
    refine ⟨he, fun hacc => ?_⟩
    have hspent := h.spent_of_past hcount hj hat (Or.inl hacc)
    rw [hs.decrypt_of_spent hm (by omega) hspent] at hdec
    cases hdec

/-- **The group with a dishonest member**: the plaintexts are open, and nothing was produced or
all are on the chain of one sender key, the private half of which is unknown. -/
def Group.Safe (keys : Set Nat) (name : Name) (g : Group R Name Nat Term) : Prop :=
  (∀ e ∈ g.sent, attacker.Builds (outsider ∅ keys) e.2) ∧
    (g.Silent symbolicGroup name ∨ ∃ (k : SenderKey Nat Term) (i : Nat), k.seed = .text i ∧
      k.signingKey ∈ keys ∧ g.Led symbolicGroup name k)

theorem Group.sent_step (ctx : GroupContext Nat Nat Term) (name : Name)
    (g : Group R Name Nat Term) (act : GroupAct R Term) : (g.step ctx name act).sent = g.sent ∨
      ∃ m plaintext, act = .encrypt plaintext ∧
        (g.step ctx name act).sent = g.sent ++ [(m, plaintext)] := by
  cases act with
  | createSession =>
    rw [Group.step]
    split <;> exact Or.inl rfl
  | encrypt plaintext =>
    rw [Group.step]
    split
    · exact Or.inl rfl
    · exact Or.inr ⟨_, plaintext, rfl, rfl⟩
  | process r i =>
    rw [Group.step]
    split
    · split <;> exact Or.inl rfl
    · exact Or.inl rfl
  | deliver r i =>
    rw [Group.step]
    split
    · exact Or.inl rfl
    · split <;> exact Or.inl rfl

variable {ctx : GroupContext Nat Nat Term}

/-- An act of the sender or a join keeps that. -/
theorem Group.Safe.step (hP : ctx.provider = symbolicGroup)
    (hseed : ∀ n s, ctx.rng.senderKey n = .ok s → ∃ i, s = .text i)
    (hkeys : ∀ n key, ctx.rng.privateKey n = .ok key → key ∈ keys)
    (h : g.Safe keys name) (hcount : g.sent.length < 2 ^ 32) (act : GroupAct R Term)
    (hopen : ∀ plaintext, act = .encrypt plaintext →
      attacker.Builds (outsider ∅ keys) plaintext) : (g.step ctx name act).Safe keys name := by
  refine ⟨?_, ?_⟩
  · rcases Group.sent_step ctx name g act with hsent | ⟨m, plaintext, hact, hsent⟩
    · rw [hsent]
      exact h.1
    · rw [hsent]
      intro e he
      rcases List.mem_append.1 he with he | he
      · exact h.1 e he
      · rw [List.mem_singleton.1 he]
        exact hopen plaintext hact
  · rcases h.2 with hsilent | ⟨k, i, hk, hkey, hled⟩
    · rw [← hP] at hsilent
      rcases hsilent.step act with hsilent' | ⟨k, ⟨⟨n, hn⟩, n', hn'⟩, hled⟩
      · exact Or.inl (hP ▸ hsilent')
      · obtain ⟨i, hi⟩ := hseed n _ hn
        exact Or.inr ⟨k, i, hi, hkeys n' _ hn', hP ▸ hled⟩
    · rw [← hP] at hled
      exact Or.inr ⟨k, i, hk, hkey, hP ▸ hled.step hcount act⟩

theorem Group.inject_sent (P : GroupProvider Nat Nat Term) (name : Name)
    (g : Group R Name Nat Term) (r : R) (m : SenderKeyMessage Term) :
    (g.inject P name r m).sent = g.sent := by
  rw [Group.inject]
  split <;> rfl

omit [DecidableEq R] [DecidableEq Name] in
theorem Group.Safe.exists_record (h : g.Safe keys name) (r : R) :
    ∃ record : SenderKeyRecord Nat Nat Term,
      (g.receiver r).record symbolic name = .ok record := by
  rcases h.2 with hsilent | ⟨k, i, -, -, hled⟩
  · exact ⟨_, hsilent.receiver r⟩
  · have hr := hled.receiver r
    rw [Group.ReceiverAt] at hr
    split at hr
    · exact ⟨_, hr.1⟩
    · obtain ⟨state, hstate, -⟩ := hr
      exact ⟨_, hstate⟩

/-- And so does whatever the member hands over. -/
theorem Group.Safe.inject (h : g.Safe keys name) (hcount : g.sent.length < 2 ^ 32)
    (hparsed : m.serialized.deserialize symbolicGroup = .ok m)
    (hwire : ∀ t ∈ m.wire, attacker.Derives (outsider ∅ keys ∪ groupTraffic g.sent) t) :
    (g.inject symbolicGroup name r m).Safe keys name := by
  rcases hdec : (groupCipherDecrypt symbolicGroup (GroupCipher.create name) m
    (g.receiver r)).1 with e | q
  · rw [Group.inject_of_error (h.exists_record r) hdec]
    exact h
  · rcases h.2 with hsilent | ⟨k, i, hk, hkey, hled⟩
    · rw [groupCipherDecrypt_of_record (hsilent.receiver r)] at hdec
      cases hdec
    · obtain ⟨hmem, -⟩ := hled.sent_of_decrypt hk hkey hcount h.1 hparsed hwire hdec
      obtain ⟨j, hj⟩ := List.getElem?_of_mem hmem
      have hled₀ : g.Led symbolicGroupContext.provider name k := hled
      have hled' := hled₀.deliver hcount r j
      rw [← Group.inject_eq_deliver symbolicGroupContext name g r hj] at hled'
      refine ⟨?_, Or.inr ⟨k, i, hk, hkey, hled'⟩⟩
      rw [Group.inject_sent]
      exact h.1

/-- **Every run with a dishonest member keeps the group on the sender's chain.** -/
theorem Group.Attacked.safe {g' : Group R Name Nat Term} (hP : ctx.provider = symbolicGroup)
    (hseed : ∀ n s, ctx.rng.senderKey n = .ok s → ∃ i, s = .text i)
    (hkeys : ∀ n key, ctx.rng.privateKey n = .ok key → key ∈ keys)
    (hg : g.Started name) (h : g.Attacked ctx name keys g') (hcount : g'.sent.length < 2 ^ 32) :
    g'.Safe keys name := by
  have hstep : ∀ {g' : Group R Name Nat Term}, (g'.sent.length < 2 ^ 32 → g'.Safe keys name) →
      ∀ act : GroupAct R Term, (∀ plaintext, act = .encrypt plaintext →
        attacker.Builds (outsider ∅ keys) plaintext) → (g'.step ctx name act).sent.length < 2 ^ 32 →
        (g'.step ctx name act).Safe keys name := by
    intro g' ih act hopen hcount
    have hlen := (Group.length_sent_step ctx name g' act).trans_lt hcount
    exact (ih hlen).step hP hseed hkeys hlen act hopen
  induction h with
  | start =>
    refine ⟨fun e he => ?_, Or.inl (hP ▸ hg.silent)⟩
    rw [hg.sent] at he
    cases he
  | createSession _ ih => exact hstep ih _ (fun _ h => by cases h) hcount
  | encrypt _ plaintext hopen ih =>
    refine hstep ih _ ?_ hcount
    rintro _ ⟨⟩
    exact hopen
  | process _ r i ih => exact hstep ih _ (fun _ h => by cases h) hcount
  | inject _ r m hparsed hwire ih =>
    rw [Group.inject_sent] at hcount
    rw [hP]
    exact (ih hcount).inject hcount hparsed hwire

/-- **No impersonation.**  The sender's seeds are texts, and a member lacks every private key that
it could draw.  Then in every run in which each receiver joins once and the member hands them
whatever it can compute, a receiver accepts from it only what the sender encrypted, with the
plaintext the sender encrypted, and never twice: although it can decrypt every message. -/
theorem group_no_impersonation {g' : Group R Name Nat Term} (hP : ctx.provider = symbolicGroup)
    (hseed : ∀ n s, ctx.rng.senderKey n = .ok s → ∃ i, s = .text i)
    (hkeys : ∀ n key, ctx.rng.privateKey n = .ok key → key ∈ keys)
    (hg : g.Started name) (h : g.Attacked ctx name keys g') (hcount : g'.sent.length < 2 ^ 32)
    (r : R) (hparsed : m.serialized.deserialize symbolicGroup = .ok m)
    (hwire : ∀ t ∈ m.wire, attacker.Derives (outsider ∅ keys ∪ groupTraffic g'.sent) t) {q : Term}
    (hdec : g'.delivery symbolicGroup name r m = .ok q) : (m, q) ∈ g'.sent ∧ m ∉ g'.accepted r := by
  obtain ⟨hopen, hsilent | ⟨k, i, hk, hkey, hled⟩⟩ := h.safe hP hseed hkeys hg hcount
  · rw [Group.delivery, groupCipherDecrypt_of_record (hsilent.receiver r)] at hdec
    cases hdec
  · exact hled.sent_of_decrypt hk hkey hcount hopen hparsed hwire hdec

end Member

/-- The sample before anything was delivered. -/
def sampleWaiting : Group Nat Nat Nat Term :=
  sampleGroup.run sampleSenderContext 0 sampleGroupActs.dropLast

theorem sampleWaiting_sent : sampleWaiting.sent ≠ [] := by
  decide +kernel

theorem sampleWaiting_attacked (keys : Set Nat) :
    sampleGroup.Attacked sampleSenderContext 0 keys sampleWaiting := by
  have hopen : ∀ n, attacker.Builds (outsider ∅ keys) (.text n) :=
    fun n => .known (text_mem_outsider.2 id)
  have hstart : sampleGroup.Attacked sampleSenderContext 0 keys sampleGroup := .start
  have hfirst := hstart.createSession.encrypt _ (hopen 0)
  exact ((hfirst.createSession.process 7 1).encrypt _ (hopen 1)).encrypt _ (hopen 2)

/-- A member hands the receiver what the sender sent last, and it is accepted as the sender's. -/
theorem group_no_impersonation_sample :
    ∃ e ∈ sampleWaiting.sent, e.2 = .text 2 ∧ e.1 ∉ sampleWaiting.accepted 7 := by
  have hkeys : ∀ n key, sampleSenderContext.rng.privateKey n = .ok key → 100 ≤ key :=
    fun n key h => Except.ok.inj h ▸ Nat.le_add_right 100 _
  obtain ⟨hmem, hnew⟩ := group_no_impersonation rfl
    (fun n s h => ⟨1000 + n, (Except.ok.inj h).symm⟩) hkeys sampleGroup_started
    (sampleWaiting_attacked {n | 100 ≤ n}) (by decide +kernel) 7
    (m := (sampleWaiting.sent.getLast sampleWaiting_sent).1) (q := .text 2) (by decide +kernel)
    (fun t ht => .known (Or.inr ⟨_, List.getLast_mem _, ht⟩)) (by decide +kernel)
  exact ⟨_, hmem, rfl, hnew⟩

end SignalProtocol
