/-
# What a group call does to the stored record

For each of the four operations one lemma that says what it returns and what it leaves in the
store, given the record that it loads.  `SenderKeyRecord.decrypt` is the part of
`group_cipher_decrypt` between loading and storing; the runs of the later modules look at
decryption through it only.
-/
import SignalProtocol.GroupWindow

namespace SignalProtocol

variable {Name Priv Pub B : Type}

/-! ## 1. The stored record -/

/-- The record that a load gives. -/
def GroupWorld.record (P : Provider Priv Pub B) (name : Name) (w : GroupWorld Name B) :
    Except SgError (SenderKeyRecord Priv Pub B) :=
  match w.senderKeys name with
  | none => .ok ⟨[]⟩
  | some stored => senderKeyRecordDeserialize P stored

/-- The world in which a record is stored. -/
def GroupWorld.put [DecidableEq Name] (P : Provider Priv Pub B) (name : Name)
    (record : SenderKeyRecord Priv Pub B) (w : GroupWorld Name B) : GroupWorld Name B :=
  { w with senderKeys := Function.update w.senderKeys name (some (record.serialize P)) }

section Record

variable {P : Provider Priv Pub B} {name : Name} {w w' : GroupWorld Name B}
  {record : SenderKeyRecord Priv Pub B}

theorem senderKeyLoad_eq (P : Provider Priv Pub B) (name : Name) (w : GroupWorld Name B) :
    signalProtocolSenderKeyLoadKey P name w = (w.record P name, w) := by
  rw [signalProtocolSenderKeyLoadKey, Op.get_bind_apply, GroupWorld.record]
  cases w.senderKeys name with
  | none => rfl
  | some stored => exact Op.ofExcept_apply ..

theorem senderKeyLoad_of_record (hr : w.record P name = .ok record) :
    signalProtocolSenderKeyLoadKey P name w = (.ok record, w) := by
  rw [senderKeyLoad_eq, hr]

theorem record_congr (h : w'.senderKeys = w.senderKeys) : w'.record P name = w.record P name := by
  rw [GroupWorld.record, GroupWorld.record, h]

/-- **What was stored is loaded.** -/
theorem record_put [DecidableEq Name] (h : record.Storable P) :
    (w.put P name record).record P name = .ok record := by
  rw [GroupWorld.record, GroupWorld.put]
  simp only [Function.update_self, SenderKeyRecord.deserialize_serialize P h]

/-- A loaded record can be stored. -/
theorem storable_of_record (hr : w.record P name = .ok record) : record.Storable P := by
  rw [GroupWorld.record] at hr
  cases hs : w.senderKeys name with
  | none =>
    simp only [hs] at hr
    cases hr
    exact fun _ h => absurd h List.not_mem_nil
  | some stored =>
    simp only [hs] at hr
    obtain ⟨states, hstates, hr⟩ := Op.exists_of_bind_eq_ok hr
    cases hr
    have hforall := Op.mapM_ok_forall₂ hstates
    intro state hstate
    obtain ⟨i, hi, rfl⟩ := List.getElem_of_mem hstate
    exact SenderKeyState.storable_of_deserialize (hforall.get (hforall.length_eq ▸ hi) hi)

end Record

/-! ## 2. Processing a distribution message -/

theorem processSession_of_record [DecidableEq Name] {P : Provider Priv Pub B} {name : Name}
    {w : GroupWorld Name B} {record : SenderKeyRecord Priv Pub B}
    (hr : w.record P name = .ok record) (d : SenderKeyDistributionMessage Pub B) :
    groupSessionBuilderProcessSession P name d w =
      (.ok (), w.put P name
        (record.addSenderKeyState d.id d.iteration d.chainKey d.signatureKey)) := by
  rw [groupSessionBuilderProcessSession, Op.bind_of_ok (senderKeyLoad_of_record hr)]
  rfl

theorem processSession_of_error [DecidableEq Name] {P : Provider Priv Pub B} {name : Name}
    {w : GroupWorld Name B} {e : SgError}
    (hr : (w.record P name : Except SgError (SenderKeyRecord Priv Pub B)) = .error e)
    (d : SenderKeyDistributionMessage Pub B) :
    groupSessionBuilderProcessSession P name d w = (.error e, w) :=
  Op.bind_of_error ((senderKeyLoad_eq ..).trans (by rw [hr]))

/-! ## 3. Decrypting -/

/-- The part of `group_cipher_decrypt` between loading and storing the record. -/
def SenderKeyRecord.decrypt (P : GroupProvider Priv Pub B) (record : SenderKeyRecord Priv Pub B)
    (message : SenderKeyMessage B) : Except SgError (B × SenderKeyRecord Priv Pub B) := do
  if record.isEmpty then
    throw .noSession
  let state ← record.getSenderKeyStateById message.keyId
  message.verifySignature P state.signaturePublicKey
  let result ← (groupCipherGetSenderKey P.toProvider message.iteration).onCopy state
  let plaintext ← P.decrypt .cbcPkcs5 result.1.cipherKey
    result.1.iv message.ciphertext
  return (plaintext, record.setStateById message.keyId result.2)

/-- The part of it that concerns the state with the message's key id. -/
def SenderKeyState.decrypt (P : GroupProvider Priv Pub B) (state : SenderKeyState Priv Pub B)
    (message : SenderKeyMessage B) : Except SgError (B × SenderKeyState Priv Pub B) := do
  message.verifySignature P state.signaturePublicKey
  let result ← (groupCipherGetSenderKey P.toProvider message.iteration).onCopy state
  let plaintext ← P.decrypt .cbcPkcs5 result.1.cipherKey
    result.1.iv message.ciphertext
  return (plaintext, result.2)

/-- A decryption is a granted request for the key of the message's iteration. -/
theorem SenderKeyState.getSenderKey_of_decrypt {P : GroupProvider Priv Pub B}
    {state : SenderKeyState Priv Pub B} {m : SenderKeyMessage B}
    {r : B × SenderKeyState Priv Pub B} (h : state.decrypt P m = .ok r) :
    ∃ key, (groupCipherGetSenderKey P.toProvider m.iteration).onCopy state = .ok (key, r.2) := by
  obtain ⟨_, _, h⟩ := Op.exists_of_bind_eq_ok h
  obtain ⟨result, hresult, h⟩ := Op.exists_of_bind_eq_ok h
  obtain ⟨plaintext, _, h⟩ := Op.exists_of_bind_eq_ok h
  cases h
  exact ⟨result.1, hresult⟩

/-- The codes that `group_cipher_decrypt` replaces. -/
def groupDecryptCode (e : SgError) : SgError :=
  if e = .invalidKey ∨ e = .invalidKeyId then .invalidMessage else e

section Decrypt

variable [DecidableEq Name] {P : GroupProvider Priv Pub B} {name : Name} {w : GroupWorld Name B}
  {record : SenderKeyRecord Priv Pub B} {m : SenderKeyMessage B}

omit [DecidableEq Name] in
theorem decrypt_of_state {state : SenderKeyState Priv Pub B}
    (h : record.getSenderKeyStateById m.keyId = .ok state) :
    record.decrypt P m =
      (state.decrypt P m).map fun r => (r.1, record.setStateById m.keyId r.2) := by
  have hne : record.isEmpty = false := by
    cases hs : record.states with
    | nil =>
      rw [SenderKeyRecord.getSenderKeyStateById, hs] at h
      cases h
    | cons s rest => simp [SenderKeyRecord.isEmpty, hs]
  simp only [SenderKeyRecord.decrypt, SenderKeyState.decrypt, h, hne, Bool.false_eq_true, if_false,
    bind, Except.bind]
  cases m.verifySignature P state.signaturePublicKey with
  | error e => rfl
  | ok u =>
    dsimp only
    cases (groupCipherGetSenderKey P.toProvider m.iteration).onCopy state with
    | error e => rfl
    | ok result =>
      dsimp only
      cases P.decrypt .cbcPkcs5 result.1.cipherKey
        result.1.iv m.ciphertext with
      | error e => rfl
      | ok plaintext => rfl

omit [DecidableEq Name] in
theorem SenderKeyRecord.decrypt_nil : SenderKeyRecord.decrypt P ⟨[]⟩ m = .error .noSession := rfl

omit [DecidableEq Name] in
theorem SenderKeyRecord.decrypt_singleton {state : SenderKeyState Priv Pub B}
    (h : state.keyId = m.keyId) :
    SenderKeyRecord.decrypt P ⟨[state]⟩ m =
      (state.decrypt P m).map fun r => (r.1, ⟨[r.2]⟩) := by
  have hget : SenderKeyRecord.getSenderKeyStateById ⟨[state]⟩ m.keyId = .ok state := by
    simp [SenderKeyRecord.getSenderKeyStateById, h]
  have hset : ∀ state' : SenderKeyState Priv Pub B,
      SenderKeyRecord.setStateById m.keyId state' ⟨[state]⟩ = ⟨[state']⟩ := by
    intro state'
    simp [SenderKeyRecord.setStateById, modifyFirst, h]
  rw [decrypt_of_state hget]
  simp only [hset]

/-- A cipher object whose callback answers each plaintext with a code. -/
def GroupCipher.answering (name : Name) (verdict : B → Except SgError Unit) :
    GroupCipher Name B :=
  ⟨name, false, some fun plaintext => Op.ofExcept (verdict plaintext)⟩

/-- **Decrypting** stores the record of `SenderKeyRecord.decrypt` if the callback accepts the
plaintext.  Otherwise it gives an error and stores nothing. -/
theorem groupCipherDecrypt_answering (hr : w.record P.toProvider name = .ok record)
    (verdict : B → Except SgError Unit) :
    groupCipherDecrypt P (.answering name verdict) m w =
      match record.decrypt P m with
      | .ok (plaintext, record') =>
        match verdict plaintext with
        | .ok () => (.ok plaintext, w.put P.toProvider name record')
        | .error e => (.error (groupDecryptCode e), w)
      | .error e => (.error (groupDecryptCode e), w) := by
  rw [groupCipherDecrypt, SenderKeyRecord.decrypt]
  simp only [Op.mapError, Op.bind_apply, GroupCipher.answering, Op.require, if_true,
    Op.pure_apply, senderKeyLoad_of_record hr]
  cases record.isEmpty with
  | true => rfl
  | false =>
    simp only [Op.ofExcept_apply, bind, Except.bind, Bool.false_eq_true, if_false]
    cases record.getSenderKeyStateById m.keyId with
    | error e => rfl
    | ok state =>
      dsimp only
      cases m.verifySignature P state.signaturePublicKey with
      | error e => rfl
      | ok u =>
        dsimp only
        cases (groupCipherGetSenderKey P.toProvider m.iteration).onCopy state with
        | error e => rfl
        | ok result =>
          dsimp only
          cases P.decrypt .cbcPkcs5 result.1.cipherKey
            result.1.iv m.ciphertext with
          | error e => rfl
          | ok plaintext =>
            simp only [groupCipherDecryptCallback, Op.ofExcept_apply, pure, Except.pure]
            cases verdict plaintext with
            | error e => rfl
            | ok u => rfl

theorem groupCipherDecrypt_answering_of_error {e : SgError}
    (hr : (w.record P.toProvider name : Except SgError (SenderKeyRecord Priv Pub B)) = .error e)
    (verdict : B → Except SgError Unit) :
    groupCipherDecrypt P (.answering name verdict) m w = (.error (groupDecryptCode e), w) := by
  rw [groupCipherDecrypt]
  simp only [Op.mapError, Op.bind_apply, GroupCipher.answering, Op.require, if_true,
    Op.pure_apply, senderKeyLoad_eq, hr]
  rfl

/-- Without a callback every plaintext is accepted. -/
theorem groupCipherDecrypt_create :
    groupCipherDecrypt P (GroupCipher.create name) m =
      groupCipherDecrypt P (.answering name fun _ => .ok ()) m :=
  rfl

theorem groupCipherDecrypt_of_record (hr : w.record P.toProvider name = .ok record) :
    groupCipherDecrypt P (GroupCipher.create name) m w =
      match record.decrypt P m with
      | .ok (plaintext, record') => (.ok plaintext, w.put P.toProvider name record')
      | .error e => (.error (groupDecryptCode e), w) := by
  rw [groupCipherDecrypt_create, groupCipherDecrypt_answering hr]

theorem groupCipherDecrypt_of_error {e : SgError}
    (hr : (w.record P.toProvider name : Except SgError (SenderKeyRecord Priv Pub B)) = .error e) :
    groupCipherDecrypt P (GroupCipher.create name) m w = (.error (groupDecryptCode e), w) := by
  rw [groupCipherDecrypt_create, groupCipherDecrypt_answering_of_error hr]

end Decrypt

/-! ## 4. Encrypting -/

/-- **What `group_cipher_encrypt` sends**: the plaintext under the key of the chain, signed. -/
structure GroupSent (P : GroupProvider Priv Pub B) (keyId : UInt32) (chainKey : SenderChainKey B)
    (signingKey : Priv) (plaintext : B) (m : SenderKeyMessage B) : Prop where
  encrypted : P.encrypt .cbcPkcs5 (chainKey.createMessageKey P.toProvider).cipherKey
    (chainKey.createMessageKey P.toProvider).iv plaintext = .ok m.ciphertext
  signed : ∃ random, m = .signedWith P keyId chainKey.iteration m.ciphertext
    (P.calculateSignature signingKey
      (senderKeyMessageSigned P keyId chainKey.iteration m.ciphertext) random)

theorem GroupSent.keyId {P : GroupProvider Priv Pub B} {keyId : UInt32}
    {chainKey : SenderChainKey B} {signingKey : Priv} {plaintext : B} {m : SenderKeyMessage B}
    (h : GroupSent P keyId chainKey signingKey plaintext m) : m.keyId = keyId := by
  obtain ⟨random, hm⟩ := h.signed
  rw [hm]
  rfl

theorem GroupSent.iteration {P : GroupProvider Priv Pub B} {keyId : UInt32}
    {chainKey : SenderChainKey B} {signingKey : Priv} {plaintext : B} {m : SenderKeyMessage B}
    (h : GroupSent P keyId chainKey signingKey plaintext m) :
    m.iteration = chainKey.iteration := by
  obtain ⟨random, hm⟩ := h.signed
  rw [hm]
  rfl

theorem GroupSent.verifySignature {P : GroupProvider Priv Pub B} {keyId : UInt32}
    {chainKey : SenderChainKey B} {signingKey : Priv} {plaintext : B} {m : SenderKeyMessage B}
    (h : GroupSent P keyId chainKey signingKey plaintext m) :
    m.verifySignature P (P.publicKey signingKey) = .ok () := by
  obtain ⟨random, hm⟩ := h.signed
  rw [hm]
  exact SenderKeyMessage.verifySignature_signedWith ..

section Encrypt

variable [DecidableEq Name] {ctx : GroupContext Priv Pub B} {name : Name}
  {w w' : GroupWorld Name B} {plaintext : B}

/-- An encryption without a sender key fails and stores nothing. -/
theorem groupCipherEncrypt_of_empty (hr : w.record ctx.provider.toProvider name = .ok ⟨[]⟩) :
    groupCipherEncrypt ctx (GroupCipher.create name) plaintext w = (.error .noSession, w) := by
  rw [groupCipherEncrypt]
  simp only [Op.mapError, Op.bind_apply, GroupCipher.create, Op.require, if_true, Op.pure_apply,
    senderKeyLoad_of_record hr]
  rfl

/-- **Encrypting** sends the message of the chain's iteration and moves the chain on, or fails
and stores nothing. -/
theorem groupCipherEncrypt_cases {state : SenderKeyState Priv Pub B}
    {rest : List (SenderKeyState Priv Pub B)} {signingKey : Priv}
    {r : Except SgError (SenderKeyMessage B)}
    (hr : w.record ctx.provider.toProvider name = .ok ⟨state :: rest⟩)
    (hk : state.signaturePrivateKey = some signingKey)
    (h : groupCipherEncrypt ctx (GroupCipher.create name) plaintext w = (r, w')) :
    ((∃ e, r = .error e) ∧ w'.senderKeys = w.senderKeys) ∨
    ∃ m, r = .ok m ∧ GroupSent ctx.provider state.keyId state.chainKey signingKey plaintext m ∧
      w'.senderKeys = (w.put ctx.provider.toProvider name
        ⟨{ state with chainKey := state.chainKey.createNext ctx.provider.toProvider } ::
          rest⟩).senderKeys := by
  rw [groupCipherEncrypt] at h
  obtain ⟨r', hx, hr'⟩ := Op.mapError_cases h
  have hreq : (Op.require ((GroupCipher.create name : GroupCipher Name B).insideCallback = false)
      .inval : Op SgError (GroupWorld Name B) Unit) w = (.ok (), w) := rfl
  have hfirst : (Op.ofExcept (SenderKeyRecord.getSenderKeyState ⟨state :: rest⟩) :
      Op SgError (GroupWorld Name B) _) w = (.ok state, w) := rfl
  have hload : signalProtocolSenderKeyLoadKey ctx.provider.toProvider
      (GroupCipher.create name : GroupCipher Name B).senderKeyId w = (.ok ⟨state :: rest⟩, w) :=
    senderKeyLoad_of_record hr
  rw [Op.bind_of_ok hreq, Op.bind_of_ok hload, Op.bind_of_ok hfirst,
    Op.bind_of_ok (Op.ofOption_ok_iff.2 ⟨hk, rfl⟩)] at hx
  rcases Op.bind_cases hx with ⟨e, he, rfl⟩ | ⟨ciphertext, w₁, he, hx⟩
  · rw [Op.ofExcept_apply] at he
    injection he with _ hw
    exact Or.inl ⟨⟨_, hr'.symm⟩, congrArg GroupWorld.senderKeys hw.symm⟩
  · rw [Op.ofExcept_apply] at he
    injection he with he hw₁
    subst hw₁
    cases hs : ctx.rng.signatureRandom w.drawn with
    | error e =>
      have hcreate : groupRandom (senderKeyMessageCreate ctx.provider ctx.rng.toRng state.keyId
          (state.chainKey.createMessageKey ctx.provider.toProvider).iteration ciphertext
          signingKey) w = _ :=
        Op.zoom_of (senderKeyMessageCreate_of_error hs)
      rw [Op.bind_of_error hcreate] at hx
      cases hx
      exact Or.inl ⟨⟨_, hr'.symm⟩, rfl⟩
    | ok random =>
      have hcreate : groupRandom (senderKeyMessageCreate ctx.provider ctx.rng.toRng state.keyId
          (state.chainKey.createMessageKey ctx.provider.toProvider).iteration ciphertext
          signingKey) w = _ :=
        Op.zoom_of (senderKeyMessageCreate_of_ok hs)
      rw [Op.bind_of_ok hcreate] at hx
      cases hx
      cases hr'
      exact Or.inr ⟨_, rfl, ⟨he, random, rfl⟩, rfl⟩

end Encrypt

/-! ## 5. Creating a session -/

theorem groupRandom_senderKeys {α : Type} {w w' : GroupWorld Name B} {x : Op SgError Nat α}
    {r : Except SgError α}
    (h : groupRandom x w = (r, w')) : w'.senderKeys = w.senderKeys := by
  injection h with _ hw
  rw [← hw]

section Create

variable [DecidableEq Name] {ctx : GroupContext Priv Pub B} {name : Name}
  {w w' : GroupWorld Name B}

/-- **With a sender key**, creating a session describes it and changes nothing. -/
theorem createSession_of_state {state : SenderKeyState Priv Pub B}
    {rest : List (SenderKeyState Priv Pub B)}
    (hr : w.record ctx.provider.toProvider name = .ok ⟨state :: rest⟩) :
    groupSessionBuilderCreateSession ctx name w = (.ok state.distribution, w) := by
  rw [groupSessionBuilderCreateSession, Op.bind_of_ok (senderKeyLoad_of_record hr)]
  rfl

/-- A sender key is made at iteration 0 and stored, or nothing is stored. -/
theorem createSenderKey_cases {r : Except SgError (SenderKeyRecord Priv Pub B)}
    (h : createSenderKey ctx name ⟨[]⟩ w = (r, w')) :
    ((∃ e, r = .error e) ∧ w'.senderKeys = w.senderKeys) ∨
    ∃ keyId seed signingKey,
      let state := SenderKeyState.create keyId ⟨0, seed⟩ (ctx.provider.publicKey signingKey)
        (some signingKey)
      r = .ok ⟨[state]⟩ ∧
        w'.senderKeys = (w.put ctx.provider.toProvider name ⟨[state]⟩).senderKeys ∧
        (∃ n, ctx.rng.senderKey n = .ok seed) ∧ ∃ n, ctx.rng.privateKey n = .ok signingKey := by
  rw [createSenderKey] at h
  rcases Op.bind_cases h with ⟨e, hid, rfl⟩ | ⟨keyId, w₁, hid, h⟩
  · exact Or.inl ⟨⟨e, rfl⟩, groupRandom_senderKeys hid⟩
  rcases Op.bind_cases h with ⟨e, hseed, rfl⟩ | ⟨seed, w₂, hseed, h⟩
  · exact Or.inl ⟨⟨e, rfl⟩, (groupRandom_senderKeys hseed).trans (groupRandom_senderKeys hid)⟩
  have hw₂ : w₂.senderKeys = w.senderKeys :=
    (groupRandom_senderKeys hseed).trans (groupRandom_senderKeys hid)
  cases hk : ctx.rng.privateKey w₂.drawn with
  | error e =>
    have hpair : groupRandom (curveGenerateKeyPair ctx.provider.toProvider ctx.rng.toRng) w₂ = _ :=
      Op.zoom_of (curveGenerateKeyPair_of_error hk)
    rw [Op.bind_of_error hpair] at h
    cases h
    exact Or.inl ⟨⟨e, rfl⟩, hw₂⟩
  | ok signingKey =>
    have hpair : groupRandom (curveGenerateKeyPair ctx.provider.toProvider ctx.rng.toRng) w₂ = _ :=
      Op.zoom_of (curveGenerateKeyPair_of_ok hk)
    rw [Op.bind_of_ok hpair] at h
    cases h
    refine Or.inr ⟨keyId, seed, signingKey, rfl, ?_, ⟨w₁.drawn, ?_⟩, w₂.drawn, hk⟩
    · rw [GroupWorld.put]
      dsimp only
      rw [hw₂]
      rfl
    · injection hseed

/-- **Without one**, it makes a sender key at iteration 0 and describes it, or fails and stores
nothing. -/
theorem createSession_of_empty {r : Except SgError (SenderKeyDistributionMessage Pub B)}
    (hr : w.record ctx.provider.toProvider name = .ok ⟨[]⟩)
    (h : groupSessionBuilderCreateSession ctx name w = (r, w')) :
    ((∃ e, r = .error e) ∧ w'.senderKeys = w.senderKeys) ∨
    ∃ keyId seed signingKey,
      let state := SenderKeyState.create keyId ⟨0, seed⟩ (ctx.provider.publicKey signingKey)
        (some signingKey)
      r = .ok state.distribution ∧
        w'.senderKeys = (w.put ctx.provider.toProvider name ⟨[state]⟩).senderKeys ∧
        (∃ n, ctx.rng.senderKey n = .ok seed) ∧ ∃ n, ctx.rng.privateKey n = .ok signingKey := by
  have hempty : (⟨[]⟩ : SenderKeyRecord Priv Pub B).isEmpty = true := rfl
  rw [groupSessionBuilderCreateSession, Op.bind_of_ok (senderKeyLoad_of_record hr),
    if_pos hempty] at h
  rcases Op.bind_cases h with ⟨e, he, rfl⟩ | ⟨record, w₁, hmake, h⟩
  · rcases createSenderKey_cases he with hfail | ⟨_, _, _, hok, _⟩
    · exact Or.inl ⟨⟨e, rfl⟩, hfail.2⟩
    · cases hok
  · rcases createSenderKey_cases hmake with ⟨⟨_, hfail⟩, _⟩ | ⟨keyId, seed, signingKey, hok, hw₁⟩
    · cases hfail
    · cases hok
      cases h
      exact Or.inr ⟨keyId, seed, signingKey, rfl, hw₁⟩

end Create

end SignalProtocol
