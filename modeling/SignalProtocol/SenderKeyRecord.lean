/-
# Sender keys (`sender_key.c`, `sender_key_state.c`, `sender_key_record.c`)

A sender key is a chain: each iteration gives the keys of one message and the next iteration.
A `SenderKeyState` holds the chain where it stands, the message keys of the iterations that
were skipped, and the signing key.  A `SenderKeyRecord` holds up to five states, newest first.

A record is stored as its protobuf structure, with the seeds of the message keys only.
`SenderKeyRecord.deserialize_serialize` says that a record whose states respect the limit on
message keys is read back as it was.  Every record that calls can make is one, and the last
section says which states it holds.
-/
import SignalProtocol.Refine

namespace SignalProtocol

variable {Priv Pub B : Type}

/-! ## 1. Chain keys and message keys -/

/-- `sender_message_key`. -/
structure SenderMessageKey (B : Type) where
  iteration : UInt32
  iv : B
  cipherKey : B
  seed : B
  deriving DecidableEq, Repr

/-- `sender_chain_key`. -/
structure SenderChainKey (B : Type) where
  iteration : UInt32
  chainKey : B
  deriving DecidableEq, Repr

section Keys

variable (P : Provider Priv Pub B)

/-- The secrets that `sender_message_key_create` derives, from an offset on. -/
def senderMessageKeySecrets (seed : B) : Nat → Nat → B :=
  P.hkdfDeriveSecrets ⟨1⟩ [seed] (P.fill 0 32) .whisperGroup 48

/-- `sender_message_key_create`: the initialisation vector and the cipher key are derived from
the seed. -/
def senderMessageKeyCreate (iteration : UInt32) (seed : B) : SenderMessageKey B where
  iteration := iteration
  iv := senderMessageKeySecrets P seed 0 16
  cipherKey := senderMessageKeySecrets P seed 16 32
  seed := seed

/-- The key was made by `sender_message_key_create`. -/
def SenderMessageKey.Derived (key : SenderMessageKey B) : Prop :=
  senderMessageKeyCreate P key.iteration key.seed = key

/-- `sender_chain_key_create_message_key`. -/
def SenderChainKey.createMessageKey (key : SenderChainKey B) : SenderMessageKey B :=
  senderMessageKeyCreate P key.iteration (P.hmacSha256 key.chainKey [P.fill 0x01 1])

/-- `sender_chain_key_create_next`. -/
def SenderChainKey.createNext (key : SenderChainKey B) : SenderChainKey B :=
  ⟨key.iteration + 1, P.hmacSha256 key.chainKey [P.fill 0x02 1]⟩

theorem SenderChainKey.derived_createMessageKey (key : SenderChainKey B) :
    (key.createMessageKey P).Derived P := rfl

end Keys

/-! ## 2. States -/

/-- `MAX_MESSAGE_KEYS` of `sender_key_state.c`. -/
def senderMaxMessageKeys : Nat := 2000

/-- `sender_key_state`. -/
structure SenderKeyState (Priv Pub B : Type) where
  keyId : UInt32
  chainKey : SenderChainKey B
  signaturePublicKey : Pub
  signaturePrivateKey : Option Priv
  messageKeys : List (SenderMessageKey B)
  deriving DecidableEq

namespace SenderKeyState

/-- `sender_key_state_create`. -/
def create (keyId : UInt32) (chainKey : SenderChainKey B) (signaturePublicKey : Pub)
    (signaturePrivateKey : Option Priv) : SenderKeyState Priv Pub B :=
  ⟨keyId, chainKey, signaturePublicKey, signaturePrivateKey, []⟩

/-- `sender_key_state_has_sender_message_key`. -/
def hasSenderMessageKey (state : SenderKeyState Priv Pub B) (iteration : UInt32) : Bool :=
  state.messageKeys.any fun key => key.iteration = iteration

/-- `sender_key_state_add_sender_message_key`: the oldest keys give way. -/
def addSenderMessageKey (key : SenderMessageKey B) (state : SenderKeyState Priv Pub B) :
    SenderKeyState Priv Pub B :=
  { state with messageKeys := (state.messageKeys ++ [key]).rtake senderMaxMessageKeys }

/-- `sender_key_state_remove_sender_message_key`. -/
def removeSenderMessageKey (iteration : UInt32) (state : SenderKeyState Priv Pub B) :
    Option (SenderMessageKey B) × SenderKeyState Priv Pub B :=
  (state.messageKeys.find? fun key => key.iteration = iteration,
    { state with messageKeys := state.messageKeys.eraseP fun key => key.iteration = iteration })

end SenderKeyState

/-! ## 3. Records -/

/-- `MAX_STATES` of `sender_key_record.c`. -/
def maxStates : Nat := 5

/-- `sender_key_record`. -/
structure SenderKeyRecord (Priv Pub B : Type) where
  states : List (SenderKeyState Priv Pub B)
  deriving DecidableEq

namespace SenderKeyRecord

/-- `sender_key_record_is_empty`. -/
def isEmpty (record : SenderKeyRecord Priv Pub B) : Bool := record.states.isEmpty

/-- `sender_key_record_get_sender_key_state`. -/
def getSenderKeyState (record : SenderKeyRecord Priv Pub B) :
    Except SgError (SenderKeyState Priv Pub B) :=
  match record.states with
  | state :: _ => .ok state
  | [] => .error .invalidKeyId

/-- `sender_key_record_get_sender_key_state_by_id`: the first state with the id. -/
def getSenderKeyStateById (record : SenderKeyRecord Priv Pub B) (keyId : UInt32) :
    Except SgError (SenderKeyState Priv Pub B) :=
  match record.states.find? fun state => state.keyId = keyId with
  | some state => .ok state
  | none => .error .invalidKeyId

/-- A state is changed where it stands in the record: the first one with its id. -/
def setStateById (keyId : UInt32) (state : SenderKeyState Priv Pub B)
    (record : SenderKeyRecord Priv Pub B) : SenderKeyRecord Priv Pub B :=
  ⟨modifyFirst (fun s => s.keyId = keyId) (fun _ => state) record.states⟩

/-- The first state is changed where it stands. -/
def setFirstState (state : SenderKeyState Priv Pub B) (record : SenderKeyRecord Priv Pub B) :
    SenderKeyRecord Priv Pub B :=
  ⟨state :: record.states.tail⟩

/-- `sender_key_record_add_sender_key_state_impl`: a new state in front; the oldest give
way. -/
def addSenderKeyStateImpl (id iteration : UInt32) (chainKey : B) (signaturePublicKey : Pub)
    (signaturePrivateKey : Option Priv) (record : SenderKeyRecord Priv Pub B) :
    SenderKeyRecord Priv Pub B :=
  ⟨(.create id ⟨iteration, chainKey⟩ signaturePublicKey signaturePrivateKey ::
    record.states).take maxStates⟩

/-- `sender_key_record_add_sender_key_state`. -/
def addSenderKeyState (id iteration : UInt32) (chainKey : B) (signatureKey : Pub)
    (record : SenderKeyRecord Priv Pub B) : SenderKeyRecord Priv Pub B :=
  record.addSenderKeyStateImpl id iteration chainKey signatureKey none

/-- `sender_key_record_set_sender_key_state`: all other states go. -/
def setSenderKeyState (id iteration : UInt32) (chainKey : B) (pair : EcKeyPair Priv Pub)
    (_record : SenderKeyRecord Priv Pub B) : SenderKeyRecord Priv Pub B :=
  addSenderKeyStateImpl id iteration chainKey pair.publicKey (some pair.privateKey) ⟨[]⟩

end SenderKeyRecord

/-! ## 4. Stored records -/

/-- `Textsecure__SenderKeyStateStructure`; a field is present iff it is `some`.  The chain key
and each message key are an iteration and a seed, the signing key a public and a private
part. -/
structure SenderKeyStateStructure (B : Type) where
  senderKeyId : Option UInt32
  senderChainKey : Option (Option UInt32 × Option B)
  senderSigningKey : Option (Option B × Option B)
  senderMessageKeys : List (Option UInt32 × Option B)
  deriving DecidableEq

/-- `sender_key_state_serialize_prepare`. -/
def SenderKeyState.serialize (P : Provider Priv Pub B) (state : SenderKeyState Priv Pub B) :
    SenderKeyStateStructure B where
  senderKeyId := some state.keyId
  senderChainKey := some (some state.chainKey.iteration, some state.chainKey.chainKey)
  senderSigningKey := some
    (some (P.encodePoint state.signaturePublicKey),
      state.signaturePrivateKey.map P.encodePrivate)
  senderMessageKeys := state.messageKeys.map fun key => (some key.iteration, some key.seed)

/-- A stored message key with a part missing is passed over. -/
def decodeMessageKey (P : Provider Priv Pub B) :
    Option UInt32 × Option B → Option (SenderMessageKey B)
  | (some iteration, some seed) => some (senderMessageKeyCreate P iteration seed)
  | _ => none

/-- `sender_key_state_deserialize_protobuf`. -/
def SenderKeyStateStructure.deserialize (P : Provider Priv Pub B)
    (s : SenderKeyStateStructure B) : Except SgError (SenderKeyState Priv Pub B) := do
  let chainKey : Option (SenderChainKey B) :=
    match s.senderChainKey with
    | some (some iteration, some seed) => some ⟨iteration, seed⟩
    | _ => none
  let signaturePublicKey ←
    decodeOptional P.decodePoint (s.senderSigningKey.bind fun key => key.1)
  let signaturePrivateKey ←
    decodeOptional P.decodePrivate (s.senderSigningKey.bind fun key => key.2)
  match s.senderKeyId, chainKey, signaturePublicKey with
  | some keyId, some chainKey, some signaturePublicKey =>
    return (s.senderMessageKeys.filterMap (decodeMessageKey P)).foldl
      (fun state key => state.addSenderMessageKey key)
      (.create keyId chainKey signaturePublicKey signaturePrivateKey)
  | _, _, _ => throw .invalidProtoBuf

/-- `sender_key_record_serialize`. -/
def SenderKeyRecord.serialize (P : Provider Priv Pub B) (record : SenderKeyRecord Priv Pub B) :
    List (SenderKeyStateStructure B) :=
  record.states.map (SenderKeyState.serialize P)

/-- `sender_key_record_deserialize`. -/
def senderKeyRecordDeserialize (P : Provider Priv Pub B)
    (stored : List (SenderKeyStateStructure B)) :
    Except SgError (SenderKeyRecord Priv Pub B) := do
  let states ← stored.mapM (SenderKeyStateStructure.deserialize P)
  return ⟨states⟩

/-! ## 5. Reading back -/

namespace SenderKeyState

/-- Adding keys one after another keeps the last ones. -/
theorem foldl_addSenderMessageKey (keys : List (SenderMessageKey B))
    (state : SenderKeyState Priv Pub B)
    (h : state.messageKeys.length ≤ senderMaxMessageKeys) :
    keys.foldl (fun state key => state.addSenderMessageKey key) state =
      { state with messageKeys := (state.messageKeys ++ keys).rtake senderMaxMessageKeys } := by
  induction keys generalizing state with
  | nil => simp only [List.foldl_nil, List.append_nil, Session.rtake_of_length_le h]
  | cons key keys ih =>
    rw [List.foldl_cons, ih _ (Session.length_rtake_le ..)]
    simp only [addSenderMessageKey, rtake_append_rtake, List.append_assoc, List.singleton_append]

/-- A state that can be stored: it respects the limit on message keys, and its keys were made
by `sender_message_key_create`. -/
structure Storable (P : Provider Priv Pub B) (state : SenderKeyState Priv Pub B) : Prop where
  limit : state.messageKeys.length ≤ senderMaxMessageKeys
  derived : ∀ key ∈ state.messageKeys, key.Derived P

namespace Storable

variable {P : Provider Priv Pub B} {state : SenderKeyState Priv Pub B}

theorem create (P : Provider Priv Pub B) (keyId : UInt32) (chainKey : SenderChainKey B)
    (signaturePublicKey : Pub) (signaturePrivateKey : Option Priv) :
    (SenderKeyState.create keyId chainKey signaturePublicKey signaturePrivateKey).Storable P :=
  ⟨Nat.zero_le _, fun _ h => absurd h List.not_mem_nil⟩

theorem addSenderMessageKey (h : state.Storable P) {key : SenderMessageKey B}
    (hkey : key.Derived P) : (state.addSenderMessageKey key).Storable P := by
  have hlimit : (state.addSenderMessageKey key).messageKeys.length ≤ senderMaxMessageKeys := by
    rw [SenderKeyState.addSenderMessageKey]
    dsimp only
    exact Session.length_rtake_le senderMaxMessageKeys (state.messageKeys ++ [key])
  refine ⟨hlimit, fun other hother => ?_⟩
  rw [SenderKeyState.addSenderMessageKey] at hother
  dsimp only at hother
  have hmem : other ∈ state.messageKeys ++ [key] := Window.mem_of_mem_rtake hother
  rcases List.mem_append.1 hmem with hmem | hmem
  · exact h.derived other hmem
  · exact List.mem_singleton.1 hmem ▸ hkey

theorem foldl_addSenderMessageKey (keys : List (SenderMessageKey B)) :
    ∀ {state : SenderKeyState Priv Pub B}, state.Storable P → (∀ key ∈ keys, key.Derived P) →
      (keys.foldl (fun state key => state.addSenderMessageKey key) state).Storable P := by
  induction keys with
  | nil => exact fun h _ => h
  | cons key keys ih =>
    intro state h hkeys
    rw [List.foldl_cons]
    exact ih (h.addSenderMessageKey (hkeys key List.mem_cons_self))
      fun other hother => hkeys other (List.mem_cons_of_mem _ hother)

theorem removeSenderMessageKey (h : state.Storable P) (iteration : UInt32) :
    (state.removeSenderMessageKey iteration).2.Storable P :=
  ⟨(List.eraseP_sublist.length_le).trans h.limit,
    fun key hkey => h.derived key (List.mem_of_mem_eraseP hkey)⟩

theorem withChainKey (h : state.Storable P) (chainKey : SenderChainKey B) :
    Storable P { state with chainKey := chainKey } := ⟨h.limit, h.derived⟩

end Storable

/-- **A state reads back**, if it can be stored. -/
theorem deserialize_serialize {P : Provider Priv Pub B} {state : SenderKeyState Priv Pub B}
    (h : state.Storable P) : (state.serialize P).deserialize P = .ok state := by
  obtain ⟨keyId, ⟨iteration, seed⟩, signaturePublicKey, signaturePrivateKey, messageKeys⟩ := state
  have hkeys : (messageKeys.map fun key => (some key.iteration, some key.seed)).filterMap
      (decodeMessageKey P) = messageKeys := by
    rw [List.filterMap_map]
    refine (List.filterMap_congr fun key hkey => ?_).trans List.filterMap_some
    exact congrArg some (h.derived key hkey)
  have hprivate : decodeOptional P.decodePrivate (signaturePrivateKey.map P.encodePrivate) =
      .ok signaturePrivateKey := by
    cases signaturePrivateKey with
    | none => rfl
    | some key =>
      simp only [Option.map_some, decodeOptional, P.decodePrivate_encodePrivate]
      rfl
  have hpublic : decodeOptional P.decodePoint (some (P.encodePoint signaturePublicKey)) =
      .ok (some signaturePublicKey) := by
    simp only [decodeOptional, P.decodePoint_encodePoint]
    rfl
  simp only [serialize, SenderKeyStateStructure.deserialize, Option.bind_some, hprivate, hpublic,
    hkeys, bind, Except.bind, pure, Except.pure]
  rw [foldl_addSenderMessageKey _ _ (Nat.zero_le _)]
  simp only [create, List.nil_append, Session.rtake_of_length_le h.limit]

theorem derived_of_decodeMessageKey {P : Provider Priv Pub B}
    {stored : Option UInt32 × Option B} {key : SenderMessageKey B}
    (h : decodeMessageKey P stored = some key) : key.Derived P := by
  unfold decodeMessageKey at h
  split at h
  · cases h
    rfl
  · cases h

/-- A state that was read from a store can be stored. -/
theorem storable_of_deserialize {P : Provider Priv Pub B}
    {s : SenderKeyStateStructure B} {state : SenderKeyState Priv Pub B}
    (h : s.deserialize P = .ok state) : state.Storable P := by
  obtain ⟨publicKey, -, h⟩ := Op.exists_of_bind_eq_ok h
  obtain ⟨privateKey, -, h⟩ := Op.exists_of_bind_eq_ok h
  split at h
  · cases h
    refine Storable.foldl_addSenderMessageKey _ (Storable.create ..) fun key hkey => ?_
    obtain ⟨stored, -, hstored⟩ := List.mem_filterMap.1 hkey
    exact derived_of_decodeMessageKey hstored
  · cases h

end SenderKeyState

namespace SenderKeyRecord

/-- Every state can be stored. -/
def Storable (P : Provider Priv Pub B) (record : SenderKeyRecord Priv Pub B) : Prop :=
  ∀ state ∈ record.states, state.Storable P

/-- **A record reads back.** -/
theorem deserialize_serialize (P : Provider Priv Pub B) {record : SenderKeyRecord Priv Pub B}
    (h : record.Storable P) : senderKeyRecordDeserialize P (record.serialize P) = .ok record := by
  obtain ⟨states⟩ := record
  have hstates : (states.map (SenderKeyState.serialize P)).mapM
      (SenderKeyStateStructure.deserialize P) = .ok states := by
    induction states with
    | nil => rfl
    | cons state states ih =>
      have hstate := SenderKeyState.deserialize_serialize (h state List.mem_cons_self)
      have hrest := ih fun s hs => h s (List.mem_cons_of_mem _ hs)
      simp only [List.map_cons, List.mapM_cons, hstate, hrest]
      rfl
  simp only [senderKeyRecordDeserialize, serialize, hstates]
  rfl

end SenderKeyRecord

/-! ## 6. Histories -/

/-- A call that adds a state. -/
inductive RecordCall (Priv Pub B : Type) where
  /-- `sender_key_record_add_sender_key_state`. -/
  | add (id iteration : UInt32) (chainKey : B) (signatureKey : Pub)
  /-- `sender_key_record_set_sender_key_state`. -/
  | set (id iteration : UInt32) (chainKey : B) (pair : EcKeyPair Priv Pub)

namespace RecordCall

/-- The call on a record. -/
def apply (record : SenderKeyRecord Priv Pub B) :
    RecordCall Priv Pub B → SenderKeyRecord Priv Pub B
  | add id iteration chainKey signatureKey =>
    record.addSenderKeyState id iteration chainKey signatureKey
  | set id iteration chainKey pair => record.setSenderKeyState id iteration chainKey pair

/-- The state that the call adds. -/
def state : RecordCall Priv Pub B → SenderKeyState Priv Pub B
  | add id iteration chainKey signatureKey => .create id ⟨iteration, chainKey⟩ signatureKey none
  | set id iteration chainKey pair =>
    .create id ⟨iteration, chainKey⟩ pair.publicKey (some pair.privateKey)

/-- The calls since the last `set`, that one included.  A history has its newest call in front. -/
def sinceSet : List (RecordCall Priv Pub B) → List (RecordCall Priv Pub B)
  | [] => []
  | call@(add ..) :: older => call :: sinceSet older
  | call@(set ..) :: _ => [call]

/-- The record after a history. -/
def run : List (RecordCall Priv Pub B) → SenderKeyRecord Priv Pub B
  | [] => ⟨[]⟩
  | call :: older => call.apply (run older)

/-- **A record holds the last states that were added since the last `set`**, newest first. -/
theorem states_run (history : List (RecordCall Priv Pub B)) :
    (run history).states = ((sinceSet history).map state).take maxStates := by
  induction history with
  | nil => rfl
  | cons call older ih =>
    cases call with
    | add id iteration chainKey signatureKey =>
      have hstates : (run (add id iteration chainKey signatureKey :: older)).states =
          ((add id iteration chainKey signatureKey : RecordCall Priv Pub B).state ::
            (run older).states).take maxStates := rfl
      rw [hstates, ih, sinceSet, List.map_cons, maxStates, List.take_succ_cons,
        List.take_succ_cons, List.take_take]
      rfl
    | set id iteration chainKey pair => rfl

end RecordCall

/-- What can happen to a record and to the states in it. -/
inductive RecordStep (Priv Pub B : Type) where
  | call (c : RecordCall Priv Pub B)
  /-- `sender_key_state_set_chain_key` on the state at a place. -/
  | setChainKey (i : Nat) (chainKey : SenderChainKey B)
  /-- `sender_key_state_add_sender_message_key` with a new key. -/
  | addMessageKey (i : Nat) (iteration : UInt32) (seed : B)
  /-- `sender_key_state_remove_sender_message_key`. -/
  | removeMessageKey (i : Nat) (iteration : UInt32)

namespace RecordStep

/-- The step on a record. -/
def apply (P : Provider Priv Pub B) (record : SenderKeyRecord Priv Pub B) :
    RecordStep Priv Pub B → SenderKeyRecord Priv Pub B
  | call c => c.apply record
  | setChainKey i chainKey =>
    ⟨record.states.modify i fun state => { state with chainKey := chainKey }⟩
  | addMessageKey i iteration seed =>
    ⟨record.states.modify i fun state =>
      state.addSenderMessageKey (senderMessageKeyCreate P iteration seed)⟩
  | removeMessageKey i iteration =>
    ⟨record.states.modify i fun state => (state.removeSenderMessageKey iteration).2⟩

end RecordStep

namespace SenderKeyRecord

variable {P : Provider Priv Pub B}

/-- The state that is found under an id is the newest one with it. -/
theorem getSenderKeyStateById_ok_iff {record : SenderKeyRecord Priv Pub B} {keyId : UInt32}
    {state : SenderKeyState Priv Pub B} :
    record.getSenderKeyStateById keyId = .ok state ↔
      ∃ i : Nat, record.states[i]? = some state ∧ state.keyId = keyId ∧
        ∀ j < i, ∀ newer ∈ record.states[j]?, newer.keyId ≠ keyId := by
  have hfind : record.getSenderKeyStateById keyId = .ok state ↔
      record.states.find? (fun s => s.keyId = keyId) = some state := by
    rw [getSenderKeyStateById]
    cases record.states.find? fun s => s.keyId = keyId with
    | none => simp
    | some found => simp
  rw [hfind, List.find?_eq_some_iff_getElem]
  constructor
  · rintro ⟨hkey, i, hi, hstate, hnewer⟩
    refine ⟨i, hstate ▸ List.getElem?_eq_getElem hi, of_decide_eq_true hkey, fun j hj newer h => ?_⟩
    obtain ⟨hlt, rfl⟩ := List.getElem?_eq_some_iff.1 (Option.mem_def.1 h)
    simpa using hnewer j hj
  · rintro ⟨i, hi, hkey, hnewer⟩
    obtain ⟨hlt, hstate⟩ := List.getElem?_eq_some_iff.1 hi
    refine ⟨decide_eq_true hkey, i, hlt, hstate, fun j hj => ?_⟩
    simpa using hnewer j hj _ (List.getElem?_eq_getElem (hj.trans hlt))

theorem Storable.addSenderKeyStateImpl {record : SenderKeyRecord Priv Pub B}
    (h : record.Storable P) (id iteration : UInt32) (chainKey : B) (signaturePublicKey : Pub)
    (signaturePrivateKey : Option Priv) :
    (record.addSenderKeyStateImpl id iteration chainKey signaturePublicKey
      signaturePrivateKey).Storable P := by
  intro state hstate
  rcases List.mem_cons.1 (List.mem_of_mem_take hstate) with rfl | hstate
  · exact SenderKeyState.Storable.create ..
  · exact h state hstate

theorem Storable.modify {record : SenderKeyRecord Priv Pub B} (h : record.Storable P) (i : Nat)
    {f : SenderKeyState Priv Pub B → SenderKeyState Priv Pub B}
    (hf : ∀ state, state.Storable P → (f state).Storable P) :
    SenderKeyRecord.Storable P ⟨record.states.modify i f⟩ := by
  intro state hstate
  obtain ⟨j, hj, rfl⟩ := List.getElem_of_mem hstate
  rw [List.getElem_modify]
  split
  · exact hf _ (h _ (List.getElem_mem _))
  · exact h _ (List.getElem_mem _)

/-- **Every step leaves a record that can be stored.** -/
theorem Storable.step {record : SenderKeyRecord Priv Pub B} (h : record.Storable P)
    (step : RecordStep Priv Pub B) : (step.apply P record).Storable P := by
  cases step with
  | call c =>
    cases c with
    | add id iteration chainKey signatureKey =>
      exact h.addSenderKeyStateImpl id iteration chainKey signatureKey none
    | set id iteration chainKey pair =>
      have hempty : SenderKeyRecord.Storable P (⟨[]⟩ : SenderKeyRecord Priv Pub B) :=
        fun _ hstate => absurd hstate List.not_mem_nil
      exact hempty.addSenderKeyStateImpl id iteration chainKey pair.publicKey
        (some pair.privateKey)
  | setChainKey i chainKey => exact h.modify i fun _ hs => hs.withChainKey chainKey
  | addMessageKey i iteration seed => exact h.modify i fun _ hs => hs.addSenderMessageKey rfl
  | removeMessageKey i iteration => exact h.modify i fun _ hs => hs.removeSenderMessageKey iteration

theorem Storable.run (steps : List (RecordStep Priv Pub B)) :
    ∀ {record : SenderKeyRecord Priv Pub B}, record.Storable P →
      (steps.foldl (RecordStep.apply P) record).Storable P := by
  induction steps with
  | nil => exact fun h => h
  | cons step steps ih => exact fun h => ih (h.step step)

end SenderKeyRecord

/-- **Sender key storage.**  After any calls a record holds the at most five newest states since
the last `set`, newest first; the newest one with an id is found under it; and after any calls
and changes of the states, the record is read back from the store as it was. -/
theorem sender_key_storage (P : Provider Priv Pub B) (history : List (RecordCall Priv Pub B))
    (steps : List (RecordStep Priv Pub B)) :
    (RecordCall.run history).states =
        ((RecordCall.sinceSet history).map RecordCall.state).take maxStates ∧
      (∀ keyId state,
        (RecordCall.run history).getSenderKeyStateById keyId = .ok state ↔
          ∃ i : Nat, (RecordCall.run history).states[i]? = some state ∧ state.keyId = keyId ∧
            ∀ j < i, ∀ newer ∈ (RecordCall.run history).states[j]?, newer.keyId ≠ keyId) ∧
      senderKeyRecordDeserialize P ((steps.foldl (RecordStep.apply P) ⟨[]⟩).serialize P) =
        .ok (steps.foldl (RecordStep.apply P) ⟨[]⟩) := by
  refine ⟨RecordCall.states_run history, fun keyId state => ?_, ?_⟩
  · exact SenderKeyRecord.getSenderKeyStateById_ok_iff
  · refine SenderKeyRecord.deserialize_serialize P (SenderKeyRecord.Storable.run steps ?_)
    exact fun _ hstate => absurd hstate List.not_mem_nil

end SignalProtocol
