/-
# The session state (`session_state.c`)

A session state is a record with many optional parts.  The C code tests pointers and `has_`
flags before it uses them, so the model keeps every part optional and the functions below
fail where the code finds a part missing.  Two representation choices:

* `has_sender_chain`, `has_pending_key_exchange` and `has_pending_pre_key` with their records
  become one `Option` each.  While a flag is 0 its record is all zero (`session_state_create`
  and `session_state_clear_unacknowledged_pre_key_message` clear it), which is what `none`
  says;
* the doubly linked lists of receiver chains and of skipped message keys become lists, oldest
  first (`DL_APPEND` puts the new node last and the limits delete from the head).

The message keys of the sender chain are left out: no function ever adds one.
-/
import SignalProtocol.Ratchet
import Mathlib.Data.List.DropRight

namespace SignalProtocol

variable {Priv Pub B : Type}

/-! ## 1. Changing the first match in a list -/

/-- Change the first element that satisfies `p`, as a write through the pointer that a search
of a linked list returned. -/
def modifyFirst {α : Type} (p : α → Bool) (f : α → α) : List α → List α
  | [] => []
  | a :: l => if p a then f a :: l else a :: modifyFirst p f l

@[simp] theorem length_modifyFirst {α : Type} (p : α → Bool) (f : α → α) :
    ∀ l : List α, (modifyFirst p f l).length = l.length
  | [] => rfl
  | a :: l => by
    unfold modifyFirst
    split
    · rfl
    · rw [List.length_cons, length_modifyFirst p f l, List.length_cons]

theorem mem_modifyFirst {α : Type} {p : α → Bool} {f : α → α} {b : α} :
    ∀ {l : List α}, b ∈ modifyFirst p f l → b ∈ l ∨ ∃ a ∈ l, b = f a
  | a :: l, h => by
    rw [modifyFirst] at h
    split at h
    · rcases List.mem_cons.1 h with rfl | h
      · exact Or.inr ⟨a, List.mem_cons_self, rfl⟩
      · exact Or.inl (List.mem_cons_of_mem _ h)
    · rcases List.mem_cons.1 h with rfl | h
      · exact Or.inl List.mem_cons_self
      · rcases mem_modifyFirst h with h | ⟨c, hc, rfl⟩
        · exact Or.inl (List.mem_cons_of_mem _ h)
        · exact Or.inr ⟨c, List.mem_cons_of_mem _ hc, rfl⟩

/-! ## 2. The records -/

/-- `session_state_sender_chain`. -/
structure SenderChain (Priv Pub B : Type) where
  senderRatchetKeyPair : Option (EcKeyPair Priv Pub)
  chainKey : Option (RatchetChainKey B)
  deriving DecidableEq

/-- `session_state_receiver_chain`.  The message keys are the skipped ones, oldest first. -/
structure ReceiverChain (Pub B : Type) where
  senderRatchetKey : Option Pub
  chainKey : Option (RatchetChainKey B)
  messageKeys : List (RatchetMessageKeys B)
  deriving DecidableEq

/-- `session_pending_key_exchange`. -/
structure PendingKeyExchange (Priv Pub : Type) where
  sequence : UInt32
  localBaseKey : Option (EcKeyPair Priv Pub)
  localRatchetKey : Option (EcKeyPair Priv Pub)
  localIdentityKey : Option (EcKeyPair Priv Pub)
  deriving DecidableEq

/-- `session_pending_pre_key`. -/
structure PendingPreKey (Pub : Type) where
  preKeyId : Option UInt32
  signedPreKeyId : UInt32
  baseKey : Option Pub
  deriving DecidableEq

/-- `session_state`. -/
structure SessionState (Priv Pub B : Type) where
  sessionVersion : UInt32
  localIdentityPublic : Option Pub
  remoteIdentityPublic : Option Pub
  rootKey : Option (RatchetRootKey B)
  previousCounter : UInt32
  senderChain : Option (SenderChain Priv Pub B)
  receiverChains : List (ReceiverChain Pub B)
  pendingKeyExchange : Option (PendingKeyExchange Priv Pub)
  pendingPreKey : Option (PendingPreKey Pub)
  remoteRegistrationId : UInt32
  localRegistrationId : UInt32
  needsRefresh : Bool
  aliceBaseKey : Option Pub
  deriving DecidableEq

/-- The test of `session_state_find_receiver_chain`. -/
def ReceiverChain.isFor [DecidableEq Pub] (senderEphemeral : Pub)
    (chain : ReceiverChain Pub B) : Bool :=
  chain.senderRatchetKey = some senderEphemeral

/-- `MAX_MESSAGE_KEYS`.  Irreducible, so that no proof counts to it by accident. -/
@[irreducible] def maxMessageKeys : Nat := 2000

/-- The number of receiver chains `session_state_add_receiver_chain` keeps. -/
def maxReceiverChains : Nat := 5

namespace SessionState

/-- `session_state_create`: everything absent or zero, except for the version. -/
def create : SessionState Priv Pub B where
  sessionVersion := 2
  localIdentityPublic := none
  remoteIdentityPublic := none
  rootKey := none
  previousCounter := 0
  senderChain := none
  receiverChains := []
  pendingKeyExchange := none
  pendingPreKey := none
  remoteRegistrationId := 0
  localRegistrationId := 0
  needsRefresh := false
  aliceBaseKey := none

/-! ## 3. The sender chain -/

/-- `session_state_has_sender_chain`. -/
def hasSenderChain (state : SessionState Priv Pub B) : Bool := state.senderChain.isSome

/-- `session_state_set_sender_chain`. -/
def setSenderChain (senderRatchetKeyPair : EcKeyPair Priv Pub) (chainKey : RatchetChainKey B)
    (state : SessionState Priv Pub B) : SessionState Priv Pub B :=
  { state with senderChain := some ⟨some senderRatchetKeyPair, some chainKey⟩ }

/-- `session_state_get_sender_ratchet_key_pair`. -/
def getSenderRatchetKeyPair (state : SessionState Priv Pub B) : Option (EcKeyPair Priv Pub) :=
  state.senderChain.bind SenderChain.senderRatchetKeyPair

/-- `session_state_get_sender_ratchet_key`. -/
def getSenderRatchetKey (state : SessionState Priv Pub B) : Option Pub :=
  state.getSenderRatchetKeyPair.map EcKeyPair.publicKey

/-- `session_state_get_sender_chain_key`. -/
def getSenderChainKey (state : SessionState Priv Pub B) : Option (RatchetChainKey B) :=
  state.senderChain.bind SenderChain.chainKey

/-- `session_state_set_sender_chain_key`. -/
def setSenderChainKey (chainKey : RatchetChainKey B) (state : SessionState Priv Pub B) :
    Except SgError (SessionState Priv Pub B) :=
  match state.senderChain with
  | some chain => .ok { state with senderChain := some { chain with chainKey := some chainKey } }
  | none => .error .unknown

/-! ## 4. The receiver chains -/

/-- `session_state_add_receiver_chain`: append, then delete from the head beyond five. -/
def addReceiverChain (senderRatchetKey : Pub) (chainKey : RatchetChainKey B)
    (state : SessionState Priv Pub B) : SessionState Priv Pub B :=
  { state with
    receiverChains :=
      List.rtake (state.receiverChains ++ [⟨some senderRatchetKey, some chainKey, []⟩])
        maxReceiverChains }

section Chains

variable [DecidableEq Pub]

/-- `session_state_find_receiver_chain`. -/
def findReceiverChain (senderEphemeral : Pub) (state : SessionState Priv Pub B) :
    Option (ReceiverChain Pub B) :=
  state.receiverChains.find? (ReceiverChain.isFor senderEphemeral)

/-- `session_state_get_receiver_chain_key`. -/
def getReceiverChainKey (senderEphemeral : Pub) (state : SessionState Priv Pub B) :
    Option (RatchetChainKey B) :=
  (state.findReceiverChain senderEphemeral).bind ReceiverChain.chainKey

/-- A write through the node that `session_state_find_receiver_chain` returned. -/
def modifyReceiverChain (senderEphemeral : Pub)
    (f : ReceiverChain Pub B → ReceiverChain Pub B) (state : SessionState Priv Pub B) :
    SessionState Priv Pub B :=
  { state with
    receiverChains := modifyFirst (ReceiverChain.isFor senderEphemeral) f state.receiverChains }

/-- `session_state_set_receiver_chain_key`. -/
def setReceiverChainKey (senderEphemeral : Pub) (chainKey : RatchetChainKey B)
    (state : SessionState Priv Pub B) : Except SgError (SessionState Priv Pub B) :=
  match state.findReceiverChain senderEphemeral with
  | none => .error .unknown
  | some _ => .ok (state.modifyReceiverChain senderEphemeral fun chain =>
      { chain with chainKey := some chainKey })

/-- `session_state_remove_message_keys`: `none` stands for the result 0, which changes
nothing. -/
def removeMessageKeys (senderEphemeral : Pub) (counter : UInt32)
    (state : SessionState Priv Pub B) :
    Option (RatchetMessageKeys B × SessionState Priv Pub B) := do
  let chain ← state.findReceiverChain senderEphemeral
  let keys ← chain.messageKeys.find? fun k => k.counter = counter
  return (keys, state.modifyReceiverChain senderEphemeral fun chain =>
    { chain with messageKeys := chain.messageKeys.eraseP fun k => k.counter = counter })

/-- `session_state_set_message_keys`: append, then delete from the head beyond 2000.  Without
a chain for the key the call succeeds and does nothing. -/
def setMessageKeys (senderEphemeral : Pub) (messageKeys : RatchetMessageKeys B)
    (state : SessionState Priv Pub B) : SessionState Priv Pub B :=
  state.modifyReceiverChain senderEphemeral fun chain =>
    { chain with messageKeys := (chain.messageKeys ++ [messageKeys]).rtake maxMessageKeys }

end Chains

/-! ## 5. Pending exchanges -/

/-- `session_state_set_pending_key_exchange`. -/
def setPendingKeyExchange (sequence : UInt32) (ourBaseKey ourRatchetKey ourIdentityKey :
    EcKeyPair Priv Pub) (state : SessionState Priv Pub B) : SessionState Priv Pub B :=
  { state with
    pendingKeyExchange :=
      some ⟨sequence, some ourBaseKey, some ourRatchetKey, some ourIdentityKey⟩ }

/-- `session_state_set_unacknowledged_pre_key_message`. -/
def setUnacknowledgedPreKeyMessage (preKeyId : Option UInt32) (signedPreKeyId : UInt32)
    (baseKey : Pub) (state : SessionState Priv Pub B) : SessionState Priv Pub B :=
  { state with pendingPreKey := some ⟨preKeyId, signedPreKeyId, some baseKey⟩ }

/-- `session_state_clear_unacknowledged_pre_key_message`. -/
def clearUnacknowledgedPreKeyMessage (state : SessionState Priv Pub B) :
    SessionState Priv Pub B :=
  { state with pendingPreKey := none }

end SessionState

end SignalProtocol
