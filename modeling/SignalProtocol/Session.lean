/-
# The session as an object

What a session state is for, without the optional parts and machine integers of its C record:
a root key, one sending chain, and up to five receiving chains.  A chain is its first key and
a position; every later chain key and message key is a function of those two.  On the
receiving side the position is a `Window`, so that a chain is in the end a set of counters
that it may still accept.

The invariants are part of the types: a window is well formed, a session has at most five
receiving chains, and no two of them are for the same ratchet key.

The three things a session does are `Session.send`, `Session.ratchet` (adopt a new ratchet key
of the peer) and `Session.receive`.  `Session.toState` writes a session as the C record;
`Refine.lean` shows that the functions of `session_cipher.c` do on that record what the
operations here do on the session.
-/
import SignalProtocol.Cipher
import SignalProtocol.Lib.Window

namespace SignalProtocol

variable {Priv Pub B : Type}

/-! ## 1. Chains and sessions -/

/-- The sending chain: its ratchet key pair, its first chain key, and how many messages were
sent. -/
structure SendingChain (Priv Pub B : Type) where
  pair : EcKeyPair Priv Pub
  start : B
  next : Nat

/-- A receiving chain: the peer's ratchet key, the first chain key, and the counters that may
still be accepted. -/
structure ReceivingChain (Pub B : Type) where
  ratchetKey : Pub
  start : B
  window : Window maxMessageKeys

/-- **A session.** -/
structure Session (Priv Pub B : Type) where
  localIdentity : Pub
  remoteIdentity : Pub
  root : B
  previousCounter : UInt32
  sender : SendingChain Priv Pub B
  receivers : List (ReceivingChain Pub B)
  pendingKeyExchange : Option (PendingKeyExchange Priv Pub)
  pendingPreKey : Option (PendingPreKey Pub)
  remoteRegistrationId : UInt32
  localRegistrationId : UInt32
  needsRefresh : Bool
  aliceBaseKey : Option Pub
  receivers_le : receivers.length ≤ maxReceiverChains
  keys_nodup : (receivers.map ReceivingChain.ratchetKey).Nodup

namespace Session

/-- The receiving chain for a ratchet key. -/
def chainFor [DecidableEq Pub] (s : Session Priv Pub B) (key : Pub) :
    Option (ReceivingChain Pub B) :=
  s.receivers.find? fun c => c.ratchetKey = key

/-- No counter of the session has reached the end of its 32 bits. -/
structure InRange (s : Session Priv Pub B) : Prop where
  sender : s.sender.next < 2 ^ 32
  receivers : ∀ c ∈ s.receivers, c.window.next < 2 ^ 32

section Chains

variable [DecidableEq Pub]

theorem chainFor_mem {s : Session Priv Pub B} {key : Pub} {c : ReceivingChain Pub B}
    (h : s.chainFor key = some c) : c ∈ s.receivers ∧ c.ratchetKey = key :=
  ⟨List.mem_of_find?_eq_some h, by simpa using List.find?_some h⟩

theorem chainFor_none {s : Session Priv Pub B} {key : Pub} :
    s.chainFor key = none ↔ ∀ c ∈ s.receivers, c.ratchetKey ≠ key := by
  simp [chainFor]

theorem chainFor_none_iff_notMem {s : Session Priv Pub B} {key : Pub} :
    s.chainFor key = none ↔ key ∉ s.receivers.map ReceivingChain.ratchetKey := by
  rw [chainFor_none, List.mem_map]
  constructor
  · rintro h ⟨c, hc, rfl⟩
    exact h c hc rfl
  · rintro h c hc rfl
    exact h ⟨c, hc, rfl⟩

/-- The chain of a key is unique. -/
theorem chainFor_of_mem {s : Session Priv Pub B} {c : ReceivingChain Pub B}
    (h : c ∈ s.receivers) : s.chainFor c.ratchetKey = some c := by
  cases hf : s.chainFor c.ratchetKey with
  | none => exact absurd rfl (chainFor_none.1 hf c h)
  | some c' =>
    obtain ⟨hm, hk⟩ := chainFor_mem hf
    rw [List.inj_on_of_nodup_map s.keys_nodup hm h hk]

end Chains

/-! ## 2. What a session does -/

variable (P : Provider Priv Pub B)

/-- The chain that the peer's next ratchet key opens, before any message on it. -/
def newChain (s : Session Priv Pub B) (key : Pub) : ReceivingChain Pub B where
  ratchetKey := key
  start := P.ratchetStart s.root (P.agreement key s.sender.pair.privateKey)
  window := Window.empty

/-- The root key between the receiving and the sending half of a ratchet step. -/
def middleRoot (s : Session Priv Pub B) (key : Pub) : B :=
  P.ratchetRoot s.root (P.agreement key s.sender.pair.privateKey)

theorem map_rtake {α β : Type} (f : α → β) (n : Nat) (l : List α) :
    (l.rtake n).map f = (l.map f).rtake n := by
  simp only [List.rtake, List.map_drop, List.length_map]

theorem length_rtake_le {α : Type} (n : Nat) (l : List α) : (l.rtake n).length ≤ n := by
  simp only [List.rtake, List.length_drop]
  omega

theorem rtake_of_length_le {α : Type} {n : Nat} {l : List α} (h : l.length ≤ n) :
    l.rtake n = l := by
  rw [List.rtake, Nat.sub_eq_zero_of_le h, List.drop_zero]

/-- **Adopt a new ratchet key of the peer**, with a new ratchet key of our own: one receiving
and one sending step of the root chain. -/
def ratchet [DecidableEq Pub] (s : Session Priv Pub B) (key : Pub)
    (hkey : s.chainFor key = none) (ours : Priv) : Session Priv Pub B :=
  { s with
    root := P.ratchetRoot (s.middleRoot P key) (P.agreement key ours)
    previousCounter := UInt32.ofNat (s.sender.next - 1)
    sender := ⟨P.pair ours, P.ratchetStart (s.middleRoot P key) (P.agreement key ours), 0⟩
    receivers := (s.receivers ++ [s.newChain P key]).rtake maxReceiverChains
    receivers_le := length_rtake_le ..
    keys_nodup := by
      rw [map_rtake, List.map_append]
      refine List.Nodup.sublist (List.drop_sublist ..) ?_
      refine List.Nodup.append s.keys_nodup (List.nodup_singleton _) ?_
      rw [List.map_singleton, List.disjoint_singleton]
      exact chainFor_none_iff_notMem.1 hkey }

/-- Replace the window of the chain for a ratchet key. -/
def setWindow [DecidableEq Pub] (s : Session Priv Pub B) (key : Pub)
    (w : Window maxMessageKeys) : Session Priv Pub B :=
  { s with
    receivers := s.receivers.map fun c => if c.ratchetKey = key then { c with window := w } else c
    receivers_le := by rw [List.length_map]; exact s.receivers_le
    keys_nodup := by
      have h : (s.receivers.map fun c =>
          if c.ratchetKey = key then { c with window := w } else c).map
            ReceivingChain.ratchetKey = s.receivers.map ReceivingChain.ratchetKey := by
        rw [List.map_map]
        refine List.map_congr_left fun c _ => ?_
        simp only [Function.comp_apply]
        split <;> rfl
      rw [h]
      exact s.keys_nodup }

/-- The peer has answered: the pre-key message needs no repeating. -/
def acknowledge (s : Session Priv Pub B) : Session Priv Pub B := { s with pendingPreKey := none }

/-- Count one message sent. -/
def sent (s : Session Priv Pub B) : Session Priv Pub B :=
  { s with sender := { s.sender with next := s.sender.next + 1 } }

/-- The signal message that encrypts to `ciphertext` at the current position. -/
def message (s : Session Priv Pub B) (ciphertext : B) : SignalMessage Pub B :=
  SignalMessage.create P 3 (P.messageKeysAt s.sender.start s.sender.next).macKey
    s.sender.pair.publicKey (UInt32.ofNat s.sender.next) s.previousCounter ciphertext
    s.localIdentity s.remoteIdentity

/-- The message as it leaves: wrapped while the pre-key message is unacknowledged. -/
def wrap (s : Session Priv Pub B) (message : SignalMessage Pub B) :
    Except SgError (CiphertextMessage Pub B) :=
  match s.pendingPreKey with
  | none => .ok (.signal message)
  | some ⟨_, _, none⟩ => .error .unknown
  | some ⟨preKeyId, signedPreKeyId, some baseKey⟩ =>
    .ok (.preKey ⟨3, s.localRegistrationId, preKeyId, signedPreKeyId, baseKey, s.localIdentity,
      message⟩)

/-- **Send one message.** -/
def send (s : Session Priv Pub B) (plaintext : B) :
    Except SgError (CiphertextMessage Pub B × Session Priv Pub B) := do
  let keys := P.messageKeysAt s.sender.start s.sender.next
  let ciphertext ← P.encrypt .cbcPkcs5 keys.cipherKey keys.iv plaintext
  let wrapped ← s.wrap (s.message P ciphertext)
  return (wrapped, s.sent)

section Receive

variable [DecidableEq Pub] [DecidableEq B] (rng : Rng Priv B)

/-- The chain for the sender's ratchet key, opened by a ratchet step if there is none. -/
def openChain (s : Session Priv Pub B) (key : Pub) :
    Op SgError Nat (ReceivingChain Pub B × Session Priv Pub B) :=
  match h : s.chainFor key with
  | some c => pure (c, s)
  | none => do
    let ours ← draw rng.privateKey
    return (s.newChain P key, s.ratchet P key h ours)

/-- The result code for a counter a window refuses. -/
def refusalCode : Refusal → SgError
  | .spent => .duplicateMessage
  | .tooFar => .invalidMessage

/-- How far ahead of a chain a message may be. -/
def reach : Nat := 2000

/-- **Receive one message.** -/
def receive (s : Session Priv Pub B) (m : SignalMessage Pub B) :
    Op SgError Nat (B × Session Priv Pub B) := do
  Op.require (m.messageVersion = 3) .invalidMessage
  let opened ← s.openChain P rng m.senderRatchetKey
  let window ← Op.ofExcept
    ((opened.1.window.request reach m.counter.toNat).mapError refusalCode)
  let keys := P.messageKeysAt opened.1.start m.counter.toNat
  Op.require (m.verifyMac P s.remoteIdentity s.localIdentity keys.macKey = true) .invalidMessage
  let plaintext ← Op.ofExcept (P.decrypt .cbcPkcs5 keys.cipherKey keys.iv m.ciphertext)
  return (plaintext, (opened.2.setWindow m.senderRatchetKey window).acknowledge)

/-- **Receive with the first session that can**, and say where it stood. -/
def receiveAny (m : SignalMessage Pub B) :
    List (Session Priv Pub B) → Op SgError Nat (B × Session Priv Pub B × Nat)
  | [] => Op.fail .invalidMessage
  | s :: rest =>
    Op.recover .invalidMessage
      (do
        let result ← s.receive P rng m
        return (result.1, result.2, 0))
      (do
        let result ← receiveAny m rest
        return (result.1, result.2.1, result.2.2 + 1))

end Receive

end Session

/-! ## 3. The session as a C record -/

variable (P : Provider Priv Pub B)

/-- A sending chain as the code stores it. -/
def SendingChain.toChain (c : SendingChain Priv Pub B) : SenderChain Priv Pub B :=
  ⟨some c.pair, some (P.chainKeyAt c.start c.next)⟩

/-- A receiving chain as the code stores it: the skipped keys are those of the held
counters. -/
def ReceivingChain.toChain (c : ReceivingChain Pub B) : ReceiverChain Pub B :=
  ⟨some c.ratchetKey, some (P.chainKeyAt c.start c.window.next),
    c.window.held.map (P.messageKeysAt c.start)⟩

/-- **A session as the code stores it.** -/
def Session.toState (s : Session Priv Pub B) : SessionState Priv Pub B where
  sessionVersion := 3
  localIdentityPublic := some s.localIdentity
  remoteIdentityPublic := some s.remoteIdentity
  rootKey := some ⟨kdf3, s.root⟩
  previousCounter := s.previousCounter
  senderChain := some (s.sender.toChain P)
  receiverChains := s.receivers.map (ReceivingChain.toChain P)
  pendingKeyExchange := s.pendingKeyExchange
  pendingPreKey := s.pendingPreKey
  remoteRegistrationId := s.remoteRegistrationId
  localRegistrationId := s.localRegistrationId
  needsRefresh := s.needsRefresh
  aliceBaseKey := s.aliceBaseKey

/-- **A session survives storage**: its keys all use the version-3 derivation. -/
theorem Session.storable_toState (s : Session Priv Pub B) : (s.toState P).Storable P where
  rootKey := by
    rintro k ⟨⟩
    rfl
  senderChain := by
    rintro c ⟨⟩ k ⟨⟩
    rfl
  receiverChains := by
    intro c hc k hk
    obtain ⟨c, -, rfl⟩ := List.mem_map.1 hc
    cases hk
    rfl
  messageKeys := by
    intro c hc k hk
    obtain ⟨c, -, rfl⟩ := List.mem_map.1 hc
    obtain ⟨n, -, rfl⟩ := List.mem_map.1 hk
    exact Provider.len_messageKeysAt c.start n

end SignalProtocol
