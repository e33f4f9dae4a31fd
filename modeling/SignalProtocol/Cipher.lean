/-
# The session cipher (`ratcheting_session_*_initialize`, `session_cipher.c`)

Section 1 sets a state up for one of the two roles; section 2 finds or derives the keys of one
message; section 3 decrypts against one state and then against all states of a record;
section 4 is the interface.

A function that the C code lets work on a private copy of a state takes the state and returns
it.  It runs over the random position only, so that no store can change below the interface.
A step that fails leaves its copy behind to be freed, and what it has made of it with it
(`Op.onCopy`).

From the search over the states on, the functions are written as programs, cut where another
thread may come in: at every callback into a store, at every draw from the random source and at
every `signal_lock` and `signal_unlock`.  These are the definitions under `Threaded`.  The
operation of the same name is what such a program does when no other thread is there.
-/
import SignalProtocol.Store

namespace SignalProtocol

variable {Addr Priv Pub B : Type}

/-! ## 1. Setting up a session -/

/-- `ratcheting_session_alice_initialize`. -/
def ratchetingSessionAliceInitialize (P : Provider Priv Pub B) (rng : Rng Priv B)
    (state : SessionState Priv Pub B) (parameters : AliceParameters Priv Pub) :
    Op SgError Nat (SessionState Priv Pub B) := do
  let sendingRatchetKey ← curveGenerateKeyPair P rng
  let derived := ratchetingSessionCalculateDerivedKeys P (parameters.secret P)
  let sending := derived.1.createChain P parameters.theirRatchetKey sendingRatchetKey.privateKey
  let state := { state with
    sessionVersion := ciphertextCurrentVersion.toUInt32
    remoteIdentityPublic := some parameters.theirIdentityKey
    localIdentityPublic := some parameters.ourIdentityKey.publicKey }
  let state := state.addReceiverChain parameters.theirRatchetKey derived.2
  let state := state.setSenderChain sendingRatchetKey sending.2
  return { state with rootKey := some sending.1 }

/-- `ratcheting_session_bob_initialize`.  It draws nothing and does not fail. -/
def ratchetingSessionBobInitialize (P : Provider Priv Pub B) (state : SessionState Priv Pub B)
    (parameters : BobParameters Priv Pub) : SessionState Priv Pub B :=
  let derived := ratchetingSessionCalculateDerivedKeys P (parameters.secret P)
  let state := { state with
    sessionVersion := ciphertextCurrentVersion.toUInt32
    remoteIdentityPublic := some parameters.theirIdentityKey
    localIdentityPublic := some parameters.ourIdentityKey.publicKey }
  let state := state.setSenderChain parameters.ourRatchetKey derived.2
  { state with rootKey := some derived.1 }

/-- `ratcheting_session_symmetric_is_alice`: the smaller base key plays Alice. -/
def ratchetingSessionSymmetricIsAlice [LinearOrder Pub]
    (parameters : SymmetricParameters Priv Pub) : Bool :=
  parameters.ourBaseKey.publicKey < parameters.theirBaseKey

/-- The parameters with which `ratcheting_session_symmetric_initialize` plays Alice. -/
def SymmetricParameters.asAlice (parameters : SymmetricParameters Priv Pub) :
    AliceParameters Priv Pub where
  ourIdentityKey := parameters.ourIdentityKey
  ourBaseKey := parameters.ourBaseKey
  theirIdentityKey := parameters.theirIdentityKey
  theirSignedPreKey := parameters.theirBaseKey
  theirOneTimePreKey := none
  theirRatchetKey := parameters.theirRatchetKey

/-- The parameters with which `ratcheting_session_symmetric_initialize` plays Bob. -/
def SymmetricParameters.asBob (parameters : SymmetricParameters Priv Pub) :
    BobParameters Priv Pub where
  ourIdentityKey := parameters.ourIdentityKey
  ourSignedPreKey := parameters.ourBaseKey
  ourOneTimePreKey := none
  ourRatchetKey := parameters.ourRatchetKey
  theirIdentityKey := parameters.theirIdentityKey
  theirBaseKey := parameters.theirBaseKey

/-- `ratcheting_session_symmetric_initialize`. -/
def ratchetingSessionSymmetricInitialize [LinearOrder Pub] (P : Provider Priv Pub B)
    (rng : Rng Priv B) (state : SessionState Priv Pub B)
    (parameters : SymmetricParameters Priv Pub) : Op SgError Nat (SessionState Priv Pub B) :=
  if ratchetingSessionSymmetricIsAlice parameters then
    ratchetingSessionAliceInitialize P rng state parameters.asAlice
  else
    return ratchetingSessionBobInitialize P state parameters.asBob

section Cipher

variable [DecidableEq Pub] [DecidableEq B]

/-! ## 2. The keys of one message -/

/-- `session_cipher_get_or_create_chain_key`: the receiver chain of the sender's ratchet key,
or one step of the root chain in both directions. -/
def sessionCipherGetOrCreateChainKey (P : Provider Priv Pub B) (rng : Rng Priv B)
    (state : SessionState Priv Pub B) (theirEphemeral : Pub) :
    Op SgError Nat (RatchetChainKey B × SessionState Priv Pub B) :=
  match state.getReceiverChainKey theirEphemeral with
  | some chainKey => return (chainKey, state)
  | none => do
    let rootKey ← Op.ofOption .unknown state.rootKey
    let ourEphemeral ← Op.ofOption .unknown state.getSenderRatchetKeyPair
    let receiver := rootKey.createChain P theirEphemeral ourEphemeral.privateKey
    let ourNewEphemeral ← curveGenerateKeyPair P rng
    let sender := receiver.1.createChain P theirEphemeral ourNewEphemeral.privateKey
    let state := { state with rootKey := some sender.1 }
    let state := state.addReceiverChain theirEphemeral receiver.2
    let previousSenderChainKey ← Op.ofOption .unknown state.getSenderChainKey
    let index := previousSenderChainKey.index
    let state := { state with previousCounter := if index > 0 then index - 1 else index }
    let state := state.setSenderChain ourNewEphemeral sender.2
    return (receiver.2, state)

/-- The loop of `session_cipher_get_or_create_message_keys`: set message keys aside until the
chain key has the wanted index.  `fuel` bounds the number of rounds. -/
def skipMessageKeys (P : Provider Priv Pub B) (theirEphemeral : Pub) (counter : UInt32) :
    Nat → RatchetChainKey B → SessionState Priv Pub B →
      RatchetChainKey B × SessionState Priv Pub B
  | 0, chainKey, state => (chainKey, state)
  | fuel + 1, chainKey, state =>
    if chainKey.index < counter then
      skipMessageKeys P theirEphemeral counter fuel (chainKey.createNext P)
        (state.setMessageKeys theirEphemeral (chainKey.getMessageKeys P))
    else (chainKey, state)

/-- `session_cipher_get_or_create_message_keys`, which works on the state in place.  The loop
runs while the index is below the counter and raises it by one each round, so their difference
bounds the rounds. -/
def sessionCipherGetOrCreateMessageKeys (P : Provider Priv Pub B) (theirEphemeral : Pub)
    (chainKey : RatchetChainKey B) (counter : UInt32) :
    Op SgError (SessionState Priv Pub B) (RatchetMessageKeys B) :=
  if chainKey.index > counter then do
    let state ← Op.get
    match state.removeMessageKeys theirEphemeral counter with
    | some (keys, state) => Op.update fun _ => (keys, state)
    | none => Op.fail .duplicateMessage
  else if counter - chainKey.index > 2000 then Op.fail .invalidMessage
  else do
    let current ← Op.update <|
      skipMessageKeys P theirEphemeral counter (counter - chainKey.index).toNat chainKey
    let state ← Op.get
    let state ← Op.ofExcept (state.setReceiverChainKey theirEphemeral (current.createNext P))
    Op.update fun _ => (current.getMessageKeys P, state)

omit [DecidableEq B] in
/-- What the caller has of it, whose copy of the state goes with a failure. -/
theorem onCopy_getOrCreateMessageKeys (P : Provider Priv Pub B) (state : SessionState Priv Pub B)
    (theirEphemeral : Pub) (chainKey : RatchetChainKey B) (counter : UInt32) :
    (sessionCipherGetOrCreateMessageKeys P theirEphemeral chainKey counter).onCopy state =
      if chainKey.index > counter then
        match state.removeMessageKeys theirEphemeral counter with
        | some result => .ok result
        | none => .error .duplicateMessage
      else if counter - chainKey.index > 2000 then .error .invalidMessage
      else do
        let skipped := skipMessageKeys P theirEphemeral counter (counter - chainKey.index).toNat
          chainKey state
        let state ← skipped.2.setReceiverChainKey theirEphemeral (skipped.1.createNext P)
        return (skipped.1.getMessageKeys P, state) := by
  unfold sessionCipherGetOrCreateMessageKeys Op.onCopy
  split_ifs with hindex hfar
  · rw [Op.get_bind_apply]
    cases state.removeMessageKeys theirEphemeral counter <;> rfl
  · rfl
  · rw [Op.update_bind_apply, Op.get_bind_apply]
    dsimp only
    cases SessionState.setReceiverChainKey theirEphemeral _ _ <;> rfl

/-- `session_cipher_get_ciphertext`. -/
def sessionCipherGetCiphertext (P : Provider Priv Pub B) (version : UInt32)
    (keys : RatchetMessageKeys B) (plaintext : B) : Except SgError B :=
  if version ≥ 3 then P.encrypt .cbcPkcs5 keys.cipherKey keys.iv plaintext
  else P.encrypt .ctrNoPadding keys.cipherKey (P.counterIv keys.counter) plaintext

/-- `session_cipher_get_plaintext`. -/
def sessionCipherGetPlaintext (P : Provider Priv Pub B) (version : UInt32)
    (keys : RatchetMessageKeys B) (ciphertext : B) : Except SgError B :=
  if version ≥ 3 then P.decrypt .cbcPkcs5 keys.cipherKey keys.iv ciphertext
  else P.decrypt .ctrNoPadding keys.cipherKey (P.counterIv keys.counter) ciphertext

/-! ## 3. Decrypting against a state and against a record -/

/-- `session_cipher_decrypt_from_state_and_signal_message`. -/
def sessionCipherDecryptFromState (P : Provider Priv Pub B) (rng : Rng Priv B)
    (state : SessionState Priv Pub B) (ciphertext : SignalMessage Pub B) :
    Op SgError Nat (B × SessionState Priv Pub B) := do
  Op.require (state.hasSenderChain = true) .invalidMessage
  Op.require (ciphertext.messageVersion.toUInt32 = state.sessionVersion) .invalidMessage
  let theirEphemeral := ciphertext.senderRatchetKey
  let chain ← sessionCipherGetOrCreateChainKey P rng state theirEphemeral
  let keys ← Op.ofExcept <|
    (sessionCipherGetOrCreateMessageKeys P theirEphemeral chain.1 ciphertext.counter).onCopy chain.2
  let state := keys.2
  let remoteIdentityKey ← Op.ofOption .unknown state.remoteIdentityPublic
  let localIdentityKey ← Op.ofOption .unknown state.localIdentityPublic
  Op.require (ciphertext.verifyMac P remoteIdentityKey localIdentityKey keys.1.macKey = true)
    .invalidMessage
  let plaintext ← Op.ofExcept <|
    sessionCipherGetPlaintext P ciphertext.messageVersion.toUInt32 keys.1 ciphertext.ciphertext
  return (plaintext, state.clearUnacknowledgedPreKeyMessage)

namespace Threaded

open Program

/-- The search of `session_cipher_decrypt_from_record_and_signal_message` over the states of a
record, current state first: each is tried on a copy, and only `SG_ERR_INVALID_MESSAGE` goes
on to the next.  The result has the position of the state that accepted.  Each attempt draws at
most one key pair. -/
def sessionCipherTryStates (P : Provider Priv Pub B) (rng : Rng Priv B)
    (ciphertext : SignalMessage Pub B) :
    List (SessionState Priv Pub B) → Program SgError Nat (B × SessionState Priv Pub B × Nat)
  | [] => ofExcept (.error .invalidMessage)
  | state :: rest => do
    let copy ← ofExcept (state.copy P)
    recover .invalidMessage
      (do
        let result ← atomically (sessionCipherDecryptFromState P rng copy ciphertext)
        return (result.1, result.2, 0))
      (do
        let result ← sessionCipherTryStates P rng ciphertext rest
        return (result.1, result.2.1, result.2.2 + 1))

end Threaded

/-- The search without other threads. -/
def sessionCipherTryStates (P : Provider Priv Pub B) (rng : Rng Priv B)
    (ciphertext : SignalMessage Pub B) (states : List (SessionState Priv Pub B)) :
    Op SgError Nat (B × SessionState Priv Pub B × Nat) :=
  (Threaded.sessionCipherTryStates P rng ciphertext states).run

theorem sessionCipherTryStates_nil (P : Provider Priv Pub B) (rng : Rng Priv B)
    (ciphertext : SignalMessage Pub B) :
    sessionCipherTryStates P rng ciphertext [] = Op.fail .invalidMessage :=
  Program.run_ofExcept _

theorem sessionCipherTryStates_cons (P : Provider Priv Pub B) (rng : Rng Priv B)
    (ciphertext : SignalMessage Pub B) (state : SessionState Priv Pub B)
    (rest : List (SessionState Priv Pub B)) :
    sessionCipherTryStates P rng ciphertext (state :: rest) = (do
      let copy ← Op.ofExcept (state.copy P)
      Op.recover .invalidMessage
        (do
          let result ← sessionCipherDecryptFromState P rng copy ciphertext
          return (result.1, result.2, 0))
        (do
          let result ← sessionCipherTryStates P rng ciphertext rest
          return (result.1, result.2.1, result.2.2 + 1))) := by
  simp [sessionCipherTryStates, Threaded.sessionCipherTryStates]

/-- Put the state that accepted a message in the current place: at position 0 it is the
current one, further down it leaves the previous ones and is promoted. -/
def SessionRecord.accept (state : SessionState Priv Pub B) (record : SessionRecord Priv Pub B) :
    Nat → SessionRecord Priv Pub B
  | 0 => record.setState state
  | i + 1 => (record.removePreviousState i).promoteState state

/-- `session_cipher_decrypt_from_record_and_signal_message`, with a locking of its own: the mutex
must be recursive. -/
def Threaded.sessionCipherDecryptFromRecord (locking : Bool) (P : Provider Priv Pub B)
    (rng : Rng Priv B) (record : SessionRecord Priv Pub B) (ciphertext : SignalMessage Pub B) :
    Program SgError Nat (B × SessionRecord Priv Pub B) :=
  .guarded locking do
    let result ← sessionCipherTryStates P rng ciphertext record.states
    return (result.1, record.accept result.2.1 result.2.2)

/-- `session_cipher_decrypt_from_record_and_signal_message` without other threads. -/
def sessionCipherDecryptFromRecord (P : Provider Priv Pub B) (rng : Rng Priv B)
    (record : SessionRecord Priv Pub B) (ciphertext : SignalMessage Pub B) :
    Op SgError Nat (B × SessionRecord Priv Pub B) :=
  (Threaded.sessionCipherDecryptFromRecord false P rng record ciphertext).run

theorem Threaded.run_decryptFromRecord (locking : Bool) (P : Provider Priv Pub B)
    (rng : Rng Priv B) (record : SessionRecord Priv Pub B) (ciphertext : SignalMessage Pub B) :
    (Threaded.sessionCipherDecryptFromRecord locking P rng record ciphertext).run =
      SignalProtocol.sessionCipherDecryptFromRecord P rng record ciphertext := by
  simp only [SignalProtocol.sessionCipherDecryptFromRecord,
    Threaded.sessionCipherDecryptFromRecord, Program.run_eqs]

theorem sessionCipherDecryptFromRecord_eq (P : Provider Priv Pub B) (rng : Rng Priv B)
    (record : SessionRecord Priv Pub B) (ciphertext : SignalMessage Pub B) :
    sessionCipherDecryptFromRecord P rng record ciphertext = (do
      let result ← sessionCipherTryStates P rng ciphertext record.states
      return (result.1, record.accept result.2.1 result.2.2)) := by
  simp [sessionCipherDecryptFromRecord, Threaded.sessionCipherDecryptFromRecord,
    sessionCipherTryStates]

end Cipher

/-! ## 4. The interface -/

/-- `session_cipher`.  The callback runs with the library unlocked for its thread, so it may
change the world through other objects; `insideCallback` is what this object shows to a call
made from its own callback. -/
structure SessionCipher (Addr Priv Pub B : Type) where
  remoteAddress : Addr
  insideCallback : Bool
  decryptCallback : Option (B → Op SgError (World Addr Priv Pub B) Unit)

/-- `session_cipher_create`. -/
def SessionCipher.create (remoteAddress : Addr) : SessionCipher Addr Priv Pub B :=
  ⟨remoteAddress, false, none⟩

section Interface

variable [DecidableEq Addr] [DecidableEq Pub] [DecidableEq B]

/-- The wrapping of `session_cipher_encrypt` while the pre-key message is unacknowledged. -/
def wrapUnacknowledged (state : SessionState Priv Pub B) (localIdentityKey : Pub)
    (message : SignalMessage Pub B) : Except SgError (CiphertextMessage Pub B) :=
  match state.pendingPreKey with
  | none => .ok (.signal message)
  | some ⟨_, _, none⟩ => .error .unknown
  | some ⟨preKeyId, signedPreKeyId, some baseKey⟩ =>
    .ok (.preKey
      { version := state.sessionVersion.toUInt8
        registrationId := state.localRegistrationId
        preKeyId := preKeyId
        signedPreKeyId := signedPreKeyId
        baseKey := baseKey
        identityKey := localIdentityKey
        message := message })

/-- The part of `session_cipher_encrypt` between loading and storing the record. -/
def encryptWithState (P : Provider Priv Pub B) (state : SessionState Priv Pub B)
    (paddedMessage : B) :
    Except SgError (CiphertextMessage Pub B × SessionState Priv Pub B) := do
  let chainKey ← (state.getSenderChainKey.elim (.error .unknown) .ok)
  let messageKeys := chainKey.getMessageKeys P
  let senderEphemeral ← (state.getSenderRatchetKey.elim (.error .unknown) .ok)
  let ciphertext ← sessionCipherGetCiphertext P state.sessionVersion messageKeys paddedMessage
  let localIdentityKey ← (state.localIdentityPublic.elim (.error .unknown) .ok)
  let remoteIdentityKey ← (state.remoteIdentityPublic.elim (.error .unknown) .ok)
  let message := SignalMessage.create P state.sessionVersion.toUInt8 messageKeys.macKey
    senderEphemeral chainKey.index state.previousCounter ciphertext localIdentityKey
    remoteIdentityKey
  let encrypted ← wrapUnacknowledged state localIdentityKey message
  let state ← state.setSenderChainKey (chainKey.createNext P)
  return (encrypted, state)

/-- **What the application brings along**: whether it has set locking functions, and where its
decryption callbacks access the stores. -/
structure Environment (Addr Priv Pub B : Type) where
  locking : Bool
  callback : (B → Op SgError (World Addr Priv Pub B) Unit) → B →
    Program SgError (World Addr Priv Pub B) Unit
  run_callback : ∀ f plaintext, (callback f plaintext).run = f plaintext
  balanced_callback : ∀ f plaintext, (callback f plaintext).Balanced 0

/-- Callbacks that access the stores at most once. -/
def Environment.plain (locking : Bool) : Environment Addr Priv Pub B where
  locking := locking
  callback f plaintext := .atomically (f plaintext)
  run_callback _ _ := Program.run_atomically _
  balanced_callback _ _ := Program.Balanced.atomically _

namespace Threaded

open Program

/-- `session_cipher_encrypt`. -/
def sessionCipherEncrypt (ctx : SignalContext Addr Priv Pub B) (env : Environment Addr Priv Pub B)
    (cipher : SessionCipher Addr Priv Pub B) (paddedMessage : B) :
    Program SgError (World Addr Priv Pub B) (CiphertextMessage Pub B) :=
  guarded env.locking do
    require (cipher.insideCallback = false) .inval
    let record ← atomically (signalProtocolSessionLoadSession ctx.provider cipher.remoteAddress)
    let result ← ofExcept (encryptWithState ctx.provider record.state paddedMessage)
    atomically <|
      signalProtocolSessionStoreSession ctx.provider cipher.remoteAddress (record.setState result.2)
    return result.1

/-- `session_cipher_decrypt_callback`. -/
def sessionCipherDecryptCallback (env : Environment Addr Priv Pub B)
    (cipher : SessionCipher Addr Priv Pub B) (plaintext : B) :
    Program SgError (World Addr Priv Pub B) Unit :=
  match cipher.decryptCallback with
  | some callback => env.callback callback plaintext
  | none => pure ()

/-- `session_cipher_decrypt_signal_message`. -/
def sessionCipherDecryptSignalMessage (ctx : SignalContext Addr Priv Pub B)
    (env : Environment Addr Priv Pub B) (cipher : SessionCipher Addr Priv Pub B)
    (ciphertext : SignalMessage Pub B) : Program SgError (World Addr Priv Pub B) B :=
  guarded env.locking do
    require (cipher.insideCallback = false) .inval
    let contains ← atomically (signalProtocolSessionContainsSession cipher.remoteAddress)
    require (contains = true) .noSession
    let record ← atomically (signalProtocolSessionLoadSession ctx.provider cipher.remoteAddress)
    let result ← drawing <|
      sessionCipherDecryptFromRecord env.locking ctx.provider ctx.rng record ciphertext
    sessionCipherDecryptCallback env cipher result.1
    atomically (signalProtocolSessionStoreSession ctx.provider cipher.remoteAddress result.2)
    return result.1

end Threaded

/-! Without other threads. -/

/-- `session_cipher_encrypt`. -/
def sessionCipherEncrypt (ctx : SignalContext Addr Priv Pub B)
    (cipher : SessionCipher Addr Priv Pub B) (paddedMessage : B) :
    Op SgError (World Addr Priv Pub B) (CiphertextMessage Pub B) :=
  (Threaded.sessionCipherEncrypt ctx (.plain false) cipher paddedMessage).run

/-- `session_cipher_decrypt_callback`. -/
def sessionCipherDecryptCallback (cipher : SessionCipher Addr Priv Pub B) (plaintext : B) :
    Op SgError (World Addr Priv Pub B) Unit :=
  (Threaded.sessionCipherDecryptCallback (.plain false) cipher plaintext).run

/-- `session_cipher_decrypt_signal_message`. -/
def sessionCipherDecryptSignalMessage (ctx : SignalContext Addr Priv Pub B)
    (cipher : SessionCipher Addr Priv Pub B) (ciphertext : SignalMessage Pub B) :
    Op SgError (World Addr Priv Pub B) B :=
  (Threaded.sessionCipherDecryptSignalMessage ctx (.plain false) cipher ciphertext).run

omit [DecidableEq Addr] [DecidableEq Pub] [DecidableEq B] in
theorem sessionCipherDecryptCallback_of_some {cipher : SessionCipher Addr Priv Pub B}
    {callback : B → Op SgError (World Addr Priv Pub B) Unit}
    (h : cipher.decryptCallback = some callback) (plaintext : B) :
    sessionCipherDecryptCallback cipher plaintext = callback plaintext := by
  rw [sessionCipherDecryptCallback, Threaded.sessionCipherDecryptCallback, h]
  exact Program.run_atomically _

omit [DecidableEq Addr] [DecidableEq Pub] [DecidableEq B] in
theorem sessionCipherDecryptCallback_of_none {cipher : SessionCipher Addr Priv Pub B}
    (h : cipher.decryptCallback = none) (plaintext : B) :
    sessionCipherDecryptCallback cipher plaintext = pure () := by
  rw [sessionCipherDecryptCallback, Threaded.sessionCipherDecryptCallback, h]
  exact Program.run_pure _

/-! What the application brings along does not matter then. -/

namespace Threaded

open Program

variable (ctx : SignalContext Addr Priv Pub B) (env : Environment Addr Priv Pub B)

omit [DecidableEq Pub] [DecidableEq B] in
theorem run_encrypt (cipher : SessionCipher Addr Priv Pub B) (paddedMessage : B) :
    (sessionCipherEncrypt ctx env cipher paddedMessage).run =
      SignalProtocol.sessionCipherEncrypt ctx cipher paddedMessage := by
  simp only [sessionCipherEncrypt, SignalProtocol.sessionCipherEncrypt, run_eqs]

omit [DecidableEq Addr] [DecidableEq Pub] [DecidableEq B] in
theorem run_decryptCallback (cipher : SessionCipher Addr Priv Pub B) (plaintext : B) :
    (sessionCipherDecryptCallback env cipher plaintext).run =
      SignalProtocol.sessionCipherDecryptCallback cipher plaintext := by
  cases h : cipher.decryptCallback with
  | none =>
    rw [sessionCipherDecryptCallback_of_none h, sessionCipherDecryptCallback, h]
    exact run_pure _
  | some callback =>
    rw [sessionCipherDecryptCallback_of_some h, sessionCipherDecryptCallback, h]
    exact env.run_callback callback plaintext

theorem run_decryptSignalMessage (cipher : SessionCipher Addr Priv Pub B)
    (ciphertext : SignalMessage Pub B) :
    (sessionCipherDecryptSignalMessage ctx env cipher ciphertext).run =
      SignalProtocol.sessionCipherDecryptSignalMessage ctx cipher ciphertext := by
  simp only [sessionCipherDecryptSignalMessage, SignalProtocol.sessionCipherDecryptSignalMessage,
    run_eqs, run_drawing, run_decryptFromRecord, run_decryptCallback]

end Threaded

end Interface

end SignalProtocol
