/-
# The session builder (`session_builder.c`)

Two ways to set up a session: from a pre key bundle on one side and the pre-key message that
announces it on the other (section 1), and by exchanging key exchange messages (section 2).
Section 3 is `session_cipher_decrypt_pre_key_signal_message`, which joins the builder and the
cipher.

The order of the steps is the order of the source, because it is what decides which stores a
failed call has already written.  As in `Cipher.lean`, a function is a program under `Threaded`,
and the operation of the same name is the program without other threads.
-/
import SignalProtocol.Cipher

namespace SignalProtocol

variable {Addr Priv Pub B : Type}

/-- `PRE_KEY_MEDIUM_MAX_VALUE`, the id of the last-resort pre key. -/
def preKeyMediumMaxValue : UInt32 := 0xFFFFFF

/-- Make room for a new session: archive the current state unless the record is fresh. -/
def SessionRecord.makeRoom (record : SessionRecord Priv Pub B) : SessionRecord Priv Pub B :=
  if record.isFresh then record else record.archiveCurrentState

section Builder

open Program

variable [DecidableEq Addr] [LinearOrder Pub] [DecidableEq B]

/-! ## 1. Pre key bundles and pre-key messages -/

/-- Load the one-time pre key a message names, if it names one. -/
def loadOneTimePreKey :
    Option UInt32 → Op SgError (World Addr Priv Pub B) (Option (EcKeyPair Priv Pub))
  | none => pure none
  | some preKeyId => do
    let key ← signalProtocolPreKeyLoadKey preKeyId
    return some key

/-- Remove the one-time pre key that a new session has used. -/
def removeOneTimePreKey : Option UInt32 → Op SgError (World Addr Priv Pub B) Unit
  | none => pure ()
  | some preKeyId => signalProtocolPreKeyRemoveKey preKeyId

/-- `session_builder_process_pre_key_signal_message_v3`.  The result is the record and the id
of the one-time pre key to remove. -/
def Threaded.sessionBuilderProcessPreKeySignalMessageV3 (ctx : SignalContext Addr Priv Pub B)
    (record : SessionRecord Priv Pub B) (message : PreKeySignalMessage Pub B) :
    Program SgError (World Addr Priv Pub B) (SessionRecord Priv Pub B × Option UInt32) :=
  if record.hasSessionState message.version.toUInt32 message.baseKey then
    return (record, none)
  else do
    let ourSignedPreKey ← atomically (signalProtocolSignedPreKeyLoadKey message.signedPreKeyId)
    let ourIdentityKey ← atomically signalProtocolIdentityGetKeyPair
    let ourOneTimePreKey ← atomically (loadOneTimePreKey message.preKeyId)
    let parameters : BobParameters Priv Pub :=
      { ourIdentityKey := ourIdentityKey
        ourSignedPreKey := ourSignedPreKey
        ourOneTimePreKey := ourOneTimePreKey
        ourRatchetKey := ourSignedPreKey
        theirIdentityKey := message.identityKey
        theirBaseKey := message.baseKey }
    let record := record.makeRoom
    let state := ratchetingSessionBobInitialize ctx.provider record.state parameters
    let localRegistrationId ← atomically signalProtocolIdentityGetLocalRegistrationId
    let state := { state with
      localRegistrationId := localRegistrationId
      remoteRegistrationId := message.registrationId
      aliceBaseKey := some message.baseKey }
    return (record.setState state,
      message.preKeyId.filter fun preKeyId => preKeyId ≠ preKeyMediumMaxValue)

/-- `session_builder_process_pre_key_signal_message_v3` without other threads. -/
def sessionBuilderProcessPreKeySignalMessageV3 (ctx : SignalContext Addr Priv Pub B)
    (record : SessionRecord Priv Pub B) (message : PreKeySignalMessage Pub B) :
    Op SgError (World Addr Priv Pub B) (SessionRecord Priv Pub B × Option UInt32) :=
  (Threaded.sessionBuilderProcessPreKeySignalMessageV3 ctx record message).run

/-- `session_builder_process_pre_key_signal_message`. -/
def Threaded.sessionBuilderProcessPreKeySignalMessage (ctx : SignalContext Addr Priv Pub B)
    (remoteAddress : Addr) (record : SessionRecord Priv Pub B)
    (message : PreKeySignalMessage Pub B) :
    Program SgError (World Addr Priv Pub B) (SessionRecord Priv Pub B × Option UInt32) := do
  let trusted ← atomically
    (signalProtocolIdentityIsTrustedIdentity ctx remoteAddress message.identityKey)
  require (trusted = true) .untrustedIdentity
  let result ← sessionBuilderProcessPreKeySignalMessageV3 ctx record message
  atomically (signalProtocolIdentitySaveIdentity remoteAddress message.identityKey)
  return result

/-- `session_builder_process_pre_key_signal_message` without other threads. -/
def sessionBuilderProcessPreKeySignalMessage (ctx : SignalContext Addr Priv Pub B)
    (remoteAddress : Addr) (record : SessionRecord Priv Pub B)
    (message : PreKeySignalMessage Pub B) :
    Op SgError (World Addr Priv Pub B) (SessionRecord Priv Pub B × Option UInt32) :=
  (Threaded.sessionBuilderProcessPreKeySignalMessage ctx remoteAddress record message).run

/-- The signature check of `session_builder_process_pre_key_bundle`, which gives the signed
pre key.  A bundle with a signed pre key and no signature makes the code read through a null
pointer. -/
def PreKeyBundle.checkedSignedPreKey (P : Provider Priv Pub B) (identityKey : Pub)
    (bundle : PreKeyBundle Pub B) : Except SgError Pub :=
  match bundle.signedPreKeyPublic, bundle.signedPreKeySignature with
  | none, _ => .error .invalidKey
  | some _, none => .error .nullDereference
  | some signedPreKey, some signature => do
    let verified ← curveVerifySignature P identityKey (P.encodePoint signedPreKey) signature
      (P.len signature)
    if verified then return signedPreKey else throw .invalidKey

/-- `session_builder_process_pre_key_bundle`. -/
def Threaded.sessionBuilderProcessPreKeyBundle (ctx : SignalContext Addr Priv Pub B)
    (env : Environment Addr Priv Pub B) (remoteAddress : Addr) (bundle : PreKeyBundle Pub B) :
    Program SgError (World Addr Priv Pub B) Unit :=
  guarded env.locking do
    let trusted ← atomically
      (signalProtocolIdentityIsTrustedIdentity ctx remoteAddress bundle.identityKey)
    require (trusted = true) .untrustedIdentity
    let theirIdentityKey ← ofOption .inval bundle.identityKey
    let theirSignedPreKey ← ofExcept (bundle.checkedSignedPreKey ctx.provider theirIdentityKey)
    let record ← atomically (signalProtocolSessionLoadSession ctx.provider remoteAddress)
    let ourBaseKey ← atomically (atRandom (curveGenerateKeyPair ctx.provider ctx.rng))
    let ourIdentityKey ← atomically signalProtocolIdentityGetKeyPair
    let parameters : AliceParameters Priv Pub :=
      { ourIdentityKey := ourIdentityKey
        ourBaseKey := ourBaseKey
        theirIdentityKey := theirIdentityKey
        theirSignedPreKey := theirSignedPreKey
        theirOneTimePreKey := bundle.preKeyPublic
        theirRatchetKey := theirSignedPreKey }
    let record := record.makeRoom
    let state ← atomically <| atRandom <|
      ratchetingSessionAliceInitialize ctx.provider ctx.rng record.state parameters
    let state := state.setUnacknowledgedPreKeyMessage
      (bundle.preKeyPublic.map fun _ => bundle.preKeyId) bundle.signedPreKeyId ourBaseKey.publicKey
    let localRegistrationId ← atomically signalProtocolIdentityGetLocalRegistrationId
    let state := { state with
      localRegistrationId := localRegistrationId
      remoteRegistrationId := bundle.registrationId
      aliceBaseKey := some ourBaseKey.publicKey }
    atomically <|
      signalProtocolSessionStoreSession ctx.provider remoteAddress (record.setState state)
    atomically (signalProtocolIdentitySaveIdentity remoteAddress theirIdentityKey)

/-- `session_builder_process_pre_key_bundle` without other threads. -/
def sessionBuilderProcessPreKeyBundle (ctx : SignalContext Addr Priv Pub B)
    (remoteAddress : Addr) (bundle : PreKeyBundle Pub B) :
    Op SgError (World Addr Priv Pub B) Unit :=
  (Threaded.sessionBuilderProcessPreKeyBundle ctx (.plain false) remoteAddress bundle).run

/-! ## 2. Key exchange messages -/

/-- `symmetric_signal_protocol_parameters_create` from the keys of a pending key exchange, any
of which may be missing. -/
def PendingKeyExchange.parameters (pending : PendingKeyExchange Priv Pub)
    (message : KeyExchangeMessage Pub B) : Option (SymmetricParameters Priv Pub) := do
  let ourIdentityKey ← pending.localIdentityKey
  let ourBaseKey ← pending.localBaseKey
  let ourRatchetKey ← pending.localRatchetKey
  return {
    ourIdentityKey := ourIdentityKey
    ourBaseKey := ourBaseKey
    ourRatchetKey := ourRatchetKey
    theirBaseKey := message.baseKey
    theirRatchetKey := message.ratchetKey
    theirIdentityKey := message.identityKey }

/-- The check of the base key signature, at the fixed length of its array. -/
def KeyExchangeMessage.checkSignature (P : Provider Priv Pub B)
    (message : KeyExchangeMessage Pub B) : Except SgError Unit := do
  let verified ← curveVerifySignature P message.identityKey (P.encodePoint message.baseKey)
    message.baseKeySignature curveSignatureLen
  if verified then return () else throw .invalidKey

/-- The parameters `session_builder_process_initiate` answers with, and the flags of its
response: the keys of a pending key exchange if there is one, fresh keys otherwise. -/
def Threaded.initiateParameters (ctx : SignalContext Addr Priv Pub B)
    (state : SessionState Priv Pub B) (message : KeyExchangeMessage Pub B) :
    Program SgError (World Addr Priv Pub B) (SymmetricParameters Priv Pub × UInt32) :=
  match state.pendingKeyExchange with
  | none => do
    let identityKeyPair ← atomically signalProtocolIdentityGetKeyPair
    let ourBaseKey ← atomically (atRandom (curveGenerateKeyPair ctx.provider ctx.rng))
    let ourRatchetKey ← atomically (atRandom (curveGenerateKeyPair ctx.provider ctx.rng))
    return (
      { ourIdentityKey := identityKeyPair
        ourBaseKey := ourBaseKey
        ourRatchetKey := ourRatchetKey
        theirBaseKey := message.baseKey
        theirRatchetKey := message.ratchetKey
        theirIdentityKey := message.identityKey }, keyExchangeResponseFlag)
  | some pending => do
    let parameters ← ofOption .inval (pending.parameters message)
    return (parameters, keyExchangeResponseFlag ||| keyExchangeSimultaneousInitiateFlag)

/-- The parameters without other threads. -/
def initiateParameters (ctx : SignalContext Addr Priv Pub B)
    (state : SessionState Priv Pub B) (message : KeyExchangeMessage Pub B) :
    Op SgError (World Addr Priv Pub B) (SymmetricParameters Priv Pub × UInt32) :=
  (Threaded.initiateParameters ctx state message).run

/-- `session_builder_process_initiate`. -/
def Threaded.sessionBuilderProcessInitiate (ctx : SignalContext Addr Priv Pub B)
    (remoteAddress : Addr) (message : KeyExchangeMessage Pub B) :
    Program SgError (World Addr Priv Pub B) (KeyExchangeMessage Pub B) := do
  let record ← atomically (signalProtocolSessionLoadSession ctx.provider remoteAddress)
  ofExcept (message.checkSignature ctx.provider)
  let result ← initiateParameters ctx record.state message
  let parameters := result.1
  let record := record.makeRoom
  let state ← atomically <| atRandom <|
    ratchetingSessionSymmetricInitialize ctx.provider ctx.rng record.state parameters
  atomically <|
    signalProtocolSessionStoreSession ctx.provider remoteAddress (record.setState state)
  atomically (signalProtocolIdentitySaveIdentity remoteAddress message.identityKey)
  let baseKeySignature ← atomically <| atRandom <|
    curveCalculateSignature ctx.provider ctx.rng parameters.ourIdentityKey.privateKey
      (ctx.provider.encodePoint parameters.ourBaseKey.publicKey)
  return {
    version := state.sessionVersion.toUInt8
    sequence := message.sequence
    flags := result.2
    baseKey := parameters.ourBaseKey.publicKey
    baseKeySignature := baseKeySignature
    ratchetKey := parameters.ourRatchetKey.publicKey
    identityKey := parameters.ourIdentityKey.publicKey }

/-- `session_builder_process_initiate` without other threads. -/
def sessionBuilderProcessInitiate (ctx : SignalContext Addr Priv Pub B) (remoteAddress : Addr)
    (message : KeyExchangeMessage Pub B) :
    Op SgError (World Addr Priv Pub B) (KeyExchangeMessage Pub B) :=
  (Threaded.sessionBuilderProcessInitiate ctx remoteAddress message).run

/-- `session_builder_process_response`.  A response that answers nothing is stale, or ignored
when it answers a simultaneous initiate.  The record is stored before the signature of the
base key is checked, and again after. -/
def Threaded.sessionBuilderProcessResponse (ctx : SignalContext Addr Priv Pub B)
    (remoteAddress : Addr) (message : KeyExchangeMessage Pub B) :
    Program SgError (World Addr Priv Pub B) Unit := do
  let record ← atomically (signalProtocolSessionLoadSession ctx.provider remoteAddress)
  match record.state.pendingKeyExchange.filter fun p => p.sequence = message.sequence with
  | none => require (message.isResponseForSimultaneousInitiate = true) .staleKeyExchange
  | some pending => do
    let parameters ← ofOption .inval (pending.parameters message)
    let record := record.makeRoom
    let state ← atomically <| atRandom <|
      ratchetingSessionSymmetricInitialize ctx.provider ctx.rng record.state parameters
    atomically <|
      signalProtocolSessionStoreSession ctx.provider remoteAddress (record.setState state)
    (if state.sessionVersion ≥ 3 then ofExcept (message.checkSignature ctx.provider)
      else pure ())
    atomically <|
      signalProtocolSessionStoreSession ctx.provider remoteAddress (record.setState state)
    atomically (signalProtocolIdentitySaveIdentity remoteAddress message.identityKey)

/-- `session_builder_process_response` without other threads. -/
def sessionBuilderProcessResponse (ctx : SignalContext Addr Priv Pub B) (remoteAddress : Addr)
    (message : KeyExchangeMessage Pub B) : Op SgError (World Addr Priv Pub B) Unit :=
  (Threaded.sessionBuilderProcessResponse ctx remoteAddress message).run

/-- `session_builder_process_key_exchange_message`. -/
def Threaded.sessionBuilderProcessKeyExchangeMessage (ctx : SignalContext Addr Priv Pub B)
    (env : Environment Addr Priv Pub B) (remoteAddress : Addr)
    (message : KeyExchangeMessage Pub B) :
    Program SgError (World Addr Priv Pub B) (Option (KeyExchangeMessage Pub B)) :=
  guarded env.locking do
    let trusted ← atomically
      (signalProtocolIdentityIsTrustedIdentity ctx remoteAddress message.identityKey)
    require (trusted = true) .untrustedIdentity
    if message.isInitiate then do
      let response ← sessionBuilderProcessInitiate ctx remoteAddress message
      return some response
    else do
      sessionBuilderProcessResponse ctx remoteAddress message
      return none

/-- `session_builder_process_key_exchange_message` without other threads. -/
def sessionBuilderProcessKeyExchangeMessage (ctx : SignalContext Addr Priv Pub B)
    (remoteAddress : Addr) (message : KeyExchangeMessage Pub B) :
    Op SgError (World Addr Priv Pub B) (Option (KeyExchangeMessage Pub B)) :=
  (Threaded.sessionBuilderProcessKeyExchangeMessage ctx (.plain false) remoteAddress message).run

/-- `session_builder_process`.  Every failure is reported as `SG_ERR_INVALID_KEY`. -/
def Threaded.sessionBuilderProcess (ctx : SignalContext Addr Priv Pub B)
    (env : Environment Addr Priv Pub B) (remoteAddress : Addr) :
    Program SgError (World Addr Priv Pub B) (KeyExchangeMessage Pub B) :=
  guarded env.locking <| Program.mapError (fun _ => SgError.invalidKey) do
    let randomValue ← atomically <| atRandom <|
      signalProtocolKeyHelperGetRandomSequence ctx.rng 65534
    let sequence := randomValue + 1
    let baseKey ← atomically (atRandom (curveGenerateKeyPair ctx.provider ctx.rng))
    let ratchetKey ← atomically (atRandom (curveGenerateKeyPair ctx.provider ctx.rng))
    let identityKey ← atomically signalProtocolIdentityGetKeyPair
    let baseKeySignature ← atomically <| atRandom <|
      curveCalculateSignature ctx.provider ctx.rng identityKey.privateKey
        (ctx.provider.encodePoint baseKey.publicKey)
    require (ctx.provider.len baseKeySignature = curveSignatureLen) .unknown
    let record ← atomically (signalProtocolSessionLoadSession ctx.provider remoteAddress)
    let state := record.state.setPendingKeyExchange sequence baseKey ratchetKey identityKey
    atomically <|
      signalProtocolSessionStoreSession ctx.provider remoteAddress (record.setState state)
    return {
      version := ciphertextCurrentVersion
      sequence := sequence
      flags := keyExchangeInitiateFlag
      baseKey := baseKey.publicKey
      baseKeySignature := baseKeySignature
      ratchetKey := ratchetKey.publicKey
      identityKey := identityKey.publicKey }

/-- `session_builder_process` without other threads. -/
def sessionBuilderProcess (ctx : SignalContext Addr Priv Pub B) (remoteAddress : Addr) :
    Op SgError (World Addr Priv Pub B) (KeyExchangeMessage Pub B) :=
  (Threaded.sessionBuilderProcess ctx (.plain false) remoteAddress).run

/-! ## 3. Decrypting a pre-key message -/

/-- `session_cipher_decrypt_pre_key_signal_message`. -/
def Threaded.sessionCipherDecryptPreKeySignalMessage (ctx : SignalContext Addr Priv Pub B)
    (env : Environment Addr Priv Pub B) (cipher : SessionCipher Addr Priv Pub B)
    (ciphertext : PreKeySignalMessage Pub B) : Program SgError (World Addr Priv Pub B) B :=
  guarded env.locking do
    require (cipher.insideCallback = false) .inval
    let record ← atomically (signalProtocolSessionLoadSession ctx.provider cipher.remoteAddress)
    let built ← sessionBuilderProcessPreKeySignalMessage ctx cipher.remoteAddress record ciphertext
    let result ← drawing <|
      sessionCipherDecryptFromRecord env.locking ctx.provider ctx.rng built.1 ciphertext.message
    sessionCipherDecryptCallback env cipher result.1
    atomically (signalProtocolSessionStoreSession ctx.provider cipher.remoteAddress result.2)
    atomically (removeOneTimePreKey built.2)
    return result.1

/-- `session_cipher_decrypt_pre_key_signal_message` without other threads. -/
def sessionCipherDecryptPreKeySignalMessage (ctx : SignalContext Addr Priv Pub B)
    (cipher : SessionCipher Addr Priv Pub B) (ciphertext : PreKeySignalMessage Pub B) :
    Op SgError (World Addr Priv Pub B) B :=
  (Threaded.sessionCipherDecryptPreKeySignalMessage ctx (.plain false) cipher ciphertext).run

/-! ## 4. The programs and the operations -/

namespace Threaded

variable (ctx : SignalContext Addr Priv Pub B) (env : Environment Addr Priv Pub B)

omit [DecidableEq Addr] [DecidableEq B] in
theorem run_processPreKeySignalMessageV3 (record : SessionRecord Priv Pub B)
    (message : PreKeySignalMessage Pub B) :
    (sessionBuilderProcessPreKeySignalMessageV3 ctx record message).run =
      SignalProtocol.sessionBuilderProcessPreKeySignalMessageV3 ctx record message := rfl

omit [DecidableEq B] in
theorem run_processPreKeySignalMessage (address : Addr) (record : SessionRecord Priv Pub B)
    (message : PreKeySignalMessage Pub B) :
    (sessionBuilderProcessPreKeySignalMessage ctx address record message).run =
      SignalProtocol.sessionBuilderProcessPreKeySignalMessage ctx address record message := rfl

omit [DecidableEq Addr] [LinearOrder Pub] [DecidableEq B] in
theorem run_initiateParameters (state : SessionState Priv Pub B)
    (message : KeyExchangeMessage Pub B) :
    (initiateParameters ctx state message).run =
      SignalProtocol.initiateParameters ctx state message := rfl

omit [DecidableEq B] in
theorem run_processInitiate (address : Addr) (message : KeyExchangeMessage Pub B) :
    (sessionBuilderProcessInitiate ctx address message).run =
      SignalProtocol.sessionBuilderProcessInitiate ctx address message := rfl

omit [DecidableEq B] in
theorem run_processResponse (address : Addr) (message : KeyExchangeMessage Pub B) :
    (sessionBuilderProcessResponse ctx address message).run =
      SignalProtocol.sessionBuilderProcessResponse ctx address message := rfl

omit [LinearOrder Pub] [DecidableEq B] in
theorem run_processPreKeyBundle (address : Addr) (bundle : PreKeyBundle Pub B) :
    (sessionBuilderProcessPreKeyBundle ctx env address bundle).run =
      SignalProtocol.sessionBuilderProcessPreKeyBundle ctx address bundle := by
  simp only [sessionBuilderProcessPreKeyBundle, SignalProtocol.sessionBuilderProcessPreKeyBundle,
    run_eqs]

omit [DecidableEq B] in
theorem run_processKeyExchangeMessage (address : Addr) (message : KeyExchangeMessage Pub B) :
    (sessionBuilderProcessKeyExchangeMessage ctx env address message).run =
      SignalProtocol.sessionBuilderProcessKeyExchangeMessage ctx address message := by
  simp only [sessionBuilderProcessKeyExchangeMessage,
    SignalProtocol.sessionBuilderProcessKeyExchangeMessage, run_eqs]

omit [LinearOrder Pub] [DecidableEq B] in
theorem run_process (address : Addr) :
    (sessionBuilderProcess ctx env address).run =
      SignalProtocol.sessionBuilderProcess ctx address := by
  simp only [sessionBuilderProcess, SignalProtocol.sessionBuilderProcess, run_eqs]

theorem run_decryptPreKeySignalMessage (cipher : SessionCipher Addr Priv Pub B)
    (ciphertext : PreKeySignalMessage Pub B) :
    (sessionCipherDecryptPreKeySignalMessage ctx env cipher ciphertext).run =
      SignalProtocol.sessionCipherDecryptPreKeySignalMessage ctx cipher ciphertext := by
  simp only [sessionCipherDecryptPreKeySignalMessage,
    SignalProtocol.sessionCipherDecryptPreKeySignalMessage, run_eqs, run_drawing,
    run_decryptFromRecord, run_decryptCallback]

end Threaded

end Builder

end SignalProtocol
