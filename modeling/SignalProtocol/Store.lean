/-
# What surrounds a call: the stores, the random source, the application

The library reads and writes through callbacks of the application.  `Store` is what stands
behind them: the session store, the pre key and signed pre key stores, the identity key store.
Each is faithful (a load returns what was stored last) and its callbacks succeed, with one
exception that is part of their contract: loading a pre key that is not there gives
`SG_ERR_INVALID_KEY_ID`.

Random numbers come from a source that the call consumes from left to right.  `Rng` fixes what
the source would return at every position, failures included, and `World.drawn` is the
position reached: two key pairs generated at different positions are different draws, which
is all that "fresh" has to mean.
-/
import SignalProtocol.Lib.Mutex
import SignalProtocol.Record
import SignalProtocol.Message

namespace SignalProtocol

variable {Addr Priv Pub B : Type}

/-! ## 1. The random source -/

/-- What the random source returns at each position, for the three uses the code makes of
it. -/
structure Rng (Priv B : Type) where
  /-- `curve_generate_private_key`. -/
  privateKey : Nat → Except SgError Priv
  /-- The 4 random bytes of `signal_protocol_key_helper_get_random_sequence`. -/
  word : Nat → Except SgError UInt32
  /-- The 64 random bytes of `curve_calculate_signature`. -/
  signatureRandom : Nat → Except SgError B

/-- Draw from the random source and move on, also after a failure. -/
def draw {α : Type} (source : Nat → Except SgError α) : Op SgError Nat α :=
  fun n => (source n, n + 1)

/-- `curve_generate_key_pair`. -/
def curveGenerateKeyPair (P : Provider Priv Pub B) (rng : Rng Priv B) :
    Op SgError Nat (EcKeyPair Priv Pub) := do
  let privateKey ← draw rng.privateKey
  return P.pair privateKey

theorem curveGenerateKeyPair_of_ok {P : Provider Priv Pub B} {rng : Rng Priv B} {n : Nat}
    {k : Priv} (h : rng.privateKey n = .ok k) :
    curveGenerateKeyPair P rng n = (.ok (P.pair k), n + 1) :=
  Op.bind_of_ok (by rw [draw, h])

theorem curveGenerateKeyPair_of_error {P : Provider Priv Pub B} {rng : Rng Priv B} {n : Nat}
    {e : SgError} (h : rng.privateKey n = .error e) :
    curveGenerateKeyPair P rng n = (.error e, n + 1) :=
  Op.bind_of_error (by rw [draw, h])

/-- `signal_protocol_key_helper_get_random_sequence`. -/
def signalProtocolKeyHelperGetRandomSequence (rng : Rng Priv B) (max : UInt32) :
    Op SgError Nat UInt32 := do
  let value ← draw rng.word
  return (value &&& 0x7FFFFFFF) % max

/-- `curve_calculate_signature`. -/
def curveCalculateSignature (P : Provider Priv Pub B) (rng : Rng Priv B) (signingKey : Priv)
    (message : B) : Op SgError Nat B := do
  let random ← draw rng.signatureRandom
  return P.calculateSignature signingKey message random

/-- `CURVE_SIGNATURE_LEN`. -/
def curveSignatureLen : Nat := 64

/-- `curve_verify_signature`: a signature of the wrong length is an error. -/
def curveVerifySignature (P : Provider Priv Pub B) (signingKey : Pub) (message signature : B)
    (signatureLen : Nat) : Except SgError Bool :=
  if signatureLen ≠ curveSignatureLen then .error .inval
  else .ok (P.verifySignature signingKey message signature)

/-! ## 2. The stores -/

/-- The contents of the application's stores. -/
structure Store (Addr Priv Pub B : Type) where
  sessions : Addr → Option (RecordStructure B)
  preKeys : UInt32 → Option (EcKeyPair Priv Pub)
  signedPreKeys : UInt32 → Option (EcKeyPair Priv Pub)
  identityKeyPair : EcKeyPair Priv Pub
  localRegistrationId : UInt32
  identities : Addr → Option Pub

/-- The stores and the position reached in the random source. -/
structure World (Addr Priv Pub B : Type) extends Store Addr Priv Pub B where
  drawn : Nat

/-- `signal_context` and the application's callbacks that are not stores: the provider, the
random source, and the answer `is_trusted_identity` gives for an address, the identity saved
for it and the identity asked about. -/
structure SignalContext (Addr Priv Pub B : Type) where
  provider : Provider Priv Pub B
  rng : Rng Priv B
  trusted : Addr → Option Pub → Pub → Bool

/-- The world with the random source at `n`. -/
def World.at (n : Nat) (w : World Addr Priv Pub B) : World Addr Priv Pub B :=
  { w with drawn := n }

@[simp] theorem World.at_drawn (n : Nat) (w : World Addr Priv Pub B) : (w.at n).drawn = n := rfl

/-- Run an operation that only consumes randomness. -/
def atRandom {α : Type} (x : Op SgError Nat α) : Op SgError (World Addr Priv Pub B) α :=
  Op.zoom World.drawn (fun w n => w.at n) x

theorem atRandom_apply {α : Type} (x : Op SgError Nat α) (w : World Addr Priv Pub B) :
    atRandom x w = ((x w.drawn).1, w.at (x w.drawn).2) := rfl

theorem atRandom_of {α : Type} {x : Op SgError Nat α} {w : World Addr Priv Pub B}
    {r : Except SgError α} {n : Nat} (h : x w.drawn = (r, n)) :
    atRandom x w = (r, w.at n) := Op.zoom_of h

/-- The same for a program: its draws are accesses to the world. -/
def drawing {α : Type} (p : Program SgError Nat α) : Program SgError (World Addr Priv Pub B) α :=
  p.zoom World.drawn fun w n => w.at n

@[simp] theorem run_drawing {α : Type} (p : Program SgError Nat α) :
    (drawing p : Program SgError (World Addr Priv Pub B) α).run = atRandom p.run := by
  refine Program.run_zoom ?_ ?_ ?_ p
  · exact fun _ _ => rfl
  · exact fun _ _ _ => rfl
  · exact fun _ => rfl

section Wrappers

variable [DecidableEq Addr]

/-- `signal_protocol_session_load_session`: an address without a record gets a fresh one. -/
def signalProtocolSessionLoadSession (P : Provider Priv Pub B) (address : Addr) :
    Op SgError (World Addr Priv Pub B) (SessionRecord Priv Pub B) := do
  let w ← Op.get
  match w.sessions address with
  | none => return SessionRecord.create none
  | some stored => Op.ofExcept (stored.deserialize P)

/-- `signal_protocol_session_store_session`. -/
def signalProtocolSessionStoreSession (P : Provider Priv Pub B) (address : Addr)
    (record : SessionRecord Priv Pub B) : Op SgError (World Addr Priv Pub B) Unit :=
  Op.modify fun w =>
    { w with sessions := Function.update w.sessions address (some (record.serialize P)) }

/-- `signal_protocol_session_contains_session`. -/
def signalProtocolSessionContainsSession (address : Addr) :
    Op SgError (World Addr Priv Pub B) Bool := do
  let w ← Op.get
  return (w.sessions address).isSome

/-- `signal_protocol_pre_key_load_key`. -/
def signalProtocolPreKeyLoadKey (preKeyId : UInt32) :
    Op SgError (World Addr Priv Pub B) (EcKeyPair Priv Pub) := do
  let w ← Op.get
  Op.ofOption .invalidKeyId (w.preKeys preKeyId)

/-- `signal_protocol_pre_key_remove_key`. -/
def signalProtocolPreKeyRemoveKey (preKeyId : UInt32) :
    Op SgError (World Addr Priv Pub B) Unit :=
  Op.modify fun w => { w with preKeys := Function.update w.preKeys preKeyId none }

/-- `signal_protocol_signed_pre_key_load_key`. -/
def signalProtocolSignedPreKeyLoadKey (signedPreKeyId : UInt32) :
    Op SgError (World Addr Priv Pub B) (EcKeyPair Priv Pub) := do
  let w ← Op.get
  Op.ofOption .invalidKeyId (w.signedPreKeys signedPreKeyId)

/-- `signal_protocol_identity_get_key_pair`. -/
def signalProtocolIdentityGetKeyPair :
    Op SgError (World Addr Priv Pub B) (EcKeyPair Priv Pub) := do
  let w ← Op.get
  return w.identityKeyPair

/-- `signal_protocol_identity_get_local_registration_id`. -/
def signalProtocolIdentityGetLocalRegistrationId :
    Op SgError (World Addr Priv Pub B) UInt32 := do
  let w ← Op.get
  return w.localRegistrationId

/-- `signal_protocol_identity_save_identity`. -/
def signalProtocolIdentitySaveIdentity (address : Addr) (identityKey : Pub) :
    Op SgError (World Addr Priv Pub B) Unit :=
  Op.modify fun w =>
    { w with identities := Function.update w.identities address (some identityKey) }

/-- `signal_protocol_identity_is_trusted_identity`.  A missing key cannot be serialized. -/
def signalProtocolIdentityIsTrustedIdentity (ctx : SignalContext Addr Priv Pub B)
    (address : Addr) (identityKey : Option Pub) : Op SgError (World Addr Priv Pub B) Bool := do
  let identityKey ← Op.ofOption .inval identityKey
  let w ← Op.get
  return ctx.trusted address (w.identities address) identityKey

end Wrappers

end SignalProtocol
