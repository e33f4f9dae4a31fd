/-
# Chain keys, root keys and message keys (`ratchet.c`)

Three one-way derivations drive a session:

* a **chain key** yields the keys of one message (`RatchetChainKey.getMessageKeys`) and the next
  chain key (`RatchetChainKey.createNext`), both by an HMAC under the chain key;
* a **root key** and a Diffie-Hellman agreement yield a new root key and a new chain key with
  index 0 (`RatchetRootKey.createChain`);
* the **initial secret** of a session, the concatenation of three or four agreements, yields
  the first root key and the first chain key (`ratchetingSessionCalculateDerivedKeys`).

Section 4 names the same derivations on bare buffers at the version-3 key derivation, which is
the only one a session is ever created with, and states that they do not collide when the
primitives are ideal.
-/
import SignalProtocol.Crypto

namespace SignalProtocol

variable {Priv Pub B : Type}

/-! ## 1. Chain keys -/

/-- `ratchet_chain_key`. -/
structure RatchetChainKey (B : Type) where
  kdf : HkdfContext
  key : B
  index : UInt32
  deriving DecidableEq, Repr

/-- `ratchet_message_keys`: the arrays `cipher_key[32]`, `mac_key[32]`, `iv[16]`. -/
structure RatchetMessageKeys (B : Type) where
  cipherKey : B
  macKey : B
  iv : B
  counter : UInt32
  deriving DecidableEq, Repr

/-- `ratchet_chain_key_get_base_material`: an HMAC of the one-byte seed. -/
def RatchetChainKey.getBaseMaterial (P : Provider Priv Pub B) (chainKey : RatchetChainKey B)
    (seed : UInt8) : B :=
  P.hmacSha256 chainKey.key [P.fill seed 1]

/-- `ratchet_chain_key_get_message_keys`: 80 bytes of key material, cut in three. -/
def RatchetChainKey.getMessageKeys (P : Provider Priv Pub B) (chainKey : RatchetChainKey B) :
    RatchetMessageKeys B :=
  let inputKeyMaterial := RatchetChainKey.getBaseMaterial P chainKey 0x01
  let keyMaterial := P.hkdfDeriveSecrets chainKey.kdf [inputKeyMaterial] (P.fill 0 32)
    .whisperMessageKeys 80
  { cipherKey := keyMaterial 0 32
    macKey := keyMaterial 32 32
    iv := keyMaterial 64 16
    counter := chainKey.index }

/-- `ratchet_chain_key_create_next`.  The index is a `uint32_t` and wraps. -/
def RatchetChainKey.createNext (P : Provider Priv Pub B) (chainKey : RatchetChainKey B) :
    RatchetChainKey B :=
  { kdf := chainKey.kdf
    key := RatchetChainKey.getBaseMaterial P chainKey 0x02
    index := chainKey.index + 1 }

/-! ## 2. Root keys -/

/-- `ratchet_root_key`. -/
structure RatchetRootKey (B : Type) where
  kdf : HkdfContext
  key : B
  deriving DecidableEq, Repr

/-- `ratchet_root_key_create_chain`: the agreement of the two ratchet keys, with the root key
as salt, gives the next root key and a chain key with index 0. -/
def RatchetRootKey.createChain (P : Provider Priv Pub B) (rootKey : RatchetRootKey B)
    (theirRatchetKey : Pub) (ourRatchetKeyPrivate : Priv) :
    RatchetRootKey B × RatchetChainKey B :=
  let sharedSecret := P.agreement theirRatchetKey ourRatchetKeyPrivate
  let derivedSecret := P.hkdfDeriveSecrets rootKey.kdf [sharedSecret] rootKey.key
    .whisperRatchet 64
  (⟨rootKey.kdf, derivedSecret 0 32⟩, ⟨rootKey.kdf, derivedSecret 32 32, 0⟩)

/-- `ratcheting_session_calculate_derived_keys`: the first root and chain key of a session,
always with the version-3 key derivation. -/
def ratchetingSessionCalculateDerivedKeys (P : Provider Priv Pub B) (secret : List B) :
    RatchetRootKey B × RatchetChainKey B :=
  let output := P.hkdfDeriveSecrets ⟨1⟩ secret (P.fill 0 32) .whisperText 64
  (⟨⟨1⟩, output 0 32⟩, ⟨⟨1⟩, output 32 32, 0⟩)

/-! ## 3. The initial secrets -/

/-- `alice_signal_protocol_parameters`. -/
structure AliceParameters (Priv Pub : Type) where
  ourIdentityKey : EcKeyPair Priv Pub
  ourBaseKey : EcKeyPair Priv Pub
  theirIdentityKey : Pub
  theirSignedPreKey : Pub
  theirOneTimePreKey : Option Pub
  theirRatchetKey : Pub

/-- `bob_signal_protocol_parameters`. -/
structure BobParameters (Priv Pub : Type) where
  ourIdentityKey : EcKeyPair Priv Pub
  ourSignedPreKey : EcKeyPair Priv Pub
  ourOneTimePreKey : Option (EcKeyPair Priv Pub)
  ourRatchetKey : EcKeyPair Priv Pub
  theirIdentityKey : Pub
  theirBaseKey : Pub

/-- `symmetric_signal_protocol_parameters`. -/
structure SymmetricParameters (Priv Pub : Type) where
  ourIdentityKey : EcKeyPair Priv Pub
  ourBaseKey : EcKeyPair Priv Pub
  ourRatchetKey : EcKeyPair Priv Pub
  theirBaseKey : Pub
  theirRatchetKey : Pub
  theirIdentityKey : Pub

/-- The secret `ratcheting_session_alice_initialize` collects: 32 bytes `0xFF`, then the
agreements in Alice's order. -/
def AliceParameters.secret (P : Provider Priv Pub B) (p : AliceParameters Priv Pub) : List B :=
  [P.fill 0xFF 32,
    P.agreement p.theirSignedPreKey p.ourIdentityKey.privateKey,
    P.agreement p.theirIdentityKey p.ourBaseKey.privateKey,
    P.agreement p.theirSignedPreKey p.ourBaseKey.privateKey] ++
  (p.theirOneTimePreKey.map fun k => P.agreement k p.ourBaseKey.privateKey).toList

/-- The secret `ratcheting_session_bob_initialize` collects, in Bob's order. -/
def BobParameters.secret (P : Provider Priv Pub B) (p : BobParameters Priv Pub) : List B :=
  [P.fill 0xFF 32,
    P.agreement p.theirIdentityKey p.ourSignedPreKey.privateKey,
    P.agreement p.theirBaseKey p.ourIdentityKey.privateKey,
    P.agreement p.theirBaseKey p.ourSignedPreKey.privateKey] ++
  (p.ourOneTimePreKey.map fun k => P.agreement p.theirBaseKey k.privateKey).toList

/-- **Matching parameters**: the two parties name each other's keys, and every pair is a
pair. -/
structure Matching (P : Provider Priv Pub B) (a : AliceParameters Priv Pub)
    (b : BobParameters Priv Pub) : Prop where
  aliceIdentity : a.ourIdentityKey.Matched P
  aliceBase : a.ourBaseKey.Matched P
  bobIdentity : b.ourIdentityKey.Matched P
  bobSigned : b.ourSignedPreKey.Matched P
  bobOneTime : ∀ k ∈ b.ourOneTimePreKey, k.Matched P
  bobRatchet : b.ourRatchetKey.Matched P
  theirIdentityA : a.theirIdentityKey = b.ourIdentityKey.publicKey
  theirSigned : a.theirSignedPreKey = b.ourSignedPreKey.publicKey
  theirOneTime : a.theirOneTimePreKey = b.ourOneTimePreKey.map EcKeyPair.publicKey
  theirRatchet : a.theirRatchetKey = b.ourRatchetKey.publicKey
  theirIdentityB : b.theirIdentityKey = a.ourIdentityKey.publicKey
  theirBase : b.theirBaseKey = a.ourBaseKey.publicKey

/-- **Both parties collect the same secret.**  Each agreement is computed from opposite ends,
and Alice's first two are Bob's first two. -/
theorem Matching.secret_eq {P : Provider Priv Pub B} {a : AliceParameters Priv Pub}
    {b : BobParameters Priv Pub} (h : Matching P a b) : a.secret P = b.secret P := by
  have hone : (a.theirOneTimePreKey.map fun k => P.agreement k a.ourBaseKey.privateKey) =
      b.ourOneTimePreKey.map fun k => P.agreement b.theirBaseKey k.privateKey := by
    rw [h.theirOneTime, Option.map_map]
    cases hk : b.ourOneTimePreKey with
    | none => rfl
    | some k =>
      rw [Option.map_some, Option.map_some, Function.comp_apply, h.theirBase,
        (h.bobOneTime k hk).agreement_eq h.aliceBase]
  have h1 : P.agreement a.theirSignedPreKey a.ourIdentityKey.privateKey =
      P.agreement b.theirIdentityKey b.ourSignedPreKey.privateKey := by
    rw [h.theirSigned, h.theirIdentityB, h.bobSigned.agreement_eq h.aliceIdentity]
  have h2 : P.agreement a.theirIdentityKey a.ourBaseKey.privateKey =
      P.agreement b.theirBaseKey b.ourIdentityKey.privateKey := by
    rw [h.theirIdentityA, h.theirBase, h.bobIdentity.agreement_eq h.aliceBase]
  have h3 : P.agreement a.theirSignedPreKey a.ourBaseKey.privateKey =
      P.agreement b.theirBaseKey b.ourSignedPreKey.privateKey := by
    rw [h.theirSigned, h.theirBase, h.bobSigned.agreement_eq h.aliceBase]
  simp only [AliceParameters.secret, BobParameters.secret, h1, h2, h3, hone]

/-! ## 4. The derivations on bare buffers -/

/-- The version-3 key derivation. -/
def kdf3 : HkdfContext := ⟨1⟩

@[simp] theorem hkdfCreate_three : hkdfCreate 3 = .ok kdf3 := rfl

namespace Provider

variable (P : Provider Priv Pub B)

/-- The buffer of the next chain key. -/
def nextKey (key : B) : B := P.hmacSha256 key [P.fill 0x02 1]

/-- The chain key reached from a chain's first key after `n` steps. -/
def chainKeyAt (start : B) (n : Nat) : RatchetChainKey B :=
  ⟨kdf3, P.nextKey^[n] start, UInt32.ofNat n⟩

/-- The keys of message `n` of the chain that starts with `start`. -/
def messageKeysAt (start : B) (n : Nat) : RatchetMessageKeys B :=
  RatchetChainKey.getMessageKeys P (P.chainKeyAt start n)

/-- The root key of one ratchet step. -/
def ratchetRoot (root shared : B) : B :=
  P.hkdfDeriveSecrets kdf3 [shared] root .whisperRatchet 64 0 32

/-- The first chain key of one ratchet step. -/
def ratchetStart (root shared : B) : B :=
  P.hkdfDeriveSecrets kdf3 [shared] root .whisperRatchet 64 32 32

/-- The first root key of a session. -/
def initialRoot (secret : List B) : B :=
  P.hkdfDeriveSecrets kdf3 secret (P.fill 0 32) .whisperText 64 0 32

/-- The first chain key of a session. -/
def initialStart (secret : List B) : B :=
  P.hkdfDeriveSecrets kdf3 secret (P.fill 0 32) .whisperText 64 32 32

variable {P}

@[simp] theorem chainKeyAt_index (start : B) (n : Nat) :
    (P.chainKeyAt start n).index = UInt32.ofNat n := rfl

@[simp] theorem messageKeysAt_counter (start : B) (n : Nat) :
    (P.messageKeysAt start n).counter = UInt32.ofNat n := rfl

theorem createNext_chainKeyAt (start : B) (n : Nat) :
    RatchetChainKey.createNext P (P.chainKeyAt start n) = P.chainKeyAt start (n + 1) := by
  simp only [RatchetChainKey.createNext, chainKeyAt, Function.iterate_succ_apply',
    RatchetChainKey.getBaseMaterial, nextKey, UInt32.ofNat_add]
  rfl

theorem createChain_kdf3 (root : B) (their : Pub) (our : Priv) :
    RatchetRootKey.createChain P ⟨kdf3, root⟩ their our =
      (⟨kdf3, P.ratchetRoot root (P.agreement their our)⟩,
        P.chainKeyAt (P.ratchetStart root (P.agreement their our)) 0) := rfl

theorem len_messageKeysAt (start : B) (n : Nat) :
    P.len (P.messageKeysAt start n).cipherKey = 32 ∧
      P.len (P.messageKeysAt start n).macKey = 32 ∧ P.len (P.messageKeysAt start n).iv = 16 :=
  ⟨P.len_hkdfDeriveSecrets .., P.len_hkdfDeriveSecrets .., P.len_hkdfDeriveSecrets ..⟩

end Provider

/-! ## 5. No collisions between derivations -/

namespace Ideal

variable {P : Provider Priv Pub B} (h : Ideal P)
include h

theorem nextKey_inj : Function.Injective P.nextKey := fun _ _ he => (h.hmac_inj he).1

/-- **The MAC key of a message determines its chain**, once the position in the chain is
known: both chains run the same number of injective steps. -/
theorem macKey_inj {start start' : B} {n : Nat}
    (he : (P.messageKeysAt start n).macKey = (P.messageKeysAt start' n).macKey) :
    start = start' := by
  have h1 := (h.hkdf_inj he).2.1
  have h2 := (h.hmac_inj (List.cons.inj h1).1).1
  exact h.nextKey_inj.iterate n h2

theorem ratchetRoot_inj {root root' shared shared' : B}
    (he : P.ratchetRoot root shared = P.ratchetRoot root' shared') :
    root = root' ∧ shared = shared' := by
  obtain ⟨-, h1, h2, -, -⟩ := h.hkdf_inj he
  exact ⟨h2, (List.cons.inj h1).1⟩

theorem ratchetStart_inj {root root' shared shared' : B}
    (he : P.ratchetStart root shared = P.ratchetStart root' shared') :
    root = root' ∧ shared = shared' := by
  obtain ⟨-, h1, h2, -, -⟩ := h.hkdf_inj he
  exact ⟨h2, (List.cons.inj h1).1⟩

theorem initialRoot_inj {secret secret' : List B}
    (he : P.initialRoot secret = P.initialRoot secret') : secret = secret' :=
  (h.hkdf_inj he).2.1

theorem initialStart_inj {secret secret' : List B}
    (he : P.initialStart secret = P.initialStart secret') : secret = secret' :=
  (h.hkdf_inj he).2.1

/-- The `info` argument keeps the initial derivation and the ratchet steps apart. -/
theorem initialRoot_ne_ratchetRoot {secret : List B} {root shared : B} :
    P.initialRoot secret ≠ P.ratchetRoot root shared := fun he =>
  HkdfInfo.noConfusion (h.hkdf_inj he).2.2.2.1

theorem initialStart_ne_ratchetStart {secret : List B} {root shared : B} :
    P.initialStart secret ≠ P.ratchetStart root shared := fun he =>
  HkdfInfo.noConfusion (h.hkdf_inj he).2.2.2.1

end Ideal

end SignalProtocol
