/-
# The cryptographic provider

The library computes with byte buffers, but it never looks inside the ones that come out of a
primitive: X25519, HMAC-SHA256, AES and the key encodings are called through
`signal_crypto_provider` and `curve.c`, and their outputs are copied, stored and compared.
The model keeps that interface.  Private keys, public keys and byte buffers are arbitrary
types, and `Provider` lists the functions the code calls with the facts about them that hold
of the real ones: Diffie-Hellman commutes, decoding inverts encoding, decryption inverts
encryption, HKDF returns as many bytes as it was asked for.

`Ideal` is the further assumption under which "distinct inputs give distinct outputs".  No
function with a 32-byte output has it, which is why the buffers are not `List UInt8` here: on
an arbitrary type it can be met, and `Symbolic.lean` meets it with a free term algebra.
-/
import SignalProtocol.Lib.Op
import Mathlib.Data.Sym.Sym2
import Mathlib.Order.Defs.LinearOrder

namespace SignalProtocol

/-! ## 1. Result codes -/

/-- The negative result codes of `signal_protocol.h`.  `user` is a code of the application
(below `SG_ERR_MINIMUM`).  The last two are no codes: the C code returns nothing at all.
`nullDereference` stands for the process dying on a null pointer and `invalidAccess` for the use
of memory that was freed or that lies outside a buffer, after which anything may happen. -/
inductive SgError where
  | noMem
  | inval
  | unknown
  | duplicateMessage
  | invalidKey
  | invalidKeyId
  | invalidMac
  | invalidMessage
  | invalidVersion
  | legacyMessage
  | noSession
  | staleKeyExchange
  | untrustedIdentity
  | invalidProtoBuf
  | user (code : Nat)
  | nullDereference
  | invalidAccess
  deriving DecidableEq, Repr

/-- The error is a code that the function returns. -/
def SgError.IsCode (e : SgError) : Prop := e ≠ .nullDereference ∧ e ≠ .invalidAccess

/-- The function returns: a value, or one of its codes. -/
def Returning {α : Type} (x : Except SgError α) : Prop := ∀ e, x = .error e → e.IsCode

/-! ## 2. The primitives -/

/-- `hkdf_context`: version 3 sessions number the HKDF blocks from 1, version 2 ones from 0. -/
structure HkdfContext where
  iterationStartOffset : Nat
  deriving DecidableEq, Repr

/-- `hkdf_create`: only the message versions 2 and 3 have a key derivation. -/
def hkdfCreate (messageVersion : UInt32) : Except SgError HkdfContext :=
  if messageVersion = 2 then .ok ⟨0⟩
  else if messageVersion = 3 then .ok ⟨1⟩
  else .error .inval

/-- The `info` argument of the four key derivations. -/
inductive HkdfInfo where
  /-- `"WhisperText"`, the initial key agreement. -/
  | whisperText
  /-- `"WhisperRatchet"`, one step of the root chain. -/
  | whisperRatchet
  /-- `"WhisperMessageKeys"`, the keys of one message. -/
  | whisperMessageKeys
  /-- `"WhisperGroup"`, the keys of one group message. -/
  | whisperGroup
  deriving DecidableEq, Repr

/-- `SG_CIPHER_AES_CTR_NOPADDING` and `SG_CIPHER_AES_CBC_PKCS5`. -/
inductive AesCipher where
  | ctrNoPadding
  | cbcPkcs5
  deriving DecidableEq, Repr

/-- `Textsecure__SignalMessage`; a field of the message is present iff it is `some`. -/
structure SignalMessageStructure (B : Type) where
  ratchetKey : Option B
  counter : Option UInt32
  previousCounter : Option UInt32
  ciphertext : Option B
  deriving DecidableEq, Repr

/-- What the library calls: `signal_crypto_provider`, the curve functions, and the packing of
a message by protobuf-c.  A buffer that is hashed or packed from several pieces is given as
the list of its pieces, all of which but the last have a fixed length. -/
structure Provider (Priv Pub B : Type) where
  /-- `curve_generate_public_key`: `curve25519_donna` on the base point. -/
  publicKey : Priv → Pub
  /-- `curve_calculate_agreement`. -/
  agreement : Pub → Priv → B
  /-- `curve25519_verify` on a signature of 64 bytes. -/
  verifySignature : Pub → B → B → Bool
  /-- `curve25519_sign` with its random input. -/
  calculateSignature : Priv → B → B → B
  /-- `ec_public_key_serialize`. -/
  encodePoint : Pub → B
  /-- `curve_decode_point`. -/
  decodePoint : B → Except SgError Pub
  /-- `ec_private_key_serialize`. -/
  encodePrivate : Priv → B
  /-- `curve_decode_private_point`. -/
  decodePrivate : B → Except SgError Priv
  /-- `signal_buffer_len`. -/
  len : B → Nat
  /-- A buffer of `n` equal bytes, as `memset` makes it. -/
  fill : UInt8 → Nat → B
  /-- `signal_hmac_sha256_init`, `_update` for each piece, `_final`. -/
  hmacSha256 : B → List B → B
  /-- The first bytes of a buffer. -/
  truncate : Nat → B → B
  /-- `hkdf_derive_secrets kdf input_key_material salt info output_len`, then the bytes of
  its output that start at an offset and have a length. -/
  hkdfDeriveSecrets : HkdfContext → List B → B → HkdfInfo → Nat → Nat → Nat → B
  /-- `signal_encrypt cipher key iv plaintext`. -/
  encrypt : AesCipher → B → B → B → Except SgError B
  /-- `signal_decrypt cipher key iv ciphertext`. -/
  decrypt : AesCipher → B → B → B → Except SgError B
  /-- The 16-byte initialisation vector that holds a counter, for version 2 messages. -/
  counterIv : UInt32 → B
  /-- `textsecure__signal_message__pack`. -/
  packSignalMessage : SignalMessageStructure B → B
  /-- `textsecure__signal_message__unpack`, with the code that its caller gives to a null
  pointer. -/
  unpackSignalMessage : B → Except SgError (SignalMessageStructure B)
  agreement_comm : ∀ a b, agreement (publicKey a) b = agreement (publicKey b) a
  decodePoint_encodePoint : ∀ k, decodePoint (encodePoint k) = .ok k
  decodePrivate_encodePrivate : ∀ k, decodePrivate (encodePrivate k) = .ok k
  decrypt_encrypt : ∀ {c key iv p x}, encrypt c key iv p = .ok x → decrypt c key iv x = .ok p
  unpack_packSignalMessage : ∀ m, unpackSignalMessage (packSignalMessage m) = .ok m
  len_hkdfDeriveSecrets : ∀ kdf ikm salt info n off l,
    len (hkdfDeriveSecrets kdf ikm salt info n off l) = l
  len_calculateSignature : ∀ k m r, len (calculateSignature k m r) = 64

variable {Priv Pub B : Type}

/-- `ec_key_pair`, and `ratchet_identity_key_pair`, which has the same two fields. -/
structure EcKeyPair (Priv Pub : Type) where
  publicKey : Pub
  privateKey : Priv
  deriving DecidableEq, Repr

/-- The key pair of a private key, as `curve_generate_key_pair` builds it. -/
def Provider.pair (P : Provider Priv Pub B) (s : Priv) : EcKeyPair Priv Pub :=
  ⟨P.publicKey s, s⟩

/-- A pair whose public key belongs to its private key. -/
def EcKeyPair.Matched (P : Provider Priv Pub B) (k : EcKeyPair Priv Pub) : Prop :=
  k.publicKey = P.publicKey k.privateKey

/-- Two key pairs agree from either end. -/
theorem EcKeyPair.Matched.agreement_eq {P : Provider Priv Pub B} {k k' : EcKeyPair Priv Pub}
    (h : k.Matched P) (h' : k'.Matched P) :
    P.agreement k.publicKey k'.privateKey = P.agreement k'.publicKey k.privateKey := by
  rw [h, h', P.agreement_comm]

@[simp] theorem Provider.pair_publicKey (P : Provider Priv Pub B) (s : Priv) :
    (P.pair s).publicKey = P.publicKey s := rfl

@[simp] theorem Provider.pair_privateKey (P : Provider Priv Pub B) (s : Priv) :
    (P.pair s).privateKey = s := rfl

/-! ## 3. Ideal primitives -/

/-- **Distinct inputs give distinct outputs.**  An agreement determines the two public keys
that entered it, as an unordered pair; HMAC, its 8-byte truncation and every slice of an HKDF
output determine their inputs. -/
structure Ideal (P : Provider Priv Pub B) : Prop where
  publicKey_inj : Function.Injective P.publicKey
  agreement_inj : ∀ {A A' : Pub} {s s' : Priv}, P.agreement A s = P.agreement A' s' →
    s(A, P.publicKey s) = s(A', P.publicKey s')
  hmac_inj : ∀ {k k' : B} {d d' : List B},
    P.hmacSha256 k d = P.hmacSha256 k' d' → k = k' ∧ d = d'
  mac_inj : ∀ {k k' : B} {d d' : List B},
    P.truncate 8 (P.hmacSha256 k d) = P.truncate 8 (P.hmacSha256 k' d') → k = k' ∧ d = d'
  hkdf_inj : ∀ {kdf kdf' : HkdfContext} {ikm ikm' : List B} {salt salt' : B}
    {info info' : HkdfInfo} {n n' off l : Nat},
    P.hkdfDeriveSecrets kdf ikm salt info n off l =
      P.hkdfDeriveSecrets kdf' ikm' salt' info' n' off l →
    kdf = kdf' ∧ ikm = ikm' ∧ salt = salt' ∧ info = info' ∧ n = n'

/-- With one private key fixed, an ideal agreement determines the other party's key. -/
theorem Ideal.agreement_left {P : Provider Priv Pub B} (h : Ideal P) {A A' : Pub} {s : Priv}
    (he : P.agreement A s = P.agreement A' s) : A = A' := by
  have h2 := h.agreement_inj he
  rw [Sym2.eq_iff] at h2
  rcases h2 with ⟨h3, -⟩ | ⟨h3, h4⟩
  · exact h3
  · exact h3.trans h4

end SignalProtocol
