/-
# An ideal provider

A provider whose primitives have no collisions at all: buffers are terms, and every primitive
is a constructor.  Key pairs are numbers, a public key is its private key seen from outside,
and an agreement is the unordered pair of the two.

The terms serve one purpose.  `Ideal` cannot hold of functions into 32 bytes; `symbolic_ideal`
shows that it can hold at all, and every fixed run in this development is a run over this
provider, where the model's functions can be evaluated.
-/
import SignalProtocol.Store

namespace SignalProtocol

/-! ## 1. Terms -/

/-- A buffer, as the way it was made. -/
inductive Term where
  | text (n : Nat)
  | bytes (value : UInt8) (n : Nat)
  | point (key : Nat)
  | scalar (key : Nat)
  | shared (a b : Nat)
  | counter (n : UInt32)
  | nil
  | cons (head tail : Term)
  | hmac (key data : Term)
  | truncated (n : Nat) (buffer : Term)
  | derived (kdf : Nat) (ikm salt : Term) (info : HkdfInfo) (n offset length : Nat)
  | encrypted (cipher : AesCipher) (key iv plaintext : Term)
  | signed (key : Nat) (message random : Term)
  | packed (ratchetKey : Term) (counter previousCounter : Option UInt32) (ciphertext : Term)
  deriving DecidableEq, Repr

namespace Term

/-- A list of buffers as one. -/
def ofList : List Term → Term
  | [] => nil
  | a :: l => cons a (ofList l)

theorem ofList_inj : Function.Injective ofList
  | [], [], _ => rfl
  | [], _ :: _, h => Term.noConfusion h
  | _ :: _, [], h => Term.noConfusion h
  | a :: l, b :: l', h => by
    injection h with hab hl
    rw [hab, ofList_inj hl]

/-- An optional buffer as one. -/
def ofOption : Option Term → Term
  | none => nil
  | some a => cons a nil

/-- The optional buffer that a term stands for. -/
def toOption : Term → Option Term
  | cons a _ => some a
  | _ => none

theorem toOption_ofOption : ∀ a : Option Term, (ofOption a).toOption = a
  | none => rfl
  | some _ => rfl

/-- The length of a buffer, as far as the library asks for it. -/
def length : Term → Nat
  | derived _ _ _ _ _ _ l => l
  | signed _ _ _ => 64
  | bytes _ n => n
  | truncated n _ => n
  | _ => 32

end Term

/-! ## 2. The provider -/

/-- The two keys of an agreement, smaller first. -/
def symbolicAgreement (a b : Nat) : Term := .shared (min a b) (max a b)

theorem symbolicAgreement_comm (a b : Nat) : symbolicAgreement a b = symbolicAgreement b a := by
  rw [symbolicAgreement, symbolicAgreement, min_comm, max_comm]

theorem symbolicAgreement_inj {a b a' b' : Nat}
    (h : symbolicAgreement a b = symbolicAgreement a' b') : s(a, b) = s(a', b') := by
  injection h with hmin hmax
  rw [Sym2.eq_iff]
  omega

/-- **The ideal provider.** -/
def symbolic : Provider Nat Nat Term where
  publicKey := id
  agreement := symbolicAgreement
  verifySignature key message
    | .signed k m _ => key = k && message = m
    | _ => false
  calculateSignature := .signed
  encodePoint := .point
  decodePoint
    | .point k => .ok k
    | _ => .error .invalidKey
  encodePrivate := .scalar
  decodePrivate
    | .scalar k => .ok k
    | _ => .error .invalidKey
  len := Term.length
  fill := .bytes
  hmacSha256 key data := .hmac key (.ofList data)
  truncate := .truncated
  hkdfDeriveSecrets kdf ikm salt := .derived kdf.iterationStartOffset (.ofList ikm) salt
  encrypt cipher key iv plaintext := .ok (.encrypted cipher key iv plaintext)
  decrypt cipher key iv
    | .encrypted c k v p => if c = cipher ∧ k = key ∧ v = iv then .ok p else .error .unknown
    | _ => .error .unknown
  counterIv := .counter
  packSignalMessage m :=
    .packed (.ofOption m.ratchetKey) m.counter m.previousCounter (.ofOption m.ciphertext)
  unpackSignalMessage
    | .packed k c p t => .ok ⟨k.toOption, c, p, t.toOption⟩
    | _ => .error .invalidProtoBuf
  agreement_comm := symbolicAgreement_comm
  decodePoint_encodePoint _ := rfl
  decodePrivate_encodePrivate _ := rfl
  decrypt_encrypt h := by
    cases h
    exact if_pos ⟨rfl, rfl, rfl⟩
  unpack_packSignalMessage m := by
    simp only [Term.toOption_ofOption]
  len_hkdfDeriveSecrets _ _ _ _ _ _ _ := rfl
  len_calculateSignature _ _ _ := rfl

/-- **The provider is ideal**: constructors are injective. -/
theorem symbolic_ideal : Ideal symbolic where
  publicKey_inj := Function.injective_id
  agreement_inj := symbolicAgreement_inj
  hmac_inj h := by
    injection h with hk hd
    exact ⟨hk, Term.ofList_inj hd⟩
  mac_inj h := by
    injection h with _ h
    injection h with hk hd
    exact ⟨hk, Term.ofList_inj hd⟩
  hkdf_inj := by
    rintro ⟨kdf⟩ ⟨kdf'⟩ ikm ikm' salt salt' info info' n n' off l h
    injection h with hkdf hikm hsalt hinfo hn
    exact ⟨congrArg _ hkdf, Term.ofList_inj hikm, hsalt, hinfo, hn⟩

/-! ## 3. A random source -/

/-- A source that never fails and draws the keys `first`, `first + step`, `first + 2 * step`
and so on. -/
def symbolicRng (first step : Nat) : Rng Nat Term where
  privateKey n := .ok (first + step * n)
  word n := .ok (UInt32.ofNat n)
  signatureRandom n := .ok (.text n)

end SignalProtocol
