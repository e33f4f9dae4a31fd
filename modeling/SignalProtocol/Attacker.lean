/-
# An attacker that computes with the library's primitives

The attacker knows a set of buffers and can do with them what any program can do: concatenate
and split, hash, derive keys, encrypt, decrypt with the key, sign with a private key, pack and
unpack messages, and compute the agreement of a private key it has with any public key.  What
it cannot do is invert a primitive.  Over the ideal provider of `Symbolic.lean` a buffer is the
term of its making, so this is a deduction system on terms (`attacker`).

Public keys and constants are free; a private key or an application text is known only if it
is in the set that the attacker starts from.
-/
import SignalProtocol.Lib.Deduction
import SignalProtocol.Agreement

namespace SignalProtocol

open Deduction

/-! ## 1. What can be computed -/

/-- A buffer that some primitive makes from these arguments. -/
inductive Term.MadeFrom : List Term → Term → Prop where
  | bytes (value : UInt8) (n : Nat) : MadeFrom [] (.bytes value n)
  | point (key : Nat) : MadeFrom [] (.point key)
  | counter (n : UInt32) : MadeFrom [] (.counter n)
  | nil : MadeFrom [] .nil
  | cons (head tail : Term) : MadeFrom [head, tail] (.cons head tail)
  /-- `curve_calculate_agreement` of a private key with any public key. -/
  | agreement (ours theirs : Nat) : MadeFrom [.scalar ours] (symbolicAgreement theirs ours)
  | hmac (key data : Term) : MadeFrom [key, data] (.hmac key data)
  | truncated (n : Nat) (buffer : Term) : MadeFrom [buffer] (.truncated n buffer)
  | derived (kdf : Nat) (ikm salt : Term) (info : HkdfInfo) (n offset length : Nat) :
      MadeFrom [ikm, salt] (.derived kdf ikm salt info n offset length)
  | encrypted (cipher : AesCipher) (key iv plaintext : Term) :
      MadeFrom [key, iv, plaintext] (.encrypted cipher key iv plaintext)
  | signed (key : Nat) (message random : Term) :
      MadeFrom [.scalar key, message, random] (.signed key message random)
  | packed (ratchetKey : Term) (counter previousCounter : Option UInt32) (ciphertext : Term) :
      MadeFrom [ratchetKey, ciphertext] (.packed ratchetKey counter previousCounter ciphertext)

/-- What a buffer shows when it is opened with these keys. -/
inductive Term.Shows : Term → List Term → Term → Prop where
  | head (head tail : Term) : Shows (.cons head tail) [] head
  | tail (head tail : Term) : Shows (.cons head tail) [] tail
  | decrypt (cipher : AesCipher) (key iv plaintext : Term) :
      Shows (.encrypted cipher key iv plaintext) [key, iv] plaintext
  | message (key : Nat) (message random : Term) : Shows (.signed key message random) [] message
  | ratchetKey (ratchetKey : Term) (counter previousCounter : Option UInt32) (ciphertext : Term) :
      Shows (.packed ratchetKey counter previousCounter ciphertext) [] ratchetKey
  | ciphertext (ratchetKey : Term) (counter previousCounter : Option UInt32) (ciphertext : Term) :
      Shows (.packed ratchetKey counter previousCounter ciphertext) [] ciphertext

/-- **The attacker.** -/
def attacker : Deduction Term := ⟨Term.MadeFrom, Term.Shows⟩

/-- Nothing is in a buffer that was not put there. -/
theorem attacker_closed : attacker.Closed := by
  intro parts c keys t hb ht
  cases ht <;> cases hb <;> simp

/-- A buffer that shows nothing to anyone. -/
def Term.Atomic (c : Term) : Prop := ∀ keys t, ¬ c.Shows keys t

/-! ## 2. Building one buffer -/

section Builds

variable {K : Set Term}

theorem builds_bytes (v : UInt8) (n : Nat) : attacker.Builds K (.bytes v n) :=
  .build (.bytes v n) fun _ hp => absurd hp List.not_mem_nil

theorem builds_point (k : Nat) : attacker.Builds K (.point k) :=
  .build (.point k) fun _ hp => absurd hp List.not_mem_nil

theorem builds_nil : attacker.Builds K .nil :=
  .build .nil fun _ hp => absurd hp List.not_mem_nil

/-- A text is known or it is not. -/
theorem builds_text_iff {n : Nat} : attacker.Builds K (.text n) ↔ .text n ∈ K := by
  refine ⟨fun h => ?_, .known⟩
  cases h with
  | known h => exact h
  | build h _ => cases h

/-- Private keys are guessed by nobody. -/
theorem builds_scalar_iff {k : Nat} : attacker.Builds K (.scalar k) ↔ .scalar k ∈ K := by
  refine ⟨fun h => ?_, .known⟩
  cases h with
  | known h => exact h
  | build h _ => cases h

theorem builds_cons_iff {a b : Term} : attacker.Builds K (.cons a b) ↔
    .cons a b ∈ K ∨ attacker.Builds K a ∧ attacker.Builds K b := by
  rw [builds_iff]
  refine or_congr_right ⟨?_, fun h => ⟨_, .cons a b, by simpa using h⟩⟩
  rintro ⟨_, ⟨⟩, h⟩
  simpa using h

/-- An agreement takes one of the two private keys. -/
theorem builds_agreement_iff {a b : Nat} : attacker.Builds K (symbolicAgreement a b) ↔
    symbolicAgreement a b ∈ K ∨ .scalar a ∈ K ∨ .scalar b ∈ K := by
  rw [builds_iff]
  refine or_congr_right ⟨?_, ?_⟩
  · rintro ⟨parts, hb, hp⟩
    generalize ht : symbolicAgreement a b = t at hb
    cases hb with
    | agreement ours theirs =>
      have hours := builds_scalar_iff.1 (hp _ List.mem_cons_self)
      rcases Sym2.eq_iff.1 (symbolicAgreement_inj ht) with ⟨-, rfl⟩ | ⟨rfl, -⟩
      · exact Or.inr hours
      · exact Or.inl hours
    | _ => cases ht
  · rintro (h | h)
    · refine ⟨[.scalar a], ?_, by simpa using .known h⟩
      rw [symbolicAgreement_comm]
      exact .agreement a b
    · exact ⟨[.scalar b], .agreement b a, by simpa using .known h⟩

theorem builds_hmac_iff {k d : Term} : attacker.Builds K (.hmac k d) ↔
    .hmac k d ∈ K ∨ attacker.Builds K k ∧ attacker.Builds K d := by
  rw [builds_iff]
  refine or_congr_right ⟨?_, fun h => ⟨_, .hmac k d, by simpa using h⟩⟩
  rintro ⟨_, ⟨⟩, h⟩
  simpa using h

theorem builds_truncated_iff {n : Nat} {b : Term} : attacker.Builds K (.truncated n b) ↔
    .truncated n b ∈ K ∨ attacker.Builds K b := by
  rw [builds_iff]
  refine or_congr_right ⟨?_, fun h => ⟨_, .truncated n b, by simpa using h⟩⟩
  rintro ⟨_, ⟨⟩, h⟩
  simpa using h

theorem builds_derived_iff {kdf : Nat} {ikm salt : Term} {info : HkdfInfo} {n off l : Nat} :
    attacker.Builds K (.derived kdf ikm salt info n off l) ↔
      .derived kdf ikm salt info n off l ∈ K ∨
        attacker.Builds K ikm ∧ attacker.Builds K salt := by
  rw [builds_iff]
  refine or_congr_right ⟨?_, fun h => ⟨_, .derived kdf ikm salt info n off l, by simpa using h⟩⟩
  rintro ⟨_, ⟨⟩, h⟩
  simpa using h

/-- A signature of a key that the attacker lacks must be known. -/
theorem builds_signed_iff {k : Nat} {m r : Term} : attacker.Builds K (.signed k m r) ↔
    .signed k m r ∈ K ∨ .scalar k ∈ K ∧ attacker.Builds K m ∧ attacker.Builds K r := by
  rw [builds_iff]
  refine or_congr_right ⟨?_, fun h => ⟨_, .signed k m r, ?_⟩⟩
  · rintro ⟨_, ⟨⟩, h⟩
    simpa [builds_scalar_iff] using h
  · simpa [builds_scalar_iff] using h

/-- A list of buffers, none of which is known as a list already, takes all of them. -/
theorem builds_of_ofList (hK : ∀ a b, Term.cons a b ∉ K) {t : Term} :
    ∀ {l : List Term}, t ∈ l → attacker.Builds K (.ofList l) → attacker.Builds K t
  | a :: l, ht, h => by
    rcases builds_cons_iff.1 h with h | ⟨ha, hl⟩
    · exact absurd h (hK _ _)
    · rcases List.mem_cons.1 ht with rfl | ht
      · exact ha
      · exact builds_of_ofList hK ht hl

end Builds

/-- Decryption succeeds with the key that was used and with no other. -/
theorem symbolic_decrypt_ok {c c' : AesCipher} {k k' v v' p q : Term}
    (h : symbolic.decrypt c k v (.encrypted c' k' v' p) = .ok q) : c' = c ∧ k' = k ∧ v' = v := by
  by_contra hne
  have herr : symbolic.decrypt c k v (.encrypted c' k' v' p) = .error .unknown := if_neg hne
  rw [herr] at h
  cases h

/-! ## 3. Who does not know what -/

/-- What an outsider starts from: every application text and every private key, except those
it is not to learn. -/
def outsider (texts keys : Set Nat) : Set Term :=
  {t | (∃ n ∉ texts, t = .text n) ∨ ∃ k ∉ keys, t = .scalar k}

theorem outsider_atomic {texts keys : Set Nat} {c : Term} (h : c ∈ outsider texts keys) :
    c.Atomic := by
  rintro ks t ht
  rcases h with ⟨n, -, rfl⟩ | ⟨k, -, rfl⟩ <;> cases ht

theorem text_mem_outsider {texts keys : Set Nat} {n : Nat} :
    .text n ∈ outsider texts keys ↔ n ∉ texts := by
  simp [outsider]

theorem scalar_mem_outsider {texts keys : Set Nat} {k : Nat} :
    .scalar k ∈ outsider texts keys ↔ k ∉ keys := by
  simp [outsider]

/-- What a network sees of a signal message: its packed body and its MAC (the version byte is
public). -/
def SignalMessage.wire (m : SignalMessage Nat Term) : Set Term :=
  {m.serialized.body, m.serialized.mac}

/-- Everything that two parties sent. -/
def traffic (sent : Party → List (SignalMessage Nat Term × Term)) : Set Term :=
  {t | ∃ x, ∃ e ∈ sent x, t ∈ e.1.wire}

end SignalProtocol
