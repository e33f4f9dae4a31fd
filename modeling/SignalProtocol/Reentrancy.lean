/-
# Calls from inside a decryption callback

`session_cipher_decrypt_signal_message` and `session_cipher_decrypt_pre_key_signal_message`
load the record, decrypt, hand the plaintext to the callback, and then store the record they
have in hand.  The lock is recursive, so the callback may call the library.  The flag that
refuses such calls, `inside_callback`, lives in the `session_cipher` object: it stops calls
through that object and no others.  A callback that encrypts through a second object for the
same address therefore completes, and its record is overwritten when the outer call stores.

A callback is given here as a script: the calls it makes and the code it returns.  A callback
that looks at the plaintext, or at what its calls return, is one such script in any one run.

The stored record is what the completed calls, one after another, would have left, when the
callback refuses the message, or when none of its own calls completes.  The last run is one in
which neither holds.
-/
import Mathlib.Data.List.Permutation
import SignalProtocol.Calls
import SignalProtocol.Replay

namespace SignalProtocol

variable {Addr Priv Pub B : Type} [DecidableEq Addr] [LinearOrder Pub] [DecidableEq B]

/-! ## 1. Calls in sequence -/

/-- The world after some calls, one after another. -/
def runCalls (ctx : SignalContext Addr Priv Pub B) :
    List (Call Addr Priv Pub B) → World Addr Priv Pub B → World Addr Priv Pub B
  | [], w => w
  | c :: calls, w => runCalls ctx calls (c.run ctx w).2

/-- The calls with the news whether each of them completed, that is, returned no error. -/
def callsMade (ctx : SignalContext Addr Priv Pub B) :
    List (Call Addr Priv Pub B) → World Addr Priv Pub B → List (Call Addr Priv Pub B × Bool)
  | [], _ => []
  | c :: calls, w => (c, (c.run ctx w).1.isOk) :: callsMade ctx calls (c.run ctx w).2

theorem callsMade_map_fst (ctx : SignalContext Addr Priv Pub B)
    (calls : List (Call Addr Priv Pub B)) (w : World Addr Priv Pub B) :
    (callsMade ctx calls w).map Prod.fst = calls := by
  induction calls generalizing w with
  | nil => rfl
  | cons c calls ih => rw [callsMade, List.map_cons, ih]

/-- **The record of `address` is the result of calls made one after another**: some order of
the calls leads from `w` to the record that `w'` holds.  Each completed call is in the order;
one that was refused may be left out. -/
def Sequential (ctx : SignalContext Addr Priv Pub B) (address : Addr)
    (made : List (Call Addr Priv Pub B × Bool)) (w w' : World Addr Priv Pub B) : Prop :=
  ∃ order refused : List (Call Addr Priv Pub B × Bool), (order ++ refused).Perm made ∧
    (∀ c ∈ refused, c.2 = false) ∧
    (runCalls ctx (order.map Prod.fst) w).sessions address = w'.sessions address

/-! ## 2. The two outer calls -/

/-- The calls that run a callback. -/
inductive Outer (Pub B : Type) where
  | signal (message : SignalMessage Pub B)
  | preKey (message : PreKeySignalMessage Pub B)

/-- The callback that makes some calls and then returns a code. -/
def scriptedCallback (ctx : SignalContext Addr Priv Pub B) (nested : List (Call Addr Priv Pub B))
    (verdict : Except SgError Unit) (_plaintext : B) : Op SgError (World Addr Priv Pub B) Unit :=
  fun w => (verdict, runCalls ctx nested w)

/-- A cipher object with such a callback, as it is outside the callback. -/
def scriptedCipher (ctx : SignalContext Addr Priv Pub B) (address : Addr)
    (nested : List (Call Addr Priv Pub B)) (verdict : Except SgError Unit) :
    SessionCipher Addr Priv Pub B :=
  ⟨address, false, some (scriptedCallback ctx nested verdict)⟩

theorem decryptCallback_scripted (ctx : SignalContext Addr Priv Pub B) (address : Addr)
    (nested : List (Call Addr Priv Pub B)) (verdict : Except SgError Unit) (plaintext : B) :
    sessionCipherDecryptCallback (scriptedCipher ctx address nested verdict) plaintext =
      scriptedCallback ctx nested verdict plaintext :=
  sessionCipherDecryptCallback_of_some rfl plaintext

namespace Outer

/-- The outer call, through a cipher object whose callback makes the nested calls. -/
def call (ctx : SignalContext Addr Priv Pub B) (address : Addr)
    (nested : List (Call Addr Priv Pub B)) (verdict : Except SgError Unit) :
    Outer Pub B → Call Addr Priv Pub B
  | signal m => .decryptSignal (scriptedCipher ctx address nested verdict) m
  | preKey m => .decryptPreKey (scriptedCipher ctx address nested verdict) m

/-- What an outer call does before its callback: the plaintext, the record that it will store
and the pre key that it will remove. -/
def receive (ctx : SignalContext Addr Priv Pub B) (address : Addr) :
    Outer Pub B →
      Op SgError (World Addr Priv Pub B) (B × SessionRecord Priv Pub B × Option UInt32)
  | signal m => do
    let contains ← signalProtocolSessionContainsSession address
    Op.require (contains = true) .noSession
    let record ← signalProtocolSessionLoadSession ctx.provider address
    let result ← atRandom (sessionCipherDecryptFromRecord ctx.provider ctx.rng record m)
    return (result.1, result.2, none)
  | preKey m => do
    let record ← signalProtocolSessionLoadSession ctx.provider address
    let built ← sessionBuilderProcessPreKeySignalMessage ctx address record m
    let result ← atRandom (sessionCipherDecryptFromRecord ctx.provider ctx.rng built.1 m.message)
    return (result.1, result.2, built.2)

/-- What it does after its callback. -/
def finish (ctx : SignalContext Addr Priv Pub B) (address : Addr)
    (received : B × SessionRecord Priv Pub B × Option UInt32) :
    Op SgError (World Addr Priv Pub B) (Reply Pub B) := do
  signalProtocolSessionStoreSession ctx.provider address received.2.1
  removeOneTimePreKey received.2.2
  return .plaintext received.1

/-- **An outer call is its first part, the callback and its second part.** -/
theorem run_call (ctx : SignalContext Addr Priv Pub B) (address : Addr)
    (nested : List (Call Addr Priv Pub B)) (verdict : Except SgError Unit) (outer : Outer Pub B) :
    (outer.call ctx address nested verdict).run ctx = (do
      let received ← outer.receive ctx address
      scriptedCallback ctx nested verdict received.1
      finish ctx address received) := by
  cases outer with
  | signal m =>
    simp only [call, Call.run, receive, sessionCipherDecryptSignalMessage,
      Threaded.sessionCipherDecryptSignalMessage, Program.run_eqs, run_drawing,
      Threaded.run_decryptFromRecord, Threaded.run_decryptCallback,
      decryptCallback_scripted, Op.bind_assoc]
    rfl
  | preKey m =>
    simp only [call, Call.run, receive, sessionCipherDecryptPreKeySignalMessage,
      Threaded.sessionCipherDecryptPreKeySignalMessage, Program.run_eqs, run_drawing,
      Threaded.run_processPreKeySignalMessage, Threaded.run_decryptFromRecord,
      Threaded.run_decryptCallback,
      decryptCallback_scripted, Op.bind_assoc]
    rfl

/-- The nested calls that were made: none if the outer call never got to its callback. -/
def nestedMade (ctx : SignalContext Addr Priv Pub B) (address : Addr)
    (nested : List (Call Addr Priv Pub B)) (w : World Addr Priv Pub B) (outer : Outer Pub B) :
    List (Call Addr Priv Pub B × Bool) :=
  match outer.receive ctx address w with
  | (.ok _, w₁) => callsMade ctx nested w₁
  | (.error _, _) => []

/-- All calls that were made: the outer one on its own, that is, with a callback that only
returns the code, and the nested ones. -/
def allMade (ctx : SignalContext Addr Priv Pub B) (address : Addr)
    (nested : List (Call Addr Priv Pub B)) (verdict : Except SgError Unit)
    (w : World Addr Priv Pub B) (outer : Outer Pub B) : List (Call Addr Priv Pub B × Bool) :=
  (outer.call ctx address [] verdict,
    ((outer.call ctx address nested verdict).run ctx w).1.isOk) ::
      outer.nestedMade ctx address nested w

/-! ## 3. How an outer call ends -/

section Ends

variable {ctx : SignalContext Addr Priv Pub B} {address : Addr} {w w₁ : World Addr Priv Pub B}
  {outer : Outer Pub B} (nested : List (Call Addr Priv Pub B))

/-- It fails before the callback, whatever the callback is. -/
theorem run_of_not_received {e : SgError} (verdict : Except SgError Unit)
    (h : outer.receive ctx address w = (.error e, w₁)) :
    (outer.call ctx address nested verdict).run ctx w = (.error e, w₁) := by
  rw [run_call]
  exact Op.bind_of_error h

/-- The callback refuses the message: what the nested calls did stays. -/
theorem run_of_refused {received : B × SessionRecord Priv Pub B × Option UInt32} (e : SgError)
    (h : outer.receive ctx address w = (.ok received, w₁)) :
    (outer.call ctx address nested (.error e)).run ctx w =
      (.error e, runCalls ctx nested w₁) := by
  rw [run_call, Op.bind_of_ok h]
  rfl

/-- The callback accepts the message: the record from before the callback is stored. -/
theorem run_of_accepted {received : B × SessionRecord Priv Pub B × Option UInt32}
    (h : outer.receive ctx address w = (.ok received, w₁)) :
    (outer.call ctx address nested (.ok ())).run ctx w =
      finish ctx address received (runCalls ctx nested w₁) := by
  rw [run_call, Op.bind_of_ok h]
  rfl

omit [LinearOrder Pub] [DecidableEq B] in
/-- The record that is stored does not depend on what happened meanwhile. -/
theorem sessions_finish (ctx : SignalContext Addr Priv Pub B) (address : Addr)
    (received : B × SessionRecord Priv Pub B × Option UInt32) (w : World Addr Priv Pub B) :
    (finish ctx address received w).2.sessions address =
      some (received.2.1.serialize ctx.provider) := by
  obtain ⟨plaintext, record, used⟩ := received
  cases used <;> exact Function.update_self ..

end Ends

/-! ## 4. When the nested calls are not lost -/

/-- Leaving all nested calls out. -/
theorem sequential_alone {ctx : SignalContext Addr Priv Pub B} {address : Addr}
    {nested : List (Call Addr Priv Pub B)} {verdict : Except SgError Unit}
    {w w' : World Addr Priv Pub B} {outer : Outer Pub B}
    (hrefused : ∀ c ∈ outer.nestedMade ctx address nested w, c.2 = false)
    (h : ((outer.call ctx address [] verdict).run ctx w).2.sessions address =
      w'.sessions address) :
    Sequential ctx address (outer.allMade ctx address nested verdict w) w w' :=
  ⟨[_], _, .refl _, hrefused, h⟩

/-- **Nested calls one after another.**  If the callback refuses the message, or if none of the
calls that it makes completes, then the stored record is the result of executing the completed
calls one after another.  A nested call that completes is never overwritten: the stores are
then what the nested calls have left. -/
theorem nested_calls_sequential (ctx : SignalContext Addr Priv Pub B) (address : Addr)
    (nested : List (Call Addr Priv Pub B)) (verdict : Except SgError Unit)
    (w : World Addr Priv Pub B) (outer : Outer Pub B)
    (h : verdict ≠ .ok () ∨ ∀ c ∈ outer.nestedMade ctx address nested w, c.2 = false) :
    Sequential ctx address (outer.allMade ctx address nested verdict w) w
      ((outer.call ctx address nested verdict).run ctx w).2 ∧
    ((∃ c ∈ outer.nestedMade ctx address nested w, c.2 = true) →
      ((outer.call ctx address nested verdict).run ctx w).2 =
        runCalls ctx nested (outer.receive ctx address w).2) := by
  rcases hr : outer.receive ctx address w with ⟨e | received, w₁⟩
  · have hnone : outer.nestedMade ctx address nested w = [] := by rw [nestedMade, hr]
    refine ⟨sequential_alone (by simp [hnone]) ?_, by simp [hnone]⟩
    rw [run_of_not_received _ _ hr, run_of_not_received _ _ hr]
  · cases verdict with
    | error e =>
      rw [run_of_refused nested e hr]
      refine ⟨⟨outer.allMade ctx address nested (.error e) w, [], ?_, by simp, ?_⟩, fun _ => rfl⟩
      · rw [List.append_nil]
      · have hnested : (outer.nestedMade ctx address nested w).map Prod.fst = nested := by
          rw [nestedMade, hr]
          exact callsMade_map_fst ctx nested w₁
        rw [allMade, List.map_cons, hnested, runCalls, run_of_refused [] e hr]
        rfl
    | ok u =>
      have hrefused := h.resolve_left fun hne => hne rfl
      refine ⟨sequential_alone hrefused ?_, fun ⟨c, hc, hok⟩ => ?_⟩
      · rw [run_of_accepted [] hr, run_of_accepted nested hr, sessions_finish, sessions_finish]
      · rw [hrefused c hc] at hok
        cases hok

end Outer

/-! ## 5. Two runs -/

/-- A party with one session, which it has set up from a bundle. -/
def bundledWorld : World Nat Nat Nat Term :=
  runCalls sampleContext [.processPreKeyBundle 0 sampleBundle] sampleStore

/-- The peer's first message arrives. -/
def peerMessage : Outer Nat Term := .signal (sampleMessage samplePeerSession (.text 9))

/-- The callback encrypts through the object that is decrypting: the call is refused, and the
stored record is that of the decryption. -/
theorem nested_calls_sequential_same_object :
    let nested := [Call.encrypt ⟨0, true, none⟩ (.text 0)]
    ((peerMessage.call sampleContext 0 nested (.ok ())).run sampleContext bundledWorld).1.isOk =
      true ∧
    Sequential sampleContext 0 (peerMessage.allMade sampleContext 0 nested (.ok ()) bundledWorld)
      bundledWorld
      ((peerMessage.call sampleContext 0 nested (.ok ())).run sampleContext bundledWorld).2 :=
  ⟨by decide +kernel, (Outer.nested_calls_sequential sampleContext 0 _ (.ok ()) bundledWorld
    peerMessage (Or.inr (by decide +kernel))).1⟩

/-- An encryption through a second object for the same address. -/
def otherEncrypt : Call Nat Nat Nat Term := .encrypt (SessionCipher.create 0) (.text 0)

/-- The world after the peer's message, when the callback has made that call. -/
def overwrittenWorld : World Nat Nat Nat Term :=
  ((peerMessage.call sampleContext 0 [otherEncrypt] (.ok ())).run sampleContext bundledWorld).2

/-- The signal message that an encryption through a second object gives. -/
def otherMessage (w : World Nat Nat Nat Term) : Option (SignalMessage Nat Term) :=
  ((sessionCipherEncrypt sampleContext (SessionCipher.create 0) (.text 0) w).1.map
    CiphertextMessage.inner).toOption

/-- The orders of two calls that have both completed. -/
theorem sequential_pair {ctx : SignalContext Addr Priv Pub B} {address : Addr}
    {c d : Call Addr Priv Pub B} {w w' : World Addr Priv Pub B}
    (h : Sequential ctx address [(c, true), (d, true)] w w') :
    (runCalls ctx [c, d] w).sessions address = w'.sessions address ∨
      (runCalls ctx [d, c] w).sessions address = w'.sessions address := by
  obtain ⟨order, refused, hperm, hrefused, hs⟩ := h
  have hnone : refused = [] := by
    refine List.eq_nil_iff_forall_not_mem.2 fun x hx => ?_
    have hmem := hperm.subset (List.mem_append_right order hx)
    have hfalse := hrefused x hx
    simp only [List.mem_cons, List.not_mem_nil, or_false] at hmem
    rcases hmem with rfl | rfl <;> cases hfalse
  rw [hnone, List.append_nil] at hperm
  rcases List.perm_pair.1 hperm with rfl | rfl
  · exact Or.inl hs
  · exact Or.inr hs

/-- **The callback encrypts through a second object**: both calls complete, the stored record
is not the result of any order of them, and the next encryption of the same plaintext gives the
same message under the same key.  No call has drawn randomness. -/
theorem nested_encrypt_lost :
    ((peerMessage.allMade sampleContext 0 [otherEncrypt] (.ok ()) bundledWorld).map Prod.snd =
      [true, true] ∧ overwrittenWorld.drawn = bundledWorld.drawn) ∧
    ¬ Sequential sampleContext 0
      (peerMessage.allMade sampleContext 0 [otherEncrypt] (.ok ()) bundledWorld) bundledWorld
      overwrittenWorld ∧
    (otherMessage bundledWorld).isSome = true ∧
    otherMessage overwrittenWorld = otherMessage bundledWorld := by
  have hboth : (peerMessage.allMade sampleContext 0 [otherEncrypt] (.ok ()) bundledWorld).map
      Prod.snd = [true, true] := by decide +kernel
  refine ⟨⟨hboth, by decide +kernel⟩, fun h => ?_, by decide +kernel, by decide +kernel⟩
  have hmade : peerMessage.allMade sampleContext 0 [otherEncrypt] (.ok ()) bundledWorld =
      [(peerMessage.call sampleContext 0 [] (.ok ()), true), (otherEncrypt, true)] := by
    unfold Outer.allMade Outer.nestedMade at hboth ⊢
    rcases hreceived : peerMessage.receive sampleContext 0 bundledWorld with ⟨e | received, w₁⟩ <;>
      simp only [hreceived, callsMade, List.map_cons, List.map_nil, List.cons.injEq] at hboth ⊢
    · cases hboth.2
    · exact ⟨Prod.ext rfl hboth.1, Prod.ext rfl hboth.2.1, trivial⟩
  rw [hmade] at h
  have horders : (runCalls sampleContext [peerMessage.call sampleContext 0 [] (.ok ()),
        otherEncrypt] bundledWorld).sessions 0 ≠ overwrittenWorld.sessions 0 ∧
      (runCalls sampleContext [otherEncrypt, peerMessage.call sampleContext 0 [] (.ok ())]
        bundledWorld).sessions 0 ≠ overwrittenWorld.sessions 0 := by decide +kernel
  rcases sequential_pair h with h | h
  · exact horders.1 h
  · exact horders.2 h

end SignalProtocol
