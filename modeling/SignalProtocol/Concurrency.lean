/-
# Threads that share one context

The locking functions of a `signal_context` are optional.  If they are set, every call of the
session builder and of the session cipher locks the context's mutex before it does anything and
unlocks it at the end (`signal_lock`, `signal_unlock`), and so does, once more, the search of
the states of a record inside of a decryption: the mutex must be recursive.

The programs of `Builder.lean` and `Cipher.lean` are cut where another thread may come in: at
every callback into a store, at every draw from the random source and at every locking and
unlocking.  With the locking functions each of them is a section in the sense of `Lib/Mutex`
(`Call.section_program`).  So the threads take turns: every concurrent run is one order of the
calls, each executed atomically (`Linearized`), which is what the other modules assume of their
calls.  What they prove of a run then holds of concurrent threads; section 3 carries it out for
the keys that a sender uses.

The flag `inside_callback` of a cipher object is set and cleared under the mutex, so no other
thread ever sees it set.
-/
import SignalProtocol.Calls
import SignalProtocol.Lib.Mutex
import SignalProtocol.SenderKeys

namespace SignalProtocol

variable {Addr Priv Pub B : Type}

/-! ## 1. Calls are sections -/

namespace Threaded

open Program

section Balance

variable [DecidableEq Addr] [LinearOrder Pub] [DecidableEq B]
  (ctx : SignalContext Addr Priv Pub B) (env : Environment Addr Priv Pub B)

/-! What a call locks it unlocks. -/

omit [DecidableEq Addr] [DecidableEq B] in
theorem balanced_processPreKeySignalMessageV3 (record : SessionRecord Priv Pub B)
    (message : PreKeySignalMessage Pub B) :
    (sessionBuilderProcessPreKeySignalMessageV3 ctx record message).Balanced 0 := by
  unfold sessionBuilderProcessPreKeySignalMessageV3
  split
  · exact .pure _
  · refine .bind (.atomically _) fun _ => .bind (.atomically _) fun _ => ?_
    exact .bind (.atomically _) fun _ => .bind (.atomically _) fun _ => .pure _

omit [DecidableEq B] in
theorem balanced_processPreKeySignalMessage (address : Addr) (record : SessionRecord Priv Pub B)
    (message : PreKeySignalMessage Pub B) :
    (sessionBuilderProcessPreKeySignalMessage ctx address record message).Balanced 0 := by
  refine .bind (.atomically _) fun _ => .bind (.require _ _) fun _ => ?_
  refine .bind (balanced_processPreKeySignalMessageV3 ctx record message) fun _ => ?_
  exact .bind (.atomically _) fun _ => .pure _

omit [DecidableEq Addr] [LinearOrder Pub] [DecidableEq B] in
theorem balanced_initiateParameters (state : SessionState Priv Pub B)
    (message : KeyExchangeMessage Pub B) : (initiateParameters ctx state message).Balanced 0 := by
  unfold initiateParameters
  cases state.pendingKeyExchange with
  | none =>
    refine .bind (.atomically _) fun _ => .bind (.atomically _) fun _ => ?_
    exact .bind (.atomically _) fun _ => .pure _
  | some pending => exact .bind (.ofOption _ _) fun _ => .pure _

omit [DecidableEq B] in
theorem balanced_processInitiate (address : Addr) (message : KeyExchangeMessage Pub B) :
    (sessionBuilderProcessInitiate ctx address message).Balanced 0 := by
  refine .bind (.atomically _) fun record => .bind (.ofExcept _) fun _ => ?_
  refine .bind (balanced_initiateParameters ctx record.state message) fun _ => ?_
  refine .bind (.atomically _) fun _ => .bind (.atomically _) fun _ => ?_
  exact .bind (.atomically _) fun _ => .bind (.atomically _) fun _ => .pure _

omit [DecidableEq B] in
theorem balanced_processResponse (address : Addr) (message : KeyExchangeMessage Pub B) :
    (sessionBuilderProcessResponse ctx address message).Balanced 0 := by
  refine .bind (.atomically _) fun record => ?_
  cases record.state.pendingKeyExchange.filter fun p => p.sequence = message.sequence with
  | none => exact .require _ _
  | some pending =>
    refine .bind (.ofOption _ _) fun _ => .bind (.atomically _) fun state => ?_
    refine .bind (.atomically _) fun _ => .bind ?_ fun _ => ?_
    · split
      · exact .ofExcept _
      · exact .pure _
    · exact .bind (.atomically _) fun _ => .atomically _

omit [DecidableEq Addr] in
theorem balanced_tryStates (P : Provider Priv Pub B) (rng : Rng Priv B)
    (ciphertext : SignalMessage Pub B) (states : List (SessionState Priv Pub B)) :
    (sessionCipherTryStates P rng ciphertext states).Balanced 0 := by
  induction states with
  | nil => exact .ofExcept _
  | cons state rest ih =>
    refine .bind (.ofExcept _) fun copy => .recover ?_ _ ?_
    · exact .bind (.atomically _) fun _ => .pure _
    · exact .bind ih fun _ => .pure _

omit [DecidableEq Addr] in
theorem balanced_decryptFromRecord (record : SessionRecord Priv Pub B)
    (ciphertext : SignalMessage Pub B) :
    (drawing (sessionCipherDecryptFromRecord env.locking ctx.provider ctx.rng record ciphertext) :
      Program SgError (World Addr Priv Pub B) _).Balanced 0 :=
  .zoom (.guarded (.bind (balanced_tryStates ctx.provider ctx.rng ciphertext _) fun _ => .pure _)
    env.locking) _ _

omit [DecidableEq Addr] [LinearOrder Pub] [DecidableEq B] in
theorem balanced_decryptCallback (cipher : SessionCipher Addr Priv Pub B) (plaintext : B) :
    (sessionCipherDecryptCallback env cipher plaintext).Balanced 0 := by
  unfold sessionCipherDecryptCallback
  cases cipher.decryptCallback with
  | none => exact .pure _
  | some callback => exact env.balanced_callback callback plaintext

end Balance

section Sections

variable [DecidableEq Addr] [LinearOrder Pub] [DecidableEq B]
  (ctx : SignalContext Addr Priv Pub B) {env : Environment Addr Priv Pub B}
  (henv : env.locking = true)

include henv

omit [DecidableEq Addr] [LinearOrder Pub] [DecidableEq B] in
theorem section_guarded {α : Type} {p : Program SgError (World Addr Priv Pub B) α}
    (hp : p.Balanced 0) : (p.guarded env.locking).Section := by
  rw [henv]
  exact hp.section

omit [LinearOrder Pub] [DecidableEq B] in
theorem section_processPreKeyBundle (address : Addr) (bundle : PreKeyBundle Pub B) :
    (sessionBuilderProcessPreKeyBundle ctx env address bundle).Section := by
  refine section_guarded henv ?_
  refine .bind (.atomically _) fun _ => .bind (.require _ _) fun _ => ?_
  refine .bind (.ofOption _ _) fun _ => .bind (.ofExcept _) fun _ => ?_
  refine .bind (.atomically _) fun _ => .bind (.atomically _) fun _ => ?_
  refine .bind (.atomically _) fun _ => .bind (.atomically _) fun _ => ?_
  exact .bind (.atomically _) fun _ => .bind (.atomically _) fun _ => .atomically _

omit [DecidableEq B] in
theorem section_processKeyExchangeMessage (address : Addr) (message : KeyExchangeMessage Pub B) :
    (sessionBuilderProcessKeyExchangeMessage ctx env address message).Section := by
  refine section_guarded henv ?_
  refine .bind (.atomically _) fun _ => .bind (.require _ _) fun _ => ?_
  split
  · exact .bind (balanced_processInitiate ctx address message) fun _ => .pure _
  · exact .bind (balanced_processResponse ctx address message) fun _ => .pure _

omit [LinearOrder Pub] [DecidableEq B] in
theorem section_process (address : Addr) : (sessionBuilderProcess ctx env address).Section := by
  refine section_guarded henv (Balanced.mapError ?_ _)
  refine .bind (.atomically _) fun _ => .bind (.atomically _) fun _ => ?_
  refine .bind (.atomically _) fun _ => .bind (.atomically _) fun _ => ?_
  refine .bind (.atomically _) fun _ => .bind (.require _ _) fun _ => ?_
  exact .bind (.atomically _) fun _ => .bind (.atomically _) fun _ => .pure _

omit [LinearOrder Pub] [DecidableEq B] in
theorem section_encrypt (cipher : SessionCipher Addr Priv Pub B) (paddedMessage : B) :
    (sessionCipherEncrypt ctx env cipher paddedMessage).Section := by
  refine section_guarded henv ?_
  refine .bind (.require _ _) fun _ => .bind (.atomically _) fun _ => ?_
  exact .bind (.ofExcept _) fun _ => .bind (.atomically _) fun _ => .pure _

theorem section_decryptSignalMessage (cipher : SessionCipher Addr Priv Pub B)
    (ciphertext : SignalMessage Pub B) :
    (sessionCipherDecryptSignalMessage ctx env cipher ciphertext).Section := by
  refine section_guarded henv ?_
  refine .bind (.require _ _) fun _ => .bind (.atomically _) fun _ => ?_
  refine .bind (.require _ _) fun _ => .bind (.atomically _) fun record => ?_
  refine .bind (balanced_decryptFromRecord ctx env record ciphertext) fun result => ?_
  refine .bind (balanced_decryptCallback env cipher result.1) fun _ => ?_
  exact .bind (.atomically _) fun _ => .pure _

theorem section_decryptPreKeySignalMessage (cipher : SessionCipher Addr Priv Pub B)
    (ciphertext : PreKeySignalMessage Pub B) :
    (sessionCipherDecryptPreKeySignalMessage ctx env cipher ciphertext).Section := by
  refine section_guarded henv ?_
  refine .bind (.require _ _) fun _ => .bind (.atomically _) fun record => ?_
  refine .bind (balanced_processPreKeySignalMessage ctx _ record ciphertext) fun built => ?_
  refine .bind (balanced_decryptFromRecord ctx env built.1 ciphertext.message) fun result => ?_
  refine .bind (balanced_decryptCallback env cipher result.1) fun _ => ?_
  exact .bind (.atomically _) fun _ => .bind (.atomically _) fun _ => .pure _

end Sections

end Threaded

section Programs

variable [DecidableEq Addr] [LinearOrder Pub] [DecidableEq B]

/-- **A call, cut at its accesses.** -/
def Call.program (ctx : SignalContext Addr Priv Pub B) (env : Environment Addr Priv Pub B) :
    Call Addr Priv Pub B → Program SgError (World Addr Priv Pub B) (Reply Pub B)
  | processPreKeyBundle address bundle => do
    Threaded.sessionBuilderProcessPreKeyBundle ctx env address bundle
    return .nothing
  | process address => do
    let message ← Threaded.sessionBuilderProcess ctx env address
    return .keyExchange message
  | processKeyExchangeMessage address message => do
    let response ← Threaded.sessionBuilderProcessKeyExchangeMessage ctx env address message
    return response.elim .nothing .keyExchange
  | decryptPreKey cipher m => do
    let plaintext ← Threaded.sessionCipherDecryptPreKeySignalMessage ctx env cipher m
    return .plaintext plaintext
  | decryptSignal cipher m => do
    let plaintext ← Threaded.sessionCipherDecryptSignalMessage ctx env cipher m
    return .plaintext plaintext
  | encrypt cipher plaintext => do
    let message ← Threaded.sessionCipherEncrypt ctx env cipher plaintext
    return .ciphertext message

variable (ctx : SignalContext Addr Priv Pub B) (env : Environment Addr Priv Pub B)

open Threaded in
/-- **Run alone, a call does what it does.** -/
theorem Call.run_program (c : Call Addr Priv Pub B) : (c.program ctx env).run = c.run ctx := by
  cases c <;> simp only [Call.program, Call.run, Program.run_eqs, run_processPreKeyBundle,
    run_process, run_processKeyExchangeMessage, run_decryptPreKeySignalMessage,
    run_decryptSignalMessage, run_encrypt]

variable {env}

open Threaded in
/-- **With locking functions every call is a section.** -/
theorem Call.section_program (henv : env.locking = true) (c : Call Addr Priv Pub B) :
    (c.program ctx env).Section := by
  cases c with
  | processPreKeyBundle address bundle =>
    exact (section_processPreKeyBundle ctx henv address bundle).map _
  | process address => exact (section_process ctx henv address).map _
  | processKeyExchangeMessage address message =>
    exact (section_processKeyExchangeMessage ctx henv address message).map _
  | decryptPreKey cipher m => exact (section_decryptPreKeySignalMessage ctx henv cipher m).map _
  | decryptSignal cipher m => exact (section_decryptSignalMessage ctx henv cipher m).map _
  | encrypt cipher plaintext => exact (section_encrypt ctx henv cipher plaintext).map _

end Programs

/-! ## 2. Concurrent runs are sequential ones -/

section Linear

variable [DecidableEq Addr] [LinearOrder Pub] [DecidableEq B] {ι : Type} [DecidableEq ι]

/-- **The calls have an order**, in which they give the results that the threads got. -/
structure Linearized (ctx : SignalContext Addr Priv Pub B) (env : Environment Addr Priv Pub B)
    (w : World Addr Priv Pub B) (calls : ι → List (Call Addr Priv Pub B))
    (m : Machine ι (Call Addr Priv Pub B) SgError (World Addr Priv Pub B) (Reply Pub B))
    (order : List (ι × Call Addr Priv Pub B × Except SgError (Reply Pub B))) : Prop where
  /-- Each thread has its part of the order as its results. -/
  returned : ∀ i, (order.filter fun e => e.1 = i).map Prod.snd = (m.thread i).returned
  /-- They are results of the calls that it had to make. -/
  made : ∀ i, (m.thread i).returned.map Prod.fst <+: calls i
  /-- Executed atomically in this order, the calls give these results, and the stores as they are
  whenever the mutex is free. -/
  serial : ∃ t, Serial (Call.run ctx) w (order.map Prod.snd) t ∧ (m.owner = none → m.store = t)
  /-- As long as a thread has something to do, some thread can go on. -/
  progress : ∀ i, ¬ (m.thread i).Finished → ∃ j m', m.step (Call.program ctx env) j = some m'
  /-- In the end all calls are in the order, and the mutex is free. -/
  complete : (∀ i, (m.thread i).Finished) →
    m.owner = none ∧ ∀ i, (order.filter fun e => e.1 = i).map (fun e => e.2.1) = calls i

variable {ctx : SignalContext Addr Priv Pub B} {env : Environment Addr Priv Pub B}

theorem linearized_of_ordered (henv : env.locking = true) {w t : World Addr Priv Pub B}
    {calls : ι → List (Call Addr Priv Pub B)}
    {m : Machine ι (Call Addr Priv Pub B) SgError (World Addr Priv Pub B) (Reply Pub B)}
    {order : List (ι × Call Addr Priv Pub B × Except SgError (Reply Pub B))}
    (h : m.Ordered (Call.program ctx env) w calls order t) :
    Linearized ctx env w calls m order where
  returned := h.returned
  made i := h.calls i ▸ (m.thread i).returned_within
  serial := by
    have hserial := h.serial
    simp only [Call.run_program] at hserial
    exact ⟨t, hserial, h.free⟩
  progress _ hi := h.progress (Call.section_program ctx henv) hi
  complete := h.quiescent

/-- **Concurrent calls are linearizable.**  With the locking functions set, for any number of
threads, whatever calls they make for whatever addresses, and however their accesses to the
stores interleave: the calls that are over have one order in which, executed atomically, they
give the results that the threads got, and the stores as they are.  A call that is over stays
at its place in the order.  The threads do not block each other for ever. -/
theorem concurrent_calls_linearizable (henv : env.locking = true) (w : World Addr Priv Pub B)
    (calls : ι → List (Call Addr Priv Pub B)) (schedule later : List ι) :
    ∃ order order', order <+: order' ∧
      Linearized ctx env w calls
        ((Machine.start w calls).run (Call.program ctx env) schedule) order ∧
      Linearized ctx env w calls
        ((Machine.start w calls).run (Call.program ctx env) (schedule ++ later)) order' := by
  have hsection := Call.section_program ctx henv
  obtain ⟨order, t, h⟩ := Machine.ordered_run hsection w calls schedule
  obtain ⟨order', t', hle, h'⟩ := h.run hsection later
  rw [← Machine.run_append] at h'
  exact ⟨order, order', hle, linearized_of_ordered henv h, linearized_of_ordered henv h'⟩

end Linear

/-- Two threads, for two addresses and for the same one. -/
def sampleCallers : Bool → List (Call Nat Nat Nat Term)
  | true => [.processPreKeyBundle 0 sampleBundle, .encrypt (SessionCipher.create 0) (.text 0)]
  | false => [.process 1, .encrypt (SessionCipher.create 0) (.text 1)]

/-- They take turns, and are through after the second part of the schedule. -/
theorem concurrent_calls_linearizable_sample :
    let schedule := (List.replicate 12 [false, true]).flatten
    let later := (List.replicate 20 [true, false]).flatten
    let m := (Machine.start sampleStore sampleCallers).run
      (Call.program sampleContext (Environment.plain true)) schedule
    let m' := (Machine.start sampleStore sampleCallers).run
      (Call.program sampleContext (Environment.plain true)) (schedule ++ later)
    (m.owner.isSome ∧ ∀ i, (m'.thread i).results.map (fun e => e.2.isOk) = [true, true]) ∧
      ∃ order order', order <+: order' ∧
        Linearized sampleContext (Environment.plain true) sampleStore sampleCallers m order ∧
        Linearized sampleContext (Environment.plain true) sampleStore sampleCallers m' order' :=
  ⟨by decide +kernel, concurrent_calls_linearizable rfl _ _ _ _⟩

/-! ## 3. What concurrent threads send -/

section Keys

variable [DecidableEq Addr] [LinearOrder Pub] [DecidableEq B]
  {ctx : SignalContext Addr Priv Pub B} {cipher : SessionCipher Addr Priv Pub B}

/-- A call for the address of a cipher object, cut at its accesses. -/
def Command.program (ctx : SignalContext Addr Priv Pub B) (env : Environment Addr Priv Pub B)
    (cipher : SessionCipher Addr Priv Pub B) (c : Command Pub B) :
    Program SgError (World Addr Priv Pub B) (Reply Pub B) :=
  (c.call cipher).program ctx env

end Keys

/-- The messages that a thread got back. -/
def messagesOf (m : Machine Bool (Command Nat Term) SgError (World Nat Nat Nat Term)
    (Reply Nat Term)) (i : Bool) : List (SignalMessage Nat Term) :=
  (m.thread i).returned.filterMap fun e =>
    match e.2 with
    | .ok (.ciphertext c) => some c.inner
    | _ => none

/-- **The locking functions are needed**: without them two threads that send at the same time
encrypt different texts under the same key and counter. -/
theorem unlocked_threads_share_counter :
    let w := ((Command.processPreKeyBundle sampleBundle).run sampleContext
      (SessionCipher.create 0) sampleStore).2
    let m := (Machine.start w fun i => [.encrypt (.text (if i then 0 else 1))]).run
      (Command.program sampleContext (Environment.plain false) (SessionCipher.create 0))
      (List.replicate 4 [false, true]).flatten
    (messagesOf m true).map (fun c => (c.senderRatchetKey, c.counter)) = [(101, 0)] ∧
      (messagesOf m false).map (fun c => (c.senderRatchetKey, c.counter)) = [(101, 0)] ∧
      (messagesOf m true).map (fun c => c.ciphertext) ≠
        (messagesOf m false).map (fun c => c.ciphertext) := by
  decide +kernel

end SignalProtocol
