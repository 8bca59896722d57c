import Tandem.Identity
/-!
# What can go wrong in a session

One type for the failures that the layers of a session report to each other.  Each constructor is a cause;
the wording for people is `message` alone.
-/

namespace Tandem

/-- A failure while loading a scenario, reading the wire, keeping the link or matching objects. -/
inductive Fault where
  /-- A scenario line that cannot be run, or line 0 for the scenario as a whole. -/
  | malformedCommand (line : Nat) (reason : String)
  | unknownTask (name : String)
  | invalidWireFormat (detail : String)
  | bufferTooShort (expected actual : Nat)
  | unknownMessageType (byte : UInt8)
  /-- A frame that is not the next in sequence. -/
  | outOfSequence (expected actual : UInt64)
  | connectionLost (detail : String)
  /-- The other peer stayed away for longer than the grace period. -/
  | sessionAborted
  | outboundFull (capacity : Nat)
  | transport (detail : String)
  /-- A selection of an object that is not in the scene. -/
  | invalidSelection (object : ObjectId)
  | roundAlreadyResolved
  | noActiveRound
deriving DecidableEq

namespace Fault

/-- The wording for people. -/
def message : Fault → String
  | malformedCommand line reason => s!"Malformed command at line {line}: {reason}"
  | unknownTask name => s!"Unknown task: {name}"
  | invalidWireFormat detail => s!"Invalid wire format: {detail}"
  | bufferTooShort expected actual => s!"Buffer too short: expected {expected}, got {actual}"
  | unknownMessageType byte => s!"Unknown message type: {byte.toNat}"
  | outOfSequence expected actual =>
    s!"Duplicate or out-of-order message: expected seq {expected.toNat}, got {actual.toNat}"
  | connectionLost detail => s!"Connection lost: {detail}"
  | sessionAborted => "Session aborted: peer did not reconnect within the grace period"
  | outboundFull capacity => s!"Outbound buffer full ({capacity} messages)"
  | transport detail => s!"Transport error: {detail}"
  | invalidSelection object => s!"Invalid selection: unknown object {object.label}"
  | roundAlreadyResolved => "Round already resolved"
  | noActiveRound => "No matching round in progress"

/-- Whether a failure ends the session for both participants; every other one is absorbed locally. -/
def isSessionFatal : Fault → Bool
  | sessionAborted | malformedCommand .. => true
  | _ => false

end Fault

end Tandem
