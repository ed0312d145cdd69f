import Netlink.Fault.Call
import Netlink.Message.Kind

/-!
# Faults

Why an operation on messages or on an endpoint has no result. A `Breach` is a peer's
departure from the rules of an exchange; a `Fault` is a breach, a failed call, a run of octets
that is no message, a value too large for its length field, or a refusal by the peer.

Each cause carries what is needed to tell what happened, and `Fault.message` tells it.
-/

namespace Netlink

/-- How a peer broke the rules of an exchange. -/
inductive Breach where
  /-- An answer carries another sequence number than the request. -/
  | sequence (expected actual : UInt32)
  /-- An answer is of another kind than the one that is due. -/
  | kind (expected actual : Kind)
  /-- A reply ended with another kind of message than the one that is due, or with none. -/
  | ending (expected : Kind) (actual : Option Kind)
  /-- The end of a dump is too short to hold a status. -/
  | shortDone (length : UInt32)
  /-- An error is too short to hold a status and the header it answers. -/
  | shortError (length : UInt32)
  /-- No acknowledgement came. -/
  | unacknowledged
  deriving DecidableEq, Repr

/-- What a breach says. -/
def Breach.message : Breach → String
  | sequence expected actual =>
    "sequence mismatch: expected " ++ toString expected ++ ", got " ++ toString actual
  | kind expected actual =>
    "unexpected message type: expected " ++ expected.name ++ ", got " ++ actual.name
  | ending expected actual =>
    "exchange terminated on " ++ (actual.map Kind.name).getD "no message" ++ ", expected "
      ++ expected.name
  | shortDone length => "NLMSG_DONE length " ++ toString length ++ " too short for status"
  | shortError length =>
    "NLMSG_ERROR length " ++ toString length ++ " too short for error submessage"
  | unacknowledged => "no acknowledgement received"

/-- Why an operation has no result. -/
inductive Fault where
  /-- A call on the endpoint failed. -/
  | call (failure : CallFailure)
  /-- A datagram was larger than the receive buffer. -/
  | truncated (capacity : Nat)
  /-- The endpoint reported more octets than the receive buffer holds. -/
  | miscounted (reported capacity : Nat)
  /-- There are too few octets for what is to be read. -/
  | tooShort (expected actual : Nat)
  /-- A message declares a length that its octets cannot have. -/
  | lengthMismatch (declared : UInt32) (actual : Nat)
  /-- A value is too large for its length field. -/
  | tooLarge (size limit : Nat)
  /-- The peer broke the rules of the exchange. -/
  | breach (breach : Breach)
  /-- The peer refused the request. -/
  | refused (errno : Errno)
  deriving DecidableEq, Repr

namespace Fault

/-- What a fault says. -/
def message : Fault → String
  | call failure => "I/O error: " ++ failure.text
  | truncated capacity =>
    "Received truncated datagram: response exceeds " ++ toString capacity
      ++ " byte receive buffer"
  | miscounted reported capacity =>
    "Endpoint reported " ++ toString reported ++ " bytes in a " ++ toString capacity
      ++ " byte receive buffer"
  | tooShort expected actual =>
    "Message too short: expected at least " ++ toString expected ++ " bytes, got "
      ++ toString actual
  | lengthMismatch declared actual =>
    "Message length mismatch: header says " ++ toString declared ++ " bytes, got "
      ++ toString actual
  | tooLarge size limit =>
    "Payload too large: " ++ toString size ++ " bytes (max " ++ toString limit ++ ")"
  | breach b => "Protocol violation: " ++ b.message
  | refused errno => "Kernel returned error: " ++ errno.message

/-- The fault lies with sending or receiving. -/
def isTransfer : Fault → Bool
  | call _ | truncated _ => true
  | _ => false

/-- The peer broke the rules of the exchange. -/
def isBreach : Fault → Bool
  | breach _ => true
  | _ => false

/-- The number with which the peer refused. -/
def errno? : Fault → Option Errno
  | refused errno => some errno
  | _ => none

/-- Another attempt may succeed. -/
def isRecoverable : Fault → Bool
  | call failure => failure.transient
  | _ => false

end Fault

end Netlink
