import Netlink.Fault.Errno

/-!
# Failed Calls

How a call on an endpoint fails: with a system error number, or with a class of failure, which
may bring a text of its own. Two questions are asked of a failed call: whether it was only
interrupted, so that it may be repeated, and whether a later attempt may succeed.
-/

namespace Netlink

/-- The classes of failed calls. -/
inductive FailureClass where
  | notFound
  | permissionDenied
  | connectionRefused
  | connectionReset
  | connectionAborted
  | notConnected
  | addressInUse
  | addressNotAvailable
  | brokenPipe
  | alreadyExists
  | wouldBlock
  | invalidInput
  | invalidData
  | timedOut
  | writeZero
  | interrupted
  | unsupported
  | unexpectedEnd
  | outOfMemory
  | other
  deriving DecidableEq, Repr

/-- The text of a class. -/
def FailureClass.text : FailureClass → String
  | notFound => "entity not found"
  | permissionDenied => "permission denied"
  | connectionRefused => "connection refused"
  | connectionReset => "connection reset"
  | connectionAborted => "connection aborted"
  | notConnected => "not connected"
  | addressInUse => "address in use"
  | addressNotAvailable => "address not available"
  | brokenPipe => "broken pipe"
  | alreadyExists => "entity already exists"
  | wouldBlock => "operation would block"
  | invalidInput => "invalid input parameter"
  | invalidData => "invalid data"
  | timedOut => "timed out"
  | writeZero => "write zero"
  | interrupted => "operation interrupted"
  | unsupported => "unsupported"
  | unexpectedEnd => "unexpected end of file"
  | outOfMemory => "out of memory"
  | other => "other error"

/-- How a call on an endpoint failed. -/
inductive CallFailure where
  /-- With a system error number. -/
  | system (errno : Errno)
  /-- With a class of failure and no more. -/
  | plain (reason : FailureClass)
  /-- With a class of failure and a text. -/
  | described (reason : FailureClass) (text : String)
  deriving DecidableEq, Repr

namespace CallFailure

/-- The text of a failed call. -/
def text : CallFailure → String
  | system errno => errno.text
  | plain reason => reason.text
  | described _ text => text

/-- The call was interrupted before it did anything. -/
def interrupted : CallFailure → Bool
  | system errno => errno = Errno.interrupted
  | plain reason | described reason _ => reason = .interrupted

/-- The call may succeed at another time. -/
def transient : CallFailure → Bool
  | system errno => errno ∈ [Errno.interrupted, Errno.again, Errno.timedOut]
  | plain reason | described reason _ => reason ∈ [.wouldBlock, .timedOut, .interrupted]

end CallFailure

end Netlink
