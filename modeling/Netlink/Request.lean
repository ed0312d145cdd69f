import Netlink.Message.Acknowledgement
import Netlink.Reply.Basic

/-!
# Requests

What can be asked of an endpoint: to send a message, to send a request and read its reply, to
send a request and take one datagram, and to send a request and wait for its acknowledgement.
One request is made after the other, and each sends its message once.

An acknowledgement is an error message with the sequence number of the request. The first
message of the reply that is none ends the wait with a fault; otherwise the last one counts.
-/

namespace Netlink.Request

variable {σ : Type} [Endpoint σ]

/-- Sends a message as one datagram. -/
def send (policy : Policy) (request : Message) (s : σ) : Except Fault Unit × σ :=
  let (outcome, s) := Endpoint.transmit policy s request.octets
  match outcome with
  | .error failure => (.error (.call failure), s)
  | .ok _ => (.ok (), s)

/-- Sends a request and starts to read the reply. -/
def start (policy : Policy) (expectation : Expectation) (request : Message) (s : σ) :
    Except Fault Reply × σ :=
  let (outcome, s) := send policy request s
  (outcome.map fun _ => Reply.start policy expectation, s)

/-- Sends a request and takes one datagram of the reply. Whether more follow is not asked, nor
how the reply ends. A count beyond the receive buffer stands for all of it. -/
def once (policy : Policy) (request : Message) (s : σ) : Except Fault Bytes × σ :=
  let (outcome, s) := send policy request s
  match outcome with
  | .error fault => (.error fault, s)
  | .ok () =>
    let (outcome, buffer, s) :=
      Endpoint.fetch policy s (List.replicate policy.bufferSize 0)
    match outcome with
    | .error failure => (.error (.call failure), s)
    | .ok receipt =>
      if receipt.truncated then (.error (.truncated buffer.length), s)
      else (.ok (buffer.take receipt.count), s)

/-! ### Acknowledged requests -/

/-- The acknowledgement that a message of the reply brings to the request with the given
sequence number. -/
def acknowledgement (sequence : UInt32) (m : Message) : Except Fault Acknowledgement :=
  if m.header.kind ≠ .error then
    .error (.breach (.kind .error m.header.kind))
  else if m.header.sequence ≠ sequence then
    .error (.breach (.sequence sequence m.header.sequence))
  else
    Acknowledgement.ofMessage m

/-- What the last acknowledgement says about the request. -/
def outcome : Option Acknowledgement → Except Fault Unit
  | none => .error (.breach .unacknowledged)
  | some a =>
    match a.errno? with
    | none => .ok ()
    | some errno => .error (.refused errno)

/-- Reads acknowledgements to the end of the reply, or to the first message that is none;
`last` is the last one so far. -/
def awaitOutcome (sequence : UInt32) (last : Option Acknowledgement) (r : Reply) (s : σ) :
    Except Fault Unit × σ :=
  match _h : r.next s with
  | (none, _, s) => (outcome last, s)
  | (some (.error fault), _, s) => (.error fault, s)
  | (some (.ok m), r, s) =>
    match acknowledgement sequence m with
    | .error fault => (.error fault, s)
    | .ok a => awaitOutcome sequence (some a) r s
termination_by Endpoint.pending s + r.queue.length
decreasing_by exact Reply.next_decreases _h

/-- Sends a request and waits for its acknowledgement. -/
def confirm (policy : Policy) (sequence : UInt32) (request : Message) (s : σ) :
    Except Fault Unit × σ :=
  let (started, s) := start policy .acknowledgement request s
  match started with
  | .error fault => (.error fault, s)
  | .ok r => awaitOutcome sequence none r s

end Netlink.Request
