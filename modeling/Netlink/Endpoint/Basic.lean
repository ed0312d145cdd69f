import Netlink.Endpoint.Policy
import Netlink.Fault.Call
import Netlink.Wire.Word

/-!
# Endpoints

An endpoint is where datagrams are sent and received. It is given by its states and what a
call does to them: sending a datagram, receiving one into a buffer, and asking for its
netlink address.
The buffer is lent to the endpoint, which may write into it and hands it back.

Interrupted calls are repeated as the policy says, and a reply is received datagram by
datagram, so an endpoint says how much it has left (`Endpoint.pending`): a call that is
interrupted uses some of it up, and so does a datagram, in the measure of its octets. From every
state, then, an endpoint comes to a receive that fails for good, and every exchange ends.
Where nothing is known of what is left, calls can be given a budget, which makes an endpoint of any
transport and is not seen until it is spent (`Netlink.Proofs.Budget`).

Main statements: a repeated call that succeeds uses up what its last attempt does
(`pending_retry_lt`), and `fetch` hands back a buffer of the same size (`length_fetch`).
-/

namespace Netlink

/-- What receiving a datagram reports. -/
structure Receipt where
  /-- How many octets of the buffer the datagram takes up. -/
  count : Nat
  /-- The datagram was larger than the buffer and was cut. -/
  truncated : Bool
  deriving DecidableEq, Repr

/-- The call was interrupted. -/
def interruptedCall {α : Type} : Except CallFailure α → Bool
  | .error failure => failure.interrupted
  | .ok _ => false

/-- The states of an endpoint, and what calls do to them. -/
class Endpoint (σ : Type) where
  /-- Sends one datagram. -/
  send : σ → Bytes → Except CallFailure Nat × σ
  /-- Receives one datagram into a buffer. -/
  receive : σ → Bytes → Except CallFailure Receipt × Bytes × σ
  /-- The netlink address that the endpoint is bound to. -/
  portId : σ → Except CallFailure UInt32 × σ
  /-- A bound on what is still to come: the calls that can be interrupted or receive a datagram,
  and the octets received. -/
  pending : σ → Nat
  /-- An interrupted send uses something up. -/
  pending_send_lt : ∀ {s : σ} {datagram : Bytes},
    interruptedCall (send s datagram).1 → pending (send s datagram).2 < pending s
  /-- An interrupted receive uses something up. -/
  pending_interrupted_lt : ∀ {s : σ} {buffer : Bytes},
    interruptedCall (receive s buffer).1 → pending (receive s buffer).2.2 < pending s
  /-- A received datagram uses up the octets that it reports, and more. -/
  pending_receive_lt : ∀ {s : σ} {buffer : Bytes} {receipt : Receipt},
    (receive s buffer).1 = .ok receipt →
      pending (receive s buffer).2.2 + receipt.count < pending s
  /-- A buffer is handed back in its size. -/
  length_receive : ∀ {s : σ} {buffer : Bytes}, (receive s buffer).2.1.length = buffer.length

namespace Endpoint

/-! ### Repeating interrupted calls -/

variable {σ τ α : Type}

/-- Makes a call, and repeats it while it is interrupted and the policy allows another attempt.
Of the calls made, the last one counts. -/
def retry (policy : Policy) (pending : τ → Nat) (call : τ → Except CallFailure α × τ)
    (pending_lt : ∀ t, interruptedCall (call t).1 → pending (call t).2 < pending t)
    (attempt : Nat) (t : τ) : Except CallFailure α × τ :=
  let result := call t
  if again : interruptedCall result.1 ∧ policy.mayRetry attempt then
    retry policy pending call pending_lt (attempt + 1) result.2
  else
    result
termination_by pending t
decreasing_by exact pending_lt t again.1

/-- If each successful attempt uses something up, so does a call that succeeds after any number of
interrupted attempts. -/
theorem pending_retry_lt {policy : Policy} {pending : τ → Nat}
    {call : τ → Except CallFailure α × τ}
    {pending_lt : ∀ t, interruptedCall (call t).1 → pending (call t).2 < pending t}
    {cost : α → Nat}
    (pending_ok : ∀ t a, (call t).1 = .ok a → pending (call t).2 + cost a < pending t)
    {attempt : Nat} {t : τ} {a : α}
    (h : (retry policy pending call pending_lt attempt t).1 = .ok a) :
    pending (retry policy pending call pending_lt attempt t).2 + cost a < pending t := by
  fun_induction retry policy pending call pending_lt attempt t with
  | case1 attempt t _ again ih => exact Nat.lt_trans (ih h) (pending_lt t again.1)
  | case2 attempt t => exact pending_ok t a h

/-- What one attempt keeps, a call and all its repetitions keep. -/
theorem retry_invariant {policy : Policy} {pending : τ → Nat}
    {call : τ → Except CallFailure α × τ}
    {pending_lt : ∀ t, interruptedCall (call t).1 → pending (call t).2 < pending t}
    {P : τ → Prop} (step : ∀ t, P t → P (call t).2) {attempt : Nat} {t : τ} (h : P t) :
    P (retry policy pending call pending_lt attempt t).2 := by
  fun_induction retry policy pending call pending_lt attempt t with
  | case1 attempt t _ _ ih => exact ih (step t h)
  | case2 attempt t => exact step t h

/-! ### Sending and receiving -/

variable [Endpoint σ]

/-- Sends a datagram. -/
def transmit (policy : Policy) (s : σ) (datagram : Bytes) : Except CallFailure Nat × σ :=
  retry policy pending (send · datagram) (fun _ => pending_send_lt) 0 s

/-- Receives a datagram into a buffer. -/
def fetch (policy : Policy) (s : σ) (buffer : Bytes) :
    Except CallFailure Receipt × Bytes × σ :=
  retry policy (fun t : Bytes × σ => pending t.2) (fun t => receive t.2 t.1)
    (fun _ => pending_interrupted_lt) 0 (buffer, s)

/-- A datagram that was received uses up its octets and more, however often the receive was
interrupted. -/
theorem pending_fetch_lt {policy : Policy} {s : σ} {buffer : Bytes} {receipt : Receipt}
    (h : (fetch policy s buffer).1 = .ok receipt) :
    pending (fetch policy s buffer).2.2 + receipt.count < pending s :=
  pending_retry_lt (fun _ _ => pending_receive_lt) h

/-- Receiving a datagram does not change the size of the buffer. -/
@[simp] theorem length_fetch (policy : Policy) (s : σ) (buffer : Bytes) :
    (fetch policy s buffer).2.1.length = buffer.length :=
  retry_invariant (P := fun t : Bytes × σ => t.1.length = buffer.length)
    (fun _ h => length_receive.trans h) rfl

end Endpoint

end Netlink
