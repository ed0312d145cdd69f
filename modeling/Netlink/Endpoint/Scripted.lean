import Netlink.Endpoint.Basic

/-!
# Scripted Peers

A peer whose part in an exchange is written down beforehand: what comes of each send, and what
each receive delivers or how it fails. It keeps a log of the calls made on it. Once the script
is used up, sends succeed and receives find nothing.

A delivery is copied to the front of the buffer as far as it fits, and the rest of the buffer
stays as it was. An honest delivery reports just what it copied, and that it was cut exactly
if it was.
-/

namespace Netlink

/-- The buffer after a datagram was copied to its front, as far as it fits. -/
def overwrite (buffer datagram : Bytes) : Bytes :=
  datagram.take buffer.length ++ buffer.drop datagram.length

/-- A datagram that is copied into a buffer does not change its size. -/
@[simp] theorem length_overwrite (buffer datagram : Bytes) :
    (overwrite buffer datagram).length = buffer.length := by
  simp only [overwrite, List.length_append, List.length_take, List.length_drop]
  omega

/-- A datagram that a script delivers. -/
structure Delivery where
  datagram : Bytes
  /-- The count reported, if it is not that of the octets copied. -/
  count : Option Nat := none
  /-- Whether a cut is reported, if that is not decided by the sizes. -/
  truncated : Option Bool := none
  deriving DecidableEq, Repr

/-- What a delivery into a buffer of the given size reports. -/
def Delivery.receipt (d : Delivery) (capacity : Nat) : Receipt where
  count := d.count.getD (min d.datagram.length capacity)
  truncated := d.truncated.getD (capacity < d.datagram.length)

/-- No more octets are reported than the script says, or than the datagram has if it does not
say. -/
theorem Delivery.count_receipt_le (d : Delivery) (capacity : Nat) :
    (d.receipt capacity).count ≤ d.count.getD d.datagram.length := by
  rw [receipt]
  cases d.count with
  | none => exact Nat.min_le_left _ _
  | some count => exact Nat.le_refl _

/-- A call made on a peer, and what came of it. -/
inductive Event where
  | sent (datagram : Bytes) (outcome : Except CallFailure Nat)
  | received (outcome : Except CallFailure Receipt)

/-- A peer that follows a script. -/
structure ScriptedPeer where
  /-- The netlink address that it tells. -/
  portId : UInt32
  /-- What comes of the sends to come. -/
  sends : List (Except CallFailure Nat) := []
  /-- What comes of the receives to come. -/
  deliveries : List (Except CallFailure Delivery) := []
  /-- The calls made so far. -/
  log : List Event := []

namespace ScriptedPeer

/-- What a receive reports once the script is used up. -/
def nothing : CallFailure := .plain .wouldBlock

/-- Sends a datagram to the peer. -/
def send (p : ScriptedPeer) (datagram : Bytes) : Except CallFailure Nat × ScriptedPeer :=
  match p.sends with
  | [] =>
    let outcome := .ok datagram.length
    (outcome, { p with log := p.log ++ [.sent datagram outcome] })
  | outcome :: sends => (outcome, { p with sends, log := p.log ++ [.sent datagram outcome] })

/-- Receives a datagram from the peer. -/
def receive (p : ScriptedPeer) (buffer : Bytes) :
    Except CallFailure Receipt × Bytes × ScriptedPeer :=
  match p.deliveries with
  | [] => (.error nothing, buffer, { p with log := p.log ++ [.received (.error nothing)] })
  | .error failure :: deliveries =>
    (.error failure, buffer, { p with deliveries, log := p.log ++ [.received (.error failure)] })
  | .ok delivery :: deliveries =>
    let receipt := delivery.receipt buffer.length
    (.ok receipt, overwrite buffer delivery.datagram,
      { p with deliveries, log := p.log ++ [.received (.ok receipt)] })

/-- What an entry of the script for receives has to give: the call, and the octets that it
reports. -/
def weight : Except CallFailure Delivery → Nat
  | .error _ => 1
  | .ok d => d.count.getD d.datagram.length + 1

/-- What the script has left to give. -/
def pending (p : ScriptedPeer) : Nat := p.sends.length + p.deliveries.foldr (weight · + ·) 0

instance : Endpoint ScriptedPeer where
  send := send
  receive := receive
  portId p := (.ok p.portId, p)
  pending := pending
  pending_send_lt {p datagram} h := by
    unfold send at *
    split at h
    · cases h
    · simp_all [pending]
  pending_interrupted_lt {p buffer} h := by
    unfold receive at *
    split at h
    · cases h
    · rename_i failure deliveries hd
      simp only [pending, hd, List.foldr_cons, weight]
      omega
    · cases h
  pending_receive_lt {p buffer receipt} h := by
    unfold receive at *
    split at h
    · cases h
    · cases h
    · rename_i d deliveries hd
      obtain rfl := Except.ok.inj h
      have := d.count_receipt_le buffer.length
      simp only [pending, hd, List.foldr_cons, weight]
      omega
  length_receive {p buffer} := by
    unfold receive
    split <;> simp

/-- Sending to a scripted peer is following its script. -/
theorem endpoint_send (p : ScriptedPeer) (datagram : Bytes) :
    Endpoint.send p datagram = p.send datagram := rfl

/-- Receiving from a scripted peer is following its script. -/
theorem endpoint_receive (p : ScriptedPeer) (buffer : Bytes) :
    Endpoint.receive p buffer = p.receive buffer := rfl

/-- The datagrams sent so far; a send that failed sent nothing. -/
def sent (p : ScriptedPeer) : List Bytes :=
  p.log.filterMap fun
    | .sent datagram (.ok _) => some datagram
    | _ => none

/-- How many sends were tried so far. -/
def sendCalls (p : ScriptedPeer) : Nat :=
  p.log.countP fun
    | .sent _ _ => true
    | .received _ => false

/-- How many receives were tried so far. -/
def receiveCalls (p : ScriptedPeer) : Nat :=
  p.log.countP fun
    | .sent _ _ => false
    | .received _ => true

end ScriptedPeer

end Netlink
