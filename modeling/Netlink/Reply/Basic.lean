import Netlink.Datagram.Basic
import Netlink.Endpoint.Basic
import Netlink.Reply.History

/-!
# Replies

A `Reply` is the reading of a reply from an endpoint. Its messages are pulled one at a time
with `Reply.next`, in the order in which they arrived, and a datagram is received only when a
message is pulled and none is left of the one before. The receive buffer is kept from datagram
to datagram.

A reply is over at the first fault, or when no more datagrams follow. How it ended is judged
then, and only if there was no fault before.

Main statement: a message that was pulled used something up, of the endpoint or of the
messages at hand (`Reply.next_decreases`), so a reply can be read to its end.
-/

namespace Netlink

/-- Where the reading of a reply stands. -/
inductive Reply.Phase where
  /-- A datagram is to be received. -/
  | awaiting
  /-- These messages of the last datagram are still to be delivered. -/
  | delivering (queue : List Message)
  /-- Nothing more comes. -/
  | over
  deriving DecidableEq, Repr

/-- The reading of a reply. -/
structure Reply where
  policy : Policy
  expectation : Expectation
  /-- The receive buffer, with what earlier datagrams left in it. -/
  buffer : Bytes
  phase : Reply.Phase := .awaiting
  history : History := {}
  /-- How many datagrams were received whole. -/
  datagrams : Nat := 0
  deriving DecidableEq, Repr

namespace Reply

/-- A reply that is still to be read. -/
def start (policy : Policy) (expectation : Expectation) : Reply where
  policy := policy
  expectation := expectation
  buffer := List.replicate policy.bufferSize 0

/-- The messages at hand. -/
def queue (r : Reply) : List Message :=
  match r.phase with
  | .delivering queue => queue
  | _ => []

/-- Steps that a phase may take without receiving a datagram or delivering a message. -/
def Phase.idleSteps : Phase → Nat
  | .delivering _ => 1
  | _ => 0

/-- Length below which the end of a dump holds no status. -/
def doneLength : Nat := Header.messageLength 4

/-! ### Reading -/

section Reading

variable {σ : Type} [Endpoint σ]

/-- Receives the next datagram and unpacks it. -/
def receive (r : Reply) (s : σ) : Except Fault (List Message) × Reply × σ :=
  let (outcome, buffer, s) := Endpoint.fetch r.policy s r.buffer
  let r := { r with buffer }
  match outcome with
  | .error failure => (.error (.call failure), r, s)
  | .ok receipt =>
    if receipt.truncated then
      (.error (.truncated buffer.length), r, s)
    else
      let r := { r with datagrams := r.datagrams + 1 }
      if buffer.length < receipt.count then
        (.error (.miscounted receipt.count buffer.length), r, s)
      else
        (.ok (Datagram.messages (buffer.take receipt.count)), r, s)

/-- Ends a reply with a fault. -/
def fail (r : Reply) (fault : Fault) : Option (Except Fault Message) × Reply :=
  (some (.error fault), { r with phase := .over })

/-- Delivers a message of the datagram at hand. The end of a dump that is too short for its
status is a fault under a strict policy. -/
def deliver (r : Reply) (m : Message) (queue : List Message) :
    Option (Except Fault Message) × Reply :=
  let r := { r with history := r.history.note m, phase := .delivering queue }
  if r.policy.strictDone ∧ m.isDone ∧ m.header.length.toNat < doneLength then
    r.fail (.breach (.shortDone m.header.length))
  else
    (some (.ok m), r)

/-- Ends a reply after its last message. -/
def conclude (r : Reply) : Option (Except Fault Message) × Reply :=
  match r.history.verdict r.expectation with
  | some breach => r.fail (.breach breach)
  | none => (none, { r with phase := .over })

/-- A datagram that comes whole uses up more of the endpoint than the number of messages that it
brings. -/
theorem pending_receive_lt {r r' : Reply} {s s' : σ} {queue : List Message}
    (h : r.receive s = (.ok queue, r', s')) :
    Endpoint.pending s' + queue.length < Endpoint.pending s := by
  rw [receive] at h
  match hf : Endpoint.fetch r.policy s r.buffer with
  | (.error failure, buffer, t) => simp [hf] at h
  | (.ok receipt, buffer, t) =>
    have hlt := Endpoint.pending_fetch_lt (by rw [hf])
    rw [hf] at h hlt
    dsimp only at h hlt
    split at h
    · simp at h
    · split at h
      · simp at h
      · obtain ⟨rfl, -, rfl⟩ : _ ∧ _ ∧ _ := by simpa using h
        have := Datagram.length_messages_le (buffer.take receipt.count)
        have := List.length_take_le receipt.count buffer
        omega

/-- Pulls the next item of a reply: a message, a fault, or nothing when the reply is over. -/
def next (r : Reply) (s : σ) : Option (Except Fault Message) × Reply × σ :=
  match _hp : r.phase with
  | .over => (none, r, s)
  | .delivering (m :: queue) =>
    let (item, r) := r.deliver m queue
    (item, r, s)
  | .delivering [] =>
    if r.history.wantsMore then
      next { r with phase := .awaiting } s
    else
      let (item, r) := r.conclude
      (item, r, s)
  | .awaiting =>
    match _h : r.receive s with
    | (.error fault, r, s) =>
      let (item, r) := r.fail fault
      (item, r, s)
    | (.ok queue, r, s) => next { r with phase := .delivering queue } s
termination_by 2 * Endpoint.pending s + r.phase.idleSteps
decreasing_by
  · simp only [_hp, Phase.idleSteps]
    omega
  · have := pending_receive_lt _h
    simp only [_hp, Phase.idleSteps]
    omega

/-- To deliver a message leaves those after it, or none if it is a fault. -/
theorem queue_of_deliver {r r' : Reply} {m : Message} {queue : List Message}
    {item : Option (Except Fault Message)} (h : r.deliver m queue = (item, r')) :
    r'.queue = queue ∨ r'.queue = [] := by
  rw [deliver, fail] at h
  split at h <;> obtain ⟨-, rfl⟩ := Prod.mk.inj h <;> simp [Reply.queue]

/-- A message that was pulled used something up: of what the endpoint had pending, or of the
messages at hand. -/
theorem next_decreases {r r' : Reply} {s s' : σ} {m : Message}
    (h : r.next s = (some (.ok m), r', s')) :
    Endpoint.pending s' + r'.queue.length < Endpoint.pending s + r.queue.length := by
  fun_induction next r s with
  | case1 => simp at h
  | case2 r s m₁ queue hp item r₁ hd =>
    obtain ⟨rfl, rfl, rfl⟩ : item = _ ∧ r₁ = _ ∧ s = _ := by simpa using h
    have hr : r.queue = m₁ :: queue := by simp [Reply.queue, hp]
    rcases queue_of_deliver hd with hq | hq <;> simp [hq, hr]
  | case3 r s hp hmore ih =>
    rw [show r.queue = [] by simp [Reply.queue, hp]]
    exact ih h
  | case4 r s hp hmore item r₁ hc =>
    obtain ⟨rfl, rfl, rfl⟩ : item = _ ∧ r₁ = _ ∧ s = _ := by simpa using h
    rw [conclude] at hc
    split at hc <;> simp [fail] at hc
  | case5 r s hp fault r₁ s₁ hr item r₂ hf =>
    obtain ⟨rfl, rfl, rfl⟩ : item = _ ∧ r₂ = _ ∧ s₁ = _ := by simpa using h
    simp [fail] at hf
  | case6 r s hp queue r₁ s₁ hr ih =>
    have hlt := pending_receive_lt hr
    have hlt' := ih h
    change Endpoint.pending s' + r'.queue.length < Endpoint.pending s₁ + queue.length at hlt'
    omega

/-- Reads a reply to its end: all items that are still to come. A fault is the last item. -/
def items (r : Reply) (s : σ) : List (Except Fault Message) × Reply × σ :=
  match _h : r.next s with
  | (none, r, s) => ([], r, s)
  | (some (.error fault), r, s) => ([.error fault], r, s)
  | (some (.ok m), r, s) =>
    let (rest, r, s) := r.items s
    (.ok m :: rest, r, s)
termination_by Endpoint.pending s + r.queue.length
decreasing_by exact next_decreases _h

/-- The fault among some items, if there is one. -/
def fault? (items : List (Except Fault Message)) : Option Fault :=
  items.findSome? fun
    | .error fault => some fault
    | .ok _ => none

/-- Reads a reply to its end for its outcome alone. -/
def finish (r : Reply) (s : σ) : Except Fault Unit × σ :=
  let (items, _, s) := r.items s
  match fault? items with
  | some fault => (.error fault, s)
  | none => (.ok (), s)

end Reading

end Reply

end Netlink
