import Netlink.Proofs.Sending

/-!
# Transports Without an End

An endpoint says how much it has left, so a repeated call and a reply come to an end on it. A
transport need not: it may interrupt every send, or give datagrams for ever. Here a transport is
given a budget of calls and octets. A call that costs less than the budget is the transport's own;
the first that does not is refused, and with it the budget is spent. So restricted every transport is
an endpoint, and what is said of every endpoint is said of it.

The restriction is not seen as long as the budget is not spent, and every run of calls that comes to
an end has a budget that it does not spend. An exchange that leaves a part of its budget leaves as
much more of any larger budget, with the same outcome and the transport in the same state: what it
comes to on the transport is what it comes to on any budget that is large enough. Of an endpoint this
is what it comes to without a budget. Nothing is said of an exchange that spends every budget, which
on the transport has no end.

## Main results

* `Budgeted.send_of_lt`, `Budgeted.receive_of_lt`: within the budget, calls are the transport's own.
* `Transport.Program.run_of_cost_lt`: **what is done with a transport is done with every budget that
  covers its cost**, and `Transport.Program.budget_pos_iff`: with no other.
* `Budgeted.forgetsWhile_transport`: of an endpoint, the budget is not seen at all until it is spent.
* `Budgeted.exchange_grant`: **an exchange that does not spend its budget does not see it.**
-/

namespace Netlink

/-- The states of a transport, and what calls do to them. How long it goes on is not said. -/
class Transport (σ : Type) where
  /-- Sends one datagram. -/
  send : σ → Bytes → Except CallFailure Nat × σ
  /-- Receives one datagram into a buffer. -/
  receive : σ → Bytes → Except CallFailure Receipt × Bytes × σ
  /-- The netlink address that the transport is bound to. -/
  portId : σ → Except CallFailure UInt32 × σ
  /-- A buffer is handed back in its size. -/
  length_receive : ∀ {s : σ} {buffer : Bytes}, (receive s buffer).2.1.length = buffer.length

/-- An endpoint is a transport, whatever it has left. -/
instance Endpoint.instTransport {σ : Type} [Endpoint σ] : Transport σ where
  send := Endpoint.send
  receive := Endpoint.receive
  portId := Endpoint.portId
  length_receive := Endpoint.length_receive

/-- A transport, and what is left of the budget for calls on it. -/
structure Budgeted (σ : Type) where
  transport : σ
  budget : Nat

namespace Budgeted

/-! ### Calls charged to a budget -/

/-- What a call uses up: nothing if it fails for good, one if it is interrupted, and otherwise the
size of what it reports. -/
def cost {α : Type} (size : α → Nat) : Except CallFailure α → Nat
  | .ok a => size a
  | .error failure => if failure.interrupted then 1 else 0

/-- How a call fails that the budget does not cover. -/
def refusal : CallFailure := .plain .wouldBlock

/-- Makes a call if the budget is larger than what that uses up, and tells what is left of it.
Otherwise nothing is done, and the budget is spent. -/
def charged {α τ : Type} (size : α → Nat) (call : τ → Except CallFailure α × τ) (t : τ)
    (budget : Nat) : Except CallFailure α × τ × Nat :=
  let (outcome, t') := call t
  if cost size outcome < budget then (outcome, t', budget - cost size outcome)
  else (.error refusal, t, 0)

section Charged

variable {α τ : Type} {size : α → Nat} {call : τ → Except CallFailure α × τ} {t : τ}
  {budget : Nat}

/-- A call within the budget is made. -/
theorem charged_of_lt (h : cost size (call t).1 < budget) :
    charged size call t budget = ((call t).1, (call t).2, budget - cost size (call t).1) :=
  if_pos h

/-- A call that the budget does not cover is refused. -/
theorem charged_of_le (h : budget ≤ cost size (call t).1) :
    charged size call t budget = (.error refusal, t, 0) :=
  if_neg (Nat.not_lt.2 h)

/-- Only a call within the budget leaves something of it. -/
theorem cost_lt_of_charged (size : α → Nat) (call : τ → Except CallFailure α × τ) {t : τ}
    (h : 0 < (charged size call t budget).2.2) :
    cost size (call t).1 < budget := by
  by_contra hcost
  rw [charged_of_le (Nat.not_lt.1 hcost)] at h
  exact Nat.lt_irrefl 0 h

/-- A call that is interrupted is within the budget, and uses a part of it up. -/
theorem charged_interrupted_lt (size : α → Nat) (call : τ → Except CallFailure α × τ) {t : τ}
    (h : interruptedCall (charged size call t budget).1) :
    (charged size call t budget).2.2 < budget := by
  by_cases hcost : cost size (call t).1 < budget
  · rw [charged_of_lt hcost] at h ⊢
    obtain ⟨failure, hfailure, hinterrupted⟩ := Logged.exists_of_interruptedCall h
    have hone : cost size (call t).1 = 1 := by rw [hfailure]; exact if_pos hinterrupted
    dsimp only
    omega
  · rw [charged_of_le (Nat.not_lt.1 hcost)] at h
    cases h

/-- A call that succeeds uses up the size of what it reports. -/
theorem charged_ok_add (size : α → Nat) (call : τ → Except CallFailure α × τ) {t : τ} {a : α}
    (h : (charged size call t budget).1 = .ok a) :
    (charged size call t budget).2.2 + size a = budget := by
  by_cases hcost : cost size (call t).1 < budget
  · rw [charged_of_lt hcost] at h ⊢
    have hsize : cost size (call t).1 = size a := by rw [show (call t).1 = .ok a from h]; rfl
    dsimp only
    omega
  · rw [charged_of_le (Nat.not_lt.1 hcost)] at h
    cases h

/-- **A call that leaves something of a budget leaves as much more of a larger one**, and comes to
the same. -/
theorem charged_add (size : α → Nat) (call : τ → Except CallFailure α × τ) {t : τ}
    (h : 0 < (charged size call t budget).2.2) (more : Nat) :
    charged size call t (budget + more)
      = Prod.map id (Prod.map id (· + more)) (charged size call t budget) := by
  have hcost := cost_lt_of_charged size call h
  rw [charged_of_lt hcost, charged_of_lt (Nat.lt_add_right more hcost),
    Nat.sub_add_comm (Nat.le_of_lt hcost)]
  rfl

end Charged

/-! ### Transports as endpoints -/

variable {σ : Type} [Transport σ]

/-- What a send uses up. Only interruptions count. -/
def sendCost : Except CallFailure Nat → Nat := cost fun _ => 0

/-- What a receive uses up. A datagram counts as a call and as its octets. -/
def receiveCost : Except CallFailure Receipt → Nat := cost fun receipt => receipt.count + 1

/-- Sends a datagram within the budget. -/
def send (b : Budgeted σ) (datagram : Bytes) : Except CallFailure Nat × Budgeted σ :=
  let (outcome, s, budget) := charged (fun _ => 0) (Transport.send · datagram) b.transport b.budget
  (outcome, ⟨s, budget⟩)

/-- Receives a datagram within the budget. -/
def receive (b : Budgeted σ) (buffer : Bytes) :
    Except CallFailure Receipt × Bytes × Budgeted σ :=
  let (outcome, (buffer, s), budget) := charged (fun receipt : Receipt => receipt.count + 1)
    (fun t : Bytes × σ => Transport.receive t.2 t.1) (buffer, b.transport) b.budget
  (outcome, buffer, ⟨s, budget⟩)

variable {b : Budgeted σ} {datagram buffer : Bytes}

/-- **A send within the budget is the transport's own.** -/
theorem send_of_lt (h : sendCost (Transport.send b.transport datagram).1 < b.budget) :
    send b datagram
      = Prod.map id (mk · (b.budget - sendCost (Transport.send b.transport datagram).1))
          (Transport.send b.transport datagram) := by
  rw [send, charged_of_lt h]
  rfl

/-- **A receive within the budget is the transport's own.** -/
theorem receive_of_lt (h : receiveCost (Transport.receive b.transport buffer).1 < b.budget) :
    receive b buffer
      = Prod.map id
          (Prod.map id (mk · (b.budget - receiveCost (Transport.receive b.transport buffer).1)))
          (Transport.receive b.transport buffer) := by
  rw [receive, charged_of_lt h]
  rfl

/-- Only a send within the budget leaves something of it. -/
theorem sendCost_lt_of_pos (h : 0 < (send b datagram).2.budget) :
    sendCost (Transport.send b.transport datagram).1 < b.budget :=
  cost_lt_of_charged (fun _ => 0) (Transport.send · datagram) h

/-- Only a receive within the budget leaves something of it. -/
theorem receiveCost_lt_of_pos (h : 0 < (receive b buffer).2.2.budget) :
    receiveCost (Transport.receive b.transport buffer).1 < b.budget :=
  cost_lt_of_charged _ (fun t : Bytes × σ => Transport.receive t.2 t.1) h

/-- **Every transport with a budget is an endpoint**, which has left what is left of the budget. The
netlink address is told at no cost. -/
instance : Endpoint (Budgeted σ) where
  send := send
  receive := receive
  portId b := Prod.map id (mk · b.budget) (Transport.portId b.transport)
  pending b := b.budget
  pending_send_lt {_ datagram} h := charged_interrupted_lt _ (Transport.send · datagram) h
  pending_interrupted_lt h :=
    charged_interrupted_lt _ (fun t : Bytes × σ => Transport.receive t.2 t.1) h
  pending_receive_lt h := Nat.lt_of_succ_le <| Nat.le_of_eq <|
    charged_ok_add _ (fun t : Bytes × σ => Transport.receive t.2 t.1) h
  length_receive {b buffer} := by
    by_cases hcost : receiveCost (Transport.receive b.transport buffer).1 < b.budget
    · rw [receive_of_lt hcost]
      exact Transport.length_receive (s := b.transport)
    · rw [receive, charged_of_le (Nat.not_lt.1 hcost)]

end Budgeted

/-! ### Programs of calls -/

/-- What is done with a transport: calls one after the other, each chosen by what came of the calls
before it. -/
inductive Transport.Program (α : Type) where
  | done (a : α)
  | send (datagram : Bytes) (later : Except CallFailure Nat → Transport.Program α)
  | receive (buffer : Bytes) (later : Except CallFailure Receipt → Bytes → Transport.Program α)
  | portId (later : Except CallFailure UInt32 → Transport.Program α)

namespace Transport.Program

open Budgeted (sendCost receiveCost)

variable {σ α : Type} [Transport σ]

/-- What comes of a program, and the state that it leaves. -/
def run : Transport.Program α → σ → α × σ
  | done a, s => (a, s)
  | send datagram later, s =>
    let sent := Transport.send s datagram
    (later sent.1).run sent.2
  | receive buffer later, s =>
    let received := Transport.receive s buffer
    (later received.1 received.2.1).run received.2.2
  | portId later, s =>
    let told := Transport.portId s
    (later told.1).run told.2

/-- What the calls of a program use up. -/
def cost : Transport.Program α → σ → Nat
  | done _, _ => 0
  | send datagram later, s =>
    let sent := Transport.send s datagram
    sendCost sent.1 + (later sent.1).cost sent.2
  | receive buffer later, s =>
    let received := Transport.receive s buffer
    receiveCost received.1 + (later received.1 received.2.1).cost received.2.2
  | portId later, s =>
    let told := Transport.portId s
    (later told.1).cost told.2

/-- **What is done with a transport is done with every budget that covers its cost**: with the same
outcome, with the transport in the same state, and with the rest of the budget left. -/
theorem run_of_cost_lt (p : Transport.Program α) {b : Budgeted σ}
    (h : p.cost b.transport < b.budget) :
    p.run b = Prod.map id (Budgeted.mk · (b.budget - p.cost b.transport)) (p.run b.transport) := by
  induction p generalizing b with
  | done a => rfl
  | send datagram later ih =>
      have hcall : Budgeted.send b datagram = _ := Budgeted.send_of_lt (Nat.lt_of_add_right_lt h)
      change (later (Budgeted.send b datagram).1).run (Budgeted.send b datagram).2 = _
      rw [hcall, Prod.map_fst, Prod.map_snd, id, ih _ (Nat.lt_sub_iff_add_lt'.2 h), Nat.sub_sub]
      rfl
  | receive buffer later ih =>
      have hcall : Budgeted.receive b buffer = _ :=
        Budgeted.receive_of_lt (Nat.lt_of_add_right_lt h)
      change (later (Budgeted.receive b buffer).1 (Budgeted.receive b buffer).2.1).run
        (Budgeted.receive b buffer).2.2 = _
      rw [hcall]
      change (later _ _).run (⟨_, _⟩ : Budgeted σ) = _
      rw [ih _ _ (Nat.lt_sub_iff_add_lt'.2 h), Nat.sub_sub]
      rfl
  | portId later ih => exact ih _ h

/-- A program that leaves something of the budget was covered by it. -/
theorem cost_lt_of_pos (p : Transport.Program α) {b : Budgeted σ} (h : 0 < (p.run b).2.budget) :
    p.cost b.transport < b.budget := by
  induction p generalizing b with
  | done a => exact h
  | send datagram later ih =>
      have hlater : (later (Budgeted.send b datagram).1).cost (Budgeted.send b datagram).2.transport
          < (Budgeted.send b datagram).2.budget := ih _ h
      have hcost := Budgeted.sendCost_lt_of_pos (Nat.zero_lt_of_lt hlater)
      rw [Budgeted.send_of_lt hcost] at hlater
      exact Nat.lt_sub_iff_add_lt'.1 hlater
  | receive buffer later ih =>
      have hlater : (later (Budgeted.receive b buffer).1 (Budgeted.receive b buffer).2.1).cost
          (Budgeted.receive b buffer).2.2.transport
          < (Budgeted.receive b buffer).2.2.budget := ih _ _ h
      have hcost := Budgeted.receiveCost_lt_of_pos (Nat.zero_lt_of_lt hlater)
      rw [Budgeted.receive_of_lt hcost] at hlater
      exact Nat.lt_sub_iff_add_lt'.1 hlater
  | portId later ih => exact ih _ h

/-- With no other budget does it leave something. -/
theorem budget_pos_iff (p : Transport.Program α) (b : Budgeted σ) :
    0 < (p.run b).2.budget ↔ p.cost b.transport < b.budget := by
  refine ⟨p.cost_lt_of_pos, fun h => ?_⟩
  rw [p.run_of_cost_lt h]
  exact Nat.sub_pos_of_lt h

end Transport.Program

/-! ### Exchanges -/

namespace Budgeted

variable {σ : Type} [Transport σ]

/-- A budget that is larger by this much. -/
def grant (more : Nat) (b : Budgeted σ) : Budgeted σ := { b with budget := b.budget + more }

/-- As long as the budget is not spent, it is not seen that it could be larger. -/
theorem forgetsWhile_grant (more : Nat) :
    Endpoint.ForgetsWhile (fun b : Budgeted σ => 0 < b.budget) (grant more) where
  send_eq b datagram hlive := by
    have hmore := charged_add _ (Transport.send · datagram) hlive more
    change send (b.grant more) datagram = Prod.map id (grant more) (send b datagram)
    dsimp only [send, grant]
    rw [hmore]
    rfl
  receive_eq b buffer hlive := by
    have hmore := charged_add _ (fun t : Bytes × σ => Transport.receive t.2 t.1) hlive more
    change receive (b.grant more) buffer
      = Prod.map id (Prod.map id (grant more)) (receive b buffer)
    dsimp only [receive, grant]
    rw [hmore]
    rfl
  live_of_send _ _ hlive := Nat.zero_lt_of_lt (sendCost_lt_of_pos hlive)
  live_of_receive _ _ hlive := Nat.zero_lt_of_lt (receiveCost_lt_of_pos hlive)

/-- Of an endpoint, a budget that is not spent is not seen at all. -/
theorem forgetsWhile_transport {τ : Type} [Endpoint τ] :
    Endpoint.ForgetsWhile (fun b : Budgeted τ => 0 < b.budget) transport where
  send_eq b datagram hlive := by
    change _ = Prod.map id transport (send b datagram)
    rw [send_of_lt (sendCost_lt_of_pos hlive)]
    rfl
  receive_eq b buffer hlive := by
    change _ = Prod.map id (Prod.map id transport) (receive b buffer)
    rw [receive_of_lt (receiveCost_lt_of_pos hlive)]
    rfl
  live_of_send _ _ hlive := Nat.zero_lt_of_lt (sendCost_lt_of_pos hlive)
  live_of_receive _ _ hlive := Nat.zero_lt_of_lt (receiveCost_lt_of_pos hlive)

/-- **An exchange that does not spend its budget does not see it.** With any larger budget it has the
same outcome, leaves the transport in the same state, and has so much more left: when a reply is
started or read to any point or to its end, when one datagram is taken, and when an acknowledgement
is awaited. -/
theorem exchange_grant (policy : Policy) (e : Expectation) (sequence : UInt32) (request : Message)
    (more : Nat) (b : Budgeted σ) :
    (0 < (Request.start policy e request b).2.budget →
        Request.start policy e request (b.grant more)
          = Prod.map id (grant more) (Request.start policy e request b)) ∧
      (∀ n r, 0 < (Reply.pulls n r b).2.2.budget →
        Reply.pulls n r (b.grant more)
          = Prod.map id (Prod.map id (grant more)) (Reply.pulls n r b)) ∧
      (∀ r : Reply, 0 < (r.items b).2.2.budget →
        r.items (b.grant more) = Prod.map id (Prod.map id (grant more)) (r.items b)) ∧
      (0 < (Request.once policy request b).2.budget →
        Request.once policy request (b.grant more)
          = Prod.map id (grant more) (Request.once policy request b)) ∧
      (0 < (Request.confirm policy sequence request b).2.budget →
        Request.confirm policy sequence request (b.grant more)
          = Prod.map id (grant more) (Request.confirm policy sequence request b)) :=
  have hunseen := forgetsWhile_grant (σ := σ) more
  ⟨Request.start_forgets hunseen, fun _ _ => hunseen.pulls_eq, fun _ => hunseen.items_eq,
    Request.once_forgets hunseen, Request.confirm_forgets hunseen⟩

end Budgeted

end Netlink
