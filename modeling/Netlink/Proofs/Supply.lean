import Netlink.Proofs.Repetition
import Netlink.Reply.Basic

/-!
# What an Endpoint Supplies

A reply is read from an endpoint one receive after the other, and each receive hands the
buffer on to the next. This module names what comes of these receives, with the
interrupted calls already repeated: `Endpoint.supply` is the run of datagrams that arrive
until a receive fails, with that failure. Every endpoint comes to such a failure, so the
run is finite, and nothing else is known of the endpoint than what it supplies.

`Endpoint.afterFetch` is the step from one receive to the next; its iterates say how many
receives were made.

## Main results

* `Endpoint.fetch_eq_receive`: for one datagram, one receive is made that is not interrupted
  and repeated.
* `Endpoint.supply_of_error`, `Endpoint.supply_of_ok`: the supply, receive by receive.
* `Endpoint.fetch_of_supply_nil`, `Endpoint.fetch_of_supply_cons`: the receives, by the
  supply.
* `Endpoint.supply_congr`: of a policy only the number of repetitions matters for the supply.
* `Endpoint.iterate_afterFetch_eq`: the receives that are made for a number of datagrams.
* `Reply.receive_of_error`, `Reply.receive_of_ok`: one receive of a reply, by what arrived.
-/

namespace Netlink

/-- A datagram as it arrived. -/
inductive Arrival where
  /-- It was larger than the buffer. -/
  | cut
  /-- More octets were reported than the buffer holds. -/
  | miscounted (reported : Nat)
  /-- It came whole, as these octets of the buffer. -/
  | whole (datagram : Bytes)
  deriving DecidableEq, Repr

/-- How a datagram arrived, by the report on it and the buffer that holds it. -/
def Arrival.ofReceipt (receipt : Receipt) (buffer : Bytes) : Arrival :=
  if receipt.truncated then .cut
  else if buffer.length < receipt.count then .miscounted receipt.count
  else .whole (buffer.take receipt.count)

/-- The datagrams that arrive one after the other, and the failure of the receive that
comes after them. -/
structure Supply where
  arrivals : List Arrival
  failure : CallFailure
  deriving DecidableEq, Repr

/-- A supply with one more datagram in front. -/
def Supply.cons (a : Arrival) (later : Supply) : Supply :=
  { later with arrivals := a :: later.arrivals }

namespace Endpoint

variable {σ : Type} [Endpoint σ]

/-! ### Receives and their repetitions -/

/-- The buffer and the endpoint after one receive. -/
def afterReceive (t : Bytes × σ) : Bytes × σ := (receive t.2 t.1).2

/-- What comes of a datagram is what comes of the receive after all repetitions. -/
theorem fetch_eq_iterate (policy : Policy) (t : Bytes × σ) :
    fetch policy t.2 t.1 = receive (afterReceive^[receiveRepeats policy t] t).2
      (afterReceive^[receiveRepeats policy t] t).1 :=
  retry_eq_repeats

/-- Every receive that is repeated was interrupted. -/
theorem interruptedCall_of_lt_receiveRepeats {policy : Policy} {t : Bytes × σ} {i : Nat}
    (h : i < receiveRepeats policy t) :
    interruptedCall (receive (afterReceive^[i] t).2 (afterReceive^[i] t).1).1 :=
  ((repeats_spec policy _ _ _ 0 t).1 i h).1

/-- Of the receives that are made for one datagram, all but the last are interrupted. -/
theorem fetch_eq_receive (policy : Policy) (t : Bytes × σ) :
    ∃ k, (∀ i < k, interruptedCall (receive (afterReceive^[i] t).2 (afterReceive^[i] t).1).1) ∧
      fetch policy t.2 t.1 = receive (afterReceive^[k] t).2 (afterReceive^[k] t).1 :=
  ⟨receiveRepeats policy t, fun _ => interruptedCall_of_lt_receiveRepeats,
    fetch_eq_iterate policy t⟩

/-! ### Supplies -/

/-- The buffer and the endpoint after one more datagram was received, or failed to be. -/
def afterFetch (policy : Policy) (t : Bytes × σ) : Bytes × σ := (fetch policy t.2 t.1).2

/-- What the endpoint supplies to receives that hand one buffer on. -/
def supply (policy : Policy) (t : Bytes × σ) : Supply :=
  match _h : (fetch policy t.2 t.1).1 with
  | .error failure => ⟨[], failure⟩
  | .ok receipt =>
    (supply policy (afterFetch policy t)).cons (.ofReceipt receipt (afterFetch policy t).1)
termination_by pending t.2
decreasing_by exact Nat.lt_of_le_of_lt (Nat.le_add_right _ _) (pending_fetch_lt _h)

/-- When a receive fails, nothing more is supplied. -/
theorem supply_of_error {policy : Policy} {t t' : Bytes × σ} {failure : CallFailure}
    (h : fetch policy t.2 t.1 = (.error failure, t')) :
    supply policy t = ⟨[], failure⟩ := by
  rw [supply]
  split
  · next f hf =>
      rw [h] at hf
      obtain rfl : failure = f := by simpa using hf
      rfl
  · next receipt hf =>
      rw [h] at hf
      simp at hf

/-- A datagram that is received is supplied first, and then what is supplied to the later
receives. -/
theorem supply_of_ok {policy : Policy} {t t' : Bytes × σ} {receipt : Receipt}
    (h : fetch policy t.2 t.1 = (.ok receipt, t')) :
    supply policy t = (supply policy t').cons (.ofReceipt receipt t'.1) := by
  have ht : afterFetch policy t = t' := by rw [afterFetch, h]
  rw [supply]
  split
  · next f hf =>
      rw [h] at hf
      simp at hf
  · next receipt' hf =>
      rw [h] at hf
      obtain rfl : receipt = receipt' := by simpa using hf
      rw [ht]

/-- Where nothing is supplied, the receive fails. -/
theorem fetch_of_supply_nil {policy : Policy} {t : Bytes × σ} {failure : CallFailure}
    (h : supply policy t = ⟨[], failure⟩) : ∃ t', fetch policy t.2 t.1 = (.error failure, t') := by
  match hf : fetch policy t.2 t.1 with
  | (.error failure₁, t') =>
      rw [supply_of_error hf] at h
      obtain rfl : failure₁ = failure := congrArg Supply.failure h
      exact ⟨t', rfl⟩
  | (.ok receipt, t') =>
      rw [supply_of_ok hf, Supply.cons] at h
      simp at h

/-- Where a datagram is supplied, it is received, and the rest is supplied after it. -/
theorem fetch_of_supply_cons {policy : Policy} {t : Bytes × σ} {arrival : Arrival}
    {later : List Arrival} {failure : CallFailure}
    (h : supply policy t = ⟨arrival :: later, failure⟩) :
    ∃ receipt t', fetch policy t.2 t.1 = (.ok receipt, t') ∧
      Arrival.ofReceipt receipt t'.1 = arrival ∧ supply policy t' = ⟨later, failure⟩ := by
  match hf : fetch policy t.2 t.1 with
  | (.error failure₁, t') =>
      rw [supply_of_error hf] at h
      simp at h
  | (.ok receipt, t') =>
      rw [supply_of_ok hf, Supply.cons, Supply.mk.injEq, List.cons.injEq] at h
      obtain ⟨⟨harrival, hlater⟩, hfailure⟩ := h
      exact ⟨receipt, t', rfl, harrival, congr_arg₂ Supply.mk hlater hfailure⟩

/-- To receive a datagram does not change the size of the buffer. -/
theorem length_afterFetch (policy : Policy) (t : Bytes × σ) :
    (afterFetch policy t).1.length = t.1.length :=
  length_fetch policy t.2 t.1

/-! ### The policy -/

section Policies

variable {policy policy' : Policy}

/-- What a datagram leaves depends on the number of repetitions alone. -/
theorem afterFetch_congr (h : policy.retries = policy'.retries) :
    afterFetch (σ := σ) policy = afterFetch policy' := by
  funext t
  rw [afterFetch, afterFetch, fetch_congr h]

/-- What an endpoint supplies depends on the number of repetitions alone. -/
theorem supply_congr (h : policy.retries = policy'.retries) (t : Bytes × σ) :
    supply policy t = supply policy' t := by
  fun_induction supply policy t with
  | case1 t failure hf =>
      rw [fetch_congr h] at hf
      exact (supply_of_error (Prod.ext hf rfl)).symm
  | case2 t receipt hf ih =>
      rw [fetch_congr h] at hf
      have hfetch : fetch policy' t.2 t.1 = (.ok receipt, afterFetch policy' t) := Prod.ext hf rfl
      rw [ih, supply_of_ok hfetch, afterFetch_congr h]

/-! ### How many receives are made -/

/-- How many receives are made for a number of datagrams, or until one fails to come. -/
def attemptsFor (policy : Policy) : Nat → Bytes × σ → Nat
  | 0, _ => 0
  | n + 1, t => receiveRepeats policy t + 1 + attemptsFor policy n (afterFetch policy t)

/-- One receive more is made for a datagram than are repeated. -/
theorem afterFetch_eq_iterate (policy : Policy) (t : Bytes × σ) :
    afterFetch policy t = afterReceive^[receiveRepeats policy t + 1] t := by
  rw [Function.iterate_succ_apply', afterFetch, fetch_eq_iterate, afterReceive]

/-- To fetch datagrams is to make so many receives. -/
theorem iterate_afterFetch_eq (policy : Policy) (n : Nat) (t : Bytes × σ) :
    (afterFetch policy)^[n] t = afterReceive^[attemptsFor policy n t] t := by
  induction n generalizing t with
  | zero => rfl
  | succ n ih =>
      rw [Function.iterate_succ_apply, ih, attemptsFor, Nat.add_comm, Function.iterate_add_apply,
        afterFetch_eq_iterate]

/-- To the receives for some datagrams, one more datagram adds its own. -/
theorem attemptsFor_succ (policy : Policy) (n : Nat) (t : Bytes × σ) :
    attemptsFor policy (n + 1) t
      = attemptsFor policy n t + (receiveRepeats policy ((afterFetch policy)^[n] t) + 1) := by
  induction n generalizing t with
  | zero => rw [attemptsFor, attemptsFor, attemptsFor, Nat.zero_add, Nat.add_zero]; rfl
  | succ n ih =>
      rw [attemptsFor, ih, attemptsFor, Function.iterate_succ_apply]
      omega

/-- How many receives are made depends on the number of repetitions alone. -/
theorem attemptsFor_congr (h : policy.retries = policy'.retries) (n : Nat) (t : Bytes × σ) :
    attemptsFor policy n t = attemptsFor policy' n t := by
  induction n generalizing t with
  | zero => rfl
  | succ n ih =>
      have hrepeats : receiveRepeats policy t = receiveRepeats policy' t :=
        repeats_congr h fun _ => rfl
      rw [attemptsFor, attemptsFor, ih, hrepeats, afterFetch_congr h]

end Policies

end Endpoint

namespace Reply

variable {σ : Type} [Endpoint σ] {r : Reply} {s s' : σ} {buffer : Bytes}

/-- A receive that fails is the fault of the reply. -/
theorem receive_of_error {failure : CallFailure}
    (h : Endpoint.fetch r.policy s r.buffer = (.error failure, buffer, s')) :
    r.receive s = (.error (.call failure), { r with buffer }, s') := by
  rw [receive, h]

/-- A datagram that arrives is unpacked if it came whole, and is a fault otherwise. -/
theorem receive_of_ok {receipt : Receipt}
    (h : Endpoint.fetch r.policy s r.buffer = (.ok receipt, buffer, s')) :
    r.receive s =
      match Arrival.ofReceipt receipt buffer with
      | .cut => (.error (.truncated buffer.length), { r with buffer }, s')
      | .miscounted reported =>
        (.error (.miscounted reported buffer.length),
          { r with buffer, datagrams := r.datagrams + 1 }, s')
      | .whole datagram =>
        (.ok (Datagram.messages datagram),
          { r with buffer, datagrams := r.datagrams + 1 }, s') := by
  rw [receive, h]
  by_cases hcut : receipt.truncated
  · simp [Arrival.ofReceipt, hcut]
  · by_cases hcount : buffer.length < receipt.count
    · simp [Arrival.ofReceipt, hcut, hcount]
    · simp [Arrival.ofReceipt, hcut, hcount]

end Reply

end Netlink
