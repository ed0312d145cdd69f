import Netlink.Proofs.Honest

/-!
# Honest Sources

What comes of the receives on an endpoint may be decided before any of them is made. A source
says for each receive how it fails or which datagram it brings, and an endpoint is honest if
every receive comes to what the source says, whatever buffers are brought: a datagram is copied
as far as it fits, and what was copied and whether it was cut is reported as it is. Nothing is
said of the rest of the buffer, nor of a buffer that comes back from a receive that failed.

Then the number of receives is decided by the source as well, since interruptions are, and so
is the run of datagrams that is supplied. A buffer decides only which of them are cut.

## Main results

* `Honest.receiveRepeats_eq`: how often a receive is repeated does not depend on the buffer.
* `Honest.supply_eq`: **an honest endpoint supplies the datagrams of its source**, and those
  are cut that are larger than the buffer.
* `ScriptedPeer.honest_of_deliveries`: a scripted peer without reports of its own is honest.
-/

namespace Netlink

namespace Endpoint

/-- The datagrams that the first receives bring, by what comes of each. -/
def received (source : Nat → Except CallFailure Bytes) (n : Nat) : List Bytes :=
  (List.range n).filterMap fun i => (source i).toOption

section Source

variable {source : Nat → Except CallFailure Bytes}

/-- What some receives bring and what more of them bring is what all of them bring. -/
theorem received_add (a b : Nat) :
    received source (a + b) = received source a ++ received (fun i => source (a + i)) b := by
  rw [received, List.range_add, List.filterMap_append, List.filterMap_map]
  rfl

/-- Receives of which all but the last fail bring what the last one brings. -/
theorem received_of_last {k : Nat} (h : ∀ i < k, interruptedCall (source i)) :
    received source (k + 1) = (source k).toOption.toList := by
  have hnone : (List.range k).filterMap (fun i => (source i).toOption) = [] := by
    rw [List.filterMap_eq_nil_iff]
    intro i hi
    have hinterrupted := h i (List.mem_range.1 hi)
    cases hsource : source i with
    | error failure => rfl
    | ok datagram => simp [hsource, interruptedCall] at hinterrupted
  rw [received, List.range_succ, List.filterMap_append, hnone]
  cases hsource : source k <;> simp [hsource, Except.toOption]

end Source

variable {σ : Type} [Endpoint σ] {source : Nat → Except CallFailure Bytes} {policy : Policy}

/-! ### Honest endpoints -/

/-- The next receive fails in this way, or gives this datagram as far as it fits the buffer. -/
def Comes (s : σ) (buffer : Bytes) : Except CallFailure Bytes → Prop
  | .error failure => (receive s buffer).1 = .error failure
  | .ok datagram => Gives s buffer datagram

/-- A receive is interrupted just if its outcome is an interruption. -/
theorem Comes.interruptedCall_eq {s : σ} {buffer : Bytes} {outcome : Except CallFailure Bytes}
    (h : Comes s buffer outcome) :
    interruptedCall (receive s buffer).1 = interruptedCall outcome := by
  cases outcome with
  | error failure => rw [show (receive s buffer).1 = .error failure from h]; rfl
  | ok datagram => rw [Gives.receipt_eq h]; rfl

/-- The endpoint after one receive into each of these buffers. -/
def afterBuffers (s : σ) (buffers : List Bytes) : σ :=
  buffers.foldl (fun s buffer => (receive s buffer).2.2) s

/-- The receives come to what the source says, one after the other, whatever buffers they
bring. -/
def Honest (source : Nat → Except CallFailure Bytes) (s : σ) : Prop :=
  ∀ buffers buffer, Comes (afterBuffers s buffers) buffer (source buffers.length)

namespace Honest

/-- The next receive of an honest endpoint comes to the first outcome of its source. -/
theorem comes {s : σ} (h : Honest source s) (buffer : Bytes) : Comes s buffer (source 0) :=
  h [] buffer

/-- After a receive an endpoint is honest about the rest of its source. -/
theorem step {s : σ} (h : Honest source s) (buffer : Bytes) :
    Honest (fun i => source (i + 1)) (receive s buffer).2.2 :=
  fun buffers => h (buffer :: buffers)

/-- After some receives it is honest about what follows in the source. -/
theorem iterate {t : Bytes × σ} (h : Honest source t.2) (k : Nat) :
    Honest (fun i => source (k + i)) (afterReceive^[k] t).2 := by
  induction k generalizing source t with
  | zero => simpa using h
  | succ k ih =>
      have hlater := ih (t := afterReceive t) (h.step t.1)
      rw [Function.iterate_succ_apply]
      simpa only [Nat.add_right_comm k 1] using hlater

/-- What comes of each receive is what the source says of it. -/
theorem comes_at {t : Bytes × σ} (h : Honest source t.2) (k : Nat) :
    Comes (afterReceive^[k] t).2 (afterReceive^[k] t).1 (source k) :=
  (h.iterate k).comes _

/-- How often a receive is repeated does not depend on the buffer. -/
theorem receiveRepeats_eq {t u : Bytes × σ} (ht : Honest source t.2) (hu : Honest source u.2) :
    receiveRepeats policy u = receiveRepeats policy t := by
  have hcall (i : Nat) :
      interruptedCall (receive (afterReceive^[i] u).2 (afterReceive^[i] u).1).1
        = interruptedCall (receive (afterReceive^[i] t).2 (afterReceive^[i] t).1).1 := by
    rw [(hu.comes_at i).interruptedCall_eq, (ht.comes_at i).interruptedCall_eq]
  exact repeats_congr rfl hcall

/-- A receive is repeated only after interruptions. -/
theorem interruptedCall_of_lt {t : Bytes × σ} (h : Honest source t.2) {i : Nat}
    (hi : i < receiveRepeats policy t) : interruptedCall (source i) := by
  rw [← (h.comes_at i).interruptedCall_eq]
  exact interruptedCall_of_lt_receiveRepeats hi

end Honest

/-! ### What is supplied -/

/-- Receives do not change the size of the buffer. -/
theorem length_iterate_afterReceive (t : Bytes × σ) (k : Nat) :
    (afterReceive^[k] t).1.length = t.1.length := by
  induction k generalizing t with
  | zero => rfl
  | succ k ih => rw [Function.iterate_succ_apply, ih]; exact length_receive

namespace Honest

variable {t : Bytes × σ}

/-- What comes of a datagram is what the source says of the last receive made for it. -/
theorem fetch_fst (h : Honest source t.2) (policy : Policy) :
    (fetch policy t.2 t.1).1 = (source (receiveRepeats policy t)).map fun datagram =>
      ⟨min datagram.length t.1.length, t.1.length < datagram.length⟩ := by
  have hcomes := h.comes_at (receiveRepeats policy t)
  rw [fetch_eq_iterate]
  cases hsource : source (receiveRepeats policy t) with
  | error failure =>
      rw [hsource] at hcomes
      exact hcomes
  | ok datagram =>
      rw [hsource] at hcomes
      rw [hcomes.receipt_eq, length_iterate_afterReceive]
      rfl

/-- After a datagram it is honest about what follows the receives made for it. -/
theorem afterFetch (h : Honest source t.2) (policy : Policy) :
    Honest (fun i => source (receiveRepeats policy t + 1 + i)) (afterFetch policy t).2 := by
  rw [afterFetch_eq_iterate]
  exact h.iterate _

/-- A receive that fails ends what is supplied. -/
theorem supply_of_error (h : Honest source t.2) {failure : CallFailure}
    (hsource : source (receiveRepeats policy t) = .error failure) :
    supply policy t = ⟨[], failure⟩ := by
  have hfetch := h.fetch_fst policy
  rw [hsource] at hfetch
  exact Endpoint.supply_of_error (Prod.ext hfetch rfl)

/-- A datagram of the source is supplied first. -/
theorem supply_of_ok (h : Honest source t.2) {datagram : Bytes}
    (hsource : source (receiveRepeats policy t) = .ok datagram) :
    supply policy t
      = (supply policy (Endpoint.afterFetch policy t)).cons (.ofDatagram t.1.length datagram) := by
  have hfetch := h.fetch_fst policy
  rw [hsource] at hfetch
  have hgives := h.comes_at (receiveRepeats policy t)
  rw [hsource] at hgives
  have harrival := Gives.ofReceipt_eq hgives
  rw [← Function.iterate_succ_apply' afterReceive, ← afterFetch_eq_iterate,
    length_iterate_afterReceive] at harrival
  rw [Endpoint.supply_of_ok (Prod.ext hfetch rfl), ← harrival]
  rfl

/-- The receives made for one datagram bring that datagram, if it comes. -/
theorem received_fetch (h : Honest source t.2) (policy : Policy) :
    received source (receiveRepeats policy t + 1)
      = (source (receiveRepeats policy t)).toOption.toList :=
  received_of_last fun _ => h.interruptedCall_of_lt

/-- **An honest endpoint supplies the datagrams of its source.** Whatever buffer is brought, the
same datagrams are supplied, until the same failure, and for each number of them the same
receives are made, which bring just these. Those are cut that are larger than the buffer. -/
theorem supply_eq (policy : Policy) (t₀ : Bytes × σ) (h₀ : Honest source t₀.2) :
    ∃ (datagrams : List Bytes) (failure : CallFailure), ∀ t : Bytes × σ, Honest source t.2 →
      supply policy t = ⟨datagrams.map (.ofDatagram t.1.length), failure⟩ ∧
        ∀ k ≤ datagrams.length + 1,
          attemptsFor policy k t = attemptsFor policy k t₀ ∧
            received source (attemptsFor policy k t) = datagrams.take k := by
  fun_induction supply policy t₀ generalizing source with
  | case1 t₀ failure hfetch =>
      have hsource : source (receiveRepeats policy t₀) = .error failure := by
        rw [h₀.fetch_fst] at hfetch
        cases hsource : source (receiveRepeats policy t₀) with
        | error failure₁ => simpa [hsource, Except.map] using hfetch
        | ok datagram => simp [hsource, Except.map] at hfetch
      refine ⟨[], failure, fun t ht => ?_⟩
      have hrepeats : receiveRepeats policy t = receiveRepeats policy t₀ := h₀.receiveRepeats_eq ht
      refine ⟨ht.supply_of_error (hrepeats ▸ hsource), fun k hk => ?_⟩
      obtain rfl | rfl : k = 0 ∨ k = 1 := by
        rw [List.length_nil] at hk
        omega
      · exact ⟨rfl, rfl⟩
      · rw [attemptsFor, attemptsFor, hrepeats, attemptsFor, attemptsFor, Nat.add_zero,
          h₀.received_fetch, hsource]
        exact ⟨rfl, rfl⟩
  | case2 t₀ receipt hfetch ih =>
      obtain ⟨datagram, hsource⟩ :
          ∃ datagram, source (receiveRepeats policy t₀) = .ok datagram := by
        rw [h₀.fetch_fst] at hfetch
        cases hsource : source (receiveRepeats policy t₀) with
        | error failure => simp [hsource, Except.map] at hfetch
        | ok datagram => exact ⟨datagram, rfl⟩
      obtain ⟨datagrams, failure, hlater⟩ := ih (h₀.afterFetch policy)
      refine ⟨datagram :: datagrams, failure, fun t ht => ?_⟩
      have hrepeats : receiveRepeats policy t = receiveRepeats policy t₀ := h₀.receiveRepeats_eq ht
      obtain ⟨hsupply, hattempts⟩ := hlater (Endpoint.afterFetch policy t)
        (hrepeats ▸ ht.afterFetch policy)
      refine ⟨?_, fun k hk => ?_⟩
      · rw [ht.supply_of_ok (hrepeats ▸ hsource), hsupply, length_afterFetch]
        rfl
      · cases k with
        | zero => exact ⟨rfl, rfl⟩
        | succ k =>
            obtain ⟨hcount, hbrought⟩ := hattempts k (Nat.le_of_succ_le_succ hk)
            rw [attemptsFor, attemptsFor, hrepeats, hcount]
            refine ⟨rfl, ?_⟩
            rw [received_add, h₀.received_fetch, hsource, ← hcount, hbrought]
            rfl

end Honest

end Endpoint

/-! ### Scripted peers -/

namespace ScriptedPeer

/-- A scripted peer is honest if its script reports nothing of its own: it brings what the
script says, and nothing once the script is used up. -/
theorem honest_of_deliveries {p : ScriptedPeer} {outcomes : List (Except CallFailure Bytes)}
    (h : p.deliveries = outcomes.map fun o => o.map fun datagram => { datagram }) :
    Endpoint.Honest (fun i => outcomes.getD i (.error nothing)) p := by
  intro buffers buffer
  induction buffers generalizing p outcomes with
  | nil =>
      match outcomes with
      | [] =>
          change (Endpoint.receive p buffer).1 = .error nothing
          rw [endpoint_receive, receive, h]
          rfl
      | .error failure :: later =>
          change (Endpoint.receive p buffer).1 = .error failure
          rw [endpoint_receive, receive, h]
          rfl
      | .ok datagram :: later => exact gives_of_deliveries h buffer
  | cons first buffers ih =>
      have hlater : (Endpoint.receive p first).2.2.deliveries
          = outcomes.tail.map fun o => o.map fun datagram => { datagram } := by
        rw [endpoint_receive, receive, h]
        match outcomes with
        | [] => simp
        | .error failure :: later => rfl
        | .ok datagram :: later => rfl
      have hnth : outcomes.tail.getD buffers.length (.error nothing)
          = outcomes.getD (buffers.length + 1) (.error nothing) := by
        cases outcomes <;> rfl
      have hcomes := ih hlater
      dsimp only at hcomes
      rw [hnth] at hcomes
      exact hcomes

end ScriptedPeer

end Netlink
