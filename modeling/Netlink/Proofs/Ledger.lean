import Netlink.Proofs.Forgetting

/-!
# A Ledger of Receives

An endpoint does not tell what was received from it. Here every endpoint is given a ledger, in which
each receive is entered with what came of it: an attempt that was interrupted and repeated, a
failure, or a datagram as it arrived. The ledger is written and never read, so nothing that is done
with the endpoint depends on it, and what it says of the endpoint with a ledger is so of the
endpoint without.

Of the entries, those of interrupted attempts are set aside: what is settled is one entry for each
datagram that was asked for.

## Main results

* `Ledgered.pulls_forget`: **forgetting the ledger gives the run without it.**
* `Ledgered.adds_fetch`: what is entered for one datagram.
* `Ledgered.settled_of_adds`: of which one entry is settled, at most.
-/

namespace Netlink

/-- An endpoint with a ledger of the receives made on it: what came of each, in order. -/
structure Ledgered (σ : Type) where
  endpoint : σ
  ledger : List (Except CallFailure Arrival) := []

namespace Ledgered

variable {σ : Type} [Endpoint σ]

instance : Endpoint (Ledgered σ) where
  send l datagram :=
    let (outcome, s) := Endpoint.send l.endpoint datagram
    (outcome, { l with endpoint := s })
  receive l buffer :=
    let (outcome, buffer, s) := Endpoint.receive l.endpoint buffer
    (outcome, buffer, ⟨s, l.ledger ++ [outcome.map (Arrival.ofReceipt · buffer)]⟩)
  portId l :=
    let (outcome, s) := Endpoint.portId l.endpoint
    (outcome, { l with endpoint := s })
  pending l := Endpoint.pending l.endpoint
  pending_send_lt := Endpoint.pending_send_lt (σ := σ)
  pending_interrupted_lt := Endpoint.pending_interrupted_lt (σ := σ)
  pending_receive_lt := Endpoint.pending_receive_lt (σ := σ)
  length_receive := Endpoint.length_receive (σ := σ)

/-! ### Forgetting the ledger -/

/-- What a call gives and leaves, without the ledger. -/
def forget {α β : Type} (x : α × β × Ledgered σ) : α × β × σ := (x.1, x.2.1, x.2.2.endpoint)

/-- The ledger is written and never read. -/
theorem forgets : Endpoint.Forgets (endpoint (σ := σ)) where
  send_eq _ _ := rfl
  receive_eq _ _ := rfl

/-- **Forgetting the ledger gives the run without it.** -/
theorem pulls_forget (n : Nat) (r : Reply) (l : Ledgered σ) :
    Reply.pulls n r l.endpoint = forget (Reply.pulls n r l) :=
  forgets.forgetsWhile.pulls_eq trivial

/-! ### Entries -/

/-- The entries of receives that were not interrupted. -/
def settled (ledger : List (Except CallFailure Arrival)) : List (Except CallFailure Arrival) :=
  ledger.filter fun outcome => !interruptedCall outcome

/-- A receive that succeeded and gave a datagram that was not cut. -/
def uncut : Except CallFailure Arrival → Bool
  | .ok .cut => false
  | .ok _ => true
  | .error _ => false

/-- An outcome is entered in a ledger, after the interrupted attempts that led to it. -/
def Adds (outcome : Except CallFailure Arrival) (before after : List (Except CallFailure Arrival)) :
    Prop :=
  ∃ tries : List (Except CallFailure Arrival),
    (∀ attempt ∈ tries, interruptedCall attempt) ∧ after = before ++ tries ++ [outcome]

/-- Whether a call was interrupted does not depend on what it gives. -/
theorem interruptedCall_map {α β : Type} (f : α → β) (outcome : Except CallFailure α) :
    interruptedCall (outcome.map f) = interruptedCall outcome := by
  cases outcome <;> rfl

/-- What comes of a datagram is entered, after the attempts that were interrupted. -/
theorem adds_fetch (policy : Policy) (l : Ledgered σ) (buffer : Bytes) :
    Adds ((Endpoint.fetch policy l buffer).1.map
        (Arrival.ofReceipt · (Endpoint.fetch policy l buffer).2.1))
      l.ledger (Endpoint.fetch policy l buffer).2.2.ledger := by
  rw [Endpoint.fetch]
  generalize hattempt : 0 = attempt
  generalize ht : (buffer, l) = t
  obtain rfl : l = t.2 := by rw [← ht]
  clear ht hattempt
  fun_induction Endpoint.retry policy (fun t : Bytes × Ledgered σ => Endpoint.pending t.2)
      (fun t => Endpoint.receive t.2 t.1) (fun _ => Endpoint.pending_interrupted_lt) attempt t with
  | case1 attempt t result again ih =>
      obtain ⟨tries, htries, hledger⟩ := ih
      refine ⟨result.1.map (Arrival.ofReceipt · result.2.1) :: tries, ?_, ?_⟩
      · refine List.forall_mem_cons.2 ⟨?_, htries⟩
        rw [interruptedCall_map]
        exact again.1
      · rw [hledger, List.append_cons t.2.ledger _ tries]
        rfl
  | case2 attempt t result again => exact ⟨[], List.forall_mem_nil _, by simp [result]; rfl⟩

variable {outcome : Except CallFailure Arrival} {before after : List (Except CallFailure Arrival)}

/-- Of interrupted attempts nothing is settled. -/
theorem settled_of_interrupted {tries : List (Except CallFailure Arrival)}
    (h : ∀ attempt ∈ tries, interruptedCall attempt) : settled tries = [] := by
  simpa [settled] using h

/-- Of what is entered for one datagram, the outcome is settled, unless the policy gave up on
interruptions. -/
theorem settled_of_adds (h : Adds outcome before after) :
    settled after = settled before ++ settled [outcome] := by
  obtain ⟨tries, htries, rfl⟩ := h
  rw [settled, List.filter_append, List.filter_append, ← settled, ← settled,
    settled_of_interrupted htries, List.append_nil, ← settled]

/-- One more datagram came that was not cut, if this one was not. -/
theorem countP_uncut_of_adds (h : Adds outcome before after) :
    after.countP uncut = before.countP uncut + if uncut outcome then 1 else 0 := by
  obtain ⟨tries, htries, rfl⟩ := h
  have hnone : tries.countP uncut = 0 := by
    refine List.countP_eq_zero.2 fun attempt hattempt => ?_
    match attempt, htries attempt hattempt with
    | .error failure, _ => simp [uncut]
  rw [List.countP_append, List.countP_append, hnone, List.countP_singleton, Nat.add_zero]

/-- The outcome is the last entry. -/
theorem getLast?_of_adds (h : Adds outcome before after) : after.getLast? = some outcome := by
  obtain ⟨tries, -, rfl⟩ := h
  exact List.getLast?_concat

end Ledgered

end Netlink
