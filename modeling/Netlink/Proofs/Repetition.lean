import Mathlib.Logic.Function.Iterate
import Netlink.Endpoint.Basic

/-!
# Repeated Calls

How often a call is made before its outcome counts. A call is repeated as long as it is
interrupted and the policy allows another attempt, and `Endpoint.repeats` counts how often that
is. So what comes to anything else than an interruption is made once, and a run of
interruptions is repeated to its end if the policy outlasts it; otherwise the call is given up
after one attempt more than the policy repeats.

Of a policy only the number of repetitions matters here, so policies that differ elsewhere make
the same calls. The number of attempts is a number without bound, but to keep it in a word of
thirty-two bits comes to the same: where there is a limit the word never overflows, and where
there is none it is not looked at.

## Main results

* `retry_eq_repeats`, `repeats_spec`: the attempt that counts, and why it is the last.
* `fetch_of_settled`, `transmit_of_settled`: what is not interrupted is not repeated.
* `retry_congr`: of a policy only the number of repetitions matters.
* `retryWord_eq`: a counter of thirty-two bits repeats as one without bound.
-/

namespace Netlink

/-! ### Policies -/

namespace Policy

variable {p : Policy} {attempt run : Nat}

/-- The policy repeats a call that meets a run of this many interruptions until it is over. -/
def Outlasts (p : Policy) (run : Nat) : Prop :=
  ∀ limit, p.retries = some limit → run ≤ limit

/-- A call may be repeated until the limit is reached, if there is one. -/
theorem mayRetry_iff : p.mayRetry attempt ↔ ∀ limit, p.retries = some limit → attempt < limit := by
  rw [mayRetry]
  cases p.retries <;> simp

/-- A policy that outlasts a run repeats the calls within it. -/
theorem Outlasts.mayRetry (h : p.Outlasts run) (hattempt : attempt < run) : p.mayRetry attempt :=
  mayRetry_iff.2 fun limit hlimit => Nat.lt_of_lt_of_le hattempt (h limit hlimit)

/-- With a limit, so many repetitions are allowed. -/
theorem mayRetry_of_retries {limit : Nat} (h : p.retries = some limit) :
    p.mayRetry attempt ↔ attempt < limit := by
  simp [mayRetry_iff, h]

/-- Of a policy only the limit matters here. -/
theorem mayRetry_congr {p' : Policy} (h : p.retries = p'.retries) : p.mayRetry = p'.mayRetry := by
  funext attempt
  rw [mayRetry, mayRetry, h]

end Policy

namespace Endpoint

/-! ### Calls -/

section Calls

variable {τ α : Type} {policy policy' : Policy} {pending : τ → Nat}
  {call : τ → Except CallFailure α × τ}
  {pending_lt : ∀ t, interruptedCall (call t).1 → pending (call t).2 < pending t}
  {attempt k : Nat} {t : τ}

/-- What is left after so many calls. -/
def afterCalls (call : τ → Except CallFailure α × τ) (k : Nat) (t : τ) : τ :=
  (fun t => (call t).2)^[k] t

/-- The last of several calls is made on what the others left. -/
theorem afterCalls_succ (call : τ → Except CallFailure α × τ) (k : Nat) (t : τ) :
    afterCalls call (k + 1) t = (call (afterCalls call k t)).2 :=
  Function.iterate_succ_apply' ..

/-- How often a call is repeated that was repeated `attempt` times before. -/
def repeats (policy : Policy) (pending : τ → Nat) (call : τ → Except CallFailure α × τ)
    (pending_lt : ∀ t, interruptedCall (call t).1 → pending (call t).2 < pending t)
    (attempt : Nat) (t : τ) : Nat :=
  if again : interruptedCall (call t).1 ∧ policy.mayRetry attempt then
    repeats policy pending call pending_lt (attempt + 1) (call t).2 + 1
  else 0
termination_by pending t
decreasing_by exact pending_lt t again.1

/-- Of the attempts made, the one after all repetitions counts. -/
theorem retry_eq_repeats :
    retry policy pending call pending_lt attempt t
      = call (afterCalls call (repeats policy pending call pending_lt attempt t) t) := by
  fun_induction repeats policy pending call pending_lt attempt t with
  | case1 attempt t again ih =>
      rw [retry, dif_pos again, ih]
      rfl
  | case2 attempt t again =>
      rw [retry, dif_neg again]
      rfl

/-- A call is repeated as long as it is interrupted and may be repeated, and then no more. -/
theorem repeats_spec (policy : Policy) (pending : τ → Nat) (call : τ → Except CallFailure α × τ)
    (pending_lt : ∀ t, interruptedCall (call t).1 → pending (call t).2 < pending t)
    (attempt : Nat) (t : τ) :
    (∀ i < repeats policy pending call pending_lt attempt t,
      interruptedCall (call (afterCalls call i t)).1 ∧ policy.mayRetry (attempt + i)) ∧
      ¬(interruptedCall
          (call (afterCalls call (repeats policy pending call pending_lt attempt t) t)).1 ∧
        policy.mayRetry (attempt + repeats policy pending call pending_lt attempt t)) := by
  fun_induction repeats policy pending call pending_lt attempt t with
  | case1 attempt t again ih =>
      obtain ⟨hlt, hlast⟩ := ih
      simp only [Nat.add_assoc, Nat.add_comm 1] at hlt hlast
      refine ⟨fun i hi => ?_, hlast⟩
      cases i with
      | zero => exact again
      | succ i => exact hlt i (Nat.lt_of_succ_lt_succ hi)
  | case2 attempt t again => exact ⟨fun i hi => absurd hi (Nat.not_lt_zero i), again⟩

/-- There is one number of repetitions that is as it must be. -/
theorem repeats_eq_of
    (hlt : ∀ i < k, interruptedCall (call (afterCalls call i t)).1 ∧ policy.mayRetry (attempt + i))
    (hlast : ¬(interruptedCall (call (afterCalls call k t)).1 ∧ policy.mayRetry (attempt + k))) :
    repeats policy pending call pending_lt attempt t = k := by
  obtain ⟨hlt', hlast'⟩ := repeats_spec policy pending call pending_lt attempt t
  exact Nat.le_antisymm (Nat.le_of_not_lt fun h => hlast (hlt' k h))
    (Nat.le_of_not_lt fun h => hlast' (hlt _ h))

/-- What is not interrupted is not repeated. -/
theorem retry_of_settled (h : interruptedCall (call t).1 = false) :
    retry policy pending call pending_lt attempt t = call t := by
  rw [retry, dif_neg (by simp [h])]

/-- Which calls are interrupted, and how many repetitions the policy allows, is all that
matters. -/
theorem repeats_congr {u : τ} (hretries : policy.retries = policy'.retries)
    (hcalls : ∀ i, interruptedCall (call (afterCalls call i t)).1
      = interruptedCall (call (afterCalls call i u)).1) :
    repeats policy pending call pending_lt attempt t
      = repeats policy' pending call pending_lt attempt u := by
  obtain ⟨hlt, hlast⟩ := repeats_spec policy' pending call pending_lt attempt u
  simp only [← hcalls, ← Policy.mayRetry_congr hretries] at hlt hlast
  exact repeats_eq_of hlt hlast

/-- Policies with one limit repeat a call equally often, and so to the same outcome. -/
theorem retry_congr (h : policy.retries = policy'.retries) :
    retry policy pending call pending_lt attempt t
      = retry policy' pending call pending_lt attempt t := by
  rw [retry_eq_repeats, retry_eq_repeats, repeats_congr h fun _ => rfl]

/-! ### Counters of thirty-two bits -/

/-- Makes a call as `retry` does, with the attempts counted in a word, which starts from zero
again once it is full. -/
def retryWord (limit : Option UInt32) (pending : τ → Nat) (call : τ → Except CallFailure α × τ)
    (pending_lt : ∀ t, interruptedCall (call t).1 → pending (call t).2 < pending t)
    (attempt : UInt32) (t : τ) : Except CallFailure α × τ :=
  let result := call t
  if again : interruptedCall result.1 ∧ limit.all (attempt < ·) then
    retryWord limit pending call pending_lt (attempt + 1) result.2
  else
    result
termination_by pending t
decreasing_by exact pending_lt t again.1

/-- A word counts attempts as well as a number: without a limit it is not looked at, and below
a limit it does not overflow. -/
theorem retryWord_eq {limit : Option UInt32} {word : UInt32}
    (hretries : policy.retries = limit.map UInt32.toNat)
    (hword : limit.isSome → word.toNat = attempt) :
    retryWord limit pending call pending_lt word t
      = retry policy pending call pending_lt attempt t := by
  have hagain (word : UInt32) (attempt : Nat) (h : limit.isSome → word.toNat = attempt) :
      limit.all (word < ·) = policy.mayRetry attempt := by
    rw [Policy.mayRetry, hretries]
    cases limit with
    | none => rfl
    | some limit =>
        obtain rfl := h rfl
        simp [UInt32.lt_iff_toNat_lt]
  fun_induction retryWord limit pending call pending_lt word t generalizing attempt with
  | case1 word t result again =>
      rename_i ih
      rw [retry, dif_pos (hagain word attempt hword ▸ again)]
      refine ih fun hsome => ?_
      obtain ⟨limit, rfl⟩ := Option.isSome_iff_exists.1 hsome
      have hlt : word.toNat < limit.toNat := by simpa [UInt32.lt_iff_toNat_lt] using again.2
      have hbound := limit.toNat_lt
      have hone : (1 : UInt32).toNat = 1 := rfl
      rw [UInt32.toNat_add, hone, hword rfl]
      rw [hword rfl] at hlt
      omega
  | case2 word t result =>
      rename_i again
      rw [retry, dif_neg (hagain word attempt hword ▸ again)]

end Calls

/-! ### Sends and receives -/

variable {σ : Type} [Endpoint σ] {policy policy' : Policy}

/-- A send that is not interrupted is not repeated. -/
theorem transmit_of_settled {s : σ} {datagram : Bytes}
    (h : interruptedCall (send s datagram).1 = false) :
    transmit policy s datagram = send s datagram :=
  retry_of_settled h

/-- A receive that is not interrupted is not repeated. -/
theorem fetch_of_settled {s : σ} {buffer : Bytes}
    (h : interruptedCall (receive s buffer).1 = false) :
    fetch policy s buffer = receive s buffer := by
  rw [fetch]
  exact retry_of_settled h

/-- Of a policy only the limit matters for a receive. -/
theorem fetch_congr (h : policy.retries = policy'.retries) (s : σ) (buffer : Bytes) :
    fetch policy s buffer = fetch policy' s buffer :=
  retry_congr h

/-- How often a send is repeated. -/
def sendRepeats (policy : Policy) (s : σ) (datagram : Bytes) : Nat :=
  repeats policy pending (send · datagram) (fun _ => pending_send_lt) 0 s

/-- An interrupted receive uses something up, and the buffer does not matter. -/
theorem pending_receive_of_interrupted (t : Bytes × σ)
    (h : interruptedCall (receive t.2 t.1).1) : pending (receive t.2 t.1).2.2 < pending t.2 :=
  pending_interrupted_lt h

/-- How often a receive is repeated. -/
def receiveRepeats (policy : Policy) (t : Bytes × σ) : Nat :=
  repeats policy (fun t : Bytes × σ => pending t.2) (fun t => receive t.2 t.1)
    pending_receive_of_interrupted 0 t

/-- What comes of a datagram that is sent is what comes of the send after all repetitions. -/
theorem transmit_eq_iterate (policy : Policy) (s : σ) (datagram : Bytes) :
    transmit policy s datagram
      = send (afterCalls (send · datagram) (sendRepeats policy s datagram) s) datagram :=
  retry_eq_repeats

end Endpoint

end Netlink
