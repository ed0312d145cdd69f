import Netlink.Endpoint.Scripted
import Netlink.Proofs.Supply

/-!
# Scripts with Interruptions

A script says what comes of each call, and among this may be any number of interruptions. A call
that is repeated until it is not interrupted passes over a run of them (`Script.run`), and what
it then comes to is what a call comes to on the script without interruptions.

This is said once, for any calls that follow a script (`FollowsScript`), and holds of the sends
and of the receives of a scripted peer. The calm peer (`ScriptedPeer.calm`) is the same peer
with all interruptions deleted, those to come and those in its log.

## Main results

* `FollowsScript.retry_eq`: a policy that outlasts the run comes to the outcome after it.
* `FollowsScript.retry_eq_error`: one that does not gives up after one attempt more than it
  repeats.
* `ScriptedPeer.follows_send`, `ScriptedPeer.follows_receive`: scripted peers follow their
  scripts.
-/

namespace Netlink

/-! ### Scripts -/

namespace Script

variable {α : Type} {script : List (Except CallFailure α)}

/-- The outcomes in a script that are no interruptions. -/
def settled (script : List (Except CallFailure α)) : List (Except CallFailure α) :=
  script.filter fun outcome => !interruptedCall outcome

/-- What is left of a script after the first outcome that is no interruption. -/
def later (script : List (Except CallFailure α)) : List (Except CallFailure α) :=
  (script.dropWhile interruptedCall).tail

/-- How many interruptions come before the outcome of the `n`-th call, counted from zero, if each
call is repeated until it is not interrupted. -/
def run (script : List (Except CallFailure α)) : Nat → Nat
  | 0 => (script.takeWhile interruptedCall).length
  | n + 1 => run (later script) n

/-- Interruptions may be deleted before or after the first outcome is passed over. -/
theorem later_settled : later (settled script) = settled (later script) := by
  induction script with
  | nil => rfl
  | cons outcome script ih =>
      cases h : interruptedCall outcome with
      | true => simpa [settled, later, h] using ih
      | false => simp [settled, later, h]

/-- Where interruptions are deleted no call meets one. -/
theorem run_settled (n : Nat) : run (settled script) n = 0 := by
  induction n generalizing script with
  | zero =>
      induction script with
      | nil => rfl
      | cons outcome script ih =>
          cases h : interruptedCall outcome with
          | true => simpa [settled, h] using ih
          | false => simp [settled, run, h]
  | succ n ih => rw [run, later_settled, ih]

/-- Within the run there are interruptions only. -/
theorem drop_of_lt_run {i : Nat} (h : i < run script 0) :
    ∃ outcome rest, script.drop i = outcome :: rest ∧ interruptedCall outcome ∧
      script.drop (i + 1) = rest := by
  induction script generalizing i with
  | nil => simp [run] at h
  | cons first script ih =>
      cases hfirst : interruptedCall first with
      | false => simp [run, hfirst] at h
      | true =>
          cases i with
          | zero => exact ⟨first, script, rfl, hfirst, rfl⟩
          | succ i =>
              have hi : i < run script 0 := by simpa [run, hfirst] using h
              exact ih hi

/-- After the run there is an outcome that is no interruption, or none. -/
theorem drop_run (script : List (Except CallFailure α)) :
    (∀ outcome ∈ (script.drop (run script 0)).head?, interruptedCall outcome = false) ∧
      (script.drop (run script 0)).tail = later script := by
  induction script with
  | nil => simp [run, later]
  | cons first script ih =>
      cases hfirst : interruptedCall first with
      | false => simp [run, later, hfirst]
      | true => simpa [run, later, hfirst] using ih

/-- How many calls these are up to the `n`-th, with those that are interrupted. -/
def attempts (script : List (Except CallFailure α)) : Nat → Nat
  | 0 => 0
  | n + 1 => attempts script n + (run script n + 1)

/-- Where interruptions are deleted each call is made once. -/
theorem attempts_settled (n : Nat) : attempts (settled script) n = n := by
  induction n with
  | zero => rfl
  | succ n ih => rw [attempts, ih, run_settled]

end Script

/-- The policy outlasts each run of interruptions that the first `n` calls meet. -/
def Policy.Sustains {α : Type} (p : Policy) (script : List (Except CallFailure α)) (n : Nat) :
    Prop :=
  ∀ i < n, p.Outlasts (Script.run script i)

/-- A policy that sustains some calls sustains the first of them. -/
theorem Policy.Sustains.mono {α : Type} {p : Policy} {script : List (Except CallFailure α)}
    {n m : Nat} (h : p.Sustains script n) (hle : m ≤ n) : p.Sustains script m :=
  fun i hi => h i (Nat.lt_of_lt_of_le hi hle)

/-- After the first call it sustains the others, on what is left of the script. -/
theorem Policy.Sustains.tail {α : Type} {p : Policy} {script : List (Except CallFailure α)}
    {n : Nat} (h : p.Sustains script (n + 1)) : p.Sustains (Script.later script) n :=
  fun i hi => h (i + 1) (Nat.succ_lt_succ hi)

/-! ### Calls that follow a script -/

/-- What comes of the calls is written down in a script, and to pass over an interruption in it
is to do nothing, as far as `calm` tells. -/
structure FollowsScript {τ α β : Type} (call : τ → Except CallFailure α × τ)
    (script : τ → List (Except CallFailure β)) (calm : τ → τ) : Prop where
  interrupted : ∀ {t outcome rest}, script t = outcome :: rest → interruptedCall outcome →
    interruptedCall (call t).1 ∧ script (call t).2 = rest ∧ calm (call t).2 = calm t
  settled : ∀ {t}, (∀ outcome ∈ (script t).head?, interruptedCall outcome = false) →
    interruptedCall (call t).1 = false ∧ script (call t).2 = (script t).tail ∧
      call (calm t) = ((call t).1, calm (call t).2)

namespace FollowsScript

open Endpoint

variable {τ α β : Type} {call : τ → Except CallFailure α × τ}
  {script : τ → List (Except CallFailure β)} {calm : τ → τ} {pending : τ → Nat}
  {pending_lt : ∀ t, interruptedCall (call t).1 → pending (call t).2 < pending t}
  {policy : Policy} {t : τ}

/-- Calls within a run of interruptions use up so much of the script. -/
theorem afterCalls_of_le (h : FollowsScript call script calm) {i : Nat}
    (hi : i ≤ Script.run (script t) 0) :
    script (afterCalls call i t) = (script t).drop i ∧ calm (afterCalls call i t) = calm t := by
  induction i with
  | zero => exact ⟨rfl, rfl⟩
  | succ i ih =>
      obtain ⟨hscript, hcalm⟩ := ih (Nat.le_of_succ_le hi)
      obtain ⟨outcome, rest, hdrop, hinterrupted, hrest⟩ := Script.drop_of_lt_run hi
      obtain ⟨-, hstep, hstill⟩ := h.interrupted (hscript.trans hdrop) hinterrupted
      rw [afterCalls_succ, hrest]
      exact ⟨hstep, hstill.trans hcalm⟩

/-- Each call within the run is interrupted. -/
theorem interruptedCall_of_lt (h : FollowsScript call script calm) {i : Nat}
    (hi : i < Script.run (script t) 0) : interruptedCall (call (afterCalls call i t)).1 := by
  obtain ⟨hscript, -⟩ := h.afterCalls_of_le (Nat.le_of_lt hi)
  obtain ⟨outcome, rest, hdrop, hinterrupted, -⟩ := Script.drop_of_lt_run hi
  exact (h.interrupted (hscript.trans hdrop) hinterrupted).1

/-- The call after the run is not interrupted, and comes to what a call comes to where all is
calm. -/
theorem call_calm (h : FollowsScript call script calm) (t : τ) :
    let last := call (afterCalls call (Script.run (script t) 0) t)
    interruptedCall last.1 = false ∧ script last.2 = Script.later (script t) ∧
      call (calm t) = (last.1, calm last.2) := by
  obtain ⟨hscript, hcalm⟩ := h.afterCalls_of_le (t := t) (Nat.le_refl _)
  obtain ⟨hhead, htail⟩ := Script.drop_run (script t)
  rw [← hscript] at hhead htail
  obtain ⟨hsettled, hlater, hcall⟩ := h.settled hhead
  exact ⟨hsettled, hlater.trans htail, hcalm ▸ hcall⟩

/-- A run that the policy outlasts is repeated to its end. -/
theorem repeats_eq_run (h : FollowsScript call script calm)
    (hrun : policy.Outlasts (Script.run (script t) 0)) :
    repeats policy pending call pending_lt 0 t = Script.run (script t) 0 := by
  refine repeats_eq_of (fun i hi => ⟨h.interruptedCall_of_lt hi, ?_⟩) fun hlast => ?_
  · rw [Nat.zero_add]
    exact hrun.mayRetry hi
  · rw [(h.call_calm t).1] at hlast
    exact Bool.noConfusion hlast.1

/-- A longer run is given up after as many repetitions as the policy allows. -/
theorem repeats_eq_limit (h : FollowsScript call script calm) {limit : Nat}
    (hretries : policy.retries = some limit) (hrun : limit < Script.run (script t) 0) :
    repeats policy pending call pending_lt 0 t = limit := by
  refine repeats_eq_of (fun i hi => ⟨h.interruptedCall_of_lt (Nat.lt_trans hi hrun), ?_⟩)
    fun hlast => ?_
  · rw [Nat.zero_add, Policy.mayRetry_of_retries hretries]
    exact hi
  · rw [Nat.zero_add, Policy.mayRetry_of_retries hretries] at hlast
    exact Nat.lt_irrefl _ hlast.2

/-- **A policy that outlasts the run comes to the outcome after it**, which is that of a call
where all is calm. -/
theorem retry_eq (h : FollowsScript call script calm)
    (hrun : policy.Outlasts (Script.run (script t) 0)) :
    retry policy pending call pending_lt 0 t
      = call (afterCalls call (Script.run (script t) 0) t) := by
  rw [retry_eq_repeats, h.repeats_eq_run hrun]

/-- **A policy that does not outlast the run comes to an interruption.** -/
theorem retry_eq_error (h : FollowsScript call script calm) {limit : Nat}
    (hretries : policy.retries = some limit) (hrun : limit < Script.run (script t) 0) :
    ∃ failure : CallFailure, failure.interrupted ∧
      (retry policy pending call pending_lt 0 t).1 = .error failure := by
  have hinterrupted := h.interruptedCall_of_lt hrun
  rw [retry_eq_repeats, h.repeats_eq_limit hretries hrun]
  cases hcall : (call (afterCalls call limit t)).1 with
  | error failure =>
      rw [hcall] at hinterrupted
      exact ⟨failure, hinterrupted, rfl⟩
  | ok a =>
      rw [hcall] at hinterrupted
      cases hinterrupted

/-- Where all is calm nothing is repeated. -/
theorem retry_calm (h : FollowsScript call script calm) (t : τ) :
    retry policy pending call pending_lt 0 (calm t) = call (calm t) := by
  obtain ⟨hsettled, -, hcall⟩ := h.call_calm t
  exact retry_of_settled (by rw [hcall]; exact hsettled)

end FollowsScript

/-! ### Scripted peers -/

/-- The call came to an interruption. -/
def Event.interrupted : Event → Bool
  | .sent _ outcome => interruptedCall outcome
  | .received outcome => interruptedCall outcome

namespace ScriptedPeer

/-- The peer with all interruptions deleted, from its scripts and from its log. -/
def calm (p : ScriptedPeer) : ScriptedPeer where
  portId := p.portId
  sends := Script.settled p.sends
  deliveries := Script.settled p.deliveries
  log := p.log.filter fun event => !event.interrupted

/-- An interrupted send sends nothing. -/
theorem sent_calm (p : ScriptedPeer) : p.calm.sent = p.sent := by
  rw [sent, sent, calm, List.filterMap_filter]
  congr 1
  funext event
  match event with
  | .sent datagram (.ok n) => rfl
  | .sent datagram (.error failure) => cases h : failure.interrupted <;> simp
  | .received outcome => simp

/-- Sends follow the script for sends. -/
theorem follows_send (datagram : Bytes) :
    FollowsScript (fun p : ScriptedPeer => Endpoint.send p datagram) sends calm where
  interrupted {p outcome rest} hscript hinterrupted := by
    have hsend : Endpoint.send p datagram
        = (outcome, { p with sends := rest, log := p.log ++ [.sent datagram outcome] }) := by
      rw [endpoint_send, send, hscript]
    simp [hsend, calm, hscript, hinterrupted, Script.settled, Event.interrupted]
  settled {p} hhead := by
    cases hscript : p.sends with
    | nil =>
        simp [endpoint_send, send, calm, hscript, Script.settled, Event.interrupted,
          interruptedCall]
    | cons outcome rest =>
        have hsettled : interruptedCall outcome = false := hhead outcome (by simp [hscript])
        simp [endpoint_send, send, calm, hscript, hsettled, Script.settled, Event.interrupted]

/-- A buffer, and the peer it is brought to, with all interruptions deleted. -/
def calmed (t : Bytes × ScriptedPeer) : Bytes × ScriptedPeer := (t.1, t.2.calm)

/-- Receives follow the script for deliveries. -/
theorem follows_receive :
    FollowsScript (fun t : Bytes × ScriptedPeer => Endpoint.receive t.2 t.1)
      (fun t => t.2.deliveries) calmed where
  interrupted {t outcome rest} hscript hinterrupted := by
    match outcome with
    | .error failure =>
        have hfailure : interruptedCall (α := Receipt) (.error failure) = true := hinterrupted
        simp [endpoint_receive, receive, calmed, calm, hscript, hinterrupted, hfailure,
          Script.settled, Event.interrupted]
  settled {t} hhead := by
    match hscript : t.2.deliveries with
    | [] =>
        have hnothing : interruptedCall (α := Receipt) (.error nothing) = false := rfl
        simp [endpoint_receive, receive, calmed, calm, hscript, hnothing, Script.settled,
          Event.interrupted]
    | .error failure :: rest =>
        have hsettled : interruptedCall (α := Delivery) (.error failure) = false :=
          hhead _ (by simp [hscript])
        have hfailure : interruptedCall (α := Receipt) (.error failure) = false := hsettled
        simp [endpoint_receive, receive, calmed, calm, hscript, hsettled, hfailure, Script.settled,
          Event.interrupted]
    | .ok delivery :: rest =>
        simp [endpoint_receive, receive, calmed, calm, hscript, Script.settled, Event.interrupted,
          interruptedCall]

/-! ### The calls that are made -/

/-- A send is one call, and leaves the deliveries as they are. -/
theorem calls_send (p : ScriptedPeer) (datagram : Bytes) :
    (Endpoint.send p datagram).2.sendCalls = p.sendCalls + 1 ∧
      (Endpoint.send p datagram).2.receiveCalls = p.receiveCalls ∧
      (Endpoint.send p datagram).2.deliveries = p.deliveries := by
  rw [endpoint_send, send]
  cases p.sends <;> simp [sendCalls, receiveCalls]

/-- A receive is one call, and sends nothing. -/
theorem calls_receive (p : ScriptedPeer) (buffer : Bytes) :
    (Endpoint.receive p buffer).2.2.sendCalls = p.sendCalls ∧
      (Endpoint.receive p buffer).2.2.receiveCalls = p.receiveCalls + 1 ∧
      (Endpoint.receive p buffer).2.2.sent = p.sent := by
  rw [endpoint_receive, receive]
  match p.deliveries with
  | [] => simp [sendCalls, receiveCalls, sent]
  | .error failure :: rest => simp [sendCalls, receiveCalls, sent]
  | .ok delivery :: rest => simp [sendCalls, receiveCalls, sent]

/-- So many sends are that many calls, and no others. -/
theorem calls_afterCalls (p : ScriptedPeer) (datagram : Bytes) (k : Nat) :
    let q := Endpoint.afterCalls (fun p : ScriptedPeer => Endpoint.send p datagram) k p
    q.sendCalls = p.sendCalls + k ∧ q.receiveCalls = p.receiveCalls ∧
      q.deliveries = p.deliveries := by
  induction k with
  | zero => exact ⟨rfl, rfl, rfl⟩
  | succ k ih =>
      obtain ⟨hsends, hreceives, hdeliveries⟩ := ih
      rw [Endpoint.afterCalls_succ]
      obtain ⟨hsend, hreceive, hscript⟩ := calls_send
        (Endpoint.afterCalls (fun p : ScriptedPeer => Endpoint.send p datagram) k p) datagram
      exact ⟨by rw [hsend, hsends, Nat.add_assoc], hreceive.trans hreceives,
        hscript.trans hdeliveries⟩

/-- So many receives are that many calls, and no others. -/
theorem calls_iterate (t : Bytes × ScriptedPeer) (k : Nat) :
    (Endpoint.afterReceive^[k] t).2.sendCalls = t.2.sendCalls ∧
      (Endpoint.afterReceive^[k] t).2.receiveCalls = t.2.receiveCalls + k ∧
      (Endpoint.afterReceive^[k] t).2.sent = t.2.sent := by
  induction k with
  | zero => exact ⟨rfl, rfl, rfl⟩
  | succ k ih =>
      obtain ⟨hsends, hreceives, hsent⟩ := ih
      rw [Function.iterate_succ_apply']
      obtain ⟨hsend, hreceive, hsame⟩ :=
        calls_receive (Endpoint.afterReceive^[k] t).2 (Endpoint.afterReceive^[k] t).1
      exact ⟨hsend.trans hsends, hreceive.trans (by rw [hreceives, Nat.add_assoc]),
        hsame.trans hsent⟩

/-- The receives made for some datagrams are counted by `Endpoint.attemptsFor`, and are all that is
called. -/
theorem calls_iterate_afterFetch (policy : Policy) (t : Bytes × ScriptedPeer) (n : Nat) :
    ((Endpoint.afterFetch policy)^[n] t).2.sendCalls = t.2.sendCalls ∧
      ((Endpoint.afterFetch policy)^[n] t).2.receiveCalls
        = t.2.receiveCalls + Endpoint.attemptsFor policy n t ∧
      ((Endpoint.afterFetch policy)^[n] t).2.sent = t.2.sent := by
  rw [Endpoint.iterate_afterFetch_eq]
  exact calls_iterate t _

/-! ### Sends on a calm peer -/

section Sends

open Endpoint

/-- What comes of a send on the calm peer is what comes of one whose interruptions the policy
outlasts, which makes one call more for each of them. -/
theorem transmit_calm (policy : Policy) (p : ScriptedPeer) (datagram : Bytes) :
    ∃ outcome q, transmit policy p.calm datagram = (outcome, q.calm) ∧
      q.calm.sendCalls = p.calm.sendCalls + 1 ∧ q.calm.receiveCalls = p.calm.receiveCalls ∧
      (policy.Outlasts (Script.run p.sends 0) → transmit policy p datagram = (outcome, q)) ∧
      q.sendCalls = p.sendCalls + (Script.run p.sends 0 + 1) ∧
      q.receiveCalls = p.receiveCalls ∧ q.deliveries = p.deliveries := by
  obtain ⟨-, -, hcalm⟩ := (follows_send datagram).call_calm p
  obtain ⟨hsends, hreceives, hdeliveries⟩ := calls_afterCalls p datagram (Script.run p.sends 0 + 1)
  obtain ⟨hcalmSends, hcalmReceives, -⟩ := calls_send p.calm datagram
  rw [hcalm] at hcalmSends hcalmReceives
  rw [afterCalls_succ] at hsends hreceives hdeliveries
  exact ⟨_, _, ((follows_send datagram).retry_calm p).trans hcalm, hcalmSends, hcalmReceives,
    (follows_send datagram).retry_eq, hsends, hreceives, hdeliveries⟩

/-- A send that meets a run of interruptions that the policy does not outlast sends nothing. -/
theorem transmit_of_limit {policy : Policy} {p : ScriptedPeer} {limit : Nat}
    (datagram : Bytes) (hretries : policy.retries = some limit)
    (hrun : limit < Script.run p.sends 0) :
    ∃ (failure : CallFailure) (q : ScriptedPeer), failure.interrupted ∧
      transmit policy p datagram = (.error failure, q) ∧ q.sent = p.sent ∧
      q.sendCalls = p.sendCalls + (limit + 1) ∧ q.receiveCalls = p.receiveCalls := by
  have hfollows := follows_send datagram
  obtain ⟨failure, hinterrupted, hfailure⟩ :
      ∃ failure : CallFailure, failure.interrupted ∧
        (transmit policy p datagram).1 = .error failure :=
    hfollows.retry_eq_error hretries hrun
  have hstate : (transmit policy p datagram).2
      = afterCalls (fun p => Endpoint.send p datagram) (limit + 1) p := by
    rw [transmit_eq_iterate, sendRepeats, hfollows.repeats_eq_limit hretries hrun, afterCalls_succ]
  obtain ⟨hsends, hreceives, -⟩ := calls_afterCalls p datagram (limit + 1)
  obtain ⟨-, hcalm⟩ := hfollows.afterCalls_of_le (t := p) (Nat.succ_le_of_lt hrun)
  refine ⟨failure, afterCalls (fun p => Endpoint.send p datagram) (limit + 1) p, hinterrupted,
    Prod.ext hfailure hstate, ?_, hsends, hreceives⟩
  rw [← sent_calm, hcalm, sent_calm]

end Sends

/-! ### Receives on a calm peer -/

section Receives

open Endpoint

variable {policy : Policy} {t : Bytes × ScriptedPeer} {j limit : Nat}

/-- A receive whose interruptions the policy outlasts is one on the calm peer. -/
theorem fetch_calmed (h : policy.Outlasts (Script.run t.2.deliveries 0)) :
    fetch policy (calmed t).2 (calmed t).1
        = ((fetch policy t.2 t.1).1, calmed (fetch policy t.2 t.1).2) ∧
      (fetch policy t.2 t.1).2.2.deliveries = Script.later t.2.deliveries := by
  obtain ⟨-, hlater, hcall⟩ := follows_receive.call_calm t
  have hfetch : fetch policy t.2 t.1 = _ := follows_receive.retry_eq h
  have hcalm : fetch policy (calmed t).2 (calmed t).1 = _ := follows_receive.retry_calm t
  rw [hfetch, hcalm]
  exact ⟨hcall, hlater⟩

/-- Datagrams received under a policy that outlasts the interruptions are received as on the
calm peer. -/
theorem iterate_afterFetch_calmed (h : policy.Sustains t.2.deliveries j) :
    (afterFetch policy)^[j] (calmed t) = calmed ((afterFetch policy)^[j] t) ∧
      attemptsFor policy j t = Script.attempts t.2.deliveries j ∧
      ∀ i, Script.run ((afterFetch policy)^[j] t).2.deliveries i
        = Script.run t.2.deliveries (j + i) := by
  induction j with
  | zero => exact ⟨rfl, rfl, fun i => by rw [Nat.zero_add]; rfl⟩
  | succ j ih =>
      obtain ⟨hcalmed, hcount, hruns⟩ := ih (h.mono (Nat.le_succ j))
      have hrun := h j (Nat.lt_succ_self j)
      rw [← Nat.add_zero j, ← hruns] at hrun
      obtain ⟨hfetch, hlater⟩ := fetch_calmed hrun
      have hrepeats : receiveRepeats policy ((afterFetch policy)^[j] t)
          = Script.run t.2.deliveries j := by
        rw [← Nat.add_zero j, ← hruns]
        exact follows_receive.repeats_eq_run hrun
      refine ⟨?_, ?_, fun i => ?_⟩
      · rw [Function.iterate_succ_apply', Function.iterate_succ_apply', hcalmed, afterFetch, hfetch]
        rfl
      · rw [attemptsFor_succ, Script.attempts, hcount, hrepeats]
      · rw [Function.iterate_succ_apply', afterFetch, hlater, Nat.add_right_comm, Nat.add_assoc,
          ← hruns]
        rfl

/-- On the calm peer one receive is made for each datagram. -/
theorem attemptsFor_calmed (policy : Policy) (n : Nat) (t : Bytes × ScriptedPeer) :
    attemptsFor policy n (calmed t) = n := by
  have hruns (i : Nat) : Script.run (calmed t).2.deliveries i = 0 := Script.run_settled i
  have hsustains : policy.Sustains (calmed t).2.deliveries n := fun i _ => by
    rw [hruns]
    exact fun limit _ => Nat.zero_le limit
  rw [(iterate_afterFetch_calmed hsustains).2.1]
  exact Script.attempts_settled n

/-- What is supplied under a policy that outlasts the interruptions is what the calm peer
supplies, as far as that goes. -/
theorem supply_calmed (h : policy.Sustains t.2.deliveries j) :
    (supply policy t).arrivals.take j = (supply policy (calmed t)).arrivals.take j ∧
      ((supply policy (calmed t)).arrivals.length < j →
        supply policy t = supply policy (calmed t)) := by
  induction j generalizing t with
  | zero => exact ⟨rfl, fun hlt => absurd hlt (Nat.not_lt_zero _)⟩
  | succ j ih =>
      obtain ⟨hcalm, hlater⟩ := fetch_calmed (h 0 (Nat.succ_pos j))
      match hfetch : fetch policy t.2 t.1 with
      | (.error failure, u) =>
          rw [hfetch] at hcalm
          rw [supply_of_error hfetch, supply_of_error hcalm]
          exact ⟨rfl, fun _ => rfl⟩
      | (.ok receipt, u) =>
          rw [hfetch] at hcalm hlater
          obtain ⟨htake, hall⟩ := ih (t := u) (hlater ▸ h.tail)
          rw [supply_of_ok hfetch, supply_of_ok hcalm]
          refine ⟨?_, fun hlt => ?_⟩
          · rw [Supply.cons, Supply.cons, List.take_succ_cons, List.take_succ_cons, htake]
            rfl
          · rw [hall (Nat.lt_of_succ_lt_succ hlt)]
            rfl

/-- A run that the policy does not outlast breaks the supply off with an interruption. -/
theorem supply_eq_take (h : policy.Sustains t.2.deliveries j)
    (hretries : policy.retries = some limit) (hrun : limit < Script.run t.2.deliveries j)
    (hj : j ≤ (supply policy (calmed t)).arrivals.length) :
    ∃ failure : CallFailure, failure.interrupted ∧
      supply policy t = ⟨(supply policy (calmed t)).arrivals.take j, failure⟩ := by
  induction j generalizing t with
  | zero =>
      obtain ⟨failure, hinterrupted, hfetch⟩ :
          ∃ failure : CallFailure, failure.interrupted ∧
            (fetch policy t.2 t.1).1 = .error failure :=
        follows_receive.retry_eq_error hretries hrun
      exact ⟨failure, hinterrupted, supply_of_error (Prod.ext hfetch rfl)⟩
  | succ j ih =>
      obtain ⟨hcalm, hlater⟩ := fetch_calmed (h 0 (Nat.succ_pos j))
      match hfetch : fetch policy t.2 t.1 with
      | (.error failure, u) =>
          rw [hfetch] at hcalm
          rw [supply_of_error hcalm] at hj
          exact absurd hj (Nat.not_succ_le_zero j)
      | (.ok receipt, u) =>
          rw [hfetch] at hcalm hlater
          rw [supply_of_ok hcalm] at hj
          obtain ⟨failure, hinterrupted, hsupply⟩ := ih (t := u) (hlater ▸ h.tail)
            (by rwa [hlater]) (Nat.le_of_succ_le_succ hj)
          refine ⟨failure, hinterrupted, ?_⟩
          rw [supply_of_ok hfetch, supply_of_ok hcalm, hsupply]
          rfl

/-- Where the policy gives up at a run, as many receives are made as it allows, after those for the
datagrams before. -/
theorem attemptsFor_of_limit (h : policy.Sustains t.2.deliveries j)
    (hretries : policy.retries = some limit) (hrun : limit < Script.run t.2.deliveries j) :
    attemptsFor policy (j + 1) t = Script.attempts t.2.deliveries j + (limit + 1) := by
  obtain ⟨-, hcount, hruns⟩ := iterate_afterFetch_calmed h
  have hrepeats : receiveRepeats policy ((afterFetch policy)^[j] t) = limit := by
    rw [← Nat.add_zero j, ← hruns] at hrun
    exact follows_receive.repeats_eq_limit hretries hrun
  rw [attemptsFor_succ, hcount, hrepeats]

end Receives

end ScriptedPeer

end Netlink
