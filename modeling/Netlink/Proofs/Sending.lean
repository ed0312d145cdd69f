import Netlink.Proofs.Forgetting
import Netlink.Proofs.Leftover
import Netlink.Proofs.Single

/-!
# A Request Is Sent First, and Once

An exchange makes calls on an endpoint that does not belong to it, so it matters which calls these
are, and in which order. Here every endpoint is given a log of all calls made on it. It shows the same
of every exchange: the request is sent, and sent again only while the send is interrupted; if the last
send failed nothing else is done, and if it succeeded there are only receives, however many octets it
reported. To start a reply is only to send; the receives are made as its messages are pulled.

## Main results

* `Logged.log_transmit`: what is logged of a send and its repetitions.
* `Request.start_forgets`, `Request.once_forgets`, `Request.confirm_forgets`: an exchange does not see
  what is forgotten of its endpoint.
* `Request.sends_once_first`: **an exchange sends its request first, and once.**
-/

namespace Netlink

/-- A call made on an endpoint, and what came of it. -/
inductive Endpoint.Call where
  | send (datagram : Bytes) (outcome : Except CallFailure Nat)
  | receive (outcome : Except CallFailure Receipt)
  | portId (outcome : Except CallFailure UInt32)

/-- An endpoint with a log of the calls made on it, in order. -/
structure Logged (σ : Type) where
  endpoint : σ
  log : List Endpoint.Call := []

namespace Logged

variable {σ : Type} [Endpoint σ]

instance : Endpoint (Logged σ) where
  send l datagram :=
    let (outcome, s) := Endpoint.send l.endpoint datagram
    (outcome, ⟨s, l.log ++ [.send datagram outcome]⟩)
  receive l buffer :=
    let (outcome, buffer, s) := Endpoint.receive l.endpoint buffer
    (outcome, buffer, ⟨s, l.log ++ [.receive outcome]⟩)
  portId l :=
    let (outcome, s) := Endpoint.portId l.endpoint
    (outcome, ⟨s, l.log ++ [.portId outcome]⟩)
  pending l := Endpoint.pending l.endpoint
  pending_send_lt := Endpoint.pending_send_lt (σ := σ)
  pending_interrupted_lt := Endpoint.pending_interrupted_lt (σ := σ)
  pending_receive_lt := Endpoint.pending_receive_lt (σ := σ)
  length_receive := Endpoint.length_receive (σ := σ)

/-- The log is written and never read. -/
theorem forgets_log : Endpoint.Forgets (endpoint (σ := σ)) where
  send_eq _ _ := rfl
  receive_eq _ _ := rfl

/-! ### What is logged -/

/-- The calls of a send that is repeated after these failures and then comes to this outcome. -/
def sends (datagram : Bytes) (tries : List CallFailure) (outcome : Except CallFailure Nat) :
    List Endpoint.Call :=
  tries.map (fun failure => .send datagram (.error failure)) ++ [.send datagram outcome]

/-- What was called after some calls are only receives. -/
def OnlyReceives (before after : List Endpoint.Call) : Prop :=
  ∃ outcomes : List (Except CallFailure Receipt), after = before ++ outcomes.map .receive

/-- An interrupted call failed. -/
theorem exists_of_interruptedCall {α : Type} {outcome : Except CallFailure α}
    (h : interruptedCall outcome) :
    ∃ failure : CallFailure, outcome = .error failure ∧ failure.interrupted :=
  match outcome, h with
  | .error failure, hinterrupted => ⟨failure, rfl, hinterrupted⟩

/-- **A send is repeated only while it is interrupted**, and each time it is the same datagram. -/
theorem log_transmit (policy : Policy) (l : Logged σ) (datagram : Bytes) :
    ∃ tries : List CallFailure, (∀ failure ∈ tries, failure.interrupted) ∧
      (Endpoint.transmit policy l datagram).2.log
        = l.log ++ sends datagram tries (Endpoint.transmit policy l datagram).1 := by
  rw [Endpoint.transmit]
  generalize 0 = attempt
  fun_induction Endpoint.retry policy Endpoint.pending (Endpoint.send · datagram)
      (fun _ => Endpoint.pending_send_lt) attempt l with
  | case1 attempt l result again ih =>
      obtain ⟨failure, hfailure, hinterrupted⟩ := exists_of_interruptedCall again.1
      obtain ⟨tries, htries, hlog⟩ := ih
      have hstep : result.2.log = l.log ++ [.send datagram (.error failure)] := by
        rw [← hfailure]
        rfl
      refine ⟨failure :: tries, List.forall_mem_cons.2 ⟨hinterrupted, htries⟩, ?_⟩
      rw [hlog, hstep, List.append_assoc]
      rfl
  | case2 attempt l result again => exact ⟨[], List.forall_mem_nil _, rfl⟩

/-- No call at all is made of receives alone. -/
theorem onlyReceives_self (log : List Endpoint.Call) : OnlyReceives log log :=
  ⟨[], (List.append_nil _).symm⟩

/-- With one more receive, only receives were made after the same calls. -/
theorem onlyReceives_receive {before : List Endpoint.Call} (l : Logged σ) (buffer : Bytes)
    (h : OnlyReceives before l.log) :
    OnlyReceives before (Endpoint.receive l buffer).2.2.log := by
  obtain ⟨outcomes, hlog⟩ := h
  refine ⟨outcomes ++ [(Endpoint.receive l buffer).1], ?_⟩
  rw [List.map_append, ← List.append_assoc, ← hlog]
  rfl

end Logged

namespace Request

open Endpoint (ForgetsWhile)
open Logged (sends OnlyReceives forgets_log)

/-! ### A send and what is received after it -/

/-- What a datagram decides does not see what is forgotten of the endpoint it came from. -/
theorem decision_map {σ τ : Type} {f : τ → σ} (policy : Policy) (sequence : UInt32)
    (received : Except CallFailure Receipt × Bytes × τ) :
    decision policy sequence (Prod.map id (Prod.map id f) received)
      = Prod.map id f (decision policy sequence received) := by
  match received with
  | (.error failure, buffer, t) => rfl
  | (.ok receipt, buffer, t) =>
      simp only [decision, Prod.map_apply, id]
      cases Arrival.ofReceipt receipt buffer <;> rfl

variable {σ τ : Type} [Endpoint σ] [Endpoint τ] {f : τ → σ} {policy : Policy} {request : Message}

/-- If the request cannot be sent, no reply is started. -/
theorem start_of_send_error {e : Expectation} {s s' : σ} {failure : CallFailure}
    (h : Endpoint.transmit policy s request.octets = (.error failure, s')) :
    start policy e request s = (.error (.call failure), s') := by
  rw [start, send, h]
  rfl

/-- Once it was sent, the reply is started, whatever was reported of the send. -/
theorem start_of_send_ok {e : Expectation} {s s' : σ} {count : Nat}
    (h : Endpoint.transmit policy s request.octets = (.ok count, s')) :
    start policy e request s = (.ok (Reply.start policy e), s') := by
  rw [start, send, h]
  rfl

/-- What is left after the one datagram is what the receives leave. -/
theorem once_snd_of_send_ok {s s' : σ} {count : Nat}
    (h : Endpoint.transmit policy s request.octets = (.ok count, s')) :
    (once policy request s).2
      = (Endpoint.fetch policy s' (List.replicate policy.bufferSize 0)).2.2 := by
  match hfetch : Endpoint.fetch policy s' (List.replicate policy.bufferSize 0) with
  | (.error failure, buffer, s'') => rw [once_of_fetch_error h hfetch]
  | (.ok receipt, buffer, s'') => rw [once_of_fetch_ok h hfetch]

/-- What is left after an acknowledgement is what the receives leave, too. -/
theorem confirm_snd_of_send_ok {sequence : UInt32} {s s' : σ} {count : Nat}
    (h : Endpoint.transmit policy s request.octets = (.ok count, s')) :
    (confirm policy sequence request s).2
      = (Endpoint.fetch policy s' (List.replicate policy.bufferSize 0)).2.2 := by
  rw [confirm_of_send_ok h, awaitOutcome_start, decision_snd]

/-! ### Exchanges do not see what is forgotten -/

section Forgetting

variable {live : τ → Prop} (h : ForgetsWhile live f) {t : τ}

include h

/-- To start a reply does not see what is forgotten. -/
theorem start_forgets {e : Expectation} (hlive : live (start policy e request t).2) :
    start policy e request (f t) = Prod.map id f (start policy e request t) := by
  match ht : Endpoint.transmit policy t request.octets with
  | (.error failure, t') =>
      rw [start_of_send_error ht] at hlive
      have htransmit := h.transmit_eq (by rwa [ht])
      rw [ht] at htransmit
      rw [start_of_send_error ht, start_of_send_error htransmit]
      rfl
  | (.ok count, t') =>
      rw [start_of_send_ok ht] at hlive
      have htransmit := h.transmit_eq (by rwa [ht])
      rw [ht] at htransmit
      rw [start_of_send_ok ht, start_of_send_ok htransmit]
      rfl

/-- An exchange of one datagram does not see what is forgotten. -/
theorem once_forgets (hlive : live (once policy request t).2) :
    once policy request (f t) = Prod.map id f (once policy request t) := by
  match ht : Endpoint.transmit policy t request.octets with
  | (.error failure, t') =>
      rw [once_of_send_error ht] at hlive
      have htransmit := h.transmit_eq (by rwa [ht])
      rw [ht] at htransmit
      rw [once_of_send_error ht, once_of_send_error htransmit]
      rfl
  | (.ok count, t') =>
      rw [once_snd_of_send_ok ht] at hlive
      have htransmit := h.transmit_eq (by rw [ht]; exact h.live_of_fetch hlive)
      rw [ht] at htransmit
      have hfetch := h.fetch_eq hlive
      match ht' : Endpoint.fetch policy t' (List.replicate policy.bufferSize 0) with
      | (.error failure, buffer, t'') =>
          rw [ht'] at hfetch
          rw [once_of_fetch_error ht ht', once_of_fetch_error htransmit hfetch]
          rfl
      | (.ok receipt, buffer, t'') =>
          rw [ht'] at hfetch
          rw [once_of_fetch_ok ht ht', once_of_fetch_ok htransmit hfetch]
          rfl

/-- A request that waits for its acknowledgement does not see what is forgotten. -/
theorem confirm_forgets {sequence : UInt32} (hlive : live (confirm policy sequence request t).2) :
    confirm policy sequence request (f t)
      = Prod.map id f (confirm policy sequence request t) := by
  match ht : Endpoint.transmit policy t request.octets with
  | (.error failure, t') =>
      rw [confirm_of_send_error ht] at hlive
      have htransmit := h.transmit_eq (by rwa [ht])
      rw [ht] at htransmit
      rw [confirm_of_send_error ht, confirm_of_send_error htransmit]
      rfl
  | (.ok count, t') =>
      rw [confirm_snd_of_send_ok ht] at hlive
      have htransmit := h.transmit_eq (by rw [ht]; exact h.live_of_fetch hlive)
      rw [ht] at htransmit
      rw [confirm_of_send_ok ht, confirm_of_send_ok htransmit, awaitOutcome_start,
        awaitOutcome_start, h.fetch_eq hlive]
      exact decision_map policy sequence _

end Forgetting

/-- **An exchange sends its request first, and once.** With a log of the calls made on its endpoint, an
exchange comes to what it comes to without. To start a reply is to send the octets of the request, again
while the send is interrupted, and nothing else. If the last send failed, this is the outcome of every
exchange, and no other call is made; if it succeeded, whatever it reported, all calls after it are
receives: while the reply is read to any point or to its end, and in the other exchanges. -/
theorem sends_once_first (policy : Policy) (e : Expectation) (sequence : UInt32) (request : Message)
    (s : σ) :
    let l : Logged σ := ⟨s, []⟩
    let started := start policy e request l
    (start policy e request s = Prod.map id Logged.endpoint started ∧
        once policy request s = Prod.map id Logged.endpoint (once policy request l) ∧
        confirm policy sequence request s
          = Prod.map id Logged.endpoint (confirm policy sequence request l) ∧
        (∀ n r, Reply.pulls n r started.2.endpoint
          = Prod.map id (Prod.map id Logged.endpoint) (Reply.pulls n r started.2)) ∧
        ∀ r : Reply, r.items started.2.endpoint
          = Prod.map id (Prod.map id Logged.endpoint) (r.items started.2)) ∧
      ∃ (tries : List CallFailure) (outcome : Except CallFailure Nat),
        (∀ failure ∈ tries, failure.interrupted) ∧
          started.2.log = sends request.octets tries outcome ∧
          (∀ failure, outcome = .error failure →
            started.1 = .error (.call failure) ∧
              once policy request l = (.error (.call failure), started.2) ∧
              confirm policy sequence request l = (.error (.call failure), started.2)) ∧
          ∀ count, outcome = .ok count →
            started.1 = .ok (Reply.start policy e) ∧
              OnlyReceives started.2.log (once policy request l).2.log ∧
              OnlyReceives started.2.log (confirm policy sequence request l).2.log ∧
              (∀ n, OnlyReceives started.2.log
                (Reply.pulls n (Reply.start policy e) started.2).2.2.log) ∧
              OnlyReceives started.2.log ((Reply.start policy e).items started.2).2.2.log := by
  intro l started
  obtain ⟨tries, htries, hlog⟩ := Logged.log_transmit policy l request.octets
  have hlog_unseen := forgets_log (σ := σ).forgetsWhile
  refine ⟨⟨start_forgets hlog_unseen (t := l) trivial, once_forgets hlog_unseen (t := l) trivial,
    confirm_forgets hlog_unseen (t := l) trivial, fun _ _ => hlog_unseen.pulls_eq trivial,
    fun _ => hlog_unseen.items_eq trivial⟩,
    tries, (Endpoint.transmit policy l request.octets).1, htries, ?_⟩
  match hsend : Endpoint.transmit policy l request.octets with
  | (.error failure, sent) =>
      rw [hsend, List.nil_append] at hlog
      obtain hstarted : started = (.error (.call failure), sent) := start_of_send_error hsend
      rw [hstarted]
      refine ⟨hlog, ?_, fun count h => by simp at h⟩
      rintro failure ⟨⟩
      exact ⟨rfl, once_of_send_error hsend, confirm_of_send_error hsend⟩
  | (.ok count, sent) =>
      rw [hsend, List.nil_append] at hlog
      obtain hstarted : started = (.ok (Reply.start policy e), sent) := start_of_send_ok hsend
      rw [hstarted]
      have hself := Logged.onlyReceives_self sent.log
      refine ⟨hlog, fun failure h => by simp at h, fun _ _ => ⟨rfl, ?_, ?_, fun n => ?_, ?_⟩⟩
      · rw [once_snd_of_send_ok hsend]
        exact Endpoint.fetch_invariant Logged.onlyReceives_receive policy _ hself
      · rw [confirm_snd_of_send_ok hsend]
        exact Endpoint.fetch_invariant Logged.onlyReceives_receive policy _ hself
      · exact Reply.pulls_invariant Logged.onlyReceives_receive n _ hself
      · exact Reply.items_invariant Logged.onlyReceives_receive _ hself

end Request

end Netlink
