import Netlink.Proofs.Calm
import Netlink.Proofs.Excerpt
import Netlink.Proofs.Leftover
import Netlink.Proofs.Single

/-!
# Interruptions Do Not Show

An exchange sends a request once and then receives, once or more often. Each of these calls may
be interrupted and repeated. What `Withstands` says of an exchange with a scripted peer is that
this does not show: as long as the policy outlasts the runs of interruptions that are met, the
exchange comes to what it comes to on the calm peer, where they are deleted from the script,
and makes one more call for each of them. The first run that is longer ends it after one attempt
more than the policy repeats.

What is received after the send may be one datagram or a whole reply. For either it is enough
to say how many datagrams are received and what comes of an interruption instead of one of them
(`Receives`); the send in front, and the counting, is the same for all exchanges.

## Main results

* `receives_of_fetch`, `receives_items`: one datagram, and a whole reply.
* `withstands_of_receives`: an exchange is a send and what is received after it.
* `Request.withstands_interruptions`: **interruptions do not show** in any exchange.
-/

namespace Netlink.Request

open Endpoint

variable {α : Type} {policy : Policy} {p : ScriptedPeer} {n : Nat}

/-! ### What an exchange withstands -/

/-- What comes of an exchange that is broken off in a receive, by what comes of it on the calm
peer. -/
abbrev BreakOff (α : Type) := CallFailure → Except Fault α → Except Fault α → Prop

/-- The failure is the outcome. -/
def fails : BreakOff α := fun failure _ result => result = .error (.call failure)

/-- Some messages come first that also come on the calm peer, and then the failure. -/
def breaksOff : BreakOff (List (Except Fault Message)) := fun failure calm result =>
  ∃ (messages : List Message) (items : List (Except Fault Message)),
    calm = .ok items ∧ messages.map .ok <+: items ∧
      result = .ok (messages.map .ok ++ [.error (.call failure)])

/-- An exchange that receives `n` datagrams on the calm peer, with the failure of a receive
counted as one, withstands interruptions. -/
structure Withstands (policy : Policy) (broken : BreakOff α)
    (exchange : ScriptedPeer → Except Fault α × ScriptedPeer) (p : ScriptedPeer) (n : Nat) :
    Prop where
  /-- On the calm peer no call is repeated. -/
  calls_calm : (exchange p.calm).2.sendCalls = p.calm.sendCalls + 1 ∧
    (exchange p.calm).2.receiveCalls = p.calm.receiveCalls + n
  /-- Runs of interruptions that the policy outlasts do not show, but in the number of calls. -/
  within : policy.Outlasts (Script.run p.sends 0) → policy.Sustains p.deliveries n →
    (exchange p).1 = (exchange p.calm).1 ∧
      (exchange p).2.calm = (exchange p.calm).2 ∧
      (exchange p).2.sent = (exchange p.calm).2.sent ∧
      (exchange p).2.sendCalls = p.sendCalls + (Script.run p.sends 0 + 1) ∧
      (exchange p).2.receiveCalls = p.receiveCalls + Script.attempts p.deliveries n
  /-- A send that meets a longer run is given up, and nothing is received. -/
  send_beyond : ∀ limit, policy.retries = some limit → limit < Script.run p.sends 0 →
    ∃ failure : CallFailure, failure.interrupted ∧
      (exchange p).1 = .error (.call failure) ∧
      (exchange p).2.sent = p.sent ∧
      (exchange p).2.sendCalls = p.sendCalls + (limit + 1) ∧
      (exchange p).2.receiveCalls = p.receiveCalls
  /-- A receive that meets a longer run is given up, and is the last. -/
  receive_beyond : ∀ limit j, policy.retries = some limit → j < n →
    policy.Outlasts (Script.run p.sends 0) → policy.Sustains p.deliveries j →
    limit < Script.run p.deliveries j →
    ∃ failure : CallFailure, failure.interrupted ∧
      broken failure (exchange p.calm).1 (exchange p).1 ∧
      (exchange p).2.sent = (exchange p.calm).2.sent ∧
      (exchange p).2.sendCalls = p.sendCalls + (Script.run p.sends 0 + 1) ∧
      (exchange p).2.receiveCalls
        = p.receiveCalls + (Script.attempts p.deliveries j + (limit + 1))

/-! ### What is received -/

/-- The empty receive buffer, and the peer that it is brought to. -/
def opening (policy : Policy) (p : ScriptedPeer) : Bytes × ScriptedPeer :=
  (List.replicate policy.bufferSize 0, p)

/-- After the send `n` datagrams are received, if no interruption keeps the last of them from
coming. -/
structure Receives (policy : Policy) (broken : BreakOff α)
    (read : ScriptedPeer → Except Fault α × ScriptedPeer) (p : ScriptedPeer) (n : Nat) :
    Prop where
  calm : (read p.calm).2 = ((afterFetch policy)^[n] (opening policy p.calm)).2
  within : policy.Sustains p.deliveries n →
    (read p).1 = (read p.calm).1 ∧ (read p).2 = ((afterFetch policy)^[n] (opening policy p)).2
  beyond : ∀ limit j, policy.retries = some limit → j < n → policy.Sustains p.deliveries j →
    limit < Script.run p.deliveries j →
    ∃ failure : CallFailure, failure.interrupted ∧
      broken failure (read p.calm).1 (read p).1 ∧
      (read p).2 = ((afterFetch policy)^[j + 1] (opening policy p)).2

/-- Nothing is received. -/
theorem receives_nothing (broken : BreakOff α) (result : Except Fault α) :
    Receives policy broken (fun p => (result, p)) p 0 where
  calm := rfl
  within _ := ⟨rfl, rfl⟩
  beyond _ j _ hj := absurd hj (Nat.not_lt_zero j)

/-- What is made of one datagram. -/
theorem receives_of_fetch
    {taken : Except CallFailure Receipt × Bytes × ScriptedPeer → Except Fault α × ScriptedPeer}
    (hstate : ∀ outcome buffer p, (taken (outcome, buffer, p)).2 = p)
    (hresult : ∀ outcome buffer p q,
      (taken (outcome, buffer, p)).1 = (taken (outcome, buffer, q)).1)
    (hfails : ∀ failure buffer p,
      (taken (.error failure, buffer, p)).1 = .error (.call failure)) :
    Receives policy fails
      (fun p => taken (fetch policy p (List.replicate policy.bufferSize 0))) p 1 where
  calm := hstate _ _ _
  within h := by
    have hcalm : fetch policy p.calm (List.replicate policy.bufferSize 0) = (_, _) :=
      (ScriptedPeer.fetch_calmed (t := opening policy p) (h 0 Nat.one_pos)).1
    refine ⟨?_, hstate _ _ _⟩
    rw [hcalm]
    exact hresult _ _ _ _
  beyond limit j hretries hj _ hrun := by
    obtain rfl := Nat.lt_one_iff.1 hj
    obtain ⟨failure, hinterrupted, hfetch⟩ :
        ∃ failure : CallFailure, failure.interrupted ∧
          (fetch policy p (List.replicate policy.bufferSize 0)).1 = .error failure :=
      ScriptedPeer.follows_receive.retry_eq_error (t := opening policy p) hretries hrun
    have htuple : fetch policy p (List.replicate policy.bufferSize 0) = (.error failure, _) :=
      Prod.ext hfetch rfl
    refine ⟨failure, hinterrupted, ?_, hstate _ _ _⟩
    change (taken (fetch policy p _)).1 = .error (.call failure)
    rw [htuple]
    exact hfails _ _ _

/-- The items of a whole reply. -/
def readItems (policy : Policy) (e : Expectation) (p : ScriptedPeer) :
    Except Fault (List (Except Fault Message)) × ScriptedPeer :=
  (.ok ((Reply.start policy e).items p).1, ((Reply.start policy e).items p).2.2)

/-- What is made of a whole reply. -/
theorem receives_items (policy : Policy) (e : Expectation) (p : ScriptedPeer) :
    ∃ n, Receives policy breaksOff (readItems policy e) p n := by
  let supplied := supply policy (opening policy p.calm)
  let transcript := Transcript.read policy e supplied.failure [] supplied.arrivals
  obtain ⟨hitems, hstate⟩ := Reply.items_start_eq_read policy e p.calm (rfl : _ = supplied)
  have hread (arrivals : List Arrival) (failure : CallFailure)
      (hsupply : supply policy (opening policy p) = ⟨arrivals, failure⟩) :=
    Reply.items_start_eq_read policy e p hsupply
  refine ⟨transcript.receives, hstate, fun h => ?_, fun limit j hretries hj h hrun => ?_⟩
  · obtain ⟨htake, hall⟩ := ScriptedPeer.supply_calmed (t := opening policy p) h
    obtain ⟨hitems', hstate'⟩ := hread _ _ rfl
    have hsame : Transcript.read policy e (supply policy (opening policy p)).failure []
        (supply policy (opening policy p)).arrivals = transcript :=
      Transcript.read_of_take htake fun hlt => by rw [hall hlt]; exact ⟨rfl, rfl⟩
    rw [hsame] at hitems' hstate'
    exact ⟨congrArg Except.ok (hitems'.trans hitems.symm), hstate'⟩
  · have hle : j ≤ supplied.arrivals.length :=
      Nat.le_of_lt_succ (Nat.lt_of_lt_of_le hj (Transcript.receives_le ..))
    obtain ⟨failure, hinterrupted, hsupply⟩ : ∃ failure : CallFailure, failure.interrupted ∧
        supply policy (opening policy p) = ⟨supplied.arrivals.take j, failure⟩ :=
      ScriptedPeer.supply_eq_take (t := opening policy p) h hretries hrun hle
    obtain ⟨hitems', hstate'⟩ := hread _ _ hsupply
    obtain ⟨messages, hbroken, hbefore⟩ := Transcript.read_take failure hj
    rw [hbroken] at hitems' hstate'
    exact ⟨failure, hinterrupted, ⟨messages, _, congrArg Except.ok hitems, hbefore,
      congrArg Except.ok hitems'⟩, hstate'⟩

/-! ### An exchange is a send and what is received after it -/

section Exchange

variable {broken : BreakOff α} {exchange read : ScriptedPeer → Except Fault α × ScriptedPeer}
  {request : Message}

/-- An exchange that sends the request, and then, if it could be sent, receives. -/
structure SendsThenReads (policy : Policy) (request : Message)
    (exchange read : ScriptedPeer → Except Fault α × ScriptedPeer) : Prop where
  of_error : ∀ {p q failure}, transmit policy p request.octets = (.error failure, q) →
    exchange p = (.error (.call failure), q)
  of_ok : ∀ {p q k}, transmit policy p request.octets = (.ok k, q) → exchange p = read q

/-- What is received after a send depends on what comes of it: nothing if it fails. -/
theorem SendsThenReads.exists_receives (h : SendsThenReads policy request exchange read)
    (hread : ∀ q, ∃ n, Receives policy broken read q n) (outcome : Except CallFailure Nat)
    (q : ScriptedPeer) :
    ∃ after n, Receives policy broken after q n ∧
      ∀ p q, transmit policy p request.octets = (outcome, q) → exchange p = after q := by
  cases outcome with
  | error failure =>
      exact ⟨_, 0, receives_nothing broken (.error (.call failure)), fun _ _ => h.of_error⟩
  | ok k =>
      obtain ⟨n, hn⟩ := hread q
      exact ⟨read, n, hn, fun _ _ => h.of_ok⟩

/-- **Interruptions do not show in an exchange if they do not in what it receives.** -/
theorem withstands_of_receives (hexchange : SendsThenReads policy request exchange read)
    (hread : ∀ q, ∃ n, Receives policy broken read q n) (p : ScriptedPeer) :
    ∃ n, Withstands policy broken exchange p n := by
  obtain ⟨outcome, q, hcalm, hcalmSends, hcalmReceives, hwithin, hsends, hreceives, hdeliveries⟩ :=
    ScriptedPeer.transmit_calm policy p request.octets
  obtain ⟨after, n, hafter, hexchange'⟩ := hexchange.exists_receives hread outcome q
  have hcalmExchange : exchange p.calm = after q.calm := hexchange' _ _ hcalm
  have hcalls (p : ScriptedPeer) (k : Nat) :=
    ScriptedPeer.calls_iterate_afterFetch policy (opening policy p) k
  have hsent (k : Nat) : ((afterFetch policy)^[k] (opening policy q)).2.sent
      = ((afterFetch policy)^[n] (opening policy q.calm)).2.sent := by
    rw [(hcalls q k).2.2, (hcalls q.calm n).2.2]
    exact (ScriptedPeer.sent_calm q).symm
  refine ⟨n, { calls_calm := ?calm, within := ?within, send_beyond := ?send,
               receive_beyond := ?receive }⟩
  case calm =>
    have hattempts : attemptsFor policy n (opening policy q.calm) = n :=
      ScriptedPeer.attemptsFor_calmed policy n (opening policy q)
    obtain ⟨hsame, hmore, -⟩ := hcalls q.calm n
    rw [hattempts] at hmore
    rw [hcalmExchange, hafter.calm]
    exact ⟨hsame.trans hcalmSends, hmore.trans (congrArg (· + n) hcalmReceives)⟩
  case within =>
    intro hrun hsustains
    rw [← hdeliveries] at hsustains ⊢
    obtain ⟨hresult, hstate⟩ := hafter.within hsustains
    obtain ⟨hcalmed, hattempts, -⟩ :=
      ScriptedPeer.iterate_afterFetch_calmed (t := opening policy q) hsustains
    obtain ⟨hsame, hmore, -⟩ := hcalls q n
    rw [hattempts] at hmore
    rw [hexchange' _ _ (hwithin hrun), hcalmExchange, hstate, hafter.calm, ← hreceives]
    exact ⟨hresult, congrArg Prod.snd hcalmed.symm, hsent n, hsame.trans hsends, hmore⟩
  case send =>
    intro limit hretries hrun
    obtain ⟨failure, q, hinterrupted, hsend, hnone, hsends, hreceives⟩ :=
      ScriptedPeer.transmit_of_limit request.octets hretries hrun
    rw [hexchange.of_error hsend]
    exact ⟨failure, hinterrupted, rfl, hnone, hsends, hreceives⟩
  case receive =>
    intro limit j hretries hj hrun hsustains hlimit
    rw [← hdeliveries] at hsustains hlimit ⊢
    obtain ⟨failure, hinterrupted, hbroken, hstate⟩ :=
      hafter.beyond limit j hretries hj hsustains hlimit
    have hattempts :=
      ScriptedPeer.attemptsFor_of_limit (t := opening policy q) hsustains hretries hlimit
    obtain ⟨hsame, hmore, -⟩ := hcalls q (j + 1)
    rw [hattempts] at hmore
    rw [hexchange' _ _ (hwithin hrun), hcalmExchange, hstate, hafter.calm, ← hreceives]
    exact ⟨failure, hinterrupted, hbroken, hsent (j + 1), hsame.trans hsends, hmore⟩

end Exchange

/-! ### The exchanges -/

/-- Sends a request and reads the reply to its end: all items. -/
def readThrough (policy : Policy) (e : Expectation) (request : Message) (p : ScriptedPeer) :
    Except Fault (List (Except Fault Message)) × ScriptedPeer :=
  match start policy e request p with
  | (.error fault, p) => (.error fault, p)
  | (.ok r, p) => (.ok (r.items p).1, (r.items p).2.2)

/-- What is made of the datagram that is taken alone. -/
def taken (policy : Policy) :
    Except CallFailure Receipt × Bytes × ScriptedPeer → Except Fault Bytes × ScriptedPeer
  | (.error failure, _, p) => (.error (.call failure), p)
  | (.ok receipt, buffer, p) =>
    (if receipt.truncated then .error (.truncated policy.bufferSize)
      else .ok (buffer.take receipt.count), p)

/-- To read a whole reply is to send the request, and then to read the items. -/
theorem sendsThenReads_readThrough (policy : Policy) (e : Expectation) (request : Message) :
    SendsThenReads policy request (readThrough policy e request) (readItems policy e) where
  of_error h := by rw [readThrough, start, send, h]; rfl
  of_ok h := by rw [readThrough, start, send, h]; rfl

/-- To take one datagram is to send the request, and then to receive it. -/
theorem sendsThenReads_once (policy : Policy) (request : Message) :
    SendsThenReads policy request (once policy request)
      fun p => taken policy (fetch policy p (List.replicate policy.bufferSize 0)) where
  of_error := once_of_send_error
  of_ok {p q k} h := by
    match hfetch : fetch policy q (List.replicate policy.bufferSize 0) with
    | (.error failure, buffer, q') => exact once_of_fetch_error h hfetch
    | (.ok receipt, buffer, q') => exact once_of_fetch_ok h hfetch

/-- To wait for an acknowledgement is to send the request, and then to decide by one datagram. -/
theorem sendsThenReads_confirm (policy : Policy) (sequence : UInt32) (request : Message) :
    SendsThenReads policy request (confirm policy sequence request)
      fun p => decision policy sequence (fetch policy p (List.replicate policy.bufferSize 0)) where
  of_error := confirm_of_send_error
  of_ok h := by rw [confirm_of_send_ok h, awaitOutcome_start]

/-- What a datagram decides does not depend on the peer that it came from. -/
theorem decision_fst_congr (policy : Policy) (sequence : UInt32)
    (outcome : Except CallFailure Receipt) (buffer : Bytes) (p q : ScriptedPeer) :
    (decision policy sequence (outcome, buffer, p)).1
      = (decision policy sequence (outcome, buffer, q)).1 := by
  cases outcome with
  | error failure => rfl
  | ok receipt =>
      rw [decision, decision]
      cases Arrival.ofReceipt receipt buffer <;> rfl

/-- **Interruptions do not show.** Whether a reply is read to its end, one datagram is taken, or
an acknowledgement is awaited, the exchange withstands the interruptions of any script. No other
failure is repeated, by any endpoint, and a counter of thirty-two bits, which starts anew with
each call, gives the same attempts. -/
theorem withstands_interruptions (policy : Policy) (request : Message) (p : ScriptedPeer) :
    (∀ e, ∃ n, Withstands policy breaksOff (readThrough policy e request) p n) ∧
      (∃ n, Withstands policy fails (once policy request) p n) ∧
      (∀ sequence, ∃ n, Withstands policy fails (confirm policy sequence request) p n) ∧
      (∀ (σ : Type) [Endpoint σ] (s : σ) (datagram buffer : Bytes),
        (interruptedCall (Endpoint.send s datagram).1 = false →
          transmit policy s datagram = Endpoint.send s datagram) ∧
        (interruptedCall (Endpoint.receive s buffer).1 = false →
          fetch policy s buffer = Endpoint.receive s buffer)) ∧
      ∀ limit : Option UInt32, policy.retries = limit.map UInt32.toNat →
        ∀ (τ β : Type) (pending : τ → Nat) (call : τ → Except CallFailure β × τ)
          (pending_lt : ∀ t, interruptedCall (call t).1 → pending (call t).2 < pending t) (t : τ),
          retryWord limit pending call pending_lt 0 t
            = retry policy pending call pending_lt 0 t := by
  refine ⟨fun e => ?_, ?_, fun sequence => ?_, fun σ _ s datagram buffer => ?_, ?_⟩
  · exact withstands_of_receives (sendsThenReads_readThrough policy e request)
      (receives_items policy e) p
  · refine withstands_of_receives (sendsThenReads_once policy request)
      (fun q => ⟨1, receives_of_fetch ?_ ?_ fun _ _ _ => rfl⟩) p
    · intro outcome buffer p
      cases outcome <;> rfl
    · intro outcome buffer p q
      cases outcome <;> rfl
  · exact withstands_of_receives (sendsThenReads_confirm policy sequence request)
      (fun q => ⟨1, receives_of_fetch (fun _ _ _ => decision_snd ..)
        (decision_fst_congr policy sequence) fun _ _ _ => rfl⟩) p
  · exact ⟨transmit_of_settled, fetch_of_settled⟩
  · intro limit hretries τ β pending call pending_lt t
    exact retryWord_eq hretries fun _ => rfl

/-- A third interruption is one too many for a policy that repeats twice. -/
example :
    let interruption : CallFailure := .plain .interrupted
    let peer : ScriptedPeer := { portId := 0, sends := List.replicate 3 (.error interruption) }
    let result := once { retries := some 2 } (Message.done 1 0 0) peer
    result.1 = .error (.call interruption) ∧ result.2.sendCalls = 3 ∧
      result.2.receiveCalls = 0 := by
  decide +kernel

end Netlink.Request
