import Netlink.Datagram.Packer
import Netlink.Endpoint.Scripted
import Netlink.Proofs.Confirmation

/-!
# What a Confirmation Leaves Behind

A reply may take several datagrams, and the rule of multi-part replies says how many:
`Course.extent?`. To wait for an acknowledgement is to take the first of them, and no more.

So a reply of one datagram is drained and a longer one is not. A reply to which every message
of the first datagram is an acknowledgement takes one datagram only; it is a message
without one that ends the wait early, with the rest of its reply still to come. The next
request then finds that rest in front of its own reply.

## Main results

* `Endpoint.pending_iterate_lt`: an endpoint is never again where it was before a datagram was
  received.
* `Request.confirm_drains_iff`: **a confirmation drains exactly the replies of one
  datagram**, and what it leaves behind, it leaves after a fault.
* `Request.confirm_leaves_end`: a confirmation that leaves the end of its reply to the next
  request.
-/

namespace Netlink

/-! ### How far a reply goes -/

/-- How many datagrams a reply takes, by the messages seen before and the datagrams that
arrive: all up to the first that no other follows. A reply of which a datagram is missing or
did not come whole has no extent. -/
def Course.extent? : List Message → List Arrival → Option Nat
  | seen, .whole datagram :: later =>
    if goesOn (seen ++ Datagram.messages datagram) then
      (extent? (seen ++ Datagram.messages datagram) later).map (· + 1)
    else some 1
  | _, _ => none

namespace Course

/-- A reply that ends takes at least one datagram, and no more than arrive. -/
theorem extent?_bounds {seen : List Message} {arrivals : List Arrival} {n : Nat}
    (h : extent? seen arrivals = some n) : 0 < n ∧ n ≤ arrivals.length := by
  induction arrivals generalizing seen n with
  | nil => simp [extent?] at h
  | cons arrival later ih =>
      cases arrival with
      | cut => simp [extent?] at h
      | miscounted reported => simp [extent?] at h
      | whole datagram =>
          rw [extent?] at h
          split at h
          · obtain ⟨m, hm, rfl⟩ := Option.map_eq_some_iff.1 h
            have hbounds := ih hm
            rw [List.length_cons]
            omega
          · obtain rfl := Option.some.inj h
            rw [List.length_cons]
            omega

/-- A reply of more than one datagram goes on after the first. -/
theorem goesOn_of_extent? {arrivals : List Arrival} {n : Nat}
    (h : extent? [] arrivals = some n) (hn : 1 < n) :
    ∃ datagram later, arrivals = .whole datagram :: later ∧
      goesOn (Datagram.messages datagram) := by
  match arrivals with
  | [] => simp [extent?] at h
  | .cut :: later => simp [extent?] at h
  | .miscounted reported :: later => simp [extent?] at h
  | .whole datagram :: later =>
      rw [extent?, List.nil_append] at h
      split at h
      · next hmore => exact ⟨datagram, later, rfl, hmore⟩
      · obtain rfl := Option.some.inj h
        omega

end Course

/-! ### Receives are not undone -/

namespace Endpoint

variable {σ : Type} [Endpoint σ]

/-- A datagram that is received uses something up, and is supplied no more. -/
theorem afterFetch_of_arrivals {policy : Policy} {t : Bytes × σ}
    (h : 0 < (supply policy t).arrivals.length) :
    pending (afterFetch policy t).2 < pending t.2 ∧
      (supply policy (afterFetch policy t)).arrivals.length + 1
        = (supply policy t).arrivals.length := by
  match hf : fetch policy t.2 t.1 with
  | (.error failure, t₁) =>
      rw [supply_of_error hf] at h
      simp at h
  | (.ok receipt, t₁) =>
      have hafter : afterFetch policy t = t₁ := by rw [afterFetch, hf]
      have hreceipt : (fetch policy t.2 t.1).1 = .ok receipt := by rw [hf]
      have hfetch := pending_fetch_lt hreceipt
      rw [hf] at hfetch
      rw [hafter, supply_of_ok hf, Supply.cons, List.length_cons]
      exact ⟨Nat.lt_of_le_of_lt (Nat.le_add_right _ _) hfetch, rfl⟩

/-- **An endpoint is never again where it was**: each datagram received leaves it with less. -/
theorem pending_iterate_lt {policy : Policy} {t : Bytes × σ} {n : Nat}
    (h : n + 1 ≤ (supply policy t).arrivals.length) :
    pending ((afterFetch policy)^[n + 1] t).2 < pending t.2 := by
  induction n generalizing t with
  | zero => exact (afterFetch_of_arrivals h).1
  | succ n ih =>
      have hpos : 0 < (supply policy t).arrivals.length := by omega
      obtain ⟨hlt, hlength⟩ := afterFetch_of_arrivals hpos
      rw [Function.iterate_succ_apply]
      exact Nat.lt_trans (ih (by omega)) hlt

/-- Different numbers of datagrams received leave an endpoint in different states. -/
theorem afterFetch_eq_iterate_iff {policy : Policy} {t : Bytes × σ} {n : Nat} (hn : 0 < n)
    (h : n ≤ (supply policy t).arrivals.length) :
    (afterFetch policy t).2 = ((afterFetch policy)^[n] t).2 ↔ n = 1 := by
  match n with
  | 1 => exact iff_of_true rfl rfl
  | n + 2 =>
      have hpos : 0 < (supply policy t).arrivals.length := by omega
      obtain ⟨-, hlength⟩ := afterFetch_of_arrivals hpos
      have hlater : n + 1 ≤ (supply policy (afterFetch policy t)).arrivals.length := by omega
      have hlt := pending_iterate_lt hlater
      refine iff_of_false (fun heq => ?_) (by omega)
      rw [Function.iterate_succ_apply] at heq
      rw [← heq] at hlt
      exact Nat.lt_irrefl _ hlt

end Endpoint

/-! ### What is left of a reply -/

namespace Request

/-- A datagram of acknowledgements is the last of its reply. -/
theorem goesOn_of_findSome?_offence?_eq_none {policy : Policy} {sequence : UInt32}
    {messages : List Message} (h : messages.findSome? (offence? policy sequence) = none) :
    Course.goesOn messages = false := by
  rcases messages.eq_nil_or_concat' with rfl | ⟨messages, m, rfl⟩
  · rfl
  · have hm : offence? policy sequence m = none := List.findSome?_eq_none_iff.1 h m (by simp)
    have herror : m.isError := by simp [Message.isError, (offence?_eq_none_iff.1 hm).2.1]
    simp [Course.goesOn, herror]

/-- To decide makes no call. -/
theorem decision_snd {σ : Type} (policy : Policy) (sequence : UInt32)
    (received : Except CallFailure Receipt × Bytes × σ) :
    (decision policy sequence received).2 = received.2.2 := by
  match received with
  | (.error failure, buffer, s) => rfl
  | (.ok receipt, buffer, s) =>
      rw [decision]
      cases Arrival.ofReceipt receipt buffer <;> rfl

variable {σ : Type} [Endpoint σ]

/-- What the messages of the first datagram are ruled to say decides. -/
theorem decision_of_supply_whole {policy : Policy} {t : Bytes × σ} (sequence : UInt32)
    {datagram : Bytes} {later : List Arrival}
    (h : (Endpoint.supply policy t).arrivals = .whole datagram :: later) :
    (decision policy sequence (Endpoint.fetch policy t.2 t.1)).1
      = ruling policy sequence (Datagram.messages datagram) := by
  have hsupply : Endpoint.supply policy t
      = ⟨.whole datagram :: later, (Endpoint.supply policy t).failure⟩ := by
    rw [← h]
  obtain ⟨receipt, ⟨buffer, s⟩, hfetch, harrival, -⟩ := Endpoint.fetch_of_supply_cons hsupply
  rw [hfetch, decision, harrival]

/-- **A confirmation drains exactly the replies of one datagram.** Let the request be sent, and
let the reply to it take `n` datagrams, all received whole. The confirmation takes one of
them. If there are more, the first holds a message that is no acknowledgement, and with
that fault the confirmation ends and leaves the others. -/
theorem confirm_drains_iff {policy : Policy} (sequence : UInt32) {request : Message}
    {s s₁ : σ} {k n : Nat}
    (hsend : Endpoint.transmit policy s request.octets = (.ok k, s₁))
    (hreply : Course.extent? []
      (Endpoint.supply policy (List.replicate policy.bufferSize 0, s₁)).arrivals = some n) :
    (confirm policy sequence request s).2
        = (Endpoint.afterFetch policy (List.replicate policy.bufferSize 0, s₁)).2 ∧
      ((confirm policy sequence request s).2
          = ((Endpoint.afterFetch policy)^[n] (List.replicate policy.bufferSize 0, s₁)).2
        ↔ n = 1) ∧
      (1 < n → ∃ datagram later breach,
        (Endpoint.supply policy (List.replicate policy.bufferSize 0, s₁)).arrivals
            = .whole datagram :: later ∧
          (Datagram.messages datagram).findSome? (offence? policy sequence) = some breach ∧
          (confirm policy sequence request s).1 = .error (.breach breach)) := by
  have hconfirm : confirm policy sequence request s = decision policy sequence
      (Endpoint.fetch policy s₁ (List.replicate policy.bufferSize 0)) := by
    rw [confirm_of_send_ok hsend, awaitOutcome_start]
  have hafter : (confirm policy sequence request s).2
      = (Endpoint.afterFetch policy (List.replicate policy.bufferSize 0, s₁)).2 := by
    rw [hconfirm, decision_snd]
    rfl
  obtain ⟨hpos, hlength⟩ := Course.extent?_bounds hreply
  refine ⟨hafter, ?_, ?_⟩
  · rw [hafter]
    exact Endpoint.afterFetch_eq_iterate_iff hpos hlength
  · intro hn
    obtain ⟨datagram, later, harrivals, hmore⟩ := Course.goesOn_of_extent? hreply hn
    cases hfind : (Datagram.messages datagram).findSome? (offence? policy sequence) with
    | none =>
        rw [goesOn_of_findSome?_offence?_eq_none hfind] at hmore
        cases hmore
    | some breach =>
        refine ⟨datagram, later, breach, harrivals, hfind, ?_⟩
        rw [hconfirm, decision_of_supply_whole sequence harrivals, ruling, hfind]

/-- The first datagram of a reply of two grants the request, but holds a link after it. -/
theorem confirm_drains_iff_two :
    ∃ (peer : ScriptedPeer) (request : Message),
      request = Draft.finish { kind := .setLink, flags := .request ∪ .ack, sequence := 1 } ∧
      peer = { portId := 0
               deliveries :=
                [.ok { datagram := Packer.pack
                        [(Acknowledgement.granted request.header).toMessage 0,
                          Draft.finish { kind := .newLink, flags := .multi, sequence := 1 }] },
                  .ok { datagram := (Message.done 1 0 0).octets }] } ∧
      Course.extent? [] (Endpoint.supply { bufferSize := 64 } (List.replicate 64 0,
        (Endpoint.transmit { bufferSize := 64 } peer request.octets).2)).arrivals = some 2 ∧
      (confirm { bufferSize := 64 } 1 request peer).2
        ≠ ((Endpoint.afterFetch { bufferSize := 64 })^[2] (List.replicate 64 0,
            (Endpoint.transmit { bufferSize := 64 } peer request.octets).2)).2 ∧
      ∃ breach, (confirm { bufferSize := 64 } 1 request peer).1 = .error (.breach breach) := by
  refine ⟨_, _, rfl, rfl, ?_⟩
  generalize hrequest : Draft.finish
    { kind := .setLink, flags := .request ∪ .ack, sequence := 1 } = request
  generalize hpeer : ScriptedPeer.mk _ _ _ _ = peer
  have hsend : (Endpoint.transmit { bufferSize := 64 } peer request.octets).1 = .ok 16 := by
    rw [← hpeer, ← hrequest]
    decide +kernel
  have hreply : Course.extent? [] (Endpoint.supply { bufferSize := 64 } (List.replicate 64 0,
      (Endpoint.transmit { bufferSize := 64 } peer request.octets).2)).arrivals = some 2 := by
    rw [← hpeer, ← hrequest]
    decide +kernel
  obtain ⟨-, hdrains, hbreach⟩ :=
    confirm_drains_iff 1 (Prod.ext hsend rfl) hreply
  obtain ⟨-, -, breach, -, -, hresult⟩ := hbreach (by decide)
  exact ⟨hreply, fun heq => absurd (hdrains.1 heq) (by decide), breach, hresult⟩

/-- A dump of two datagrams answers the first request. The confirmation ends with the message
in the first of them, and the end of the dump is what the next request finds. -/
theorem confirm_leaves_end :
    ∃ (peer : ScriptedPeer) (request : Message),
      peer = { portId := 0
               deliveries :=
                [.ok { datagram := (Draft.finish { kind := .newLink, flags := .multi }).octets },
                  .ok { datagram := (Message.done 1 0 0).octets }] } ∧
      request = Draft.finish { kind := .setLink, flags := .request ∪ .ack, sequence := 1 } ∧
      Course.extent? [] (Endpoint.supply { bufferSize := 64 }
        (List.replicate 64 0, (Endpoint.transmit {} peer request.octets).2)).arrivals = some 2 ∧
      (confirm { bufferSize := 64 } 1 request peer).1
        = .error (.breach (.kind .error .newLink)) ∧
      (confirm { bufferSize := 64 } 1 request peer).2.deliveries
        = [.ok { datagram := (Message.done 1 0 0).octets }] ∧
      (confirm { bufferSize := 64 } 2 request
          (confirm { bufferSize := 64 } 1 request peer).2).1
        = .error (.breach (.kind .error .done)) := by
  refine ⟨_, _, rfl, rfl, ?_, ?_, ?_, ?_⟩
  all_goals decide +kernel

end Request

end Netlink
