import Mathlib.Logic.Relation
import Netlink.Endpoint.Scripted
import Netlink.Socket.Basic

/-!
# Truthful Endpoints

What a receive reports is used to cut the datagram out of the buffer. An endpoint is truthful
if none of the receives that may ever be made on it reports more octets than the buffer
holds, whatever is sent and received before. An endpoint need not be: a count is a number that
it hands over. A connection always is, because it cuts what the kernel returns to the buffer.

## Main results

* `Endpoint.Truthful.fetch`, `Endpoint.Truthful.transmit`: an endpoint stays truthful.
* `Endpoint.Truthful.count_fetch_le`: what is received from it lies in the buffer.
* `Connection.truthful`: **every connection is truthful, whatever its kernel answers.**
* `ScriptedPeer.truthful_of_script`: a scripted peer is if its script reports no counts.
-/

namespace Netlink

namespace Endpoint

variable {σ τ α : Type}

/-- Of a call that is repeated, the last counts: what holds of every successful one holds of
it. -/
theorem retry_of_ok {policy : Policy} {pending : τ → Nat} {call : τ → Except CallFailure α × τ}
    {pending_lt : ∀ t, interruptedCall (call t).1 → pending (call t).2 < pending t}
    {P : τ → Prop} {Q : α → Prop} (step : ∀ t, P t → P (call t).2)
    (hcall : ∀ t a, P t → (call t).1 = .ok a → Q a) {attempt : Nat} {t : τ} {a : α} (h : P t)
    (hok : (retry policy pending call pending_lt attempt t).1 = .ok a) : Q a := by
  fun_induction retry policy pending call pending_lt attempt t with
  | case1 attempt t _ _ ih => exact ih (step t h) hok
  | case2 attempt t => exact hcall t a h hok

variable [Endpoint σ]

/-- A send or a receive leads from one state of an endpoint to the other. -/
def Step (s t : σ) : Prop :=
  (∃ datagram, (send s datagram).2 = t) ∨ ∃ buffer, (receive s buffer).2.2 = t

/-- No receive that may be made from here on reports more than its buffer holds. -/
def Truthful (s : σ) : Prop :=
  ∀ t, Relation.ReflTransGen Step s t → ∀ buffer receipt,
    (receive t buffer).1 = .ok receipt → receipt.count ≤ buffer.length

/-- What every state is known to report, and every call keeps known, is truthful. -/
theorem truthful_of_invariant {P : σ → Prop} (step : ∀ s t, P s → Step s t → P t)
    (count_le : ∀ s, P s → ∀ buffer receipt, (receive s buffer).1 = .ok receipt →
      receipt.count ≤ buffer.length) {s : σ} (h : P s) : Truthful s := by
  intro t hreach
  refine count_le t ?_
  induction hreach with
  | refl => exact h
  | tail _ hstep ih => exact step _ _ ih hstep

namespace Truthful

variable {s t : σ}

/-- A truthful endpoint stays truthful with every send and every receive. -/
theorem step (h : Truthful s) (hstep : Step s t) : Truthful t :=
  fun u hu => h u (.head hstep hu)

/-- A truthful endpoint stays truthful when it receives a datagram, with all repetitions. -/
theorem fetch (h : Truthful s) (policy : Policy) (buffer : Bytes) :
    Truthful (fetch policy s buffer).2.2 :=
  retry_invariant (P := fun t : Bytes × σ => Truthful t.2)
    (fun t ht => ht.step (.inr ⟨t.1, rfl⟩)) h

/-- A truthful endpoint stays truthful when it sends a datagram, with all repetitions. -/
theorem transmit (h : Truthful s) (policy : Policy) (datagram : Bytes) :
    Truthful (transmit policy s datagram).2 :=
  retry_invariant (fun _ ht => ht.step (.inl ⟨datagram, rfl⟩)) h

/-- A datagram that is received lies in the buffer. -/
theorem count_fetch_le (h : Truthful s) {policy : Policy} {buffer : Bytes} {receipt : Receipt}
    (hok : (Endpoint.fetch policy s buffer).1 = .ok receipt) : receipt.count ≤ buffer.length := by
  -- Every attempt brings a buffer of the same size to a truthful endpoint.
  refine retry_of_ok (P := fun t : Bytes × σ => Truthful t.2 ∧ t.1.length = buffer.length)
    (Q := fun receipt => receipt.count ≤ buffer.length) ?_ ?_ ⟨h, rfl⟩ hok
  · rintro t ⟨ht, hlength⟩
    exact ⟨ht.step (.inr ⟨t.1, rfl⟩), length_receive.trans hlength⟩
  · rintro t receipt ⟨ht, hlength⟩ hreceive
    rw [← hlength]
    exact ht t.2 .refl t.1 receipt hreceive

end Truthful

end Endpoint

/-- **Every connection is truthful**: no number that its kernel returns, no flag and no datagram
makes it report more than the buffer holds. -/
theorem Connection.truthful (c : Connection) : Endpoint.Truthful c := by
  intro d _ buffer receipt h
  have hreceive : Endpoint.receive d buffer = d.receive buffer := rfl
  rw [hreceive] at h
  simp only [receive, Socket.receive] at h
  cases hanswer : (d.kernel.recvmsg d.socket.descriptor 0 buffer).1 with
  | error errno => simp [hanswer, Except.map, Socket.ofAnswer] at h
  | ok answer =>
      simp only [hanswer, Except.map, Socket.ofAnswer] at h
      obtain rfl := Except.ok.inj h
      exact Nat.min_le_right _ _

/-- A scripted peer is truthful if no entry of its script reports a count of its own. -/
theorem ScriptedPeer.truthful_of_script {p : ScriptedPeer}
    (h : ∀ d, .ok d ∈ p.deliveries → d.count = none) : Endpoint.Truthful p := by
  refine Endpoint.truthful_of_invariant
    (P := fun p : ScriptedPeer => ∀ d, .ok d ∈ p.deliveries → d.count = none) ?_ ?_ h
  · rintro p q hp (⟨datagram, rfl⟩ | ⟨buffer, rfl⟩) d hd
    · have hsend : (send p datagram).2.deliveries = p.deliveries := by
        rw [send]
        split <;> rfl
      change .ok d ∈ (send p datagram).2.deliveries at hd
      rw [hsend] at hd
      exact hp d hd
    · have hreceive : (receive p buffer).2.2.deliveries = p.deliveries.tail := by
        rw [receive]
        split <;> simp_all
      change .ok d ∈ (receive p buffer).2.2.deliveries at hd
      rw [hreceive] at hd
      exact hp d (List.mem_of_mem_tail hd)
  · intro p hp buffer receipt hreceipt
    change (receive p buffer).1 = .ok receipt at hreceipt
    rw [receive] at hreceipt
    split at hreceipt
    · cases hreceipt
    · cases hreceipt
    · next d later hscript =>
        obtain rfl := Except.ok.inj hreceipt
        rw [Delivery.receipt, hp d (by simp [hscript])]
        exact Nat.min_le_right _ _

end Netlink
