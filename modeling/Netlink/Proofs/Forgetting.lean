import Netlink.Proofs.Pulling
import Netlink.Proofs.Supply

/-!
# Endpoints That Know More

An endpoint can be given more to know than its calls depend on: what was received from it, say, or
which calls were made. To forget this again is a map of states that the calls do not see. Whatever is
done with the endpoint that knows more is then done with the one that knows less, with the same
outcome: a repeated call, a datagram, a pull, a reply.

The calls may see it once a condition on the state is lost, as long as it is lost for good: a run that
still has it at its end had it in every call, and so did not see what is forgotten
(`Endpoint.ForgetsWhile`). What every receive keeps, the reading of a reply keeps; that the condition
stays lost is a case of this.

## Main results

* `Reply.next_invariant`, `Reply.pulls_invariant`, `Reply.items_invariant`: what every receive keeps,
  reading a reply keeps.
* `Endpoint.ForgetsWhile.transmit_eq`, `Endpoint.ForgetsWhile.fetch_eq`: sending and receiving.
* `Endpoint.ForgetsWhile.next_eq`, `Endpoint.ForgetsWhile.pulls_eq`, `Endpoint.ForgetsWhile.items_eq`:
  **reading a reply does not see what is forgotten.**
-/

namespace Netlink

/-! ### What receives keep -/

section Invariants

variable {σ : Type} [Endpoint σ] {P : σ → Prop}

/-- What every receive keeps, all receives for a datagram keep. -/
theorem Endpoint.fetch_invariant (step : ∀ s buffer, P s → P (Endpoint.receive s buffer).2.2)
    (policy : Policy) {s : σ} (buffer : Bytes) (h : P s) :
    P (Endpoint.fetch policy s buffer).2.2 :=
  Endpoint.retry_invariant (P := fun t : Bytes × σ => P t.2) (fun t => step t.2 t.1) h

namespace Reply

/-- What is left after a receive is what the receives for its datagram leave. -/
theorem eq_of_receive {outcome : Except Fault (List Message)} {r r' : Reply} {s s' : σ}
    (h : r.receive s = (outcome, r', s')) : s' = (Endpoint.fetch r.policy s r.buffer).2.2 := by
  match hfetch : Endpoint.fetch r.policy s r.buffer with
  | (.error failure, buffer, s'') =>
      rw [receive_of_error hfetch] at h
      cases h
      rfl
  | (.ok receipt, buffer, s'') =>
      rw [receive_of_ok hfetch] at h
      split at h <;> cases h <;> rfl

/-- What every receive keeps, a pull keeps. -/
theorem next_invariant (step : ∀ s buffer, P s → P (Endpoint.receive s buffer).2.2) (r : Reply)
    {s : σ} (h : P s) : P (r.next s).2.2 := by
  fun_induction Reply.next r s with
  | case1 r s hp => exact h
  | case2 r s m queue hp item r' hdeliver => exact h
  | case3 r s hp hmore ih => exact ih h
  | case4 r s hp hmore item r' hconclude => exact h
  | case5 r s hp fault r' s' hreceive item r'' hfail =>
      obtain rfl := eq_of_receive hreceive
      exact Endpoint.fetch_invariant step r.policy r.buffer h
  | case6 r s hp queue r' s' hreceive ih =>
      obtain rfl := eq_of_receive hreceive
      exact ih (Endpoint.fetch_invariant step r.policy r.buffer h)

/-- What every receive keeps, any number of pulls keep. -/
theorem pulls_invariant (step : ∀ s buffer, P s → P (Endpoint.receive s buffer).2.2) (n : Nat)
    (r : Reply) {s : σ} (h : P s) : P (pulls n r s).2.2 := by
  induction n generalizing r s with
  | zero => exact h
  | succ n ih =>
      rw [pulls_succ rfl]
      exact ih _ (next_invariant step r h)

/-- What every receive keeps, reading a whole reply keeps. -/
theorem items_invariant (step : ∀ s buffer, P s → P (Endpoint.receive s buffer).2.2) (r : Reply)
    {s : σ} (h : P s) : P (r.items s).2.2 := by
  fun_induction Reply.items r s with
  | case1 r s r' s' hnext | case2 r s fault r' s' hnext =>
      have hs' := next_invariant step r h
      rwa [hnext] at hs'
  | case3 r s m r' s' hnext rest r'' s'' hrest ih =>
      have hs' := next_invariant step r h
      rw [hnext] at hs'
      have hs'' := ih hs'
      rwa [hrest] at hs''

end Reply

end Invariants

namespace Endpoint

/-! ### Calls -/

/-- If a condition that was lost stays lost, it was there before a call and all its repetitions if it
is there after them. -/
theorem of_retry {τ α : Type} {policy : Policy} {pending : τ → Nat}
    {call : τ → Except CallFailure α × τ}
    {pending_lt : ∀ t, interruptedCall (call t).1 → pending (call t).2 < pending t}
    {P : τ → Prop} (hback : ∀ t, P (call t).2 → P t) {attempt : Nat} {t : τ}
    (h : P (retry policy pending call pending_lt attempt t).2) : P t :=
  not_imp_not.1 (retry_invariant (P := fun t => ¬P t) fun t => mt (hback t)) h

/-- A call that does not see a map of states is repeated as often on either side of it. -/
theorem retry_map {ρ τ α : Type} {f : τ → ρ} {P : τ → Prop} {policy : Policy}
    {pendingτ : τ → Nat} {pendingρ : ρ → Nat} {callτ : τ → Except CallFailure α × τ}
    {callρ : ρ → Except CallFailure α × ρ}
    {pendingτ_lt : ∀ t, interruptedCall (callτ t).1 → pendingτ (callτ t).2 < pendingτ t}
    {pendingρ_lt : ∀ r, interruptedCall (callρ r).1 → pendingρ (callρ r).2 < pendingρ r}
    (hcall : ∀ t, P (callτ t).2 → callρ (f t) = Prod.map id f (callτ t))
    (hback : ∀ t, P (callτ t).2 → P t) {attempt : Nat} {t : τ}
    (h : P (retry policy pendingτ callτ pendingτ_lt attempt t).2) :
    retry policy pendingρ callρ pendingρ_lt attempt (f t)
      = Prod.map id f (retry policy pendingτ callτ pendingτ_lt attempt t) := by
  fun_induction retry policy pendingτ callτ pendingτ_lt attempt t with
  | case1 attempt t result again ih =>
      rw [retry, hcall t (of_retry hback h)]
      exact (dif_pos again).trans (ih h)
  | case2 attempt t result again =>
      rw [retry, hcall t h]
      exact dif_neg again

variable {σ τ : Type} [Endpoint σ] [Endpoint τ]

/-- To forget a part of what is known is not seen by sends and receives. -/
structure Forgets (f : τ → σ) : Prop where
  send_eq : ∀ t datagram, send (f t) datagram = Prod.map id f (send t datagram)
  receive_eq : ∀ t buffer, receive (f t) buffer = Prod.map id (Prod.map id f) (receive t buffer)

/-- To forget a part of what is known is not seen by sends and receives after which a condition
holds. Once it is lost, no call brings it back. -/
structure ForgetsWhile (live : τ → Prop) (f : τ → σ) : Prop where
  send_eq : ∀ t datagram, live (send t datagram).2 →
    send (f t) datagram = Prod.map id f (send t datagram)
  receive_eq : ∀ t buffer, live (receive t buffer).2.2 →
    receive (f t) buffer = Prod.map id (Prod.map id f) (receive t buffer)
  live_of_send : ∀ t datagram, live (send t datagram).2 → live t
  live_of_receive : ∀ t buffer, live (receive t buffer).2.2 → live t

/-- What is never seen is not seen under any condition. -/
theorem Forgets.forgetsWhile {f : τ → σ} (h : Forgets f) : ForgetsWhile (fun _ => True) f where
  send_eq t datagram _ := h.send_eq t datagram
  receive_eq t buffer _ := h.receive_eq t buffer
  live_of_send _ _ _ := trivial
  live_of_receive _ _ _ := trivial

namespace ForgetsWhile

variable {f : τ → σ} {live : τ → Prop} (h : ForgetsWhile live f)

include h

/-- Sending a datagram does not see what is forgotten. -/
theorem transmit_eq {policy : Policy} {t : τ} {datagram : Bytes}
    (hlive : live (transmit policy t datagram).2) :
    transmit policy (f t) datagram = Prod.map id f (transmit policy t datagram) :=
  retry_map (h.send_eq · datagram) (h.live_of_send · datagram) hlive

/-- Receiving a datagram does not see what is forgotten. -/
theorem fetch_eq {policy : Policy} {t : τ} {buffer : Bytes}
    (hlive : live (fetch policy t buffer).2.2) :
    fetch policy (f t) buffer = Prod.map id (Prod.map id f) (fetch policy t buffer) :=
  retry_map (f := Prod.map id f) (P := fun t : Bytes × τ => live t.2)
    (fun t => h.receive_eq t.2 t.1) (fun t => h.live_of_receive t.2 t.1) hlive

/-- The condition held before a datagram was received if it holds after it. -/
theorem live_of_fetch {policy : Policy} {t : τ} {buffer : Bytes}
    (hlive : live (fetch policy t buffer).2.2) : live t :=
  of_retry (P := fun t : Bytes × τ => live t.2) (fun t => h.live_of_receive t.2 t.1) hlive

/-- Where the condition was lost, it is lost after every receive. -/
theorem not_live_receive (t : τ) (buffer : Bytes) (hlost : ¬live t) :
    ¬live (receive t buffer).2.2 :=
  mt (h.live_of_receive t buffer) hlost

/-- The condition held before a pull if it holds after it. -/
theorem live_of_next {r : Reply} {t : τ} (hlive : live (r.next t).2.2) : live t :=
  not_imp_not.1 (Reply.next_invariant h.not_live_receive r) hlive

/-- The condition held before any number of pulls if it holds after them. -/
theorem live_of_pulls {n : Nat} {r : Reply} {t : τ} (hlive : live (Reply.pulls n r t).2.2) :
    live t :=
  not_imp_not.1 (Reply.pulls_invariant h.not_live_receive n r) hlive

/-- The condition held before a reply was read to its end if it holds after it. -/
theorem live_of_items {r : Reply} {t : τ} (hlive : live (r.items t).2.2) : live t :=
  not_imp_not.1 (Reply.items_invariant h.not_live_receive r) hlive

/-! ### Replies -/

/-- Receiving and unpacking a datagram does not see what is forgotten. -/
theorem reply_receive_eq {r : Reply} {t : τ} (hlive : live (r.receive t).2.2) :
    r.receive (f t) = Prod.map id (Prod.map id f) (r.receive t) := by
  have hfetch := h.fetch_eq (Reply.eq_of_receive (r := r) (s := t) rfl ▸ hlive)
  match ht : fetch r.policy t r.buffer with
  | (.error failure, buffer, t') =>
      have hforget : fetch r.policy (f t) r.buffer = (.error failure, buffer, f t') := by
        rw [hfetch, ht]
        rfl
      rw [Reply.receive_of_error ht, Reply.receive_of_error hforget]
      rfl
  | (.ok receipt, buffer, t') =>
      have hforget : fetch r.policy (f t) r.buffer = (.ok receipt, buffer, f t') := by
        rw [hfetch, ht]
        rfl
      rw [Reply.receive_of_ok ht, Reply.receive_of_ok hforget]
      cases Arrival.ofReceipt receipt buffer <;> rfl

/-- A pull does not see what is forgotten. -/
theorem next_eq {r : Reply} {t : τ} (hlive : live (r.next t).2.2) :
    r.next (f t) = Prod.map id (Prod.map id f) (r.next t) := by
  fun_induction Reply.next r t with
  | case1 r t hp => exact Reply.next_of_over hp
  | case2 r t m queue hp item r' hdeliver =>
      rw [Reply.next_of_message hp, hdeliver]
      rfl
  | case3 r t hp hmore ih =>
      rw [Reply.next_of_more hp hmore]
      exact ih hlive
  | case4 r t hp hmore item r' hconclude =>
      rw [Reply.next_of_end hp (Bool.eq_false_iff.2 hmore), hconclude]
      rfl
  | case5 r t hp fault r' t' hreceive item r'' hfail =>
      have hforget : r.receive (f t) = (.error fault, r', f t') := by
        rw [h.reply_receive_eq (by rwa [hreceive]), hreceive]
        rfl
      obtain ⟨rfl, rfl⟩ := Prod.mk.inj hfail
      exact Reply.next_of_fault hp hforget
  | case6 r t hp queue r' t' hreceive ih =>
      have hreceived : live (r.receive t).2.2 := by
        rw [hreceive]
        exact h.live_of_next hlive
      have hforget : r.receive (f t) = (.ok queue, r', f t') := by
        rw [h.reply_receive_eq hreceived, hreceive]
        rfl
      rw [Reply.next_of_queue hp hforget]
      exact ih hlive

/-- **Any number of pulls do not see what is forgotten.** -/
theorem pulls_eq {n : Nat} {r : Reply} {t : τ} (hlive : live (Reply.pulls n r t).2.2) :
    Reply.pulls n r (f t) = Prod.map id (Prod.map id f) (Reply.pulls n r t) := by
  induction n generalizing r t with
  | zero => rfl
  | succ n ih =>
      rw [Reply.pulls_succ rfl] at hlive
      rw [Reply.pulls_succ (h.next_eq (h.live_of_pulls hlive)), Reply.pulls_succ rfl, id, id,
        ih hlive]
      rfl

/-- A reply that is read to its end does not see what is forgotten. -/
theorem items_eq {r : Reply} {t : τ} (hlive : live (r.items t).2.2) :
    r.items (f t) = Prod.map id (Prod.map id f) (r.items t) := by
  fun_induction Reply.items r t with
  | case1 r t r' t' hnext =>
      have hforget : r.next (f t) = (none, r', f t') := by
        rw [h.next_eq (by rwa [hnext]), hnext]
        rfl
      exact Reply.items_of_none hforget
  | case2 r t fault r' t' hnext =>
      have hforget : r.next (f t) = (some (.error fault), r', f t') := by
        rw [h.next_eq (by rwa [hnext]), hnext]
        rfl
      exact Reply.items_of_error hforget
  | case3 r t m r' t' hnext rest r'' t'' hrest ih =>
      rw [hrest] at ih
      have hpulled : live (r.next t).2.2 := by
        rw [hnext]
        exact h.live_of_items (by rwa [hrest])
      have hforget : r.next (f t) = (some (.ok m), r', f t') := by
        rw [h.next_eq hpulled, hnext]
        rfl
      rw [Reply.items_of_ok hforget, ih hlive]
      rfl

end ForgetsWhile

end Endpoint

end Netlink
