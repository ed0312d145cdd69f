import Netlink.Proofs.Pulling

/-!
# Silence After the End

A reply may end in many ways: a receive fails, a datagram is cut, the end of a dump is too short,
the reply ends with the wrong message, or all is well. Whichever it is, the pull that tells of it
leaves the reply over, and a reply that is over is left alone: no further pull makes a call or
changes anything. So a fault can only be the last item, and reading to the end for the outcome alone
gives this fault.

This holds of a reply at any point, so also after some messages were pulled.

## Main results

* `Reply.exists_items_eq`: the items are messages, and then at most one fault.
* `Reply.mem_items_iff`: what pulls give are the items.
* `Reply.phase_of_pulls`: a pull that gives no message leaves the reply over.
* `Reply.fails_once`: **a reply fails at most once and is silent after its end.**
-/

namespace Netlink.Reply

/-- A pull that gave this told of a fault. -/
def isFault : Option (Except Fault Message) → Bool
  | some (.error _) => true
  | _ => false

variable {σ : Type} [Endpoint σ] {r : Reply} {s : σ}

/-! ### Items -/

/-- The items of a reply are messages, and then at most one fault. -/
theorem exists_items_eq (r : Reply) (s : σ) :
    ∃ (ms : List Message) (fault : Option Fault),
      (r.items s).1 = ms.map .ok ++ fault.toList.map .error := by
  fun_induction items r s with
  | case1 r s r' s' hnext => exact ⟨[], none, rfl⟩
  | case2 r s fault r' s' hnext => exact ⟨[], some fault, rfl⟩
  | case3 r s m r' s' hnext rest r'' s'' hrest ih =>
      obtain ⟨ms, fault, hitems⟩ := ih
      rw [hrest] at hitems
      exact ⟨m :: ms, fault, congrArg (Except.ok m :: ·) hitems⟩

/-- A fault that is among the items is the one that is found. -/
theorem fault?_items_eq_some_iff {fault : Fault} :
    fault? (r.items s).1 = some fault ↔ .error fault ∈ (r.items s).1 := by
  obtain ⟨ms, last, hitems⟩ := exists_items_eq r s
  have hms : fault? (ms.map .ok) = none := by simp [fault?]
  rw [hitems, fault?, List.findSome?_append, ← fault?, hms, Option.none_or]
  cases last with
  | none => simp
  | some last => simp [eq_comm]

/-- What pulls give are the items, and nothing. -/
theorem mem_items_iff {item : Except Fault Message} :
    item ∈ (r.items s).1 ↔ ∃ n, some item ∈ (pulls n r s).1 := by
  constructor
  · intro h
    refine ⟨(r.items s).1.length, ?_⟩
    rw [pulls_eq_items, List.take_left' (List.length_map ..)]
    exact List.mem_map_of_mem h
  · rintro ⟨n, h⟩
    rw [pulls_eq_items] at h
    rcases List.mem_append.1 (List.mem_of_mem_take h) with h | h
    · simpa using h
    · simp at h

/-- Among what any number of pulls give, there is at most one fault. -/
theorem countP_isFault_pulls_le (n : Nat) (r : Reply) (s : σ) :
    (pulls n r s).1.countP isFault ≤ 1 := by
  obtain ⟨ms, fault, hitems⟩ := exists_items_eq r s
  have hms : ((ms.map .ok).map some).countP isFault = 0 := by simp [isFault]
  have hnone : (List.replicate n none).countP isFault = 0 := by simp [isFault]
  have hfault : ((fault.toList.map .error).map some).countP isFault ≤ 1 := by
    cases fault with
    | none => exact Nat.zero_le _
    | some fault => exact Nat.le_refl _
  rw [pulls_eq_items, hitems]
  refine Nat.le_trans (List.take_sublist n _).countP_le ?_
  rw [List.map_append, List.countP_append, List.countP_append, hms, hnone]
  omega

/-- To read to the end for the outcome is to look for the fault among the items. -/
theorem finish_eq_error_iff {fault : Fault} :
    (r.finish s).1 = .error fault ↔ ∃ n, some (.error fault) ∈ (pulls n r s).1 := by
  rw [← mem_items_iff, ← fault?_items_eq_some_iff]
  cases h : fault? (r.items s).1 <;> simp [finish, h]

/-- All is well with a whole reply if it has no fault. -/
theorem finish_eq_ok_iff :
    (r.finish s).1 = .ok () ↔ ∀ fault, (r.finish s).1 ≠ .error fault := by
  cases (r.finish s).1 <;> simp

/-! ### The end -/

/-- A pull that gives no message, among any number of pulls, leaves the reply over. -/
theorem phase_of_pulls {n : Nat}
    (h : ∃ item ∈ (pulls n r s).1, ∀ m, item ≠ some (.ok m)) : (pulls n r s).2.1.phase = .over := by
  induction n generalizing r s with
  | zero =>
      obtain ⟨item, hitem, -⟩ := h
      cases hitem
  | succ n ih =>
      obtain ⟨item, hitem, hno⟩ := h
      have hsucc := pulls_succ (n := n) (r := r) (s := s) rfl
      rw [hsucc] at hitem ⊢
      by_cases hmessage : ∃ m, (r.next s).1 = some (.ok m)
      · obtain ⟨m, hm⟩ := hmessage
        rcases List.mem_cons.1 hitem with rfl | hlater
        · exact absurd hm (hno m)
        · exact ih ⟨item, hlater, hno⟩
      · have hover := phase_of_next (not_exists.1 hmessage)
        rw [pulls_of_over n hover]
        exact hover

/-- **A reply fails at most once and is silent after its end.** Any number of pulls give at most one
fault. Once one of them gave a fault or nothing, all that follow give nothing and leave the reply
and the endpoint as they are. And to read to the end for the outcome gives a fault exactly if a pull
gives it, and is a success if no pull gives one. -/
theorem fails_once (r : Reply) (s : σ) :
    (∀ n, (pulls n r s).1.countP isFault ≤ 1) ∧
      (∀ n, (∃ item ∈ (pulls n r s).1, ∀ m, item ≠ some (.ok m)) →
        ∀ k, pulls k (pulls n r s).2.1 (pulls n r s).2.2
          = (List.replicate k none, (pulls n r s).2)) ∧
      (∀ fault, (r.finish s).1 = .error fault ↔ ∃ n, some (.error fault) ∈ (pulls n r s).1) ∧
      ((r.finish s).1 = .ok () ↔ ∀ n fault, some (.error fault) ∉ (pulls n r s).1) := by
  refine ⟨fun n => countP_isFault_pulls_le n r s, fun n h k => pulls_of_over k (phase_of_pulls h),
    fun fault => finish_eq_error_iff, ?_⟩
  rw [finish_eq_ok_iff]
  constructor
  · intro hok n fault hmem
    exact hok fault (finish_eq_error_iff.2 ⟨n, hmem⟩)
  · intro hno fault herror
    obtain ⟨n, hmem⟩ := finish_eq_error_iff.1 herror
    exact hno n fault hmem

end Netlink.Reply
