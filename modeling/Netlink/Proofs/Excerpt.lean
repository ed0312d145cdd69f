import Netlink.Proofs.Transcript

/-!
# Excerpts of a Supply

How much of a supply a reader takes up. A datagram ends the reply, or its messages come first
and then what is read of the rest (`Transcript.read_cons`). So at least one receive is made, and
no more than there are datagrams, and one. What comes after these receives is not looked at:
another supply that begins in the same way gives the same items. A supply that breaks off
before the last of them gives the same messages up to there, and then the failure.

## Main results

* `read_of_take`: what is read depends on what is received.
* `read_take`: what is read of a supply that breaks off.
-/

namespace Netlink.Transcript

variable {p : Policy} {e : Expectation} {failure failure' : CallFailure} {seen : List Message}
  {arrivals arrivals' : List Arrival}

/-- A datagram ends the reply, or its messages come first and then the rest is read. -/
theorem read_cons (p : Policy) (e : Expectation) (seen : List Message) (arrival : Arrival) :
    (∃ items, ∀ failure later, read p e failure seen (arrival :: later) = ⟨items, 1⟩) ∨
      ∃ messages, ∀ failure later, read p e failure seen (arrival :: later)
        = (read p e failure (seen ++ messages) later).cons messages := by
  cases arrival with
  | cut => exact .inl ⟨_, fun _ _ => rfl⟩
  | miscounted reported => exact .inl ⟨_, fun _ _ => rfl⟩
  | whole datagram =>
      cases hfind : (Datagram.messages datagram).find? p.rejects with
      | some m => exact .inl ⟨_, fun _ _ => by rw [read, hfind]⟩
      | none =>
          by_cases hmore : Course.goesOn (seen ++ Datagram.messages datagram)
          · refine .inr ⟨Datagram.messages datagram, fun _ _ => ?_⟩
            rw [read, hfind]
            exact if_pos hmore
          · exact .inl ⟨_, fun _ _ => by rw [read, hfind]; exact if_neg hmore⟩

/-- A reply makes at least one receive. -/
theorem receives_pos (p : Policy) (e : Expectation) (failure : CallFailure)
    (seen : List Message) (arrivals : List Arrival) :
    0 < (read p e failure seen arrivals).receives := by
  cases arrivals with
  | nil => exact Nat.one_pos
  | cons arrival later =>
      obtain ⟨items, hread⟩ | ⟨messages, hread⟩ := read_cons p e seen arrival
      · rw [hread]
        exact Nat.one_pos
      · rw [hread]
        exact Nat.succ_pos _

/-- A reply makes at most one receive for each datagram, and one that fails. -/
theorem receives_le (p : Policy) (e : Expectation) (failure : CallFailure)
    (seen : List Message) (arrivals : List Arrival) :
    (read p e failure seen arrivals).receives ≤ arrivals.length + 1 := by
  induction arrivals generalizing seen with
  | nil => exact Nat.le_refl 1
  | cons arrival later ih =>
      obtain ⟨items, hread⟩ | ⟨messages, hread⟩ := read_cons p e seen arrival
      · rw [hread]
        exact Nat.succ_le_succ (Nat.zero_le _)
      · rw [hread]
        exact Nat.succ_le_succ (ih _)

/-- What is read depends on the datagrams that are received, and on the failure only if that is
received too. -/
theorem read_of_take
    (htake : arrivals'.take (read p e failure seen arrivals).receives
      = arrivals.take (read p e failure seen arrivals).receives)
    (hall : arrivals.length < (read p e failure seen arrivals).receives →
      arrivals' = arrivals ∧ failure' = failure) :
    read p e failure' seen arrivals' = read p e failure seen arrivals := by
  induction arrivals generalizing arrivals' seen with
  | nil =>
      obtain ⟨rfl, rfl⟩ := hall Nat.one_pos
      rfl
  | cons arrival later ih =>
      obtain ⟨later', rfl⟩ : ∃ later', arrivals' = arrival :: later' := by
        obtain ⟨k, hk⟩ := Nat.exists_eq_succ_of_ne_zero
          (Nat.ne_of_gt (receives_pos p e failure seen (arrival :: later)))
        rw [hk, List.take_succ_cons] at htake
        match arrivals' with
        | [] => simp at htake
        | arrival' :: later' => exact ⟨later', by rw [(List.cons.inj htake).1]⟩
      obtain ⟨items, hread⟩ | ⟨messages, hread⟩ := read_cons p e seen arrival
      · rw [hread, hread]
      · rw [hread] at htake hall
        rw [hread, hread, ih (List.cons.inj htake).2 fun hlt => ?_]
        obtain ⟨hsame, hfailure⟩ := hall (Nat.succ_lt_succ hlt)
        exact ⟨(List.cons.inj hsame).2, hfailure⟩

/-- Where the supply breaks off before the last receive, so does what is read. -/
theorem read_take {j : Nat} (failure' : CallFailure)
    (hj : j < (read p e failure seen arrivals).receives) :
    ∃ messages : List Message,
      read p e failure' seen (arrivals.take j)
          = ⟨messages.map .ok ++ [.error (.call failure')], j + 1⟩ ∧
        messages.map .ok <+: (read p e failure seen arrivals).items := by
  induction arrivals generalizing j seen with
  | nil =>
      obtain rfl := Nat.lt_one_iff.1 hj
      exact ⟨[], rfl, List.nil_prefix⟩
  | cons arrival later ih =>
      cases j with
      | zero => exact ⟨[], rfl, List.nil_prefix⟩
      | succ j =>
          obtain ⟨items, hread⟩ | ⟨messages, hread⟩ := read_cons p e seen arrival
          · rw [hread] at hj
            exact absurd (Nat.lt_one_iff.1 hj) (Nat.succ_ne_zero j)
          · rw [hread] at hj
            obtain ⟨more, hmore, hitems⟩ := ih (Nat.lt_of_succ_lt_succ hj)
            refine ⟨messages ++ more, ?_, ?_⟩
            · rw [List.take_succ_cons, hread, hmore, cons, List.map_append, List.append_assoc]
            · rw [hread, cons, List.map_append]
              exact (List.prefix_append_right_inj _).2 hitems

end Netlink.Transcript
