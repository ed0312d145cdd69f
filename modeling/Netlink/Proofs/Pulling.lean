import Netlink.Reply.Basic

/-!
# Pulling Items

How a reply moves from pull to pull. `Reply.next` is opened once, phase by phase; what is
read to the end (`Reply.items`) and what a given number of pulls gives (`Reply.pulls`) are
then followed without opening it again.

Nothing comes after a fault or after the end: the pulls give the items in order, and then
nothing for ever.

## Main results

* `next_of_over`, `next_of_message`, `next_of_more`, `next_of_end`, `next_of_fault`,
  `next_of_queue`: one pull, by the phase that the reply is in.
* `pulls_eq_items`: the pulls give the items that are still to come, and then nothing.
-/

namespace Netlink.Reply

variable {σ : Type} [Endpoint σ] {r r' : Reply} {s s' : σ}

/-! ### One pull -/

/-- When a reply is over, a pull gives nothing and changes nothing. -/
theorem next_of_over (hp : r.phase = .over) : r.next s = (none, r, s) := by
  rw [next]
  split <;> simp_all

/-- The next message of the datagram at hand is delivered. -/
theorem next_of_message {m : Message} {queue : List Message}
    (hp : r.phase = .delivering (m :: queue)) :
    r.next s = ((r.deliver m queue).1, (r.deliver m queue).2, s) := by
  rw [next]
  split <;> simp_all

/-- A datagram with no message left is followed by another. -/
theorem next_of_more (hp : r.phase = .delivering []) (hmore : r.history.wantsMore) :
    r.next s = { r with phase := .awaiting }.next s := by
  rw [next]
  split <;> simp_all

/-- The datagram with no message left is the last. -/
theorem next_of_end (hp : r.phase = .delivering []) (hmore : r.history.wantsMore = false) :
    r.next s = (r.conclude.1, r.conclude.2, s) := by
  rw [next]
  split <;> simp_all

/-- A receive that ends in a fault ends the reply. -/
theorem next_of_fault {fault : Fault} (hp : r.phase = .awaiting)
    (h : r.receive s = (.error fault, r', s')) :
    r.next s = (some (.error fault), { r' with phase := .over }, s') := by
  rw [next]
  split
  · simp_all
  · simp_all
  · simp_all
  · split
    · simp_all [fail]
    · simp_all

/-- The messages of a datagram that was received are delivered next. -/
theorem next_of_queue {queue : List Message} (hp : r.phase = .awaiting)
    (h : r.receive s = (.ok queue, r', s')) :
    r.next s = { r' with phase := .delivering queue }.next s' := by
  rw [next]
  split
  · simp_all
  · simp_all
  · simp_all
  · split
    · simp_all
    · simp_all

/-! ### All items -/

/-- A reply whose next pull gives nothing has no more items. -/
theorem items_of_none (h : r.next s = (none, r', s')) : r.items s = ([], r', s') := by
  rw [items]
  split <;> simp_all

/-- A fault is the last item. -/
theorem items_of_error {fault : Fault} (h : r.next s = (some (.error fault), r', s')) :
    r.items s = ([.error fault], r', s') := by
  rw [items]
  split <;> simp_all

/-- A message is an item, and the others come after it. -/
theorem items_of_ok {m : Message} (h : r.next s = (some (.ok m), r', s')) :
    r.items s = (.ok m :: (r'.items s').1, (r'.items s').2) := by
  rw [items]
  split <;> simp_all

/-- What is still to come depends on the next pull alone. -/
theorem items_congr (h : r.next s = r'.next s') : r.items s = r'.items s' := by
  match hn : r'.next s' with
  | (none, r₁, s₁) => rw [items_of_none (h.trans hn), items_of_none hn]
  | (some (.error fault), r₁, s₁) => rw [items_of_error (h.trans hn), items_of_error hn]
  | (some (.ok m), r₁, s₁) => rw [items_of_ok (h.trans hn), items_of_ok hn]

/-! ### A number of pulls -/

/-- A delivery that is no message ends the reply. -/
theorem phase_of_deliver {m : Message} {queue : List Message}
    (h : ∀ m', (r.deliver m queue).1 ≠ some (.ok m')) :
    (r.deliver m queue).2.phase = .over := by
  simp only [deliver, fail] at h ⊢
  split at h
  · next hshort => rw [if_pos hshort]
  · exact absurd rfl (h m)

/-- A reply that was concluded is over. -/
theorem phase_of_conclude : r.conclude.2.phase = .over := by
  simp only [conclude, fail]
  split <;> rfl

/-- A pull that gives no message leaves the reply over. -/
theorem phase_of_next (h : ∀ m, (r.next s).1 ≠ some (.ok m)) : (r.next s).2.1.phase = .over := by
  fun_induction next r s with
  | case1 r s hp => exact hp
  | case2 r s m queue hp item r₁ hd =>
      have hr₁ : (∀ m', (r.deliver m queue).1 ≠ some (.ok m')) →
          (r.deliver m queue).2.phase = .over := phase_of_deliver
      rw [hd] at hr₁
      exact hr₁ h
  | case3 r s hp hmore ih => exact ih h
  | case4 r s hp hmore item r₁ hc =>
      have hr₁ := phase_of_conclude (r := r)
      rw [hc] at hr₁
      exact hr₁
  | case5 r s hp fault r₁ s₁ hr item r₂ hf =>
      obtain ⟨-, rfl⟩ := Prod.mk.inj hf
      rfl
  | case6 r s hp queue r₁ s₁ hr ih => exact ih h

/-- What `n` pulls give, one after the other. -/
def pulls : Nat → Reply → σ → List (Option (Except Fault Message)) × Reply × σ
  | 0, r, s => ([], r, s)
  | n + 1, r, s =>
    let (item, r, s) := r.next s
    let (rest, r, s) := pulls n r s
    (item :: rest, r, s)

/-- Pulls are made one after the other. -/
theorem pulls_succ {n : Nat} {item : Option (Except Fault Message)}
    (h : r.next s = (item, r', s')) :
    pulls (n + 1) r s = (item :: (pulls n r' s').1, (pulls n r' s').2) := by
  rw [pulls, h]

/-- Pulls on a reply that is over give nothing and change nothing. -/
theorem pulls_of_over (n : Nat) (hp : r.phase = .over) :
    pulls n r s = (List.replicate n none, r, s) := by
  induction n with
  | zero => rfl
  | succ n ih => rw [pulls_succ (next_of_over hp), ih, List.replicate_succ]

/-- A pull that gives no message is the last that gives anything. -/
theorem pulls_of_last {n : Nat} {item : Option (Except Fault Message)}
    (h : r.next s = (item, r', s')) (hitem : ∀ m, item ≠ some (.ok m)) :
    (pulls (n + 1) r s).1 = item :: List.replicate n none := by
  have hover := phase_of_next (r := r) (s := s)
  rw [h] at hover
  rw [pulls_succ h, pulls_of_over n (hover hitem)]

/-- A message that was pulled is followed by what the other pulls give. -/
theorem pulls_of_ok {n : Nat} {m : Message} (h : r.next s = (some (.ok m), r', s')) :
    (pulls (n + 1) r s).1 = some (.ok m) :: (pulls n r' s').1 := by
  rw [pulls_succ h]

/-- The pulls give the items that are still to come, each once and in order, and then
nothing for ever. -/
theorem pulls_eq_items (n : Nat) (r : Reply) (s : σ) :
    (pulls n r s).1 = ((r.items s).1.map some ++ List.replicate n none).take n := by
  induction n generalizing r s with
  | zero => rw [pulls, List.take_zero]
  | succ n ih =>
      match hn : r.next s with
      | (none, r₁, s₁) =>
          rw [items_of_none hn, pulls_of_last hn (by simp)]
          simp [List.replicate_succ]
      | (some (.error fault), r₁, s₁) =>
          rw [items_of_error hn, pulls_of_last hn (by simp)]
          simp [List.take_replicate]
      | (some (.ok m), r₁, s₁) =>
          have hlen : n ≤ ((r₁.items s₁).1.map some ++ List.replicate n none).length := by
            simp
          rw [items_of_ok hn, pulls_of_ok hn, List.map_cons, List.cons_append,
            List.take_succ_cons, List.replicate_succ', ← List.append_assoc,
            List.take_append_of_le_length hlen, ih]

/-- Pulls that come to an end gave all items. -/
theorem items_of_pulls_end {n : Nat} {xs : List (Except Fault Message)}
    (h : (pulls n r s).1 = xs.map some ++ [none]) : (r.items s).1 = xs := by
  induction n generalizing r s xs with
  | zero => simp [pulls] at h
  | succ n ih =>
      match hn : r.next s with
      | (none, r₁, s₁) =>
          rw [pulls_of_last hn (by simp)] at h
          cases xs with
          | nil => rw [items_of_none hn]
          | cons x xs => simp at h
      | (some (.error fault), r₁, s₁) =>
          rw [pulls_of_last hn (by simp)] at h
          match xs with
          | [] => simp at h
          | [x] =>
              obtain ⟨hx, -⟩ := List.cons.inj h
              rw [items_of_error hn, Option.some.inj hx]
          | x :: y :: xs =>
              obtain ⟨-, hxs⟩ := List.cons.inj h
              have hy : some y ∈ List.replicate n none := by rw [hxs]; simp
              simp at hy
      | (some (.ok m), r₁, s₁) =>
          rw [pulls_of_ok hn] at h
          cases xs with
          | nil => simp at h
          | cons x xs =>
              obtain ⟨hx, hxs⟩ := List.cons.inj h
              rw [items_of_ok hn, ih hxs, Option.some.inj hx]

end Netlink.Reply
