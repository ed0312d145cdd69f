import Mathlib.Algebra.Ring.Nat
import Netlink.Proofs.Cursor

/-!
# Operations on a Window

Octets are looked at, an entry is passed over with its padding, or all that is left is dropped.
Nothing else is done to a window, but these may come in any order, with any lengths. None of them
moves the end of the window, which is what its position and the octets left add up to: whatever
the position gains is taken from what is left. So the end stays where it was when the window was
opened, within the buffer, and what is left is always what the buffer holds from the position
up to there.

A cursor that traps a sum beyond sixty-four bits does the same operations, unless one of them
passes over an entry so long that its length cannot be rounded up.

## Main results

* `Window.position_add_remaining_steps`: **the end of a window never moves.**
* `Window.remaining_steps_le`: what is left never grows.
* `Window.Within.steps`, `Window.Within.peek?_eq`: what is left, and what is seen of it, is what the
  buffer holds at the position.
* `Cursor.Shows.steps`, `Cursor.atMost_of_steps`: which operations a cursor that traps gets through.
-/

namespace Netlink

/-- What is done to a window. Lengths are words of sixty-four bits. -/
inductive Operation where
  | peek (n : UInt64)
  | advance (n : UInt64)
  | exhaust
  deriving DecidableEq, Repr

/-- An entry that is passed over is at most so long. -/
def Operation.AtMost (bound : Nat) : Operation → Prop
  | advance n => n.toNat ≤ bound
  | peek _ | exhaust => True

instance (bound : Nat) : DecidablePred (Operation.AtMost bound)
  | .advance n => inferInstanceAs (Decidable (n.toNat ≤ bound))
  | .peek _ | .exhaust => inferInstanceAs (Decidable True)

/-! ### On a window -/

namespace Window

/-- What an operation leaves of a window. -/
def step (w : Window) : Operation → Window
  | .peek _ => w
  | .advance n => w.advance n.toNat
  | .exhaust => w.exhaust

/-- What operations leave of a window, done one after the other. -/
def steps (w : Window) (ops : List Operation) : Window := ops.foldl step w

/-- What is left of a window is what a buffer holds at its position. -/
structure Within (w : Window) (buffer : Bytes) : Prop where
  inside : w.position + w.remaining ≤ buffer.length
  rest_eq : w.rest = (buffer.drop w.position).take w.remaining

variable {w : Window} {buffer : Bytes}

/-- What the position gains is taken from what is left, also where padding is missing. -/
theorem position_add_remaining_step (w : Window) (op : Operation) :
    (w.step op).position + (w.step op).remaining = w.position + w.remaining := by
  cases op with
  | peek n => rfl
  | advance n =>
      rw [step, position_advance, remaining_advance]
      omega
  | exhaust => rfl

/-- No operation leaves more of a window than there was. -/
theorem remaining_step_le (w : Window) (op : Operation) :
    (w.step op).remaining ≤ w.remaining := by
  cases op with
  | peek n => exact Nat.le_refl _
  | advance n =>
      rw [step, remaining_advance]
      exact Nat.sub_le _ _
  | exhaust => exact Nat.zero_le _

/-- **The end of a window never moves.** -/
theorem position_add_remaining_steps (w : Window) (ops : List Operation) :
    (w.steps ops).position + (w.steps ops).remaining = w.position + w.remaining := by
  induction ops generalizing w with
  | nil => rfl
  | cons op ops ih => exact (ih (w.step op)).trans (position_add_remaining_step w op)

/-- What is left never grows. -/
theorem remaining_steps_le (w : Window) (ops : List Operation) :
    (w.steps ops).remaining ≤ w.remaining := by
  induction ops generalizing w with
  | nil => exact Nat.le_refl _
  | cons op ops ih => exact Nat.le_trans (ih (w.step op)) (remaining_step_le w op)

/-- A window on a range ends where the range does, cut to what the buffer holds. -/
theorem position_add_remaining_ofRange (buffer : Bytes) (start length : Nat) :
    (ofRange buffer start length).position + (ofRange buffer start length).remaining
      = min start buffer.length + min length (buffer.length - start) := by
  rw [remaining_ofRange, ofRange]

/-- The window on a range lies within its buffer, whatever offset and length are asked for. -/
theorem within_ofRange (buffer : Bytes) (start length : Nat) :
    (ofRange buffer start length).Within buffer where
  inside := by
    rw [position_add_remaining_ofRange]
    omega
  rest_eq := by
    rw [remaining_ofRange]
    exact (congrArg rest (Cursor.window_ofRange buffer start length)).symm

namespace Within

/-- A window stays within its buffer when an entry is passed over. -/
theorem advance (h : w.Within buffer) (n : Nat) : (w.advance n).Within buffer := by
  have hinside := h.inside
  constructor
  · rw [position_advance, remaining_advance]
    omega
  · have hrest : (w.advance n).rest = w.rest.drop (aligned n) := rfl
    rw [hrest, h.rest_eq, List.drop_take, List.drop_drop, position_advance, remaining_advance]
    -- beyond the end the position is not what the octets are dropped up to, but none are left
    rcases Nat.le_total (aligned n) w.remaining with hle | hle
    · rw [Nat.min_eq_left hle]
    · rw [Nat.sub_eq_zero_of_le hle, List.take_zero, List.take_zero]

/-- A window stays within its buffer with every operation. -/
theorem step (h : w.Within buffer) (op : Operation) : (w.step op).Within buffer := by
  cases op with
  | peek n => exact h
  | advance n => exact h.advance n.toNat
  | exhaust => exact ⟨h.inside, List.take_zero.symm⟩

/-- A window stays within its buffer with any operations, one after the other. -/
theorem steps (h : w.Within buffer) (ops : List Operation) : (w.steps ops).Within buffer := by
  induction ops generalizing w with
  | nil => exact h
  | cons op ops ih => exact ih (h.step op)

/-- The octets that are seen are those at the position, and they are seen if they are left. -/
theorem peek?_eq (h : w.Within buffer) (n : Nat) :
    w.peek? n = if n ≤ w.remaining then some ((buffer.drop w.position).take n) else none := by
  split
  · next hle =>
      refine peek?_eq_some_iff.2 ⟨hle, ?_⟩
      rw [h.rest_eq, List.take_take, Nat.min_eq_left hle]
  · next hlt => exact peek?_eq_none_iff.2 (Nat.lt_of_not_le hlt)

end Within

end Window

/-! ### On a cursor that traps -/

/-- A fold whose items may fail gets through them all, and ends as one that cannot fail does, if
each item succeeds as long as the two agree, and they agree after it. -/
theorem Checked.foldlM_of_step {α β ι : Type} {Agree : α → β → Prop} {f : α → ι → Checked α}
    {g : β → ι → β} {items : List ι}
    (hstep : ∀ i ∈ items, ∀ a b, Agree a b → ∃ a', f a i = .ok a' ∧ Agree a' (g b i))
    {a : α} {b : β} (h : Agree a b) :
    ∃ a', items.foldlM f a = .ok a' ∧ Agree a' (items.foldl g b) := by
  induction items generalizing a b with
  | nil => exact ⟨a, rfl, h⟩
  | cons i items ih =>
      obtain ⟨a₁, hi, h₁⟩ := hstep i List.mem_cons_self a b h
      obtain ⟨a', hitems, h'⟩ := ih (fun j hj => hstep j (List.mem_cons_of_mem i hj)) h₁
      refine ⟨a', ?_, h'⟩
      rw [List.foldlM_cons, hi]
      exact hitems

namespace Cursor

variable {c c' : Cursor} {w : Window} {op : Operation} {ops : List Operation}

/-- Does an operation by accesses that may fail. -/
def step (c : Cursor) : Operation → Checked Cursor
  | .peek n => do
    let _ ← c.peek? n.toNat
    return c
  | .advance n => c.advance n.toNat
  | .exhaust => c.exhaust

/-- Does one operation after another, up to the first that fails. -/
def steps (c : Cursor) (ops : List Operation) : Checked Cursor := ops.foldlM step c

/-- An operation succeeds if the length that is rounded up leaves room for the alignment. -/
theorem Shows.step (h : c.Shows w) (hop : op.AtMost (2 ^ 64 - 5)) :
    ∃ c', c.step op = .ok c' ∧ c'.Shows (w.step op) := by
  cases op with
  | peek n =>
      refine ⟨c, ?_, h⟩
      rw [Cursor.step, h.peek?]
      rfl
  | advance n =>
      have hn : n.toNat + alignment < UInt64.size := by
        change n.toNat ≤ 2 ^ 64 - 5 at hop
        rw [alignment, UInt64.size]
        omega
      exact h.advance hn
  | exhaust => exact h.exhaust

/-- Operations succeed one after the other if each length that is rounded up leaves room for the
alignment. -/
theorem Shows.steps (h : c.Shows w) (hops : ∀ op ∈ ops, op.AtMost (2 ^ 64 - 5)) :
    ∃ c', c.steps ops = .ok c' ∧ c'.Shows (w.steps ops) :=
  Checked.foldlM_of_step (fun op hop _ _ hshows => hshows.step (hops op hop)) h

/-- No other operation succeeds: four is added to a length before one is taken away. -/
theorem atMost_of_step (h : c.step op = .ok c') : op.AtMost (2 ^ 64 - 5) := by
  cases op with
  | peek n => trivial
  | advance n =>
      rw [step, advance, Checked.bind_eq_ok_iff] at h
      obtain ⟨rounded, halign, -⟩ := h
      rw [align, Checked.bind_eq_ok_iff] at halign
      obtain ⟨beyond, hsum, -⟩ := halign
      rw [Checked.sum] at hsum
      split at hsum
      · next hlt =>
          rw [alignment, UInt64.size] at hlt
          change n.toNat ≤ 2 ^ 64 - 5
          omega
      · cases hsum
  | exhaust => trivial

/-- Operations that all succeed had lengths that leave room for the alignment. -/
theorem atMost_of_steps (h : c.steps ops = .ok c') : ∀ op ∈ ops, op.AtMost (2 ^ 64 - 5) := by
  induction ops generalizing c with
  | nil => exact fun _ hop => absurd hop List.not_mem_nil
  | cons op ops ih =>
      rw [steps, List.foldlM_cons, Checked.bind_eq_ok_iff] at h
      obtain ⟨c₁, hstep, hsteps⟩ := h
      exact List.forall_mem_cons.2 ⟨atMost_of_step hstep, ih hsteps⟩

end Cursor

end Netlink
