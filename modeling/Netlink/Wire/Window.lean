import Netlink.Wire.Alignment

/-!
# Windows

A window is what is still to be read of a range of a buffer: the octets left, and the offset
in the buffer at which they start. Peeking leaves it as it is; advancing drops an entry
together with the padding after it.

A window keeps the octets themselves, so nothing that is done to it can reach outside the
range it was opened on.
-/

namespace Netlink

/-- What is left to be read of a range of a buffer. -/
structure Window where
  /-- Offset of the octets left, from the start of the buffer. -/
  position : Nat
  /-- The octets left. -/
  rest : Bytes
  deriving DecidableEq, Repr

namespace Window

/-- The window on `length` octets of `buffer` from offset `start` on, cut to what the buffer
holds. -/
def ofRange (buffer : Bytes) (start length : Nat) : Window where
  position := min start buffer.length
  rest := (buffer.drop start).take length

/-- The window on all of `buffer`. -/
def whole (buffer : Bytes) : Window where
  position := 0
  rest := buffer

/-- How many octets are left. -/
def remaining (w : Window) : Nat := w.rest.length

/-- The next `n` octets, or nothing if fewer are left. Only these octets are looked at, however
many are left. -/
def peek? (w : Window) (n : Nat) : Option Bytes :=
  let front := w.rest.take n
  if front.length = n then some front else none

/-- Drops an entry of `n` octets and the padding after it. Padding that the range does not
hold is not missed. -/
def advance (w : Window) (n : Nat) : Window where
  position := w.position + (w.rest.take (aligned n)).length
  rest := w.rest.drop (aligned n)

/-- Drops everything that is left. -/
def exhaust (w : Window) : Window where
  position := w.position + w.remaining
  rest := []

/-- The range that covers a buffer is the window on the whole of it. -/
theorem ofRange_zero_length (buffer : Bytes) : ofRange buffer 0 buffer.length = whole buffer := by
  simp [ofRange, whole]

/-- A range that runs out of the buffer is cut at its end. -/
@[simp] theorem remaining_ofRange (buffer : Bytes) (start length : Nat) :
    (ofRange buffer start length).remaining = min length (buffer.length - start) := by
  simp [ofRange, remaining]

@[simp] theorem remaining_whole (buffer : Bytes) : (whole buffer).remaining = buffer.length := rfl

/-- To advance takes an aligned number of octets away, as far as there are any. -/
@[simp] theorem remaining_advance (w : Window) (n : Nat) :
    (w.advance n).remaining = w.remaining - aligned n := by
  simp [advance, remaining]

/-- The position moves on by as many octets as are taken away. -/
theorem position_advance (w : Window) (n : Nat) :
    (w.advance n).position = w.position + min (aligned n) w.remaining := by
  simp [advance, remaining]

@[simp] theorem remaining_exhaust (w : Window) : w.exhaust.remaining = 0 := rfl

/-- Looking ahead fails just if fewer octets remain. -/
theorem peek?_eq_none_iff {w : Window} {n : Nat} : w.peek? n = none ↔ w.remaining < n := by
  simp only [peek?, remaining, List.length_take]
  split
  · simp only [reduceCtorEq, false_iff]
    omega
  · simp only [true_iff]
    omega

/-- Looking ahead shows the octets at the front of the rest, if there are enough. -/
theorem peek?_eq_some_iff {w : Window} {n : Nat} {front : Bytes} :
    w.peek? n = some front ↔ n ≤ w.remaining ∧ w.rest.take n = front := by
  simp only [peek?, remaining, List.length_take]
  split
  · simp only [Option.some.injEq, iff_and_self]
    omega
  · simp only [reduceCtorEq, false_iff, not_and]
    omega

end Window

end Netlink
