import Netlink.Wire.Window

/-!
# Framing

Messages in a datagram and attributes in a message are framed alike: an entry starts with a
head of fixed size, the head declares how long the entry is, head included, and the next
entry starts at the aligned end of this one. A `Framing` names the head and the way it
declares its length; `Framing.next?` splits one entry off a window and `Framing.walk` splits
off all of them.

A chain ends in one of two ways. If too few octets are left for a head, they stay in the
window. If the declared length is below the size of the head or above what is left, nothing
after it can be found, and the window is emptied.

Main statements: a window from which an entry was split off has fewer octets left
(`Framing.remaining_lt_of_next?`), so every walk ends, and gives no more entries than there were
octets (`Framing.length_entries_le`).
-/

namespace Netlink

/-- How the entries of a chain are told apart: by a head that declares their length. -/
structure Framing (η : Type) where
  /-- Size of a head, in octets. -/
  headSize : Nat
  /-- A head is not empty. -/
  headSize_pos : 0 < headSize
  /-- Reads a head from its octets. -/
  head? : Bytes → Option η
  /-- The length of the entry that a head starts, head included, padding left out. -/
  declared : η → Nat

/-- An entry of a chain: its head, and all its octets, head included, padding left out. -/
structure Framing.Entry (η : Type) where
  head : η
  octets : Bytes
  deriving DecidableEq, Repr

namespace Framing

variable {η : Type}

/-- The octets of the entry that a head starts, if its declared length covers the head and is no
more than what is left. -/
def octets? (f : Framing η) (w : Window) (head : η) : Option Bytes :=
  if f.declared head < f.headSize then none else w.peek? (f.declared head)

/-- Splits the next entry off a window. -/
def next? (f : Framing η) (w : Window) : Option (Entry η) × Window :=
  match (w.peek? f.headSize).bind f.head? with
  | none => (none, w)
  | some head =>
    match f.octets? w head with
    | none => (none, w.exhaust)
    | some octets => (some ⟨head, octets⟩, w.advance (f.declared head))

/-- An entry that is found leaves less of the window. -/
theorem remaining_lt_of_next? {f : Framing η} {w w' : Window} {e : Entry η}
    (h : f.next? w = (some e, w')) : w'.remaining < w.remaining := by
  rw [next?] at h
  split at h
  · simp at h
  · rename_i head _
    split at h
    · simp at h
    · rename_i octets ho
      obtain ⟨-, rfl⟩ := Prod.mk.inj h
      rw [octets?] at ho
      split at ho
      · cases ho
      · have hle := (Window.peek?_eq_some_iff.1 ho).1
        have hpos := f.headSize_pos
        have hal := le_aligned (f.declared head)
        rw [Window.remaining_advance]
        omega

/-- Splits off all entries of a window, each with what was left after it, and gives what is
left in the end. -/
def walk (f : Framing η) (w : Window) : List (Entry η × Window) × Window :=
  match _h : f.next? w with
  | (none, last) => ([], last)
  | (some e, w') =>
    let (entries, last) := f.walk w'
    ((e, w') :: entries, last)
termination_by w.remaining
decreasing_by exact remaining_lt_of_next? _h

/-- All entries of a window. -/
def entries (f : Framing η) (w : Window) : List (Entry η) := (f.walk w).1.map (·.1)

/-- A window has no more entries than octets. -/
theorem length_entries_le (f : Framing η) (w : Window) : (f.entries w).length ≤ w.remaining := by
  rw [entries, List.length_map]
  fun_induction walk f w with
  | case1 w last h => exact Nat.zero_le _
  | case2 w e w' h entries last hw ih =>
    rw [hw] at ih
    exact Nat.lt_of_le_of_lt ih (remaining_lt_of_next? h)

end Framing

end Netlink
