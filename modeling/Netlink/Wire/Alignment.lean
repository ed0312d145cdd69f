import Netlink.Wire.Word

/-!
# Alignment

Every entry of a chain starts on a four-octet boundary measured from the entry before it.
`aligned n` is the least multiple of four that is not below `n`, and `padded bs` is `bs`
followed by the zero octets that bring it to such a length.

Main statements: `aligned n` is a multiple of four, at least `n`, and at most every other
such multiple (`aligned_mod`, `le_aligned`, `aligned_le`).
-/

namespace Netlink

/-- The boundary, in octets, on which entries start. -/
def alignment : Nat := 4

/-- The least multiple of the alignment that is not below `n`. -/
def aligned (n : Nat) : Nat := (n + (alignment - 1)) / alignment * alignment

/-- An aligned number is a multiple of the alignment. -/
theorem aligned_mod (n : Nat) : aligned n % alignment = 0 := Nat.mul_mod_left _ _

/-- To align a number does not make it smaller. -/
theorem le_aligned (n : Nat) : n ≤ aligned n := by
  rw [aligned, alignment]
  omega

/-- What is added to align a number is less than one unit. -/
theorem aligned_lt (n : Nat) : aligned n < n + alignment := by
  rw [aligned, alignment]
  omega

/-- Of the multiples that are not smaller, the aligned number is the least. -/
theorem aligned_le {n m : Nat} (h : n ≤ m) (hm : m % alignment = 0) : aligned n ≤ m := by
  rw [alignment] at hm
  rw [aligned, alignment]
  omega

/-- A run followed by zero octets up to the next boundary. -/
def padded (bs : Bytes) : Bytes := bs ++ List.replicate (aligned bs.length - bs.length) 0

/-- The padding makes the length aligned. -/
@[simp] theorem length_padded (bs : Bytes) : (padded bs).length = aligned bs.length := by
  have := le_aligned bs.length
  simp only [padded, List.length_append, List.length_replicate]
  omega

end Netlink
