import Mathlib.Order.Bounds.Defs
import Netlink.Proofs.Operations

/-!
# A Cursor in Machine Words

Offsets and lengths are words of sixty-four bits, sums of words start again from zero beyond
them, and a length is rounded up by adding three and clearing the two low bits with a mask. A
cursor of words stands where the window on its range stands, as much is left of it, and the same
is seen of it, after whatever operations. A range may start beyond the buffer and be longer than
it; both are cut when the cursor is opened. From then on no sum of a position and a length can
leave the buffer, because a length is compared with what is left first.

Only rounding up comes near the end of the words. It is right for every length that has a multiple
of four above it in sixty-four bits: of the last of these, `2 ^ 64 - 4`, the sum with four is zero,
and taking one away from that leads back. Where sums are trapped this length is refused, and no
shorter one.

## Main results

* `Word.toNat_and_add_toNat_and_not`: a mask parts a word in two.
* `WordCursor.toNat_roundUp`: **rounding up by a mask.**
* `WordCursor.Tracks.step`, `WordCursor.Tracks.steps`: operations on words and on the window.
* `Window.steps_stay_in_range`: **a cursor stays in its range, whatever is done to it.**
-/

namespace Netlink

/-- What a mask keeps of a word and what it clears add up to the word. -/
theorem Word.toNat_and_add_toNat_and_not (x mask : UInt64) :
    (x &&& mask).toNat + (x &&& ~~~mask).toNat = x.toNat := by
  have hapart : (x.toBitVec &&& mask.toBitVec) &&& (x.toBitVec &&& ~~~mask.toBitVec) = 0#64 := by
    ext i
    simp only [BitVec.getElem_and, BitVec.getElem_not, BitVec.getElem_zero]
    cases mask.toBitVec[i] <;> simp
  have hwhole : (x.toBitVec &&& mask.toBitVec) ||| (x.toBitVec &&& ~~~mask.toBitVec)
      = x.toBitVec := by
    ext i
    simp only [BitVec.getElem_or, BitVec.getElem_and, BitVec.getElem_not]
    cases mask.toBitVec[i] <;> simp
  have hsum := BitVec.toNat_add_of_and_eq_zero hapart
  rw [BitVec.add_eq_or_of_and_eq_zero _ _ hapart, hwhole] at hsum
  exact hsum.symm

/-- The smaller of two words is the smaller number. -/
theorem Word.toNat_min (x y : UInt64) : (min x y).toNat = min x.toNat y.toNat := by
  change (if x ≤ y then x else y).toNat = _
  split
  · next hle => exact (Nat.min_eq_left (UInt64.le_iff_toNat_le.1 hle)).symm
  · next hgt =>
      have hlt : y.toNat < x.toNat := Nat.lt_of_not_le (mt UInt64.le_iff_toNat_le.2 hgt)
      exact (Nat.min_eq_right (Nat.le_of_lt hlt)).symm

/-- A buffer, and which part of it is still to be read, in words. -/
structure WordCursor where
  buffer : Bytes
  /-- Offset of what is left. -/
  position : UInt64
  /-- How many octets are left. -/
  remaining : UInt64
  deriving DecidableEq, Repr

namespace WordCursor

/-! ### Operations in words -/

/-- The cursor on `length` octets of `buffer` from offset `start` on, cut to what the buffer
holds. -/
def ofRange (buffer : Bytes) (start length : UInt64) : WordCursor :=
  let size : UInt64 := .ofNat buffer.length
  let available := if start ≤ size then size - start else 0
  { buffer, position := min start size, remaining := min length available }

/-- The alignment as a word. -/
def unit : UInt64 := .ofNat alignment

/-- A length rounded up to the alignment, by a mask. -/
def roundUp (n : UInt64) : UInt64 := (n + unit - 1) &&& ~~~(unit - 1)

/-- The next `n` octets, or nothing if fewer are left. -/
def peek? (c : WordCursor) (n : UInt64) : Checked (Option Bytes) :=
  if c.remaining < n then
    .ok none
  else do
    return some (← Checked.range c.buffer c.position.toNat (c.position + n).toNat)

/-- Drops everything that is left. -/
def exhaust (c : WordCursor) : WordCursor :=
  { c with position := c.position + c.remaining, remaining := 0 }

/-- Drops an entry of `n` octets and the padding after it. -/
def advance (c : WordCursor) (n : UInt64) : WordCursor :=
  let step := roundUp n
  if c.remaining ≤ step then c.exhaust
  else { c with position := c.position + step, remaining := c.remaining - step }

/-- Does an operation. Only looking at octets can fail. -/
def step (c : WordCursor) : Operation → Checked WordCursor
  | .peek n => do
    let _ ← c.peek? n
    return c
  | .advance n => return c.advance n
  | .exhaust => return c.exhaust

/-- Does one operation after another. -/
def steps (c : WordCursor) (ops : List Operation) : Checked WordCursor := ops.foldlM step c

/-! ### Rounding up -/

/-- Adding four and taking one away adds three, also where the sum starts again from zero. -/
theorem toNat_add_unit_sub_one {n : UInt64} (h : n.toNat ≤ 2 ^ 64 - 4) :
    (n + unit - 1).toNat = n.toNat + (alignment - 1) := by
  rw [UInt64.toNat_sub, UInt64.toNat_add]
  simp only [unit, alignment, UInt64.reduceOfNat, UInt64.reduceToNat]
  omega

/-- **Rounding up by a mask** gives the least multiple of the alignment that is not below, for every
length that has one among the words. -/
theorem toNat_roundUp {n : UInt64} (h : n.toNat ≤ 2 ^ 64 - 4) :
    (roundUp n).toNat = aligned n.toNat := by
  have hsum := toNat_add_unit_sub_one h
  have hlow : ((n + unit - 1) &&& (unit - 1)).toNat
      = (n.toNat + (alignment - 1)) % alignment := by
    rw [UInt64.toNat_and, hsum]
    exact Nat.and_two_pow_sub_one_eq_mod _ 2
  have hsplit := Word.toNat_and_add_toNat_and_not (n + unit - 1) (unit - 1)
  have hdiv := Nat.mod_add_div' (n.toNat + (alignment - 1)) alignment
  rw [hsum, hlow] at hsplit
  rw [roundUp, aligned]
  omega

/-! ### Words and windows -/

/-- A cursor tracks a window: it stands where the window does, as much is left of it, and the
window lies within its buffer. -/
structure Tracks (c : WordCursor) (w : Window) : Prop where
  position_eq : c.position.toNat = w.position
  remaining_eq : c.remaining.toNat = w.remaining
  within : w.Within c.buffer
  length_lt : c.buffer.length < UInt64.size

/-- Every range that is asked for is tracked, as far as the buffer holds it. -/
theorem tracks_ofRange {buffer : Bytes} (h : buffer.length < UInt64.size) (start length : UInt64) :
    (ofRange buffer start length).Tracks (.ofRange buffer start.toNat length.toNat) := by
  have hsize : (UInt64.ofNat buffer.length).toNat = buffer.length := UInt64.toNat_ofNat_of_lt' h
  refine ⟨?_, ?_, Window.within_ofRange buffer _ _, h⟩
  · rw [ofRange, Word.toNat_min, hsize]
    rfl
  · have havailable : (if start ≤ UInt64.ofNat buffer.length then
        UInt64.ofNat buffer.length - start else 0).toNat = buffer.length - start.toNat := by
      split
      · next hle => rw [UInt64.toNat_sub_of_le _ _ hle, hsize]
      · next hgt =>
          rw [UInt64.le_iff_toNat_le, hsize] at hgt
          exact (Nat.sub_eq_zero_of_le (Nat.le_of_not_le hgt)).symm
    rw [ofRange, Word.toNat_min, havailable, Window.remaining_ofRange]

namespace Tracks

variable {c : WordCursor} {w : Window}

/-- What is left is reached from the position without starting again from zero. -/
theorem toNat_position_add (h : c.Tracks w) {n : UInt64} (hn : n.toNat ≤ w.remaining) :
    (c.position + n).toNat = w.position + n.toNat := by
  have hinside := h.within.inside
  have hlt := h.length_lt
  rw [UInt64.size] at hlt
  rw [UInt64.toNat_add, h.position_eq]
  omega

/-- To look ahead shows what the window has there, by an access that succeeds. -/
theorem peek?_eq (h : c.Tracks w) (n : UInt64) : c.peek? n = .ok (w.peek? n.toNat) := by
  rw [WordCursor.peek?, h.within.peek?_eq]
  split
  · next hlt =>
      rw [UInt64.lt_iff_toNat_lt, h.remaining_eq] at hlt
      rw [if_neg (Nat.not_le_of_lt hlt)]
  · next hge =>
      rw [UInt64.lt_iff_toNat_lt, h.remaining_eq] at hge
      have hle : n.toNat ≤ w.remaining := Nat.le_of_not_lt hge
      have hinside := h.within.inside
      rw [h.toNat_position_add hle, h.position_eq, Checked.range_eq (by omega) (by omega),
        if_pos hle, Nat.add_sub_cancel_left]
      rfl

/-- To drop what is left leaves what dropping it leaves of the window. -/
theorem exhaust (h : c.Tracks w) : c.exhaust.Tracks w.exhaust := by
  refine ⟨?_, rfl, h.within.step .exhaust, h.length_lt⟩
  have hsum := h.toNat_position_add (Nat.le_of_eq h.remaining_eq)
  rw [h.remaining_eq] at hsum
  exact hsum

/-- An entry is passed over as in the window, although the sums on the way may wrap around. -/
theorem advance (h : c.Tracks w) {n : UInt64} (hn : n.toNat ≤ 2 ^ 64 - 4) :
    (c.advance n).Tracks (w.advance n.toNat) := by
  have hround := toNat_roundUp hn
  have hposition := w.position_advance n.toNat
  have hremaining := w.remaining_advance n.toNat
  rw [WordCursor.advance]
  -- Where the entry reaches the end or beyond, the position is set to the end and not to a sum with
  -- the length, which might start again from zero.
  split
  · next hle =>
      rw [UInt64.le_iff_toNat_le, h.remaining_eq, hround] at hle
      have hexhaust := h.exhaust
      refine ⟨?_, ?_, h.within.advance n.toNat, h.length_lt⟩
      · rw [hexhaust.position_eq, hposition, Nat.min_eq_right hle]
        rfl
      · rw [hexhaust.remaining_eq, hremaining, Nat.sub_eq_zero_of_le hle]
        rfl
  · next hgt =>
      have hlt : aligned n.toNat < w.remaining := by
        rwa [UInt64.le_iff_toNat_le, h.remaining_eq, hround, Nat.not_le] at hgt
      have hle : (roundUp n).toNat ≤ w.remaining := hround ▸ Nat.le_of_lt hlt
      refine ⟨?_, ?_, h.within.advance n.toNat, h.length_lt⟩
      · rw [hposition, Nat.min_eq_left (Nat.le_of_lt hlt), ← hround]
        exact h.toNat_position_add hle
      · have hsub : roundUp n ≤ c.remaining := by
          rwa [UInt64.le_iff_toNat_le, h.remaining_eq]
        rw [hremaining, ← h.remaining_eq, ← hround]
        exact UInt64.toNat_sub_of_le _ _ hsub

/-- An operation succeeds if the length that is rounded up has a multiple of the alignment among
the words. -/
theorem step (h : c.Tracks w) {op : Operation} (hop : op.AtMost (2 ^ 64 - 4)) :
    ∃ c', c.step op = .ok c' ∧ c'.Tracks (w.step op) := by
  cases op with
  | peek n =>
      refine ⟨c, ?_, h⟩
      rw [WordCursor.step, h.peek?_eq]
      rfl
  | advance n => exact ⟨c.advance n, rfl, h.advance hop⟩
  | exhaust => exact ⟨c.exhaust, rfl, h.exhaust⟩

/-- **Any operations are done as on the window**, one after the other, if each length that is
rounded up has a multiple of the alignment among the words. -/
theorem steps (h : c.Tracks w) {ops : List Operation}
    (hops : ∀ op ∈ ops, op.AtMost (2 ^ 64 - 4)) :
    ∃ c', c.steps ops = .ok c' ∧ c'.Tracks (w.steps ops) :=
  Checked.foldlM_of_step (fun op hop _ _ htracks => htracks.step (hops op hop)) h

end Tracks

end WordCursor

/-! ### A range and what is done in it -/

/-- A length rounded up is the least multiple of four that is not below it. -/
theorem isLeast_aligned (n : Nat) : IsLeast {m | n ≤ m ∧ 4 ∣ m} (aligned n) :=
  ⟨⟨le_aligned n, Nat.dvd_of_mod_eq_zero (aligned_mod n)⟩,
    fun _ hm => aligned_le hm.1 (Nat.mod_eq_zero_of_dvd hm.2)⟩

namespace Window

/-- **A cursor stays in its range, whatever is done to it.** After any operations on the window on a
range of a buffer, the window ends where the range does, cut to what the buffer holds; no further
operations make what is left grow; passing over an entry moves the position by its length rounded
up, or to the end; and octets are seen exactly if they are left, are those that the buffer holds
at the position, and stay where they are. A cursor of words, which rounds up by a mask, gets
through the operations if their lengths can be rounded up in a word, and is left as the window is.
So is a cursor that traps sums beyond a word, which gets through exactly if no length is above
`2 ^ 64 - 5`. -/
theorem steps_stay_in_range (buffer : Bytes) (start length : UInt64) (ops : List Operation) :
    let w := (ofRange buffer start.toNat length.toNat).steps ops
    (w.position + w.remaining
        = min start.toNat buffer.length + min length.toNat (buffer.length - start.toNat) ∧
      w.position + w.remaining ≤ buffer.length) ∧
    (∀ later, (w.steps later).remaining ≤ w.remaining) ∧
    (∀ n, (w.advance n).position = w.position + min (aligned n) w.remaining ∧
      IsLeast {m | n ≤ m ∧ 4 ∣ m} (aligned n)) ∧
    (∀ n : UInt64, w.step (.peek n) = w ∧
      w.peek? n.toNat
        = if n.toNat ≤ w.remaining then some ((buffer.drop w.position).take n.toNat) else none) ∧
    (buffer.length < UInt64.size →
      ((∀ op ∈ ops, op.AtMost (2 ^ 64 - 4)) →
        ∃ c, (WordCursor.ofRange buffer start length).steps ops = .ok c ∧
          c.position.toNat = w.position ∧ c.remaining.toNat = w.remaining ∧
          (∀ n, c.peek? n = .ok (w.peek? n.toNat)) ∧
          ∀ n : UInt64, n.toNat ≤ 2 ^ 64 - 4 →
            (WordCursor.roundUp n).toNat = aligned n.toNat ∧
              (c.advance n).position.toNat = (w.advance n.toNat).position) ∧
      ((∀ op ∈ ops, op.AtMost (2 ^ 64 - 5)) ↔
        ∃ c, (Cursor.ofRange buffer start.toNat length.toNat).steps ops = .ok c ∧ c.Shows w)) := by
  intro w
  have hwithin : w.Within buffer := (within_ofRange buffer _ _).steps ops
  have hend : w.position + w.remaining
      = min start.toNat buffer.length + min length.toNat (buffer.length - start.toNat) :=
    (position_add_remaining_steps _ ops).trans (position_add_remaining_ofRange buffer _ _)
  refine ⟨⟨hend, hwithin.inside⟩, w.remaining_steps_le,
    fun n => ⟨w.position_advance n, isLeast_aligned n⟩,
    fun n => ⟨rfl, hwithin.peek?_eq n.toNat⟩, fun hbuffer => ⟨fun hops => ?_, fun hops => ?_, ?_⟩⟩
  · obtain ⟨c, hsteps, htracks⟩ := (WordCursor.tracks_ofRange hbuffer start length).steps hops
    refine ⟨c, hsteps, htracks.position_eq, htracks.remaining_eq, htracks.peek?_eq, fun n hn => ?_⟩
    exact ⟨WordCursor.toNat_roundUp hn, (htracks.advance hn).position_eq⟩
  · exact (Cursor.shows_ofRange hbuffer _ _).steps hops
  · rintro ⟨c, hsteps, -⟩
    exact Cursor.atMost_of_steps hsteps

/-- A range that goes on beyond its buffer, with an entry of five octets passed over, and after it
one of the longest length. -/
theorem steps_stay_in_range_longest :
    let buffer : Bytes := [0, 1, 2, 3, 4, 5, 6, 7, 8, 9]
    let ops : List Operation := [.peek 3, .advance 5]
    let longest : Operation := .advance 0xFFFFFFFFFFFFFFFC
    let c := WordCursor.ofRange buffer 1 0xFFFFFFFFFFFFFFFF
    buffer.length < UInt64.size ∧
    (∀ op ∈ ops ++ [longest], op.AtMost (2 ^ 64 - 4)) ∧
    (∃ c', c.steps ops = .ok c' ∧ c'.position.toNat = 9 ∧ c'.remaining.toNat = 1 ∧
      c'.peek? 1 = .ok (some [9]) ∧ c'.peek? 2 = .ok none) ∧
    (∃ c', c.steps (ops ++ [longest]) = .ok c' ∧ c'.position.toNat = 10 ∧
      c'.remaining.toNat = 0) ∧
    ¬∃ c', (Cursor.ofRange buffer 1 0xFFFFFFFFFFFFFFFF).steps (ops ++ [longest]) = .ok c' ∧
      c'.Shows ((ofRange buffer 1 0xFFFFFFFFFFFFFFFF).steps (ops ++ [longest])) := by
  intro buffer ops longest c
  have hbuffer : buffer.length < UInt64.size := by decide
  have hops : ∀ op ∈ ops ++ [longest], op.AtMost (2 ^ 64 - 4) := by decide
  obtain ⟨-, -, -, -, hshort⟩ := steps_stay_in_range buffer 1 0xFFFFFFFFFFFFFFFF ops
  obtain ⟨-, -, -, -, hlong⟩ := steps_stay_in_range buffer 1 0xFFFFFFFFFFFFFFFF (ops ++ [longest])
  obtain ⟨c₁, hsteps₁, hposition₁, hremaining₁, hpeek₁, -⟩ := (hshort hbuffer).1 (by decide)
  obtain ⟨c₂, hsteps₂, hposition₂, hremaining₂, -⟩ := (hlong hbuffer).1 hops
  refine ⟨hbuffer, hops, ⟨c₁, hsteps₁, hposition₁, hremaining₁, hpeek₁ 1, hpeek₁ 2⟩,
    ⟨c₂, hsteps₂, hposition₂, hremaining₂⟩, fun hc => ?_⟩
  exact absurd ((hlong hbuffer).2.2 hc) (by decide)

end Window

end Netlink
