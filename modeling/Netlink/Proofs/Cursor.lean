import Netlink.Attribute.Chain
import Netlink.Datagram.Basic
import Netlink.Proofs.Access
import Netlink.Proofs.Chain

/-!
# Cursors

A window keeps the octets that are left. A `Cursor` keeps the buffer, the offset of what is left
and how much it is, and every octet is taken out of the buffer by an access that fails outside
it. What keeps the accesses inside is one invariant: what is left lies within the buffer. It
holds of every cursor that is opened, whatever the offset and the length asked for, because
both are cut to the buffer; and each step keeps it, because an entry is cut out and passed over
only if it is no longer than what is left.

A cursor *shows* a window if it has the invariant and the window is what is left of it. Every
step on a cursor that shows a window succeeds, gives what the step on the window gives, and
leaves a cursor that shows what is left of the window.

## Main results

* `Cursor.shows_ofRange`: a cursor shows the window on its range.
* `Cursor.Shows.peek?`, `Cursor.Shows.exhaust`, `Cursor.Shows.advance`: the steps on a cursor.
* `CheckedFraming.next?_of_shows`: **the next entry is cut out within the buffer.**
* `CheckedFraming.walk_of_shows`, `CheckedFraming.find?_of_shows`: so are all entries, and those
  up to the first that is looked for.
* `Datagram.checkedMessages_eq`, `Chain.checkedAttributes_of_shows`,
  `Chain.checkedFind?_of_shows`: the messages of a datagram and the attributes of a chain.
-/

namespace Netlink

/-- A buffer, and which part of it is still to be read. -/
structure Cursor where
  buffer : Bytes
  /-- Offset of what is left. -/
  position : Nat
  /-- How many octets are left. -/
  remaining : Nat
  deriving DecidableEq, Repr

namespace Cursor

variable {c : Cursor} {w : Window} {n : Nat}

/-- The cursor on `length` octets of `buffer` from offset `start` on, cut to what the buffer
holds. -/
def ofRange (buffer : Bytes) (start length : Nat) : Cursor where
  buffer := buffer
  position := min start buffer.length
  remaining := min length (buffer.length - start)

/-- The cursor on all of `buffer`. -/
def whole (buffer : Bytes) : Cursor := ofRange buffer 0 buffer.length

@[simp] theorem remaining_whole (buffer : Bytes) : (whole buffer).remaining = buffer.length :=
  Nat.min_self _

/-- The next `n` octets, or nothing if fewer are left. -/
def peek? (c : Cursor) (n : Nat) : Checked (Option Bytes) :=
  if c.remaining < n then
    .ok none
  else do
    let stop ← Checked.sum c.position n
    return some (← Checked.range c.buffer c.position stop)

/-- Drops everything that is left. -/
def exhaust (c : Cursor) : Checked Cursor := do
  return { c with position := ← Checked.sum c.position c.remaining, remaining := 0 }

/-- The least multiple of the alignment that is not below `n`. -/
def align (n : Nat) : Checked Nat := do
  let beyond ← Checked.sum n alignment
  return (beyond - 1) / alignment * alignment

/-- Drops an entry of `n` octets and the padding after it. -/
def advance (c : Cursor) (n : Nat) : Checked Cursor := do
  let step ← align n
  if c.remaining ≤ step then
    c.exhaust
  else
    return { c with position := ← Checked.sum c.position step, remaining := c.remaining - step }

/-! ### What a cursor shows -/

/-- The window of what is left. -/
def window (c : Cursor) : Window where
  position := c.position
  rest := (c.buffer.drop c.position).take c.remaining

/-- What is left lies within the buffer, and is this window. -/
structure Shows (c : Cursor) (w : Window) : Prop where
  inside : c.position + c.remaining ≤ c.buffer.length
  length_lt : c.buffer.length < UInt64.size
  window_eq : c.window = w

/-- What is left of the cursor on a range is the window on it. -/
theorem window_ofRange (buffer : Bytes) (start length : Nat) :
    (ofRange buffer start length).window = .ofRange buffer start length := by
  rcases Nat.le_total start buffer.length with h | h
  · have hmin : min start buffer.length = start := Nat.min_eq_left h
    simp only [window, ofRange, Window.ofRange, hmin, ← List.length_drop, ← List.take_take,
      List.take_length]
  · have hdrop : buffer.drop start = [] := List.drop_eq_nil_of_le h
    simp [window, ofRange, Window.ofRange, Nat.min_eq_right h, hdrop]

/-- Every range that is asked for is shown, as far as the buffer holds it. -/
theorem shows_ofRange {buffer : Bytes} (h : buffer.length < UInt64.size) (start length : Nat) :
    (ofRange buffer start length).Shows (.ofRange buffer start length) where
  inside := by
    simp only [ofRange]
    omega
  length_lt := h
  window_eq := window_ofRange buffer start length

/-- The cursor on all of a buffer shows the window on all of it. -/
theorem shows_whole {buffer : Bytes} (h : buffer.length < UInt64.size) :
    (whole buffer).Shows (.whole buffer) := by
  have := shows_ofRange h 0 buffer.length
  rwa [Window.ofRange_zero_length] at this

namespace Shows

/-- As many octets are left of the window as of the cursor. -/
theorem remaining_eq (h : c.Shows w) : w.remaining = c.remaining := by
  have := h.inside
  rw [← h.window_eq, window, Window.remaining, List.length_take, List.length_drop]
  omega

/-- The number of octets left of a window that is shown fits into sixty-four bits. -/
theorem remaining_lt (h : c.Shows w) : w.remaining < UInt64.size := by
  have := h.inside
  have := h.length_lt
  rw [h.remaining_eq]
  omega

/-- A range from the position on, within what is left, is cut out of the window. -/
theorem range (h : c.Shows w) {start stop : Nat} (hstart : start ≤ stop)
    (hstop : stop ≤ c.remaining) :
    Checked.range c.buffer (c.position + start) (c.position + stop)
      = .ok ((w.rest.take stop).drop start) := by
  have := h.inside
  rw [Checked.range_eq (by omega) (by omega), ← h.window_eq]
  simp only [window, List.take_take, List.drop_take, List.drop_drop, Nat.min_eq_left hstop]
  congr 2
  omega

/-- To look ahead in a cursor succeeds, and shows what the window has there. -/
theorem peek? (h : c.Shows w) (n : Nat) : c.peek? n = .ok (w.peek? n) := by
  rw [Cursor.peek?]
  split
  · next hn => rw [Window.peek?_eq_none_iff.2 (by rwa [h.remaining_eq])]
  · next hn =>
      have hle : n ≤ c.remaining := Nat.le_of_not_lt hn
      have hsum := h.inside
      have hlt := h.length_lt
      have hfront : w.peek? n = some (w.rest.take n) :=
        Window.peek?_eq_some_iff.2 ⟨by rwa [h.remaining_eq], rfl⟩
      have hrange := h.range (Nat.zero_le n) hle
      rw [Nat.add_zero, List.drop_zero] at hrange
      rw [Checked.sum_eq (by omega), Checked.ok_bind, hrange, hfront]
      rfl

/-- To drop what is left succeeds, and leaves what dropping it leaves of the window. -/
theorem exhaust (h : c.Shows w) : ∃ c', c.exhaust = .ok c' ∧ c'.Shows w.exhaust := by
  have hinside := h.inside
  have hlt := h.length_lt
  refine ⟨{ c with position := c.position + c.remaining, remaining := 0 }, ?_, ?_⟩
  · rw [Cursor.exhaust, Checked.sum_eq (by omega)]
    rfl
  · refine ⟨hinside, hlt, ?_⟩
    rw [Window.exhaust, h.remaining_eq, ← h.window_eq]
    simp [window]

end Shows

/-- A number that leaves room for the alignment is aligned. -/
theorem align_eq (h : n + alignment < UInt64.size) : align n = .ok (aligned n) := by
  rw [align, Checked.sum_eq h]
  rfl

/-- Passing over an entry is the same on the window, also where padding is missing at its end. -/
theorem Shows.advance (h : c.Shows w) (hn : n + alignment < UInt64.size) :
    ∃ c', c.advance n = .ok c' ∧ c'.Shows (w.advance n) := by
  have hinside := h.inside
  have hlt := h.length_lt
  rw [Cursor.advance, align_eq hn, Checked.ok_bind]
  split
  · next hstep =>
      have hall : w.advance n = w.exhaust := by
        have hlength : w.rest.length ≤ aligned n := by
          change w.remaining ≤ aligned n
          rwa [h.remaining_eq]
        rw [Window.advance, List.take_of_length_le hlength, List.drop_of_length_le hlength]
        rfl
      rw [hall]
      exact h.exhaust
  · next hstep =>
      refine ⟨{ c with position := c.position + aligned n, remaining := c.remaining - aligned n },
        ?_, ?_⟩
      · rw [Checked.sum_eq (by omega)]
        rfl
      · refine ⟨?_, hlt, ?_⟩
        · change c.position + aligned n + (c.remaining - aligned n) ≤ c.buffer.length
          omega
        · have htake : (w.rest.take (aligned n)).length = aligned n := by
            have : w.rest.length = c.remaining := h.remaining_eq
            rw [List.length_take]
            omega
          rw [Window.advance, htake, ← h.window_eq]
          simp [window, List.drop_take, List.drop_drop]

/-! ### What is left after a step -/

/-- What comes of aligning a number is the aligned number. -/
theorem align_eq_ok {step : Nat} (h : align n = .ok step) : step = aligned n := by
  rw [align, Checked.bind_eq_ok_iff] at h
  obtain ⟨beyond, hsum, h⟩ := h
  obtain rfl := Checked.sum_eq_ok hsum
  exact (Except.ok.inj h).symm

/-- No octets are left after dropping them. -/
theorem remaining_of_exhaust {c' : Cursor} (h : c.exhaust = .ok c') : c'.remaining = 0 := by
  rw [exhaust, Checked.bind_eq_ok_iff] at h
  obtain ⟨position, -, h⟩ := h
  obtain rfl := Except.ok.inj h
  rfl

/-- After an entry was dropped, fewer octets are left by its aligned length, or none. -/
theorem remaining_of_advance {c' : Cursor} (h : c.advance n = .ok c') :
    c'.remaining = c.remaining - aligned n := by
  rw [advance, Checked.bind_eq_ok_iff] at h
  obtain ⟨step, hstep, h⟩ := h
  obtain rfl := align_eq_ok hstep
  split at h
  · next hle =>
      rw [remaining_of_exhaust h]
      omega
  · rw [Checked.bind_eq_ok_iff] at h
    obtain ⟨position, -, h⟩ := h
    obtain rfl := Except.ok.inj h
    rfl

end Cursor

/-! ### Entries -/

/-- An entry without the first octets of it. -/
def Framing.Entry.drop {η : Type} (e : Framing.Entry η) (n : Nat) : Framing.Entry η :=
  { e with octets := e.octets.drop n }

/-- How the entries of a chain are told apart in a buffer, and which part of each is cut out. -/
structure CheckedFraming (η : Type) extends Framing η where
  /-- Reads a head from its octets, by their indices. -/
  checkedHead? : Bytes → Checked (Option η)
  /-- How many octets at the front of an entry are not cut out. -/
  skip : Nat
  checkedHead?_eq : ∀ bs, checkedHead? bs = .ok (head? bs)
  /-- No more than the head is left out. -/
  skip_le : skip ≤ headSize
  /-- The length of an entry can be rounded up. -/
  declared_lt : ∀ head, declared head + alignment < UInt64.size

namespace CheckedFraming

variable {η : Type} {f : CheckedFraming η} {c c' : Cursor} {w : Window}

/-- Splits the next entry off a buffer. -/
def next? (f : CheckedFraming η) (c : Cursor) :
    Checked (Option (Framing.Entry η) × Cursor) := do
  match ← c.peek? f.headSize with
  | none => return (none, c)
  | some front =>
    match ← f.checkedHead? front with
    | none => return (none, c)
    | some head =>
      if f.declared head < f.headSize ∨ c.remaining < f.declared head then
        return (none, ← c.exhaust)
      else
        let start ← Checked.sum c.position f.skip
        let stop ← Checked.sum c.position (f.declared head)
        let octets ← Checked.range c.buffer start stop
        return (some ⟨head, octets⟩, ← c.advance (f.declared head))

/-- **The next entry is cut out within the buffer.** It is that of the window, and what is left
of the window is left of the buffer. -/
theorem next?_of_shows (h : c.Shows w) :
    ∃ c', f.next? c = .ok ((f.toFraming.next? w).1.map (·.drop f.skip), c') ∧
      c'.Shows (f.toFraming.next? w).2 := by
  obtain ⟨c₀, hexhaust, hshows₀⟩ := h.exhaust
  rw [next?, h.peek?, Checked.ok_bind, Framing.next?]
  cases hfront : w.peek? f.headSize with
  | none => exact ⟨c, rfl, h⟩
  | some front =>
      dsimp only
      rw [f.checkedHead?_eq, Checked.ok_bind, Option.bind_some]
      cases hhead : f.head? front with
      | none => exact ⟨c, rfl, h⟩
      | some head =>
          dsimp only
          -- The two tests of the declared length are one here and two on the window.
          by_cases hshort : f.declared head < f.headSize
          · rw [if_pos (Or.inl hshort), hexhaust, Framing.octets?, if_pos hshort]
            exact ⟨c₀, rfl, hshows₀⟩
          · by_cases hlong : c.remaining < f.declared head
            · have hnone : w.peek? (f.declared head) = none :=
                Window.peek?_eq_none_iff.2 (by rwa [h.remaining_eq])
              rw [if_pos (Or.inr hlong), hexhaust, Framing.octets?, if_neg hshort, hnone]
              exact ⟨c₀, rfl, hshows₀⟩
            · have hle : f.declared head ≤ c.remaining := Nat.le_of_not_lt hlong
              have hskip : f.skip ≤ f.declared head :=
                Nat.le_trans f.skip_le (Nat.le_of_not_lt hshort)
              have hinside := h.inside
              have hlt := h.length_lt
              have hsome : w.peek? (f.declared head) = some (w.rest.take (f.declared head)) :=
                Window.peek?_eq_some_iff.2 ⟨by rwa [h.remaining_eq], rfl⟩
              obtain ⟨c₁, hadvance, hshows₁⟩ := h.advance (f.declared_lt head)
              rw [if_neg (not_or.2 ⟨hshort, hlong⟩), Checked.sum_eq (by omega), Checked.ok_bind,
                Checked.sum_eq (by omega), Checked.ok_bind, h.range hskip hle, Checked.ok_bind,
                hadvance, Framing.octets?, if_neg hshort, hsome]
              exact ⟨c₁, rfl, hshows₁⟩

/-! ### Chains -/

/-- Fewer octets are left after an entry was split off, also of a buffer that is not as it
should be. -/
theorem remaining_lt_of_next? {e : Framing.Entry η} (h : f.next? c = .ok (some e, c')) :
    c'.remaining < c.remaining := by
  rw [next?, Checked.bind_eq_ok_iff] at h
  obtain ⟨front, -, h⟩ := h
  cases front with
  | none => simp at h
  | some front =>
      dsimp only at h
      rw [Checked.bind_eq_ok_iff] at h
      obtain ⟨head, -, h⟩ := h
      cases head with
      | none => simp at h
      | some head =>
          dsimp only at h
          split at h
          · rw [Checked.bind_eq_ok_iff] at h
            obtain ⟨c₀, -, h⟩ := h
            simp at h
          · next hbounds =>
              simp only [Checked.bind_eq_ok_iff] at h
              obtain ⟨start, -, stop, -, octets, -, c₁, hadvance, h⟩ := h
              obtain ⟨-, rfl⟩ := Prod.mk.inj (Except.ok.inj h)
              have hpos := f.headSize_pos
              have hal := le_aligned (f.declared head)
              rw [Cursor.remaining_of_advance hadvance]
              omega

/-- Splits off all entries. -/
def walk (f : CheckedFraming η) (c : Cursor) : Checked (List (Framing.Entry η) × Cursor) :=
  match _h : f.next? c with
  | .error overrun => .error overrun
  | .ok (none, last) => .ok ([], last)
  | .ok (some e, c') => do
    let (later, last) ← f.walk c'
    return (e :: later, last)
termination_by c.remaining
decreasing_by exact remaining_lt_of_next? _h

/-- Splits off entries up to the first that is looked for. -/
def find? (f : CheckedFraming η) (p : Framing.Entry η → Bool) (c : Cursor) :
    Checked (Option (Framing.Entry η)) :=
  match _h : f.next? c with
  | .error overrun => .error overrun
  | .ok (none, _) => .ok none
  | .ok (some e, c') => if p e then .ok (some e) else f.find? p c'
termination_by c.remaining
decreasing_by exact remaining_lt_of_next? _h

/-- Where no entry is found, a walk over the buffer ends. -/
theorem walk_of_none (h : f.next? c = .ok (none, c')) : f.walk c = .ok ([], c') := by
  rw [walk]
  split <;> simp_all

/-- Where an entry is found, a walk over the buffer goes on after it. -/
theorem walk_of_some {e : Framing.Entry η} (h : f.next? c = .ok (some e, c')) :
    f.walk c = (do
      let (later, last) ← f.walk c'
      return (e :: later, last)) := by
  rw [walk]
  split <;> simp_all

/-- Where no entry is found, a search ends without one. -/
theorem find?_of_none {p : Framing.Entry η → Bool} (h : f.next? c = .ok (none, c')) :
    f.find? p c = .ok none := by
  rw [find?]
  split <;> simp_all

/-- An entry that is found is the result of a search, or the search goes on after it. -/
theorem find?_of_some {p : Framing.Entry η → Bool} {e : Framing.Entry η}
    (h : f.next? c = .ok (some e, c')) :
    f.find? p c = if p e then .ok (some e) else f.find? p c' := by
  rw [find?]
  split <;> simp_all

/-- **All entries are cut out within the buffer.** They are those of the window. -/
theorem walk_of_shows (h : c.Shows w) :
    ∃ last, f.walk c = .ok ((f.toFraming.entries w).map (·.drop f.skip), last) ∧
      last.Shows (f.toFraming.left w) := by
  -- The induction is on the walk of the window, where it is known that a step succeeds.
  fun_induction Framing.walk f.toFraming w generalizing c with
  | case1 w last hnone =>
      obtain ⟨c', hnext, hshows⟩ := f.next?_of_shows h
      rw [hnone] at hnext hshows
      rw [Framing.entries_of_none hnone, Framing.left_of_none hnone, walk_of_none hnext]
      exact ⟨c', rfl, hshows⟩
  | case2 w e w' hsome entries last hwalk ih =>
      obtain ⟨c', hnext, hshows⟩ := f.next?_of_shows h
      rw [hsome] at hnext hshows
      obtain ⟨last, hlater, hlast⟩ := ih hshows
      rw [Framing.entries_of_some hsome, Framing.left_of_some hsome, walk_of_some hnext, hlater]
      exact ⟨last, rfl, hlast⟩

/-- **A search finds what it would find among the entries of the window**, each without its skipped
octets. -/
theorem find?_of_shows (h : c.Shows w) (p : Framing.Entry η → Bool) :
    f.find? p c = .ok (((f.toFraming.entries w).map (·.drop f.skip)).find? p) := by
  fun_induction Framing.walk f.toFraming w generalizing c with
  | case1 w last hnone =>
      obtain ⟨c', hnext, hshows⟩ := f.next?_of_shows h
      rw [hnone] at hnext
      rw [Framing.entries_of_none hnone, find?_of_none hnext]
      rfl
  | case2 w e w' hsome entries last hwalk ih =>
      obtain ⟨c', hnext, hshows⟩ := f.next?_of_shows h
      rw [hsome] at hnext hshows
      rw [Framing.entries_of_some hsome, find?_of_some hnext, List.map_cons, List.find?_cons,
        ih hshows]
      dsimp only [Option.map_some]
      split <;> simp_all

end CheckedFraming

end Netlink
