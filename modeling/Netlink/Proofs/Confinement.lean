import Netlink.Proofs.Stepwise
import Netlink.Proofs.Unpacking

/-!
# Confinement of a Walk

A cursor has its whole buffer at hand, but what it reads is decided by the octets of its range
alone. Two cursors on ranges that hold the same octets cannot be told apart by any number of calls,
whatever stands around the ranges, wherever in their buffers they lie, and however they were cut.

A longer range may hold more attributes, and more may be left after each. But those of the shorter
range come first, because an attribute that is split off a window is split off any window that
goes on longer. So an attribute that was found is found again.

## Main results

* `Framing.next?_congr`, `Chain.Alike.next?`: one call sees nothing but the octets that are left.
* `Chain.Alike.calls_eq`, `Chain.Alike.find?_eq`: neither do many calls, nor a search.
* `Chain.attributes_isPrefix`, `Chain.find?_of_isPrefix`: what a longer chain holds, and what is found
  in it.
* `Chain.readsAs_ofRange`: what is read through a cursor, call by call and as a whole.
* `Chain.confined_and_monotone`: **a walk depends on its range only, and grows with it.**
-/

namespace Netlink

namespace Framing

variable {η : Type} {w v : Window}

/-- Windows with the same octets give the same entry, and are left with the same octets. -/
theorem next?_congr (f : Framing η) (h : w.rest = v.rest) :
    (f.next? w).1 = (f.next? v).1 ∧ (f.next? w).2.rest = (f.next? v).2.rest := by
  obtain ⟨position, rest⟩ := w
  obtain ⟨position', rest'⟩ := v
  obtain rfl : rest = rest' := h
  simp only [next?, octets?, Window.peek?]
  split
  · exact ⟨rfl, rfl⟩
  · split
    · exact ⟨rfl, rfl⟩
    · exact ⟨rfl, rfl⟩

/-- Windows with the same octets have the same entries. -/
theorem entries_congr (f : Framing η) (h : w.rest = v.rest) : f.entries w = f.entries v := by
  have hle : w.rest <+: v.rest := h ▸ List.prefix_rfl
  have hge : v.rest <+: w.rest := h ▸ List.prefix_rfl
  exact (entries_isPrefix hle).eq_of_length_le (entries_isPrefix hge).length_le

end Framing

namespace Chain

/-! ### Chains that hold the same octets -/

/-- What the next `n` calls on a chain give, each with how many octets are left after it. -/
def calls : Nat → Chain → List (Option Attribute × Nat)
  | 0, _ => []
  | n + 1, c => (c.next?.1, c.next?.2.remaining) :: calls n c.next?.2

/-- Two chains hold the same octets, at whatever offsets, and have heads of the same size. -/
structure Alike (c d : Chain) : Prop where
  headSize_eq : c.headSize = d.headSize
  rest_eq : c.window.rest = d.window.rest

variable {c d : Chain}

namespace Alike

/-- As many octets are left of one as of the other, if two chains hold the same. -/
theorem remaining_eq (h : c.Alike d) : c.remaining = d.remaining :=
  congrArg List.length h.rest_eq

/-- One call gives the same attribute, and leaves chains that hold the same octets again. -/
theorem next? (h : c.Alike d) : c.next?.1 = d.next?.1 ∧ c.next?.2.Alike d.next?.2 := by
  obtain ⟨w, headSize⟩ := c
  obtain ⟨v, headSize'⟩ := d
  obtain ⟨rfl, hrest⟩ : headSize = headSize' ∧ w.rest = v.rest := ⟨h.headSize_eq, h.rest_eq⟩
  obtain ⟨hentry, hlater⟩ := (framing headSize).next?_congr hrest
  exact ⟨congrArg (Option.map _) hentry, rfl, hlater⟩

/-- **Any number of calls give the same on chains with the same octets**, and leave as much. -/
theorem calls_eq (h : c.Alike d) (n : Nat) : calls n c = calls n d := by
  induction n generalizing c d with
  | zero => rfl
  | succ n ih =>
      obtain ⟨hitem, hlater⟩ := h.next?
      rw [calls, calls, hitem, hlater.remaining_eq, ih hlater]

/-- Chains with the same octets hold the same attributes. -/
theorem attributes_eq (h : c.Alike d) : c.attributes = d.attributes := by
  obtain ⟨w, headSize⟩ := c
  obtain ⟨v, headSize'⟩ := d
  obtain ⟨rfl, hrest⟩ : headSize = headSize' ∧ w.rest = v.rest := ⟨h.headSize_eq, h.rest_eq⟩
  exact congrArg (List.map _) ((framing headSize).entries_congr hrest)

/-- A search finds the same in chains with the same octets. -/
theorem find?_eq (h : c.Alike d) (type : UInt16) : c.find? type = d.find? type := by
  rw [Chain.find?, Chain.find?, h.attributes_eq]

end Alike

/-! ### Longer chains -/

/-- The attributes of a chain come first in one that goes on longer. -/
theorem attributes_isPrefix (hsize : c.headSize = d.headSize)
    (hrest : c.window.rest <+: d.window.rest) : c.attributes <+: d.attributes := by
  obtain ⟨w, headSize⟩ := c
  obtain ⟨v, headSize'⟩ := d
  obtain rfl : headSize = headSize' := hsize
  exact (Framing.entries_isPrefix hrest).map _

/-- An attribute that is found in a chain is found in one that goes on longer. -/
theorem find?_of_isPrefix (h : c.attributes <+: d.attributes) {type : UInt16} {a : Attribute}
    (hfind : c.find? type = some a) : d.find? type = some a :=
  h.find?_eq_some hfind

/-- The attribute that the next call gives is found by its type. -/
theorem find?_of_next? {a : Attribute} (h : c.next?.1 = some a) :
    c.find? a.head.type = some a := by
  have hfirst : c.attributes[0]? = some a := (next?_after 0 c).symm.trans h
  obtain ⟨later, hattributes⟩ := List.head?_eq_some_iff.1 (List.head?_eq_getElem?.trans hfirst)
  rw [find?, hattributes]
  exact List.find?_cons_of_pos (by simp)

/-! ### Through a cursor -/

/-- Splits the next attribute, with heads of the given size, off a buffer. -/
def checkedNext? (headSize : Nat) (cursor : Cursor) : Checked (Option Attribute × Cursor) := do
  let (entry, later) ← (checkedFraming headSize).next? cursor
  return (entry.map ofCut, later)

/-- What the next `n` calls on a cursor give, each with how many octets are left after it. -/
def checkedCalls (headSize : Nat) : Nat → Cursor → Checked (List (Option Attribute × Nat))
  | 0, _ => return []
  | n + 1, cursor => do
    let (found, later) ← checkedNext? headSize cursor
    return (found, later.remaining) :: (← checkedCalls headSize n later)

variable {cursor : Cursor}

/-- The next attribute is split off through a cursor as it is split off the chain that the cursor
shows. -/
theorem checkedNext?_of_shows (h : cursor.Shows c.window) :
    ∃ later, checkedNext? c.headSize cursor = .ok (c.next?.1, later) ∧
      later.Shows c.next?.2.window := by
  obtain ⟨later, hnext, hshows⟩ := (checkedFraming c.headSize).next?_of_shows h
  refine ⟨later, ?_, hshows⟩
  rw [checkedNext?, hnext, Checked.ok_bind]
  dsimp only
  rw [Option.map_map]
  rfl

/-- Any number of calls give through a cursor what they give on the chain that it shows. -/
theorem checkedCalls_of_shows (h : cursor.Shows c.window) (n : Nat) :
    checkedCalls c.headSize n cursor = .ok (calls n c) := by
  induction n generalizing cursor c with
  | zero => rfl
  | succ n ih =>
      obtain ⟨later, hnext, hshows⟩ := checkedNext?_of_shows h
      have hremaining : c.next?.2.remaining = later.remaining := hshows.remaining_eq
      -- the size of the heads is that of the chain that is left
      have hlater : checkedCalls c.headSize n later = .ok (calls n c.next?.2) := ih hshows
      rw [checkedCalls, hnext, Checked.ok_bind, calls, hremaining]
      dsimp only
      rw [hlater]
      rfl

/-- Every access through a cursor succeeds, and what is read is what the chain holds: call by call,
all attributes, and the first of a type. -/
structure ReadsAs (cursor : Cursor) (c : Chain) : Prop where
  remaining : cursor.remaining = c.remaining
  calls : ∀ n, checkedCalls c.headSize n cursor = .ok (calls n c)
  attributes : checkedAttributes c.headSize cursor = .ok c.attributes
  find : ∀ type, checkedFind? c.headSize cursor type = .ok (c.find? type)

/-- **What a cursor shows is read through it**, in each of the three ways. -/
theorem readsAs_of_shows (h : cursor.Shows c.window) : ReadsAs cursor c where
  remaining := h.remaining_eq.symm
  calls := checkedCalls_of_shows h
  attributes := checkedAttributes_of_shows h c.headSize
  find := checkedFind?_of_shows h c.headSize

/-- A cursor on a range of a buffer reads the chain there. -/
theorem readsAs_ofRange {buffer : Bytes} (h : buffer.length < UInt64.size)
    (start length headSize : Nat) :
    ReadsAs (.ofRange buffer start length) (ofRange buffer start length headSize) :=
  readsAs_of_shows (Cursor.shows_ofRange h start length)

/-- A cursor that reads a chain reads any other that holds the same octets. -/
theorem ReadsAs.of_alike (h : ReadsAs cursor c) (hd : c.Alike d) : ReadsAs cursor d where
  remaining := h.remaining.trans hd.remaining_eq
  calls n := by
    rw [← hd.headSize_eq, ← hd.calls_eq]
    exact h.calls n
  attributes := by
    rw [← hd.headSize_eq, ← hd.attributes_eq]
    exact h.attributes
  find type := by
    rw [← hd.headSize_eq, ← hd.find?_eq]
    exact h.find type

/-! ### Two ranges -/

/-- **A walk depends on its range only, and grows with it.** Where two ranges, each cut to its
buffer, hold the same octets, all calls give the same and leave as much, the same attributes are
found, and a cursor on the one reads what a cursor on the other reads. Where a range is made longer,
its attributes come first, and what was found in it is found again. -/
theorem confined_and_monotone (headSize : Nat) :
    (∀ (buffer buffer' : Bytes) (start start' length length' : Nat),
        (Window.ofRange buffer start length).rest = (Window.ofRange buffer' start' length').rest →
        let c := ofRange buffer start length headSize
        let c' := ofRange buffer' start' length' headSize
        (c.remaining = c'.remaining ∧ (∀ n, calls n c = calls n c') ∧
          ∀ type, c.find? type = c'.find? type) ∧
        (buffer.length < UInt64.size → buffer'.length < UInt64.size →
          ReadsAs (.ofRange buffer start length) c ∧
            ReadsAs (.ofRange buffer' start' length') c)) ∧
      ∀ (buffer : Bytes) (start length length' : Nat), length ≤ length' →
        let c := ofRange buffer start length headSize
        let c' := ofRange buffer start length' headSize
        c.attributes <+: c'.attributes ∧
          ∀ type a, c.find? type = some a → c'.find? type = some a := by
  constructor
  · intro buffer buffer' start start' length length' hrest c c'
    have halike : c.Alike c' := ⟨rfl, hrest⟩
    refine ⟨⟨halike.remaining_eq, halike.calls_eq, halike.find?_eq⟩, fun hbuffer hbuffer' => ?_⟩
    exact ⟨readsAs_ofRange hbuffer start length headSize,
      (readsAs_ofRange hbuffer' start' length' headSize).of_alike ⟨rfl, hrest.symm⟩⟩
  · intro buffer start length length' hlength c c'
    have hrest : c.window.rest <+: c'.window.rest :=
      List.take_prefix_take_left hlength
    have hattributes : c.attributes <+: c'.attributes := attributes_isPrefix rfl hrest
    exact ⟨hattributes, fun type a => find?_of_isPrefix hattributes⟩

/-- An attribute of one octet and a padded end, once at the end of its buffer and once before an
attribute that its range does not hold; and the same buffer with that attribute in the range. -/
theorem confined_and_monotone_padding :
    ∃ buffer buffer' : Bytes,
      buffer = [5, 0, 1, 0, 65, 0, 0, 0] ∧
      buffer' = [9, 9, 5, 0, 1, 0, 65, 0, 0, 0, 4, 0, 2, 0] ∧
      (Window.ofRange buffer 0 100).rest = (Window.ofRange buffer' 2 8).rest ∧
      calls 2 (ofRange buffer 0 100 4) = [(some ⟨⟨5, 1⟩, [65]⟩, 0), (none, 0)] ∧
      ReadsAs (.ofRange buffer' 2 8) (ofRange buffer 0 100 4) ∧
      (ofRange buffer' 2 8 4).find? 1 = some ⟨⟨5, 1⟩, [65]⟩ ∧
      (ofRange buffer' 2 12 4).find? 1 = some ⟨⟨5, 1⟩, [65]⟩ := by
  have hrest : (Window.ofRange [5, 0, 1, 0, 65, 0, 0, 0] 0 100).rest
      = (Window.ofRange [9, 9, 5, 0, 1, 0, 65, 0, 0, 0, 4, 0, 2, 0] 2 8).rest := by
    decide
  obtain ⟨⟨-, hcalls, hfind⟩, hreads⟩ := (confined_and_monotone 4).1 _ _ 0 2 100 8 hrest
  have hlonger := (confined_and_monotone 4).2 [9, 9, 5, 0, 1, 0, 65, 0, 0, 0, 4, 0, 2, 0] 2 8 12
    (by decide)
  have hfound : (ofRange [9, 9, 5, 0, 1, 0, 65, 0, 0, 0, 4, 0, 2, 0] 2 8 4).find? 1
      = some ⟨⟨5, 1⟩, [65]⟩ :=
    find?_of_next? (a := ⟨⟨5, 1⟩, [65]⟩) (by decide)
  refine ⟨_, _, rfl, rfl, hrest, ?_, (hreads (by decide) (by decide)).2, hfound,
    hlonger.2 1 _ hfound⟩
  rw [calls]
  decide

end Chain

end Netlink
