import Mathlib.Data.List.Infix
import Mathlib.Logic.Function.Iterate
import Netlink.Attribute.Chain
import Netlink.Datagram.Basic
import Netlink.Proofs.Chain

/-!
# Walking Step by Step

A walk is made of calls, each of which splits one entry off what the call before it left. What
a walk gives at once is followed here call by call: the entries in order, and then nothing for
ever, with nothing changed any more.

Nothing but the octets of a window decides what is split off, and of these only what the entry
declares. So a window that goes on longer holds the same entries first.

## Main results

* `Framing.next?_after`, `Framing.after_of_end`: **each call gives the entry that comes next**,
  and a call after the end changes nothing.
* `Framing.entries_isPrefix`: the entries of a window come first in a longer one.
* `Framing.headSize_mul_length_entries_le`: there is room for the heads of all entries.
* `Window.advance_between`: passing over an entry, by offsets into the buffer.
-/

namespace Netlink

/-! ### Windows between two offsets -/

namespace Window

/-- The window on what a buffer holds from one offset up to another. -/
def between (buffer : Bytes) (start stop : Nat) : Window where
  position := min start stop
  rest := (buffer.take stop).drop start

variable {buffer : Bytes} {start stop length : Nat}

/-- The window on a whole buffer goes from its start to its end. -/
theorem whole_eq_between (buffer : Bytes) : whole buffer = between buffer 0 buffer.length := by
  simp [whole, between]

/-- A range of a buffer lies between its start and its end, both cut to the buffer. -/
theorem ofRange_eq_between (buffer : Bytes) (start length : Nat) :
    ofRange buffer start length
      = between buffer (min start buffer.length)
          (min start buffer.length + min length (buffer.length - start)) := by
  have hposition : min (min start buffer.length)
      (min start buffer.length + min length (buffer.length - start)) = min start buffer.length :=
    Nat.min_eq_left (Nat.le_add_right _ _)
  rw [ofRange, between, hposition, List.drop_take, Nat.add_sub_cancel_left]
  rcases Nat.le_total start buffer.length with hle | hle
  · rw [Nat.min_eq_left hle, ← List.length_drop, List.take_eq_take_min]
  · simp [Nat.min_eq_right hle, List.drop_eq_nil_of_le hle]

/-- Between two offsets of a buffer there are as many octets as they are apart. -/
theorem remaining_between (hstop : stop ≤ buffer.length) :
    (between buffer start stop).remaining = stop - start := by
  rw [remaining, between, List.length_drop, List.length_take, Nat.min_eq_left hstop]

/-- What is taken of a window is taken of the buffer. -/
theorem take_rest_between {n : Nat} (hn : start + n ≤ stop) :
    (between buffer start stop).rest.take n = (buffer.drop start).take n := by
  rw [between, List.drop_take, List.take_take, Nat.min_eq_left (by omega)]

/-- The next entry starts at the aligned end of this one, or beyond the window. -/
theorem advance_between (hstop : stop ≤ buffer.length) (n : Nat) :
    (between buffer start stop).advance n = between buffer (start + aligned n) stop := by
  have hremaining : ((between buffer start stop).rest.drop 0).length = stop - start :=
    remaining_between hstop
  rw [List.drop_zero] at hremaining
  rw [advance, List.length_take, hremaining]
  simp only [between, List.drop_drop, mk.injEq, and_true]
  omega

end Window

namespace Framing

variable {η : Type} {f : Framing η} {w w' : Window} {e : Entry η}

/-! ### Call after call -/

/-- What is left of a window after `n` calls. -/
def after (f : Framing η) (n : Nat) (w : Window) : Window := (fun w => (f.next? w).2)^[n] w

/-- What several calls leave is what the later ones leave after the first. -/
theorem after_succ (f : Framing η) (n : Nat) (w : Window) :
    f.after (n + 1) w = f.after n (f.next? w).2 :=
  Function.iterate_succ_apply ..

/-- A call that finds nothing and leaves the window as it is does so again. -/
theorem after_of_next?_eq_none (h : f.next? w = (none, w)) (n : Nat) : f.after n w = w :=
  Function.iterate_fixed (congrArg Prod.snd h) n

/-- **Each call gives the entry that comes next**, if there is one. -/
theorem next?_after (f : Framing η) (n : Nat) (w : Window) :
    (f.next? (f.after n w)).1 = (f.entries w)[n]? := by
  induction n generalizing w with
  | zero =>
      match h : f.next? w with
      | (none, w') =>
          rw [entries_of_none h]
          rfl
      | (some e, w') =>
          rw [entries_of_some h]
          rfl
  | succ n ih =>
      rw [after_succ, ih]
      match h : f.next? w with
      | (none, w') =>
          rw [entries_of_none h, entries_of_none (next?_of_end h)]
          rfl
      | (some e, w') =>
          rw [entries_of_some h]
          rfl

/-- The call after the last entry leaves what is left of the walk, and further calls do too. -/
theorem after_of_end (f : Framing η) (n : Nat) (w : Window) :
    f.after ((f.entries w).length + 1 + n) w = f.left w := by
  fun_induction walk f w with
  | case1 w last hnone =>
      rw [entries_of_none hnone, left_of_none hnone, List.length_nil, Nat.zero_add, Nat.add_comm,
        after_succ, hnone]
      exact after_of_next?_eq_none (next?_of_end hnone) n
  | case2 w e w' hsome entries last hwalk ih =>
      rw [entries_of_some hsome, left_of_some hsome, List.length_cons, Nat.add_right_comm,
        after_succ, hsome]
      exact ih

/-! ### How many entries there are -/

/-- The entries of a window have room in it for their heads. Only the last can lack padding. -/
theorem headSize_mul_length_entries_le (f : Framing η) (w : Window) :
    f.headSize * (f.entries w).length ≤ w.remaining := by
  fun_induction walk f w with
  | case1 w last hnone => simp [entries_of_none hnone]
  | case2 w e w' hsome entries last hwalk ih =>
      obtain ⟨hlow, hhigh, -, -, rfl⟩ := next?_eq_some_iff.1 hsome
      have hal := le_aligned (f.declared e.head)
      rw [Window.remaining_advance] at ih
      rw [entries_of_some hsome, List.length_cons, Nat.mul_succ]
      omega

/-! ### Longer windows -/

/-- An entry is split off a longer window too, and leaves a longer window. -/
theorem next?_of_isPrefix {v : Window} (h : w.rest <+: v.rest) (hsome : f.next? w = (some e, w')) :
    ∃ v', f.next? v = (some e, v') ∧ w'.rest <+: v'.rest := by
  obtain ⟨hlow, hhigh, hhead, hoctets, rfl⟩ := next?_eq_some_iff.1 hsome
  have htake {n : Nat} (hn : n ≤ w.remaining) : v.rest.take n = w.rest.take n := by
    obtain ⟨later, hlater⟩ := h
    rw [← hlater, List.take_append_of_le_length hn]
  refine ⟨v.advance (f.declared e.head), next?_eq_some_iff.2 ⟨hlow, ?_, ?_, ?_, rfl⟩, ?_⟩
  · exact Nat.le_trans hhigh h.length_le
  · rw [htake (Nat.le_trans hlow hhigh), hhead]
  · rw [htake hhigh, hoctets]
  · exact h.drop _

/-- **The entries of a window come first in a longer one.** -/
theorem entries_isPrefix {v : Window} (h : w.rest <+: v.rest) : f.entries w <+: f.entries v := by
  -- The induction is on the walk of the shorter window. Wherever that ends, what it gave so far
  -- was split off the longer one too.
  fun_induction walk f w generalizing v with
  | case1 w last hnone =>
      rw [entries_of_none hnone]
      exact List.nil_prefix
  | case2 w e w' hsome entries last hwalk ih =>
      obtain ⟨v', hsome', hrest⟩ := next?_of_isPrefix h hsome
      rw [entries_of_some hsome, entries_of_some hsome', List.prefix_cons_inj]
      exact ih hrest

end Framing

/-! ### Messages and attributes -/

namespace Datagram

/-- What is left of a datagram after `n` calls for the next message. -/
def after (n : Nat) (w : Window) : Window := (fun w => (next? w).2)^[n] w

/-- What calls on a datagram leave is what calls of its framing leave. -/
theorem after_eq (n : Nat) (w : Window) : after n w = framing.after n w := rfl

/-- Each call gives the message that comes next, if there is one. -/
theorem next?_after (n : Nat) (datagram : Bytes) :
    (next? (after n (.whole datagram))).1 = (messages datagram)[n]? := by
  rw [messages, List.getElem?_map, ← Framing.next?_after]
  rfl

end Datagram

namespace Chain

variable {c : Chain}

/-- What is left of a chain after `n` calls for the next attribute. -/
def after (n : Nat) (c : Chain) : Chain := (fun c => c.next?.2)^[n] c

/-- What calls on a chain leave is what calls of its framing leave of the window. -/
theorem after_eq (n : Nat) (c : Chain) :
    c.after n = { c with window := (framing c.headSize).after n c.window } := by
  induction n generalizing c with
  | zero => rfl
  | succ n ih =>
      rw [after, Function.iterate_succ_apply, ← after, ih, Framing.after_succ]
      rfl

/-- Each call gives the attribute that comes next, if there is one. -/
theorem next?_after (n : Nat) (c : Chain) : (c.after n).next?.1 = c.attributes[n]? := by
  rw [after_eq, attributes, List.getElem?_map, ← Framing.next?_after]
  rfl

end Chain

end Netlink
