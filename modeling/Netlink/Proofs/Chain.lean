import Netlink.Wire.Framing

/-!
# Chains

A chain is what is written so that a framing reads it: entries one after the other, each
padded to the next boundary. This module says that it is read so. `Framing.next?` is opened here
once and for all: too few octets for a head are left as they are, an entry that is refused
empties the window, and any other is split off. Nothing but its own octets decides whether an
entry is found, so a lemma on one entry with anything after it carries over to a chain with
anything after it, and the padding of the last entry may be missing.

## Main results

* `next?_of_short`, `next?_of_refused`, `next?_eq_some_iff`: one call, by what is in the window.
* `next?_of_proper`: an entry at the front of a window is split off.
* `entries_chain`: **a padded chain is read entry by entry**, and what follows it is read
  as if it stood alone.
* `entries_chain_concat`: a chain whose last entry is not padded is read as a whole.
* `left_chain`, `left_chain_concat`: what is left of a window when a chain was read.
-/

namespace Netlink

/-! ### Padding -/

/-- After a padded run, padding starts anew. -/
theorem padded_padded_append (a b : Bytes) : padded (padded a ++ b) = padded a ++ padded b := by
  have hmod := aligned_mod a.length
  have hle := le_aligned b.length
  have hlength : aligned (aligned a.length + b.length) - (aligned a.length + b.length)
      = aligned b.length - b.length := by
    rw [aligned, aligned, alignment]
    rw [aligned, alignment] at hmod
    rw [aligned, alignment]
    omega
  rw [padded, List.length_append, length_padded, hlength, List.append_assoc]
  rfl

theorem padded_nil : padded [] = [] := rfl

/-- What is padded needs no padding. -/
theorem padded_padded (bs : Bytes) : padded (padded bs) = padded bs := by
  have h := padded_padded_append bs []
  rwa [padded_nil, List.append_nil] at h

/-- To advance over some octets passes over their padding too. -/
theorem Window.advance_padded (position : Nat) (octets tail : Bytes) :
    Window.advance ⟨position, padded octets ++ tail⟩ octets.length
      = ⟨position + (padded octets).length, tail⟩ := by
  rw [advance, ← length_padded]
  simp

/-- To advance over the last octets of a window leaves nothing, also where their padding is
missing. -/
theorem Window.advance_all (position : Nat) (octets : Bytes) :
    Window.advance ⟨position, octets⟩ octets.length = ⟨position + octets.length, []⟩ := by
  have hle := le_aligned octets.length
  rw [advance, List.take_of_length_le hle, List.drop_of_length_le hle]

namespace Framing

variable {η : Type} {f : Framing η}

/-! ### One call -/

section OneCall

variable {w w' : Window} {e : Entry η}

/-- Too few octets for a head are left as they are. -/
theorem next?_of_short (h : w.remaining < f.headSize) : f.next? w = (none, w) := by
  rw [next?, Window.peek?_eq_none_iff.2 h]
  rfl

/-- An entry of which the declared length does not cover its head, or is more than what is left,
empties the window. -/
theorem next?_of_refused {head : η} (hsize : f.headSize ≤ w.remaining)
    (hhead : f.head? (w.rest.take f.headSize) = some head)
    (hrefused : f.declared head < f.headSize ∨ w.remaining < f.declared head) :
    f.next? w = (none, w.exhaust) := by
  have hoctets : f.octets? w head = none := by
    rw [octets?]
    split
    · rfl
    · next hlow => exact Window.peek?_eq_none_iff.2 (hrefused.resolve_left hlow)
  rw [next?, Window.peek?_eq_some_iff.2 ⟨hsize, rfl⟩, Option.bind_some, hhead]
  dsimp only
  rw [hoctets]

/-- An entry is split off exactly if its declared length covers its head and is no more than
what is left; and then it is that many octets, and the window moves to the next boundary. -/
theorem next?_eq_some_iff :
    f.next? w = (some e, w') ↔
      f.headSize ≤ f.declared e.head ∧ f.declared e.head ≤ w.remaining ∧
        f.head? (w.rest.take f.headSize) = some e.head ∧
        e.octets = w.rest.take (f.declared e.head) ∧ w' = w.advance (f.declared e.head) := by
  constructor
  · intro h
    rw [next?] at h
    split at h
    · simp at h
    · next head hhead =>
        obtain ⟨front, hfront, hhead⟩ := Option.bind_eq_some_iff.1 hhead
        obtain ⟨-, rfl⟩ := Window.peek?_eq_some_iff.1 hfront
        split at h
        · simp at h
        · next octets hoctets =>
            obtain ⟨he, rfl⟩ := Prod.mk.inj h
            obtain rfl := Option.some.inj he
            rw [octets?] at hoctets
            split at hoctets
            · cases hoctets
            · next hlow =>
                obtain ⟨hhigh, rfl⟩ := Window.peek?_eq_some_iff.1 hoctets
                exact ⟨Nat.le_of_not_lt hlow, hhigh, hhead, rfl, rfl⟩
  · rintro ⟨hlow, hhigh, hhead, hoctets, rfl⟩
    have hfront := Window.peek?_eq_some_iff.2 ⟨Nat.le_trans hlow hhigh, rfl⟩
    have hpeek : f.octets? w e.head = some e.octets := by
      rw [octets?, if_neg (Nat.not_lt.2 hlow)]
      exact Window.peek?_eq_some_iff.2 ⟨hhigh, hoctets.symm⟩
    rw [next?, hfront, Option.bind_some, hhead]
    dsimp only
    rw [hpeek]

/-- A call that gives nothing leaves a window of which the next call leaves all. -/
theorem next?_of_end (h : f.next? w = (none, w')) : f.next? w' = (none, w') := by
  have hempty : f.next? w.exhaust = (none, w.exhaust) := next?_of_short f.headSize_pos
  have hw' : w' = w ∨ w' = w.exhaust := by
    rw [next?] at h
    split at h
    · exact .inl (Prod.mk.inj h).2.symm
    · split at h
      · exact .inr (Prod.mk.inj h).2.symm
      · simp at h
  rcases hw' with rfl | rfl
  · exact h
  · exact hempty

end OneCall

/-! ### The entries of a window -/

/-- Where no entry is found, a walk ends. -/
theorem walk_of_none {w w' : Window} (h : f.next? w = (none, w')) : f.walk w = ([], w') := by
  rw [walk]
  split <;> simp_all

/-- Where an entry is found, a walk goes on after it. -/
theorem walk_of_some {w w' : Window} {e : Entry η} (h : f.next? w = (some e, w')) :
    f.walk w = ((e, w') :: (f.walk w').1, (f.walk w').2) := by
  rw [walk]
  split
  · simp_all
  · next e₁ w₁ hn =>
      rw [h] at hn
      obtain ⟨rfl, rfl⟩ : e = e₁ ∧ w' = w₁ := by simpa using hn
      rfl

/-- Where no entry is found, there is none. -/
theorem entries_of_none {w w' : Window} (h : f.next? w = (none, w')) : f.entries w = [] := by
  rw [entries, walk_of_none h]
  rfl

/-- An entry that is found is the first, and the others are found after it. -/
theorem entries_of_some {w w' : Window} {e : Entry η} (h : f.next? w = (some e, w')) :
    f.entries w = e :: f.entries w' := by
  rw [entries, walk_of_some h]
  rfl

/-- What is left of a window when no entry is found in it any more. -/
def left (f : Framing η) (w : Window) : Window := (f.walk w).2

/-- What is left at the end of a walk is what the last call leaves. -/
theorem left_of_none {w w' : Window} (h : f.next? w = (none, w')) : f.left w = w' := by
  rw [left, walk_of_none h]

/-- What is left at the end of a walk is what is left after the entries that follow the first. -/
theorem left_of_some {w w' : Window} {e : Entry η} (h : f.next? w = (some e, w')) :
    f.left w = f.left w' := by
  rw [left, walk_of_some h, left]

/-- Nothing is found where no octets are left, and the window stays as it is. -/
theorem next?_nil (f : Framing η) (position : Nat) :
    f.next? ⟨position, []⟩ = (none, ⟨position, []⟩) := by
  have hpeek : (⟨position, []⟩ : Window).peek? f.headSize = none :=
    Window.peek?_eq_none_iff.2 f.headSize_pos
  rw [next?, hpeek]
  rfl

theorem entries_nil (f : Framing η) (position : Nat) : f.entries ⟨position, []⟩ = [] :=
  entries_of_none (f.next?_nil position)

theorem left_nil (f : Framing η) (position : Nat) : f.left ⟨position, []⟩ = ⟨position, []⟩ :=
  left_of_none (f.next?_nil position)

/-! ### Proper entries -/

/-- An entry is proper if its octets start with its head and are as many as the head
declares. -/
structure Entry.Proper (f : Framing η) (e : Entry η) : Prop where
  headSize_le : f.headSize ≤ e.octets.length
  head_eq : f.head? (e.octets.take f.headSize) = some e.head
  declared_eq : f.declared e.head = e.octets.length

/-- A proper entry at the front of a window is split off, whatever follows. -/
theorem next?_of_proper {e : Entry η} (he : e.Proper f) (position : Nat) (tail : Bytes) :
    f.next? ⟨position, e.octets ++ tail⟩
      = (some e, Window.advance ⟨position, e.octets ++ tail⟩ e.octets.length) := by
  refine next?_eq_some_iff.2 ⟨?_, ?_, ?_, ?_, ?_⟩
  · rw [he.declared_eq]
    exact he.headSize_le
  · rw [he.declared_eq]
    simp [Window.remaining]
  · rw [List.take_append_of_le_length he.headSize_le]
    exact he.head_eq
  · rw [he.declared_eq, List.take_left]
  · rw [he.declared_eq]

/-- A padded entry is split off together with its padding. -/
theorem next?_padded {e : Entry η} (he : e.Proper f) (position : Nat) (tail : Bytes) :
    f.next? ⟨position, padded e.octets ++ tail⟩
      = (some e, ⟨position + (padded e.octets).length, tail⟩) := by
  rw [← Window.advance_padded, padded, List.append_assoc, next?_of_proper he]

/-- An entry without padding is split off where nothing follows it. -/
theorem next?_last {e : Entry η} (he : e.Proper f) (position : Nat) :
    f.next? ⟨position, e.octets⟩ = (some e, ⟨position + e.octets.length, []⟩) := by
  have hnext := next?_of_proper he position []
  rwa [List.append_nil, Window.advance_all] at hnext

/-! ### Chains of entries -/

/-- **A padded chain is read entry by entry**, and then what follows it. -/
theorem entries_chain {es : List (Entry η)} (hes : ∀ e ∈ es, e.Proper f) (position : Nat)
    (tail : Bytes) :
    f.entries ⟨position, es.flatMap (fun e => padded e.octets) ++ tail⟩
      = es ++ f.entries ⟨position + (es.flatMap fun e => padded e.octets).length, tail⟩ := by
  induction es generalizing position with
  | nil => simp
  | cons e es ih =>
      obtain ⟨he, hes⟩ := List.forall_mem_cons.1 hes
      rw [List.flatMap_cons, List.append_assoc, entries_of_some (next?_padded he position _),
        ih hes, List.cons_append, List.length_append, Nat.add_assoc]

/-- What is left after a padded chain is what is left of what follows it. -/
theorem left_chain {es : List (Entry η)} (hes : ∀ e ∈ es, e.Proper f) (position : Nat)
    (tail : Bytes) :
    f.left ⟨position, es.flatMap (fun e => padded e.octets) ++ tail⟩
      = f.left ⟨position + (es.flatMap fun e => padded e.octets).length, tail⟩ := by
  induction es generalizing position with
  | nil => simp
  | cons e es ih =>
      obtain ⟨he, hes⟩ := List.forall_mem_cons.1 hes
      rw [List.flatMap_cons, List.append_assoc, left_of_some (next?_padded he position _),
        ih hes, List.length_append, Nat.add_assoc]

/-- The last entry of a chain needs no padding. -/
theorem entries_chain_concat {es : List (Entry η)} {e : Entry η}
    (hes : ∀ e₁ ∈ es ++ [e], e₁.Proper f) (position : Nat) :
    f.entries ⟨position, es.flatMap (fun e => padded e.octets) ++ e.octets⟩ = es ++ [e] := by
  obtain ⟨hes, he⟩ := List.forall_mem_append.1 hes
  have hlast := next?_last (he e (List.mem_singleton_self e))
    (position + (es.flatMap fun e => padded e.octets).length)
  rw [entries_chain hes, entries_of_some hlast, entries_nil]

/-- Nothing is left after a chain whose last entry is not padded. -/
theorem left_chain_concat {es : List (Entry η)} {e : Entry η}
    (hes : ∀ e₁ ∈ es ++ [e], e₁.Proper f) (position : Nat) :
    f.left ⟨position, es.flatMap (fun e => padded e.octets) ++ e.octets⟩
      = ⟨position + (es.flatMap fun e => padded e.octets).length + e.octets.length, []⟩ := by
  obtain ⟨hes, he⟩ := List.forall_mem_append.1 hes
  have hlast := next?_last (he e (List.mem_singleton_self e))
    (position + (es.flatMap fun e => padded e.octets).length)
  rw [left_chain hes, left_of_some hlast, left_nil]

end Framing

end Netlink
