import Netlink.Proofs.Stepwise

/-!
# The Grammar of a Chain

What a chain of attributes is, said by offsets into its buffer and without the walk. At an
offset stand two little-endian words, the length of an attribute and its type. The attribute is
there if its length covers the head and ends within the range; its value is what lies between
the two, and the next offset is the boundary after it. A chain ends at the first offset where too
little is left for a head, or where the length is refused.

A range spells exactly one list of attributes, whatever stands in it, and that is the list that
the walk gives.

## Main results

* `Chain.Spells.unique`: the grammar is unambiguous.
* `Chain.next?_between_cases`: one call on a chain, by offsets.
* `Chain.spells_iff_walk`: **a walk gives exactly what its range spells**, and its calls give
  that in order and then nothing for ever.
-/

namespace Netlink.Chain

variable {buffer : Bytes} {size offset stop : Nat}

/-! ### What stands at an offset -/

/-- The little-endian word of two octets at an offset. It is asked for where there are two. -/
def wordAt (buffer : Bytes) (offset : Nat) : Nat :=
  (buffer.getD offset 0).toNat + 256 * (buffer.getD (offset + 1) 0).toNat

/-- The attribute at an offset, with a head of `size` octets: its length and its type are the
first two words there, and its value is what follows the head. -/
def attributeAt (buffer : Bytes) (size offset : Nat) : Attribute where
  head := ⟨.ofNat (wordAt buffer offset), .ofNat (wordAt buffer (offset + 2))⟩
  value := (buffer.drop (offset + size)).take (wordAt buffer offset - size)

/-- From an offset up to a stop, a buffer spells these attributes with heads of `size` octets, and
then no other: so many octets are left. -/
inductive Spells (buffer : Bytes) (size stop : Nat) : Nat → List Attribute → Nat → Prop
  /-- Too few octets for a head are left as they are. Where the padding of an attribute went
  beyond the stop, none are. -/
  | short {offset : Nat} (hshort : stop < offset + size) :
      Spells buffer size stop offset [] (stop - offset)
  /-- A length below that of a head, or beyond the stop, ends the chain with nothing left. -/
  | refused {offset : Nat} (hroom : offset + size ≤ stop)
      (hrefused : wordAt buffer offset < size ∨ stop < offset + wordAt buffer offset) :
      Spells buffer size stop offset [] 0
  /-- An attribute within the range is followed by what is spelled from the next boundary on. -/
  | entry {offset left : Nat} {as : List Attribute} (hlow : size ≤ wordAt buffer offset)
      (hhigh : offset + wordAt buffer offset ≤ stop)
      (later : Spells buffer size stop (offset + aligned (wordAt buffer offset)) as left) :
      Spells buffer size stop offset (attributeAt buffer size offset :: as) left

/-- **The grammar is unambiguous.** At each offset one rule applies at most. -/
theorem Spells.unique {as₁ as₂ : List Attribute} {left₁ left₂ : Nat}
    (h₁ : Spells buffer size stop offset as₁ left₁)
    (h₂ : Spells buffer size stop offset as₂ left₂) : as₁ = as₂ ∧ left₁ = left₂ := by
  induction h₁ generalizing as₂ left₂ with
  | short hshort =>
      cases h₂ with
      | short => exact ⟨rfl, rfl⟩
      | refused hroom => omega
      | entry hlow hhigh => omega
  | refused hroom hrefused =>
      cases h₂ with
      | short hshort => omega
      | refused => exact ⟨rfl, rfl⟩
      | entry hlow hhigh => omega
  | entry hlow hhigh later ih =>
      cases h₂ with
      | short hshort => omega
      | refused hroom hrefused => omega
      | entry _ _ later₂ =>
          obtain ⟨rfl, rfl⟩ := ih later₂
          exact ⟨rfl, rfl⟩

/-! ### One call -/

/-- A word of two octets fits into sixteen bits. -/
theorem wordAt_lt (buffer : Bytes) (offset : Nat) : wordAt buffer offset < UInt16.size := by
  have hlow := (buffer.getD offset 0).toNat_lt
  have hhigh := (buffer.getD (offset + 1) 0).toNat_lt
  rw [wordAt, UInt16.size]
  omega

/-- The length of the attribute at an offset is the first word there. -/
theorem toNat_length_attributeAt (buffer : Bytes) (size offset : Nat) :
    (attributeAt buffer size offset).head.length.toNat = wordAt buffer offset :=
  UInt16.toNat_ofNat_of_lt' (wordAt_lt buffer offset)

/-- A word is found from any offset before it. -/
theorem wordAt_add (buffer : Bytes) (offset i : Nat) :
    wordAt buffer (offset + i) = wordAt (buffer.drop offset) i := by
  simp [wordAt, List.getD_eq_getElem?_getD, Nat.add_assoc]

/-- Four octets or more are read as the two words that stand there. -/
theorem decode?_take_drop (hsize : Attribute.headSize ≤ size)
    (hroom : offset + size ≤ buffer.length) :
    Attribute.Head.decode? ((buffer.drop offset).take size)
      = some (attributeAt buffer size offset).head := by
  have hlength : size ≤ (buffer.drop offset).length := by
    rw [List.length_drop]
    omega
  have hfirst := wordAt_add buffer offset 0
  have hsecond := wordAt_add buffer offset 2
  rw [Nat.add_zero] at hfirst
  rw [attributeAt, hfirst, hsecond]
  -- now the octets from the offset on may be any, as long as there are four of them
  generalize buffer.drop offset = octets at hlength
  obtain ⟨k, rfl⟩ := Nat.exists_eq_add_of_le' hsize
  match octets, hlength with
  | b₀ :: b₁ :: b₂ :: b₃ :: rest, _ => rfl

/-- The entry of a chain that holds the attribute at an offset. -/
def entryAt (buffer : Bytes) (size offset : Nat) : Framing.Entry Attribute.Head where
  head := (attributeAt buffer size offset).head
  octets := (buffer.drop offset).take (wordAt buffer offset)

/-- One call on a chain, by offsets: too few octets are left as they are, a refused length empties
the window, and any other attribute is split off. -/
theorem next?_between_cases (headSize : Nat) (hstop : stop ≤ buffer.length) (offset : Nat) :
    let f := framing headSize
    let w := Window.between buffer offset stop
    (stop < offset + f.headSize ∧ f.next? w = (none, w)) ∨
      (offset + f.headSize ≤ stop ∧
        (wordAt buffer offset < f.headSize ∨ stop < offset + wordAt buffer offset) ∧
        f.next? w = (none, w.exhaust)) ∨
      (f.headSize ≤ wordAt buffer offset ∧ offset + wordAt buffer offset ≤ stop ∧
        f.next? w = (some (entryAt buffer f.headSize offset),
          .between buffer (offset + aligned (wordAt buffer offset)) stop)) := by
  intro f w
  have hpos : 0 < f.headSize := f.headSize_pos
  have hremaining : w.remaining = stop - offset := Window.remaining_between hstop
  by_cases hshort : stop < offset + f.headSize
  · exact .inl ⟨hshort, Framing.next?_of_short (by omega)⟩
  · have hroom : offset + f.headSize ≤ stop := Nat.le_of_not_lt hshort
    have hhead : f.head? (w.rest.take f.headSize)
        = some (entryAt buffer f.headSize offset).head := by
      rw [Window.take_rest_between hroom]
      exact decode?_take_drop (Nat.le_max_right _ _) (Nat.le_trans hroom hstop)
    have hdeclared : f.declared (entryAt buffer f.headSize offset).head = wordAt buffer offset :=
      toNat_length_attributeAt buffer f.headSize offset
    refine .inr ?_
    by_cases hrefused : wordAt buffer offset < f.headSize ∨ stop < offset + wordAt buffer offset
    · refine .inl ⟨hroom, hrefused, Framing.next?_of_refused (by omega) hhead ?_⟩
      rw [hdeclared]
      omega
    · obtain ⟨hlow, hhigh⟩ := not_or.1 hrefused
      refine .inr ⟨Nat.le_of_not_lt hlow, Nat.le_of_not_lt hhigh, ?_⟩
      rw [← Window.advance_between hstop]
      refine Framing.next?_eq_some_iff.2 ⟨?_, ?_, hhead, ?_, ?_⟩
      · rw [hdeclared]
        exact Nat.le_of_not_lt hlow
      · rw [hdeclared]
        omega
      · rw [hdeclared, Window.take_rest_between (Nat.le_of_not_lt hhigh)]
        rfl
      · rw [hdeclared]

/-- The value of the attribute at an offset is what the entry there holds after its head. -/
theorem ofEntry_entryAt (c : Chain) (buffer : Bytes) (offset : Nat) :
    c.ofEntry (entryAt buffer (framing c.headSize).headSize offset)
      = attributeAt buffer (framing c.headSize).headSize offset := by
  rw [ofEntry, entryAt, List.drop_take, List.drop_drop]
  rfl

/-! ### The whole walk -/

/-- What a walk gives from an offset on is spelled there. -/
theorem spells_entries (c : Chain) (hstop : stop ≤ buffer.length) (offset : Nat) :
    Spells buffer (framing c.headSize).headSize stop offset
      (((framing c.headSize).entries (.between buffer offset stop)).map c.ofEntry)
      ((framing c.headSize).left (.between buffer offset stop)).remaining := by
  generalize hw : Window.between buffer offset stop = w
  fun_induction Framing.walk (framing c.headSize) w generalizing offset with
  | case1 w last hnone =>
      subst hw
      rw [Framing.entries_of_none hnone, Framing.left_of_none hnone]
      obtain ⟨hshort, hnext⟩ | ⟨hroom, hrefused, hnext⟩ | ⟨-, -, hnext⟩ :=
        next?_between_cases c.headSize hstop offset
      · obtain rfl := (Prod.mk.inj (hnext.symm.trans hnone)).2
        rw [Window.remaining_between hstop]
        exact .short hshort
      · obtain rfl := (Prod.mk.inj (hnext.symm.trans hnone)).2
        exact .refused hroom hrefused
      · cases hnext.symm.trans hnone
  | case2 w e w' hsome entries last hwalk ih =>
      subst hw
      rw [Framing.entries_of_some hsome, Framing.left_of_some hsome]
      obtain ⟨-, hnext⟩ | ⟨-, -, hnext⟩ | ⟨hlow, hhigh, hnext⟩ :=
        next?_between_cases c.headSize hstop offset
      · cases hnext.symm.trans hsome
      · cases hnext.symm.trans hsome
      · obtain ⟨he, rfl⟩ := Prod.mk.inj (hnext.symm.trans hsome)
        obtain rfl := Option.some.inj he
        rw [List.map_cons, ofEntry_entryAt]
        exact .entry hlow hhigh (ih _ rfl)

/-- **A walk gives exactly what its range spells.** The range is cut to the buffer, and a head has
four octets at least. The calls for the next attribute give what is spelled in order; from the
first that gives nothing on they change nothing. There is room for the heads of all. -/
theorem spells_iff_walk (buffer : Bytes) (start length headSize : Nat) :
    let c := ofRange buffer start length headSize
    let size := max headSize Attribute.headSize
    let first := min start buffer.length
    let stop := first + min length (buffer.length - start)
    (∀ as left, Spells buffer size stop first as left ↔
        c.attributes = as ∧ c.walk.2.remaining = left) ∧
      (∀ n, (c.after n).next?.1 = c.attributes[n]?) ∧
      (∀ n, c.after (c.attributes.length + 1 + n) = c.walk.2) ∧
      size * c.attributes.length ≤ stop - first := by
  intro c size first stop
  have hstop : stop ≤ buffer.length := by omega
  have hwindow : c.window = .between buffer first stop := Window.ofRange_eq_between _ _ _
  have hspells : Spells buffer size stop first c.attributes c.walk.2.remaining := by
    have h := spells_entries c hstop first
    rw [← hwindow] at h
    exact h
  refine ⟨fun as left => ⟨fun h => hspells.unique h, ?_⟩, fun n => next?_after n c, fun n => ?_, ?_⟩
  · rintro ⟨rfl, rfl⟩
    exact hspells
  · have hlength : c.attributes.length = ((framing c.headSize).entries c.window).length :=
      List.length_map _
    rw [after_eq, hlength, Framing.after_of_end]
    rfl
  · have hroom := (framing c.headSize).headSize_mul_length_entries_le c.window
    rw [hwindow, Window.remaining_between hstop] at hroom
    rw [attributes, List.length_map, hwindow]
    exact hroom

end Netlink.Chain
