import Netlink.Proofs.Packing

/-!
# What Drafting Appends

A step of drafting either sets a field of the header or appends a piece to the payload, and
the piece is padded. So a payload is always padded itself, and after any steps it is the
payload before followed by the padded pieces (`Draft.steps_of_fits`). A step fails only if a
value is too large for the length in its head.

The message of a draft is header and payload, one after the other, as long as its length fits
thirty-two bits (`Draft.octets_finish`).

## Main results

* `Draft.step_of_fits`, `Draft.steps_of_fits`: what steps append.
* `Draft.octets_finish`: the octets of the message of a draft.
-/

namespace Netlink

/-! ### Pieces -/

namespace Attribute

/-- The attribute with the given type and value. Its head tells the length of a value that is
within the limit. -/
def ofValue (type : UInt16) (value : Bytes) : Attribute :=
  ⟨⟨.ofNat (headSize + value.length), type⟩, value⟩

/-- The octets of an attribute, padding left out. -/
def octets (a : Attribute) : Bytes := a.head.encode ++ a.value

/-- The head of a value within the limit tells its length. -/
theorem length_head_ofValue {type : UInt16} {value : Bytes} (h : value.length ≤ valueLimit) :
    (ofValue type value).head.length.toNat = headSize + value.length := by
  rw [valueLimit] at h
  rw [ofValue, UInt16.toNat_ofNat', Nat.mod_eq_of_lt]
  change headSize + value.length < UInt16.size
  have hsize : headSize < UInt16.size := by decide
  omega

end Attribute

namespace Draft

/-- The attribute that a step appends, if it appends one. -/
def Step.attribute? : Step → Option Attribute
  | .value t v => some (.ofValue t v)
  | .text t s => some (.ofValue t (Attribute.textValue s))
  | .word t w => some (.ofValue t (Word.le32 w))
  | _ => none

/-- The piece that a step appends, before it is padded. -/
def Step.piece : Step → Bytes
  | .body b => b
  | s => (s.attribute?.map Attribute.octets).getD []

/-- What steps append: their pieces, each padded. -/
def appended (ss : List Step) : Bytes := ss.flatMap fun s => padded s.piece

/-- What a step appends is within the limit of an attribute's value. -/
def Step.Fits (s : Step) : Prop := ∀ a ∈ s.attribute?, a.value.length ≤ Attribute.valueLimit

instance (s : Step) : Decidable s.Fits :=
  inferInstanceAs (Decidable (∀ a ∈ s.attribute?, a.value.length ≤ Attribute.valueLimit))

variable {d : Draft}

/-! ### Steps -/

theorem appended_cons (s : Step) (ss : List Step) :
    appended (s :: ss) = padded s.piece ++ appended ss :=
  List.flatMap_cons

/-- Steps are taken one after the other, up to the first that fails. -/
theorem steps_cons (d : Draft) (s : Step) (ss : List Step) :
    d.steps (s :: ss) = d.step s >>= fun d₁ => d₁.steps ss :=
  List.foldlM_cons

/-- After a payload that needs no padding, only the new piece is padded. -/
theorem padded_append (hd : padded d.payload = d.payload) (piece : Bytes) :
    padded (d.payload ++ piece) = d.payload ++ padded piece := by
  rw [← hd, padded_padded_append, hd]

/-- A value within the limit is appended as an attribute, padded. -/
theorem addValue_of_le {type : UInt16} {value : Bytes}
    (h : value.length ≤ Attribute.valueLimit) (hd : padded d.payload = d.payload) :
    d.addValue type value
      = .ok { d with
          payload := d.payload ++ padded (Attribute.ofValue type value).octets } := by
  have hhead : Attribute.Head.ofSize value.length type
      = .ok (Attribute.ofValue type value).head :=
    if_pos h
  rw [addValue, hhead]
  change Except.ok (d.addEntry _ _) = _
  rw [addEntry, List.append_assoc, padded_append hd]
  rfl

/-- A step that fits succeeds and appends its piece. -/
theorem step_of_fits {s : Step} (hs : s.Fits) (hd : padded d.payload = d.payload) :
    ∃ d', d.step s = .ok d' ∧ d'.payload = d.payload ++ padded s.piece := by
  have hnothing : d.payload = d.payload ++ padded [] := by rw [padded_nil, List.append_nil]
  cases s with
  | flags flags => exact ⟨_, rfl, hnothing⟩
  | sequence sequence => exact ⟨_, rfl, hnothing⟩
  | portId portId => exact ⟨_, rfl, hnothing⟩
  | body body => exact ⟨_, rfl, padded_append hd body⟩
  | value type value => exact ⟨_, addValue_of_le (hs _ rfl) hd, rfl⟩
  | text type text => exact ⟨_, addValue_of_le (hs _ rfl) hd, rfl⟩
  | word type word =>
      refine ⟨_, rfl, ?_⟩
      rw [addWord, addEntry, List.append_assoc, padded_append hd]
      rfl

/-- **Steps that fit succeed and append their pieces**, one after the other. -/
theorem steps_of_fits {ss : List Step} (hss : ∀ s ∈ ss, s.Fits)
    (hd : padded d.payload = d.payload) :
    ∃ d', d.steps ss = .ok d' ∧ padded d'.payload = d'.payload ∧
      d'.payload = d.payload ++ appended ss := by
  induction ss generalizing d with
  | nil => exact ⟨d, rfl, hd, (List.append_nil _).symm⟩
  | cons s ss ih =>
      obtain ⟨hs, hss⟩ := List.forall_mem_cons.1 hss
      obtain ⟨d₁, hstep, hpayload₁⟩ := step_of_fits hs hd
      have hd₁ : padded d₁.payload = d₁.payload := by
        rw [hpayload₁, padded_append hd, padded_padded]
      obtain ⟨d₂, hsteps, hd₂, hpayload₂⟩ := ih hss hd₁
      refine ⟨d₂, ?_, hd₂, ?_⟩
      · rw [steps_cons, hstep]
        exact hsteps
      · rw [hpayload₂, hpayload₁, appended_cons, List.append_assoc]

/-! ### The message of a draft -/

/-- The length in the header of a draft is that of its record, in thirty-two bits. -/
theorem header_length_eq (hd : padded d.payload = d.payload) :
    d.header.length = .ofNat (Header.messageLength d.payload.length) := by
  have hpayload : aligned d.payload.length = d.payload.length := by
    rw [← length_padded, hd]
  have hspace : Header.messageSpace d.payload.length = Header.messageLength d.payload.length := by
    rw [Header.messageSpace, Header.messageLength, Header.size]
    rw [aligned, alignment] at hpayload ⊢
    omega
  exact congrArg UInt32.ofNat hspace

/-- So it is that of the record itself, if thirty-two bits hold it. -/
theorem length_header (hd : padded d.payload = d.payload)
    (hsize : Header.messageLength d.payload.length < UInt32.size) :
    d.header.length.toNat = Header.messageLength d.payload.length := by
  rw [header_length_eq hd, UInt32.toNat_ofNat_of_lt' hsize]

/-- **The record of a draft is its header and its payload**, if thirty-two bits hold the
length. -/
theorem octets_finish (hd : padded d.payload = d.payload)
    (hsize : Header.messageLength d.payload.length < UInt32.size) :
    d.finish.octets = d.header.encode ++ d.payload := by
  have hlength : d.header.length.toNat = (d.header.encode ++ d.payload).length := by
    rw [length_header hd hsize, List.length_append, Header.length_encode, Header.messageLength]
  rw [finish, hlength, List.rightpad, Nat.sub_self, List.replicate_zero, List.append_nil,
    List.take_length]

end Draft

end Netlink
