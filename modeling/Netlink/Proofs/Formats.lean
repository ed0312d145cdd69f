import Netlink.Family.Link
import Netlink.Family.Netfilter
import Netlink.Message.Acknowledgement

/-!
# Formats of Fixed Size

Five things of fixed size are written to the wire: the header of a message, the head of an
attribute, an acknowledgement, and the headers of link and netfilter messages. A `Format` is a
table of their fields, with what writes and what reads them. Here the two are shown to be
inverse to each other, whatever octets follow, and to put each field where the table says.

A run of octets is refused exactly if it is too short, and the fault tells both sizes. Any other
is read, and written back as it was. Only the padding in the header of a link message is not kept:
it is written as zero.

## Main results

* `Format.exact_of_read?`: what a reader and a writer have to satisfy.
* `formats_exact`: **the five formats are exact.**
-/

namespace Netlink

/-! ### Formats -/

/-- A field of a format: the number that it holds, and where its octets stand. -/
structure Field (α : Type) where
  value : α → Nat
  offset : Nat
  width : Nat
  /-- The most significant octet stands first, and not the least significant one. -/
  bigEndian : Bool := false

namespace Field

variable {α β : Type}

/-- The octets that stand where the field is. -/
def octets (f : Field α) (bs : Bytes) : Bytes := (bs.drop f.offset).take f.width

/-- The number that stands where the field is. -/
def read (f : Field α) (bs : Bytes) : Nat :=
  Word.value (if f.bigEndian then (f.octets bs).reverse else f.octets bs)

/-- The indices of the octets of a field. -/
def indices (f : Field α) : List Nat := List.range' f.offset f.width

/-- The field of something that is a part of something else, from an offset on. -/
def within (f : Field α) (offset : Nat) (part : β → α) : Field β :=
  { f with value := f.value ∘ part, offset := offset + f.offset }

/-- A field of a part is read where the part is. -/
theorem read_within (f : Field α) (part : β → α) {front : Bytes} {offset : Nat}
    (hfront : front.length = offset) (bs : Bytes) :
    (f.within offset part).read (front ++ bs) = f.read bs := by
  have hoctets : (f.within offset part).octets (front ++ bs) = f.octets bs := by
    subst hfront
    exact congrArg (List.take f.width) (List.drop_length_add_append f.offset)
  rw [read, hoctets]
  rfl

end Field

/-- A format of fixed size, for values in `α`; `ρ` is what reading comes to. -/
structure Format (α ρ : Type) where
  size : Nat
  fields : List (Field α)
  encode : α → Bytes
  decode : Bytes → ρ
  /-- Reading found a value. -/
  found : α → ρ
  /-- Reading found only so many octets. -/
  tooShort : Nat → ρ
  /-- What is made of octets that are read and written back. -/
  normal : Bytes → Bytes := id

namespace Format

variable {α ρ : Type}

/-- Reading and writing are inverse, and do as the table of fields says. -/
structure Exact (f : Format α ρ) : Prop where
  /-- The fields are all that there is, one after the other. -/
  indices_eq : f.fields.flatMap Field.indices = List.range f.size
  length_encode : ∀ x, (f.encode x).length = f.size
  read_encode : ∀ x, ∀ field ∈ f.fields, field.read (f.encode x) = field.value x
  decode_encode_append : ∀ x rest, f.decode (f.encode x ++ rest) = f.found x
  encode_decode : ∀ bs, f.size ≤ bs.length →
    ∃ x, f.decode bs = f.found x ∧ f.encode x = f.normal (bs.take f.size)
  decode_eq_tooShort_iff : ∀ bs, f.decode bs = f.tooShort bs.length ↔ bs.length < f.size

section ByReader

variable {f : Format α ρ} {read? : Bytes → Option (α × Bytes)}
  (indices_eq : f.fields.flatMap Field.indices = List.range f.size)
  (length_encode : ∀ x, (f.encode x).length = f.size)
  (read_encode : ∀ x, ∀ field ∈ f.fields, field.read (f.encode x) = field.value x)
  (decode_eq : ∀ bs, f.decode bs = (read? bs).elim (f.tooShort bs.length) (f.found ·.1))
  (found_ne : ∀ x n, f.found x ≠ f.tooShort n)

include indices_eq length_encode read_encode decode_eq found_ne

/-- **A format is exact** if its reader reads what was written, whatever follows, splits off no
less and no more than its size, and refuses no run of octets that is long enough. -/
theorem exact_of_read? (read?_append : ∀ x rest, read? (f.encode x ++ rest) = some (x, rest))
    (split : ∀ {bs x rest}, read? bs = some (x, rest) →
      ∃ front, bs = front ++ rest ∧ front.length = f.size ∧ f.encode x = f.normal front)
    (isSome : ∀ bs, f.size ≤ bs.length → (read? bs).isSome) : f.Exact where
  indices_eq := indices_eq
  length_encode := length_encode
  read_encode := read_encode
  decode_encode_append x rest := by
    rw [decode_eq, read?_append]
    rfl
  encode_decode bs hsize := by
    obtain ⟨⟨x, rest⟩, hread⟩ := Option.isSome_iff_exists.1 (isSome bs hsize)
    obtain ⟨front, hbs, hfront, hencode⟩ := split hread
    refine ⟨x, ?_, ?_⟩
    · rw [decode_eq, hread]
      rfl
    · rw [hbs, ← hfront, List.take_left, hencode]
  decode_eq_tooShort_iff bs := by
    rw [decode_eq]
    cases hread : read? bs with
    | none =>
        refine iff_of_true rfl (Nat.lt_of_not_le fun hsize => ?_)
        have hsome := isSome bs hsize
        rw [hread] at hsome
        cases hsome
    | some found =>
        obtain ⟨front, hbs, hfront, -⟩ := split hread
        refine iff_of_false (found_ne found.1 _) (Nat.not_lt.2 ?_)
        rw [hbs, List.length_append, hfront]
        exact Nat.le_add_right _ _

/-- So it is if its reader accepts exactly what was written, and any run of octets that is long
enough starts with what could have been written. -/
theorem exact_of_read?_eq_some_iff (normal_eq : f.normal = id)
    (read?_eq_some_iff : ∀ {bs x rest}, read? bs = some (x, rest) ↔ bs = f.encode x ++ rest)
    (exists_encode_append : ∀ {bs}, f.size ≤ bs.length → ∃ x rest, bs = f.encode x ++ rest) :
    f.Exact := by
  refine exact_of_read? indices_eq length_encode read_encode decode_eq found_ne
    (fun x rest => read?_eq_some_iff.2 rfl) (fun {bs x rest} hread => ?_) fun bs hsize => ?_
  · refine ⟨f.encode x, read?_eq_some_iff.1 hread, length_encode x, ?_⟩
    rw [normal_eq, id]
  · obtain ⟨x, rest, hbs⟩ := exists_encode_append hsize
    rw [read?_eq_some_iff.2 hbs]
    rfl

end ByReader

end Format

/-! ### The five tables -/

/-- The header of a message. -/
def Header.format : Format Header (Except Fault Header) where
  size := 16
  fields :=
    [ { value h := h.length.toNat, offset := 0, width := 4 },
      { value h := h.kind.code.toNat, offset := 4, width := 2 },
      { value h := h.flags.bits.toNat, offset := 6, width := 2 },
      { value h := h.sequence.toNat, offset := 8, width := 4 },
      { value h := h.portId.toNat, offset := 12, width := 4 } ]
  encode := encode
  decode := decode
  found := .ok
  tooShort n := .error (.tooShort 16 n)

/-- The head of an attribute. -/
def Attribute.Head.format : Format Attribute.Head (Option Attribute.Head) where
  size := 4
  fields :=
    [ { value h := h.length.toNat, offset := 0, width := 2 },
      { value h := h.type.toNat, offset := 2, width := 2 } ]
  encode := encode
  decode := decode?
  found := some
  tooShort _ := none

/-- The header of a netfilter message, whose last field is the only one with its most significant
octet first. -/
def NetfilterInfo.format : Format NetfilterInfo (Except Fault NetfilterInfo) where
  size := 4
  fields :=
    [ { value i := i.family.toNat, offset := 0, width := 1 },
      { value i := i.version.toNat, offset := 1, width := 1 },
      { value i := i.resource.toNat, offset := 2, width := 2, bigEndian := true } ]
  encode := encode
  decode := decode
  found := .ok
  tooShort n := .error (.tooShort 4 n)

/-- An acknowledgement: a status, and the header of the request. -/
def Acknowledgement.format : Format Acknowledgement (Except Fault Acknowledgement) where
  size := 20
  fields :=
    { value a := a.status.toUInt32.toNat, offset := 0, width := 4 }
      :: Header.format.fields.map (·.within 4 request)
  encode := encode
  decode := decode
  found := .ok
  tooShort n := .error (.tooShort 20 n)

/-- The header of a link message, with an octet of padding. -/
def LinkInfo.format : Format LinkInfo (Except Fault LinkInfo) where
  size := 16
  fields :=
    [ { value i := i.family.toNat, offset := 0, width := 1 },
      { value _ := 0, offset := 1, width := 1 },
      { value i := i.device.toNat, offset := 2, width := 2 },
      { value i := i.index.toUInt32.toNat, offset := 4, width := 4 },
      { value i := i.flags.toNat, offset := 8, width := 4 },
      { value i := i.change.toNat, offset := 12, width := 4 } ]
  encode := encode
  decode := decode
  found := .ok
  tooShort n := .error (.tooShort 16 n)
  normal bs := bs.set 1 0

/-! ### The five formats are exact -/

/-- The table of a message header is exact. -/
theorem Header.exact_format : format.Exact := by
  refine Format.exact_of_read?_eq_some_iff rfl length_encode (fun h => ?_) (fun bs => ?_)
    (fun _ _ => by rintro ⟨⟩) rfl read?_eq_some_iff exists_encode_append
  · simp only [format, List.forall_mem_cons]
    exact ⟨Word.value_le32 h.length, Word.value_le16 h.kind.code, Word.value_le16 h.flags.bits,
      Word.value_le32 h.sequence, Word.value_le32 h.portId, List.forall_mem_nil _⟩
  · change decode bs = _
    rw [decode]
    cases read? bs <;> rfl

/-- The table of the head of an attribute is exact. -/
theorem Attribute.Head.exact_format : format.Exact := by
  refine Format.exact_of_read?_eq_some_iff rfl length_encode (fun h => ?_) (fun bs => ?_)
    (fun _ _ => by rintro ⟨⟩) rfl read?_eq_some_iff exists_encode_append
  · simp only [format, List.forall_mem_cons]
    exact ⟨Word.value_le16 h.length, Word.value_le16 h.type, List.forall_mem_nil _⟩
  · change decode? bs = _
    rw [decode?]
    cases read? bs <;> rfl

/-- The table of a netfilter header is exact, with its word in the other order. -/
theorem NetfilterInfo.exact_format : format.Exact := by
  refine Format.exact_of_read?_eq_some_iff rfl length_encode (fun i => ?_) (fun bs => ?_)
    (fun _ _ => by rintro ⟨⟩) rfl read?_eq_some_iff exists_encode_append
  · simp only [format, List.forall_mem_cons]
    exact ⟨rfl, rfl, Word.value_reverse_be16 i.resource, List.forall_mem_nil _⟩
  · change decode bs = _
    rw [decode]
    cases read? bs <;> rfl

/-- The table of an acknowledgement is exact, since that of the header in it is. -/
theorem Acknowledgement.exact_format : format.Exact := by
  refine Format.exact_of_read?_eq_some_iff rfl length_encode (fun a => ?_) (fun bs => ?_)
    (fun _ _ => by rintro ⟨⟩) rfl read?_eq_some_iff exists_encode_append
  · simp only [format, List.forall_mem_cons, List.forall_mem_map]
    refine ⟨Word.value_le32 a.status.toUInt32, fun field hfield => ?_⟩
    have hstatus : (Word.le32 a.status.toUInt32).length = 4 := Word.length_le32 _
    rw [encode, Field.read_within field request hstatus]
    exact Header.exact_format.read_encode a.request field hfield
  · change decode bs = _
    rw [decode]
    cases read? bs <;> rfl

/-- The table of a link header is exact, if its padding is taken for zero. -/
theorem LinkInfo.exact_format : format.Exact := by
  refine Format.exact_of_read? rfl length_encode (fun i => ?_) (fun bs => ?_)
    (fun _ _ => by rintro ⟨⟩) read?_encode_append (fun {bs x rest} hread => ?_) fun bs hsize => ?_
  · simp only [format, List.forall_mem_cons]
    exact ⟨rfl, rfl, Word.value_le16 i.device, Word.value_le32 i.index.toUInt32,
      Word.value_le32 i.flags, Word.value_le32 i.change, List.forall_mem_nil _⟩
  · change decode bs = _
    rw [decode]
    cases read? bs <;> rfl
  · obtain ⟨padding, hbs⟩ := read?_eq_some_iff.1 hread
    refine ⟨x.encode.set 1 padding, hbs, ?_, ?_⟩
    · rw [List.length_set, length_encode]
      rfl
    · calc x.encode = x.encode.set 1 0 := rfl
        _ = (x.encode.set 1 padding).set 1 0 := (List.set_set padding).symm
  · obtain ⟨i, padding, rest, hbs⟩ := exists_set_encode_append hsize
    rw [read?_eq_some_iff.2 ⟨padding, hbs⟩]
    rfl

/-- **The five formats are exact.** Each has its fields where its table says, one after the other
and with nothing between them. What was written is read back, whatever follows it, and what is
read is written back as it was; in the header of a link message, the padding is then zero. A run
of octets is refused exactly if it is shorter than the format. -/
theorem formats_exact :
    Header.format.Exact ∧ Attribute.Head.format.Exact ∧ NetfilterInfo.format.Exact ∧
      Acknowledgement.format.Exact ∧ LinkInfo.format.Exact :=
  ⟨Header.exact_format, Attribute.Head.exact_format, NetfilterInfo.exact_format,
    Acknowledgement.exact_format, LinkInfo.exact_format⟩

/-- The resource of a netfilter message has its most significant octet first. -/
example : NetfilterInfo.encode ⟨2, 0, 0x0102⟩ = [2, 0, 1, 2] := by decide

end Netlink
