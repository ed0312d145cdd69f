import Netlink.Family.Layout

/-!
# Link Messages

The header of messages about network links: address family, device type, index, flags and
change mask. It takes sixteen octets, of which the second is padding.

Main statement: a header is read exactly where one was written, with any octet for the padding
(`LinkInfo.read?_eq_some_iff`).
-/

namespace Netlink

/-- The family header of a link message. -/
structure LinkInfo where
  /-- Address family, unspecified in requests. -/
  family : UInt8
  /-- Type of the device. -/
  device : UInt16
  /-- Index of the interface. -/
  index : Int32
  /-- Flags of the device. -/
  flags : UInt32
  /-- Mask of the flags that change. -/
  change : UInt32
  deriving DecidableEq, Inhabited, Repr

namespace LinkInfo

/-- Size of the header in octets. -/
def size : Nat := 16

/-- The octets of the header. -/
def encode (i : LinkInfo) : Bytes :=
  [i.family, 0] ++ Word.le16 i.device ++ Word.le32 i.index.toUInt32 ++ Word.le32 i.flags
    ++ Word.le32 i.change

/-- Splits the header off the front. -/
def read? (bs : Bytes) : Option (LinkInfo × Bytes) := do
  let (family, bs) ← Word.octet? bs
  let (_, bs) ← Word.octet? bs
  let (device, bs) ← Word.le16? bs
  let (index, bs) ← Word.le32? bs
  let (flags, bs) ← Word.le32? bs
  let (change, bs) ← Word.le32? bs
  return (⟨family, device, index.toInt32, flags, change⟩, bs)

/-- The header at the front of a run of octets. -/
def decode (bs : Bytes) : Except Fault LinkInfo :=
  match read? bs with
  | some (i, _) => .ok i
  | none => .error (.tooShort size bs.length)

/-- The header of a link message has a fixed size. -/
@[simp] theorem length_encode (i : LinkInfo) : i.encode.length = size := by
  simp [encode, size]

/-- The octets of the header, with another octet in place of the padding. -/
theorem set_encode (i : LinkInfo) (padding : UInt8) :
    i.encode.set 1 padding
      = [i.family, padding] ++ Word.le16 i.device ++ Word.le32 i.index.toUInt32
        ++ Word.le32 i.flags ++ Word.le32 i.change := rfl

/-- The second octet is padding, so it may be anything where the header is read. -/
theorem read?_eq_some_iff {bs : Bytes} {i : LinkInfo} {rest : Bytes} :
    read? bs = some (i, rest) ↔ ∃ padding, bs = i.encode.set 1 padding ++ rest := by
  simp only [read?, set_encode, Option.bind_eq_bind, Option.bind_eq_some_iff, Prod.exists,
    Word.octet?_eq_some_iff, Word.le16?_eq_some_iff, Word.le32?_eq_some_iff, Option.pure_def,
    Option.some.injEq, Prod.mk.injEq]
  constructor
  · rintro ⟨_, _, rfl, padding, _, rfl, _, _, rfl, _, _, rfl, _, _, rfl, _, _, rfl, rfl, rfl⟩
    refine ⟨padding, ?_⟩
    simp only [UInt32.toUInt32_toInt32, List.append_assoc, List.cons_append, List.nil_append]
  · rintro ⟨padding, rfl⟩
    simp only [List.append_assoc, List.cons_append, List.nil_append]
    refine ⟨_, _, rfl, _, _, rfl, _, _, rfl, _, _, rfl, _, _, rfl, _, _, rfl, ?_, rfl⟩
    simp only [Int32.toInt32_toUInt32]

/-- A header that was written is read back, whatever follows it. -/
theorem read?_encode_append (i : LinkInfo) (rest : Bytes) :
    read? (i.encode ++ rest) = some (i, rest) :=
  read?_eq_some_iff.2 ⟨0, rfl⟩

/-- Sixteen octets or more start with a header, whatever the padding. -/
theorem exists_set_encode_append {bs : Bytes} (hsize : size ≤ bs.length) :
    ∃ (i : LinkInfo) (padding : UInt8) (rest : Bytes), bs = i.encode.set 1 padding ++ rest := by
  rw [size] at hsize
  match bs, hsize with
  | family :: padding :: bs, hsize =>
    have hrest : 14 ≤ bs.length := Nat.le_of_add_le_add_right (b := 2) hsize
    obtain ⟨device, r₁, rfl, h₁⟩ := Word.exists_le16_append bs (by omega)
    obtain ⟨index, r₂, rfl, h₂⟩ := Word.exists_le32_append r₁ (by omega)
    obtain ⟨flags, r₃, rfl, h₃⟩ := Word.exists_le32_append r₂ (by omega)
    obtain ⟨change, r₄, rfl, h₄⟩ := Word.exists_le32_append r₃ (by omega)
    refine ⟨⟨family, device, index.toInt32, flags, change⟩, padding, r₄, ?_⟩
    simp only [set_encode, UInt32.toUInt32_toInt32, List.append_assoc, List.cons_append,
      List.nil_append]

end LinkInfo

/-- Routing attributes, which follow the header of a link message. -/
def Layout.route : Layout := { familySize := LinkInfo.size }

end Netlink
