import Netlink.Fault.Basic
import Netlink.Text.Utf8

/-!
# Attributes

An attribute is a head of four octets, its length and its type in little-endian words, and
a value. The length covers head and value, padding left out, so it limits the value to
`Attribute.valueLimit` octets.

A value can be read as a thirty-two-bit word or as a text. A text ends before its first zero
octet, or with the value if it has none.

Main statement: a head is read exactly where one was written
(`Attribute.Head.read?_eq_some_iff`).
-/

namespace Netlink

/-- The head of an attribute. -/
structure Attribute.Head where
  /-- Length of head and value in octets. -/
  length : UInt16
  /-- What the value is about, told by the family. -/
  type : UInt16
  deriving DecidableEq, Inhabited, Repr

/-- An attribute: its head, and its value without head and padding. -/
structure Attribute where
  head : Attribute.Head
  value : Bytes
  deriving DecidableEq, Repr

namespace Attribute

/-- Size of a head in octets. -/
def headSize : Nat := 4

/-- The largest value whose length fits the head. -/
def valueLimit : Nat := UInt16.size - 1 - headSize

namespace Head

/-- The head of an attribute with a value of `size` octets, or a fault if its length would not
fit. -/
def ofSize (size : Nat) (type : UInt16) : Except Fault Head :=
  if size ≤ valueLimit then .ok ⟨.ofNat (headSize + size), type⟩
  else .error (.tooLarge size valueLimit)

/-- The octets of a head. -/
def encode (h : Head) : Bytes := Word.le16 h.length ++ Word.le16 h.type

/-- Splits a head off the front. -/
def read? (bs : Bytes) : Option (Head × Bytes) := do
  let (length, bs) ← Word.le16? bs
  let (type, bs) ← Word.le16? bs
  return (⟨length, type⟩, bs)

/-- The head at the front of a run of octets. -/
def decode? (bs : Bytes) : Option Head := (read? bs).map (·.1)

/-- The head of an attribute has a fixed size. -/
@[simp] theorem length_encode (h : Head) : h.encode.length = headSize := by
  simp [encode, headSize]

/-- The head of an attribute is read just where its octets stand. -/
theorem read?_eq_some_iff {bs : Bytes} {h : Head} {rest : Bytes} :
    read? bs = some (h, rest) ↔ bs = h.encode ++ rest := by
  simp only [read?, encode, Option.bind_eq_bind, Option.bind_eq_some_iff, Prod.exists,
    Word.le16?_eq_some_iff, Option.pure_def, Option.some.injEq, Prod.mk.injEq]
  constructor
  · rintro ⟨_, _, rfl, _, _, rfl, rfl, rfl⟩
    simp only [List.append_assoc]
  · rintro rfl
    simp only [List.append_assoc]
    exact ⟨_, _, rfl, _, _, rfl, rfl, rfl⟩

/-- Four octets or more start with a head. -/
theorem exists_encode_append {bs : Bytes} (hsize : headSize ≤ bs.length) :
    ∃ (h : Head) (rest : Bytes), bs = h.encode ++ rest := by
  rw [headSize] at hsize
  obtain ⟨length, r, rfl, hr⟩ := Word.exists_le16_append bs (by omega)
  obtain ⟨type, rest, rfl, -⟩ := Word.exists_le16_append r (by omega)
  exact ⟨⟨length, type⟩, rest, (List.append_assoc _ _ _).symm⟩

end Head

/-! ### Values -/

/-- The value of a text: its octets and a zero octet. -/
def textValue (s : String) : Bytes := Utf8.encode s ++ [0]

/-- The little-endian word at the front of the value. -/
def word? (a : Attribute) : Option UInt32 := (Word.le32? a.value).map (·.1)

/-- The text of the value. -/
def text? (a : Attribute) : Option String := Utf8.decode? (a.value.takeWhile (· != 0))

end Attribute

end Netlink
