import Netlink.Wire.Word

/-!
# Text as Octets

A text travels in UTF-8. Main statement: octets are read as a text exactly where that text was
written (`Utf8.decode?_eq_some_iff`), so octets that are not valid UTF-8 are no text.
-/

namespace Netlink.Utf8

/-- The octets of a text. -/
def encode (s : String) : Bytes := s.toUTF8.data.toList

/-- The text with the given octets, if they are valid UTF-8. -/
def decode? (bs : Bytes) : Option String := String.fromUTF8? ⟨bs.toArray⟩

/-- A text is read from its own octets. -/
theorem decode?_encode (s : String) : decode? (encode s) = some s := by
  have h : (⟨s.toUTF8.data.toList.toArray⟩ : ByteArray) = s.toByteArray := by
    rw [Array.toArray_toList]
    rfl
  rw [decode?, encode, String.fromUTF8?, h, dif_pos s.isValidUTF8]
  rfl

/-- The octets of a text are the only ones that it is read from. -/
theorem decode?_eq_some_iff {bs : Bytes} {s : String} : decode? bs = some s ↔ bs = encode s := by
  constructor
  · intro h
    rw [decode?, String.fromUTF8?] at h
    split at h
    · obtain rfl := Option.some.inj h
      rfl
    · cases h
  · rintro rfl
    exact decode?_encode s

end Netlink.Utf8
