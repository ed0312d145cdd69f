import Netlink.Fault.Basic
import Netlink.Message.Flags
import Netlink.Wire.Alignment

/-!
# Message Headers

A message starts with sixteen octets: its length, kind, flags, sequence number and sender, in
little-endian words. The length covers header and payload, padding left out.

Main statements: a header is read exactly where one was written (`Header.read?_eq_some_iff`),
whatever its kind and flags, and reading fails exactly below sixteen octets
(`Header.read?_eq_none_iff`).
-/

namespace Netlink

/-- The header of a message. -/
structure Header where
  /-- Length of the message in octets, header included. -/
  length : UInt32
  kind : Kind
  flags : Flags
  /-- Number that ties an answer to its request. -/
  sequence : UInt32
  /-- Netlink address of the sender. -/
  portId : UInt32
  deriving DecidableEq, Inhabited, Repr

namespace Header

/-- Size of a header in octets. -/
def size : Nat := 16

/-- Length of a message with `n` octets of payload. -/
def messageLength (n : Nat) : Nat := size + n

/-- Room that a message with `n` octets of payload takes up, padding included. -/
def messageSpace (n : Nat) : Nat := aligned (messageLength n)

/-- The header of a message from address zero with `n` octets of payload, which are padded. The
length is kept to thirty-two bits. -/
def ofPayload (n : Nat) (kind : Kind) (sequence : UInt32) (flags : Flags) : Header where
  length := .ofNat (messageSpace n)
  kind := kind
  flags := flags
  sequence := sequence
  portId := 0

/-- Length of the payload that a header declares. -/
def payloadLength (h : Header) : Nat := h.length.toNat - size

/-- The octets of a header. -/
def encode (h : Header) : Bytes :=
  Word.le32 h.length ++ Word.le16 h.kind.code ++ Word.le16 h.flags.bits
    ++ Word.le32 h.sequence ++ Word.le32 h.portId

/-- Splits a header off the front. -/
def read? (bs : Bytes) : Option (Header × Bytes) := do
  let (length, bs) ← Word.le32? bs
  let (kind, bs) ← Word.le16? bs
  let (flags, bs) ← Word.le16? bs
  let (sequence, bs) ← Word.le32? bs
  let (portId, bs) ← Word.le32? bs
  return (⟨length, ⟨kind⟩, ⟨flags⟩, sequence, portId⟩, bs)

/-- The header at the front of a run of octets. -/
def decode (bs : Bytes) : Except Fault Header :=
  match read? bs with
  | some (h, _) => .ok h
  | none => .error (.tooShort size bs.length)

/-- A header has a fixed size. -/
@[simp] theorem length_encode (h : Header) : h.encode.length = size := by
  simp [encode, size]

/-- A header is read just where its octets stand. -/
theorem read?_eq_some_iff {bs : Bytes} {h : Header} {rest : Bytes} :
    read? bs = some (h, rest) ↔ bs = h.encode ++ rest := by
  simp only [read?, encode, Option.bind_eq_bind, Option.bind_eq_some_iff, Prod.exists,
    Word.le32?_eq_some_iff, Word.le16?_eq_some_iff, Option.pure_def, Option.some.injEq,
    Prod.mk.injEq]
  constructor
  · rintro ⟨_, _, rfl, _, _, rfl, _, _, rfl, _, _, rfl, _, _, rfl, rfl, rfl⟩
    simp only [List.append_assoc]
  · rintro rfl
    simp only [List.append_assoc]
    exact ⟨_, _, rfl, _, _, rfl, _, _, rfl, _, _, rfl, _, _, rfl, rfl, rfl⟩

/-- Sixteen octets or more start with a header. -/
theorem exists_encode_append {bs : Bytes} (hsize : size ≤ bs.length) :
    ∃ (h : Header) (rest : Bytes), bs = h.encode ++ rest := by
  rw [size] at hsize
  obtain ⟨length, r₁, rfl, h₁⟩ := Word.exists_le32_append bs (by omega)
  obtain ⟨kind, r₂, rfl, h₂⟩ := Word.exists_le16_append r₁ (by omega)
  obtain ⟨flags, r₃, rfl, h₃⟩ := Word.exists_le16_append r₂ (by omega)
  obtain ⟨sequence, r₄, rfl, h₄⟩ := Word.exists_le32_append r₃ (by omega)
  obtain ⟨portId, r₅, rfl, h₅⟩ := Word.exists_le32_append r₄ (by omega)
  exact ⟨⟨length, ⟨kind⟩, ⟨flags⟩, sequence, portId⟩, r₅, by simp [encode]⟩

/-- No header is read just where fewer octets are left than it takes. -/
theorem read?_eq_none_iff {bs : Bytes} : read? bs = none ↔ bs.length < size := by
  constructor
  · intro hnone
    refine Nat.lt_of_not_le fun hsize => ?_
    obtain ⟨h, rest, rfl⟩ := exists_encode_append hsize
    rw [read?_eq_some_iff.2 rfl] at hnone
    cases hnone
  · intro hsize
    cases hr : read? bs with
    | none => rfl
    | some found =>
      obtain ⟨h, rest⟩ := found
      obtain rfl := read?_eq_some_iff.1 hr
      simp only [List.length_append, length_encode] at hsize
      omega

end Header

end Netlink
