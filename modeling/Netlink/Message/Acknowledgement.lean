import Netlink.Message.Draft

/-!
# Acknowledgements

An error message carries a status and the header of the request that it answers. Status zero
acknowledges the request; any other status is a system error number with its sign changed.

Main statement: an acknowledgement is read exactly where one was written
(`Acknowledgement.read?_eq_some_iff`).
-/

namespace Netlink

/-- What an error message says about a request. -/
structure Acknowledgement where
  /-- Zero, or a system error number with its sign changed. -/
  status : Int32
  /-- The header of the request. -/
  request : Header
  deriving DecidableEq, Repr

namespace Acknowledgement

/-- Size of status and header in octets. -/
def size : Nat := 4 + Header.size

/-- The acknowledgement that grants a request. -/
def granted (request : Header) : Acknowledgement := ⟨0, request⟩

/-- The request was granted. -/
def isGranted (a : Acknowledgement) : Bool := a.status = 0

/-- The number with which the request was refused, if it was: the status with its sign changed,
in thirty-two bits. -/
def errno? (a : Acknowledgement) : Option Errno :=
  if a.status = 0 then none else some ⟨-a.status⟩

/-- The octets of an acknowledgement. -/
def encode (a : Acknowledgement) : Bytes := Word.le32 a.status.toUInt32 ++ a.request.encode

/-- Splits an acknowledgement off the front. -/
def read? (bs : Bytes) : Option (Acknowledgement × Bytes) := do
  let (status, bs) ← Word.le32? bs
  let (request, bs) ← Header.read? bs
  return (⟨status.toInt32, request⟩, bs)

/-- The acknowledgement at the front of a run of octets. -/
def decode (bs : Bytes) : Except Fault Acknowledgement :=
  match read? bs with
  | some (a, _) => .ok a
  | none => .error (.tooShort size bs.length)

/-- The acknowledgement that a message carries. The message must be an error, and its record
must hold an acknowledgement after the header. -/
def ofMessage (m : Message) : Except Fault Acknowledgement :=
  let payload := m.payload?.getD []
  if !m.isError then
    .error (.breach (.kind .error m.header.kind))
  else if payload.length < size then
    .error (.breach (.shortError m.header.length))
  else
    decode payload

/-- The error message that carries an acknowledgement to an address, with the sequence number of
the request. -/
def toMessage (a : Acknowledgement) (portId : UInt32) : Message :=
  ({ kind := .error, sequence := a.request.sequence, portId : Draft }.addBody a.encode).finish

/-- An acknowledgement has a fixed size. -/
@[simp] theorem length_encode (a : Acknowledgement) : a.encode.length = size := by
  simp [encode, size]

/-- An acknowledgement is read just where its octets stand. -/
theorem read?_eq_some_iff {bs : Bytes} {a : Acknowledgement} {rest : Bytes} :
    read? bs = some (a, rest) ↔ bs = a.encode ++ rest := by
  simp only [read?, encode, Option.bind_eq_bind, Option.bind_eq_some_iff, Prod.exists,
    Word.le32?_eq_some_iff, Header.read?_eq_some_iff, Option.pure_def, Option.some.injEq,
    Prod.mk.injEq]
  constructor
  · rintro ⟨_, _, rfl, _, _, rfl, rfl, rfl⟩
    simp only [UInt32.toUInt32_toInt32, List.append_assoc]
  · rintro rfl
    refine ⟨_, _, List.append_assoc _ _ _, _, _, rfl, ?_, rfl⟩
    simp only [Int32.toInt32_toUInt32]

/-- Twenty octets or more start with an acknowledgement. -/
theorem exists_encode_append {bs : Bytes} (hsize : size ≤ bs.length) :
    ∃ (a : Acknowledgement) (rest : Bytes), bs = a.encode ++ rest := by
  rw [size] at hsize
  obtain ⟨status, r, rfl, hr⟩ := Word.exists_le32_append bs (by omega)
  have hrequest : Header.size ≤ r.length := by omega
  obtain ⟨request, rest, rfl⟩ := Header.exists_encode_append hrequest
  refine ⟨⟨status.toInt32, request⟩, rest, ?_⟩
  rw [encode, UInt32.toUInt32_toInt32, List.append_assoc]

/-- The status is the first word, as a signed number. -/
theorem toInt32_value_take_encode_append (a : Acknowledgement) (rest : Bytes) :
    (UInt32.ofNat (Word.value ((a.encode ++ rest).take 4))).toInt32 = a.status := by
  have hfront : (a.encode ++ rest).take 4 = Word.le32 a.status.toUInt32 := by
    rw [encode, List.append_assoc]
    exact List.take_left' (Word.length_le32 _)
  rw [hfront, Word.value_le32, UInt32.ofNat_toNat, Int32.toInt32_toUInt32]

end Acknowledgement

end Netlink
