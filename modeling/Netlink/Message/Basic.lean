import Netlink.Message.Header

/-!
# Messages

A message is a header with the octets of the whole record, header included. The header is kept
beside the octets and may be changed without them: kind, flags, sequence number and length are
then those of the changed header, and the payload and the octets are those of the record.
-/

namespace Netlink

/-- A message. -/
structure Message where
  header : Header
  /-- The whole record, header included, padding left out. -/
  octets : Bytes
  deriving DecidableEq, Repr

namespace Message

/-- The message at the front of a run of octets. What follows its declared length is not
looked at. -/
def decode (bs : Bytes) : Except Fault Message := do
  let header ← Header.decode bs
  let length := header.length.toNat
  if length < Header.size ∨ bs.length < length then
    .error (.lengthMismatch header.length bs.length)
  else
    .ok ⟨header, bs.take length⟩

/-- The octets after the header, if the record holds a header. -/
def payload? (m : Message) : Option Bytes :=
  if Header.size ≤ m.octets.length then some (m.octets.drop Header.size) else none

/-- Size of the record. -/
def size (m : Message) : Nat := m.octets.length

/-- The message ends a dump. -/
def isDone (m : Message) : Bool := m.header.kind = .done

/-- The message is an error or an acknowledgement. -/
def isError (m : Message) : Bool := m.header.kind = .error

/-- The message is one of several that make up a reply. -/
def isMultipart (m : Message) : Bool := m.header.flags.contains .multi

end Message

end Netlink
