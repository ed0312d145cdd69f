import Netlink.Attribute.Basic
import Netlink.Message.Basic

/-!
# Drafts

A draft is a message in the making: kind, flags, sequence number, sender, and a payload that
grows piece by piece. A piece is a family header or an attribute, and each is padded with zero
octets to the next boundary. `Draft.Step` names the steps of drafting, and `Draft.finish`
makes the message.

A step fails only where an attribute's value does not fit the length in its head.
-/

namespace Netlink

/-- A message in the making. -/
structure Draft where
  kind : Kind
  flags : Flags := ∅
  sequence : UInt32 := 0
  portId : UInt32 := 0
  /-- The pieces so far, each padded. -/
  payload : Bytes := []
  deriving DecidableEq, Repr

namespace Draft

/-- The draft of a request. -/
def request (kind : Kind) : Draft := { kind, flags := .request }

/-- The draft of a request for a dump. -/
def dumpRequest (kind : Kind) : Draft := { kind, flags := .request ∪ .dump }

/-- Adds octets, usually a family header. -/
def addBody (d : Draft) (body : Bytes) : Draft := { d with payload := padded (d.payload ++ body) }

/-- Adds an attribute with the given head and value. -/
def addEntry (d : Draft) (head : Attribute.Head) (value : Bytes) : Draft :=
  { d with payload := padded (d.payload ++ head.encode ++ value) }

/-- Adds an attribute with the given value. -/
def addValue (d : Draft) (type : UInt16) (value : Bytes) : Except Fault Draft := do
  let head ← Attribute.Head.ofSize value.length type
  return d.addEntry head value

/-- Adds an attribute that holds a text. -/
def addText (d : Draft) (type : UInt16) (text : String) : Except Fault Draft :=
  d.addValue type (Attribute.textValue text)

/-- Adds an attribute that holds a word. -/
def addWord (d : Draft) (type : UInt16) (word : UInt32) : Draft :=
  d.addEntry ⟨8, type⟩ (Word.le32 word)

/-- The header that a draft has so far. -/
def header (d : Draft) : Header :=
  { Header.ofPayload d.payload.length d.kind d.sequence d.flags with portId := d.portId }

/-- The message of a draft. Its record has the length that the header says, so a payload
beyond thirty-two bits of length is cut. -/
def finish (d : Draft) : Message where
  header := d.header
  octets :=
    ((d.header.encode ++ d.payload).rightpad d.header.length.toNat 0).take d.header.length.toNat

/-! ### Steps -/

/-- A step of drafting. -/
inductive Step where
  | flags (flags : Flags)
  | sequence (sequence : UInt32)
  | portId (portId : UInt32)
  | body (body : Bytes)
  | value (type : UInt16) (value : Bytes)
  | text (type : UInt16) (text : String)
  | word (type : UInt16) (word : UInt32)
  deriving DecidableEq, Repr

/-- Takes one step. -/
def step (d : Draft) : Step → Except Fault Draft
  | .flags flags => .ok { d with flags }
  | .sequence sequence => .ok { d with sequence }
  | .portId portId => .ok { d with portId }
  | .body body => .ok (d.addBody body)
  | .value type value => d.addValue type value
  | .text type text => d.addText type text
  | .word type word => .ok (d.addWord type word)

/-- Takes steps in order. -/
def steps (d : Draft) (ss : List Step) : Except Fault Draft := ss.foldlM step d

end Draft

/-- The end of a dump, with its status. -/
def Message.done (sequence portId : UInt32) (status : Int32) : Message :=
  ({ kind := .done, flags := .multi, sequence, portId : Draft }.addBody
    (Word.le32 status.toUInt32)).finish

end Netlink
