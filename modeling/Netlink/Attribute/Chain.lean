import Netlink.Attribute.Basic
import Netlink.Family.Layout
import Netlink.Message.Basic
import Netlink.Wire.Framing

/-!
# Attribute Chains

The attributes of a message stand one after the other in a window of its octets. A chain is
that window, with the size of the heads. A malformed attribute ends the chain: it and what
follows count as absent.
-/

namespace Netlink

/-- Attributes that are still to be read. -/
structure Chain where
  window : Window
  /-- Size of the head of an attribute; it is never below four. -/
  headSize : Nat
  deriving DecidableEq, Repr

namespace Chain

/-- How attributes with heads of the given size are told apart. A head that is larger than its
length and type has them in front. -/
def framing (headSize : Nat) : Framing Attribute.Head where
  headSize := max headSize Attribute.headSize
  headSize_pos := by
    have : 0 < Attribute.headSize := by decide
    omega
  head? := Attribute.Head.decode?
  declared head := head.length.toNat

/-- The chain in `length` octets of `buffer` from offset `start` on. -/
def ofRange (buffer : Bytes) (start length headSize : Nat) : Chain where
  window := .ofRange buffer start length
  headSize := headSize

/-- The chain of a message of the given layout, up to the length that its header says. -/
def ofMessage (l : Layout) (m : Message) : Chain :=
  .ofRange m.octets l.offset (m.header.length.toNat - l.offset) l.headSize

/-- How many octets are left. -/
def remaining (c : Chain) : Nat := c.window.remaining

/-- The attribute that an entry holds. -/
def ofEntry (c : Chain) (e : Framing.Entry Attribute.Head) : Attribute where
  head := e.head
  value := e.octets.drop (framing c.headSize).headSize

/-- Splits the next attribute off the chain. -/
def next? (c : Chain) : Option Attribute × Chain :=
  let (entry, window) := (framing c.headSize).next? c.window
  (entry.map c.ofEntry, { c with window })

/-- Splits off all attributes, each with how many octets were left after it, and gives what is
left of the chain. -/
def walk (c : Chain) : List (Attribute × Nat) × Chain :=
  let (entries, window) := (framing c.headSize).walk c.window
  (entries.map fun (e, w) => (c.ofEntry e, w.remaining), { c with window })

/-- All attributes of the chain. -/
def attributes (c : Chain) : List Attribute :=
  ((framing c.headSize).entries c.window).map c.ofEntry

/-- The first attribute of the given type. -/
def find? (c : Chain) (type : UInt16) : Option Attribute :=
  c.attributes.find? (·.head.type = type)

end Chain

end Netlink
