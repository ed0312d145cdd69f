/-!
# Message Flags

The sixteen flag bits of a message's header. Nine of them have names; the others are kept as
they came. Flags are combined as sets of bits.
-/

namespace Netlink

/-- A set of flag bits. -/
structure Flags where
  bits : UInt16
  deriving DecidableEq, Inhabited, Repr

namespace Flags

/-- The message asks for something. -/
def request : Flags := ⟨0x001⟩

/-- The message is one of several that make up a reply. -/
def multi : Flags := ⟨0x002⟩

/-- An acknowledgement is wanted. -/
def ack : Flags := ⟨0x004⟩

/-- The request is to be echoed. -/
def echo : Flags := ⟨0x008⟩

/-- A dump was inconsistent. -/
def dumpInterrupted : Flags := ⟨0x010⟩

/-- A dump was filtered. -/
def dumpFiltered : Flags := ⟨0x020⟩

/-- The whole table is asked for. -/
def root : Flags := ⟨0x100⟩

/-- All that match are asked for. -/
def matching : Flags := ⟨0x200⟩

/-- An atomic snapshot is asked for. -/
def atomic : Flags := ⟨0x400⟩

/-- A dump: the whole table, all that match. -/
def dump : Flags := ⟨0x300⟩

/-- The named flags of one bit each, by rising bit. -/
def singles : List Flags :=
  [request, multi, ack, echo, dumpInterrupted, dumpFiltered, root, matching, atomic]

/-- The bits that have a name. -/
def known : Flags := ⟨singles.foldl (fun bits f => bits ||| f.bits) 0⟩

instance : EmptyCollection Flags := ⟨⟨0⟩⟩

instance : Union Flags := ⟨fun a b => ⟨a.bits ||| b.bits⟩⟩

instance : Inter Flags := ⟨fun a b => ⟨a.bits &&& b.bits⟩⟩

instance : SDiff Flags := ⟨fun a b => ⟨a.bits &&& ~~~b.bits⟩⟩

/-- The bits that are in one of two sets and not in the other. -/
def symmDiff (a b : Flags) : Flags := ⟨a.bits ^^^ b.bits⟩

/-- The named bits that are not in a set. -/
def complement (a : Flags) : Flags := known \ a

/-- All bits of `b` are in `a`. -/
def contains (a b : Flags) : Bool := a ∩ b = b

/-- Some bit is in both sets. -/
def intersects (a b : Flags) : Bool := a ∩ b ≠ ∅

/-- The flags with the given bits, if all of them have names. -/
def ofNamedBits? (bits : UInt16) : Option Flags :=
  if known.contains ⟨bits⟩ then some ⟨bits⟩ else none

/-- The flags with those of the given bits that have names. -/
def ofBits (bits : UInt16) : Flags := known ∩ ⟨bits⟩

end Flags

end Netlink
