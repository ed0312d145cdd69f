import Netlink.Message.Basic

/-!
# Packing Messages

A packer collects messages into one datagram. Padding goes in front of a message, never after
the last one.
-/

namespace Netlink

/-- A datagram that is being filled. -/
structure Packer where
  octets : Bytes := []
  deriving DecidableEq, Repr

namespace Packer

/-- Appends a message, on the next boundary. -/
def push (p : Packer) (m : Message) : Packer := ⟨padded p.octets ++ m.octets⟩

/-- The datagram so far, and the packer emptied. -/
def take (p : Packer) : Bytes × Packer := (p.octets, {})

/-- The packer emptied. -/
def clear (_ : Packer) : Packer := {}

/-- How many octets the datagram has so far. -/
def size (p : Packer) : Nat := p.octets.length

/-- Nothing was appended yet. -/
def isEmpty (p : Packer) : Bool := p.octets.isEmpty

/-- The datagram that holds the given messages. -/
def pack (ms : List Message) : Bytes := (ms.foldl push {}).octets

end Packer

end Netlink
