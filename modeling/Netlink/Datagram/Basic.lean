import Netlink.Message.Basic
import Netlink.Wire.Framing

/-!
# Datagrams

A datagram carries messages one after the other, each on an aligned offset from the one before
it. Unpacking gives them in order and ends at the first record whose length is below the size
of a header or above what is left.
-/

namespace Netlink.Datagram

/-- How the messages of a datagram are told apart. -/
def framing : Framing Header where
  headSize := Header.size
  headSize_pos := by decide
  head? bs := (Header.read? bs).map (·.1)
  declared h := h.length.toNat

/-- The message that an entry holds. -/
def ofEntry (e : Framing.Entry Header) : Message where
  header := e.head
  octets := e.octets

/-- Splits the next message off what is left of a datagram. -/
def next? (w : Window) : Option Message × Window :=
  let (entry, w) := framing.next? w
  (entry.map ofEntry, w)

/-- Splits off all messages, each with how many octets were left after it, and gives what is
left of the datagram. -/
def walk (w : Window) : List (Message × Nat) × Window :=
  let (entries, last) := framing.walk w
  (entries.map fun (e, w) => (ofEntry e, w.remaining), last)

/-- All messages of a datagram. -/
def messages (datagram : Bytes) : List Message :=
  (framing.entries (.whole datagram)).map ofEntry

/-- A datagram has no more messages than octets. -/
theorem length_messages_le (datagram : Bytes) : (messages datagram).length ≤ datagram.length := by
  rw [messages, List.length_map]
  exact framing.length_entries_le (.whole datagram)

end Netlink.Datagram
