import Netlink.Message.Basic

/-!
# The Course of a Reply

A reply is one or more datagrams. While the last message seen is one of several and does not
end the reply, another datagram follows. A `History` holds what is to be known of the messages
seen so far, and decides two questions: whether the reply goes on (`History.wantsMore`), and,
once it does not, whether it ended as it should (`History.verdict`).
-/

namespace Netlink

/-- What a reply must end with. -/
inductive Expectation where
  /-- Data; if any message was one of several, the end of a dump. -/
  | data
  /-- An error or acknowledgement. -/
  | acknowledgement
  deriving DecidableEq, Repr

/-- What was seen of a reply. -/
structure History where
  /-- Kind of the last message. -/
  lastKind : Option Kind := none
  /-- Flags of the last message. -/
  lastFlags : Flags := ∅
  /-- Some message was one of several. -/
  multipart : Bool := false
  deriving DecidableEq, Repr

namespace History

/-- The history after one more message. -/
def note (h : History) (m : Message) : History where
  lastKind := some m.header.kind
  lastFlags := m.header.flags
  multipart := h.multipart || m.isMultipart

/-- Another datagram follows: the last message is one of several, and does not end the
reply. -/
def wantsMore (h : History) : Bool :=
  h.lastFlags.contains .multi && !h.lastKind.any Kind.isTerminal

/-- The kind of message with which the reply must end. A reply that was ever of several messages
must end as a dump does, even if later messages were not marked so. -/
def required (h : History) : Expectation → Option Kind
  | .acknowledgement => some .error
  | .data => if h.multipart then some .done else none

/-- What is wrong with a reply that ends here. -/
def verdict (h : History) (e : Expectation) : Option Breach :=
  match h.required e with
  | none => none
  | some kind => if h.lastKind = some kind then none else some (.ending kind h.lastKind)

end History

end Netlink
