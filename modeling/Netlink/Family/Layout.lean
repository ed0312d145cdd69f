import Netlink.Message.Header
import Netlink.Attribute.Basic

/-!
# Family Layouts

Between a message's header and its attributes stands a header of the message's family. A
layout says how large it is and how large the heads of the attributes are, and with that where
the attributes start.
-/

namespace Netlink

/-- Where a family of messages keeps its attributes. -/
structure Layout where
  /-- Size of the family's header. -/
  familySize : Nat
  /-- Size of the head of an attribute. -/
  headSize : Nat := Attribute.headSize
  deriving DecidableEq, Repr

namespace Layout

/-- Offset of the attributes from the start of the message. -/
def offset (l : Layout) : Nat := aligned (Header.size + l.familySize)

end Layout

end Netlink
