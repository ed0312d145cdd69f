import Netlink.Text.Hex

/-!
# Kinds of Messages

The sixteen-bit code in a message's header that says what the message is. Codes below
sixteen control the exchange itself; the others belong to a subsystem. Two of the control
kinds end a reply: the end of a dump, and an error or acknowledgement.
-/

namespace Netlink

/-- What a message is. -/
structure Kind where
  code : UInt16
  deriving DecidableEq, Inhabited, Repr

namespace Kind

/-- Nothing; to be skipped. -/
def noop : Kind := ⟨1⟩

/-- An error, or with status zero an acknowledgement. -/
def error : Kind := ⟨2⟩

/-- The end of a multi-part reply. -/
def done : Kind := ⟨3⟩

/-- Data was lost. -/
def overrun : Kind := ⟨4⟩

/-- A link that exists, or has come to exist. -/
def newLink : Kind := ⟨16⟩

/-- A link that was removed. -/
def delLink : Kind := ⟨17⟩

/-- Asks for links. -/
def getLink : Kind := ⟨18⟩

/-- Changes a link. -/
def setLink : Kind := ⟨19⟩

/-- The kind of message `message` of subsystem `subsystem`. -/
def ofSubsystem (subsystem message : UInt8) : Kind :=
  ⟨subsystem.toUInt16 <<< 8 ||| message.toUInt16⟩

/-- Control kinds have the codes below sixteen. -/
def isControl (k : Kind) : Bool := k.code < 16

/-- A message of such a kind ends a reply. -/
def isTerminal (k : Kind) : Bool := k = done || k = error

/-- The name of a control kind that has one, or the code as four hexadecimal digits. -/
def name (k : Kind) : String :=
  if k = noop then "NLMSG_NOOP"
  else if k = error then "NLMSG_ERROR"
  else if k = done then "NLMSG_DONE"
  else if k = overrun then "NLMSG_OVERRUN"
  else "0x" ++ String.ofList (Hex.upperNumeral 4 k.code.toNat)

end Kind

end Netlink
