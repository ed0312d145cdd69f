/-!
# Policies

What a caller decides about an exchange: how large the receive buffer is, whether the end of a
dump must be long enough to hold its status, and how often an interrupted call is repeated.
-/

namespace Netlink

/-- How exchanges are run. -/
structure Policy where
  /-- Size of the receive buffer in octets. -/
  bufferSize : Nat := 4096
  /-- The end of a dump must be long enough to hold its status. -/
  strictDone : Bool := true
  /-- How often an interrupted call is repeated; without a number, until it is not
  interrupted. -/
  retries : Option Nat := none
  deriving DecidableEq, Repr

namespace Policy

/-- The policy that takes the end of a dump as it comes. -/
def lenient : Policy := { strictDone := false }

/-- An interrupted call that was repeated `attempt` times is repeated again. -/
def mayRetry (p : Policy) (attempt : Nat) : Bool :=
  match p.retries with
  | some limit => attempt < limit
  | none => true

end Policy

end Netlink
