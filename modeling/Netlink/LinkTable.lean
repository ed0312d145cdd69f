import Netlink.Attribute.Chain
import Netlink.Family.Link
import Netlink.Request
import Netlink.Socket.Basic
import Netlink.Text.Column

/-!
# The Table of Links

Asks a kernel for all its network links and lists them, one line each: index, name, largest
packet and flags. The list is opened by the address of the socket and closed by the number of
datagrams that the reply took. A fault ends the list where it is.
-/

namespace Netlink

/-- A printed list: its lines, and the fault that ended it, if one did. -/
structure Listing where
  lines : List String
  fault : Option Fault
  deriving DecidableEq, Repr

namespace Listing

/-- The text of a list, each line ended. -/
def text (l : Listing) : String := String.join (l.lines.map (· ++ "\n"))

/-- A list with a line in front. -/
def cons (line : String) (l : Listing) : Listing := { l with lines := line :: l.lines }

end Listing

namespace LinkTable

/-- The attribute that holds the name of a link. -/
def nameType : UInt16 := 3

/-- The attribute that holds the size of the largest packet. -/
def packetType : UInt16 := 4

/-- How long a receive may wait. -/
def timeout : Duration := { seconds := 5 }

/-- The request for all links. -/
def request : Message :=
  ({ Draft.dumpRequest .getLink with sequence := 1 }.addBody (default : LinkInfo).encode).finish

/-- The first line of the table. -/
def opening (portId : UInt32) : String := "Bound routing socket, port ID " ++ toString portId

/-- The last line of the table. -/
def closing (datagrams : Nat) : String :=
  "Dump complete in " ++ toString datagrams ++ " datagram(s)"

/-- The line of a link. A name or a packet size that is missing is marked. -/
def line (info : LinkInfo) (name : Option String) (packet : Option UInt32) : String :=
  Column.flushRight 3 (toString info.index.toInt) ++ ": "
    ++ Column.flushLeft 16 (name.getD "?") ++ " mtu "
    ++ Column.flushLeft 6 ((packet.map toString).getD "-") ++ " flags 0x"
    ++ String.ofList (Hex.numeral info.flags.toNat)

/-- The line of a message about a link. -/
def lineOf (m : Message) : Except Fault String := do
  let info ← LinkInfo.decode (m.payload?.getD [])
  let attributes := Chain.ofMessage .route m
  return line info ((attributes.find? nameType).bind Attribute.text?)
    ((attributes.find? packetType).bind Attribute.word?)

/-- Reads the rest of a reply and lists the links in it. -/
def rows {σ : Type} [Endpoint σ] (r : Reply) (s : σ) : Listing × σ :=
  match _h : r.next s with
  | (none, r, s) => (⟨[closing r.datagrams], none⟩, s)
  | (some (.error fault), _, s) => (⟨[], some fault⟩, s)
  | (some (.ok m), r, s) =>
    if m.header.kind ≠ .newLink then
      rows r s
    else
      match lineOf m with
      | .error fault => (⟨[], some fault⟩, s)
      | .ok line =>
        let (rest, s) := rows r s
        (rest.cons line, s)
termination_by Endpoint.pending s + r.queue.length
decreasing_by all_goals exact Reply.next_decreases _h

/-- Asks an endpoint for all links and lists them. -/
def ofEndpoint {σ : Type} [Endpoint σ] (s : σ) : Listing × σ :=
  let (started, s) := Request.start {} .data request s
  match started with
  | .error fault => (⟨[], some fault⟩, s)
  | .ok r => rows r s

/-- Lists the links over an open socket. -/
def ofConnection (c : Connection) : Listing × Connection :=
  let (limited, kernel) := c.socket.setReadTimeout (some timeout) c.kernel
  match limited with
  | .error failure => (⟨[], some (.call failure)⟩, { c with kernel })
  | .ok () =>
    let (portId, kernel) := c.socket.portId kernel
    match portId with
    | .error failure => (⟨[], some (.call failure)⟩, { c with kernel })
    | .ok portId =>
      let (rest, c) := ofEndpoint { c with kernel }
      (rest.cons (opening portId), c)

/-- Opens a socket, lists the links and closes the socket. -/
def ofKernel (k : Kernel) : Listing × Kernel :=
  let (bound, k) := Socket.bind .route k
  match bound with
  | .error failure => (⟨[], some (.call failure)⟩, k)
  | .ok socket =>
    let (listing, c) := ofConnection ⟨socket, k⟩
    (listing, c.socket.close c.kernel)

end LinkTable

end Netlink
