import Netlink.LinkTable

/-!
# Recorded Replies

A recording is a text with one datagram a line, in hexadecimal digits; blanks do not count, and
neither do lines that hold nothing else. A kernel that plays a recording delivers its datagrams
in order, so what is asked of it is answered as it was when the recording was made.
-/

namespace Netlink.Recording

/-- The datagrams of a recording, if all its lines can be read. -/
def datagrams? (text : String) : Option (List Bytes) :=
  let lines := (text.splitOn "\n").map fun line => line.toList.filter fun c => !c.isWhitespace
  (lines.filter fun line => !line.isEmpty).mapM Hex.ofDigits?

/-- The kernel that delivers the given datagrams. -/
def kernel (datagrams : List Bytes) : Kernel where
  deliveries := datagrams.map fun datagram => .ok { datagram }

/-- The links that a recorded reply lists. -/
def links (datagrams : List Bytes) : Listing := (LinkTable.ofKernel (kernel datagrams)).1

end Netlink.Recording
