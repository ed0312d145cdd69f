import Netlink.Recording

/-!
# Command Line

Reads a recording of a kernel's answer to a request for its links from standard input, and
prints the table of links. What ended the table early is told on standard error.
-/

/-- Prints the links of a recorded reply. -/
def main : IO UInt32 := do
  let text ← (← IO.getStdin).readToEnd
  match Netlink.Recording.datagrams? text with
  | none =>
    IO.eprintln "a line is no run of hexadecimal digits"
    return 2
  | some datagrams =>
    let listing := Netlink.Recording.links datagrams
    IO.print listing.text
    match listing.fault with
    | none => return 0
    | some fault =>
      IO.eprintln fault.message
      return 1
