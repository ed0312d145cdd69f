/-!
# Columns of Text

Padding a text with blanks to the width of its column. Widths count characters, and a text
wider than its column is left as it is.
-/

namespace Netlink.Column

/-- A text at the right edge of its column. -/
def flushRight (width : Nat) (s : String) : String :=
  String.ofList (List.replicate (width - s.length) ' ') ++ s

/-- A text at the left edge of its column. -/
def flushLeft (width : Nat) (s : String) : String :=
  s ++ String.ofList (List.replicate (width - s.length) ' ')

end Netlink.Column
