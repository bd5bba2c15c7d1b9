import ProxyConfig.Text.Cut

/-! # Lines and comments

Lines end at a line feed, and a carriage return before it belongs to the line end. A comment runs
from the first `#` of a line to its end.
-/

namespace ProxyConfig.Text

/-- The line without the one carriage return it may end with. -/
def dropReturn (line : Text) : Text :=
  if line.getLast? = some '\r' then line.dropLast else line

/-- The lines of a document. A final line feed is followed by one more, empty, line. -/
def lines (s : Text) : List Text := (pieces '\n' s).map dropReturn

/-- The part of a line before its comment. -/
def uncommented (line : Text) : Text := line.takeWhile (· != '#')

/-- Whether a line holds nothing but blanks and a comment. -/
def isVoid (line : Text) : Bool := (uncommented line).allBlank

end ProxyConfig.Text
