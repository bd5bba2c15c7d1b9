import ProxyConfig.Client.Uri.Escape
import ProxyConfig.Text.Cut

/-! # Paths

A path in normal form has no dot segments: a dot stands for the directory that it is in, and two dots
for the one above. A drive, such as `C:`, is not left by two dots. The path of a file address has one
slash at the start, and in it the bar behind the letter of a drive counts as a colon.
-/

namespace ProxyConfig.Uri

/-- Whether a segment of a path is the dot of the same directory. -/
def isDot (segment : Text) : Bool :=
  [".", "%2e"].contains (String.ofList (segment.map Char.toLower))

/-- Whether a segment of a path is the two dots of the directory above. -/
def isDoubleDot (segment : Text) : Bool :=
  ["..", ".%2e", "%2e.", "%2e%2e"].contains (String.ofList (segment.map Char.toLower))

/-- Whether a segment has a drive at its start, alone or before a backslash. -/
def hasDrive : Text → Bool
  | letter :: mark :: rest =>
    letter.isAlpha && (mark == ':' || mark == '|') && (rest.isEmpty || rest.head? == some '\\')
  | _ => false

/-- Whether a segment is a drive. -/
def isDrive (segment : Text) : Bool := segment.length == 2 && hasDrive segment

/-- Leaves the latest of the segments, which comes first. The root and a drive are not left. -/
def leave : List Text → List Text
  | [] => []
  | [root] => [root]
  | segment :: rest => if hasDrive segment then segment :: rest else rest

/-- Resolves the dot segments behind the segments that are already read, the latest of which comes
first. A dot segment at the end leaves the slash before it. -/
def resolveDots (read : List Text) : List Text → List Text
  | [] => read.reverse
  | segment :: rest =>
    let kept :=
      if isDoubleDot segment then leave read else if isDot segment then read else segment :: read
    if rest.isEmpty && (isDoubleDot segment || isDot segment) then ([] :: kept).reverse
    else resolveDots kept rest

/-- The normal form of a path that starts with a slash. -/
def normalPath (path : Text) : Text :=
  ['/'].intercalate (resolveDots [] (Text.pieces '/' (escape pathDelimiters path)))

/-- A segment of the path of a file, where a drive is written with a colon. -/
def fileSegment (segment : Text) : Text :=
  if isDrive segment then segment.take 1 ++ [':'] else segment

/-- The normal form of the path of a file. -/
def normalFilePath (path : Text) : Text :=
  let segments := (Text.pieces '/' (escape pathDelimiters path)).map fileSegment
  '/' :: (['/'].intercalate (resolveDots [] segments)).dropWhile (· == '/')

end ProxyConfig.Uri
