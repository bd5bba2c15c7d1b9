import ProxyConfig.Toml.Scalar
import ProxyConfig.Toml.Table

/-! # TOML documents

A document is a list of lines with assignments and headers. Brackets nest less than eighty deep, and a
key has less than eighty parts.
-/

namespace ProxyConfig.Toml

namespace Grammar

open Reader

/-- One more than the depth of brackets and the number of parts of a key. -/
def depthLimit : Nat := 80

/-- The characters that a key without quotes is made of. -/
def isKeyChar (c : Char) : Bool := c.isAlphanum || c == '_' || c == '-'

/-- One part of a key. -/
def simpleKey : Reader Text :=
  basicString <|> literalString <|> do
    let name ← takeWhile isKeyChar
    if name.isEmpty then failure else return name

/-- A key, its parts between dots. -/
def path : Reader Path := do
  let parts ← separated (blanks *> simpleKey <* blanks) '.'
  match parts.getLast? with
  | some name => if parts.length < depthLimit then return ⟨parts.dropLast, name⟩ else failure
  | none => failure

/-- A key, an equals sign and a value. -/
def assignment (value : Reader Toml) : Reader Assignment := do
  let path ← path
  discard (char '=')
  discard blanks
  return ⟨path, ← value⟩

/-- Values between brackets. A comma may follow the last one. -/
def array (value : Reader Toml) : Reader Toml := do
  discard (char '[')
  let items ← maybe (separated (gap *> value <* gap) ',')
  if items.isSome then discard (maybe (char ','))
  gap
  discard (char ']')
  return .array (items.getD [])

/-- Assignments between braces, all on one line. -/
def inlineTable (value : Reader Toml) : Reader Toml := do
  discard (char '\x7b')
  let assignments ← maybe (separated (assignment value <* blanks) ',')
  discard blanks
  discard (char '\x7d')
  match Fields.assignAll .inline [] (assignments.getD []) with
  | some fields => return .table .inline .header fields
  | none => failure

/-- A value with brackets at most so deep. -/
def value : Nat → Reader Toml
  | 0, s => scalar s
  | depth + 1, s => (scalar <|> array (value depth) <|> inlineTable (value depth)) s

/-- A line of a document. -/
inductive Line where
  | blank
  | assignment (assignment : Assignment)
  | header (path : Path) (repeated : Bool)

/-- The end of a line with a value or a header. -/
def lineEnd : Reader Unit := do
  discard blanks
  discard (maybe comment)
  match ← get with
  | [] => return
  | _ => newline

/-- A header in single or double brackets. -/
def header : Reader Line :=
  (do
    word "[["
    let path ← path
    word "]]"
    return .header path true)
  <|> do
    discard (char '[')
    let path ← path
    discard (char ']')
    return .header path false

/-- A line with its end. -/
def line : Reader Line := do
  discard blanks
  pure .blank <* newline <|> pure .blank <* (comment *> lineEnd) <|> header <* lineEnd
    <|> (Line.assignment <$> assignment (value (depthLimit - 1))) <* lineEnd

/-- The lines of a document; a byte order mark in front of them does not count. -/
def document : Reader (List Line) := do
  discard (maybe (char '\uFEFF'))
  let lines ← many line
  discard blanks
  return lines

end Grammar

open Grammar

/-- Collects the assignments in front of the first header, and those below each header. -/
def blocks : List Line → List Assignment × List Block
  | [] => ([], [])
  | .blank :: rest => blocks rest
  | .assignment a :: rest =>
    let (body, others) := blocks rest
    (a :: body, others)
  | .header path repeated :: rest =>
    let (body, others) := blocks rest
    ([], ⟨path, repeated, body⟩ :: others)

/-- The fields of a document. -/
def parse? (s : Text) : Option Fields := do
  let (body, blocks) := blocks (← Reader.run? document s)
  blocks.foldlM Fields.addBlock (← Fields.assignAll .block [] body)

end ProxyConfig.Toml
