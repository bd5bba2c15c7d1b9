import ProxyConfig.Text.Line
import ProxyConfig.Text.Span

/-! # Entries

An entry is a line, or an argument, of the form `key = value`. The comment goes first, then the first
`=` parts the key from the value, and both are trimmed. The value of a declaration is a list of
pieces: plain arguments first, and `key=value` properties from the first piece that has an `=`.
-/

namespace ProxyConfig

/-- A `key = value` item with the place of both halves. -/
structure Entry where
  line : Nat
  key : Span
  value : Span
deriving DecidableEq

namespace Entry

/-- Reads an entry off a text that starts at `column`; a text without `=` is none. -/
def parse? (line column : Nat) (s : Text) : Option Entry :=
  (Text.cut? '=' s.uncommented).map fun (key, value) =>
    ⟨line, .trimmed column key, .trimmed (column + key.length + 1) value⟩

/-- Reads an entry off a whole line. -/
def ofLine? (line : Nat) (s : Text) : Option Entry := parse? line 1 s

def keyRange (e : Entry) : Range := e.key.range e.line

def valueRange (e : Entry) : Range := e.value.range e.line

/-- From the start of the key to the end of the value. -/
def range (e : Entry) : Range := .between e.line e.key.column e.value.endColumn

/-- The comma-separated pieces of the value. -/
def arguments (e : Entry) : Pieces := .read e.value.column e.value.text

end Entry

/-- Reads one argument as a `key=value` property. -/
def Span.property? (argument : Span) (line : Nat) : Option Entry :=
  Entry.parse? line argument.column argument.text

/-- Whether an argument has no `=`, so that it is no property. -/
def Span.isPlain (argument : Span) : Bool := !argument.text.contains '='

namespace Pieces

/-- How many arguments stand before the first property. -/
def plainCount (p : Pieces) : Nat := (p.toList.takeWhile Span.isPlain).length

/-- The plain arguments between the first one, which is the type, and the first property. -/
def operands (p : Pieces) : List Span := (p.toList.takeWhile Span.isPlain).tail

/-- The arguments from the first property on. -/
def properties (p : Pieces) : List Span := p.toList.dropWhile Span.isPlain

end Pieces

end ProxyConfig
