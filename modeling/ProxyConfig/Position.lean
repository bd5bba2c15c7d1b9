/-! # Positions and ranges

Lines and columns count from 1, and a column counts the Unicode scalar values before it on the line.
A range holds its start and not its end; `touches` admits the end too, because a cursor right behind
a word still refers to it.
-/

namespace ProxyConfig

/-- A point of a document. -/
structure Position where
  line : Nat
  column : Nat
deriving DecidableEq

namespace Position

/-- Document order: by line, then by column. -/
def before (p q : Position) : Bool :=
  p.line < q.line || (p.line == q.line && p.column < q.column)

/-- Document order, ends included. -/
def upTo (p q : Position) : Bool :=
  p.line < q.line || (p.line == q.line && p.column ≤ q.column)

/-- The position as it is written in reports. -/
def render (p : Position) : String := s!"{p.line}:{p.column}"

end Position

/-- A stretch of a document, from `start` up to but not including `stop`. -/
structure Range where
  start : Position
  stop : Position
deriving DecidableEq

namespace Range

/-- The range of the columns from `first` up to `last` on one line. -/
def between (line first last : Nat) : Range := ⟨⟨line, first⟩, ⟨line, last⟩⟩

/-- The range of `length` characters on one line. -/
def onLine (line column length : Nat) : Range := between line column (column + length)

/-- The empty range at a position. -/
def point (p : Position) : Range := ⟨p, p⟩

def isEmpty (r : Range) : Bool := r.start == r.stop

/-- Whether the position lies in the range, the end excluded. -/
def contains (r : Range) (p : Position) : Bool := r.start.upTo p && p.before r.stop

/-- Whether the position lies in the range, the end included. -/
def touches (r : Range) (p : Position) : Bool := r.start.upTo p && p.upTo r.stop

end Range

end ProxyConfig
