import ProxyConfig.Position
import ProxyConfig.Text.Cut

/-! # Spans

A span is a trimmed piece of a line together with the column it starts at. All columns of the
library come from the two readers here, `Span.trimmed` and `Pieces.read`.
-/

namespace ProxyConfig

/-- A piece of a line and the column of its first character. -/
structure Span where
  text : Text
  column : Nat
deriving DecidableEq

namespace Span

def isEmpty (s : Span) : Bool := s.text.isEmpty

/-- The number of characters of the span. -/
def length (s : Span) : Nat := s.text.length

/-- The column behind the last character. -/
def endColumn (s : Span) : Nat := s.column + s.length

/-- The range the span covers on the given line. -/
def range (s : Span) (line : Nat) : Range := .onLine line s.column s.length

/-- Whether the column lies in the span or right behind it. -/
def touches (s : Span) (column : Nat) : Bool := s.column ≤ column && column ≤ s.endColumn

/-- The text without the blanks around it, placed where its first other character stands when the
text itself starts at `column`. A text of blanks stays at `column`. -/
def trimmed (column : Nat) (s : Text) : Span :=
  if s.allBlank then ⟨[], column⟩
  else ⟨s.trimStart.trimEnd, column + (s.takeWhile isBlank).length⟩

end Span

/-- The comma-separated pieces of a text: there is always a first one. -/
structure Pieces where
  first : Span
  others : List Span
deriving DecidableEq

namespace Pieces

def toList (p : Pieces) : List Span := p.first :: p.others

/-- Trims consecutive texts that stand one separator apart, the first of them at `column`. -/
def place (column : Nat) : List Text → List Span
  | [] => []
  | s :: rest => .trimmed column s :: place (column + s.length + 1) rest

/-- The pieces of a text that starts at `column`, cut at every comma and trimmed. -/
def read (column : Nat) (s : Text) : Pieces :=
  let (first, others) := Text.cutAll ',' s
  ⟨.trimmed column first, place (column + first.length + 1) others⟩

/-- The piece with the given number, counting from 0. -/
def piece? (p : Pieces) (i : Nat) : Option Span := p.toList[i]?

theorem place_length (column : Nat) (texts : List Text) :
    (place column texts).length = texts.length := by
  induction texts generalizing column with
  | nil => rfl
  | cons s rest ih => simp [place, ih]

/-- There is one piece more than there are commas. -/
theorem length_toList_read (column : Nat) (s : Text) :
    (read column s).toList.length = s.count ',' + 1 := by
  have := Text.pieces_length ',' s
  simp only [Text.pieces, List.length_cons] at this
  simp [toList, read, place_length, this]

end Pieces

end ProxyConfig
