import ProxyConfig.Schema.Section
import ProxyConfig.Text.Line
import ProxyConfig.Text.Pattern
import ProxyConfig.Text.Span

/-! # Sections

A line that starts with `[Name]` is a header. Its section runs to the last line before the next
header that is not blank, so that the blank lines between two sections belong to neither; the last
section runs to the end of the document.
-/

namespace ProxyConfig

/-- The pattern of a header: blanks, `[`, a name without `]` and `#`, and `]`. What stands behind the
bracket does not matter here. -/
def headerPattern : List PatternPart :=
  [.run 0 isBlank, .one (· == '['), .run 1 fun c => c != ']' && c != '#', .one (· == ']')]

/-- The name in a header line. -/
def headerName? (line : Text) : Option Span :=
  match PatternPart.match? headerPattern line with
  | some [margin, _, name, _] => some (.trimmed (margin.length + 2) name)
  | _ => none

/-- A header and the lines it owns, both ends included. -/
structure Section where
  name : Span
  startLine : Nat
  endLine : Nat
deriving DecidableEq

namespace Section

/-- The known section that the header names. -/
def kind? (s : Section) : Option SectionKind := Keyword.parse? s.name.text

/-- Where the name stands in the header. -/
def nameRange (s : Section) : Range := s.name.range s.startLine

/-- The numbers of the lines behind the header. -/
def bodyLines (s : Section) : List Nat :=
  List.range' (s.startLine + 1) (s.endLine - s.startLine)

/-- The headers of a document with the numbers of their lines. -/
def headers (lines : List Text) : List (Nat × Span) :=
  (lines.zipIdx 1).filterMap fun (line, number) => (headerName? line).map (number, ·)

/-- The last line up to the given one that is not blank; never before line 1. -/
def lastSolidLine (lines : List Text) : Nat → Nat
  | 0 => 0
  | 1 => 1
  | n + 2 => if (lines.getD (n + 1) []).allBlank then lastSolidLine lines (n + 1) else n + 2

/-- Gives each header the lines up to the next one. -/
def between (lines : List Text) : List (Nat × Span) → List Section
  | [] => []
  | [(start, name)] => [⟨name, start, lines.length⟩]
  | (start, name) :: (next, nextName) :: rest =>
    ⟨name, start, lastSolidLine lines (next - 1)⟩ :: between lines ((next, nextName) :: rest)

/-- The sections of a document, in order. -/
def ofLines (lines : List Text) : List Section := between lines (headers lines)

/-- The number, from 0, of the last section whose header stands before the line. A header line
itself therefore belongs to the section before it. -/
def indexAt? (sections : List Section) (line : Nat) : Option Nat :=
  ((sections.zipIdx.filter fun (s, _) => s.startLine < line).getLast?).map (·.2)

end Section

end ProxyConfig
