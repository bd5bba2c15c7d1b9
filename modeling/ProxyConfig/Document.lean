import ProxyConfig.Entry
import ProxyConfig.Section

/-! # Documents

A document is its list of lines. Sections, entries and everything else are read off the lines each
time they are asked for.
-/

namespace ProxyConfig

/-- The lines of a configuration, without their line ends. -/
structure Document where
  lines : List Text

/-- A line with its number. -/
structure NumberedLine where
  number : Nat
  text : Text
deriving DecidableEq

namespace Document

def parse (s : Text) : Document := ⟨s.lines⟩

/-- The number of lines; a final line feed counts one more, empty, line. -/
def lineCount (doc : Document) : Nat := doc.lines.length

/-- The line with the given number, empty outside of the document. -/
def line (doc : Document) : Nat → Text
  | 0 => []
  | n + 1 => doc.lines.getD n []

/-- All lines with their numbers. -/
def numbered (doc : Document) : List NumberedLine :=
  (doc.lines.zipIdx 1).map fun (text, number) => ⟨number, text⟩

def sections (doc : Document) : List Section := Section.ofLines doc.lines

/-- The sections of one kind, in order. -/
def sectionsOf (doc : Document) (kind : SectionKind) : List Section :=
  doc.sections.filter fun s => s.kind? == some kind

def hasSection (doc : Document) (kind : SectionKind) : Bool := !(doc.sectionsOf kind).isEmpty

/-- The section whose body the line belongs to. -/
def sectionAt? (doc : Document) (line : Nat) : Option Section :=
  (Section.indexAt? doc.sections line).bind fun i => doc.sections[i]?

/-- The known section whose body the line belongs to. -/
def kindAt? (doc : Document) (line : Nat) : Option SectionKind :=
  (doc.sectionAt? line).bind Section.kind?

/-- The lines of a section behind its header. -/
def body (doc : Document) (s : Section) : List NumberedLine :=
  s.bodyLines.map fun n => ⟨n, doc.line n⟩

/-- The body lines of all sections of one kind. -/
def linesOf (doc : Document) (kind : SectionKind) : List NumberedLine :=
  (doc.sectionsOf kind).flatMap doc.body

/-- The entries of all sections of one kind. -/
def entries (doc : Document) (kind : SectionKind) : List Entry :=
  (doc.linesOf kind).filterMap fun line => Entry.ofLine? line.number line.text

end Document

namespace NumberedLine

/-- What a line holds besides blanks and its comment. -/
def content (line : NumberedLine) : Span := .trimmed 1 line.text.uncommented

/-- The entry on a line, read off its trimmed content. -/
def entry? (line : NumberedLine) : Option Entry :=
  Entry.parse? line.number line.content.column line.content.text

/-- The comma-separated pieces of a line without its comment. -/
def pieces (line : NumberedLine) : Pieces := .read 1 line.text.uncommented

end NumberedLine

end ProxyConfig
