import ProxyConfig.Actor.Site

/-! # The cursor

What is to be completed depends on the line in front of the cursor: nothing in a comment, a section
name behind an opening bracket, and else what the section of the line holds.
-/

namespace ProxyConfig

/-- A position in a document at which a completion is asked for. -/
structure Cursor where
  doc : Document
  position : Position

/-- What can be completed at a cursor. -/
inductive CursorContext where
  | header
  | body (kind : SectionKind)
  | none
deriving DecidableEq

namespace Cursor

/-- The number of the line. -/
def line (c : Cursor) : Nat := c.position.line

def column (c : Cursor) : Nat := c.position.column

/-- The line of the cursor. -/
def lineText (c : Cursor) : Text := c.doc.line c.line

/-- The line without its comment. -/
def content (c : Cursor) : Text := c.lineText.uncommented

/-- The part of the line in front of the cursor. -/
def before (c : Cursor) : Text := c.lineText.take (c.column - 1)

/-- What can be completed here. -/
def context (c : Cursor) : CursorContext :=
  if c.before.contains '#' then .none
  else if c.before.trimStart.head? = some '[' then .header
  else
    match c.doc.kindAt? c.line with
    | some kind => .body kind
    | none => .none

/-- The entry on the line. -/
def entry? (c : Cursor) : Option Entry := Entry.parse? c.line 1 c.content

/-- The column of the first `=` of the line. -/
def equalsColumn? (c : Cursor) : Option Nat :=
  (Text.cut? '=' c.content).map fun (key, _) => key.length + 1

/-- The number of the piece under the cursor in a text that starts at `start`. -/
def pieceIndex (c : Cursor) (s : Text) (start : Nat) : Nat := pieceIndexAt s start c.column

/-- The range to replace when a word is completed: the word, up to the cursor if that is behind it.
An empty word is completed at the cursor. -/
def wordRange (c : Cursor) (word : Span) : Range :=
  if word.isEmpty then .point c.position
  else .between c.line word.column (max word.endColumn c.column)

/-- The declaration on the line if the cursor is in its value, and the number of the argument that
the cursor is in. -/
def argument? (c : Cursor) : Option (Entry × Nat) := do
  let equals ← c.equalsColumn?
  let entry ← c.entry?
  if equals < c.column then some (entry, c.pieceIndex entry.value.text entry.value.column)
  else none

end Cursor

end ProxyConfig
