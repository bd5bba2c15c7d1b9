import ProxyConfig.Document
import ProxyConfig.Issue

/-! # The lines of entry sections

Four of the section families hold one entry on a line. Their validators look at the lines that are
not void, in order, and each line is either an entry or lacks its `=`.
-/

namespace ProxyConfig

namespace Document

/-- The lines of the given sections that hold something besides a comment. -/
def solidLines (doc : Document) (sections : List Section) : List NumberedLine :=
  (sections.flatMap doc.body).filter fun line => !line.content.isEmpty

end Document

namespace NumberedLine

/-- The issue reported at all that the line holds. -/
def report (line : NumberedLine) (issue : Issue) : Diagnostic :=
  issue.on (line.content.range line.number)

end NumberedLine

/-- The first entry with the same key. -/
def Entry.firstAmong? (entry : Entry) (earlier : List Entry) : Option Entry :=
  earlier.find? fun first => first.key.text == entry.key.text

/-- The report on an entry whose key an earlier entry has, pointing back to the first of those. -/
def Entry.checkRepeated (entry : Entry) (earlier : List Entry) (issue : Issue) : List Diagnostic :=
  match entry.firstAmong? earlier with
  | none => []
  | some first =>
    [(issue.on entry.keyRange).withRelated first.keyRange (firstDefinition entry.key.text)]

end ProxyConfig
