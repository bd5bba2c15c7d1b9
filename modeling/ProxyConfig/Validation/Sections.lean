import ProxyConfig.Document
import ProxyConfig.Issue

/-! # Checking the section structure

What stands before the first header, and the headers themselves.
-/

namespace ProxyConfig.Document

/-- Content before the first header belongs to no section. -/
def strayContent (doc : Document) : List Diagnostic :=
  let first := (doc.sections.head?).map (·.startLine) |>.getD (doc.lineCount + 1)
  (doc.numbered.take (first - 1)).filterMap fun line =>
    if line.content.isEmpty then none
    else some (Issue.strayContent.on (line.content.range line.number))

/-- The text behind the last bracket of a header line, with its column. -/
def afterLastBracket? (header : Text) : Option Span :=
  let tail := (header.reverse.takeWhile (· != ']')).reverse
  if tail.length = header.length then none
  else some (.trimmed (header.length - tail.length + 1) tail)

/-- Text between the last bracket of a header and its comment. -/
def trailingHeaderText (doc : Document) (s : Section) : List Diagnostic :=
  match afterLastBracket? (doc.line s.startLine).uncommented.trimEnd with
  | none => []
  | some extra =>
    if extra.isEmpty then [] else [Issue.trailingHeaderText.on (extra.range s.startLine)]

/-- The report on the name of a header behind the earlier headers. -/
def checkSectionName (earlier : List Section) (s : Section) : List Diagnostic :=
  match s.kind? with
  | none => [(Issue.unknownSection s.name.text).on s.nameRange]
  | some kind =>
    match earlier.find? fun first => first.kind? == some kind with
    | none => []
    | some first =>
      [((Issue.duplicateSection s.name.text).on s.nameRange).withRelated first.nameRange
        (firstDefinition s.name.text)]

/-- The reports on the headers behind the earlier ones. -/
def checkHeadersFrom (doc : Document) (earlier : List Section) : List Section → List Diagnostic
  | [] => []
  | s :: rest =>
    doc.trailingHeaderText s ++ checkSectionName earlier s
      ++ doc.checkHeadersFrom (earlier ++ [s]) rest

/-- The report on the section structure. -/
def checkSections (doc : Document) : List Diagnostic :=
  doc.strayContent ++ doc.checkHeadersFrom [] doc.sections

end ProxyConfig.Document
