import ProxyConfig.Client.Encoding
import ProxyConfig.Document
import ProxyConfig.Schema.Rule

/-! # Outline

The outline of a document is a tree of symbols: the known sections, what each of their lines
declares, and the parts of a declaration. Lines that declare nothing, such as an entry without a key
or a rule with a wrong number of arguments, have no symbol, and neither has an `On Demand` section.
-/

namespace ProxyConfig

/-- What a symbol of the outline is. -/
inductive SymbolKind where
  | header
  | property
  | rule
  | actor
  | host
  | address
  | key
deriving DecidableEq

/-- The number by which clients know a kind of symbol. -/
def SymbolKind.clientNumber : SymbolKind → Nat
  | header => 3
  | property => 7
  | rule => 12
  | actor => 13
  | host => 15
  | address => 16
  | key => 20

/-- A node of the outline: a named stretch of the document, in which `selection` holds the name. -/
inductive Symbol (R : Type := Range) where
  | node (name detail : String) (kind : SymbolKind) (range selection : R)
    (children : List (Symbol R))

namespace Symbol

/-- A symbol without children that is a span of a line. -/
def ofSpan (span : Span) (line : Nat) (detail : String) (kind : SymbolKind) : Symbol :=
  node (String.ofList span.text) detail kind (span.range line) (span.range line) []

/-- The symbol of an entry, named by its key. -/
def ofEntry (entry : Entry) (detail : String) (kind : SymbolKind) (children : List Symbol) :
    Symbol :=
  node (String.ofList entry.key.text) detail kind entry.range entry.keyRange children

end Symbol

namespace Entry

/-- The symbols of the properties in the value, each with its value as the detail. -/
def propertySymbols (entry : Entry) : List Symbol :=
  ((entry.arguments.properties.filterMap fun argument => argument.property? entry.line).filter
    fun property => !property.key.isEmpty).map
      fun property => .ofEntry property (String.ofList property.value.text) .property []

/-- The symbols of the spans that have a text. -/
def spanSymbols (entry : Entry) (spans : List Span) (detail : String) (kind : SymbolKind) :
    List Symbol :=
  (spans.filter fun span => !span.isEmpty).map fun span => .ofSpan span entry.line detail kind

def proxySymbol (entry : Entry) : Symbol := .ofEntry entry "proxy" .actor entry.propertySymbols

def groupSymbol (entry : Entry) : Symbol :=
  .ofEntry entry "proxy group" .actor
    (entry.spanSymbols entry.arguments.operands "actor" .actor ++ entry.propertySymbols)

def hostSymbol (entry : Entry) : Symbol :=
  .ofEntry entry "host name" .host
    (entry.spanSymbols entry.arguments.toList "IP address" .address)

end Entry

/-- The symbol of a rule, named by all but its target, which is its child. -/
def NumberedLine.ruleSymbol? (line : NumberedLine) : Option Symbol := do
  let pieces := line.pieces.toList
  let rule : RuleType ← Keyword.parse? line.pieces.first.text
  if pieces.length ≠ rule.arity + 1 then none
  else
    let target ← pieces[rule.targetIndex]?
    let name := (pieces.take rule.arity).map fun piece => String.ofList piece.text
    let children :=
      if target.isEmpty then [] else [.ofSpan target line.number "outbound" .actor]
    some (.node (", ".intercalate name) "rule" .rule (line.content.range line.number)
      (line.pieces.first.range line.number) children)

namespace Document

/-- The entries of one section that have a key. -/
def keyedEntries (doc : Document) (s : Section) : List Entry :=
  ((doc.body s).filterMap fun line => Entry.ofLine? line.number line.text).filter
    fun entry => !entry.key.isEmpty

/-- The symbols of the lines of a section. -/
def lineSymbols (doc : Document) (s : Section) : SectionKind → List Symbol
  | .general => (doc.keyedEntries s).map fun entry => .ofEntry entry "setting" .key []
  | .env => (doc.keyedEntries s).map fun entry => .ofEntry entry "variable" .key []
  | .proxy => (doc.keyedEntries s).map Entry.proxySymbol
  | .proxyGroup => (doc.keyedEntries s).map Entry.groupSymbol
  | .rule => (doc.body s).filterMap NumberedLine.ruleSymbol?
  | .host => (doc.keyedEntries s).map Entry.hostSymbol
  | .onDemand => []

/-- From the header to the end of the last line of a section. -/
def sectionRange (doc : Document) (s : Section) : Range :=
  ⟨⟨s.startLine, 1⟩, ⟨s.endLine, (doc.line s.endLine).length + 1⟩⟩

/-- The symbol of a section with a known name. -/
def sectionSymbol? (doc : Document) (s : Section) : Option Symbol := do
  let kind ← s.kind?
  if kind = .onDemand then none
  else
    some (.node (Keyword.spelling kind) "section" .header (doc.sectionRange s) s.nameRange
      (doc.lineSymbols s kind))

/-- The outline of a document. -/
def outline (doc : Document) : List Symbol := doc.sections.filterMap doc.sectionSymbol?

end Document

mutual

/-- The symbol and everything below it, one line each, indented by two blanks for each level. -/
def Symbol.render (depth : Nat) : Symbol → String
  | .node name detail _ _ selection children =>
    let indent := "".pushn ' ' (2 * depth)
    s!"{indent}{name} ({detail}) :{selection.start.line}\n" ++ renderSymbols (depth + 1) children

def renderSymbols (depth : Nat) : List Symbol → String
  | [] => ""
  | symbol :: rest => symbol.render depth ++ renderSymbols depth rest

end

/-- The outline of a document as a text. -/
def outlineText (s : Text) : String := renderSymbols 0 (Document.parse s).outline

namespace Symbol

variable {R S : Type}

mutual

/-- The same tree with other ranges. -/
def map (f : R → S) : Symbol R → Symbol S
  | node name detail kind range selection children =>
    node name detail kind (f range) (f selection) (mapAll f children)

def mapAll (f : R → S) : List (Symbol R) → List (Symbol S)
  | [] => []
  | symbol :: rest => symbol.map f :: mapAll f rest

end

mutual

/-- The symbol in a client's coordinates. -/
def toJson : Symbol ClientRange → Json
  | node name detail kind range selection children =>
    .record
      [("name", some (.string name)), ("detail", some (.string detail)),
        ("kind", some (.ofNat kind.clientNumber)),
        ("range", some range.toJson),
        ("selectionRange", some selection.toJson),
        ("children", if children.isEmpty then none else some (.array (listJson children)))]

def listJson : List (Symbol ClientRange) → List Json
  | [] => []
  | symbol :: rest => symbol.toJson :: listJson rest

end

end Symbol

namespace ClientView

/-- The symbols in the client's coordinates. Their offsets count characters until they are encoded. -/
def clientSymbols (view : ClientView) (symbols : List Symbol) : List (Symbol ClientRange) :=
  Symbol.mapAll view.encoded (Symbol.mapAll Range.toClient symbols)

/-- The outline that a client gets. -/
def symbols (view : ClientView) : List (Symbol ClientRange) := view.clientSymbols view.doc.outline

def symbolsJson (view : ClientView) (symbols : List Symbol) : List Json :=
  Symbol.listJson (view.clientSymbols symbols)

end ClientView

end ProxyConfig
