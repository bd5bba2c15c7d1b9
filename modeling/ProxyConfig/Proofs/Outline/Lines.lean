import ProxyConfig.Proofs.Actor.Sites
import ProxyConfig.Proofs.Outline

/-! # The outline line by line

Every line of a section has at most one symbol, and the kind of the section says which. The outline of
a section is therefore a walk over its lines, and the list of all nodes of an outline is the walk over
the nodes of each line.
-/

namespace ProxyConfig

namespace Symbol

variable {R S : Type}

/-- The stretch of the document that the symbol stands for. -/
def range : Symbol R → R
  | node _ _ _ range _ _ => range

/-- Where the name of the symbol stands. -/
def selection : Symbol R → R
  | node _ _ _ _ selection _ => selection

def name : Symbol R → String
  | node name _ _ _ _ _ => name

def detail : Symbol R → String
  | node _ detail _ _ _ _ => detail

def kind : Symbol R → SymbolKind
  | node _ _ kind _ _ _ => kind

def children : Symbol R → List (Symbol R)
  | node _ _ _ _ _ children => children

section Node

variable (text about : String) (sort : SymbolKind) (whole part : R) (below : List (Symbol R))

@[simp] theorem range_node : (node text about sort whole part below).range = whole := rfl

@[simp] theorem selection_node : (node text about sort whole part below).selection = part := rfl

@[simp] theorem name_node : (node text about sort whole part below).name = text := rfl

@[simp] theorem detail_node : (node text about sort whole part below).detail = about := rfl

@[simp] theorem kind_node : (node text about sort whole part below).kind = sort := rfl

@[simp] theorem children_node : (node text about sort whole part below).children = below := rfl

end Node

theorem mapAll_eq_map (f : R → S) (symbols : List (Symbol R)) :
    mapAll f symbols = symbols.map (map f) := by
  induction symbols with
  | nil => rfl
  | cons symbol rest ih => rw [mapAll, ih, List.map_cons]

section Map

variable (f : R → S) (symbol : Symbol R)

@[simp] theorem name_map : (symbol.map f).name = symbol.name := by
  cases symbol
  rfl

@[simp] theorem detail_map : (symbol.map f).detail = symbol.detail := by
  cases symbol
  rfl

@[simp] theorem kind_map : (symbol.map f).kind = symbol.kind := by
  cases symbol
  rfl

@[simp] theorem range_map : (symbol.map f).range = f symbol.range := by
  cases symbol
  rfl

@[simp] theorem selection_map : (symbol.map f).selection = f symbol.selection := by
  cases symbol
  rfl

@[simp] theorem children_map : (symbol.map f).children = symbol.children.map (map f) := by
  cases symbol
  exact mapAll_eq_map f _

end Map

/-! ## All nodes -/

mutual

/-- The symbol and everything below it, in the order of the document. -/
def nodes : Symbol R → List (Symbol R)
  | node name detail kind range selection children =>
    node name detail kind range selection children :: nodesAll children

def nodesAll : List (Symbol R) → List (Symbol R)
  | [] => []
  | symbol :: rest => symbol.nodes ++ nodesAll rest

end

theorem nodes_eq (symbol : Symbol R) : symbol.nodes = symbol :: nodesAll symbol.children := by
  cases symbol
  rw [nodes]
  rfl

theorem nodesAll_eq_flatMap (symbols : List (Symbol R)) : nodesAll symbols = symbols.flatMap nodes := by
  induction symbols with
  | nil => rfl
  | cons symbol rest ih => rw [nodesAll, ih, List.flatMap_cons]

mutual

theorem nodes_map (f : R → S) : ∀ symbol : Symbol R, (symbol.map f).nodes = symbol.nodes.map (map f)
  | node _ _ _ _ _ children => by
    rw [map, nodes, nodes, List.map_cons, map, nodesAll_mapAll f children]

theorem nodesAll_mapAll (f : R → S) :
    ∀ symbols : List (Symbol R), nodesAll (mapAll f symbols) = (nodesAll symbols).map (map f)
  | [] => rfl
  | symbol :: rest => by
    rw [mapAll, nodesAll, nodesAll, List.map_append, nodes_map f symbol, nodesAll_mapAll f rest]

end

theorem nodesAll_append (symbols others : List (Symbol R)) :
    nodesAll (symbols ++ others) = nodesAll symbols ++ nodesAll others := by
  simp only [nodesAll_eq_flatMap, List.flatMap_append]

/-- The nodes of symbols that are picked from a list are found item by item. -/
theorem nodesAll_filterMap {α : Type} (items : List α) (symbol? : α → Option (Symbol R)) :
    nodesAll (items.filterMap symbol?) = items.flatMap fun a => nodesAll (symbol? a).toList := by
  rw [nodesAll_eq_flatMap, List.filterMap_eq_flatMap_toList, List.flatMap_assoc]
  simp only [nodesAll_eq_flatMap]

end Symbol

namespace Entry

/-- The symbol of an argument that is a property with a key. -/
def propertySymbol? (e : Entry) (argument : Span) : Option Symbol :=
  ((argument.property? e.line).filter fun property => !property.key.isEmpty).map
    fun property => .ofEntry property (String.ofList property.value.text) .property []

/-- The symbol of an argument that has a text. -/
def spanSymbol? (e : Entry) (detail : String) (kind : SymbolKind) (argument : Span) :
    Option Symbol :=
  if argument.isEmpty then none else some (.ofSpan argument e.line detail kind)

theorem propertySymbols_eq (e : Entry) :
    e.propertySymbols = e.arguments.properties.filterMap e.propertySymbol? := by
  rw [propertySymbols, List.filter_filterMap, List.map_filterMap]
  rfl

theorem spanSymbols_eq (e : Entry) (spans : List Span) (detail : String) (kind : SymbolKind) :
    e.spanSymbols spans detail kind = spans.filterMap (e.spanSymbol? detail kind) := by
  rw [spanSymbols, ← List.filterMap_eq_map, List.filterMap_filter]
  refine List.filterMap_congr fun a _ => ?_
  cases blank : a.isEmpty <;> simp [spanSymbol?, blank]

end Entry

namespace NumberedLine

/-- The entry on the line, if it has a key. -/
def keyed? (l : NumberedLine) : Option Entry := l.rawEntry?.filter fun e => !e.key.isEmpty

/-- The symbol of the line in a section of the kind. -/
def symbol? (l : NumberedLine) : SectionKind → Option Symbol
  | .general => l.keyed?.map fun e => .ofEntry e "setting" .key []
  | .env => l.keyed?.map fun e => .ofEntry e "variable" .key []
  | .proxy => l.keyed?.map Entry.proxySymbol
  | .proxyGroup => l.keyed?.map Entry.groupSymbol
  | .rule => l.ruleSymbol?
  | .host => l.keyed?.map Entry.hostSymbol
  | .onDemand => none

end NumberedLine

namespace Document

variable {doc : Document} {s : Section}

theorem keyedEntries_eq (doc : Document) (s : Section) :
    doc.keyedEntries s = (doc.body s).filterMap NumberedLine.keyed? := by
  rw [keyedEntries, List.filter_filterMap]
  rfl

theorem lineSymbols_eq (doc : Document) (s : Section) (kind : SectionKind) :
    doc.lineSymbols s kind = (doc.body s).filterMap fun l => l.symbol? kind := by
  cases kind <;> simp [lineSymbols, NumberedLine.symbol?, keyedEntries_eq, List.map_filterMap]

end Document

end ProxyConfig
