import ProxyConfig.Document

/-! # The namespace of actors

Proxies and proxy groups are actors, and they share one namespace. A name stands for its first
declaration, and proxies come before groups wherever their sections are.
-/

namespace ProxyConfig

/-- The two kinds of actors. -/
inductive ActorKind where
  | proxy
  | group
deriving DecidableEq

/-- The sections that declare actors of the kind. -/
def ActorKind.sectionKind : ActorKind → SectionKind
  | proxy => .proxy
  | group => .proxyGroup

/-- The declaration of an actor. -/
structure Declaration where
  kind : ActorKind
  entry : Entry
deriving DecidableEq

namespace Declaration

def name (d : Declaration) : Text := d.entry.key.text

def nameRange (d : Declaration) : Range := d.entry.keyRange

end Declaration

/-- A list of declarations together with the set of their names. -/
structure Namespace where
  declarations : List Declaration
  known : List Text
  mem_known : ∀ name, name ∈ known ↔ name ∈ declarations.map Declaration.name

namespace Namespace

def empty : Namespace := ⟨[], [], fun _ => Iff.rfl⟩

/-- Puts a declaration behind the others. -/
def add (ns : Namespace) (d : Declaration) : Namespace where
  declarations := ns.declarations ++ [d]
  known := ns.known.insert d.name
  mem_known name := by
    rw [List.mem_insert_iff, ns.mem_known, List.map_append, List.mem_append, List.map_singleton,
      List.mem_singleton, or_comm]

theorem declarations_foldl_add (ns : Namespace) (ds : List Declaration) :
    (ds.foldl add ns).declarations = ns.declarations ++ ds := by
  induction ds generalizing ns with
  | nil => rw [List.foldl_nil, List.append_nil]
  | cons d rest ih => rw [List.foldl_cons, ih, add, List.append_assoc, List.singleton_append]

end Namespace

namespace Document

/-- The declarations of one kind. -/
def declarations (doc : Document) (kind : ActorKind) : List Declaration :=
  (doc.entries kind.sectionKind).map (⟨kind, ·⟩)

/-- All declarations of a document: the proxies, then the groups, each in order. -/
def actors (doc : Document) : Namespace :=
  [ActorKind.proxy, .group].foldl (fun ns kind => (doc.declarations kind).foldl Namespace.add ns)
    .empty

theorem declarations_actors (doc : Document) :
    doc.actors.declarations = doc.declarations .proxy ++ doc.declarations .group := by
  rw [actors, List.foldl_cons, List.foldl_cons, List.foldl_nil, Namespace.declarations_foldl_add,
    Namespace.declarations_foldl_add]
  rfl

/-- The first declaration of a name, looked for among the proxies and then among the groups. -/
def declaration? (doc : Document) (name : Text) : Option Declaration :=
  ((doc.declarations .proxy).find? fun d => d.name == name).or
    ((doc.declarations .group).find? fun d => d.name == name)

end Document

namespace Namespace

def contains (ns : Namespace) (name : Text) : Bool := ns.known.contains name

/-- The first declaration of a name. -/
def get? (ns : Namespace) (name : Text) : Option Declaration :=
  ns.declarations.find? fun d => d.name == name

/-- The declared names, each once, in the order of their first declarations. -/
def names (ns : Namespace) : List Text := (ns.declarations.map Declaration.name).eraseDups

end Namespace

end ProxyConfig
