import ProxyConfig.Actor.Namespace
import ProxyConfig.Validation.Group
import ProxyConfig.Validation.Lines
import ProxyConfig.Validation.Proxy

/-! # Checking actors

Proxies and groups share one namespace, so both kinds of sections are gone through together, in the
order of the document. A proxy is checked where it stands. Groups are checked after all lines,
because their actors may be declared further down.
-/

namespace ProxyConfig

/-- A line of a section that declares actors of the kind. -/
structure ActorLine where
  kind : ActorKind
  line : NumberedLine

/-- The kind of actors that a section declares. -/
def Section.actorKind? (s : Section) : Option ActorKind :=
  match s.kind? with
  | some .proxy => some .proxy
  | some .proxyGroup => some .group
  | _ => none

namespace ActorLine

/-- The declaration on the line. -/
def declaration? (l : ActorLine) : Option Declaration := l.line.entry?.map (⟨l.kind, ·⟩)

end ActorLine

/-- The lines that declare actors, in the order of the document. -/
def Document.actorLines (doc : Document) : List ActorLine :=
  doc.sections.flatMap fun s =>
    match s.actorKind? with
    | none => []
    | some kind => (doc.solidLines [s]).map (⟨kind, ·⟩)

namespace Declaration

/-- The first of the declarations of a kind that has the same name. -/
def firstAmong? (d : Declaration) (kind : ActorKind) (earlier : List Declaration) :
    Option Declaration :=
  earlier.find? fun first => first.kind == kind && first.name == d.name

/-- The issue with a second declaration in one kind, and the note at the first. -/
def duplicateIssue (d : Declaration) : Issue × String :=
  match d.kind with
  | .proxy =>
    (.duplicateProxy d.name, s!"First definition of proxy \"{String.ofList d.name}\" is here.")
  | .group =>
    (.duplicateGroup d.name,
      s!"First definition of proxy group \"{String.ofList d.name}\" is here.")

/-- The issue with a declaration whose name the other kind has, and the note at that one. -/
def conflictIssue (d : Declaration) : Issue × String :=
  match d.kind with
  | .proxy =>
    (.proxyNamedLikeGroup d.name, s!"Proxy group \"{String.ofList d.name}\" is defined here.")
  | .group =>
    (.groupNamedLikeProxy d.name, s!"Proxy \"{String.ofList d.name}\" is defined here.")

end Declaration

/-- The kind of actors that is not this one. -/
def ActorKind.other : ActorKind → ActorKind
  | proxy => group
  | group => proxy

/-- The report on a name that was declared before: by the same kind if it was, else by the other. -/
def checkName (earlier : List Declaration) (d : Declaration) : List Diagnostic :=
  match d.firstAmong? d.kind earlier, d.firstAmong? d.kind.other earlier with
  | some first, _ =>
    [(d.duplicateIssue.1.on d.nameRange).withRelated first.nameRange d.duplicateIssue.2]
  | none, some first =>
    [(d.conflictIssue.1.on d.nameRange).withRelated first.nameRange d.conflictIssue.2]
  | none, none => []

/-- The report on a declaration where it stands, behind the earlier ones. -/
def checkDeclaration (earlier : List Declaration) (d : Declaration) : List Diagnostic :=
  checkName earlier d
    ++ match d.kind with
      | .proxy => checkProxy d.entry
      | .group => []

/-- The reports on the lines behind the earlier declarations. -/
def checkDeclarationsFrom (earlier : List Declaration) : List ActorLine → List Diagnostic
  | [] => []
  | l :: rest =>
    match l.declaration? with
    | none => l.line.report .declarationWithoutEquals :: checkDeclarationsFrom earlier rest
    | some d => checkDeclaration earlier d ++ checkDeclarationsFrom (earlier ++ [d]) rest

/-- The report on proxies and proxy groups. -/
def Document.checkActors (doc : Document) : List Diagnostic :=
  let lines := doc.actorLines
  let declared := lines.filterMap ActorLine.declaration?
  let groups := declared.filter fun d => d.kind == .group
  checkDeclarationsFrom [] lines
    ++ groups.flatMap fun d => checkGroup (declared.map Declaration.name) d.entry

end ProxyConfig
