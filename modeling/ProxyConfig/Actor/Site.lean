import ProxyConfig.Actor.Namespace
import ProxyConfig.Schema.Group
import ProxyConfig.Schema.Rule

/-! # Where actor names stand

A name stands in declarations, among the actors of groups, as the `last-resort` of groups, and as the
target of rules. `Document.siteAt?` finds the site under a cursor, `Document.sites` all sites of a
name; both read the same three kinds of lines.
-/

namespace ProxyConfig

/-- What a name does where it stands. -/
inductive NameRole where
  | declaration (kind : ActorKind)
  | member
  | lastResort
  | ruleTarget
deriving DecidableEq

/-- An actor name, its place, and what it does there. -/
structure NameSite where
  name : Text
  range : Range
  role : NameRole
deriving DecidableEq

namespace Span

/-- The span as a site on a line. -/
def site (span : Span) (line : Nat) (role : NameRole) : NameSite :=
  ⟨span.text, span.range line, role⟩

end Span

/-- How many commas stand before the column in a text that starts at `start`: the number of the
piece that the column is in. -/
def pieceIndexAt (s : Text) (start column : Nat) : Nat := (s.take (column - start)).count ','

namespace Entry

/-- The value of a `last-resort` property. -/
def lastResort? (property : Entry) : Option Span :=
  if (Keyword.parse? property.key.text : Option GroupProperty) = some .lastResort then
    some property.value
  else none

/-- The declared name if the cursor is on it. -/
def declarationSiteAt? (entry : Entry) (kind : ActorKind) (p : Position) : Option NameSite :=
  if !entry.key.isEmpty && entry.keyRange.contains p then
    some (entry.key.site entry.line (.declaration kind))
  else none

/-- The actor or the last resort of a group declaration that the cursor touches. -/
def referenceSiteAt? (entry : Entry) (column : Nat) : Option NameSite :=
  if column < entry.value.column then none
  else
    let index := pieceIndexAt entry.value.text entry.value.column column
    match if index = 0 then none else entry.arguments.piece? index with
    | none => none
    | some argument =>
      match argument.property? entry.line with
      | none =>
        if !argument.isEmpty && argument.touches column then
          some (argument.site entry.line .member)
        else none
      | some property =>
        (property.lastResort?.filter fun value => !value.isEmpty && value.touches column).map
          fun value => value.site entry.line .lastResort

end Entry

/-- The piece of a rule that names its target: the second piece of a `FINAL` rule that has one, else
the third, whatever the type. -/
def ruleTarget? (pieces : Pieces) : Option Span :=
  match (Keyword.parse? pieces.first.text : Option RuleType), pieces.others with
  | some .final, target :: _ => some target
  | _, _ => pieces.piece? 2

/-- The target of a rule if the cursor touches it. -/
def NumberedLine.targetSiteAt? (line : NumberedLine) (column : Nat) : Option NameSite :=
  let index := pieceIndexAt line.text.uncommented 1 column
  match ruleTarget? line.pieces with
  | none => none
  | some target =>
    if index ≠ 0 ∧ !target.isEmpty ∧ line.pieces.piece? index = some target
        ∧ target.touches column then
      some (target.site line.number .ruleTarget)
    else none

namespace Document

/-- The actor name under the cursor. The cursor has to touch the name itself: blanks between
arguments, comments and columns behind the end of the line are no sites. -/
def siteAt? (doc : Document) (p : Position) : Option NameSite :=
  let line := doc.line p.line
  match doc.kindAt? p.line with
  | some .proxy =>
    (Entry.ofLine? p.line line).bind fun entry => entry.declarationSiteAt? .proxy p
  | some .proxyGroup =>
    (Entry.ofLine? p.line line).bind fun entry =>
      (entry.declarationSiteAt? .group p).or (entry.referenceSiteAt? p.column)
  | some .rule => NumberedLine.targetSiteAt? ⟨p.line, line⟩ p.column
  | _ => none

end Document

namespace Entry

/-- The declaration of the name by an entry. -/
def declarationSites (entry : Entry) (kind : ActorKind) (name : Text) : List NameSite :=
  if entry.key.text = name then [entry.key.site entry.line (.declaration kind)] else []

/-- The place of the name in one argument of a group declaration. -/
def referenceSites (entry : Entry) (name : Text) (argument : Span) : List NameSite :=
  match argument.property? entry.line with
  | none => if argument.text = name then [argument.site entry.line .member] else []
  | some property =>
    match property.lastResort? with
    | none => []
    | some value => if value.text = name then [value.site entry.line .lastResort] else []

end Entry

namespace Document

/-- The declarations of a name in the sections of a kind. -/
def declarationSites (doc : Document) (kind : ActorKind) (name : Text) : List NameSite :=
  (doc.entries kind.sectionKind).flatMap fun entry => entry.declarationSites kind name

/-- The sites of a name in group sections, each line from left to right. -/
def groupSites (doc : Document) (name : Text) (declarations : Bool) : List NameSite :=
  (doc.entries .proxyGroup).flatMap fun entry =>
    (if declarations then entry.declarationSites .group name else [])
      ++ entry.arguments.others.flatMap (entry.referenceSites name)

/-- The sites of a name as the target of rules. -/
def ruleSites (doc : Document) (name : Text) : List NameSite :=
  (doc.linesOf .rule).filterMap fun line =>
    ((ruleTarget? line.pieces).filter fun target => target.text == name).map
      fun target => target.site line.number .ruleTarget

/-- All sites of a name in the order of the document, with or without its declarations. The empty
name and names with `=` stand nowhere. -/
def sites (doc : Document) (name : Text) (declarations : Bool) : List NameSite :=
  if name.isEmpty || name.contains '=' then []
  else
    let found := (if declarations then doc.declarationSites .proxy name else [])
      ++ doc.groupSites name declarations ++ doc.ruleSites name
    found.mergeSort fun a b => a.range.start.upTo b.range.start

end Document

end ProxyConfig
