import ProxyConfig.PropertyList
import ProxyConfig.Value.Check

/-! # Checking a proxy group

A group is `name = type, actor, ..., key=value, ...` with at least one actor. Actors and the last
resort are looked up among all names of the document, so this needs those names.
-/

namespace ProxyConfig

/-- The codes of the property lists of groups. -/
def groupPropertyCodes : PropertyCodes where
  expectedPair := "LC310"
  duplicate := "LC311"
  unknown := "LC312"
  notAllowed := "LC313"
  missing := "LC314"

/-- The properties of a group type. -/
def GroupType.rules (t : GroupType) : PropertyRules GroupProperty where
  required := t.required
  allowed := t.allowed
  notAllowed key :=
    s!"Key \"{String.ofList key}\" is not allowed in a \"{Keyword.spelling t}\" group."
  codes := groupPropertyCodes

/-- The report on the value of a group property. -/
def checkGroupValue (names : List Text) (key : GroupProperty) (property : Entry) :
    List Diagnostic :=
  match key.valueKind with
  | .boolean => (property.value.checkBoolean property.line).toList
  | .integer => (property.value.checkInteger property.line).toList
  | .method =>
    if isListed groupMethods property.value.text then []
    else [(Issue.unknownMethod property.value.text).on property.valueRange]
  | .actor =>
    if names.contains property.value.text then []
    else [(Issue.unresolvedLastResort property.value.text).on property.valueRange]
  | .cipher | .freeForm => []

/-- The report on a known property of a group. In a `url-test` group the type itself decides about
`failover`. -/
def checkGroupProperty (t : GroupType) (names : List Text) (key : GroupProperty)
    (property : Entry) (argument : Span) : List Diagnostic :=
  (if key = .failover ∧ t = .urlTest then
      [Issue.failoverInUrlTest.on (argument.range property.line)]
    else [])
    ++ checkGroupValue names key property

/-- The report on one actor of a group. -/
def checkActor (names : List Text) (line : Nat) (actor : Span) : List Diagnostic :=
  if actor.isEmpty then [Issue.emptyActor.on (actor.range line)]
  else if names.contains actor.text then []
  else [(Issue.unresolvedActor actor.text).on (actor.range line)]

/-- The report on the actors of a group. -/
def checkActors (names : List Text) (entry : Entry) (actors : List Span) : List Diagnostic :=
  if actors.isEmpty then [Issue.noActors.on entry.valueRange]
  else actors.flatMap (checkActor names entry.line)

/-- The issue with a group type that is not known. -/
def unknownGroupType (name : Text) : Issue :=
  if name = removedGroupType.toList then .removedGroupType else .unknownGroupType name

/-- The report on the value of a group declaration: properties first, actors after them. -/
def checkGroup (names : List Text) (entry : Entry) : List Diagnostic :=
  let arguments := entry.arguments
  if arguments.first.isEmpty then [Issue.expectedGroupType.on entry.valueRange]
  else
    match (Keyword.parse? arguments.first.text : Option GroupType) with
    | none => [(unknownGroupType arguments.first.text).on (arguments.first.range entry.line)]
    | some t =>
      t.rules.check entry.line entry.valueRange (checkGroupProperty t names) arguments.properties
        ++ checkActors names entry arguments.operands

end ProxyConfig
