import ProxyConfig.Actor.Namespace
import ProxyConfig.Schema.Proxy

/-! # Summaries of actors

What a reader wants to know about an actor: a line with its name and type, and a list of its parts.
-/

namespace ProxyConfig

/-- A line that names something, and text about it. -/
structure Summary where
  title : String
  description : Option String
deriving DecidableEq

/-- A list item with a label. -/
def labelled (label value : Text) : String :=
  s!"- {String.ofList label}: `{String.ofList value}`"

namespace Entry

/-- The list items of the properties in the value. -/
def propertyItems (entry : Entry) : List String :=
  (entry.arguments.properties.filterMap fun argument => argument.property? entry.line).map
    fun property => labelled property.key.text property.value.text

/-- The list items of the host and the port, if the protocol has them. -/
def endpointItems (entry : Entry) : List String :=
  match (Keyword.parse? entry.arguments.first.text : Option Protocol) with
  | none => []
  | some protocol =>
    if protocol.requiresHost then
      (["host", "port"].zip entry.arguments.operands).map fun (label, operand) =>
        labelled label.toList operand.text
    else []

/-- The list item that counts and lists the actors of a group. -/
def actorsItem (entry : Entry) : String :=
  let actors := (entry.arguments.operands.filter fun actor => !actor.isEmpty).map
    fun actor => s!"`{String.ofList actor.text}`"
  let names := ", ".intercalate actors
  s!"- actors ({actors.length}): {names}"

end Entry

namespace Declaration

/-- What kind of actor is declared. -/
def label (d : Declaration) : String :=
  match d.kind with
  | .proxy => "proxy"
  | .group => "proxy group"

/-- The list items about the declared actor. -/
def items (d : Declaration) : List String :=
  match d.kind with
  | .proxy => d.entry.endpointItems ++ d.entry.propertyItems
  | .group => d.entry.actorsItem :: d.entry.propertyItems

/-- What is shown about the declared actor. -/
def summary (d : Declaration) : Summary where
  title := s!"({d.label}) {String.ofList d.name} = {String.ofList d.entry.arguments.first.text}"
  description := if d.items.isEmpty then none else some ("\n".intercalate d.items)

end Declaration

end ProxyConfig
