import ProxyConfig.Completion.Property

/-! # Completing proxy groups

Group types, actors, the properties that the type accepts, and the values of methods, switches and the
last resort. A group is never offered its own name.
-/

namespace ProxyConfig

/-- What the value of a property has to be, if the type accepts the property. -/
def GroupType.valueKind? (t : GroupType) (property : Entry) : Option ValueKind :=
  ((Keyword.parse? property.key.text).filter t.accepts).map GroupProperty.valueKind

namespace Cursor

/-- The offers in the value of a property of a group. -/
def groupValueItems (c : Cursor) (entry : Entry) (type : GroupType) (property : Entry) :
    List CompletionItem :=
  let range := c.wordRange property.value
  match type.valueKind? property with
  | some .method => CompletionItem.values groupMethods range
  | some .boolean => CompletionItem.booleans range
  | some .actor => CompletionItem.actors c.doc range (some entry.key.text)
  | _ => []

/-- The offers in an argument of a group behind its type. An argument without `=` is an actor if
more actors follow, a property key behind the first property, and may become either between. -/
def groupArgumentItems (c : Cursor) (entry : Entry) (index : Nat) (type : GroupType)
    (argument : Span) : List CompletionItem :=
  let keys (word : Span) (hasEquals : Bool) : List CompletionItem :=
    CompletionItem.propertyKeys type.required type.allowed (entry.keysBeside index)
      (c.wordRange word) hasEquals
  let actors (word : Span) : List CompletionItem :=
    CompletionItem.actors c.doc (c.wordRange word) (some entry.key.text)
  let plainCount := entry.arguments.plainCount
  match c.slot argument with
  | .value property => c.groupValueItems entry type property
  | .key word true => keys word true
  | .key word false =>
    if index + 1 < plainCount then actors word
    else if index < plainCount then keys word false ++ actors word
    else keys word false

/-- The offers in a `Proxy Group` section. -/
def groupItems (c : Cursor) (snippets : Bool) : List CompletionItem :=
  match c.argument? with
  | none => []
  | some (entry, index) =>
    if index = 0 then c.typeItems entry.arguments snippets GroupType.snippet
    else
      match Keyword.parse? entry.arguments.first.text, entry.arguments.piece? index with
      | some type, some argument => c.groupArgumentItems entry index type argument
      | _, _ => []

end Cursor

end ProxyConfig
