import ProxyConfig.Completion.Property

/-! # Completing proxies

Protocols, the properties that the protocol accepts, and the values of ciphers and switches. The name,
the host and the port are the user's to choose.
-/

namespace ProxyConfig

namespace Protocol

/-- The number of arguments in front of the properties, the protocol counted. -/
def positionalCount (p : Protocol) : Nat := if p.requiresHost then 3 else 1

/-- What the value of a property has to be, if the protocol accepts the property. -/
def valueKind? (p : Protocol) (property : Entry) : Option ValueKind :=
  ((Keyword.parse? property.key.text).filter p.accepts).map ProxyProperty.valueKind

end Protocol

namespace Cursor

/-- The offers in an argument that is, or may become, a property of a proxy. -/
def proxyPropertyItems (c : Cursor) (entry : Entry) (index : Nat) (protocol : Protocol)
    (argument : Span) : List CompletionItem :=
  match c.slot argument with
  | .key word hasEquals =>
    CompletionItem.propertyKeys protocol.required protocol.allowed (entry.keysBeside index)
      (c.wordRange word) hasEquals
  | .value property =>
    let range := c.wordRange property.value
    match protocol.valueKind? property with
    | some .cipher => CompletionItem.values aeadCiphers range
    | some .boolean => CompletionItem.booleans range
    | _ => []

/-- The offers in a `Proxy` section. -/
def proxyItems (c : Cursor) (snippets : Bool) : List CompletionItem :=
  match c.argument? with
  | none => []
  | some (entry, index) =>
    if index = 0 then c.typeItems entry.arguments snippets Protocol.snippet
    else
      match Keyword.parse? entry.arguments.first.text, entry.arguments.piece? index with
      | some protocol, some argument =>
        if index < protocol.positionalCount then []
        else c.proxyPropertyItems entry index protocol argument
      | _, _ => []

end Cursor

end ProxyConfig
