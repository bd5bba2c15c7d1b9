import ProxyConfig.PropertyList
import ProxyConfig.Value.Check

/-! # Checking a proxy

A proxy is `name = protocol, host, port, key=value, ...`. Host and port are there exactly if the
protocol requires them, and the properties are those of the protocol.
-/

namespace ProxyConfig

/-- The codes of the property lists of proxies. -/
def proxyPropertyCodes : PropertyCodes where
  expectedPair := "LC212"
  duplicate := "LC213"
  unknown := "LC214"
  notAllowed := "LC215"
  missing := "LC216"

/-- The properties of a protocol. -/
def Protocol.rules (p : Protocol) : PropertyRules ProxyProperty where
  required := p.required
  allowed := p.allowed
  notAllowed key :=
    s!"Key \"{String.ofList key}\" is not allowed in \"{Keyword.spelling p}\" protocol."
  codes := proxyPropertyCodes

/-- The report on the value of a proxy property. -/
def checkProxyValue (key : ProxyProperty) (property : Entry) : List Diagnostic :=
  match key.valueKind with
  | .cipher =>
    if isListed aeadCiphers property.value.text then []
    else [(Issue.unknownCipher property.value.text).on property.valueRange]
  | .boolean => (property.value.checkBoolean property.line).toList
  | .integer => (property.value.checkInteger property.line).toList
  | .method | .actor | .freeForm => []

/-- The report on the host and the port of a proxy that needs them. -/
def checkHostAndPort (entry : Entry) (operands : List Span) : List Diagnostic :=
  let host := operands[0]?.filter fun host => !host.isEmpty
  let port := operands[1]?.filter fun port => !port.isEmpty
  (if host.isSome then [] else [Issue.expectedHost.on entry.valueRange])
    ++ match port with
      | none => [Issue.expectedPort.on entry.valueRange]
      | some port => (port.checkPort entry.line).toList

/-- The report on the plain arguments behind the protocol. -/
def checkOperands (p : Protocol) (entry : Entry) (operands : List Span) : List Diagnostic :=
  let extra := operands.drop (if p.requiresHost then 2 else 0)
  (if p.requiresHost then checkHostAndPort entry operands else [])
    ++ extra.map fun argument => Issue.unexpectedArgument.on (argument.range entry.line)

/-- The report on the value of a proxy declaration: properties first, plain arguments after them. -/
def checkProxy (entry : Entry) : List Diagnostic :=
  let arguments := entry.arguments
  if arguments.first.isEmpty then [Issue.expectedProtocol.on entry.valueRange]
  else
    match (Keyword.parse? arguments.first.text : Option Protocol) with
    | none =>
      [(Issue.unknownProtocol arguments.first.text).on (arguments.first.range entry.line)]
    | some p =>
      p.rules.check entry.line entry.valueRange (fun key property _ => checkProxyValue key property)
          arguments.properties
        ++ checkOperands p entry arguments.operands

end ProxyConfig
