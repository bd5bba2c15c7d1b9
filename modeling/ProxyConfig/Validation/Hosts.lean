import ProxyConfig.Validation.Lines
import ProxyConfig.Value.Check

/-! # Checking hosts

Every line is `host = address, address...`, and a host occurs once.
-/

namespace ProxyConfig

/-- The report on a host behind the earlier ones. -/
def checkHost (earlier : List Entry) (entry : Entry) : List Diagnostic :=
  entry.checkRepeated earlier (.duplicateHost entry.key.text)
    ++ entry.arguments.toList.flatMap fun address => (address.checkAddress entry.line).toList

/-- The reports on the lines behind the earlier hosts. -/
def checkHostsFrom (earlier : List Entry) : List NumberedLine → List Diagnostic
  | [] => []
  | line :: rest =>
    match line.entry? with
    | none => line.report .hostWithoutEquals :: checkHostsFrom earlier rest
    | some entry => checkHost earlier entry ++ checkHostsFrom (earlier ++ [entry]) rest

/-- The report on the hosts. -/
def Document.checkHosts (doc : Document) : List Diagnostic :=
  checkHostsFrom [] (doc.solidLines (doc.sectionsOf .host))

end ProxyConfig
