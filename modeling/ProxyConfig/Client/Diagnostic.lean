import ProxyConfig.Client.Encoding
import ProxyConfig.Client.Uri
import ProxyConfig.Diagnostic
import ProxyConfig.Release

/-! # Diagnostics for a client

A client gets a diagnostic in its own coordinates. The further places of a diagnostic always lie in
the same document, and the hint travels as the data of the diagnostic.
-/

namespace ProxyConfig

/-- A place in a document that a client knows by its address. -/
structure Location where
  uri : Uri
  range : ClientRange
deriving DecidableEq

def Location.toJson (place : Location) : Json :=
  .object [("uri", .string place.uri.render), ("range", place.range.toJson)]

/-- A diagnostic in a client's coordinates. -/
structure ClientDiagnostic where
  range : ClientRange
  severity : Severity
  code : Option String
  message : String
  related : List (Location × String)
  help : Option String
deriving DecidableEq

/-- The number by which clients know a severity. -/
def Severity.clientNumber : Severity → Nat
  | error => 1
  | warning => 2
  | info => 3

namespace ClientDiagnostic

/-- The name that clients show next to every diagnostic. -/
def source : String := Release.name

def relatedToJson (related : Location × String) : Json :=
  .object [("location", related.1.toJson), ("message", .string related.2)]

def toJson (d : ClientDiagnostic) : Json :=
  .record
    [("range", some d.range.toJson), ("severity", some (.ofNat d.severity.clientNumber)),
      ("code", d.code.map .string), ("source", some (.string source)),
      ("message", some (.string d.message)),
      ("relatedInformation",
        if d.related.isEmpty then none else some (.array (d.related.map relatedToJson))),
      ("data", d.help.map .string)]

end ClientDiagnostic

/-- The diagnostic in the coordinates of the client that knows the document by `uri`. -/
def ClientView.diagnostic (view : ClientView) (uri : Uri) (d : Diagnostic) : ClientDiagnostic where
  range := view.clientRange d.range
  severity := d.severity
  code := d.code
  message := d.message
  related := d.related.map fun r => (⟨uri, view.clientRange r.range⟩, r.message)
  help := d.help

end ProxyConfig
