import ProxyConfig.Diagnostic
import ProxyConfig.Json

/-! # Diagnostics as JSON

Absent parts are left out in writing. In reading they may also be `null`, unknown fields do not
matter, and a record may be written as the array of its parts in order. A severity may be written as
an object whose one field has its name and the value `null`. Coordinates are unsigned 64-bit numbers.
-/

namespace ProxyConfig

/-- A coordinate: an unsigned 64-bit number. -/
def coordinate? (json : Json) : Option Nat := json.natBelow? UInt64.size

namespace Position

def toJson (p : Position) : Json :=
  .object [("line", .ofNat p.line), ("column", .ofNat p.column)]

def ofJson? (json : Json) : Option Position := do
  match ← json.parts? ["line", "column"] with
  | [some line, some column] => some ⟨← coordinate? line, ← coordinate? column⟩
  | _ => none

end Position

namespace Range

def toJson (r : Range) : Json :=
  .object [("start", r.start.toJson), ("end", r.stop.toJson)]

def ofJson? (json : Json) : Option Range := do
  match ← json.parts? ["start", "end"] with
  | [some start, some stop] => some ⟨← Position.ofJson? start, ← Position.ofJson? stop⟩
  | _ => none

end Range

namespace Severity

def toJson (s : Severity) : Json := .string s.name

/-- The severity with the name. -/
def ofName? (name : String) : Option Severity :=
  [info, warning, error].find? fun s => s.name == name

def ofJson? : Json → Option Severity
  | .string name => ofName? name
  | .object [(name, .null)] => ofName? name
  | _ => none

end Severity

namespace Related

def toJson (r : Related) : Json :=
  .object [("range", r.range.toJson), ("message", .string r.message)]

def ofJson? (json : Json) : Option Related := do
  match ← json.parts? ["range", "message"] with
  | [some range, some message] => some ⟨← Range.ofJson? range, ← message.string?⟩
  | _ => none

end Related

namespace Diagnostic

def toJson (d : Diagnostic) : Json :=
  .record
    [("severity", some d.severity.toJson), ("message", some (.string d.message)),
      ("code", d.code.map .string), ("range", some d.range.toJson), ("file", d.file.map .string),
      ("help", d.help.map .string),
      ("related", if d.related.isEmpty then none else some (.array (d.related.map Related.toJson)))]

/-- Reads the list of further places; left out it is empty, but it is never `null`. -/
def relatedOfJson? : Option Json → Option (List Related)
  | none => some []
  | some json => do (← json.array?).mapM Related.ofJson?

/-- Reads a diagnostic off its parts. -/
def ofParts? (severity message range : Json) (code file help related : Option Json) :
    Option Diagnostic := do
  some {
    severity := ← Severity.ofJson? severity
    message := ← message.string?
    code := ← Json.optional? Json.string? code
    range := ← Range.ofJson? range
    file := ← Json.optional? Json.string? file
    help := ← Json.optional? Json.string? help
    related := ← relatedOfJson? related }

def ofJson? : Json → Option Diagnostic
  | .array (severity :: message :: code :: range :: rest) =>
    if rest.length ≤ 3 then ofParts? severity message range (some code) rest[0]? rest[1]? rest[2]?
    else none
  | json => do
    ofParts? (← json.field? "severity") (← json.field? "message") (← json.field? "range")
      (json.field? "code") (json.field? "file") (json.field? "help") (json.field? "related")

end Diagnostic

end ProxyConfig
