import ProxyConfig.Diagnostic
import ProxyConfig.Issue
import ProxyConfig.Json
import ProxyConfig.Toml

/-! # Settings

A settings file decides which diagnostics are shown, how bad a missing `FINAL` rule is, and whether
completions may have tab stops. What the file leaves out keeps its default, and unknown settings do not
matter.
-/

namespace ProxyConfig

/-- Which diagnostics are shown. -/
structure DiagnosticSettings where
  enabled : Bool := true
  /-- The severity of a missing `FINAL` rule; without one it is not reported. -/
  missingFinal : Option Severity := some .warning
  infoNotes : Bool := true
deriving DecidableEq

structure CompletionSettings where
  snippets : Bool := true
deriving DecidableEq

structure Settings where
  diagnostics : DiagnosticSettings := {}
  completion : CompletionSettings := {}
deriving DecidableEq

namespace Toml

/-- The parts of a value that is read as a record: by name in a table, by place in an array. A date is
a record none of whose parts is known here. -/
def parts? (names : List String) : Toml → Option (List (Option Toml))
  | .table _ _ fields => some (names.map fun name => fields.lookup name.toList)
  | .array items => some ((List.range names.length).map fun i => items[i]?)
  | .tables items =>
    some ((List.range names.length).map fun i => items[i]?.map (.table .block .header ·))
  | .moment _ => some (names.map fun _ => none)
  | _ => none

def boolean? : Toml → Option Bool
  | .boolean b => some b
  | _ => none

/-- Whether a value has nothing in it, as the value under the name of a choice must be. -/
def isVacant : Toml → Bool
  | .array items => items.isEmpty
  | .table _ _ fields => fields.isEmpty
  | .tables items => items.isEmpty
  | _ => false

/-- The name of a choice: a string, or a table whose one field has the name and nothing in it. -/
def choice? : Toml → Option Text
  | .string name => some name
  | .table _ _ [(name, value)] => if value.isVacant then some name else none
  | _ => none

/-- Reads a part, or takes the default if it is not there. -/
def part? {α : Type} (default : α) (read : Toml → Option α) : Option Toml → Option α
  | none => some default
  | some value => read value

end Toml

/-- The word for a severity that may be switched off. -/
def severityWord : Option Severity → String
  | some severity => severity.name
  | none => "ignore"

/-- The severity that a settings file names. -/
def severityOfWord? (word : Text) : Option (Option Severity) :=
  [some .error, some .warning, some .info, none].find? fun s => (severityWord s).toList == word

namespace DiagnosticSettings

def ofToml? (value : Toml) : Option DiagnosticSettings := do
  match ← value.parts? ["enabled", "missing_final", "info_notes"] with
  | [enabled, missingFinal, infoNotes] =>
    some {
      enabled := ← Toml.part? true Toml.boolean? enabled
      missingFinal := ← Toml.part? (some .warning) (fun v => v.choice?.bind severityOfWord?) missingFinal
      infoNotes := ← Toml.part? true Toml.boolean? infoNotes }
  | _ => none

/-- Whether a missing `FINAL` rule is reported. -/
def reportsMissingFinal (s : DiagnosticSettings) : Bool := s.missingFinal.isSome

/-- The diagnostic with the severity that is set for it. -/
def adjust (s : DiagnosticSettings) (d : Diagnostic) : Option Diagnostic :=
  if d.code = some Issue.missingFinal.code then
    s.missingFinal.map fun severity => { d with severity := severity }
  else some d

end DiagnosticSettings

namespace CompletionSettings

def ofToml? (value : Toml) : Option CompletionSettings := do
  match ← value.parts? ["snippets"] with
  | [snippets] => some ⟨← Toml.part? true Toml.boolean? snippets⟩
  | _ => none

end CompletionSettings

namespace Settings

/-- Reads the settings off the text of a settings file. -/
def parse? (s : Text) : Option Settings := do
  let fields ← Toml.parse? s
  some {
    diagnostics := ← Toml.part? {} DiagnosticSettings.ofToml? (fields.lookup "diagnostics".toList)
    completion := ← Toml.part? {} CompletionSettings.ofToml? (fields.lookup "completion".toList) }

/-- The diagnostics that are shown, with their severities. -/
def apply (s : Settings) (diagnostics : List Diagnostic) : List Diagnostic :=
  if s.diagnostics.enabled then
    (diagnostics.filterMap s.diagnostics.adjust).filter fun d =>
      s.diagnostics.infoNotes || d.severity != .info
  else []

def toJson (s : Settings) : Json :=
  .object
    [("diagnostics", .object
        [("enabled", .bool s.diagnostics.enabled),
          ("missing_final", .string (severityWord s.diagnostics.missingFinal)),
          ("info_notes", .bool s.diagnostics.infoNotes)]),
      ("completion", .object [("snippets", .bool s.completion.snippets)])]

end Settings

end ProxyConfig
