import ProxyConfig.Position

/-! # Diagnostics

A diagnostic is one finding about a configuration: how bad it is, what it says, and where. It may
carry a stable code, the file it is about, a hint, and further places that explain it, such as the
first of two definitions.
-/

namespace ProxyConfig

/-- How bad a finding is. -/
inductive Severity where
  | info
  | warning
  | error
deriving DecidableEq

/-- The word for a severity. -/
def Severity.name : Severity → String
  | info => "info"
  | warning => "warning"
  | error => "error"

/-- A further place of a diagnostic and what is there. -/
structure Related where
  range : Range
  message : String
deriving DecidableEq

/-- A finding about a stretch of a configuration. -/
structure Diagnostic where
  severity : Severity
  message : String
  code : Option String := none
  range : Range
  file : Option String := none
  help : Option String := none
  related : List Related := []
deriving DecidableEq

namespace Diagnostic

def isError (d : Diagnostic) : Bool := d.severity == .error

def isWarning (d : Diagnostic) : Bool := d.severity == .warning

/-- Adds a further place. -/
def withRelated (d : Diagnostic) (range : Range) (message : String) : Diagnostic :=
  { d with related := d.related ++ [⟨range, message⟩] }

/-- Names the file that the diagnostic is about. -/
def inFile (d : Diagnostic) (file : String) : Diagnostic := { d with file := some file }

/-- The diagnostic as a report shows it: the finding, the place, the hint, and the further places,
each on lines of its own. -/
def render (d : Diagnostic) : String :=
  let code := match d.code with
    | some code => s!"[{code}]"
    | none => ""
  let file := match d.file with
    | some file => s!"{file}:"
    | none => ""
  let help := match d.help with
    | some help => s!"\n  = help: {help}"
    | none => ""
  let notes := d.related.map fun r => s!"\n  = note: {r.message} ({r.range.start.render})"
  s!"{d.severity.name}{code}: {d.message}\n  --> {file}{d.range.start.render}{help}{String.join notes}"

end Diagnostic

end ProxyConfig
