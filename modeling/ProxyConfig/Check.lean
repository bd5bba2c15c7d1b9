import ProxyConfig.Diagnostic.Json
import ProxyConfig.Glob
import ProxyConfig.Json.Pretty
import ProxyConfig.Settings.File
import ProxyConfig.Validation

/-! # Checking files

A check takes paths and patterns, validates every file that they name, and reports on all of them, as
text for people or as JSON for tools.
-/

namespace ProxyConfig

/-- Why a check cannot be carried out. -/
inductive CheckError where
  | invalidPattern (input : String)
  | noSuchInput (input : String)
  | unreadable (path : String)
deriving DecidableEq

/-- The wording of a failed check. -/
def CheckError.message : CheckError → String
  | invalidPattern input => s!"Invalid glob pattern: {input}"
  | noSuchInput input => s!"Input file not found: {input}"
  | unreadable path => s!"Failed to read input file: {path}"

/-- A file and the report on it. -/
structure CheckedFile where
  file : String
  report : Report

/-- How a report is written. -/
inductive ReportFormat where
  | text
  | json
deriving DecidableEq

namespace CheckedFile

/-- The report on the content of a file under the given settings. -/
def ofContent (settings : Settings) (file content : String) : CheckedFile :=
  ⟨file, ⟨(settings.apply (validate content.toList)).map fun d => d.inFile file⟩⟩

/-- The lines about one file. -/
def render (checked : CheckedFile) : String :=
  if checked.report.isClean then s!"✓ No issues found in {checked.file}\n"
  else String.join (checked.report.diagnostics.map fun d => d.render ++ "\n\n")

def toJson (checked : CheckedFile) : Json :=
  .object
    [("file", .string checked.file), ("errors", .ofNat checked.report.errors),
      ("warnings", .ofNat checked.report.warnings),
      ("diagnostics", .array (checked.report.diagnostics.map Diagnostic.toJson))]

end CheckedFile

/-- The report on all files, without a line end behind it. -/
def renderReport (files : List CheckedFile) : ReportFormat → String
  | .json => (Json.array (files.map CheckedFile.toJson)).pretty
  | .text =>
    let total : Report := ⟨files.flatMap fun checked => checked.report.diagnostics⟩
    String.join (files.map CheckedFile.render)
      ++ s!"Checked {files.length} file(s): {total.errors} error(s) and {total.warnings} warning(s)"

section

variable {m : Type → Type} [Monad m] [FileSystem m]

/-- The files that an input names: the file with that path, or else the files that match it. -/
def expandInput (input : String) : m (Except CheckError (List String)) := do
  if ← FileSystem.isFile input then return .ok [input]
  match Glob.parse? input.toList with
  | none => return .error (.invalidPattern input)
  | some glob =>
    let files ← glob.files
    return if files.isEmpty then .error (.noSuchInput input) else .ok files

/-- The report on one file. -/
def checkFile (settings : Settings) (file : String) : m (Except CheckError CheckedFile) := do
  match ← FileSystem.readText file with
  | .error _ => return .error (.unreadable file)
  | .ok content => return .ok (.ofContent settings file content)

/-- Goes on with the items until the first failure. -/
def collect {α β : Type} (f : α → m (Except CheckError β)) : List α → m (Except CheckError (List β))
  | [] => return .ok []
  | a :: rest => do
    match ← f a with
    | .error e => return .error e
    | .ok b => return (← collect f rest).map (b :: ·)

/-- The reports on all files that the inputs name, in the order of the inputs. No file is read before
every input has been found to name one. -/
def checkFiles (settings : Settings) (inputs : List String) :
    m (Except CheckError (List CheckedFile)) := do
  match ← collect expandInput inputs with
  | .error e => return .error e
  | .ok files => collect (checkFile settings) files.flatten

end

end ProxyConfig
