import ProxyConfig.Check
import ProxyConfig.Outline
import ProxyConfig.Release

/-! # The command line

`check` reports on files and `outline` prints the outline of one. Options may stand anywhere behind
the command, each at most once; a lone `--` ends them. What is wrong first decides, except that a
request for help or for the version is granted as soon as it is met.
-/

namespace ProxyConfig

/-- What the program is asked to do. -/
inductive Invocation where
  | check (inputs : List String) (format : ReportFormat) (settings : Option String)
  | outline (file : String)
  | help
  | version
  /-- The arguments make no sense. -/
  | misuse
deriving DecidableEq

namespace Invocation

/-- What the options of `check` have collected so far. -/
structure CheckOptions where
  inputs : List String := []
  format : Option ReportFormat := none
  settings : Option String := none

/-- The options that take a value. -/
inductive CheckOption where
  | format
  | settings
deriving DecidableEq

/-- Sets an option. It must not be set already and has to admit the value. -/
def CheckOptions.set? (options : CheckOptions) (option : CheckOption) (value : String) :
    Option CheckOptions :=
  match option with
  | .format =>
    if options.format.isSome then none
    else
      ([("text", ReportFormat.text), ("json", ReportFormat.json)].lookup value).map fun format =>
        { options with format := some format }
  | .settings =>
    if options.settings.isSome || value.isEmpty then none
    else some { options with settings := some value }

/-- Whether an argument is a flag and no value. A lone dash is a value. -/
def isFlag (argument : String) : Bool := argument.startsWith "-" && argument != "-"

/-- What a flag of `check` stands for. -/
inductive CheckFlag where
  | help
  /-- An option whose value is the next argument. -/
  | awaiting (option : CheckOption)
  | valued (option : CheckOption) (value : String)
  | unknown

/-- Splits a long flag at its first equals sign. -/
def splitFlag (flag : Text) : Text × Option Text :=
  match Text.cut? '=' flag with
  | some (name, value) => (name, some value)
  | none => (flag, none)

/-- The option of a flag with what is attached to it. -/
def CheckFlag.withValue (option : CheckOption) : Option Text → CheckFlag
  | none => awaiting option
  | some value => valued option (String.ofList value)

/-- What follows the letter of a short flag: nothing, or a value with or without an equals sign. -/
def attached : Text → Option Text
  | [] => none
  | '=' :: value => some value
  | value => some value

/-- Reads a flag of `check`. -/
def CheckFlag.read (argument : String) : CheckFlag :=
  match argument.toList with
  | '-' :: '-' :: flag =>
    match splitFlag flag with
    | (name, value) =>
      match String.ofList name, value with
      | "help", none => help
      | "format", value => withValue .format value
      | "config", value => withValue .settings value
      | _, _ => unknown
  | '-' :: 'h' :: _ => help
  | '-' :: 'f' :: rest => withValue .format (attached rest)
  | '-' :: 'c' :: rest => withValue .settings (attached rest)
  | _ => unknown

/-- The check that the collected options ask for. It needs an input. -/
def CheckOptions.finish (options : CheckOptions) : Invocation :=
  if options.inputs.isEmpty then misuse
  else check options.inputs (options.format.getD .text) options.settings

/-- Reads the arguments of `check`. -/
def readCheck (options : CheckOptions) : List String → Invocation
  | [] => options.finish
  | argument :: rest =>
    if argument == "--" then { options with inputs := options.inputs ++ rest }.finish
    else if isFlag argument then
      match CheckFlag.read argument with
      | .help => help
      | .unknown => misuse
      | .valued option value =>
        match options.set? option value with
        | none => misuse
        | some options => readCheck options rest
      | .awaiting option =>
        match rest with
        | [] => misuse
        | value :: rest =>
          if isFlag value then misuse
          else
            match options.set? option value with
            | none => misuse
            | some options => readCheck options rest
    else readCheck { options with inputs := options.inputs ++ [argument] } rest

/-- Whether a flag asks for help. -/
def asksHelp (argument : String) : Bool := argument == "--help" || argument.startsWith "-h"

/-- Reads the arguments of `outline` when a file may have been named. -/
def readOutline (file : Option String) : List String → Invocation
  | [] => match file with
    | some file => outline file
    | none => misuse
  | argument :: rest =>
    if argument == "--" then
      match file, rest with
      | some file, [] => outline file
      | none, [file] => if file.isEmpty then misuse else outline file
      | _, _ => misuse
    else if isFlag argument then if asksHelp argument then help else misuse
    else if file.isSome || argument.isEmpty then misuse
    else readOutline (some argument) rest

/-- Reads the arguments of `help`: a command, or none. -/
def readHelp : List String → Invocation
  | [] => help
  | [command] => if ["check", "outline", "help"].contains command then help else misuse
  | _ => misuse

/-- Reads the arguments of the program. -/
def parse : List String → Invocation
  | [] => misuse
  | argument :: rest =>
    match argument with
    | "check" => readCheck {} rest
    | "outline" => readOutline none rest
    | "help" => readHelp rest
    | "--version" => version
    | _ =>
      if asksHelp argument then help
      else if argument.startsWith "-V" then version
      else misuse

end Invocation

/-- What the program does: the text it prints, the error it ends with, and its exit code. -/
structure Outcome where
  output : String := ""
  error : Option String := none
  exitCode : Nat := 0
deriving DecidableEq

namespace Outcome

/-- The program ends with an error. -/
def failure (error : String) : Outcome := { error := some error, exitCode := 1 }

/-- The report of a check. Errors in a file make the program fail. -/
def ofReport (files : List CheckedFile) (format : ReportFormat) : Outcome :=
  { output := renderReport files format ++ "\n"
    exitCode := if files.any fun checked => checked.report.errors != 0 then 1 else 0 }

end Outcome

namespace Invocation

variable {m : Type → Type} [Monad m] [FileSystem m]

/-- The settings of a check: those of the named file, or those of the working directory. -/
def readSettings : Option String → m (Except String Settings)
  | some path => do
    match ← Settings.read path with
    | .ok settings => return .ok settings
    | .error (.access _) => return .error s!"Failed to read config: {path}"
    | .error .malformed => return .error s!"Failed to parse config: {path}"
  | none => do
    match ← Settings.load "." with
    | .ok settings => return .ok settings
    | .error _ => return .error ("Failed to load " ++ Settings.fileName)

/-- What the program says about its version. -/
def versionLine : String := s!"{Release.name} {Release.version}\n"

/-- Does what the arguments ask for. The text of the help is left to the caller. -/
def run : Invocation → m Outcome
  | check inputs format settings => do
    match ← readSettings settings with
    | .error e => return .failure e
    | .ok settings =>
      match ← checkFiles settings inputs with
      | .error e => return .failure e.message
      | .ok files => return .ofReport files format
  | outline file => do
    match ← FileSystem.readText file with
    | .error _ => return .failure (CheckError.unreadable file).message
    | .ok content => return { output := outlineText content.toList }
  | help => return {}
  | version => return { output := versionLine }
  | misuse => return { exitCode := 2 }

end Invocation

end ProxyConfig
