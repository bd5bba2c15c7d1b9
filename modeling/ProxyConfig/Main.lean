import ProxyConfig.CommandLine

/-! # The program

Runs the command line on the files of the machine. What the program prints and how it ends is decided by
`ProxyConfig.CommandLine`.
-/

namespace ProxyConfig

/-- What a path of the machine leads to. -/
def entryKind? (path : String) : IO (Option EntryKind) := do
  try
    match (← (← IO.FS.realPath path).metadata).type with
    | .file => return some .file
    | .dir => return some .directory
    | _ => return none
  catch _ => return none

/-- Why a path of the machine that leads to the given kind cannot be opened as a file. -/
def accessErrorOf : Option EntryKind → AccessError
  | some .directory => .isDirectory
  | _ => .notFound

/-- The files of the machine. -/
instance : FileSystem IO where
  kind? := entryKind?
  read path := do
    try
      return .ok (← IO.FS.readBinFile path)
    catch _ => return .error (accessErrorOf (← entryKind? path))
  write path content := do
    try
      return .ok (← IO.FS.writeBinFile path content)
    catch _ => return .error (accessErrorOf (← entryKind? path))
  names path := do
    try
      let directory ← IO.FS.realPath path
      return ((← directory.readDir).toList.map (·.fileName)).mergeSort fun a b => !decide (b < a)
    catch _ => return []

end ProxyConfig

/-- Does what the arguments ask for. -/
def main (args : List String) : IO UInt32 := do
  let outcome : ProxyConfig.Outcome ← (ProxyConfig.Invocation.parse args).run
  IO.print outcome.output
  if let some error := outcome.error then IO.eprintln s!"Error: {error}"
  return .ofNat outcome.exitCode
