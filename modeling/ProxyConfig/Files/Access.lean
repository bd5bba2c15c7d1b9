import ProxyConfig.Text.Cut

/-! # Access to files

What the library needs of a file system, and why an access fails. Paths are read as POSIX does: parts
between slashes, relative to the working directory unless a slash comes first.
-/

namespace ProxyConfig

/-- Why a file cannot be read or written. -/
inductive AccessError where
  | notFound
  | isDirectory
  | notDirectory
  /-- The content is no UTF-8 text. -/
  | invalidText
deriving DecidableEq

/-- The wording of a failed access. -/
def AccessError.message : AccessError → String
  | notFound => "No such file or directory (os error 2)"
  | isDirectory => "Is a directory (os error 21)"
  | notDirectory => "Not a directory (os error 20)"
  | invalidText => "stream did not contain valid UTF-8"

/-- What a path can lead to. -/
inductive EntryKind where
  | file
  | directory
deriving DecidableEq

/-- The operations of a file system. -/
class FileSystem (m : Type → Type) where
  /-- What the path leads to, if to anything. -/
  kind? : String → m (Option EntryKind)
  read : String → m (Except AccessError ByteArray)
  /-- Writes a whole file, which is made if it is not there. -/
  write : String → ByteArray → m (Except AccessError Unit)
  /-- The names in a directory, in ascending order. -/
  names : String → m (List String)

namespace FileSystem

variable {m : Type → Type} [Monad m] [FileSystem m]

/-- Reads a file as text. -/
def readText (path : String) : m (Except AccessError String) := do
  match ← read path with
  | .error e => return .error e
  | .ok bytes =>
    match String.fromUTF8? bytes with
    | none => return .error .invalidText
    | some text => return .ok text

/-- Writes a text as a file. -/
def writeText (path text : String) : m (Except AccessError Unit) := write path text.toUTF8

def exists? (path : String) : m Bool := return (← kind? path).isSome

def isFile (path : String) : m Bool := return (← kind? path) == some .file

def isDirectory (path : String) : m Bool := return (← kind? path) == some .directory

end FileSystem

/-- The parts of a path, cut at every slash. -/
def pathParts (path : String) : List String := (Text.pieces '/' path.toList).map String.ofList

/-- The path of a name in a directory. -/
def joinPath (directory name : String) : String :=
  if directory.isEmpty || directory.back == '/' then directory ++ name
  else directory ++ "/" ++ name

end ProxyConfig
