import ProxyConfig.Files.Access
import ProxyConfig.Glob.Pattern

/-! # Searching for paths

A search follows the parts of a pattern from directory to directory. A part without wildcards is not
looked for among the names of a directory but asked for directly, so that `.` and `..` work. In the
working directory itself paths have no `./` in front.
-/

namespace ProxyConfig.Glob

variable {m : Type → Type} [Monad m] [FileSystem m]

open FileSystem

/-- Whether a path is another spelling of the working directory, such as `./.`. -/
def isHere (path : String) : Bool :=
  match pathParts path with
  | "." :: rest => rest.all fun part => part.isEmpty || part == "."
  | _ => false

/-- The path of a name below the directory that a search has reached. -/
def below (directory name : String) : String :=
  if isHere directory then name else joinPath directory name

/-- Whether a part leads on from a directory to its name. -/
def leadsTo (directory name next : String) : m Bool :=
  if name == "." || name == ".." then isDirectory directory else exists? next

/-- The names `.` and `..`, as far as a part with wildcards admits them. It has to start with a dot. -/
def dotNames : Part → List String
  | .wild (.char '.' :: tokens) => ["..", "."].filter (Part.wild (.char '.' :: tokens)).admits
  | _ => []

/-- The paths that the parts lead to from a directory. The first argument bounds the number of steps.
Below a part for any number of directories the paths of a directory come before those inside of it,
unless it is the parts behind that lead inside. -/
def search : Nat → List Part → String → m (List String)
  | 0, _, _ => return []
  | _ + 1, [], _ => return []
  | steps + 1, part :: rest, directory => do
    let goOn (parts : List Part) (path : String) : m (List String) :=
      if parts.isEmpty then return [path] else search steps parts path
    match part with
    | .name name =>
      let next := below directory name
      if ← leadsTo directory name next then goOn rest next else return []
    | .wild _ =>
      if !(← isDirectory directory) then return []
      let special ← (dotNames part).flatMapM fun name => goOn rest (joinPath directory name)
      let found ← (← names directory).flatMapM fun name =>
        if part.admits name then goOn rest (below directory name) else pure []
      return special ++ found
    | .anyDepth =>
      if !(← isDirectory directory) then return []
      let rest := rest.dropWhile (· == .anyDepth)
      (← names directory).flatMapM fun name => do
        let path := below directory name
        let isDir ← isDirectory path
        let inside ← if isDir then search steps (.anyDepth :: rest) path else pure []
        match rest with
        | [] => return if isDir then path :: inside else []
        | next :: others =>
          let here ← if next.admits name then goOn others path else pure []
          return here ++ inside

/-- A bound on the length of paths. -/
def pathLimit : Nat := 4096

/-- The files that match a pattern. -/
def files (glob : Glob) : m (List String) := do
  if glob.directoriesOnly then return []
  let start := if glob.absolute then "/" else "."
  let found ← search (pathLimit + glob.parts.length) glob.parts start
  found.filterM isFile

end ProxyConfig.Glob
