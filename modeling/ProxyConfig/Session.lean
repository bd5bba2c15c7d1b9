import ProxyConfig.Files.Access

/-! # The current file

An editor works on one file at a time. Loading a file makes it the current one even if it cannot be
read, and saving writes to whatever file is current. Requests are carried out one after the other, each
of them whole.
-/

namespace ProxyConfig

/-- Why a request fails. -/
inductive SessionError where
  | noCurrentFile
  | access (path : String) (error : AccessError)
deriving DecidableEq

/-- The wording of a failed request. -/
def SessionError.message : SessionError → String
  | noCurrentFile => "no file is currently loaded"
  | access path error => s!"failed to access {path}: {error.message}"

/-- The path of the current file. -/
structure Session where
  current : Option String := none
deriving DecidableEq

/-- What a session is asked to do. -/
inductive SessionRequest where
  | load (path : String)
  | save (text : String)
  | current
  /-- Makes a file current without reading it, or leaves none current. -/
  | assign (path : Option String)
deriving DecidableEq

namespace Session

variable {m : Type → Type} [Monad m] [FileSystem m]

/-- Makes a file current and reads it. -/
def load (path : String) (_ : Session) : m (Except SessionError String × Session) := do
  let content ← FileSystem.readText path
  return (content.mapError (.access path), ⟨some path⟩)

/-- Writes a text to the current file and answers with its path. -/
def save (text : String) (session : Session) : m (Except SessionError String × Session) := do
  match session.current with
  | none => return (.error .noCurrentFile, session)
  | some path =>
    let written ← FileSystem.writeText path text
    return ((written.mapError (.access path)).map fun _ => path, session)

/-- Carries out a request. A request for the path, or one that only assigns it, always succeeds. -/
def handle (request : SessionRequest) (session : Session) :
    m (Except SessionError (Option String) × Session) := do
  match request with
  | .load path =>
    let (answer, session) ← session.load path
    return (answer.map some, session)
  | .save text =>
    let (answer, session) ← session.save text
    return (answer.map some, session)
  | .current => return (.ok session.current, session)
  | .assign path => return (.ok none, ⟨path⟩)

/-- Carries out requests in the order in which they arrived. -/
def handleAll (session : Session) : List SessionRequest →
    m (List (Except SessionError (Option String)) × Session)
  | [] => return ([], session)
  | request :: rest => do
    let (answer, session) ← session.handle request
    let (answers, session) ← session.handleAll rest
    return (answer :: answers, session)

end Session

end ProxyConfig
