import ProxyConfig.Server.Error

/-! # Commands

A client can have the current file loaded and saved. A command takes one text, its first argument, and
answers with one; further arguments are ignored.
-/

namespace ProxyConfig

/-- A command of the server. -/
inductive Command where
  | loadFile
  | saveFile
deriving DecidableEq

namespace Command

def all : List Command := [loadFile, saveFile]

/-- The name under which a client calls a command. -/
def name : Command → String
  | loadFile => "leafconf.loadFile"
  | saveFile => "leafconf.saveFile"

/-- What the argument of a command is. -/
def argument : Command → String
  | loadFile => "path"
  | saveFile => "text"

/-- What a command asks of the session. -/
def request : Command → String → SessionRequest
  | loadFile => .load
  | saveFile => .save

/-- Reads a call of a command. -/
def read (called : String) (arguments : List Json) : Except RequestError SessionRequest :=
  match all.find? fun command => command.name == called with
  | none => .error (.unknownCommand called)
  | some command =>
    match arguments.head?.bind Json.string? with
    | none => .error (.missingArgument command.argument)
    | some text => .ok (command.request text)

end Command

/-- Carries out a command. A command that cannot be read leaves the session as it is. -/
def Session.execute {m : Type → Type} [Monad m] [FileSystem m] (session : Session) (called : String)
    (arguments : List Json) : m (Except RequestError Json × Session) := do
  match Command.read called arguments with
  | .error e => return (.error e, session)
  | .ok request =>
    let (answer, session) ← session.handle request
    return ((answer.mapError .session).map fun text => (text.map .string).getD .null, session)

end ProxyConfig
