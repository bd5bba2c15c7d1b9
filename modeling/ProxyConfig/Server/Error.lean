import ProxyConfig.Actor.Rename
import ProxyConfig.Json.Compact
import ProxyConfig.Session

/-! # Refused requests

Why a server refuses a request, with the number and the wording that the client gets.
-/

namespace ProxyConfig

/-- Why a request is refused. -/
inductive RequestError where
  /-- The server has not been started. -/
  | notStarted
  /-- The request comes at the wrong time. -/
  | untimely
  | unknownMethod
  | missingParams
  | unexpectedParams (params : Json)
  | malformedParams
  | unknownCommand (command : String)
  /-- The first argument of a command has to be a text. -/
  | missingArgument (name : String)
  | rename (error : RenameError)
  | session (error : SessionError)

namespace RequestError

/-- The number of the kind of error. -/
def code : RequestError → Int
  | notStarted => -32002
  | untimely => -32600
  | unknownMethod => -32601
  | missingParams | unexpectedParams _ | malformedParams | unknownCommand _ | missingArgument _
  | rename _ => -32602
  | session _ => -32603

def message : RequestError → String
  | notStarted => "Server not initialized"
  | untimely => "Invalid request"
  | unknownMethod => "Method not found"
  | missingParams => "Missing params field"
  | unexpectedParams params => s!"Unexpected params: {params.compact}"
  | malformedParams => "Invalid params"
  | unknownCommand command => s!"Unknown command: {command}"
  | missingArgument name => s!"Expected a {name} argument"
  | rename error => error.message
  | session error => error.message

end RequestError

end ProxyConfig
