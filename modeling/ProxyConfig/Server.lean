import ProxyConfig.Release
import ProxyConfig.Server.Command
import ProxyConfig.Server.Notice
import ProxyConfig.Settings.File
import ProxyConfig.Validation

/-! # The language server

A server is started once, answers a client's requests, takes notice of what happens to its documents,
and is stopped once. It checks a document whenever an event makes the diagnostics news, and tells the
client all of them. Only notices touch the open documents; only the start touches the settings and the
encoding; only commands touch the session.
-/

namespace ProxyConfig

/-- How far a server has come. -/
inductive Phase where
  | idle
  | running
  | stopped
  /-- Nothing reaches the server any more. -/
  | exited
deriving DecidableEq

/-- The diagnostics of a document, all that a client is to show for it. -/
structure Publication where
  uri : Uri
  diagnostics : List ClientDiagnostic

/-- What a server tells a client unasked. -/
inductive Announcement where
  | ready
  | diagnostics (publication : Publication)

/-- A server between two messages. -/
structure Server where
  phase : Phase := .idle
  settings : Settings := {}
  encoding : Encoding := .utf16
  documents : OpenDocuments := {}
  session : Session := {}

/-- A message from a client. It is a request if the client waits for an answer, else a notice. -/
structure ClientMessage where
  method : String
  params : Option Json
  isRequest : Bool

/-- Whether a message is one that a server may leave unanswered, the withdrawal of a request apart. -/
def ClientMessage.isOptional (message : ClientMessage) : Bool :=
  "$/".toList.isPrefixOf message.method.toList && message.method != ServerNotice.withdrawMethod

/-- What a server does about a message. A notice has no answer. -/
structure Reply where
  answer : Option (Except RequestError Json) := none
  announcements : List Announcement := []

namespace Announcement

def method : Announcement → String
  | ready => "window/logMessage"
  | diagnostics _ => "textDocument/publishDiagnostics"

/-- The parameters of an announcement. The type 3 of a log message marks plain information. -/
def params : Announcement → Json
  | ready =>
    .object [("type", .integer 3), ("message", .string s!"{Release.name} language server ready")]
  | diagnostics publication =>
    .object
      [("uri", .string publication.uri.render),
        ("diagnostics", .array (publication.diagnostics.map ClientDiagnostic.toJson))]

end Announcement

/-- Why a request comes at the wrong time, if it does. -/
def Phase.refusal? (phase : Phase) (isStart : Bool) : Option RequestError :=
  match phase, isStart with
  | idle, true | running, false => none
  | idle, false => some .notStarted
  | running, true | stopped, _ | exited, _ => some .untimely

namespace Server

/-- What a server can do, told to the client when it starts. -/
def capabilities (encoding : Encoding) : Json :=
  .object
    [("positionEncoding", .string encoding.name),
      ("textDocumentSync", .integer 1),
      ("completionProvider", .object
        [("resolveProvider", .bool false),
          ("triggerCharacters", .array ([" ", "[", ",", "="].map .string))]),
      ("hoverProvider", .bool true),
      ("definitionProvider", .bool true),
      ("referencesProvider", .bool true),
      ("renameProvider", .object [("prepareProvider", .bool true)]),
      ("documentSymbolProvider", .bool true),
      ("executeCommandProvider", .object
        [("commands", .array (Command.all.map fun command => .string command.name))])]

/-- The answer to the request that starts a server. -/
def introduction (encoding : Encoding) : Json :=
  .object
    [("capabilities", capabilities encoding),
      ("serverInfo", .object
        [("name", .string s!"{Release.name}-lsp"), ("version", .string Release.version)])]

/-- An open document as the client sees it. -/
def view? (server : Server) (uri : Uri) : Option ClientView :=
  (server.documents.get? uri).map fun text => ⟨.parse text, server.encoding⟩

/-- The diagnostics of a text under the settings, in the client's coordinates. -/
def check (server : Server) (uri : Uri) (text : Text) : List ClientDiagnostic :=
  (server.settings.apply (validate text)).map
    (ClientView.diagnostic ⟨.parse text, server.encoding⟩ uri)

/-- The diagnostics of a document. One that is not open has none. -/
def diagnosticsOf (server : Server) (uri : Uri) : List ClientDiagnostic :=
  match server.documents.get? uri with
  | some text => server.check uri text
  | none => []

/-- Takes notice of an event, and publishes the diagnostics of the document if they are news. -/
def record (server : Server) (uri : Uri) (event : DocumentEvent) : Option Publication × Server :=
  let server := { server with documents := server.documents.record uri event }
  if event.isNews (server.documents.get? uri) then (some ⟨uri, server.diagnosticsOf uri⟩, server)
  else (none, server)

/-- Takes notice of what a client tells. -/
def notice (server : Server) : ServerNotice → List Announcement × Server
  | .ready => ([.ready], server)
  | .document uri event =>
    let (publication?, server) := server.record uri event
    ((publication?.map .diagnostics).toList, server)

/-- Answers a query. A document that is not open has no answer but `null`. -/
def query (server : Server) (uri : Uri) (query : Query) : Except RequestError Json :=
  match server.view? uri with
  | none => .ok .null
  | some view => view.answer uri server.settings.completion.snippets query

variable {m : Type → Type} [Monad m] [FileSystem m]

/-- Starts a server, with the settings of the root if that is a directory of files. -/
def start (server : Server) (root : Option Uri) (encodings : Option (List String)) : m Server := do
  let settings ← match root.bind Uri.filePath? with
    | none => pure server.settings
    | some path => Settings.loadOrDefault path
  return { server with phase := .running, settings, encoding := .negotiate encodings }

/-- Carries out a request. -/
def handle (server : Server) : ServerRequest → m (Except RequestError Json × Server)
  | .start root encodings => do
    let server ← server.start root encodings
    return (.ok (introduction server.encoding), server)
  | .query uri query => return (server.query uri query, server)
  | .execute command arguments => do
    let (answer, session) ← server.session.execute command arguments
    return (answer, { server with session })
  | .stop => return (.ok .null, server)

/-- Stops a server if it is running. -/
def stop (server : Server) : Server :=
  if server.phase = .running then { server with phase := .stopped } else server

/-- Answers a request. The request to stop takes effect even if it is not well formed. A notice that is
sent as a request is never carried out. -/
def answer (server : Server) (method : String) (params : Option Json) :
    m (Except RequestError Json × Server) := do
  if method = ServerNotice.withdrawMethod then return (.error .untimely, server)
  if ServerNotice.isMethod method then
    return (.error ((server.phase.refusal? false).getD .untimely), server)
  if !ServerRequest.isMethod method then return (.error .unknownMethod, server)
  match server.phase.refusal? (method == ServerRequest.startMethod) with
  | some e => return (.error e, server)
  | none =>
    let server := if method = ServerRequest.stopMethod then server.stop else server
    match ServerRequest.read method params with
    | .error e => return (.error e, server)
    | .ok request => server.handle request

/-- Takes what is sent as a notice. Before the start and after the stop of a server notices are lost on
it. A request that is sent as a notice is never carried out, save that the one to stop takes effect. -/
def take (server : Server) (method : String) (params : Option Json) : List Announcement × Server :=
  if server.phase = .running then
    if method = ServerRequest.stopMethod then ([], server.stop)
    else
      match ServerNotice.read? method params with
      | none => ([], server)
      | some notice => server.notice notice
  else ([], server)

/-- Deals with a message. There is no answer to the message that ends a server, behind it, or to an
optional request. -/
def receive (server : Server) (message : ClientMessage) : m (Reply × Server) := do
  if server.phase = .exited then return ({}, server)
  else if message.method = ServerNotice.exitMethod then
    return ({}, { server with phase := .exited })
  else if message.isRequest then
    let (answer, server) ← server.answer message.method message.params
    return ({ answer := if message.isOptional then none else some answer }, server)
  else
    let (announcements, server) := server.take message.method message.params
    return ({ announcements }, server)

end Server

end ProxyConfig
