import ProxyConfig.Server.Query

/-! # Requests

A request has a method and parameters, and a client waits for its answer. The parameters are a record
that has to hold everything the method needs; what else it holds is ignored. Every record may be written
as an object, and most of them as the array of their parts, too.
-/

namespace ProxyConfig

/-- What a client asks of a server. -/
inductive ServerRequest where
  /-- Work on the files below the root, in one of the offered encodings. -/
  | start (root : Option Uri) (encodings : Option (List String))
  | query (uri : Uri) (query : Query)
  | execute (command : String) (arguments : List Json)
  | stop

namespace Json

/-- A text as a document is read. -/
def text? (json : Json) : Option Text := json.string?.map String.toList

def uri? (json : Json) : Option Uri := json.string?.bind Uri.parse?

def strings? (json : Json) : Option (List String) := json.array?.bind fun items => items.mapM string?

/-- The address of the document that a record names. -/
def documentUri? (document : Json) : Option Uri := do
  match ← document.parts? ["uri"] with
  | [some uri] => uri.uri?
  | _ => none

end Json

namespace ServerRequest

/-- The encodings that a client offers among its capabilities. -/
def encodings? (capabilities : Json) : Option (Option (List String)) := do
  let ofGeneral? (general : Json) : Option (Option (List String)) := do
    match ← general.parts?
      ["regularExpressions", "markdown", "staleRequestSupport", "positionEncodings"] with
    | [_, _, _, encodings] => Json.optional? Json.strings? encodings
    | _ => none
  match ← capabilities.parts?
    ["workspace", "textDocument", "notebookDocument", "window", "general", "experimental"] with
  | [_, _, _, _, general, _] => (Json.optional? ofGeneral? general).map Option.join
  | _ => none

/-- The root that a client works on: the first of its folders or, if it names none, the root address. -/
def root? (folders root : Option Json) : Option (Option Uri) := do
  let folder? (folder : Json) : Option Uri := do
    match ← folder.parts? ["uri", "name"] with
    | [some uri, some name] =>
      let _ ← name.string?
      uri.uri?
    | _ => none
  let folders ← Json.optional? (fun folders => do (← folders.array?).mapM folder?) folders
  let root ← Json.optional? Json.uri? root
  some ((folders.getD []).head?.or root)

def readStart? (params : Json) : Option ServerRequest := do
  match ← params.parts?
    ["processId", "rootPath", "rootUri", "initializationOptions", "capabilities", "trace",
      "workspaceFolders", "clientInfo", "locale"] with
  | [_, _, root, _, some capabilities, _, folders, _, _] =>
    some (.start (← root? folders root) (← encodings? capabilities))
  | _ => none

/-- A query about a position of a document. -/
def queryAt? (query : ClientPosition → Query) (document position : Option Json) :
    Option ServerRequest := do
  some (.query (← (← document).documentUri?) (query (← ClientPosition.ofJson? (← position))))

/-- Reads a query about a position off an object. -/
def readAt? (query : ClientPosition → Query) (params : Json) : Option ServerRequest :=
  queryAt? query (params.field? "textDocument") (params.field? "position")

def readReferences? (params : Json) : Option ServerRequest := do
  match ← (← params.field? "context").parts? ["includeDeclaration"] with
  | [some declarations] =>
    let declarations ← declarations.bool?
    readAt? (fun p => .references p declarations) params
  | _ => none

def readPrepareRename? (params : Json) : Option ServerRequest := do
  match ← params.parts? ["textDocument", "position"] with
  | [document, position] => queryAt? .prepareRename document position
  | _ => none

def readRename? (params : Json) : Option ServerRequest := do
  let newName ← (← params.field? "newName").text?
  readAt? (fun p => .rename p newName) params

def readSymbols? (params : Json) : Option ServerRequest := do
  some (.query (← (← params.field? "textDocument").documentUri?) .symbols)

def readExecute? (params : Json) : Option ServerRequest := do
  let arguments ← match params.field? "arguments" with
    | none => some []
    | some arguments => arguments.array?
  some (.execute (← (← params.field? "command").string?) arguments)

/-- The method that starts a server. -/
def startMethod : String := "initialize"

/-- The offered methods with parameters, and how the parameters are read. -/
def methods : List (String × (Json → Option ServerRequest)) :=
  [(startMethod, readStart?), ("textDocument/hover", readAt? .hover),
    ("textDocument/definition", readAt? .definition), ("textDocument/references", readReferences?),
    ("textDocument/prepareRename", readPrepareRename?), ("textDocument/rename", readRename?),
    ("textDocument/documentSymbol", readSymbols?), ("textDocument/completion", readAt? .completion),
    ("workspace/executeCommand", readExecute?)]

/-- The methods of the protocol that are not offered. All of them have parameters, too. -/
def unofferedMethods : List String :=
  ["textDocument/declaration", "textDocument/typeDefinition", "textDocument/implementation",
    "textDocument/documentHighlight", "textDocument/signatureHelp", "completionItem/resolve",
    "textDocument/codeAction", "codeAction/resolve", "textDocument/codeLens", "codeLens/resolve",
    "textDocument/documentLink", "documentLink/resolve", "textDocument/documentColor",
    "textDocument/colorPresentation", "textDocument/formatting", "textDocument/rangeFormatting",
    "textDocument/onTypeFormatting", "textDocument/foldingRange", "textDocument/selectionRange",
    "textDocument/linkedEditingRange", "textDocument/moniker", "textDocument/inlayHint",
    "inlayHint/resolve", "textDocument/inlineValue", "textDocument/semanticTokens/full",
    "textDocument/semanticTokens/full/delta", "textDocument/semanticTokens/range",
    "textDocument/prepareCallHierarchy", "callHierarchy/incomingCalls",
    "callHierarchy/outgoingCalls", "textDocument/prepareTypeHierarchy", "typeHierarchy/supertypes",
    "typeHierarchy/subtypes", "textDocument/diagnostic", "workspace/diagnostic", "workspace/symbol",
    "workspaceSymbol/resolve", "textDocument/willSaveWaitUntil", "workspace/willCreateFiles",
    "workspace/willRenameFiles", "workspace/willDeleteFiles"]

/-- The method that ends the work of a server. It has no parameters. -/
def stopMethod : String := "shutdown"

/-- Whether the protocol has a request of this method. -/
def isMethod (method : String) : Bool :=
  method == stopMethod || methods.any (fun entry => entry.1 == method)
    || unofferedMethods.contains method

/-- Reads a request of the protocol. The parameters of a method that is not offered need only be
there. -/
def read (method : String) (params : Option Json) : Except RequestError ServerRequest :=
  if method = stopMethod then
    match params with
    | none => .ok .stop
    | some params => .error (.unexpectedParams params)
  else
    match params, methods.lookup method with
    | none, _ => .error .missingParams
    | some _, none => .error .unknownMethod
    | some params, some reader =>
      match reader params with
      | none => .error .malformedParams
      | some request => .ok request

end ServerRequest

end ProxyConfig
