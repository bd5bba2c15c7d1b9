import ProxyConfig.Server.Documents
import ProxyConfig.Server.Request

/-! # Notices

A notice tells a server of something, and a client does not wait for an answer. A notice that cannot be
read is ignored.
-/

namespace ProxyConfig

/-- What a client tells a server. -/
inductive ServerNotice where
  /-- The client is ready for the server to speak. -/
  | ready
  | document (uri : Uri) (event : DocumentEvent)
deriving DecidableEq

namespace Json

/-- A signed number of 32 bits, such as the version of a document. -/
def int32? : Json → Option Int
  | .integer n => if -0x80000000 ≤ n ∧ n < 0x80000000 then some n else none
  | _ => none

end Json

namespace ServerNotice

def readReady? (params : Json) : Option ServerNotice := do
  let _ ← params.parts? []
  some .ready

def readOpened? (params : Json) : Option ServerNotice := do
  let [some item] ← params.parts? ["textDocument"] | none
  match ← item.parts? ["uri", "languageId", "version", "text"] with
  | [some uri, some language, some version, some text] =>
    let _ ← language.string?
    let _ ← version.int32?
    some (.document (← uri.uri?) (.opened (← text.text?)))
  | _ => none

/-- The text that a change leads to. The range that it is said to replace has to be well formed, but
does not matter. -/
def changedText? (change : Json) : Option Text := do
  match ← change.parts? ["range", "rangeLength", "text"] with
  | [range, length, some text] =>
    let _ ← Json.optional? ClientRange.ofJson? range
    let _ ← Json.optional? (Json.natBelow? UInt32.size) length
    text.text?
  | _ => none

def readChanged? (params : Json) : Option ServerNotice := do
  let [some item, some changes] ← params.parts? ["textDocument", "contentChanges"] | none
  match ← item.parts? ["uri", "version"] with
  | [some uri, some version] =>
    let _ ← version.int32?
    some (.document (← uri.uri?) (.changed (← (← changes.array?).mapM changedText?)))
  | _ => none

def readSaved? (params : Json) : Option ServerNotice := do
  match ← params.parts? ["textDocument", "text"] with
  | [some item, text] =>
    some (.document (← item.documentUri?) (.saved (← Json.optional? Json.text? text)))
  | _ => none

def readClosed? (params : Json) : Option ServerNotice := do
  match ← params.parts? ["textDocument"] with
  | [some item] => some (.document (← item.documentUri?) .closed)
  | _ => none

/-- The methods of the notices that matter, and how their parameters are read. -/
def methods : List (String × (Json → Option ServerNotice)) :=
  [("initialized", readReady?), ("textDocument/didOpen", readOpened?),
    ("textDocument/didChange", readChanged?), ("textDocument/didSave", readSaved?),
    ("textDocument/didClose", readClosed?)]

/-- The methods of the other notices of the protocol. -/
def ignoredMethods : List String :=
  ["workspace/didChangeConfiguration", "workspace/didChangeWorkspaceFolders",
    "workspace/didChangeWatchedFiles", "textDocument/willSave", "workspace/didCreateFiles",
    "workspace/didRenameFiles", "workspace/didDeleteFiles"]

/-- The method that takes back a request. A request is answered at once, so there never is one to take
back. -/
def withdrawMethod : String := "$/cancelRequest"

/-- The method that ends a server, whatever it is doing. -/
def exitMethod : String := "exit"

/-- Whether the protocol has a notice of this method for a running server. -/
def isMethod (method : String) : Bool :=
  methods.any (fun entry => entry.1 == method) || ignoredMethods.contains method

/-- Reads a notice. -/
def read? (method : String) (params : Option Json) : Option ServerNotice := do
  (← methods.lookup method) (← params)

end ServerNotice

end ProxyConfig
