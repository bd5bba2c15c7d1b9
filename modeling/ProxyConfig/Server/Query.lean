import ProxyConfig.Completion
import ProxyConfig.Hover
import ProxyConfig.Navigation
import ProxyConfig.Outline
import ProxyConfig.Server.Error

/-! # Queries

What a client may ask about an open document. An answer depends on the document, the client's encoding
and the settings for completions alone.
-/

namespace ProxyConfig

/-- A question about a document. -/
inductive Query where
  | hover (p : ClientPosition)
  | definition (p : ClientPosition)
  | references (p : ClientPosition) (declarations : Bool)
  | prepareRename (p : ClientPosition)
  | rename (p : ClientPosition) (newName : Text)
  | symbols
  | completion (p : ClientPosition)
deriving DecidableEq

namespace ClientView

/-- The range of a name that can be renamed, with the name as the text to start from. -/
def prepareRenameJson? (view : ClientView) (p : ClientPosition) : Option Json :=
  (view.prepareRename? p).map fun (range, name) =>
    .object [("range", range.toJson), ("placeholder", .string (String.ofList name))]

/-- The edits of a rename, all of them in the document itself. -/
def renameJson (view : ClientView) (uri : Uri) (p : ClientPosition) (newName : Text) :
    Except RequestError Json :=
  match view.rename p newName with
  | .error e => .error (.rename e)
  | .ok rename =>
    let edits := Json.array (rename.edits.map TextEdit.toJson)
    .ok (.object [("changes", .object [(uri.render, edits)])])

/-- The completions at a position, `null` if there are none. -/
def completionsJson (view : ClientView) (p : ClientPosition) (snippets : Bool) : Json :=
  match view.clientCompletions p snippets with
  | [] => .null
  | items => .array (items.map CompletionItem.clientJson)

/-- The answer to a query about the document with the given address. -/
def answer (view : ClientView) (uri : Uri) (snippets : Bool) : Query → Except RequestError Json
  | .hover p => .ok ((view.hoverJson? p).getD .null)
  | .definition p => .ok (((view.definition? uri p).map Location.toJson).getD .null)
  | .references p declarations =>
    .ok (.array ((view.references uri p declarations).map Location.toJson))
  | .prepareRename p => .ok ((view.prepareRenameJson? p).getD .null)
  | .rename p newName => view.renameJson uri p newName
  | .symbols => .ok (.array (view.symbolsJson view.doc.outline))
  | .completion p => .ok (view.completionsJson p snippets)

end ClientView

end ProxyConfig
