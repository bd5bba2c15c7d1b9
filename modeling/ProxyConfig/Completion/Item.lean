import ProxyConfig.Actor.Summary
import ProxyConfig.Client.Edit
import ProxyConfig.Client.Encoding

/-! # Completion items

An offer to replace the word under the cursor. Clients filter offers by the text that is there
already, so every item says which range it replaces.
-/

namespace ProxyConfig

/-- What an item offers. -/
inductive ItemKind where
  | header
  | property
  | value
  | keyword
  | template
  | reference
deriving DecidableEq

/-- The number by which clients know a kind of item. -/
def ItemKind.clientNumber : ItemKind → Nat
  | header => 9
  | property => 10
  | value => 12
  | keyword => 14
  | template => 15
  | reference => 18

/-- An offer to replace a range by a text. -/
structure CompletionItem (R : Type := Range) where
  label : String
  kind : ItemKind
  range : R
  newText : String
  /-- What the typed text is compared with. -/
  filterText : String := label
  detail : Option String := none
  documentation : Option String := none
  /-- Whether the new text has tab stops. -/
  isSnippet : Bool := false
deriving DecidableEq

namespace CompletionItem

/-- An offer of plain words. -/
def values (words : List String) (range : Range) : List CompletionItem :=
  words.map fun word => { label := word, kind := .value, range := range, newText := word }

/-- The offer of `true` and `false`. -/
def booleans (range : Range) : List CompletionItem := values ["true", "false"] range

/-- An offer of a keyword with its description. -/
def ofKeyword {K : Type} [Keyword K] (k : K) (kind : ItemKind) (range : Range) (newText : String) :
    CompletionItem :=
  { label := Keyword.spelling k, kind := kind, range := range, newText := newText
    documentation := some (Keyword.description k) }

/-- The offer as a template with tab stops. -/
def asSnippet (item : CompletionItem) : CompletionItem := { item with isSnippet := true }

/-- The offer of a declared actor. -/
def ofDeclaration (d : Declaration) (range : Range) : CompletionItem :=
  let name := String.ofList d.name
  let value := String.ofList d.entry.value.text
  { label := name, kind := .reference, range := range, newText := name
    detail := some d.label, documentation := some s!"`{name} = {value}`" }

/-- The offer of every actor of a document but the excluded name. -/
def actors (doc : Document) (range : Range) (excluded : Option Text) : List CompletionItem :=
  ((doc.actors.names.filter fun name => some name != excluded).filterMap doc.actors.get?).map
    fun d => ofDeclaration d range

/-- The same offer for another range. -/
def map {R S : Type} (f : R → S) (item : CompletionItem R) : CompletionItem S :=
  { item with range := f item.range }

/-- The offer in a client's coordinates. Its offsets count characters until they are encoded. -/
def inView (item : CompletionItem) (view : ClientView) : CompletionItem ClientRange :=
  (item.map Range.toClient).map view.encoded

/-- The edit that accepts the offer. -/
def clientEdit (item : CompletionItem ClientRange) : TextEdit := ⟨item.range, item.newText⟩

def edit (item : CompletionItem) (view : ClientView) : TextEdit := (item.inView view).clientEdit

def documentationJson (text : String) : Json :=
  .object [("kind", .string "markdown"), ("value", .string text)]

def clientJson (item : CompletionItem ClientRange) : Json :=
  .record
    [("label", some (.string item.label)), ("kind", some (.ofNat item.kind.clientNumber)),
      ("detail", item.detail.map .string),
      ("documentation", item.documentation.map documentationJson),
      ("filterText", some (.string item.filterText)),
      ("insertTextFormat", if item.isSnippet then some (.ofNat 2) else none),
      ("textEdit", some item.clientEdit.toJson)]

def toJson (item : CompletionItem) (view : ClientView) : Json := (item.inView view).clientJson

end CompletionItem

end ProxyConfig
