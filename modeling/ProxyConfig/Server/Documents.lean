import ProxyConfig.Client.Uri

/-! # Open documents

A server keeps the latest text of every document that a client has open. An event either carries the
whole text of its document, or closes the document, or leaves the text as it is. The diagnostics of a
document are news after every event except a change that carries no text and the save of a document
that is not open.
-/

namespace ProxyConfig

/-- The texts of the open documents. -/
structure OpenDocuments where
  texts : List (Uri × Text) := []

namespace OpenDocuments

/-- The text of an open document. -/
def get? (docs : OpenDocuments) (uri : Uri) : Option Text := docs.texts.lookup uri

/-- Closes a document. -/
def erase (docs : OpenDocuments) (uri : Uri) : OpenDocuments :=
  ⟨docs.texts.filter fun entry => entry.1 != uri⟩

/-- Opens a document, or gives it another text. -/
def set (docs : OpenDocuments) (uri : Uri) (text : Text) : OpenDocuments :=
  ⟨(uri, text) :: (docs.erase uri).texts⟩

theorem get?_erase (docs : OpenDocuments) (uri other : Uri) :
    (docs.erase uri).get? other = if other = uri then none else docs.get? other := by
  obtain ⟨texts⟩ := docs
  induction texts with
  | nil => simp [erase, get?]
  | cons entry rest ih =>
    obtain ⟨key, text⟩ := entry
    simp only [erase, get?] at ih ⊢
    by_cases kept : key = uri
    · subst kept
      by_cases same : other = key
      · simpa [same] using ih
      · simpa [List.lookup_cons, same, beq_eq_false_iff_ne.2 same] using ih
    · by_cases here : other = key
      · subst here
        simp [kept]
      · simpa [List.lookup_cons, kept, beq_eq_false_iff_ne.2 here] using ih

theorem get?_set (docs : OpenDocuments) (uri other : Uri) (text : Text) :
    (docs.set uri text).get? other = if other = uri then some text else docs.get? other := by
  by_cases same : other = uri
  · simp [set, get?, same]
  · have := docs.get?_erase uri other
    simp_all [set, get?, List.lookup_cons, beq_eq_false_iff_ne.2 same]

end OpenDocuments

/-- What happens to a document in a client. -/
inductive DocumentEvent where
  | opened (text : Text)
  /-- Each change carries the whole text that it leads to. -/
  | changed (texts : List Text)
  /-- The client may send the saved text along. -/
  | saved (text : Option Text)
  | closed
deriving DecidableEq

/-- The text that an event gives its document. -/
def DocumentEvent.text? : DocumentEvent → Option Text
  | opened text => some text
  | changed texts => texts.getLast?
  | saved text => text
  | closed => none

/-- Takes notice of an event. -/
def OpenDocuments.record (docs : OpenDocuments) (uri : Uri) (event : DocumentEvent) : OpenDocuments :=
  if event = .closed then docs.erase uri
  else
    match event.text? with
    | some text => docs.set uri text
    | none => docs

/-- Whether an event makes the diagnostics of its document news, of which the text behind the event is
given. -/
def DocumentEvent.isNews (event : DocumentEvent) (text : Option Text) : Bool :=
  match event with
  | opened _ | closed => true
  | changed texts => !texts.isEmpty
  | saved _ => text.isSome

end ProxyConfig
