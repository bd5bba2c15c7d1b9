import ProxyConfig.Server
import Mathlib.Data.List.Basic
import Mathlib.Data.List.Induction

/-! # What the events of a document lead to

The history of a document is the list of its events. It leaves the document open with a text if an
event carries that text, and no later one carries another text or closes the document. A server that
records the events one after the other has exactly that text, and what it published last for the
document are the diagnostics of that text.
-/

namespace ProxyConfig

/-- The event gives its document this text: an opening does, a change with the last of its texts, and
a save that sends the text along. -/
inductive DocumentEvent.Carries (t : Text) : DocumentEvent → Prop
  | opened : Carries t (.opened t)
  | changed (earlier : List Text) : Carries t (.changed (earlier ++ [t]))
  | saved : Carries t (.saved (some t))

/-- The last event of the history that carries a text carries this one, and no close follows it. -/
def LeavesOpen (history : List DocumentEvent) (t : Text) : Prop :=
  ∃ earlier e later, history = earlier ++ e :: later ∧ e.Carries t ∧
    ∀ e' ∈ later, e' ≠ .closed ∧ ∀ t', ¬ e'.Carries t'

namespace DocumentEvent

variable {e : DocumentEvent} {t : Text}

theorem text?_eq_some_iff : e.text? = some t ↔ e.Carries t := by
  constructor
  · intro carried
    cases e with
    | opened text =>
      cases carried
      exact .opened
    | changed texts =>
      rw [← List.dropLast_append_getLast? t carried]
      exact .changed _
    | saved text =>
      cases carried
      exact .saved
    | closed => cases carried
  · intro carries
    cases carries with
    | opened => rfl
    | changed earlier => exact List.getLast?_concat
    | saved => rfl

theorem text?_eq_none_iff : e.text? = none ↔ ∀ t, ¬ e.Carries t := by
  simp only [← text?_eq_some_iff, Option.eq_none_iff_forall_ne_some]

/-- The text of a document behind an event, given the text before it. -/
def after (e : DocumentEvent) (text? : Option Text) : Option Text :=
  if e = .closed then none else e.text?.or text?

/-- The text that a history leaves a document with. -/
def latest (history : List DocumentEvent) : Option Text :=
  history.foldl (fun text? e => e.after text?) none

theorem latest_concat (history : List DocumentEvent) (e : DocumentEvent) :
    latest (history ++ [e]) = e.after (latest history) := by
  rw [latest, List.foldl_append]
  rfl

/-- What a history leaves open is decided by its last event, if that one carries a text or closes. -/
theorem leavesOpen_concat_iff {history : List DocumentEvent} :
    LeavesOpen (history ++ [e]) t ↔
      e.Carries t ∨ e ≠ .closed ∧ (∀ t', ¬ e.Carries t') ∧ LeavesOpen history t := by
  constructor
  · rintro ⟨earlier, carrier, later, split, carries, quiet⟩
    rcases later.eq_nil_or_concat with rfl | ⟨later, last, rfl⟩
    · obtain ⟨-, same⟩ := List.append_inj' split rfl
      cases same
      exact .inl carries
    · rw [List.concat_eq_append] at split quiet
      have shifted : history ++ [e] = (earlier ++ carrier :: later) ++ [last] := by
        rw [split]
        simp
      obtain ⟨rest, same⟩ := List.append_inj' shifted rfl
      cases same
      obtain ⟨open', silent⟩ := quiet e (by simp)
      refine .inr ⟨open', silent, earlier, carrier, later, rest, carries, ?_⟩
      intro e' member
      exact quiet e' (List.mem_append_left _ member)
  · rintro (carries | ⟨open', silent, earlier, carrier, later, rfl, carries, quiet⟩)
    · exact ⟨history, e, [], rfl, carries, fun e' member => absurd member List.not_mem_nil⟩
    · refine ⟨earlier, carrier, later ++ [e], by simp, carries, ?_⟩
      intro e' member
      rcases List.mem_append.mp member with before | last
      · exact quiet e' before
      · rw [List.mem_singleton.mp last]
        exact ⟨open', silent⟩

/-- A history leaves a document with a text exactly if it leaves it open with it. -/
theorem latest_eq_some_iff {history : List DocumentEvent} :
    latest history = some t ↔ LeavesOpen history t := by
  induction history using List.reverseRecOn with
  | nil => simp [latest, LeavesOpen]
  | append_singleton history e ih =>
    rw [latest_concat, leavesOpen_concat_iff, ← ih, after]
    by_cases close : e = .closed
    · subst close
      simp [← text?_eq_some_iff, text?]
    · rw [if_neg close, Option.or_eq_some_iff, text?_eq_some_iff, text?_eq_none_iff]
      simp [close]

/-- An event that makes no news leaves the text as it is. -/
theorem after_of_not_isNews {text? : Option Text} (old : e.isNews (e.after text?) = false) :
    e.after text? = text? := by
  cases e with
  | opened text => cases old
  | changed texts =>
    cases texts with
    | nil => rfl
    | cons text rest => cases old
  | saved text =>
    cases text with
    | none => rfl
    | some text => cases old
  | closed => cases old

end DocumentEvent

theorem OpenDocuments.get?_record (docs : OpenDocuments) (uri other : Uri) (e : DocumentEvent) :
    (docs.record uri e).get? other =
      if other = uri then e.after (docs.get? uri) else docs.get? other := by
  rw [record, DocumentEvent.after]
  by_cases close : e = .closed
  · rw [if_pos close, if_pos close, get?_erase]
  · rw [if_neg close, if_neg close]
    cases e.text? with
    | none =>
      by_cases same : other = uri
      · simp [same]
      · simp [same]
    | some text => exact docs.get?_set uri other text

/-- The events of one document among those of all. -/
def historyOf (uri : Uri) (events : List (Uri × DocumentEvent)) : List DocumentEvent :=
  (events.filter fun entry => entry.1 = uri).map Prod.snd

/-- The diagnostics that a client was told last for a document, if it was told any. -/
def lastShown? (uri : Uri) (publications : List Publication) : Option (List ClientDiagnostic) :=
  ((publications.filter fun p => p.uri = uri).getLast?).map Publication.diagnostics

section Appending

variable {uri other : Uri}

theorem historyOf_concat (events : List (Uri × DocumentEvent)) (e : DocumentEvent) :
    historyOf other (events ++ [(uri, e)]) =
      if other = uri then historyOf uri events ++ [e] else historyOf other events := by
  rw [historyOf, List.filter_append, List.map_append]
  by_cases same : other = uri
  · subst same
    simp [historyOf]
  · simp [historyOf, same, Ne.symm same]

theorem lastShown?_concat (publications : List Publication) (shown : List ClientDiagnostic) :
    lastShown? other (publications ++ [⟨uri, shown⟩]) =
      if other = uri then some shown else lastShown? other publications := by
  rw [lastShown?, List.filter_append]
  by_cases same : other = uri
  · subst same
    simp
  · simp [lastShown?, same, Ne.symm same]

end Appending

/-- The server has the documents that the events lead to, and what was published last for each of them
are its diagnostics. -/
structure Server.Reflects (server : Server) (events : List (Uri × DocumentEvent))
    (publications : List Publication) : Prop where
  documents : ∀ uri, server.documents.get? uri = DocumentEvent.latest (historyOf uri events)
  shown : ∀ uri shown, lastShown? uri publications = some shown → shown = server.diagnosticsOf uri
  told : ∀ uri, (server.documents.get? uri).isSome → (lastShown? uri publications).isSome

namespace Server

/-- The diagnostics of a document depend on its text, on the settings and on the encoding. -/
theorem diagnosticsOf_congr {server server' : Server} {uri : Uri}
    (settings : server'.settings = server.settings) (encoding : server'.encoding = server.encoding)
    (text : server'.documents.get? uri = server.documents.get? uri) :
    server'.diagnosticsOf uri = server.diagnosticsOf uri := by
  simp only [diagnosticsOf, check, settings, encoding, text]

theorem record_snd (server : Server) (uri : Uri) (e : DocumentEvent) :
    (server.record uri e).2 = { server with documents := server.documents.record uri e } := by
  rw [record]
  split <;> rfl

theorem record_fst (server : Server) (uri : Uri) (e : DocumentEvent) :
    (server.record uri e).1 =
      if e.isNews (e.after (server.documents.get? uri)) then
        some ⟨uri, (server.record uri e).2.diagnosticsOf uri⟩
      else none := by
  have text : (server.documents.record uri e).get? uri = e.after (server.documents.get? uri) := by
    rw [OpenDocuments.get?_record, if_pos rfl]
  rw [record_snd, record]
  simp only [text]
  split <;> rfl

theorem reflects_nil {server : Server} (empty : server.documents = {}) : server.Reflects [] [] where
  documents _ := by
    rw [empty]
    rfl
  shown _ _ told := by cases told
  told _ isOpen := by
    rw [empty] at isOpen
    cases isOpen

namespace Reflects

variable {server server' : Server} {events : List (Uri × DocumentEvent)}
  {publications : List Publication}

/-- A server that is told nothing about documents reflects what it did. -/
theorem congr (reflects : server.Reflects events publications)
    (settings : server'.settings = server.settings) (encoding : server'.encoding = server.encoding)
    (documents : server'.documents = server.documents) : server'.Reflects events publications where
  documents uri := by rw [documents, reflects.documents]
  shown uri shown told := by
    rw [reflects.shown uri shown told, diagnosticsOf_congr settings encoding (by rw [documents])]
  told uri isOpen := reflects.told uri (documents ▸ isOpen)

/-- Recording an event restores the relation between the documents and the publications. -/
theorem record (reflects : server.Reflects events publications) (uri : Uri) (e : DocumentEvent) :
    (server.record uri e).2.Reflects (events ++ [(uri, e)])
      (publications ++ (server.record uri e).1.toList) := by
  have recorded := record_snd server uri e
  have settings : (server.record uri e).2.settings = server.settings := by rw [recorded]
  have encoding : (server.record uri e).2.encoding = server.encoding := by rw [recorded]
  have texts (other : Uri) : (server.record uri e).2.documents.get? other =
      if other = uri then e.after (server.documents.get? uri) else server.documents.get? other := by
    rw [recorded, OpenDocuments.get?_record]
  have unmoved (other : Uri)
      (same : (server.record uri e).2.documents.get? other = server.documents.get? other) :=
    diagnosticsOf_congr settings encoding same
  have documents (other : Uri) : (server.record uri e).2.documents.get? other =
      DocumentEvent.latest (historyOf other (events ++ [(uri, e)])) := by
    rw [texts, historyOf_concat, reflects.documents, reflects.documents]
    split
    · rw [DocumentEvent.latest_concat]
    · rfl
  rw [record_fst]
  split
  · next news =>
    refine ⟨documents, fun other shown told => ?_, fun other isOpen => ?_⟩
    · rw [Option.toList_some, lastShown?_concat] at told
      split at told
      · next same =>
        rw [same, Option.some.inj told]
      · next apart =>
        rw [unmoved other (by rw [texts, if_neg apart]), reflects.shown other shown told]
    · rw [Option.toList_some, lastShown?_concat]
      split
      · rfl
      · next apart =>
        rw [texts, if_neg apart] at isOpen
        exact reflects.told other isOpen
  · next old =>
    -- no news, so no text has changed
    have same (other : Uri) :
        (server.record uri e).2.documents.get? other = server.documents.get? other := by
      rw [texts]
      split
      · next here =>
        rw [DocumentEvent.after_of_not_isNews (Bool.eq_false_iff.mpr old), here]
      · rfl
    rw [Option.toList_none, List.append_nil]
    refine ⟨documents, fun other shown told => ?_, fun other isOpen => ?_⟩
    · rw [unmoved other (same other), reflects.shown other shown told]
    · rw [same] at isOpen
      exact reflects.told other isOpen

end Reflects

end Server

end ProxyConfig
