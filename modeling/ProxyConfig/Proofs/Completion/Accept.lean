import ProxyConfig.Proofs.Completion.Ranges
import ProxyConfig.Proofs.EditedLine
import ProxyConfig.Proofs.Validation.KeyReports

/-! # Accepting an offer

An accepted offer exchanges the word in its stretch and leaves the rest of the line and the other lines
as they are. The line is no header before and after, so it is read in the same section. The piece that
the cursor was in is the only one that changes, and it has the key or the value that was offered; since
only keys are offered that no other argument has and that the type takes, nothing is reported at them.
-/

namespace ProxyConfig

open Text

namespace Cursor

variable {c : Cursor} {doc : Document} {item : CompletionItem} {kind : SectionKind}

/-- A document that has another content on the line of the cursor. -/
structure Edited (c : Cursor) (doc : Document) (content : Text) : Prop where
  content : (doc.line c.line).uncommented = content
  body : headerName? (doc.line c.line) = none
  kindAt? : doc.kindAt? c.line = c.doc.kindAt? c.line
  elsewhere : ∀ kind e, e.line ≠ c.line → (e ∈ doc.entries kind ↔ e ∈ c.doc.entries kind)

/-- A cursor on a line of a text that is no header. -/
structure OnBody (c : Cursor) (s : Text) : Prop where
  doc : c.doc = .parse s
  first : 1 ≤ c.line
  last : c.line ≤ c.doc.lineCount
  body : headerName? c.lineText = none

/-- A new text without a mark, put in the place of the word, changes the content of the line. -/
theorem Stretch.edited {s new lead old trail : Text} (st : c.Stretch) (on : c.OnBody s)
    (replaces : st.Replaces lead old trail) (fits : FitsLine new) (unmarked : '#' ∉ new)
    (fresh : ∀ rest, headerName? (st.front ++ (lead ++ (new ++ rest))) = none) :
    c.Edited (.parse (s.edit st.range new)) (st.front ++ (lead ++ (new ++ (trail ++ st.back)))) := by
  obtain ⟨doc, first, last, body⟩ := on
  have line : (Document.parse s).line c.line =
      (st.front ++ lead) ++ (old ++ (trail ++ (st.back ++ c.lineText.comment))) := by
    rw [← doc, List.append_assoc]
    exact st.lineText_eq replaces
  have start : st.range.start.column - 1 = (st.front ++ lead).length := by
    rw [replaces.start, List.length_append]
  have stop : st.range.stop.column - 1 = (st.front ++ lead).length + old.length := by
    rw [replaces.stop, List.length_append]
  have changed := Document.parse_edit fits replaces.lines first (doc ▸ last) line start stop
  have clean : '#' ∉ st.front ++ (lead ++ (new ++ (trail ++ st.back))) := by
    have whole := not_mem_uncommented c.lineText
    change '#' ∉ c.content at whole
    rw [st.split, replaces.split] at whole
    simp only [List.mem_append, not_or] at whole ⊢
    exact ⟨whole.1, whole.2.1.1, unmarked, whole.2.1.2.2, whole.2.2⟩
  have parts : (st.front ++ lead) ++ (new ++ (trail ++ (st.back ++ c.lineText.comment))) =
      st.front ++ (lead ++ (new ++ (trail ++ st.back))) ++ c.lineText.comment := by
    simp only [List.append_assoc]
  have notHeader : headerName?
      (st.front ++ (lead ++ (new ++ (trail ++ st.back))) ++ c.lineText.comment) = none := by
    simp only [List.append_assoc]
    exact fresh _
  rw [changed, parts, ← doc]
  refine ⟨?_, ?_, ?_, ?_⟩
  · rw [Document.line_withLine_self first last]
    exact uncommented_append clean (isComment_comment c.lineText)
  · rw [Document.line_withLine_self first last]
    exact notHeader
  · exact Document.kindAt?_withLine first body notHeader c.line
  · exact fun kind e other => Document.mem_entries_withLine_iff first body notHeader last other

/-- What stands in front of the stretch keeps the line from becoming a header. -/
theorem Stretch.headerName?_eq_none (st : c.Stretch) (here : c.context = .body kind)
    (solid : st.front.allBlank = false) (rest : Text) : headerName? (st.front ++ rest) = none := by
  have whole : c.lineText = st.front ++ (st.inside ++ st.back ++ c.lineText.comment) := by
    have parts := (uncommented_append_comment c.lineText).symm
    change c.lineText = c.content ++ c.lineText.comment at parts
    rw [st.split] at parts
    simpa only [List.append_assoc] using parts
  have front : c.before =
      st.front ++ (st.inside ++ st.back ++ c.lineText.comment).take (c.column - 1 - st.front.length) := by
    rw [before]
    conv_lhs => rw [whole]
    rw [List.take_append, List.take_of_length_le st.starts]
  apply Section.headerName?_eq_none_of_head?
  rw [head?_trimStart_append solid, ← head?_trimStart_append solid, ← front]
  intro bracket
  rw [context, if_pos bracket] at here
  split at here <;> cases here

/-! ## Arguments -/

section Arguments

variable {base key : Text}

/-- The place on the edited line, with another piece there. -/
def PieceAt.withPiece (a : c.PieceAt base) {c' : Cursor} (piece : Text)
    (content : c'.content = a.front ++ (piece ++ a.back)) (column : c'.column = a.front.length + 1)
    (single : ',' ∉ piece) : c'.PieceAt base where
  earlier := a.earlier
  piece := piece
  later := a.later
  split := by
    rw [content, front, List.append_assoc]
    rfl
  single := by
    have clean := a.single
    rw [List.forall_mem_append, List.forall_mem_cons] at clean ⊢
    exact ⟨clean.1, single, clean.2.2⟩
  starts := by
    rw [column, ← a.length_front]
    exact Nat.le_refl _
  ends := by
    rw [column, ← a.length_front]
    exact Nat.le_add_right _ _

/-- The declaration on the line of a piece of its value. -/
theorem PieceAt.entry?_eq (a : c.PieceAt (key ++ ['='])) (keyed : '=' ∉ key) :
    c.entry? = some a.entry := by
  refine entry?_of_cut? (cut?_eq_some_iff.mpr ⟨?_, keyed⟩)
  rw [a.split, List.append_assoc]
  rfl

theorem mem_entries_of_entry? {e : Entry} (known : c.doc.kindAt? c.line = some kind)
    (body : headerName? c.lineText = none) (read : c.entry? = some e) : e ∈ c.doc.entries kind := by
  refine Document.mem_entries_of_kindAt? known body ?_
  rw [Entry.ofLine?, ← Entry.parse?_uncommented]
  exact read

/-- The keys beside the argument are those of the other pieces. -/
theorem PieceAt.keysBeside_eq (a : c.PieceAt (key ++ ['='])) :
    a.entry.keysBeside a.earlier.length = ((a.earlier ++ a.later).map trim).filterMap propertyKey? := by
  change propertyKeys a.entry.line (a.entry.arguments.toList.eraseIdx a.earlier.length) = _
  rw [propertyKeys_eq_filterMap, ← List.eraseIdx_map, a.map_text_arguments, List.eraseIdx_map,
    List.eraseIdx_append_of_length_le (Nat.le_refl _), Nat.sub_self, List.eraseIdx_zero, List.tail_cons]

/-- Behind the first piece, the type is what it is there. -/
theorem PieceAt.first_text (a : c.PieceAt (key ++ ['='])) (behind : a.earlier.length ≠ 0) :
    some a.entry.arguments.first.text = (a.earlier.map trim).head? := by
  have texts := congrArg List.head? a.map_text_arguments
  rw [List.map_append, List.head?_append_of_ne_nil _ (by simpa using behind)] at texts
  exact texts

/-- The edited line is a declaration with the other piece in its value. -/
theorem PieceAt.mem_entries_withPiece (a : c.PieceAt (key ++ ['='])) (keyed : '=' ∉ key)
    (known : c.doc.kindAt? c.line = some kind) {piece : Text}
    (edited : c.Edited doc (a.front ++ (piece ++ a.back))) (single : ',' ∉ piece) :
    (a.withPiece piece edited.content rfl single :
      Cursor.PieceAt ⟨doc, ⟨c.line, a.front.length + 1⟩⟩ (key ++ ['='])).entry ∈
      doc.entries kind := by
  let c' : Cursor := ⟨doc, ⟨c.line, a.front.length + 1⟩⟩
  let a' : c'.PieceAt (key ++ ['=']) := a.withPiece piece edited.content rfl single
  have known' : c'.doc.kindAt? c'.line = some kind := edited.kindAt?.trans known
  exact mem_entries_of_entry? known' edited.body (a'.entry?_eq keyed)

/-- On the edited line the argument is the property that was put there, and the other arguments are as
they were. -/
theorem PieceAt.exists_propertyAt (a : c.PieceAt (key ++ ['='])) (keyed : '=' ∉ key)
    (behind : a.earlier.length ≠ 0) (known : c.doc.kindAt? c.line = some kind) {name value : Text}
    (edited : c.Edited doc (a.front ++ ((name ++ '=' :: value) ++ a.back)))
    (single : ',' ∉ name ++ '=' :: value) (nameKeyed : '=' ∉ name) :
    ∃ e ∈ doc.entries kind, e.line = c.line ∧
      e.arguments.first.text = a.entry.arguments.first.text ∧
      e.keysBeside a.earlier.length = a.entry.keysBeside a.earlier.length ∧
      ∃ w q, e.PropertyAt a.earlier.length w q ∧
        q.key.Agrees (.trimmed (a.front.length + 1) name) ∧
        q.value = .trimmed (a.front.length + 1 + name.length + 1) value := by
  let c' : Cursor := ⟨doc, ⟨c.line, a.front.length + 1⟩⟩
  let a' : c'.PieceAt (key ++ ['=']) := a.withPiece (name ++ '=' :: value) edited.content rfl single
  obtain ⟨q, property⟩ := a'.exists_property rfl nameKeyed
  have here : a'.entry ∈ doc.entries kind := a.mem_entries_withPiece keyed known edited single
  have first := (a'.first_text behind).trans (a.first_text behind).symm
  have keys := a'.keysBeside_eq.trans a.keysBeside_eq.symm
  exact ⟨a'.entry, here, rfl, Option.some.inj first, keys, a'.stretch.word, q,
    ⟨a'.piece?_arguments behind, property.read⟩, property.keySpan, property.valueSpan⟩

/-- What a key stretch becomes when a key is put there: a name, the first `=` of the piece, and a value. -/
theorem PieceAt.KeySlot.exists_name {a : c.PieceAt base} {s : c.Stretch} {hasEquals : Bool}
    (slot : a.KeySlot s hasEquals) {word lead old trail : Text} (isWord : IsWord word)
    (replaces : s.Replaces lead old trail) :
    ∃ name value margin : Text, name = lead ++ (word ++ margin) ∧ margin.allBlank = true ∧
      '=' ∉ name ∧ ',' ∉ name ++ '=' :: value ∧
      s.front ++ (lead ++ ((word ++ if hasEquals then [] else ['=']) ++ (trail ++ s.back))) =
        a.front ++ ((name ++ '=' :: value) ++ a.back) := by
  obtain ⟨rest, piece, back, ends⟩ := slot.rest
  have plain := slot.plain
  have single := a.comma_not_mem
  rw [piece, replaces.split] at single
  rw [replaces.split] at plain
  simp only [List.mem_append, not_or] at plain single
  rw [slot.front, back]
  cases hasEquals with
  | true =>
    obtain ⟨value, rfl⟩ := ends
    refine ⟨lead ++ (word ++ trail), value, trail, rfl, replaces.trailing, ?_, ?_, by simp⟩
    · simp [plain, isWord.keyless]
    · simp [single, isWord.single]
  | false =>
    obtain rfl : rest = [] := ends
    refine ⟨lead ++ (word ++ []), trail, [], rfl, rfl, ?_, ?_, by simp⟩
    · simp [plain, isWord.keyless]
    · simp [single, isWord.single]

end Arguments

/-- The argument has the offered key where the offer was put. No other argument of the declaration has
it, and nothing is reported at it. -/
def AcceptsKey (doc : Document) (e : Entry) (i : Nat) (item : CompletionItem) : Prop :=
  ∃ a q, e.PropertyAt i a q ∧ q.key = ⟨item.label.toList, item.range.start.column⟩ ∧
    item.label.toList ∉ e.keysBeside i ∧
      ∀ code ∈ propertyKeyCodes, ¬ Reports doc.validate code q.keyRange

/-- The property in the argument has its key still and the offered value where the offer was put, and
no report says that the value should be another word. -/
def AcceptsValue (doc : Document) (e : Entry) (i : Nat) (key : Text) (item : CompletionItem) : Prop :=
  ∃ a q, e.PropertyAt i a q ∧ q.key.text = key ∧
    q.value = ⟨item.label.toList, item.range.start.column⟩ ∧
      ∀ code ∈ propertyWordCodes, ¬ Reports doc.validate code q.valueRange

section Properties

variable {K : Type} [Keyword K] [DecidableEq K] {rules : PropertyRules K} {valueKind : K → ValueKind}
  {key s : Text}

/-- A declaration keeps its type, and is checked by the rules of the type. -/
def ChecksBy (doc : Document) (kind : SectionKind) (type : Text) (rules : PropertyRules K)
    (valueKind : K → ValueKind) : Prop :=
  ∀ e ∈ doc.entries kind, e.arguments.first.text = type → doc.ListsProperties e rules valueKind

theorem PieceAt.column_pos (a : c.PieceAt (key ++ ['='])) : 0 < c.column := by
  have starts := a.starts
  rw [List.length_append, List.length_singleton] at starts
  omega

theorem PieceAt.front_solid (a : c.PieceAt (key ++ ['='])) : a.front.allBlank = false := by
  have inside : '=' ∈ a.front := by simp [PieceAt.front]
  exact allBlank_of_mem inside (by decide)

/-- The word that is put into a stretch is read where the range of the offer starts. -/
theorem Stretch.Replaces.trimmed_eq {st : c.Stretch} {lead old trail : Text}
    (replaces : st.Replaces lead old trail) (real : 0 < c.column) {word margin : Text}
    (isWord : IsWord word) (blank : margin.allBlank = true) :
    Span.trimmed (st.front.length + 1) (lead ++ (word ++ margin)) = ⟨word, st.range.start.column⟩ := by
  have start := replaces.start
  have positive := replaces.start_pos real
  rw [Span.trimmed_surround _ replaces.leading isWord.trimmed isWord.solid blank]
  congr 1
  omega

theorem kindAt?_of_context (here : c.context = .body kind) : c.doc.kindAt? c.line = some kind := by
  rw [context] at here
  split at here
  · cases here
  split at here
  · cases here
  split at here
  · next found => cases here; exact found
  · cases here

/-- An offered key is that of its argument when the offer is accepted. -/
theorem acceptsKey [Keyword.Readable K] [Keyword.Words K] (on : c.OnBody s)
    (here : c.context = .body kind) {a : c.PieceAt (key ++ ['='])} (keyed : '=' ∉ key)
    (behind : a.earlier.length ≠ 0) {st : c.Stretch} {hasEquals : Bool}
    (slot : a.KeySlot st hasEquals)
    (offered : item ∈ CompletionItem.propertyKeys rules.required rules.allowed
      (a.entry.keysBeside a.earlier.length) st.range hasEquals)
    (checks : ChecksBy (.parse (s.edit item.range item.newText.toList)) kind
      a.entry.arguments.first.text rules valueKind) :
    ∃ e ∈ (Document.parse (s.edit item.range item.newText.toList)).entries kind, e.line = c.line ∧
      AcceptsKey (.parse (s.edit item.range item.newText.toList)) e a.earlier.length item := by
  obtain ⟨k, listed, unused, offers⟩ := CompletionItem.exists_offersKey offered
  obtain ⟨lead, old, trail, replaces⟩ := st.exists_replaces
  have isWord : IsWord (Keyword.text k) := Keyword.Words.isWord k
  obtain ⟨name, value, margin, rfl, blank, nameKeyed, single, content⟩ :=
    slot.exists_name isWord replaces
  have fits : FitsLine item.newText.toList ∧ '#' ∉ item.newText.toList := by
    rw [offers.newText]
    cases hasEquals with
    | true => rw [if_pos rfl, List.append_nil]; exact ⟨isWord.fitsLine, isWord.unmarked⟩
    | false =>
      refine ⟨FitsLine.append isWord.flat (by decide), ?_⟩
      simp [isWord.unmarked]
  have edited := st.edited on replaces fits.1 fits.2 fun rest =>
    st.headerName?_eq_none here (slot.front ▸ a.front_solid) _
  rw [offers.newText, content, ← offers.newText, ← offers.range] at edited
  obtain ⟨e, member, line, first, keys, w, q, property, name, -⟩ :=
    a.exists_propertyAt keyed behind (kindAt?_of_context here) edited single nameKeyed
  rw [← slot.front, replaces.trimmed_eq a.column_pos isWord blank] at name
  obtain same : q.key = _ := name.eq_of_solid isWord.solid
  have label : item.label.toList = Keyword.text k := congrArg String.toList offers.label
  refine ⟨e, member, line, w, q, property, ?_, ?_, fun code coded => ?_⟩
  · rw [same, label, offers.range]
  · rw [label, keys]
    exact unused
  · refine (checks e member first).not_reports_key property ?_ ?_
      (PropertyRules.accepts_iff.mpr listed) coded
    · rw [same]
      change _ ∉ e.keysBeside _
      rw [keys]
      exact unused
    · rw [same]
      exact Keyword.Readable.parse?_spelling k

/-- A word that is put in the place of a value is read as the value of its property. -/
theorem PieceAt.ValueSlot.exists_propertyAt (on : c.OnBody s) (here : c.context = .body kind)
    {a : c.PieceAt (key ++ ['='])} (keyed : '=' ∉ key) (behind : a.earlier.length ≠ 0)
    {st : c.Stretch} {name : Text} {old : Entry} (slot : a.ValueSlot st name old) {word : Text}
    (isWord : IsWord word) :
    (∃ content, c.Edited (.parse (s.edit st.range word)) content) ∧
    ∃ e ∈ (Document.parse (s.edit st.range word)).entries kind, e.line = c.line ∧
      e.arguments.first.text = a.entry.arguments.first.text ∧
      ∃ w q, e.PropertyAt a.earlier.length w q ∧ q.key.text = old.key.text ∧
        q.value = ⟨word, st.range.start.column⟩ := by
  obtain ⟨lead, replaced, trail, replaces⟩ := st.exists_replaces
  have single : ',' ∉ name ++ '=' :: (lead ++ (word ++ trail)) := by
    have clean := a.comma_not_mem
    rw [slot.piece, replaces.split] at clean
    simp only [List.mem_append, List.mem_cons, not_or] at clean ⊢
    exact ⟨clean.1, clean.2.1, clean.2.2.1, isWord.single, clean.2.2.2.2⟩
  have solid : st.front.allBlank = false := by
    rw [slot.front, allBlank_append, a.front_solid, Bool.false_and]
  have edited := st.edited on replaces isWord.fitsLine isWord.unmarked fun rest =>
    st.headerName?_eq_none here solid _
  have content : st.front ++ (lead ++ (word ++ (trail ++ st.back))) =
      a.front ++ ((name ++ '=' :: (lead ++ (word ++ trail))) ++ a.back) := by
    rw [slot.front, slot.back]
    simp
  rw [content] at edited
  obtain ⟨e, member, line, first, -, w, q, property, label, value⟩ :=
    a.exists_propertyAt keyed behind (kindAt?_of_context here) edited single slot.keyed
  have column : a.front.length + 1 + name.length + 1 = st.front.length + 1 := by
    rw [slot.front, List.length_append, List.length_append, List.length_singleton]
    omega
  rw [column, replaces.trimmed_eq a.column_pos isWord replaces.trailing] at value
  refine ⟨⟨_, edited⟩, e, member, line, first, w, q, property, ?_, value⟩
  rw [label.text_eq, Span.text_trimmed, slot.keyText]

/-- An offered word for the value of a property is its value when the offer is accepted. -/
theorem acceptsValue (on : c.OnBody s) (here : c.context = .body kind) {a : c.PieceAt (key ++ ['='])}
    (keyed : '=' ∉ key) (behind : a.earlier.length ≠ 0) {st : c.Stretch} {name : Text} {old : Entry}
    (slot : a.ValueSlot st name old) {k : K} (known : Keyword.parse? old.key.text = some k)
    (offered : item ∈ CompletionItem.values (valueKind k).words st.range)
    (checks : ChecksBy (.parse (s.edit item.range item.newText.toList)) kind
      a.entry.arguments.first.text rules valueKind) :
    ∃ e ∈ (Document.parse (s.edit item.range item.newText.toList)).entries kind, e.line = c.line ∧
      AcceptsValue (.parse (s.edit item.range item.newText.toList)) e a.earlier.length
        old.key.text item := by
  obtain ⟨word, listed, offers⟩ := CompletionItem.exists_offersWord offered
  have isWord : IsWord word.toList := ValueKind.isWord_of_mem_words word listed
  obtain ⟨-, e, member, line, first, w, q, property, text, value⟩ :=
    slot.exists_propertyAt on here keyed behind isWord
  rw [← offers.range, ← offers.newText] at member
  refine ⟨e, member, line, w, q, property, text, ?_, fun code coded => ?_⟩
  · rw [value, offers.label, offers.range]
  · exact (checks e member first).not_reports_word property (text ▸ known) listed
      (congrArg Span.text value) coded

end Properties

/-! ## Settings -/

section Settings

variable {s : Text} {k : SettingKey} {st : c.Stretch}

/-- The line sets the offered key, and nothing is reported at the key. -/
def AcceptsSetting (doc : Document) (e : Entry) (item : CompletionItem) : Prop :=
  e.key.text = item.label.toList ∧
    ∀ code ∈ settingKeyCodes, ¬ Reports doc.validate code e.keyRange

/-- What a line becomes when the key of a setting is put there. -/
theorem OffersSetting.exists_name (offers : c.OffersSetting item k st) {lead old trail : Text}
    (replaces : st.Replaces lead old trail) :
    ∃ name value margin : Text, name = lead ++ (Keyword.text k ++ margin) ∧ margin.allBlank = true ∧
      '=' ∉ name ∧ lead ++ (item.newText.toList ++ (trail ++ st.back)) = name ++ '=' :: value := by
  have isWord : IsWord (Keyword.text k) := Keyword.Words.isWord k
  obtain ⟨keyed, ⟨value, back⟩, new⟩ | ⟨back, rest, new⟩ := offers.newText
  · rw [replaces.split] at keyed
    simp only [List.mem_append, not_or] at keyed
    refine ⟨_, value, trail, rfl, replaces.trailing, ?_, ?_⟩
    · simp [keyed, isWord.keyless]
    · rw [new, back]
      simp
  · have absent : '=' ∉ lead := not_mem_of_allBlank replaces.leading (by decide)
    refine ⟨_, rest ++ trail, [' '], rfl, rfl, ?_, ?_⟩
    · simp [absent, isWord.keyless]
    · rw [new, back]
      simp

/-- A line that starts with the key of a setting is no header. -/
theorem headerName?_setting_eq_none (k : SettingKey) {lead : Text} (blank : lead.allBlank = true)
    (rest : Text) : headerName? (lead ++ (Keyword.text k ++ rest)) = none := by
  have isWord : IsWord (Keyword.text k) := Keyword.Words.isWord k
  refine Section.headerName?_of_core blank isWord.trimmed isWord.solid ?_ rest
  cases k <;> decide

/-- An offered key of a setting is that of its line when the offer is accepted. -/
theorem acceptsSetting (on : c.OnBody s) (here : c.context = .body .general)
    (offers : c.OffersSetting item k st) :
    ∃ e ∈ (Document.parse (s.edit item.range item.newText.toList)).entries .general,
      e.line = c.line ∧ AcceptsSetting (.parse (s.edit item.range item.newText.toList)) e item := by
  obtain ⟨lead, old, trail, replaces⟩ := st.exists_replaces
  have isWord : IsWord (Keyword.text k) := Keyword.Words.isWord k
  obtain ⟨name, value, margin, rfl, blank, keyed, content⟩ := offers.exists_name replaces
  obtain ⟨more, new⟩ : ∃ more, item.newText.toList = Keyword.text k ++ more := by
    obtain ⟨-, -, new⟩ | ⟨-, rest, new⟩ := offers.newText
    · exact ⟨[], by rw [new, List.append_nil]⟩
    · exact ⟨_, new⟩
  have edited := st.edited on replaces offers.fits.1 offers.fits.2 fun rest => by
    rw [offers.front, List.nil_append, new, List.append_assoc]
    exact headerName?_setting_eq_none k replaces.leading _
  rw [offers.front, List.nil_append, content, ← offers.range] at edited
  let c' : Cursor := ⟨.parse (s.edit item.range item.newText.toList), ⟨c.line, 1⟩⟩
  have read : c'.entry? =
      some ⟨c.line, .trimmed 1 (lead ++ (Keyword.text k ++ margin)), .trimmed _ value⟩ :=
    entry?_of_cut? (cut?_eq_some_iff.mpr ⟨edited.content, keyed⟩)
  have general : c'.doc.kindAt? c'.line = some .general :=
    edited.kindAt?.trans (kindAt?_of_context here)
  have member := mem_entries_of_entry? general edited.body read
  have text : (Span.trimmed 1 (lead ++ (Keyword.text k ++ margin))).text = Keyword.text k := by
    rw [Span.text_trimmed, trim_surround replaces.leading isWord.trimmed blank]
  have label : item.label.toList = Keyword.text k := congrArg String.toList offers.label
  refine ⟨_, member, rfl, text.trans label.symm, fun code coded => ?_⟩
  have known : Keyword.parse? (Span.trimmed 1 (lead ++ (Keyword.text k ++ margin))).text = some k := by
    rw [text]
    exact Keyword.Readable.parse?_spelling k
  refine Document.not_reports_settingKey member known (fun f other same => ?_) coded
  by_contra elsewhere
  have before := (edited.elsewhere _ f elsewhere).mp other
  refine offers.fresh (List.mem_map.mpr ⟨f, List.mem_filter.mpr ⟨before, ?_⟩, same.trans text⟩)
  simpa using elsewhere

end Settings

/-! ## All offers -/

/-- But for section names, the offers are those of the section of the line. -/
theorem context_of_mem_items {snippets : Bool} (member : item ∈ c.items snippets)
    (known : c.doc.kindAt? c.line = some kind) (body : item.kind ≠ .header) :
    c.context = .body kind := by
  cases here : c.context with
  | header =>
    obtain ⟨k, -, rfl⟩ := List.mem_map.mp (mem_headerItems member here)
    exact absurd rfl body
  | body other =>
    rw [kindAt?_of_context here] at known
    rw [Option.some.inj known]
  | none =>
    rw [items, here] at member
    split at member <;> cases member

section Declarations

variable {T K : Type} [Keyword T] [Keyword K] {rules : T → PropertyRules K}
  {valueKind : K → ValueKind} {kindOf : T → Entry → Option ValueKind} {s : Text}
  {items : List CompletionItem} {entry : Entry} {i : Nat} {t : T} {snippets : Bool}

/-- The keys that are offered are those that the declaration may have and that are not the key of
another argument. -/
def OffersAllKeys (items : List CompletionItem) (entry : Entry) (i : Nat) (rules : PropertyRules K) :
    Prop :=
  ∀ label, (∃ item ∈ items, item.kind = .property ∧ item.label = label) ↔
    ∃ k : K, (k ∈ rules.required ∨ k ∈ rules.allowed) ∧ Keyword.spelling k = label ∧
      ∀ j w q, j ≠ i → entry.PropertyAt j w q → q.key.text ≠ Keyword.text k

/-- What accepting an offer in a declaration brings about. -/
structure SoundOffer (c : Cursor) (s : Text) (kind : SectionKind) (rules : T → PropertyRules K)
    (items : List CompletionItem) (item : CompletionItem) : Prop where
  key : item.kind = .property → ∃ entry i t, c.argument? = some (entry, i) ∧
    Keyword.parse? entry.arguments.first.text = some t ∧ OffersAllKeys items entry i (rules t) ∧
    ∃ e ∈ (Document.parse (s.edit item.range item.newText.toList)).entries kind, e.line = c.line ∧
      AcceptsKey (.parse (s.edit item.range item.newText.toList)) e i item
  value : item.kind = .value → ∃ entry i w old, c.argument? = some (entry, i) ∧
    entry.PropertyAt i w old ∧
    ∃ e ∈ (Document.parse (s.edit item.range item.newText.toList)).entries kind, e.line = c.line ∧
      AcceptsValue (.parse (s.edit item.range item.newText.toList)) e i old.key.text item

theorem mem_keysBeside_iff {text : Text} : text ∈ entry.keysBeside i ↔
    ∃ j w q, j ≠ i ∧ entry.PropertyAt j w q ∧ q.key.text = text := by
  change text ∈ propertyKeys entry.line (entry.arguments.toList.eraseIdx i) ↔ _
  rw [mem_propertyKeys_iff]
  constructor
  · rintro ⟨w, inside, q, read, same⟩
    obtain ⟨j, other, place⟩ := List.mem_eraseIdx_iff_getElem?.mp inside
    exact ⟨j, w, q, other, ⟨place, read⟩, same⟩
  · rintro ⟨j, w, q, other, property, same⟩
    exact ⟨w, List.mem_eraseIdx_iff_getElem?.mpr ⟨j, other, property.argument⟩, q, property.read, same⟩

/-- An offered key is among those of the type of the declaration. -/
theorem OffersDeclaration.mem_propertyKeys (offers : c.OffersDeclaration rules kindOf items item)
    (property : item.kind = .property) (found : c.argument? = some (entry, i))
    (known : Keyword.parse? entry.arguments.first.text = some t) :
    ∃ range hasEquals, item ∈ CompletionItem.propertyKeys (rules t).required (rules t).allowed
      (entry.keysBeside i) range hasEquals := by
  cases offers with
  | type _ _ kind =>
    rw [property] at kind
    rcases kind with kind | kind <;> cases kind
  | argument _ a _ found' _ t' known' offers =>
    rw [found] at found'
    cases found'
    obtain rfl := Option.some.inj (known.symm.trans known')
    cases offers with
    | key s hasEquals _ offered => exact ⟨s.range, hasEquals, offered⟩
    | value s _ _ _ _ _ offered =>
      obtain ⟨word, -, offers⟩ := CompletionItem.exists_offersWord offered
      cases property.symm.trans offers.kind
    | actor _ _ offered => cases property.symm.trans (CompletionItem.kind_of_mem_actors offered)

/-- Where one key is offered, all are. -/
theorem offersAllKeys (offers : ∀ other ∈ items, c.OffersDeclaration rules kindOf items other)
    (found : c.argument? = some (entry, i))
    (known : Keyword.parse? entry.arguments.first.text = some t) {range : Range} {hasEquals : Bool}
    (complete : CompletionItem.propertyKeys (rules t).required (rules t).allowed (entry.keysBeside i)
      range hasEquals ⊆ items) : OffersAllKeys items entry i (rules t) := by
  intro label
  constructor
  · rintro ⟨other, member, property, rfl⟩
    obtain ⟨_, _, offered⟩ := (offers other member).mem_propertyKeys property found known
    obtain ⟨k, listed, unused, offers⟩ := CompletionItem.exists_offersKey offered
    exact ⟨k, listed, offers.label.symm, fun j w q other property same =>
      unused (mem_keysBeside_iff.mpr ⟨j, w, q, other, property, same⟩)⟩
  · rintro ⟨k, listed, rfl, fresh⟩
    have unused : Keyword.text k ∉ entry.keysBeside i := by
      intro used
      obtain ⟨j, w, q, other, property, same⟩ := mem_keysBeside_iff.mp used
      exact fresh j w q other property same
    obtain ⟨item, offered, offers⟩ := CompletionItem.exists_mem_propertyKeys listed unused range hasEquals
    exact ⟨item, complete offered, offers.kind, offers.label⟩

variable [DecidableEq K] [Keyword.Readable K] [Keyword.Words K]

theorem soundOffer (on : c.OnBody s) (here : c.context = .body kind)
    (kinds : ∀ t property, kindOf t property =
      ((Keyword.parse? property.key.text).filter (rules t).accepts).map valueKind)
    (checks : ∀ (doc : Document) (t : T), ∀ e ∈ doc.entries kind,
      Keyword.parse? e.arguments.first.text = some t → doc.ListsProperties e (rules t) valueKind)
    (offers : ∀ other ∈ items, c.OffersDeclaration rules kindOf items other)
    (member : item ∈ items) : c.SoundOffer s kind rules items item := by
  cases offers item member with
  | type _ _ kind =>
    refine ⟨fun property => ?_, fun value => ?_⟩
    · rw [property] at kind
      rcases kind with kind | kind <;> cases kind
    · rw [value] at kind
      rcases kind with kind | kind <;> cases kind
  | argument _ a keyed found behind t known offered =>
    cases offered with
    | key st hasEquals slot offered complete =>
      refine ⟨fun _ => ⟨a.entry, a.earlier.length, t, found, known,
        offersAllKeys offers found known complete, ?_⟩, fun value => ?_⟩
      · exact acceptsKey on here keyed behind slot offered fun e inside first =>
          checks _ t e inside (first ▸ known)
      · obtain ⟨k, -, -, offers⟩ := CompletionItem.exists_offersKey offered
        cases value.symm.trans offers.kind
    | value st name property slot _ expected offered =>
      refine ⟨fun property => ?_, fun _ => ⟨a.entry, a.earlier.length, a.stretch.word, property, found,
        ⟨a.piece?_arguments behind, slot.read⟩, ?_⟩⟩
      · obtain ⟨word, -, offers⟩ := CompletionItem.exists_offersWord offered
        cases property.symm.trans offers.kind
      · rw [kinds] at expected
        obtain ⟨k, accepted, rfl⟩ := Option.map_eq_some_iff.mp expected
        obtain ⟨read, -⟩ := Option.filter_eq_some_iff.mp accepted
        exact acceptsValue on here keyed behind slot read offered fun e inside first =>
          checks _ t e inside (first ▸ known)
    | actor _ _ offered =>
      have kind := CompletionItem.kind_of_mem_actors offered
      exact ⟨fun property => (nomatch property.symm.trans kind),
        fun value => (nomatch value.symm.trans kind)⟩

/-- The same on a line of a section of declarations. Section names may be offered there too; they are
neither keys nor values. -/
theorem soundOffer_of_mem_items (on : c.OnBody s) (known : c.doc.kindAt? c.line = some kind)
    (member : item ∈ c.items snippets)
    (kinds : ∀ t property, kindOf t property =
      ((Keyword.parse? property.key.text).filter (rules t).accepts).map valueKind)
    (checks : ∀ (doc : Document) (t : T), ∀ e ∈ doc.entries kind,
      Keyword.parse? e.arguments.first.text = some t → doc.ListsProperties e (rules t) valueKind)
    (offers : c.context = .body kind → ∀ other ∈ c.items snippets,
      c.OffersDeclaration rules kindOf (c.items snippets) other) :
    c.SoundOffer s kind rules (c.items snippets) item := by
  by_cases name : item.kind = .header
  · exact ⟨fun property => (nomatch property.symm.trans name),
      fun value => (nomatch value.symm.trans name)⟩
  · have here := context_of_mem_items member known name
    exact soundOffer on here kinds checks (offers here) member

end Declarations

/-- Accepting an offer is sound. The key or the value of a property is the offered one, at the place of
the edit, and the report on the new text has nothing against it; the keys that are offered with it are
all that the declaration may still have. A setting likewise has the offered key. -/
theorem accepted_offers (s : Text) (p : Position) (snippets : Bool) (first : 1 ≤ p.line)
    (last : p.line ≤ (Document.parse s).lineCount)
    (body : headerName? ((Document.parse s).line p.line) = none) :
    let c : Cursor := ⟨.parse s, p⟩
    ∀ item ∈ c.items snippets,
      (c.doc.kindAt? p.line = some .proxy →
        c.SoundOffer s .proxy Protocol.rules (c.items snippets) item) ∧
      (c.doc.kindAt? p.line = some .proxyGroup →
        c.SoundOffer s .proxyGroup GroupType.rules (c.items snippets) item) ∧
      (c.doc.kindAt? p.line = some .general → item.kind = .property →
        ∃ e ∈ (Document.parse (s.edit item.range item.newText.toList)).entries .general,
          e.line = p.line ∧
            AcceptsSetting (.parse (s.edit item.range item.newText.toList)) e item) := by
  intro c item member
  have on : c.OnBody s := ⟨rfl, first, last, body⟩
  have short := short_of_mem_items member
  have inside := not_lt_of_mem_items member
  refine ⟨fun known => ?_, fun known => ?_, fun known property => ?_⟩
  · refine soundOffer_of_mem_items on known member (fun _ _ => rfl)
      (fun _ _ _ here => Document.listsProperties_proxy here) fun here => ?_
    rw [items, if_neg inside, here]
    exact fun _ => offersDeclaration_of_mem_proxyItems short
  · refine soundOffer_of_mem_items on known member (fun _ _ => rfl)
      (fun _ _ _ here => Document.listsProperties_group here) fun here => ?_
    rw [items, if_neg inside, here]
    exact fun _ => offersDeclaration_of_mem_groupItems short
  · have here := context_of_mem_items member known (by rw [property]; decide)
    rw [items, if_neg inside, here] at member
    obtain ⟨k, st, offers⟩ | ⟨_, a, value, -⟩ := mem_settingItems_cases short member
    · exact acceptsSetting on here offers
    · cases value.symm.trans property

/-- A key without its `=`, between two other properties. -/
theorem accepted_offers_method :
    let s : Text := "[Proxy]\na = shadowsocks, h, 1, password=p, enc , interface=lo # b".toList
    let c : Cursor := ⟨.parse s, ⟨2, 39⟩⟩
    ∃ item ∈ c.items true, item.newText = "encrypt-method=" ∧ item.range = ⟨⟨2, 36⟩, ⟨2, 39⟩⟩ ∧
      c.SoundOffer s .proxy Protocol.rules (c.items true) item := by
  intro s c
  have offered : ∃ item ∈ c.items true, item.newText = "encrypt-method=" ∧
      item.range = ⟨⟨2, 36⟩, ⟨2, 39⟩⟩ := by decide +kernel
  obtain ⟨item, member, text, range⟩ := offered
  have known : c.doc.kindAt? 2 = some .proxy := by decide +kernel
  have sound := accepted_offers s ⟨2, 39⟩ true (by decide) (by decide +kernel) (by decide +kernel)
    item member
  exact ⟨item, member, text, range, sound.1 known⟩

end Cursor

end ProxyConfig
