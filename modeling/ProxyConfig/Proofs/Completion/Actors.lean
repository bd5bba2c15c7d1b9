import ProxyConfig.Proofs.Actor.ReadBack
import ProxyConfig.Proofs.Completion.Accept

/-! # Accepting an actor

An accepted actor is a member or the last resort of a group, or the target of a rule. Its declaration
is on another line, so it is still there, and the name is read back where it was put. That takes a name
which can stand between commas: the empty name, which a line without a key declares, and names with a
comma are offered too, but no reference has such a name.
-/

namespace ProxyConfig

open Text

/-! ## The names that are offered -/

/-- An offered actor is a declaration of the document. -/
theorem CompletionItem.exists_declaration {item : CompletionItem} {doc : Document} {range : Range}
    {excluded : Option Text} (member : item ∈ actors doc range excluded) :
    ∃ d ∈ doc.actors.declarations, item.label.toList = d.name ∧ item.newText = item.label ∧
      item.range = range ∧ some d.name ≠ excluded := by
  obtain ⟨d, listed, rfl⟩ := List.mem_map.mp member
  obtain ⟨name, kept, found⟩ := List.mem_filterMap.mp listed
  obtain ⟨-, other⟩ := List.mem_filter.mp kept
  have same : d.name = name := eq_of_beq (List.find?_some found :)
  refine ⟨d, List.mem_of_find?_eq_some found, String.toList_ofList, rfl, rfl, ?_⟩
  rw [same]
  simpa using other

namespace Document

variable {doc : Document} {p : Position} {x : NameSite} {d : Declaration} {s : Text}

/-- A declared name is a word unless it is empty or has a comma. -/
theorem isWord_of_declared (declared : d ∈ (parse s).actors.declarations) (solid : d.name ≠ [])
    (single : ',' ∉ d.name) : IsWord d.name := by
  have named := isName_of_declared (List.mem_map_of_mem declared) solid
  have site : d.site ∈ ((parse s).sites d.name true).filter fun x => x.role.isDeclaration := by
    rw [(filter_sites_perm (parse s) named).mem_iff]
    exact List.mem_map_of_mem (List.mem_filter.mpr ⟨declared, beq_self_eq_true d.name⟩)
  exact isWord_of_mem_sites (List.mem_filter.mp site).1 single

/-- The cursor at the position is on a reference with the name, and the name is declared. -/
def ResolvesAt (doc : Document) (p : Position) (name : Text) : Prop :=
  ∃ x, doc.siteAt? p = some x ∧ x.name = name ∧ x.role.isDeclaration = false ∧
    (doc.declaration? name).isSome = true

/-- A reference has a name, and no comma cuts it. -/
theorem single_of_siteAt? (found : doc.siteAt? p = some x)
    (reference : x.role.isDeclaration = false) : x.name ≠ [] ∧ ',' ∉ x.name := by
  rcases reference_cases_of_siteAt? found reference with ⟨-, e, -, here⟩ | ⟨-, here⟩
  · obtain ⟨argument, inside, a, role, refers, solid, -, rfl⟩ :=
      Entry.referenceSiteAt?_eq_some_iff.mp here
    obtain ⟨before, after, split, -⟩ := refers.standsIn
    have single := Pieces.not_mem_of_mem_read (List.mem_cons_of_mem _ inside)
    rw [split] at single
    simp only [List.mem_append, not_or] at single
    exact ⟨solid, single.2.1⟩
  · obtain ⟨target, named, solid, -, rfl⟩ := NumberedLine.targetSiteAt?_eq_some_iff.mp here
    obtain ⟨i, -, piece⟩ := mem_of_ruleTarget? named
    exact ⟨solid, Pieces.not_mem_of_mem_read (List.mem_of_getElem? piece)⟩

/-- A reference of a group is found by a cursor that touches it. -/
theorem siteAt?_of_refers {e : Entry} (here : e ∈ doc.entries .proxyGroup) {argument a : Span}
    {role : NameRole} (inside : argument ∈ e.arguments.others) (refers : e.Refers argument a role)
    (solid : a.text ≠ []) {column : Nat} (touches : a.touches column = true) :
    doc.siteAt? ⟨e.line, column⟩ = some (a.site e.line role) := by
  obtain ⟨l, listed, read⟩ := List.mem_filterMap.mp here
  have number : e.line = l.number := Entry.line_of_parse? read
  rw [siteAt?_eq, kindAt?_of_mem_entries here]
  refine NumberedLine.siteAt?_of_referenceSiteAt? (e := e) ?_
    (Entry.referenceSiteAt?_eq_some_iff.mpr
      ⟨argument, inside, a, role, refers, solid, touches, rfl⟩)
  change Entry.ofLine? e.line (doc.line e.line) = some e
  rw [number, (of_mem_linesOf listed).2.1]
  exact read

end Document

/-! ## The edited line -/

namespace Cursor

variable {c : Cursor} {doc : Document} {item : CompletionItem} {kind : SectionKind} {s content : Text}
  {base key word : Text} {d : Declaration}

/-- What is declared on another line stays declared. -/
theorem Edited.isSome_declaration? (edited : c.Edited doc content)
    (declared : d ∈ c.doc.actors.declarations) (other : d.entry.line ≠ c.line) :
    (doc.declaration? d.name).isSome = true := by
  have kept := (edited.elsewhere _ _ other).mpr (Document.mem_actors_iff_mem_entries.mp declared)
  exact Document.isSome_declaration?_iff.mpr
    (List.mem_map_of_mem (Document.mem_actors_iff_mem_entries.mpr kept))

/-- A word that is put in a range of the line is a reference where the range starts. -/
structure ReadsReference (c : Cursor) (s : Text) (range : Range) (word : Text) : Prop where
  edited : ∃ content, c.Edited (.parse (s.edit range word)) content
  site : ∃ x, (Document.parse (s.edit range word)).siteAt? range.start = some x ∧ x.name = word ∧
    x.role.isDeclaration = false

/-- A word that is put in the place of a piece stands there alone. -/
theorem PieceAt.exists_piece (on : c.OnBody s) (here : c.context = .body kind) (a : c.PieceAt base)
    (solid : a.front.allBlank = false) (isWord : IsWord word) :
    ∃ piece, ',' ∉ piece ∧
      c.Edited (.parse (s.edit a.stretch.range word)) (a.front ++ (piece ++ a.back)) ∧
      Span.trimmed (a.front.length + 1) piece = ⟨word, a.stretch.range.start.column⟩ := by
  obtain ⟨lead, old, trail, replaces⟩ := a.stretch.exists_replaces
  have real : 0 < c.column := by
    have starts : a.front.length ≤ c.column - 1 := a.stretch.starts
    have long : 0 < a.front.length := List.length_pos_of_ne_nil fun void => by
      rw [void] at solid
      cases solid
    omega
  have whole : a.piece = lead ++ (old ++ trail) := replaces.split
  have single : ',' ∉ lead ++ (word ++ trail) := by
    have clean := a.comma_not_mem
    rw [whole] at clean
    simp only [List.mem_append, not_or] at clean ⊢
    exact ⟨clean.1, isWord.single, clean.2.2⟩
  have edited := a.stretch.edited on replaces isWord.fitsLine isWord.unmarked fun rest =>
    a.stretch.headerName?_eq_none here solid _
  have content : a.front ++ (lead ++ (word ++ (trail ++ a.back))) =
      a.front ++ ((lead ++ (word ++ trail)) ++ a.back) := by simp
  exact ⟨lead ++ (word ++ trail), single, content ▸ edited,
    replaces.trimmed_eq real isWord replaces.trailing⟩

/-- The stretch of a piece without an `=` is the piece. -/
theorem PieceAt.KeySlot.eq_stretch {a : c.PieceAt base} {st : c.Stretch} (slot : a.KeySlot st false) :
    st = a.stretch := by
  obtain ⟨front, -, rest, piece, back, ends⟩ := slot
  obtain rfl : rest = [] := ends
  rw [List.append_nil] at piece
  obtain ⟨_, _, _, _, _, _⟩ := st
  cases front
  cases piece
  cases back
  rfl

/-- A word that is put in the place of an argument is read as that argument. -/
theorem PieceAt.exists_argument (on : c.OnBody s) (here : c.context = .body kind)
    (a : c.PieceAt (key ++ ['='])) (keyed : '=' ∉ key) (behind : a.earlier.length ≠ 0)
    (isWord : IsWord word) :
    (∃ content, c.Edited (.parse (s.edit a.stretch.range word)) content) ∧
    ∃ e ∈ (Document.parse (s.edit a.stretch.range word)).entries kind, e.line = c.line ∧
      e.arguments.piece? a.earlier.length = some ⟨word, a.stretch.range.start.column⟩ := by
  obtain ⟨piece, single, edited, place⟩ := a.exists_piece on here a.front_solid isWord
  let c' : Cursor := ⟨.parse (s.edit a.stretch.range word), ⟨c.line, a.front.length + 1⟩⟩
  let a' : c'.PieceAt (key ++ ['=']) := a.withPiece piece edited.content rfl single
  have member : a'.entry ∈ (Document.parse (s.edit a.stretch.range word)).entries kind :=
    a.mem_entries_withPiece keyed (kindAt?_of_context here) edited single
  exact ⟨⟨_, edited⟩, a'.entry, member, rfl,
    (a'.piece?_arguments behind).trans (congrArg some place)⟩

/-! ## Members and last resorts -/

/-- The one property of a group that takes an actor is the last resort. -/
theorem lastResort_of_valueKind? {t : GroupType} {property : Entry}
    (known : t.valueKind? property = some .actor) :
    Keyword.parse? property.key.text = some GroupProperty.lastResort := by
  obtain ⟨k, accepted, actor⟩ := Option.map_eq_some_iff.mp known
  rw [(Option.filter_eq_some_iff.mp accepted).1]
  cases k <;> cases actor
  rfl

/-- A name that is put in the place of an actor of a group refers to the actor of that name. -/
theorem PieceAt.ActorSlot.readsReference (on : c.OnBody s) (here : c.context = .body .proxyGroup)
    {a : c.PieceAt (key ++ ['='])} (keyed : '=' ∉ key) (behind : a.earlier.length ≠ 0)
    {st : c.Stretch} {t : GroupType} (slot : a.ActorSlot t.valueKind? st) (isWord : IsWord word) :
    c.ReadsReference s st.range word := by
  obtain ⟨i, index⟩ := Nat.exists_eq_succ_of_ne_zero behind
  have position : st.range.start = ⟨c.line, st.range.start.column⟩ := by rw [← st.start_line]
  have touches : (Span.mk word st.range.start.column).touches st.range.start.column = true :=
    Span.touches_iff.mpr ⟨Nat.le_refl _, Nat.le_add_right _ _⟩
  cases slot with
  | member slot =>
    obtain rfl := slot.eq_stretch
    obtain ⟨edited, e, member, line, piece⟩ := a.exists_argument on here keyed behind isWord
    rw [index] at piece
    refine ⟨edited, Span.site ⟨word, a.stretch.range.start.column⟩ e.line .member, ?_, rfl, rfl⟩
    have plain : (Span.mk word a.stretch.range.start.column).property? e.line = none :=
      Span.property?_of_isPlain (by simpa [Span.isPlain] using isWord.keyless)
    rw [position, ← line]
    exact Document.siteAt?_of_refers member (List.mem_of_getElem? (i := i) piece) (.member plain)
      isWord.solid touches
  | value name old slot known =>
    obtain ⟨edited, e, member, line, -, w, q, property, text, value⟩ :=
      slot.exists_propertyAt on here keyed behind isWord
    have resort : q.lastResort? = some q.value := by
      rw [Entry.lastResort?, text, lastResort_of_valueKind? known, if_pos rfl]
    have piece := property.argument
    rw [index] at piece
    refine ⟨edited, q.value.site e.line .lastResort, ?_, congrArg Span.text value, rfl⟩
    rw [position, ← line]
    exact Document.siteAt?_of_refers member (List.mem_of_getElem? (i := i) piece)
      (.lastResort property.read resort) (value ▸ isWord.solid) (value ▸ touches)

/-! ## Targets -/

/-- The pieces of the content of a rule. -/
theorem PieceAt.map_text_content (a : c.PieceAt []) :
    (Pieces.read 1 c.content).toList.map (·.text) = (a.earlier ++ a.piece :: a.later).map trim := by
  have text : c.content = a.text := a.split
  rw [text, Pieces.toList_read, Pieces.map_text_place, a.pieces_text]

/-- Behind the first piece, the type of a rule is what it is there. -/
theorem PieceAt.first_text_content (a : c.PieceAt []) (behind : a.earlier.length ≠ 0) :
    some (Pieces.read 1 c.content).first.text = (a.earlier.map trim).head? := by
  have texts := congrArg List.head? a.map_text_content
  rw [List.map_append, List.head?_append_of_ne_nil _ (by simpa using behind)] at texts
  exact texts

/-- A name that is put in the place of the target of a rule is the target. -/
theorem PieceAt.readsReference (on : c.OnBody s) (here : c.context = .body .rule) (a : c.PieceAt [])
    {rule : RuleType} (known : Keyword.parse? (Pieces.read 1 c.content).first.text = some rule)
    (index : a.earlier.length = rule.targetIndex) (isWord : IsWord word) :
    c.ReadsReference s a.stretch.range word := by
  have behind : a.earlier.length ≠ 0 := by
    rw [index]
    cases rule <;> decide
  have comma : ',' ∈ a.front := by
    obtain ⟨t, inside⟩ := List.exists_mem_of_length_pos (Nat.pos_of_ne_zero behind)
    exact List.mem_append_right _ (List.mem_flatMap.mpr ⟨t, inside, by simp⟩)
  obtain ⟨piece, single, edited, place⟩ :=
    a.exists_piece on here (allBlank_of_mem comma (by decide)) isWord
  let c' : Cursor := ⟨.parse (s.edit a.stretch.range word), ⟨c.line, a.front.length + 1⟩⟩
  let a' : c'.PieceAt [] := a.withPiece piece edited.content rfl single
  let l' : NumberedLine := ⟨c.line, c'.doc.line c.line⟩
  have type := (a'.first_text_content behind).trans (a.first_text_content behind).symm
  have known' : Keyword.parse? l'.pieces.first.text = some rule :=
    (congrArg Keyword.parse? (Option.some.inj type)).trans known
  have target : ruleTarget? l'.pieces = some ⟨word, a.stretch.range.start.column⟩ := by
    rw [ruleTarget?_of_parse? known', ← index, ← place]
    exact a'.piece?_content
  refine ⟨⟨_, edited⟩, Span.site ⟨word, a.stretch.range.start.column⟩ c.line .ruleTarget, ?_, rfl, rfl⟩
  have aimed : l'.siteAt? (some .rule) a.stretch.range.start.column =
      some (Span.site ⟨word, a.stretch.range.start.column⟩ c.line .ruleTarget) :=
    NumberedLine.targetSiteAt?_eq_some_iff.mpr ⟨_, target, isWord.solid,
      Span.touches_iff.mpr ⟨Nat.le_refl _, Nat.le_add_right _ _⟩, rfl⟩
  rw [Document.siteAt?_eq, a.stretch.start_line, edited.kindAt?, kindAt?_of_context here]
  exact aimed

/-! ## All offers -/

/-- The actors that are offered to a group are declared on other lines. -/
theorem line_ne_of_group (known : c.doc.kindAt? c.line = some .proxyGroup)
    (body : headerName? c.lineText = none) {e : Entry} (read : c.entry? = some e)
    (declared : d ∈ c.doc.actors.declarations) (other : some d.name ≠ some e.key.text) :
    d.entry.line ≠ c.line := by
  intro same
  have here := Document.mem_actors_iff_mem_entries.mp declared
  have there : e ∈ c.doc.entries .proxyGroup := mem_entries_of_entry? known body read
  have kinds := Document.kindAt?_of_mem_entries here
  rw [same, known] at kinds
  rw [← Option.some.inj kinds] at here
  have line : e.line = c.line := Entry.line_of_parse? read
  rw [← Document.eq_of_mem_entries here there (same.trans line.symm)] at other
  exact other rfl

/-- No actor is declared on the line of a rule. -/
theorem line_ne_of_rule (known : c.doc.kindAt? c.line = some .rule)
    (declared : d ∈ c.doc.actors.declarations) : d.entry.line ≠ c.line := by
  intro same
  have here := Document.mem_actors_iff_mem_entries.mp declared
  have kinds := Document.kindAt?_of_mem_entries here
  rw [same, known] at kinds
  cases kind : d.kind <;> rw [kind] at kinds <;> cases kinds

/-- An offered name that is declared on another line resolves where it is put, if every word that is
put there is a reference. -/
theorem resolvesAt_of_offered (on : c.OnBody s) {range : Range} {excluded : Option Text}
    (offered : item ∈ CompletionItem.actors c.doc range excluded) (solid : item.label.toList ≠ [])
    (single : ',' ∉ item.label.toList)
    (elsewhere : ∀ d ∈ c.doc.actors.declarations, some d.name ≠ excluded → d.entry.line ≠ c.line)
    (put : ∀ word, IsWord word → c.ReadsReference s range word) :
    (Document.parse (s.edit item.range item.newText.toList)).ResolvesAt item.range.start
      item.label.toList := by
  obtain ⟨d, declared, label, text, place, other⟩ := CompletionItem.exists_declaration offered
  rw [text, label, place]
  rw [label] at solid single
  have isWord := Document.isWord_of_declared (on.doc ▸ declared) solid single
  obtain ⟨⟨content, edited⟩, x, found, name, reference⟩ := put d.name isWord
  exact ⟨x, found, name, reference,
    edited.isSome_declaration? declared (elsewhere d declared other)⟩

/-- An actor that is offered in a group resolves when the offer is accepted. -/
theorem resolvesAt_of_mem_groupItems (on : c.OnBody s) (here : c.context = .body .proxyGroup)
    (short : c.column - 1 ≤ c.content.length) {snippets : Bool} (member : item ∈ c.groupItems snippets)
    (reference : item.kind = .reference) (solid : item.label.toList ≠ [])
    (single : ',' ∉ item.label.toList) :
    (Document.parse (s.edit item.range item.newText.toList)).ResolvesAt item.range.start
      item.label.toList := by
  cases offersDeclaration_of_mem_groupItems short member with
  | type _ _ kind =>
    rw [reference] at kind
    rcases kind with kind | kind <;> cases kind
  | argument _ a keyed _ behind t _ offers =>
    cases offers with
    | key _ _ _ offered =>
      obtain ⟨k, -, -, offers⟩ := CompletionItem.exists_offersKey offered
      cases reference.symm.trans offers.kind
    | value _ _ _ _ _ _ offered =>
      obtain ⟨word, -, offers⟩ := CompletionItem.exists_offersWord offered
      cases reference.symm.trans offers.kind
    | actor st slot offered =>
      exact resolvesAt_of_offered on offered solid single
        (fun d declared other =>
          line_ne_of_group (kindAt?_of_context here) on.body (a.entry?_eq keyed) declared other)
        fun word isWord => slot.readsReference on here keyed behind isWord

/-- An actor that is offered on a rule resolves when the offer is accepted. -/
theorem resolvesAt_of_mem_ruleItems (on : c.OnBody s) (here : c.context = .body .rule)
    (short : c.column - 1 ≤ c.content.length) (member : item ∈ c.ruleItems)
    (reference : item.kind = .reference) (solid : item.label.toList ≠ [])
    (single : ',' ∉ item.label.toList) :
    (Document.parse (s.edit item.range item.newText.toList)).ResolvesAt item.range.start
      item.label.toList := by
  cases offersRule_of_mem_ruleItems short member with
  | type _ kind => cases reference.symm.trans kind
  | matcher _ kind => cases reference.symm.trans kind
  | target a rule known index offered =>
    exact resolvesAt_of_offered on offered solid single
      (fun d declared _ => line_ne_of_rule (kindAt?_of_context here) declared)
      fun word isWord => a.readsReference on here known index isWord

/-- When an actor that is offered to a group or a rule is accepted, the name stands where it was put
and resolves exactly if it is not empty and has no comma. -/
theorem accepted_actors (s : Text) (p : Position) (snippets : Bool) (first : 1 ≤ p.line)
    (last : p.line ≤ (Document.parse s).lineCount)
    (body : headerName? ((Document.parse s).line p.line) = none)
    (kind : (Document.parse s).kindAt? p.line = some .proxyGroup ∨
      (Document.parse s).kindAt? p.line = some .rule) :
    let c : Cursor := ⟨.parse s, p⟩
    ∀ item ∈ c.items snippets, item.kind = .reference →
      ((Document.parse (s.edit item.range item.newText.toList)).ResolvesAt item.range.start
        item.label.toList ↔ item.label.toList ≠ [] ∧ ',' ∉ item.label.toList) := by
  intro c item member reference
  constructor
  · rintro ⟨x, found, name, role, -⟩
    rw [← name]
    exact Document.single_of_siteAt? found role
  · rintro ⟨solid, single⟩
    have on : c.OnBody s := ⟨rfl, first, last, body⟩
    have short := short_of_mem_items member
    have inside := not_lt_of_mem_items member
    have other : item.kind ≠ .header := by
      rw [reference]
      decide
    rcases kind with group | rule
    · have here := context_of_mem_items member group other
      rw [items, if_neg inside, here] at member
      exact resolvesAt_of_mem_groupItems on here short member reference solid single
    · have here := context_of_mem_items member rule other
      rw [items, if_neg inside, here] at member
      exact resolvesAt_of_mem_ruleItems on here short member reference solid single

/-- A group as the last resort of another one, in front of a comment. -/
theorem accepted_actors_last_resort :
    let s : Text := ("[Proxy]\na = direct\n[Proxy Group]\ng = static, a\n" ++
      "h = failover, a, last-resort=b # c").toList
    let c : Cursor := ⟨.parse s, ⟨5, 31⟩⟩
    ∃ item ∈ c.items true, item.label = "g" ∧ item.range = ⟨⟨5, 30⟩, ⟨5, 31⟩⟩ ∧
      (Document.parse (s.edit item.range item.newText.toList)).ResolvesAt ⟨5, 30⟩ "g".toList := by
  intro s c
  have offered : ∃ item ∈ c.items true, item.label = "g" ∧ item.kind = .reference ∧
      item.range = ⟨⟨5, 30⟩, ⟨5, 31⟩⟩ := by decide +kernel
  obtain ⟨item, member, label, reference, range⟩ := offered
  have accepted := (accepted_actors s ⟨5, 31⟩ true (by decide) (by decide +kernel) (by decide +kernel)
    (.inl (by decide +kernel)) item member reference).mpr (by rw [label]; decide)
  rw [range, label] at accepted
  exact ⟨item, member, label, range, range ▸ accepted⟩

/-- A name with a comma is offered, and the rule that accepts it has another target. -/
theorem offered_actor_cut :
    ¬ ∀ (s : Text) (p : Position) (snippets : Bool), 1 ≤ p.line →
      p.line ≤ (Document.parse s).lineCount → headerName? ((Document.parse s).line p.line) = none →
      ((Document.parse s).kindAt? p.line = some .proxyGroup ∨
        (Document.parse s).kindAt? p.line = some .rule) →
      ∀ item ∈ Cursor.items ⟨.parse s, p⟩ snippets, item.kind = .reference →
        (Document.parse (s.edit item.range item.newText.toList)).ResolvesAt item.range.start
          item.label.toList := by
  intro holds
  let s : Text := "[Proxy]\na,b = direct\n[Rule]\nFINAL, ".toList
  have offered : ∃ item ∈ Cursor.items ⟨.parse s, ⟨4, 8⟩⟩ true, item.label = "a,b" ∧
      item.kind = .reference := by decide +kernel
  obtain ⟨item, member, label, reference⟩ := offered
  obtain ⟨x, found, name, role, -⟩ := holds s ⟨4, 8⟩ true (by decide) (by decide +kernel)
    (by decide +kernel) (.inr (by decide +kernel)) item member reference
  have single := (Document.single_of_siteAt? found role).2
  rw [name, label] at single
  exact single (by decide)

end Cursor

end ProxyConfig
