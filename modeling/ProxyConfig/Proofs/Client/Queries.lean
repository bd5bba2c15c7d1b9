import ProxyConfig.Navigation
import ProxyConfig.Proofs.Actor.Rename
import ProxyConfig.Proofs.Completion.Ranges
import ProxyConfig.Proofs.CursorLine
import ProxyConfig.Proofs.Outline

/-! # Queries in both encodings

A client that counts UTF-16 units gets the answers of one that counts characters, with every range
encoded again. The ranges of an answer lie on the line of the cursor or on lines of the document, so
it does not matter whether they are encoded at once or in two steps.
-/

namespace ProxyConfig

open Range

/-- The same place with another range. -/
def Location.map (f : ClientRange → ClientRange) (place : Location) : Location :=
  ⟨place.uri, f place.range⟩

/-- The same text at another range. -/
def TextEdit.map (f : ClientRange → ClientRange) (edit : TextEdit) : TextEdit :=
  ⟨f edit.range, edit.newText⟩

/-- The same rename at other ranges. -/
def ClientRename.map (f : ClientRange → ClientRange) (rename : ClientRename) : ClientRename :=
  ⟨rename.oldName, rename.newName, rename.edits.map (TextEdit.map f)⟩

namespace Document

variable {doc : Document}

theorem liesIn_of_mem_entries {kind : SectionKind} {e : Entry} (member : e ∈ doc.entries kind) :
    e.keyRange.LiesIn doc.lineCount := by
  obtain ⟨l, listed, read⟩ := List.mem_filterMap.mp member
  obtain ⟨s, here, inside⟩ := List.mem_flatMap.mp listed
  obtain ⟨positive, upTo⟩ := number_of_mem_body (List.mem_filter.mp here).1 inside
  rw [← Entry.line_of_parse? read] at positive upTo
  exact e.liesOn_keyRange.liesIn positive upTo

/-- A declared name stands in the document. -/
theorem liesIn_declaration? {name : Text} {d : Declaration} (found : doc.declaration? name = some d) :
    d.nameRange.LiesIn doc.lineCount := by
  have declared (kind : ActorKind) (member : d ∈ doc.declarations kind) :
      d.nameRange.LiesIn doc.lineCount := by
    obtain ⟨e, inside, rfl⟩ := List.mem_map.mp member
    exact liesIn_of_mem_entries inside
  rcases Option.or_eq_some_iff.mp found with found | ⟨-, found⟩
  · exact declared _ (List.mem_of_find?_eq_some found)
  · exact declared _ (List.mem_of_find?_eq_some found)

/-- The sites of a name stand in the document. -/
theorem liesIn_of_mem_sites {name : Text} {declarations : Bool} {x : NameSite}
    (member : x ∈ doc.sites name declarations) : x.range.LiesIn doc.lineCount := by
  obtain ⟨s, here, l, inside, found⟩ := (mem_sites_iff (isName_of_mem_sites member)).mp member
  obtain ⟨positive, upTo⟩ := number_of_mem_body here inside
  exact (NumberedLine.liesOn_of_mem_sites found).liesIn positive upTo

/-- A rename replaces ranges of the document. -/
theorem liesIn_of_planRename {p : Position} {newName : Text} {plan : RenamePlan}
    (planned : doc.planRename p newName = .ok plan) : ∀ r ∈ plan.ranges, r.LiesIn doc.lineCount := by
  obtain ⟨-, site, -, -, rfl⟩ := planRename_eq_ok_iff.mp planned
  intro r member
  obtain ⟨x, inside, rfl⟩ := List.mem_map.mp member
  exact liesIn_of_mem_sites inside

end Document

namespace ClientView

/-- The document as a client sees it that counts characters. -/
def scalar (view : ClientView) : ClientView := ⟨view.doc, .utf32⟩

variable (view : ClientView) {p : Position} {here there : ClientPosition}

theorem reencode_scalar {r : Range} (inside : r.LiesIn UInt32.size) :
    view.reencode (view.scalar.clientRange r) = view.clientRange r :=
  view.reencode_clientRange_utf32 inside

theorem position_scalar_clientPosition (first : 1 ≤ p.line) (lineFits : p.line ≤ UInt32.size)
    (column : 1 ≤ p.column) (fits : view.unitsBefore p.line p.column < UInt32.size) :
    view.scalar.position (view.scalar.clientPosition p) = p := by
  refine view.scalar.position_clientPosition first lineFits column ?_
  have characters := view.encoding.le_offset (view.doc.line p.line) (p.column - 1)
  rw [unitsBefore] at fits ⊢
  change Encoding.utf32.offset _ _ < _
  rw [Encoding.offset_utf32]
  omega

/-- The offers reach the client in two steps, which come to the same as one. -/
theorem clientCompletions_eq (first : 1 ≤ (view.position here).line)
    (fits : (view.position here).line ≤ UInt32.size) (snippets : Bool) :
    view.clientCompletions here snippets =
      (view.completions here snippets).map (CompletionItem.map view.clientRange) := by
  refine List.map_congr_left fun item member => ?_
  have inside := (Cursor.inContent_of_mem_items member).lines.liesIn first fits
  exact congrArg (fun range => { item with range := range }) (view.encoded_toClient inside)

section Cursor

variable (at? : view.position here = p) (at?' : view.scalar.position there = p)
  (first : 1 ≤ p.line) (fits : p.line ≤ UInt32.size)

include at? at?' first fits

theorem hover?_reencoded :
    view.hover? here = (view.scalar.hover? there).map (Hover.map view.reencode) := by
  rw [hover?, hover?, at?, at?', Option.map_map]
  refine Option.map_congr fun hover found => ?_
  have inside := (Document.liesOn_hoverAt? found).liesIn first fits
  exact congrArg (Hover.mk hover.content) (view.reencode_scalar inside).symm

theorem prepareRename?_reencoded :
    view.prepareRename? here =
      (view.scalar.prepareRename? there).map (Prod.map view.reencode id) := by
  rw [prepareRename?, prepareRename?, siteAt?, siteAt?, at?, at?', Option.map_map]
  refine Option.map_congr fun site found => ?_
  have inside := (Document.liesOn_siteAt? found).liesIn first fits
  exact congrArg (·, site.name) (view.reencode_scalar inside).symm

theorem clientCompletions_reencoded (snippets : Bool) :
    view.clientCompletions here snippets =
      (view.scalar.clientCompletions there snippets).map (CompletionItem.map view.reencode) := by
  rw [view.clientCompletions_eq (at? ▸ first) (at? ▸ fits),
    view.scalar.clientCompletions_eq (at?' ▸ first) (at?' ▸ fits), List.map_map, completions,
    completions, at?, at?']
  refine List.map_congr_left fun item member => ?_
  have inside := (Cursor.inContent_of_mem_items member).lines.liesIn first fits
  exact congrArg (fun range => { item with range := range }) (view.reencode_scalar inside).symm

end Cursor

section Lines

variable (fits : view.doc.lineCount ≤ UInt32.size)

include fits

/-- The outline reaches the client in two steps, which come to the same as one. -/
theorem symbols_eq : view.symbols = Symbol.mapAll view.clientRange view.doc.outline := by
  rw [symbols, clientSymbols, Symbol.mapAll_mapAll]
  refine Symbol.mapAll_congr (fun r inside => ?_) _ view.doc.forall_outline
  exact view.encoded_toClient (inside.mono fits)

theorem symbols_reencoded : view.symbols = Symbol.mapAll view.reencode view.scalar.symbols := by
  rw [view.symbols_eq fits, view.scalar.symbols_eq fits, Symbol.mapAll_mapAll]
  refine Symbol.mapAll_congr (fun r inside => ?_) _ view.doc.forall_outline
  exact (view.reencode_scalar (inside.mono fits)).symm

variable (at? : view.position here = p) (at?' : view.scalar.position there = p)

include at? at?'

theorem definition?_reencoded (uri : Uri) :
    view.definition? uri here =
      (view.scalar.definition? uri there).map (Location.map view.reencode) := by
  rw [definition?, definition?, siteAt?, siteAt?, at?, at?']
  change _ = Option.map _ ((view.doc.siteAt? p).bind fun site =>
    (view.doc.declaration? site.name).bind _)
  cases view.doc.siteAt? p with
  | none => rfl
  | some site =>
    rw [Option.bind_some]
    cases found : view.doc.declaration? site.name with
    | none => simp [found]
    | some d =>
      have inside := (Document.liesIn_declaration? found).mono fits
      simp [found, Location.map, view.reencode_scalar inside]

theorem references_reencoded (uri : Uri) (declarations : Bool) :
    view.references uri here declarations =
      (view.scalar.references uri there declarations).map (Location.map view.reencode) := by
  have same : view.scalar.doc = view.doc := rfl
  rw [references, references, siteAt?, siteAt?, at?, at?', same]
  cases view.doc.siteAt? p with
  | none => rfl
  | some site =>
    dsimp only
    rw [List.map_map]
    refine List.map_congr_left fun x member => ?_
    have inside := (Document.liesIn_of_mem_sites member).mono fits
    exact congrArg (Location.mk uri) (view.reencode_scalar inside).symm

theorem rename_reencoded (newName : Text) :
    view.rename here newName =
      (view.scalar.rename there newName).map (ClientRename.map view.reencode) := by
  rw [rename, rename, at?, at?']
  change _ = Except.map _ (Except.map _ (view.doc.planRename p newName))
  cases planned : view.doc.planRename p newName with
  | error refusal => rfl
  | ok plan =>
    refine congrArg (fun edits => Except.ok (ClientRename.mk plan.oldName plan.newName edits)) ?_
    rw [List.map_map]
    refine List.map_congr_left fun r member => ?_
    have inside := (Document.liesIn_of_planRename planned r member).mono fits
    exact congrArg (TextEdit.mk · (String.ofList plan.newName)) (view.reencode_scalar inside).symm

end Lines

/-- The answers at a position under an encoding are those to a client that counts characters, with
every range encoded again. The offers and the outline, which are encoded in two steps, have the ranges
that are encoded at once. -/
theorem queries_reencoded (view : ClientView) (p : Position) (first : 1 ≤ p.line)
    (lineFits : p.line ≤ UInt32.size) (column : 1 ≤ p.column)
    (fits : view.unitsBefore p.line p.column < UInt32.size) :
    let here := view.clientPosition p
    let there := view.scalar.clientPosition p
    view.hover? here = (view.scalar.hover? there).map (Hover.map view.reencode) ∧
    (∀ snippets,
      view.clientCompletions here snippets =
        (view.scalar.clientCompletions there snippets).map (CompletionItem.map view.reencode) ∧
      view.clientCompletions here snippets =
        (view.completions here snippets).map (CompletionItem.map view.clientRange)) ∧
    view.prepareRename? here =
      (view.scalar.prepareRename? there).map (Prod.map view.reencode id) ∧
    (view.doc.lineCount ≤ UInt32.size →
      (∀ uri, view.definition? uri here =
        (view.scalar.definition? uri there).map (Location.map view.reencode)) ∧
      (∀ uri declarations, view.references uri here declarations =
        (view.scalar.references uri there declarations).map (Location.map view.reencode)) ∧
      (∀ newName, view.rename here newName =
        (view.scalar.rename there newName).map (ClientRename.map view.reencode)) ∧
      view.symbols = Symbol.mapAll view.reencode view.scalar.symbols ∧
      view.symbols = Symbol.mapAll view.clientRange view.doc.outline) := by
  intro here there
  have at? : view.position here = p := view.position_clientPosition first lineFits column fits
  have at?' : view.scalar.position there = p :=
    view.position_scalar_clientPosition first lineFits column fits
  refine ⟨view.hover?_reencoded at? at?' first lineFits, fun snippets => ⟨?_, ?_⟩,
    view.prepareRename?_reencoded at? at?' first lineFits, fun lines => ⟨?_, ?_, ?_, ?_, ?_⟩⟩
  · exact view.clientCompletions_reencoded at? at?' first lineFits snippets
  · exact view.clientCompletions_eq (at?.symm ▸ first) (at?.symm ▸ lineFits) snippets
  · exact fun uri => view.definition?_reencoded lines at? at?' uri
  · exact fun uri declarations => view.references_reencoded lines at? at?' uri declarations
  · exact fun newName => view.rename_reencoded lines at? at?' newName
  · exact view.symbols_reencoded lines
  · exact view.symbols_eq lines

/-- A cursor behind a target of one character outside the first plane. -/
theorem queries_reencoded_pair :
    let view : ClientView := ⟨.parse "[Proxy]\n😀 = direct\n[Rule]\nFINAL, 😀".toList, .utf16⟩
    (view.unitsBefore 4 9 < UInt32.size ∧ view.doc.lineCount ≤ UInt32.size) ∧
    view.prepareRename? (view.clientPosition ⟨4, 9⟩) =
      (view.scalar.prepareRename? (view.scalar.clientPosition ⟨4, 9⟩)).map
        (Prod.map view.reencode id) ∧
    view.scalar.prepareRename? (view.scalar.clientPosition ⟨4, 9⟩) =
      some (⟨⟨3, 7⟩, ⟨3, 8⟩⟩, "😀".toList) ∧
    view.reencode ⟨⟨3, 7⟩, ⟨3, 8⟩⟩ = ⟨⟨3, 7⟩, ⟨3, 9⟩⟩ ∧
    view.symbols = Symbol.mapAll view.reencode view.scalar.symbols := by
  intro view
  have fits : view.unitsBefore 4 9 < UInt32.size := by decide +kernel
  have lines : view.doc.lineCount ≤ UInt32.size := by decide +kernel
  obtain ⟨-, -, prepared, rest⟩ :=
    view.queries_reencoded ⟨4, 9⟩ (by decide) (by decide) (by decide) fits
  obtain ⟨-, -, -, outline, -⟩ := rest lines
  exact ⟨⟨fits, lines⟩, prepared, by decide +kernel, by decide +kernel, outline⟩

end ClientView

end ProxyConfig
