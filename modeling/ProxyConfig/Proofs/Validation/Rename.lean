import ProxyConfig.Proofs.Actor.Rename
import ProxyConfig.Proofs.Validation.Lines
import ProxyConfig.Proofs.Validation.Renamed

/-! # Renaming leaves the verdicts as they are

The actor and rule lines of a renamed document are the renamed lines, and its declared names are the
declared names swapped. The headers, what stands before the first of them and the other sections are
the same. So every validator comes to the same verdicts.
-/

namespace ProxyConfig

open Text

variable {old new : Text}

section Lines

theorem Entry.Renamed.of_agrees {kind : ActorKind} {e e' f f' : Entry} (left : e.Agrees e')
    (right : f.Agrees f') (renamed : Entry.Renamed old new kind e' f') :
    Entry.Renamed old new kind e f := by
  refine ⟨?_, ?_, fun proxy => ?_, fun group => ?_, fun group => ?_⟩
  · rw [left.line, right.line, renamed.line]
  · rw [left.key.text_eq, right.key.text_eq, renamed.key]
  · rw [left.value, right.value, renamed.value proxy]
  · rw [arguments, arguments, left.value, right.value]
    exact renamed.type group
  · rw [arguments, arguments, left.value, right.value, left.line]
    exact renamed.others group

theorem Entry.Renamed.rel_of_agrees {kind : ActorKind} {read found read' found' : Option Entry}
    (before : Option.Rel Entry.Agrees read found) (after : Option.Rel Entry.Agrees read' found')
    (renamed : Option.Rel (Entry.Renamed old new kind) found found') :
    Option.Rel (Entry.Renamed old new kind) read read' := by
  cases renamed with
  | none =>
    cases before
    cases after
    exact .none
  | some same =>
    cases before with
    | some left =>
      cases after with
      | some right => exact .some (same.of_agrees left right)

/-- The entry that the validators read off a renamed line is renamed, too. -/
theorem NumberedLine.entry?_renamed (solid : old ≠ []) (word : IsWord new) (l : NumberedLine)
    (kind : ActorKind) (unused : l.sites (some kind.sectionKind) new true = []) :
    Option.Rel (Entry.Renamed old new kind) l.entry? <|
      entry? (l.renamed old new (some kind.sectionKind)) :=
  Entry.Renamed.rel_of_agrees l.entry?_agrees (entry?_agrees _) (l.rawEntry?_renamed solid word kind unused)

end Lines

namespace Document

variable {doc doc' : Document}

namespace Renamed

/-- The lines with content stay those with content. -/
theorem solidLines (renamed : Renamed old new doc doc') (able : doc.Renameable old new)
    (kind? : Option SectionKind) {sections : List Section}
    (here : ∀ s ∈ sections, s ∈ doc.sections ∧ s.kind? = kind?) :
    doc'.solidLines sections =
      (doc.solidLines sections).map (NumberedLine.renamed old new kind?) := by
  have bodies : sections.flatMap doc'.body =
      (sections.flatMap doc.body).map (NumberedLine.renamed old new kind?) := by
    rw [List.map_flatMap]
    refine List.flatMap_congr fun s member => ?_
    obtain ⟨listed, kind⟩ := here s member
    rw [renamed.body s listed, kind]
  have content (l : NumberedLine) :
      (l.renamed old new kind?).content.isEmpty = l.content.isEmpty := by
    rw [Bool.eq_iff_iff, NumberedLine.content_isEmpty_iff, NumberedLine.content_isEmpty_iff]
    change (renamedLine kind? old new l.text).uncommented.allBlank = true ↔ _
    rw [allBlank_uncommented_renamedLine able.named.1 able.safe.isWord]
  rw [Document.solidLines, Document.solidLines, bodies, List.filter_map]
  congr 1
  refine List.filter_congr fun l _ => ?_
  rw [Function.comp_apply, content]

theorem sectionsOf (renamed : Renamed old new doc doc') (kind : SectionKind) :
    doc'.sectionsOf kind = doc.sectionsOf kind := by
  rw [Document.sectionsOf, Document.sectionsOf, renamed.sections]

theorem solidLines_sectionsOf (renamed : Renamed old new doc doc') (able : doc.Renameable old new)
    (kind : SectionKind) :
    doc'.solidLines (doc'.sectionsOf kind) =
      (doc.solidLines (doc.sectionsOf kind)).map (NumberedLine.renamed old new (some kind)) := by
  rw [renamed.sectionsOf]
  refine renamed.solidLines able (some kind) fun s member => ?_
  obtain ⟨listed, same⟩ := List.mem_filter.mp member
  exact ⟨listed, eq_of_beq same⟩

/-- Sections that no names stand in keep their lines. -/
theorem solidLines_eq (renamed : Renamed old new doc doc') (able : doc.Renameable old new)
    {kind : SectionKind} (untouched : ∀ s, renamedLine (some kind) old new s = s) :
    doc'.solidLines (doc'.sectionsOf kind) = doc.solidLines (doc.sectionsOf kind) := by
  rw [renamed.solidLines_sectionsOf able]
  refine (List.map_congr_left fun l _ => ?_).trans (List.map_id _)
  rw [NumberedLine.renamed, untouched]
  rfl

theorem checkGeneral (renamed : Renamed old new doc doc') (able : doc.Renameable old new) :
    doc'.checkGeneral = doc.checkGeneral := by
  rw [Document.checkGeneral, Document.checkGeneral, renamed.solidLines_eq able fun _ => rfl]

theorem checkHosts (renamed : Renamed old new doc doc') (able : doc.Renameable old new) :
    doc'.checkHosts = doc.checkHosts := by
  rw [Document.checkHosts, Document.checkHosts, renamed.solidLines_eq able fun _ => rfl]

theorem checkEnv (renamed : Renamed old new doc doc') (able : doc.Renameable old new) :
    doc'.checkEnv = doc.checkEnv := by
  rw [Document.checkEnv, Document.checkEnv, renamed.solidLines_eq able fun _ => rfl]

/-- The lines that declare actors are renamed one by one. -/
theorem actorLines (renamed : Renamed old new doc doc') (able : doc.Renameable old new) :
    List.Forall₂ (ActorLine.Renamed old new) doc.actorLines doc'.actorLines := by
  rw [Document.actorLines, Document.actorLines, renamed.sections]
  refine List.forall₂_flatMap fun s here => ?_
  cases declares : s.actorKind? with
  | none => exact .nil
  | some kind =>
    have known := Section.actorKind?_eq_some_iff.mp declares
    have lines : doc'.solidLines [s] =
        (doc.solidLines [s]).map (NumberedLine.renamed old new s.kind?) := by
      refine renamed.solidLines able s.kind? fun t member => ?_
      rw [List.mem_singleton.mp member]
      exact ⟨here, rfl⟩
    dsimp only
    rw [lines, List.map_map, List.forall₂_map_left_iff, List.forall₂_map_right_iff]
    refine List.forall₂_same.mpr fun l member => ⟨rfl, ?_⟩
    obtain ⟨⟨t, among, inside⟩, -⟩ := mem_solidLines_iff.mp member
    rw [List.mem_singleton.mp among] at inside
    have unused := able.sites_line here inside
    rw [known] at unused
    have entries := l.entry?_renamed able.named.1 able.safe.isWord kind unused
    rw [Function.comp_apply, known, ActorLine.declaration?, ActorLine.declaration?]
    generalize l.entry? = e?, NumberedLine.entry? (l.renamed _ _ _) = f? at entries
    cases entries with
    | none => exact .none
    | some same => exact .some ⟨rfl, same⟩

/-- The declarations are renamed one by one. -/
theorem declared (renamed : Renamed old new doc doc') (able : doc.Renameable old new) :
    List.Forall₂ (Declaration.Renamed old new) (doc.actorLines.filterMap ActorLine.declaration?)
      (doc'.actorLines.filterMap ActorLine.declaration?) :=
  List.rel_filterMap (fun _ _ same => same.declaration) (renamed.actorLines able)

/-- A name is declared exactly if it was declared before the swap. -/
theorem contains_names (renamed : Renamed old new doc doc') (able : doc.Renameable old new) (t : Text) :
    ((doc'.actorLines.filterMap ActorLine.declaration?).map Declaration.name).contains
        (Equiv.swap old new t) =
      ((doc.actorLines.filterMap ActorLine.declaration?).map Declaration.name).contains t := by
  rw [map_name_renamed (renamed.declared able), Bool.eq_iff_iff, List.contains_iff_mem,
    List.contains_iff_mem, List.mem_map_of_injective (Equiv.injective _)]

theorem contains_actors (renamed : Renamed old new doc doc') (able : doc.Renameable old new) (t : Text) :
    doc'.actors.contains (Equiv.swap old new t) = doc.actors.contains t := by
  have names := renamed.contains_names able t
  rw [Bool.eq_iff_iff, List.contains_iff_mem, List.contains_iff_mem,
    (names_actorLines_perm doc).mem_iff, (names_actorLines_perm doc').mem_iff] at names
  rw [Bool.eq_iff_iff, Namespace.contains_iff, Namespace.contains_iff, names]

theorem checkActors (renamed : Renamed old new doc doc') (able : doc.Renameable old new) :
    verdicts doc'.checkActors = verdicts doc.checkActors := by
  have groups : List.Forall₂ (fun d d' => d.kind = .group ∧ Declaration.Renamed old new d d')
      ((doc.actorLines.filterMap ActorLine.declaration?).filter fun d => d.kind == .group)
      ((doc'.actorLines.filterMap ActorLine.declaration?).filter fun d => d.kind == .group) := by
    refine (List.forall₂_and_left _ _).mpr ⟨fun d member => ?_, ?_⟩
    · exact eq_of_beq (List.mem_filter.mp member).2
    · refine List.rel_filter (fun d d' same => ?_) (renamed.declared able)
      change (d.kind == .group) = true ↔ (d'.kind == .group) = true
      rw [same.kind]
  rw [Document.checkActors, Document.checkActors, verdicts_append, verdicts_append,
    verdicts_checkDeclarationsFrom (renamed.actorLines able) .nil]
  congr 1
  refine verdicts_flatMap groups fun d d' here => ?_
  have same := here.2.entry
  rw [here.1] at same
  exact verdicts_checkGroup able.named.1 able.safe.solid (renamed.contains_names able) same

/-- The rules are renamed one by one. -/
theorem ruleLines (renamed : Renamed old new doc doc') (able : doc.Renameable old new) :
    List.Forall₂ (NumberedLine.RuleRenamed old new) (doc.solidLines (doc.sectionsOf .rule))
      (doc'.solidLines (doc'.sectionsOf .rule)) := by
  rw [renamed.solidLines_sectionsOf able, List.forall₂_map_right_iff]
  refine List.forall₂_same.mpr fun l member => ⟨rfl, ?_⟩
  obtain ⟨⟨s, among, inside⟩, -⟩ := mem_solidLines_iff.mp member
  obtain ⟨here, rule⟩ := List.mem_filter.mp among
  have unused := able.sites_line here inside
  rw [eq_of_beq rule] at unused
  exact l.pieces_renamed able.named.1 able.safe.isWord unused

theorem checkRules (renamed : Renamed old new doc doc') (able : doc.Renameable old new) :
    verdicts doc'.checkRules = verdicts doc.checkRules := by
  have lines := renamed.ruleLines able
  have missing : doc'.missingFinalRange = doc.missingFinalRange := by
    rw [missingFinalRange, missingFinalRange, renamed.sectionsOf]
  have final := (lines.findSome? fun l l' same => same.final?).isSome_eq
  rw [Document.checkRules, Document.checkRules, verdicts_append, verdicts_append, missing, final,
    verdicts_checkRulesFrom (renamed.contains_actors able) lines .none]

/-- The lines outside of all bodies are the same. -/
theorem getElem?_lines (renamed : Renamed old new doc doc') {i : Nat}
    (outside : ∀ s ∈ doc.sections, ∀ l ∈ doc.body s, l.number ≠ i + 1) :
    doc'.lines[i]? = doc.lines[i]? := by
  have line := renamed.outside (i + 1) outside
  have lengths : doc'.lines.length = doc.lines.length := renamed.lineCount
  rw [Document.line, Document.line, List.getD_eq_getElem?_getD, List.getD_eq_getElem?_getD] at line
  by_cases inside : i < doc.lines.length
  · rw [List.getElem?_eq_getElem inside, List.getElem?_eq_getElem (lengths ▸ inside)] at line ⊢
    exact congrArg some line
  · rw [List.getElem?_eq_none (by omega), List.getElem?_eq_none (by omega)]

/-- What stands before the first header is the same. -/
theorem take_numbered (renamed : Renamed old new doc doc') {n : Nat}
    (before : ∀ s ∈ doc.sections, n ≤ s.startLine) :
    doc'.numbered.take n = doc.numbered.take n := by
  apply List.ext_getElem?
  intro i
  rw [List.getElem?_take, List.getElem?_take]
  split
  · have outside : ∀ s ∈ doc.sections, ∀ l ∈ doc.body s, l.number ≠ i + 1 := by
      intro s here l inside same
      have behind := (mem_body_iff.mp inside).1
      have upTo := before s here
      omega
    rw [numbered_getElem?, numbered_getElem?, renamed.getElem?_lines outside]
  · rfl

theorem strayContent (renamed : Renamed old new doc doc') : doc'.strayContent = doc.strayContent := by
  rw [Document.strayContent, Document.strayContent, renamed.sections, renamed.lineCount,
    renamed.take_numbered]
  intro s here
  have pairs := sections_pairwise doc
  cases sections : doc.sections with
  | nil =>
    rw [sections] at here
    cases here
  | cons first rest =>
    have order : first.startLine ≤ first.endLine := startLine_le_endLine (by rw [sections]; simp)
    rw [sections] at here pairs
    change first.startLine - 1 ≤ s.startLine
    rcases List.mem_cons.mp here with rfl | later
    · omega
    · have behind := (List.pairwise_cons.mp pairs).1 s later
      omega

theorem checkSections (renamed : Renamed old new doc doc') : doc'.checkSections = doc.checkSections := by
  have header : ∀ s ∈ doc.sections, doc'.trailingHeaderText s = doc.trailingHeaderText s := by
    intro s here
    rw [trailingHeaderText, trailingHeaderText, renamed.outside s.startLine fun t there l inside same => ?_]
    have body := headerName?_of_mem_body there inside
    rw [← line_number_of_mem_body inside, same, headerName?_startLine here] at body
    cases body
  have headers : ∀ (earlier rest : List Section), (∀ s ∈ rest, s ∈ doc.sections) →
      doc'.checkHeadersFrom earlier rest = doc.checkHeadersFrom earlier rest := by
    intro earlier rest listed
    induction rest generalizing earlier with
    | nil => rfl
    | cons s rest ih =>
      rw [checkHeadersFrom, checkHeadersFrom, header s (listed s (List.mem_cons_self ..)),
        ih _ fun t member => listed t (List.mem_cons_of_mem _ member)]
  rw [Document.checkSections, Document.checkSections, renamed.strayContent, renamed.sections,
    headers [] _ fun s member => member]

/-- Every validator comes to the same verdicts on the renamed document. -/
theorem run (renamed : Renamed old new doc doc') (able : doc.Renameable old new) (v : Validator) :
    verdicts (v.run doc') = verdicts (v.run doc) := by
  cases v with
  | sections => exact congrArg verdicts renamed.checkSections
  | general => exact congrArg verdicts (renamed.checkGeneral able)
  | hosts => exact congrArg verdicts (renamed.checkHosts able)
  | actors => exact renamed.checkActors able
  | rules => exact renamed.checkRules able
  | env => exact congrArg verdicts (renamed.checkEnv able)

end Renamed

/-- Renaming to a safe name that stands nowhere keeps the verdict of the validators: as many
diagnostics, and in order the same codes, severities, lines and related lines. -/
theorem rename_keeps_verdicts (s : Text) (p : Position) {new : Text} {plan : RenamePlan}
    (safe : IsSafeName new) (unused : (parse s).sites new true = [])
    (planned : (parse s).planRename p new = .ok plan) :
    (ProxyConfig.validate (plan.apply s)).map Diagnostic.verdict =
      (ProxyConfig.validate s).map Diagnostic.verdict := by
  have able := renameable_of_planRename safe unused planned
  have renamed := renamed_of_planRename safe unused planned
  have validators : List.Forall₂ (fun v w => w = v) Validator.all Validator.all :=
    List.forall₂_same.mpr fun _ _ => rfl
  exact verdicts_flatMap validators fun v w same => by rw [same, renamed.run able]

/-- A name that is declared twice still is after the rename. -/
theorem rename_keeps_duplicate :
    let s := "[Rule]\nFINAL, a\n[Proxy]\na = direct\na = direct".toList
    IsSafeName "bc".toList ∧ (parse s).sites "bc".toList true = [] ∧
      ∃ plan, (parse s).planRename ⟨2, 8⟩ "bc".toList = .ok plan ∧
        (ProxyConfig.validate (plan.apply s)).map Diagnostic.verdict =
          [⟨some "LC202", .error, 5, [4]⟩] := by
  intro s
  have safe : IsSafeName "bc".toList := by decide
  have unused : (parse s).sites "bc".toList true = [] := by decide +kernel
  have sites : (parse s).sites "a".toList true =
      [⟨"a".toList, .onLine 2 8 1, .ruleTarget⟩, ⟨"a".toList, .onLine 4 1 1, .declaration .proxy⟩,
        ⟨"a".toList, .onLine 5 1 1, .declaration .proxy⟩] := by
    rw [sites_eq_walk _ _ ⟨by decide, by decide⟩]
    decide +kernel
  have planned : (parse s).planRename ⟨2, 8⟩ "bc".toList =
      .ok ⟨"a".toList, "bc".toList, [.onLine 2 8 1, .onLine 4 1 1, .onLine 5 1 1]⟩ := by
    refine planRename_eq_ok_iff.mpr
      ⟨rfl, ⟨"a".toList, .onLine 2 8 1, .ruleTarget⟩, by decide +kernel, ?_, ?_⟩
    · rw [sites]
      exact List.cons_ne_nil _ _
    · rw [siteRanges, sites]
      rfl
  refine ⟨safe, unused, _, planned, ?_⟩
  rw [rename_keeps_verdicts s _ safe unused planned]
  decide +kernel

end Document

end ProxyConfig
