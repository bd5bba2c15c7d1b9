import ProxyConfig.Validation.Actors
import ProxyConfig.Proofs.Actor.Namespace
import ProxyConfig.Proofs.Related

/-! # The lines that validators see

The validators skip the lines without content and read the others trimmed. No entry and no piece is
lost by that: they see the entries of the document, but for the place of an empty key, and the actors
they collect have the declared names.
-/

namespace ProxyConfig

open Text

namespace NumberedLine

variable {l : NumberedLine}

theorem content_isEmpty_iff : l.content.isEmpty = true ↔ l.text.uncommented.allBlank = true := by
  rw [content, Span.isEmpty, Span.text_trimmed, List.isEmpty_iff, trim_eq_nil_iff]

theorem solid_of_entry? {e : Entry} (read : l.entry? = some e) : l.content.isEmpty = false := by
  apply Bool.eq_false_iff.mpr
  intro empty
  have none : l.content.text = [] := List.isEmpty_iff.mp empty
  unfold entry? at read
  rw [none] at read
  cases read

/-- A line with a comma has content. -/
theorem solid_of_others {a : Span} (member : a ∈ l.pieces.others) : l.content.isEmpty = false := by
  apply Bool.eq_false_iff.mpr
  intro empty
  have absent : ',' ∉ l.text.uncommented :=
    not_mem_of_allBlank (content_isEmpty_iff.mp empty) (by decide)
  rw [pieces, Pieces.read_of_not_mem 1 absent] at member
  cases member

end NumberedLine

/-- Proxies are declared in proxy sections, groups in group sections. -/
theorem Section.actorKind?_eq_some_iff {s : Section} {kind : ActorKind} :
    s.actorKind? = some kind ↔ s.kind? = some kind.sectionKind := by
  rw [actorKind?]
  cases s.kind? with
  | none => simp
  | some known => cases known <;> cases kind <;> simp [ActorKind.sectionKind]

namespace Document

variable {doc : Document}

theorem mem_solidLines_iff {sections : List Section} {l : NumberedLine} :
    l ∈ doc.solidLines sections ↔
      (∃ s ∈ sections, l ∈ doc.body s) ∧ l.content.isEmpty = false := by
  rw [solidLines, List.mem_filter, List.mem_flatMap, Bool.not_eq_true']

theorem solidLines_sectionsOf_eq (doc : Document) (kind : SectionKind) :
    doc.solidLines (doc.sectionsOf kind) = (doc.linesOf kind).filter fun l => !l.text.isVoid := by
  refine List.filter_congr fun l _ => congrArg (!·) ?_
  rw [Bool.eq_iff_iff, NumberedLine.content_isEmpty_iff]
  rfl

/-- What is not found on void lines is found on the solid ones. -/
theorem flatMap_solidLines {β : Type} (sections : List Section) {f : NumberedLine → List β}
    (void : ∀ l, l.content.isEmpty = true → f l = []) :
    (doc.solidLines sections).flatMap f = (sections.flatMap doc.body).flatMap f := by
  rw [solidLines]
  induction sections.flatMap doc.body with
  | nil => rfl
  | cons l rest ih =>
    rw [List.filter_cons, List.flatMap_cons, ← ih]
    cases empty : l.content.isEmpty with
    | true => rw [void l empty, if_neg (by decide), List.nil_append]
    | false => rw [if_pos (by decide), List.flatMap_cons]

theorem filterMap_entry?_solidLines (doc : Document) (sections : List Section) :
    (doc.solidLines sections).filterMap NumberedLine.entry? =
      (sections.flatMap doc.body).filterMap NumberedLine.entry? := by
  rw [List.filterMap_eq_flatMap_toList, List.filterMap_eq_flatMap_toList]
  refine flatMap_solidLines _ fun l empty => ?_
  cases read : l.entry? with
  | none => rfl
  | some e =>
    rw [NumberedLine.solid_of_entry? read] at empty
    cases empty

/-- The entries that are read off solid lines are those of all lines. -/
theorem agrees_solid (lines : List NumberedLine) :
    List.Forall₂ Entry.Agrees
      ((lines.filter fun l => !l.content.isEmpty).filterMap NumberedLine.entry?)
      (lines.filterMap NumberedLine.rawEntry?) := by
  induction lines with
  | nil => exact .nil
  | cons l rest ih =>
    rw [List.filterMap_cons (f := NumberedLine.rawEntry?), List.filter_cons]
    have agrees := l.entry?_agrees
    rw [← NumberedLine.rawEntry?] at agrees
    cases read : l.entry? with
    | none =>
      rw [read] at agrees
      cases raw : l.rawEntry? with
      | some f =>
        rw [raw] at agrees
        cases agrees
      | none =>
        split
        · rwa [List.filterMap_cons_none read]
        · exact ih
    | some e =>
      rw [read] at agrees
      cases raw : l.rawEntry? with
      | none =>
        rw [raw] at agrees
        cases agrees
      | some f =>
        rw [raw] at agrees
        cases agrees with
        | some same =>
          have kept : (!l.content.isEmpty) = true := by rw [NumberedLine.solid_of_entry? read]; rfl
          rw [if_pos kept, List.filterMap_cons_some read]
          exact .cons same ih

/-- Of each kind, the validator of actors collects the entries of the document. -/
theorem agrees_declared (doc : Document) (kind : ActorKind) :
    List.Forall₂ Entry.Agrees
      (((doc.actorLines.filterMap ActorLine.declaration?).filter fun d => d.kind == kind).map
        Declaration.entry)
      (doc.entries kind.sectionKind) := by
  have read (s : Section) (declared : ActorKind) :
      ((doc.solidLines [s]).map (ActorLine.mk declared)).filterMap ActorLine.declaration? =
        (((doc.body s).filter fun l => !l.content.isEmpty).filterMap NumberedLine.entry?).map
          (Declaration.mk declared) := by
    rw [List.filterMap_map, List.map_filterMap, solidLines, List.flatMap_singleton]
    rfl
  have entries : doc.entries kind.sectionKind = doc.sections.flatMap fun s =>
      if s.kind? = some kind.sectionKind then (doc.body s).filterMap NumberedLine.rawEntry? else [] := by
    simp only [List.filterMap_eq_flatMap_toList (f := NumberedLine.rawEntry?)]
    rw [← flatMap_linesOf, ← List.filterMap_eq_flatMap_toList]
    rfl
  rw [entries, actorLines, List.filterMap_flatMap, List.filter_flatMap, List.map_flatMap]
  refine List.forall₂_flatMap fun s _ => ?_
  simp only [← Section.actorKind?_eq_some_iff]
  cases s.actorKind? with
  | none => exact .nil
  | some declared =>
    dsimp only
    rw [read, List.filter_map, List.map_map]
    by_cases same : declared = kind
    · have all (entries : List Entry) :
          entries.filter ((fun d => d.kind == kind) ∘ Declaration.mk declared) = entries :=
        List.filter_eq_self.mpr fun e _ => beq_iff_eq.mpr same
      rw [all, if_pos (congrArg some same)]
      exact (List.map_id _).symm ▸ agrees_solid (doc.body s)
    · have none (entries : List Entry) :
          entries.filter ((fun d => d.kind == kind) ∘ Declaration.mk declared) = [] :=
        List.filter_eq_nil_iff.mpr fun e _ equal => same (eq_of_beq equal)
      rw [none, if_neg fun equal => same (Option.some.inj equal)]
      exact .nil

/-- The validator of actors collects the declared names, in the order of the lines. -/
theorem names_actorLines_perm (doc : Document) :
    ((doc.actorLines.filterMap ActorLine.declaration?).map Declaration.name).Perm
      (doc.actors.declarations.map Declaration.name) := by
  have keys (kind : ActorKind) :
      ((doc.actorLines.filterMap ActorLine.declaration?).filter fun d => d.kind == kind).map
          Declaration.name =
        (doc.entries kind.sectionKind).map fun e => e.key.text := by
    have agrees := (agrees_declared doc kind).imp fun e f same => same.key.text_eq
    rw [List.forall₂_map_left_iff] at agrees
    rw [← List.forall₂_eq_eq_eq, List.forall₂_map_left_iff, List.forall₂_map_right_iff]
    exact agrees
  have groups : ∀ d ∈ doc.actorLines.filterMap ActorLine.declaration?,
      (!(d.kind == .proxy)) = (d.kind == .group) := by
    intro d _
    cases d.kind <;> rfl
  have parts := List.filter_append_perm (fun d : Declaration => d.kind == .proxy)
    (doc.actorLines.filterMap ActorLine.declaration?)
  rw [List.filter_congr groups] at parts
  refine (parts.symm.map Declaration.name).trans (List.Perm.of_eq ?_)
  rw [List.map_append, keys .proxy, keys .group, map_name_actors, List.map_append]
  rfl

/-- Documents that declare the same names have the same names in their namespaces. -/
theorem contains_actors_congr {doc doc' : Document}
    (names : (doc'.actorLines.filterMap ActorLine.declaration?).map Declaration.name =
      (doc.actorLines.filterMap ActorLine.declaration?).map Declaration.name) (name : Text) :
    doc'.actors.contains name = doc.actors.contains name := by
  rw [Bool.eq_iff_iff, Namespace.contains_iff, Namespace.contains_iff,
    ← (names_actorLines_perm doc').mem_iff, ← (names_actorLines_perm doc).mem_iff, names]

end Document

end ProxyConfig
