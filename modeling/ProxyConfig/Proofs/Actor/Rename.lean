import ProxyConfig.Actor.Rename
import ProxyConfig.Proofs.Actor.RenamedLayout
import ProxyConfig.Proofs.Related

/-! # Renaming is a faithful substitution

The edits of a rename, applied to the text, exchange the old name on the lines where it is searched
and leave the sections where they are. So the renamed document has the sites of the old one: those of
the old name under the new one, and all others as they were, line by line and role by role.
-/

namespace ProxyConfig

open Text

/-- The line of a site and what the name does there. -/
def NameSite.place (x : NameSite) : Nat × NameRole := (x.range.start.line, x.role)

namespace NumberedLine

/-- The line with the old name exchanged at its sites. -/
def renamed (old new : Text) (kind? : Option SectionKind) (l : NumberedLine) : NumberedLine :=
  ⟨l.number, renamedLine kind? old new l.text⟩

end NumberedLine

section Sites

variable {old new : Text}

theorem Entry.Renamed.map_place_declarationSites {kind : ActorKind} {e f : Entry}
    (renamed : Entry.Renamed old new kind e f) (name : Text) :
    (f.declarationSites kind (Equiv.swap old new name)).map NameSite.place =
      (e.declarationSites kind name).map NameSite.place := by
  rw [declarationSites, declarationSites, renamed.key]
  simp only [EmbeddingLike.apply_eq_iff_eq]
  split
  · simp only [List.map_singleton, NameSite.place, Span.site, Span.range, Range.onLine,
      Range.between, renamed.line]
  · rfl

theorem Span.Renamed.map_place_referenceSites {e f : Entry} {a b : Span} (line : f.line = e.line)
    (renamed : Span.Renamed old new e.line a b) (name : Text) :
    (f.referenceSites (Equiv.swap old new name) b).map NameSite.place =
      (e.referenceSites name a).map NameSite.place := by
  rw [Entry.referenceSites, Entry.referenceSites, line]
  have properties := renamed.property
  cases before : a.property? e.line with
  | none =>
    rw [before] at properties
    cases after : b.property? e.line with
    | some q =>
      rw [after] at properties
      cases properties
    | none =>
      dsimp only
      rw [renamed.text before]
      simp only [EmbeddingLike.apply_eq_iff_eq]
      split <;> rfl
  | some p =>
    rw [before] at properties
    cases after : b.property? e.line with
    | none =>
      rw [after] at properties
      cases properties
    | some q =>
      rw [after] at properties
      cases properties with
      | some same =>
        dsimp only
        rw [Entry.lastResort?, Entry.lastResort?, same.key]
        split
        · next none =>
          split at none
          · cases none
          · next other =>
            rw [if_neg other]
        · next value found =>
          split at found
          · next resort =>
            cases found
            rw [if_pos resort]
            dsimp only
            rw [same.value, if_pos resort]
            simp only [EmbeddingLike.apply_eq_iff_eq]
            split <;> rfl
          · cases found

/-- The target of a renamed rule is its target, with the names swapped. -/
theorem Pieces.Renamed.ruleTarget? {p q : Pieces} (renamed : Pieces.Renamed old new p q) :
    Option.Rel (fun a b : Span => b.text = Equiv.swap old new a.text) (ruleTarget? p)
      (ruleTarget? q) := by
  have texts : (q.others[targetOffset p.first.text]?).map (·.text) =
      ((p.others[targetOffset p.first.text]?).map (·.text)).map (Equiv.swap old new) := by
    rw [← List.getElem?_map, renamed.others, List.getElem?_modify_eq, List.getElem?_map]
    rfl
  rw [ruleTarget?_eq, ruleTarget?_eq, renamed.first]
  cases before : p.others[targetOffset p.first.text]? with
  | none =>
    rw [before] at texts
    rw [Option.map_eq_none_iff.mp texts]
    exact .none
  | some a =>
    rw [before] at texts
    obtain ⟨b, after, text⟩ := Option.map_eq_some_iff.mp texts
    rw [after]
    exact .some text

private theorem map_place_target {target? target'? : Option Span}
    (related : Option.Rel (fun a b : Span => b.text = Equiv.swap old new a.text) target? target'?)
    (line : Nat) (name : Text) :
    ((target'?.filter fun b => b.text == Equiv.swap old new name).map
        fun b => b.site line .ruleTarget).toList.map NameSite.place =
      ((target?.filter fun a => a.text == name).map
        fun a => a.site line .ruleTarget).toList.map NameSite.place := by
  cases related with
  | none => rfl
  | some text =>
    rw [Option.filter_some, Option.filter_some, text]
    simp only [beq_iff_eq, EmbeddingLike.apply_eq_iff_eq]
    split <;> rfl

/-- A renamed line has the sites of the line, with the names swapped. -/
theorem NumberedLine.map_place_sites_renamed (solid : old ≠ []) (word : IsWord new)
    {l : NumberedLine} {kind? : Option SectionKind} (unused : l.sites kind? new true = [])
    (name : Text) :
    ((l.renamed old new kind?).sites kind? (Equiv.swap old new name) true).map NameSite.place =
      (l.sites kind? name true).map NameSite.place := by
  cases kind? with
  | none => rfl
  | some kind =>
    cases kind with
    | proxy =>
      have entries := l.rawEntry?_renamed solid word .proxy unused
      exact (List.Forall₂.of_option entries).map_flatMap fun e f renamed =>
        renamed.map_place_declarationSites name
    | proxyGroup =>
      have entries := l.rawEntry?_renamed solid word .group unused
      refine (List.Forall₂.of_option entries).map_flatMap fun e f renamed => ?_
      rw [if_pos rfl, if_pos rfl, List.map_append, List.map_append,
        renamed.map_place_declarationSites name,
        (renamed.others rfl).map_flatMap fun a b argument =>
          argument.map_place_referenceSites renamed.line name]
    | rule =>
      have targets := (l.pieces_renamed solid word unused).ruleTarget?
      exact map_place_target targets l.number name
    | general | host | env | onDemand => rfl

end Sites

/-- A rename that can be made: the old name is searched for at all, and the new one is safe and
stands nowhere. -/
structure Document.Renameable (doc : Document) (old new : Text) : Prop where
  named : IsName old
  safe : IsSafeName new
  unused : doc.sites new true = []

/-- A rename that moves no line and no section: the old name is searched for, the new one is read back
where it is written, and no line comes to be a header. -/
structure Document.KeepsLayout (doc : Document) (old new : Text) : Prop where
  named : IsName old
  word : IsWord new
  bodies : ∀ s ∈ doc.sections, ∀ l ∈ doc.body s,
    headerName? (renamedLine s.kind? old new l.text) = none

/-- A word without brackets makes no header. -/
theorem Document.keepsLayout_of_unbracketed {doc : Document} {old new : Text} (named : IsName old)
    (word : IsWord new) (opening : new.head? ≠ some '[') (closing : ']' ∉ new) :
    doc.KeepsLayout old new where
  named := named
  word := word
  bodies := fun s here _ inside =>
    headerName?_renamedLine named.1 word opening closing s.kind? (headerName?_of_mem_body here inside)

theorem Document.Renameable.keepsLayout {doc : Document} {old new : Text}
    (able : doc.Renameable old new) : doc.KeepsLayout old new :=
  keepsLayout_of_unbracketed able.named able.safe.isWord able.safe.head_ne able.safe.no_closing

/-- The second document is the first one with the old name exchanged on the lines of each section. -/
structure Document.Renamed (old new : Text) (doc doc' : Document) : Prop where
  lineCount : doc'.lineCount = doc.lineCount
  sections : doc'.sections = doc.sections
  body : ∀ s ∈ doc.sections, doc'.body s = (doc.body s).map (NumberedLine.renamed old new s.kind?)
  outside : ∀ n, (∀ s ∈ doc.sections, ∀ l ∈ doc.body s, l.number ≠ n) → doc'.line n = doc.line n

namespace Document

variable {doc : Document} {old new : Text}

/-- The ranges of all sites of a name. -/
def siteRanges (doc : Document) (name : Text) : List Range := (doc.sites name true).map (·.range)

theorem mem_siteRanges_iff (named : IsName old) {r : Range} :
    r ∈ doc.siteRanges old ↔ ∃ s ∈ doc.sections, ∃ l ∈ doc.body s,
      r ∈ (l.sites s.kind? old true).map (·.range) := by
  simp only [siteRanges, List.mem_map, mem_sites_iff named]
  constructor
  · rintro ⟨x, ⟨s, here, l, inside, found⟩, rfl⟩
    exact ⟨s, here, l, inside, x, found, rfl⟩
  · rintro ⟨s, here, l, inside, x, found, rfl⟩
    exact ⟨x, ⟨s, here, l, inside, found⟩, rfl⟩

/-- The range of a site reaches only columns of its own line. -/
theorem reach_of_mem_sites (solid : old ≠ []) {l : NumberedLine} {kind? : Option SectionKind}
    {r : Range} (member : r ∈ (l.sites kind? old true).map (·.range)) {n c : Nat}
    (reaches : r.start = ⟨n, c⟩ ∨ r.contains ⟨n, c⟩ = true) : l.number = n ∧ c ≤ l.text.length := by
  obtain ⟨x, found, rfl⟩ := List.mem_map.mp member
  obtain ⟨span, role, rfl, text, -, ends⟩ := NumberedLine.within_of_mem_sites found
  have long : 0 < span.length := List.length_pos_of_ne_nil (text ▸ solid)
  rw [Span.endColumn] at ends
  rcases reaches with start | contains
  · cases start
    exact ⟨rfl, by omega⟩
  · obtain ⟨line, -, before⟩ := Range.contains_onLine_iff.mp contains
    change c < span.column + span.length at before
    exact ⟨line.symm, by omega⟩

/-- The ranges are clear of the columns behind the end of a line. -/
theorem clear_siteRanges (named : IsName old) {n first last : Nat}
    (behind : ∀ s ∈ doc.sections, ∀ l ∈ doc.body s, l.number = n → l.text.length < first) :
    Clear (doc.siteRanges old) n first last := by
  intro r member c starts _
  obtain ⟨s, here, l, inside, found⟩ := (mem_siteRanges_iff named).mp member
  have beyond (reaches : r.start = ⟨n, c⟩ ∨ r.contains ⟨n, c⟩ = true) : False := by
    obtain ⟨line, upTo⟩ := reach_of_mem_sites named.1 found reaches
    have long := behind s here l inside line
    omega
  exact ⟨fun start => beyond (.inl start), fun contains => beyond (.inr contains)⟩

/-- On a line of a body, the ranges of all sites do what those of the line do. -/
theorem replaceFrom_of_mem_body (named : IsName old) {s : Section} (here : s ∈ doc.sections)
    {l : NumberedLine} (inside : l ∈ doc.body s) (flat : '\n' ∉ l.text) :
    replaceFrom (doc.siteRanges old) new ⟨l.number, 1⟩ l.text =
      renamedLine s.kind? old new l.text := by
  rw [← replaceFrom_sites named l flat]
  have same {c : Nat} {P : Range → Prop}
      (reaches : ∀ r, P r → r.start = ⟨l.number, c⟩ ∨ r.contains ⟨l.number, c⟩ = true) :
      (∃ r ∈ doc.siteRanges old, P r) ↔ ∃ r ∈ (l.sites s.kind? old true).map (·.range), P r := by
    constructor
    · rintro ⟨r, member, holds⟩
      obtain ⟨t, there, m, among, found⟩ := (mem_siteRanges_iff named).mp member
      have line := (reach_of_mem_sites named.1 found (reaches r holds)).1
      obtain ⟨rfl, rfl⟩ := eq_of_mem_body there here among inside line
      exact ⟨r, found, holds⟩
    · rintro ⟨r, member, holds⟩
      exact ⟨r, (mem_siteRanges_iff named).mpr ⟨s, here, l, inside, member⟩, holds⟩
  exact replaceFrom_congr flat fun c _ _ => ⟨same fun r => .inl, same fun r => .inr⟩

/-- The line with a number belongs to the body of a section or to none. -/
theorem line_cases (doc : Document) {i : Nat} {text : Text} (found : doc.lines[i]? = some text) :
    (∃ s ∈ doc.sections, ⟨i + 1, text⟩ ∈ doc.body s) ∨
      ∀ s ∈ doc.sections, ∀ l ∈ doc.body s, l.number ≠ i + 1 := by
  by_contra neither
  rw [not_or] at neither
  obtain ⟨absent, present⟩ := neither
  push Not at present
  obtain ⟨s, here, l, inside, same⟩ := present
  refine absent ⟨s, here, ?_⟩
  have text' := line_number_of_mem_body inside
  rw [same, line, List.getD_eq_getElem?_getD, found, Option.getD_some] at text'
  rw [text', ← same]
  exact inside

/-- What replacing the ranges makes of one line. -/
theorem replaceFrom_line {s : Text} (named : IsName old) (new : Text) {i : Nat} {text : Text}
    (found : (parse s).lines[i]? = some text) :
    (∃ t ∈ (parse s).sections, ⟨i + 1, text⟩ ∈ (parse s).body t ∧
      replaceFrom ((parse s).siteRanges old) new ⟨i + 1, 1⟩ text = renamedLine t.kind? old new text) ∨
    ((∀ t ∈ (parse s).sections, ∀ l ∈ (parse s).body t, l.number ≠ i + 1) ∧
      replaceFrom ((parse s).siteRanges old) new ⟨i + 1, 1⟩ text = text) := by
  have flat : '\n' ∉ text := not_mem_of_mem_lines (List.mem_of_getElem? found)
  rcases line_cases (parse s) found with ⟨t, here, inside⟩ | apart
  · exact .inl ⟨t, here, inside, replaceFrom_of_mem_body named here inside flat⟩
  · refine .inr ⟨apart, replaceFrom_of_clear flat (clear_siteRanges named ?_)⟩
    intro t here l inside same
    exact absurd same (apart t here l inside)

/-- The lines of the renamed text are the replaced lines. -/
theorem lines_renamed {s : Text} (named : IsName old) (word : IsWord new) :
    (s.replace ((parse s).siteRanges old) new).lines = s.lines.mapIdx fun i text =>
      replaceFrom ((parse s).siteRanges old) new ⟨i + 1, 1⟩ text := by
  refine lines_replace word.flat ?_ ?_
  · intro i text found
    refine clear_siteRanges named fun t _ l inside same => ?_
    have here := line_number_of_mem_body inside
    rw [same, line, List.getD_eq_getElem?_getD] at here
    change s.lines[i]?.getD [] = l.text at here
    rw [found, Option.getD_some] at here
    rw [here]
    omega
  · intro i text found other last
    rcases replaceFrom_line named new found with ⟨t, -, -, replaced⟩ | ⟨-, replaced⟩
    · rw [replaced] at last
      have respelled : Respelled old new text (renamedLine t.kind? old new text) :=
        Respelled.renamedLine new named.1 t.kind? text
      refine other (respelled.getLast? word.solid (fun ends => ?_) last)
      exact word.trimmed.getLast_not_blank ends (by decide)
    · rw [replaced] at last
      exact other last

section Replaced

variable {s : Text}

theorem getElem?_lines_renamed (named : IsName old) (word : IsWord new) (i : Nat) :
    (parse (s.replace ((parse s).siteRanges old) new)).lines[i]? =
      ((parse s).lines[i]?).map fun text =>
        replaceFrom ((parse s).siteRanges old) new ⟨i + 1, 1⟩ text := by
  change (s.replace ((parse s).siteRanges old) new).lines[i]? = _
  rw [lines_renamed named word, List.getElem?_mapIdx]
  rfl

/-- What the edits change on no line is the same for all lines. -/
theorem map_lines_renamed {β : Type} (named : IsName old) (word : IsWord new) (f : Text → β)
    (same : ∀ i text, (parse s).lines[i]? = some text →
      f (replaceFrom ((parse s).siteRanges old) new ⟨i + 1, 1⟩ text) = f text) :
    (parse (s.replace ((parse s).siteRanges old) new)).lines.map f = (parse s).lines.map f := by
  apply List.ext_getElem?
  intro i
  rw [List.getElem?_map, List.getElem?_map, getElem?_lines_renamed named word, Option.map_map]
  cases found : (parse s).lines[i]? with
  | none => rfl
  | some text => exact congrArg some (same i text found)

/-- The edits make no header, unmake none, and leave blank lines blank. -/
theorem sections_renamed (kept : (parse s).KeepsLayout old new) :
    (parse (s.replace ((parse s).siteRanges old) new)).sections = (parse s).sections := by
  refine Section.ofLines_congr (map_lines_renamed kept.named kept.word headerName? ?_)
    (map_lines_renamed kept.named kept.word Text.allBlank ?_)
  · intro i text found
    rcases replaceFrom_line kept.named new found with ⟨t, here, inside, replaced⟩ | ⟨-, replaced⟩
    · rw [replaced, headerName?_of_mem_body here inside]
      exact kept.bodies t here _ inside
    · rw [replaced]
  · intro i text found
    rcases replaceFrom_line kept.named new found with ⟨t, here, inside, replaced⟩ | ⟨-, replaced⟩
    · rw [replaced, allBlank_renamedLine new kept.named.1]
    · rw [replaced]

theorem newline_not_mem_of_mem_body {t : Section} (here : t ∈ (parse s).sections) {l : NumberedLine}
    (inside : l ∈ (parse s).body t) : '\n' ∉ l.text :=
  not_mem_of_mem_lines (List.mem_of_getElem? (getElem?_of_mem_body here inside))

/-- What the edits make of a line of a body. -/
theorem line_renamed (named : IsName old) (word : IsWord new) {t : Section}
    (here : t ∈ (parse s).sections) {l : NumberedLine} (inside : l ∈ (parse s).body t) :
    (parse (s.replace ((parse s).siteRanges old) new)).line l.number =
      renamedLine t.kind? old new l.text := by
  have positive := (number_of_mem_body here inside).1
  rw [line_eq_getD _ positive, List.getD_eq_getElem?_getD, getElem?_lines_renamed named word,
    getElem?_of_mem_body here inside, Option.map_some, Option.getD_some, Nat.sub_add_cancel positive]
  exact replaceFrom_of_mem_body named here inside (newline_not_mem_of_mem_body here inside)

theorem body_renamed (kept : (parse s).KeepsLayout old new) {t : Section}
    (here : t ∈ (parse s).sections) :
    (parse (s.replace ((parse s).siteRanges old) new)).body t =
      ((parse s).body t).map (NumberedLine.renamed old new t.kind?) := by
  rw [body, body, List.map_map]
  refine List.map_congr_left fun n inside => ?_
  have member : (⟨n, (parse s).line n⟩ : NumberedLine) ∈ (parse s).body t := List.mem_map_of_mem inside
  exact congrArg (NumberedLine.mk n) (line_renamed kept.named kept.word here member)

theorem line_renamed_of_outside (kept : (parse s).KeepsLayout old new) {n : Nat}
    (outside : ∀ t ∈ (parse s).sections, ∀ l ∈ (parse s).body t, l.number ≠ n) :
    (parse (s.replace ((parse s).siteRanges old) new)).line n = (parse s).line n := by
  cases n with
  | zero => rfl
  | succ i =>
    rw [line, line, List.getD_eq_getElem?_getD, List.getD_eq_getElem?_getD,
      getElem?_lines_renamed kept.named kept.word]
    cases found : (parse s).lines[i]? with
    | none => rfl
    | some text =>
      rcases replaceFrom_line kept.named new found with ⟨t, here, inside, -⟩ | ⟨-, replaced⟩
      · exact absurd rfl (outside t here _ inside)
      · rw [Option.map_some, replaced]

/-- Renaming a document exchanges the name on the lines of its sections and moves nothing. -/
theorem renamed_replace (kept : (parse s).KeepsLayout old new) :
    Renamed old new (parse s) (parse (s.replace ((parse s).siteRanges old) new)) where
  lineCount := by
    change (s.replace ((parse s).siteRanges old) new).lines.length = s.lines.length
    rw [lines_renamed kept.named kept.word, List.length_mapIdx]
  sections := sections_renamed kept
  body := fun _ here => body_renamed kept here
  outside := fun _ apart => line_renamed_of_outside kept apart

end Replaced

theorem Renameable.sites_line (able : doc.Renameable old new) {s : Section} (here : s ∈ doc.sections)
    {l : NumberedLine} (inside : l ∈ doc.body s) : l.sites s.kind? new true = [] := by
  apply List.eq_nil_iff_forall_not_mem.mpr
  intro x found
  have member := (mem_sites_iff able.safe.isName).mpr ⟨s, here, l, inside, found⟩
  rw [able.unused] at member
  cases member

/-- A renamed document has the sites of the document, with the names swapped. -/
theorem Renamed.map_place_sites {doc' : Document} (renamed : Renamed old new doc doc')
    (able : doc.Renameable old new) (name : Text) :
    (doc'.sites (Equiv.swap old new name) true).map NameSite.place =
      (doc.sites name true).map NameSite.place := by
  have walk : (doc'.siteWalk (Equiv.swap old new name) true).map NameSite.place =
      (doc.siteWalk name true).map NameSite.place := by
    rw [siteWalk, siteWalk, renamed.sections, List.map_flatMap, List.map_flatMap]
    refine List.flatMap_congr fun s here => ?_
    rw [renamed.body s here, List.flatMap_map, List.map_flatMap, List.map_flatMap]
    refine List.flatMap_congr fun l inside => ?_
    exact NumberedLine.map_place_sites_renamed able.named.1 able.safe.isWord (able.sites_line here inside) name
  have kept : IsName (Equiv.swap old new name) ↔ IsName name := by
    rw [Equiv.swap_apply_def]
    split
    · next same => simp [same, able.named, able.safe.isName]
    · split
      · next same => simp [same, able.named, able.safe.isName]
      · rfl
  by_cases named : IsName name
  · rw [sites_eq_walk doc true named, sites_eq_walk doc' true (kept.mpr named), walk]
  · rw [sites_eq_nil named, sites_eq_nil fun searched => named (kept.mp searched)]

end Document

/-- The text with the edits of the plan. -/
def RenamePlan.apply (plan : RenamePlan) (s : Text) : Text := s.replace plan.ranges plan.newName

namespace Document

variable {doc : Document} {new : Text} {p : Position} {plan : RenamePlan}

/-- The guard lets everything through but the two characters that cut a name. -/
theorem checkNewName_eq_ok_iff : checkNewName new = .ok () ↔ '=' ∉ new ∧ ',' ∉ new := by
  have refused : (new.contains '=' || new.contains ',') = true ↔ '=' ∈ new ∨ ',' ∈ new := by
    rw [Bool.or_eq_true, List.contains_iff_mem, List.contains_iff_mem]
  rw [checkNewName, ← not_or, ← refused]
  split
  · next found => exact ⟨fun accepted => (nomatch accepted), fun absent => absurd found absent⟩
  · next absent => exact ⟨fun _ => absent, fun _ => rfl⟩

/-- A rename is planned for a name under the cursor that has sites, and it replaces all of them. -/
theorem planRename_eq_ok_iff :
    doc.planRename p new = .ok plan ↔ checkNewName new = .ok () ∧
      ∃ site, doc.siteAt? p = some site ∧ doc.sites site.name true ≠ [] ∧
        plan = ⟨site.name, new, doc.siteRanges site.name⟩ := by
  rw [planRename]
  constructor
  · intro planned
    cases accepted : checkNewName new with
    | error reason =>
      rw [accepted] at planned
      cases planned
    | ok =>
      rw [accepted] at planned
      cases found : doc.siteAt? p with
      | none =>
        rw [found] at planned
        cases planned
      | some site =>
        rw [found] at planned
        cases sites : doc.sites site.name true with
        | nil =>
          simp only [bind, Except.bind, sites] at planned
          cases planned
        | cons first rest =>
          simp only [bind, Except.bind, sites] at planned
          cases planned
          refine ⟨rfl, site, rfl, by rw [sites]; exact List.cons_ne_nil _ _, ?_⟩
          rw [siteRanges, sites]
  · rintro ⟨accepted, site, found, solid, rfl⟩
    rw [accepted, found, siteRanges]
    cases sites : doc.sites site.name true with
    | nil => exact absurd sites solid
    | cons first rest =>
      simp only [bind, Except.bind, sites]

theorem renameable_of_planRename (safe : IsSafeName new) (unused : doc.sites new true = [])
    (planned : doc.planRename p new = .ok plan) : doc.Renameable plan.oldName new := by
  obtain ⟨-, site, -, solid, rfl⟩ := planRename_eq_ok_iff.mp planned
  refine ⟨?_, safe, unused⟩
  by_contra unnamed
  exact solid (sites_eq_nil unnamed)

theorem renamed_of_planRename {s : Text} (safe : IsSafeName new)
    (unused : (parse s).sites new true = []) (planned : (parse s).planRename p new = .ok plan) :
    Renamed plan.oldName new (parse s) (parse (plan.apply s)) := by
  have able := renameable_of_planRename safe unused planned
  obtain ⟨-, site, -, -, rfl⟩ := planRename_eq_ok_iff.mp planned
  exact renamed_replace able.keepsLayout

/-- Renaming to a safe name that stands nowhere is a faithful substitution: the text keeps its lines
and sections, the new name has the sites that the old one had, the old one has none, and the sites of
every other name stay on their lines and in their roles. -/
theorem rename_faithful (s : Text) (p : Position) {new : Text} {plan : RenamePlan}
    (safe : IsSafeName new) (unused : (parse s).sites new true = [])
    (planned : (parse s).planRename p new = .ok plan) :
    (parse (plan.apply s)).lineCount = (parse s).lineCount ∧
    (parse (plan.apply s)).sections = (parse s).sections ∧
    ((parse (plan.apply s)).sites new true).map NameSite.place =
      ((parse s).sites plan.oldName true).map NameSite.place ∧
    (parse (plan.apply s)).sites plan.oldName true = [] ∧
    ∀ name, name ≠ new → name ≠ plan.oldName →
      ((parse (plan.apply s)).sites name true).map NameSite.place =
        ((parse s).sites name true).map NameSite.place := by
  have able := renameable_of_planRename safe unused planned
  have renamed := renamed_of_planRename safe unused planned
  have places := renamed.map_place_sites able
  refine ⟨renamed.lineCount, renamed.sections, ?_, ?_, ?_⟩
  · have here := places plan.oldName
    rwa [Equiv.swap_apply_left] at here
  · have here := places new
    rw [Equiv.swap_apply_right, unused, List.map_nil] at here
    exact List.map_eq_nil_iff.mp here
  · intro name notNew notOld
    have here := places name
    rwa [Equiv.swap_apply_of_ne_of_ne notOld notNew] at here

/-- A rename from the target of a rule, with a declaration further down and a comment left alone. -/
theorem rename_everywhere :
    let s := "[Rule]\nFINAL, a\n[Proxy Group]\ng = static, a # a\n[Proxy]\na = direct".toList
    IsSafeName "bc".toList ∧ (parse s).sites "bc".toList true = [] ∧
      ∃ plan, (parse s).planRename ⟨2, 8⟩ "bc".toList = .ok plan ∧
        plan.apply s =
          "[Rule]\nFINAL, bc\n[Proxy Group]\ng = static, bc # a\n[Proxy]\nbc = direct".toList ∧
        ((parse (plan.apply s)).sites "bc".toList true).map NameSite.place =
          [(2, .ruleTarget), (4, .member), (6, .declaration .proxy)] := by
  intro s
  have safe : IsSafeName "bc".toList := by decide
  have unused : (parse s).sites "bc".toList true = [] := by decide +kernel
  have sites : (parse s).sites "a".toList true =
      [⟨"a".toList, .onLine 2 8 1, .ruleTarget⟩, ⟨"a".toList, .onLine 4 13 1, .member⟩,
        ⟨"a".toList, .onLine 6 1 1, .declaration .proxy⟩] := by
    rw [sites_eq_walk _ _ ⟨by decide, by decide⟩]
    decide +kernel
  have planned : (parse s).planRename ⟨2, 8⟩ "bc".toList =
      .ok ⟨"a".toList, "bc".toList, [.onLine 2 8 1, .onLine 4 13 1, .onLine 6 1 1]⟩ := by
    refine planRename_eq_ok_iff.mpr
      ⟨rfl, ⟨"a".toList, .onLine 2 8 1, .ruleTarget⟩, by decide +kernel, ?_, ?_⟩
    · rw [sites]
      exact List.cons_ne_nil _ _
    · rw [siteRanges, sites]
      rfl
  refine ⟨safe, unused, _, planned, by decide +kernel, ?_⟩
  rw [(rename_faithful s _ safe unused planned).2.2.1, sites]
  rfl

end Document

end ProxyConfig
