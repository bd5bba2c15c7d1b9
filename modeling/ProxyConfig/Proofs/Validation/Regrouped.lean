import ProxyConfig.Proofs.Validation.Codes
import ProxyConfig.Proofs.Validation.Lines
import ProxyConfig.Proofs.Validation.Moved

/-! # Regrouped lines

Below the headers, the validators see of which kind the section of a line is, and not where it starts.
So all but the section structure is reported moved if the lines move in order, each into a section of
the kind that it was in, and the first header of each kind moves with them. How many headers there are
matters to the report on the headers alone.
-/

namespace ProxyConfig

open Text

namespace Document

variable {f : Nat → Nat} {doc doc' : Document}

section Relocated

/-- Where a diagnostic of the document is to be found in the document that it is moved to. -/
def relocated (doc : Document) (f : Nat → Nat) (d : Diagnostic) : Diagnostic :=
  if d.code = some Issue.missingFinal.code ∧ doc.hasSection .rule = false then d else d.moved f

theorem relocated_id (doc : Document) : doc.relocated id = id := by
  funext d
  simp [relocated]

/-- Only the validator of rules has a diagnostic that may stay. -/
theorem map_relocated {v : Validator} (other : v ≠ .rules) {report : List Diagnostic}
    (codes : CodesIn v.codes report) :
    report.map (doc.relocated f) = report.map (Diagnostic.moved f) := by
  refine List.map_congr_left fun d member => ?_
  obtain ⟨code, listed, same⟩ := codes d member
  rw [relocated, if_neg]
  rintro ⟨missing, -⟩
  rw [same] at missing
  have foreign : Issue.missingFinal.code ∉ v.codes := by
    cases v with
    | rules => exact absurd rfl other
    | sections | general | hosts | actors | env => decide
  exact foreign (Option.some.inj missing ▸ listed)

end Relocated

/-- The lines before the first header are those that are before every header. -/
theorem le_firstHeader_iff {n : Nat} (upTo : n ≤ doc.lineCount) :
    n ≤ ((doc.sections.head?).map (·.startLine)).getD (doc.lineCount + 1) - 1 ↔
      ∀ s ∈ doc.sections, n < s.startLine := by
  have pairs := sections_pairwise doc
  have ordered := fun s (here : s ∈ doc.sections) => startLine_le_endLine here
  cases sections : doc.sections with
  | nil => simp [upTo]
  | cons first rest =>
    have listed : first ∈ doc.sections := by simp [sections]
    have positive := startLine_pos listed
    rw [sections] at pairs ordered
    rw [List.forall_mem_cons, List.head?_cons, Option.map_some, Option.getD_some]
    constructor
    · intro least
      refine ⟨by omega, fun s member => ?_⟩
      have behind := (List.pairwise_cons.mp pairs).1 s member
      have order := ordered first (List.mem_cons_self ..)
      omega
    · rintro ⟨less, -⟩
      omega

/-- The stray lines are the solid ones before all headers. -/
theorem strayContent_eq (doc : Document) :
    doc.strayContent = (doc.solid.filter fun l => doc.sections.all fun s => l.number < s.startLine).map
      fun l => l.report .strayContent := by
  let bound := (doc.sections.head?).map (·.startLine) |>.getD (doc.lineCount + 1)
  have selected : doc.strayContent = ((doc.numbered.take (bound - 1)).filter fun l => !l.content.isEmpty).map
      fun l => l.report .strayContent := by
    rw [← List.filterMap_eq_map, List.filterMap_filter]
    refine List.filterMap_congr fun l _ => ?_
    cases l.content.isEmpty <;> rfl
  rw [selected]
  congr 1
  apply eq_filter_solid
  · exact ((numbered_pairwise doc).sublist (List.take_sublist _ _)).filter _
  · intro l
    rw [List.mem_filter, mem_take_numbered_iff, mem_solid_iff, List.all_eq_true]
    simp only [decide_eq_true_eq, Bool.not_eq_true', ← Bool.not_eq_true,
      NumberedLine.content_isEmpty_iff]
    constructor
    · rintro ⟨⟨upTo, member⟩, full⟩
      obtain ⟨positive, found⟩ := mem_numbered_iff.mp member
      have last := (number_of_mem_numbered member).2
      exact ⟨⟨positive, found, full⟩, (le_firstHeader_iff last).mp upTo⟩
    · rintro ⟨⟨positive, found, full⟩, free⟩
      have member := mem_numbered_iff.mpr ⟨positive, found⟩
      have last := (number_of_mem_numbered member).2
      exact ⟨⟨(le_firstHeader_iff last).mpr free, member⟩, full⟩

section Headers

/-- The first section of each kind moves, if there is one. -/
def FirstsMoved (f : Nat → Nat) (sections sections' : List Section) : Prop :=
  ∀ kind, Option.Rel (Section.Moved f) (sections.find? fun s => s.kind? == some kind)
    (sections'.find? fun s => s.kind? == some kind)

variable {earlier earlier' sections sections' : List Section}

theorem firstsMoved_of_forall₂ (moved : List.Forall₂ (Section.Moved f) sections sections') :
    FirstsMoved f sections sections' :=
  fun _ => moved.find? fun s s' same => by rw [same.kind?]

theorem FirstsMoved.append (firsts : FirstsMoved f earlier earlier')
    (behind : FirstsMoved f sections sections') :
    FirstsMoved f (earlier ++ sections) (earlier' ++ sections') := by
  intro kind
  rw [List.find?_append, List.find?_append]
  exact (firsts kind).or (behind kind)

/-- A section is not the first one of its kind behind another one. -/
theorem FirstsMoved.concat_right (firsts : FirstsMoved f earlier earlier') {s u : Section}
    (here : s ∈ earlier') (same : u.kind? = s.kind?) : FirstsMoved f earlier (earlier' ++ [u]) := by
  intro kind
  have unchanged : (earlier' ++ [u]).find? (fun t => t.kind? == some kind) =
      earlier'.find? fun t => t.kind? == some kind := by
    rw [List.find?_append, List.find?_singleton]
    split
    · next known =>
      have found : (earlier'.find? fun t => t.kind? == some kind).isSome = true :=
        List.find?_isSome.mpr ⟨s, here, same ▸ known⟩
      rw [Option.or_eq_left_of_isSome found]
    · exact Option.or_none
  rw [unchanged]
  exact firsts kind

/-- A header is reported as a repetition of the one that the first of its kind moves to. -/
theorem checkSectionName_moved (firsts : FirstsMoved f earlier earlier') {s s' : Section}
    (moved : s.Moved f s') :
    checkSectionName earlier' s' = (checkSectionName earlier s).map (Diagnostic.moved f) := by
  rw [checkSectionName, checkSectionName, moved.kind?, moved.name, moved.nameRange]
  cases s.kind? with
  | none => rfl
  | some kind =>
    have first := firsts kind
    dsimp only
    generalize earlier.find? _ = t?, earlier'.find? _ = t'? at first
    cases first with
    | none => rfl
    | some same => simp [same.nameRange]

theorem trailingHeaderText_moved {s s' : Section} (same : s.Moved f s')
    (line : (doc'.line (f s.startLine)).uncommented = (doc.line s.startLine).uncommented) :
    doc'.trailingHeaderText s' = (doc.trailingHeaderText s).map (Diagnostic.moved f) := by
  rw [trailingHeaderText, trailingHeaderText, same.startLine, line]
  split
  · rfl
  · split <;> rfl

/-- Headers that move, behind headers of which the first ones do, are reported moved. -/
theorem checkHeadersFrom_moved (firsts : FirstsMoved f earlier earlier')
    (moved : List.Forall₂ (Section.Moved f) sections sections')
    (lines : ∀ s ∈ sections,
      (doc'.line (f s.startLine)).uncommented = (doc.line s.startLine).uncommented) :
    doc'.checkHeadersFrom earlier' sections' =
      (doc.checkHeadersFrom earlier sections).map (Diagnostic.moved f) := by
  induction moved generalizing earlier earlier' with
  | nil => rfl
  | @cons s s' rest rest' same _ ih =>
    obtain ⟨line, others⟩ := List.forall_mem_cons.mp lines
    have next := firsts.append (firstsMoved_of_forall₂ (.cons same .nil))
    rw [checkHeadersFrom, checkHeadersFrom, List.map_append, List.map_append, ih next others,
      trailingHeaderText_moved same line, checkSectionName_moved firsts same]

theorem checkHeadersFrom_append (doc : Document) (earlier sections rest : List Section) :
    doc.checkHeadersFrom earlier (sections ++ rest) =
      doc.checkHeadersFrom earlier sections ++ doc.checkHeadersFrom (earlier ++ sections) rest := by
  induction sections generalizing earlier with
  | nil => rw [List.nil_append, List.append_nil, checkHeadersFrom, List.nil_append]
  | cons s sections ih =>
    rw [List.cons_append, checkHeadersFrom, checkHeadersFrom, ih, List.append_assoc,
      List.append_assoc, List.append_assoc, List.append_assoc, List.singleton_append]

end Headers

/-- The other document has the same lines below its headers, in sections of the same kinds. -/
structure Regrouped (f : Nat → Nat) (doc doc' : Document) : Prop where
  contents : List.Forall₂ (NumberedLine.Moved f) doc.contents doc'.contents
  owners : ∀ n, Option.Rel (fun s s' => s'.kind? = s.kind?) (doc.sectionAt? n) (doc'.sectionAt? (f n))
  firsts : FirstsMoved f doc.sections doc'.sections

/-- The lines that declare actors, each by the kind of its section. -/
theorem actorLines_eq (doc : Document) :
    doc.actorLines = doc.contents.filterMap fun l =>
      ((doc.sectionAt? l.number).bind Section.actorKind?).map fun kind => ⟨kind, l⟩ := by
  let read (l : NumberedLine) : Option ActorLine :=
    ((doc.sectionAt? l.number).bind Section.actorKind?).map fun kind => ⟨kind, l⟩
  have owned : doc.contents.filterMap read = (doc.solidLines doc.sections).filterMap read := by
    have all := doc.solidLines_filter fun _ => true
    rw [List.filter_true] at all
    rw [all, List.filterMap_filter]
    refine List.filterMap_congr fun l _ => ?_
    cases found : doc.sectionAt? l.number with
    | none => simp [read, found]
    | some s => rfl
  change _ = doc.contents.filterMap read
  rw [owned, solidLines_eq_flatMap, List.filterMap_flatMap]
  refine List.flatMap_congr fun s here => ?_
  have inside : ∀ l ∈ doc.solidLines [s],
      read l = s.actorKind?.map fun kind => ⟨kind, l⟩ := by
    intro l member
    obtain ⟨⟨t, among, body⟩, -⟩ := mem_solidLines_iff.mp member
    obtain rfl := List.mem_singleton.mp among
    change ((doc.sectionAt? l.number).bind Section.actorKind?).map _ = _
    rw [sectionAt?_of_mem_body here body, Option.bind_some]
  rw [List.filterMap_congr inside]
  cases s.actorKind? with
  | none => simp
  | some kind => simp

namespace Regrouped

variable (regrouped : doc.Regrouped f doc')

include regrouped

theorem solidLines_sectionsOf (kind : SectionKind) : List.Forall₂ (NumberedLine.Moved f)
    (doc.solidLines (doc.sectionsOf kind)) (doc'.solidLines (doc'.sectionsOf kind)) := by
  rw [sectionsOf, sectionsOf, solidLines_filter, solidLines_filter]
  refine List.rel_filter (fun l l' line => ?_) regrouped.contents
  have owner := regrouped.owners l.number
  dsimp only
  rw [line.number]
  generalize doc.sectionAt? l.number = s?, doc'.sectionAt? (f l.number) = s'? at owner
  cases owner with
  | none => rfl
  | some same => simp [same]

theorem actorLines : List.Forall₂ (ActorLine.Moved f) doc.actorLines doc'.actorLines := by
  rw [actorLines_eq, actorLines_eq]
  refine List.rel_filterMap (fun l l' line => ?_) regrouped.contents
  have owner := regrouped.owners l.number
  rw [line.number]
  generalize doc.sectionAt? l.number = s?, doc'.sectionAt? (f l.number) = s'? at owner
  cases owner with
  | none => exact .none
  | @some s s' same =>
    have kind : s'.actorKind? = s.actorKind? := by
      rw [Section.actorKind?, Section.actorKind?, same]
    rw [Option.bind_some, Option.bind_some, kind]
    cases s.actorKind? with
    | none => exact .none
    | some kind => exact .some ⟨rfl, line⟩

theorem checkGeneral : doc'.checkGeneral = doc.checkGeneral.map (Diagnostic.moved f) :=
  checkSettingsFrom_moved (regrouped.solidLines_sectionsOf .general) []

theorem checkHosts : doc'.checkHosts = doc.checkHosts.map (Diagnostic.moved f) :=
  checkHostsFrom_moved (regrouped.solidLines_sectionsOf .host) []

theorem checkEnv : doc'.checkEnv = doc.checkEnv.map (Diagnostic.moved f) :=
  checkVariables_moved (regrouped.solidLines_sectionsOf .env)

section Actors

theorem declared : doc'.actorLines.filterMap ActorLine.declaration? =
    (doc.actorLines.filterMap ActorLine.declaration?).map (Declaration.moved f) :=
  regrouped.actorLines.filterMap_eq_map fun _ _ line => line.declaration?

/-- The same names are declared. -/
theorem names : (doc'.actorLines.filterMap ActorLine.declaration?).map Declaration.name =
    (doc.actorLines.filterMap ActorLine.declaration?).map Declaration.name := by
  rw [regrouped.declared, List.map_map]
  rfl

theorem checkActors : doc'.checkActors = doc.checkActors.map (Diagnostic.moved f) := by
  have passes := checkDeclarationsFrom_moved regrouped.actorLines []
  rw [List.map_nil] at passes
  rw [Document.checkActors, Document.checkActors, List.map_append, passes, regrouped.names]
  congr 1
  rw [regrouped.declared, List.filter_map, List.flatMap_map, List.map_flatMap]
  exact List.flatMap_congr fun d _ => checkGroup_moved d.entry _

end Actors

/-- The warning about a missing `FINAL` rule moves with the header that it stands at, if there is one. -/
theorem checkRules : doc'.checkRules = doc.checkRules.map (doc.relocated f) := by
  have lines := regrouped.solidLines_sectionsOf .rule
  have pass := checkRulesFrom_moved lines (contains_actors_congr regrouped.names) none
  have final := lines.findSome?_eq_map fun _ _ line => line.final?
  have first : Option.Rel (Section.Moved f) (doc.sectionsOf .rule).head?
      (doc'.sectionsOf .rule).head? := by
    rw [sectionsOf, sectionsOf, List.head?_filter, List.head?_filter]
    exact regrouped.firsts .rule
  rw [Option.map_none] at pass
  rw [Document.checkRules, Document.checkRules, pass, final, Option.isSome_map]
  unfold missingFinalRange relocated hasSection
  generalize doc.sectionsOf .rule = sections, doc'.sectionsOf .rule = sections' at first
  cases sections with
  | nil =>
    cases sections' with
    | nil => rfl
    | cons => cases first
  | cons s rest =>
    cases sections' with
    | nil => cases first
    | cons s' rest' =>
      cases first with
      | some same =>
        simp only [List.isEmpty_cons, Bool.not_false, Bool.true_eq_false, and_false, if_false,
          List.map_append, same.nameRange]
        congr 1
        split <;> rfl

/-- Every validator but the one of the section structure reports what it did, moved. -/
theorem run {v : Validator} (other : v ≠ .sections) :
    v.run doc' = (v.run doc).map (doc.relocated f) := by
  have codes := codes_run v doc
  cases v with
  | sections => exact absurd rfl other
  | general => exact regrouped.checkGeneral.trans (map_relocated (by decide) codes).symm
  | hosts => exact regrouped.checkHosts.trans (map_relocated (by decide) codes).symm
  | actors => exact regrouped.checkActors.trans (map_relocated (by decide) codes).symm
  | rules => exact regrouped.checkRules
  | env => exact regrouped.checkEnv.trans (map_relocated (by decide) codes).symm

end Regrouped

end Document

end ProxyConfig
