import ProxyConfig.Proofs.Validation.Codes
import ProxyConfig.Proofs.Validation.Names
import ProxyConfig.Proofs.Validation.Regrouped

/-! # Conflicts of names

Proxies and groups share their names, and the sections of both kinds may come in any order. A
declaration is reported for its name exactly if an earlier declaration has it, once, and the report
points back to the first one of the same kind or, without one, to the first one of the other kind. So
there are as many reports as there are declarations beyond the first ones of their names.
-/

namespace ProxyConfig

/-! ## Declarations in order -/

namespace Document

variable {doc : Document}

/-- The declarations of the proxy and group sections, in the order of the document. -/
def declared (doc : Document) : List Declaration :=
  doc.sections.flatMap fun s => s.actorKind?.toList.flatMap fun kind =>
    ((doc.body s).filterMap NumberedLine.entry?).map (Declaration.mk kind)

theorem filterMap_declaration?_actorLines (doc : Document) :
    doc.actorLines.filterMap ActorLine.declaration? = doc.declared := by
  rw [actorLines, List.filterMap_flatMap, declared]
  refine List.flatMap_congr fun s _ => ?_
  cases s.actorKind? with
  | none => rfl
  | some kind =>
    have entries := doc.filterMap_entry?_solidLines [s]
    rw [List.flatMap_singleton] at entries
    rw [Option.toList_some, List.flatMap_singleton, ← entries, List.map_filterMap, List.filterMap_map]
    rfl

/-- Declarations are on different lines. -/
theorem declared_pairwise (doc : Document) :
    doc.declared.Pairwise fun d d' => d.entry.line < d'.entry.line := by
  have line {l : NumberedLine} {d : Declaration} (read : (((doc.sectionAt? l.number).bind
      Section.actorKind?).map (ActorLine.mk · l)).bind ActorLine.declaration? = some d) :
      d.entry.line = l.number := by
    obtain ⟨⟨kind, m⟩, owned, declares⟩ := Option.bind_eq_some_iff.mp read
    obtain ⟨_, -, same⟩ := Option.map_eq_some_iff.mp owned
    cases same
    obtain ⟨e, found, rfl⟩ := Option.map_eq_some_iff.mp declares
    exact Entry.line_of_parse? found
  rw [← filterMap_declaration?_actorLines, actorLines_eq, List.filterMap_filterMap]
  refine List.Pairwise.filterMap _ ?_ ((solid_pairwise doc).filter _)
  intro l m before d here d' there
  rw [line here, line there]
  exact before

theorem nodup_nameRange (doc : Document) : (doc.declared.map Declaration.nameRange).Nodup := by
  rw [List.Nodup, List.pairwise_map]
  refine doc.declared_pairwise.imp fun before same => ?_
  exact Nat.ne_of_lt before (congrArg (fun range => range.start.line) same)

end Document

/-! ## Reports on names -/

/-- The codes of reports on names. -/
def nameCodes : List String := ["LC202", "LC203", "LC204", "LC205"]

/-- The reports on names in a report. -/
def nameReports (report : List Diagnostic) : List Diagnostic :=
  report.filter fun d => d.code.any nameCodes.contains

theorem nameReports_append (first second : List Diagnostic) :
    nameReports (first ++ second) = nameReports first ++ nameReports second := List.filter_append ..

theorem nameReports_eq_nil {codes : List String} {report : List Diagnostic} (within : CodesIn codes report)
    (foreign : ∀ code ∈ codes, code ∉ nameCodes) : nameReports report = [] := by
  refine List.filter_eq_nil_iff.mpr fun d member listed => ?_
  obtain ⟨code, own, same⟩ := within d member
  rw [same, Option.any_some, List.contains_iff_mem] at listed
  exact foreign code own listed

theorem nameReports_checkName (earlier : List Declaration) (d : Declaration) :
    nameReports (checkName earlier d) = checkName earlier d := by
  refine List.filter_eq_self.mpr fun c member => ?_
  obtain ⟨code, listed, same⟩ := codes_checkName earlier d c member
  rw [same, Option.any_some, List.contains_iff_mem]
  exact listed

/-- The declarations are reported for their names behind the earlier ones of both kinds, and nothing
else is. -/
theorem nameReports_validate (doc : Document) :
    nameReports doc.validate = doc.declared.withEarlier.flatMap fun p => checkName p.1 p.2 := by
  have own : nameReports doc.validate = nameReports doc.checkActors := by
    refine doc.filter_validate .actors fun v other => nameReports_eq_nil (codes_run v doc) ?_
    cases v with
    | actors => exact absurd rfl other
    | sections | general | hosts | rules | env => decide
  have groups (names : List Text) (ds : List Declaration) :
      nameReports (ds.flatMap fun d => checkGroup names d.entry) = [] :=
    nameReports_eq_nil (codesIn_flatMap fun d _ => codes_checkGroup names d.entry) (by decide)
  have each (p : List Declaration × Declaration) :
      nameReports (checkDeclaration p.1 p.2) = checkName p.1 p.2 := by
    rw [checkDeclaration, nameReports_append, nameReports_checkName]
    cases p.2.kind with
    | proxy => rw [nameReports_eq_nil (codes_checkProxy p.2.entry) (by decide), List.append_nil]
    | group => exact List.append_nil _
  rw [own, Document.checkActors, nameReports_append, groups, List.append_nil, checkDeclarationsFrom_eq,
    ← Document.filterMap_declaration?_actorLines]
  refine (Pass.filter_runFrom fun _ => rfl).trans (List.flatMap_congr fun p _ => ?_)
  exact each p

namespace Document

/-- The reports on names and the names themselves are as many as the declarations. -/
theorem length_nameReports (doc : Document) :
    (nameReports doc.validate).length + (doc.declared.map Declaration.name).dedup.length =
      doc.declared.length := by
  rw [nameReports_validate]
  refine List.length_seen_add_length_dedup (fun p seen => ?_) fun p fresh => ?_
  · rw [length_checkName, if_pos seen]
  · rw [List.eq_nil_iff_length_eq_zero, length_checkName, if_neg fresh]

/-- What is reported at the name of a declaration is the check of that name. -/
theorem filter_nameReports (doc : Document) {earlier later : List Declaration} {d : Declaration}
    (split : doc.declared = earlier ++ d :: later) :
    (nameReports doc.validate).filter (fun c => c.range = d.nameRange) = checkName earlier d := by
  have distinct := doc.nodup_nameRange
  rw [split] at distinct
  rw [nameReports_validate, split]
  exact List.filter_flatMap_withEarlier (fun p c member => (mem_checkName member).2) distinct

end Document

/-- A declaration of a proxy or a group has one error for its name if a declaration before it has the
name, and none otherwise, so these errors are as many as the declarations without one for each name. If
the name is that of an earlier actor of the same kind, it is a duplicate of the first of those; else it
conflicts with the first actor of the other kind. -/
theorem name_conflicts_accounted (s : Text) :
    let doc := Document.parse s
    let reports := nameReports doc.validate
    reports.length = doc.declared.length - (doc.declared.map Declaration.name).dedup.length ∧
    (∀ c ∈ reports, c.severity = .error ∧ ∃ d ∈ doc.declared, c.range = d.nameRange) ∧
    ∀ earlier d later, doc.declared = earlier ++ d :: later →
      let here := reports.filter fun c => c.range = d.nameRange
      let same? := earlier.find? fun e => e.kind = d.kind ∧ e.name = d.name
      let other? := earlier.find? fun e => e.kind ≠ d.kind ∧ e.name = d.name
      here.length = (if d.name ∈ earlier.map Declaration.name then 1 else 0) ∧
      (∀ first, same? = some first →
        ∃ c, here = [c] ∧ IsNameReport d.kind.duplicateCode first d c) ∧
      (same? = none → ∀ first, other? = some first →
        ∃ c, here = [c] ∧ IsNameReport d.kind.conflictCode first d c) := by
  intro doc reports
  have whole : reports = doc.declared.withEarlier.flatMap fun p => checkName p.1 p.2 :=
    nameReports_validate doc
  refine ⟨Nat.eq_sub_of_add_eq doc.length_nameReports, ?_, ?_⟩
  · intro c member
    rw [whole] at member
    obtain ⟨p, inside, found⟩ := List.mem_flatMap.mp member
    obtain ⟨later, split⟩ := List.mem_withEarlier_iff.mp inside
    obtain ⟨bad, place⟩ := mem_checkName found
    exact ⟨bad, p.2, split ▸ List.mem_append_right _ (List.mem_cons_self ..), place⟩
  · intro earlier d later split here same? other?
    have own : here = checkName earlier d := doc.filter_nameReports split
    have same : same? = d.firstAmong? d.kind earlier := (d.firstAmong?_eq d.kind earlier).symm
    have other : other? = d.firstAmong? d.kind.other earlier := (d.firstAmong?_other earlier).symm
    rw [own, same, other]
    exact ⟨length_checkName earlier d, fun first found => checkName_of_same found,
      fun fresh first found => checkName_of_other fresh found⟩

/-- A name that a proxy, a group and then a proxy again declare: the last is a duplicate of the first. -/
theorem name_conflicts_alternating :
    let s := "[Proxy]\na = direct\n[Proxy Group]\na = static, b\n[Proxy]\na = direct".toList
    let first : Declaration := ⟨.proxy, 2, ⟨"a".toList, 1⟩, ⟨"direct".toList, 5⟩⟩
    let second : Declaration := ⟨.group, 4, ⟨"a".toList, 1⟩, ⟨"static, b".toList, 5⟩⟩
    let third : Declaration := ⟨.proxy, 6, ⟨"a".toList, 1⟩, ⟨"direct".toList, 5⟩⟩
    (Document.parse s).declared = [first, second] ++ third :: [] ∧
      ∃ c, (nameReports (Document.parse s).validate).filter (fun c => c.range = third.nameRange) = [c] ∧
        IsNameReport "LC202" first third c := by
  intro s first second third
  have split : (Document.parse s).declared = [first, second] ++ third :: [] := by decide +kernel
  obtain ⟨-, -, accounted⟩ := name_conflicts_accounted s
  obtain ⟨-, duplicate, -⟩ := accounted [first, second] third [] split
  exact ⟨split, duplicate first (by decide +kernel)⟩

end ProxyConfig
