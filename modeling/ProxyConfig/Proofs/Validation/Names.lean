import ProxyConfig.Validation.Actors
import ProxyConfig.Proofs.Validation.Errorless

/-! # The check of a name

A declaration is checked against all earlier ones, of both kinds. It is reported for its name once if
an earlier declaration has it, under a code that tells whether one of its own kind does.
-/

namespace ProxyConfig

/-- The code of a name that an earlier actor of the same kind has. -/
def ActorKind.duplicateCode : ActorKind → String
  | proxy => "LC202"
  | group => "LC204"

/-- The code of a name that only earlier actors of the other kind have. -/
def ActorKind.conflictCode : ActorKind → String
  | proxy => "LC203"
  | group => "LC205"

/-- An error under the code at the name of a declaration, with the name of an earlier one. -/
structure IsNameReport (code : String) (first d : Declaration) (c : Diagnostic) : Prop where
  severity : c.severity = .error
  code : c.code = some code
  range : c.range = d.nameRange
  related : c.related.map Related.range = [first.nameRange]

namespace Declaration

variable {earlier : List Declaration} {d : Declaration}

theorem firstAmong?_eq (d : Declaration) (kind : ActorKind) (earlier : List Declaration) :
    d.firstAmong? kind earlier = earlier.find? fun e => e.kind = kind ∧ e.name = d.name := by
  rw [firstAmong?]
  congr 1
  funext e
  rw [Bool.eq_iff_iff]
  simp

theorem firstAmong?_other (d : Declaration) (earlier : List Declaration) :
    d.firstAmong? d.kind.other earlier = earlier.find? fun e => e.kind ≠ d.kind ∧ e.name = d.name := by
  rw [firstAmong?_eq]
  congr 1
  funext e
  cases e.kind <;> cases d.kind <;> simp [ActorKind.other]

/-- A name of an earlier declaration is found in one of the kinds. -/
theorem mem_names_iff : d.name ∈ earlier.map name ↔
    (d.firstAmong? d.kind earlier).isSome = true ∨ (d.firstAmong? d.kind.other earlier).isSome = true := by
  rw [firstAmong?_eq, firstAmong?_other, List.find?_isSome, List.find?_isSome, List.mem_map]
  simp only [decide_eq_true_eq]
  constructor
  · rintro ⟨first, inside, same⟩
    by_cases kind : first.kind = d.kind
    · exact .inl ⟨first, inside, kind, same⟩
    · exact .inr ⟨first, inside, kind, same⟩
  · rintro (⟨first, inside, -, same⟩ | ⟨first, inside, -, same⟩) <;> exact ⟨first, inside, same⟩

end Declaration

section Names

variable {earlier : List Declaration} {d first : Declaration}

theorem isNameReport_withRelated {issue : Issue} {note : String} (bad : issue.severity = .error) :
    IsNameReport issue.code first d ((issue.on d.nameRange).withRelated first.nameRange note) :=
  ⟨bad, rfl, rfl, rfl⟩

/-- A name of an earlier declaration of the same kind is a duplicate of the first of those. -/
theorem checkName_of_same (found : d.firstAmong? d.kind earlier = some first) :
    ∃ c, checkName earlier d = [c] ∧ IsNameReport d.kind.duplicateCode first d c := by
  obtain ⟨code, bad⟩ : d.duplicateIssue.1.code = d.kind.duplicateCode ∧
      d.duplicateIssue.1.severity = .error := by
    rw [Declaration.duplicateIssue]
    cases d.kind <;> exact ⟨rfl, rfl⟩
  rw [checkName, found, ← code]
  exact ⟨_, rfl, isNameReport_withRelated bad⟩

/-- A name that only the other kind has conflicts with the first of those. -/
theorem checkName_of_other (fresh : d.firstAmong? d.kind earlier = none)
    (found : d.firstAmong? d.kind.other earlier = some first) :
    ∃ c, checkName earlier d = [c] ∧ IsNameReport d.kind.conflictCode first d c := by
  obtain ⟨code, bad⟩ : d.conflictIssue.1.code = d.kind.conflictCode ∧
      d.conflictIssue.1.severity = .error := by
    rw [Declaration.conflictIssue]
    cases d.kind <;> exact ⟨rfl, rfl⟩
  rw [checkName, fresh, found, ← code]
  exact ⟨_, rfl, isNameReport_withRelated bad⟩

/-- A declaration is reported for its name once, if an earlier one has it. -/
theorem checkName_cases (earlier : List Declaration) (d : Declaration) :
    (d.name ∉ earlier.map Declaration.name ∧ checkName earlier d = []) ∨
      d.name ∈ earlier.map Declaration.name ∧
        ∃ c code first, checkName earlier d = [c] ∧ IsNameReport code first d c := by
  rw [Declaration.mem_names_iff]
  cases same : d.firstAmong? d.kind earlier with
  | some first =>
    obtain ⟨c, single, report⟩ := checkName_of_same same
    exact .inr ⟨.inl rfl, c, _, first, single, report⟩
  | none =>
    cases other : d.firstAmong? d.kind.other earlier with
    | some first =>
      obtain ⟨c, single, report⟩ := checkName_of_other same other
      exact .inr ⟨.inr rfl, c, _, first, single, report⟩
    | none =>
      refine .inl ⟨by simp, ?_⟩
      rw [checkName, same, other]

theorem length_checkName (earlier : List Declaration) (d : Declaration) :
    (checkName earlier d).length = if d.name ∈ earlier.map Declaration.name then 1 else 0 := by
  obtain ⟨fresh, none⟩ | ⟨seen, c, _, _, single, -⟩ := checkName_cases earlier d
  · rw [none, if_neg fresh, List.length_nil]
  · rw [single, if_pos seen, List.length_singleton]

/-- A name is reported where it stands. -/
theorem mem_checkName {c : Diagnostic} (member : c ∈ checkName earlier d) :
    c.severity = .error ∧ c.range = d.nameRange := by
  obtain ⟨-, none⟩ | ⟨-, only, _, _, single, report⟩ := checkName_cases earlier d
  · rw [none] at member
    cases member
  · rw [single, List.mem_singleton] at member
    exact member ▸ ⟨report.severity, report.range⟩

end Names

/-- A name that passes the check was not declared before. -/
theorem fresh_of_checkName {earlier : List Declaration} {d : Declaration}
    (clean : Errorless (checkName earlier d)) : d.name ∉ earlier.map Declaration.name := by
  obtain ⟨fresh, -⟩ | ⟨-, c, _, _, single, report⟩ := checkName_cases earlier d
  · exact fresh
  · rw [single] at clean
    exact absurd report.severity clean.severity_ne

end ProxyConfig
