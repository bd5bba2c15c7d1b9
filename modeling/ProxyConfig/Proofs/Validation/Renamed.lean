import ProxyConfig.Proofs.Actor.Renamed
import ProxyConfig.Proofs.Validation.Verdict

/-! # Checking a renamed line

The validators compare names with names and read everything else as keywords or values. So a check
comes to the same verdict on a renamed line as on the line, if the names it is compared with are
renamed too: groups by the declared names, declarations by those before them, and rules by the
namespace and the first complete `FINAL` rule.
-/

namespace ProxyConfig

open Text

variable {old new : Text}

section Groups

variable {names names' : List Text}

theorem isEmpty_swap (solid : old ≠ []) (solidNew : new ≠ []) (t : Text) :
    (Equiv.swap old new t).isEmpty = t.isEmpty := by
  rw [Equiv.swap_apply_def]
  split
  · next same =>
    rw [same, List.isEmpty_eq_false_iff.mpr solid, List.isEmpty_eq_false_iff.mpr solidNew]
  · split
    · next same =>
      rw [same, List.isEmpty_eq_false_iff.mpr solid, List.isEmpty_eq_false_iff.mpr solidNew]
    · rfl

theorem verdicts_checkActor (solid : old ≠ []) (solidNew : new ≠ [])
    (declared : ∀ t, names'.contains (Equiv.swap old new t) = names.contains t) {a b : Span}
    (text : b.text = Equiv.swap old new a.text) (line : Nat) :
    verdicts (checkActor names' line b) = verdicts (checkActor names line a) := by
  have empty : b.isEmpty = a.isEmpty := by
    rw [Span.isEmpty, text, isEmpty_swap solid solidNew, Span.isEmpty]
  rw [checkActor, checkActor, empty, text, declared]
  split
  · rfl
  · split <;> rfl

theorem GroupProperty.eq_lastResort {key : GroupProperty} (kind : key.valueKind = .actor) :
    key = .lastResort := by
  cases key <;> first | rfl | cases kind

/-- A value of a group is looked up as a name under one key, and is the same under all others. -/
theorem verdicts_checkGroupValue
    (declared : ∀ t, names'.contains (Equiv.swap old new t) = names.contains t)
    {p q : Entry} (renamed : Entry.PropertyRenamed old new p q) {key : GroupProperty}
    (keyed : (Keyword.parse? p.key.text : Option GroupProperty) = some key) :
    verdicts (checkGroupValue names' key q) = verdicts (checkGroupValue names key p) := by
  have value := renamed.value
  rw [keyed] at value
  have kept (other : key ≠ .lastResort) : q.value.text = p.value.text := by
    rwa [if_neg fun same => other (Option.some.inj same)] at value
  rw [checkGroupValue, checkGroupValue, renamed.line]
  cases kind : key.valueKind with
  | actor =>
    rw [if_pos (congrArg some (GroupProperty.eq_lastResort kind))] at value
    dsimp only
    rw [value, declared]
    split
    · rfl
    · exact verdicts_issue rfl rfl renamed.line
  | boolean => exact Span.verdicts_checkBoolean (kept (by rintro rfl; cases kind)) p.line
  | integer => exact Span.verdicts_checkInteger (kept (by rintro rfl; cases kind)) p.line
  | method =>
    dsimp only
    rw [kept (by rintro rfl; cases kind)]
    split
    · rfl
    · exact verdicts_issue rfl rfl renamed.line
  | cipher | freeForm => rfl

/-- The type of a group is no property. -/
theorem isPlain_of_groupType {a : Span} {t : GroupType}
    (known : (Keyword.parse? a.text : Option GroupType) = some t) : a.isPlain = true :=
  Span.isPlain_of_parse? (fun k => by cases k <;> decide) known

/-- A group is judged by its type, by its properties and by whether its names are declared. -/
theorem verdicts_checkGroup (solid : old ≠ []) (solidNew : new ≠ [])
    (declared : ∀ t, names'.contains (Equiv.swap old new t) = names.contains t) {e f : Entry}
    (renamed : Entry.Renamed old new .group e f) :
    verdicts (checkGroup names' f) = verdicts (checkGroup names e) := by
  have type := renamed.type rfl
  have empty : f.arguments.first.isEmpty = e.arguments.first.isEmpty := congrArg List.isEmpty type
  have plain (a b : Span) (same : Span.Renamed old new e.line a b) : b.isPlain = a.isPlain := same.plain
  rw [checkGroup, checkGroup, empty, type]
  split
  · exact verdicts_issue rfl rfl renamed.line
  · split
    · exact verdicts_issue rfl rfl renamed.line
    · next t known =>
      have first := isPlain_of_groupType known
      have firstAfter : f.arguments.first.isPlain = true := isPlain_of_groupType (type ▸ known)
      have operands : List.Forall₂ (fun a b => b.text = Equiv.swap old new a.text)
          e.arguments.operands f.arguments.operands := by
        have selected := (renamed.others rfl).takeWhile plain
        rw [← Pieces.operands_of_isPlain first, ← Pieces.operands_of_isPlain firstAfter] at selected
        have members := (List.forall₂_and_left _ _).mpr
          ⟨fun a member => Pieces.isPlain_of_mem_operands member, selected⟩
        exact members.imp fun a b here => here.2.text (Span.property?_of_isPlain here.1)
      have properties : List.Forall₂ (fun a b => Option.Rel (Entry.PropertyRenamed old new)
          (a.property? e.line) (b.property? e.line)) e.arguments.properties f.arguments.properties := by
        rw [Pieces.properties_of_isPlain first, Pieces.properties_of_isPlain firstAfter]
        exact ((renamed.others rfl).dropWhile plain).imp fun a b same => same.property
      rw [verdicts_append, verdicts_append, renamed.line]
      congr 1
      · refine PropertyRules.verdicts_check (R := Entry.PropertyRenamed old new)
          (fun p q same => ⟨same.line, same.key⟩) ?_ renamed.line properties
        intro key p q a b same keyed
        rw [checkGroupProperty, checkGroupProperty, verdicts_append, verdicts_append,
          verdicts_checkGroupValue declared same keyed]
        congr 1
        split
        · exact verdicts_issue rfl rfl same.line
        · rfl
      · have none : f.arguments.operands.isEmpty = e.arguments.operands.isEmpty := by
          rw [Bool.eq_iff_iff, List.isEmpty_iff_length_eq_zero, List.isEmpty_iff_length_eq_zero,
            operands.length_eq]
        rw [checkActors, checkActors, none, renamed.line]
        split
        · exact verdicts_issue rfl rfl renamed.line
        · exact verdicts_flatMap operands fun a b text =>
            verdicts_checkActor solid solidNew declared text e.line

end Groups

section Declarations

/-- A declaration before and after a rename. -/
structure Declaration.Renamed (old new : Text) (d d' : Declaration) : Prop where
  kind : d'.kind = d.kind
  entry : Entry.Renamed old new d.kind d.entry d'.entry

/-- A line of an actor section before and after a rename. -/
structure ActorLine.Renamed (old new : Text) (l l' : ActorLine) : Prop where
  number : l'.line.number = l.line.number
  declaration : Option.Rel (Declaration.Renamed old new) l.declaration? l'.declaration?

variable {earlier earlier' : List Declaration}

theorem Declaration.Renamed.name {d d' : Declaration} (renamed : Declaration.Renamed old new d d') :
    d'.name = Equiv.swap old new d.name := renamed.entry.key

theorem map_name_renamed {ds ds' : List Declaration}
    (related : List.Forall₂ (Declaration.Renamed old new) ds ds') :
    ds'.map Declaration.name = (ds.map Declaration.name).map (Equiv.swap old new) := by
  induction related with
  | nil => rfl
  | cons here _ ih => rw [List.map_cons, List.map_cons, List.map_cons, ih, here.name]

/-- The first declaration of a name is the renamed one. -/
theorem Declaration.Renamed.firstAmong? {d d' : Declaration} (renamed : Declaration.Renamed old new d d')
    (before : List.Forall₂ (Declaration.Renamed old new) earlier earlier') (kind : ActorKind) :
    Option.Rel (Declaration.Renamed old new) (d.firstAmong? kind earlier)
      (d'.firstAmong? kind earlier') := by
  refine before.find? fun a b same => ?_
  rw [same.kind, same.name, renamed.name]
  congr 1
  rw [Bool.eq_iff_iff, beq_iff_eq, beq_iff_eq, EmbeddingLike.apply_eq_iff_eq]

theorem verdicts_checkName {d d' : Declaration} (renamed : Declaration.Renamed old new d d')
    (before : List.Forall₂ (Declaration.Renamed old new) earlier earlier') :
    verdicts (checkName earlier' d') = verdicts (checkName earlier d) := by
  have same := renamed.firstAmong? before d.kind
  have other := renamed.firstAmong? before d.kind.other
  have line : d'.nameRange.start.line = d.nameRange.start.line := renamed.entry.line
  rw [checkName, checkName, renamed.kind]
  generalize d.firstAmong? d.kind earlier = a?, d'.firstAmong? d.kind earlier' = b? at same
  generalize d.firstAmong? d.kind.other earlier = c?,
    d'.firstAmong? d.kind.other earlier' = e? at other
  cases same with
  | some first =>
    refine verdicts_singleton (Diagnostic.verdict_withRelated (Issue.verdict_on ?_ ?_ line)
      first.entry.line)
    · rw [Declaration.duplicateIssue, Declaration.duplicateIssue, renamed.kind]
      cases d.kind <;> rfl
    · rw [Declaration.duplicateIssue, Declaration.duplicateIssue, renamed.kind]
      cases d.kind <;> rfl
  | none =>
    cases other with
    | some first =>
      refine verdicts_singleton (Diagnostic.verdict_withRelated (Issue.verdict_on ?_ ?_ line)
        first.entry.line)
      · rw [Declaration.conflictIssue, Declaration.conflictIssue, renamed.kind]
        cases d.kind <;> rfl
      · rw [Declaration.conflictIssue, Declaration.conflictIssue, renamed.kind]
        cases d.kind <;> rfl
    | none => rfl

theorem verdicts_checkDeclaration {d d' : Declaration} (renamed : Declaration.Renamed old new d d')
    (before : List.Forall₂ (Declaration.Renamed old new) earlier earlier') :
    verdicts (checkDeclaration earlier' d') = verdicts (checkDeclaration earlier d) := by
  rw [checkDeclaration, checkDeclaration, verdicts_append, verdicts_append,
    verdicts_checkName renamed before, renamed.kind]
  congr 1
  cases kind : d.kind with
  | proxy => exact verdicts_checkProxy renamed.entry.line (renamed.entry.value kind)
  | group => rfl

/-- Each declaration is judged by those before it, so the verdicts on all lines agree if the lines do. -/
theorem verdicts_checkDeclarationsFrom {lines lines' : List ActorLine}
    (related : List.Forall₂ (ActorLine.Renamed old new) lines lines')
    (before : List.Forall₂ (Declaration.Renamed old new) earlier earlier') :
    verdicts (checkDeclarationsFrom earlier' lines') = verdicts (checkDeclarationsFrom earlier lines) := by
  induction related generalizing earlier earlier' with
  | nil => rfl
  | @cons l l' rest rest' here _ ih =>
    have declared := here.declaration
    rw [checkDeclarationsFrom, checkDeclarationsFrom]
    generalize l.declaration? = d?, l'.declaration? = d'? at declared
    cases declared with
    | none =>
      rw [verdicts_cons, verdicts_cons, ih before]
      congr 1
      exact Issue.verdict_on rfl rfl here.number
    | @some d d' renamed =>
      rw [verdicts_append, verdicts_append, verdicts_checkDeclaration renamed before]
      congr 1
      exact ih (List.rel_append before (.cons renamed .nil))

end Declarations

section Rules

variable {actors actors' : Namespace} {first? first'? : Option Range}

/-- A line of rules before and after a rename. -/
structure NumberedLine.RuleRenamed (old new : Text) (l l' : NumberedLine) : Prop where
  number : l'.number = l.number
  pieces : Pieces.Renamed old new l.pieces l'.pieces

/-- Two ranges on one line. -/
def Range.SameLine (r r' : Range) : Prop := r'.start.line = r.start.line

theorem Pieces.Renamed.length {p q : Pieces} (renamed : Pieces.Renamed old new p q) :
    q.others.length = p.others.length := by
  have lengths := congrArg List.length renamed.others
  rwa [List.length_map, List.length_modify, List.length_map] at lengths

theorem verdicts_checkTarget (declared : ∀ t, actors'.contains (Equiv.swap old new t) = actors.contains t)
    {a b : Span} (text : b.text = Equiv.swap old new a.text) (line : Nat) :
    verdicts (checkTarget actors' b line) = verdicts (checkTarget actors a line) := by
  rw [checkTarget, checkTarget, text, declared]
  split <;> rfl

theorem verdicts_checkFinal (first : Option.Rel Range.SameLine first? first'?) {here here' : Range}
    (line : here'.start.line = here.start.line) :
    verdicts (checkFinal first'? here') = verdicts (checkFinal first? here) := by
  cases first with
  | none => rfl
  | some same =>
    exact verdicts_singleton (Diagnostic.verdict_withRelated (Issue.verdict_on rfl rfl line) same)

/-- A rule is judged by its type, its number of pieces, its matcher and whether its target is
declared. -/
theorem verdicts_checkRule (declared : ∀ t, actors'.contains (Equiv.swap old new t) = actors.contains t)
    (first : Option.Rel Range.SameLine first? first'?) {l l' : NumberedLine}
    (renamed : NumberedLine.RuleRenamed old new l l') :
    verdicts (checkRule actors' first'? l') = verdicts (checkRule actors first? l) := by
  have type := renamed.pieces.first
  have texts := renamed.pieces.others
  have lengths := renamed.pieces.length
  have arity (type : RuleType) (n : Nat) : verdicts [l'.report (arityIssue type n)] =
      verdicts [l.report (arityIssue type n)] := verdicts_issue rfl rfl renamed.number
  rw [checkRule, checkRule, type]
  split
  · exact verdicts_issue rfl rfl renamed.number
  · next final =>
    rw [targetOffset, if_pos final] at texts
    split
    · next b others' =>
      obtain ⟨a, others⟩ := List.length_eq_one_iff.mp (lengths.symm.trans (congrArg _ others'))
      rw [others, others'] at texts
      have text : b.text = Equiv.swap old new a.text := (List.cons.inj texts).1
      rw [others, verdicts_append, verdicts_append, renamed.number,
        verdicts_checkTarget declared text]
      congr 1
      exact verdicts_checkFinal first rfl
    · next several =>
      split
      · next a others =>
        obtain ⟨b, others'⟩ := List.length_eq_one_iff.mp (lengths.trans (congrArg _ others))
        exact absurd others' (several b)
      · rw [lengths]
        exact arity .final _
  · next ruleType other known =>
    rw [targetOffset, if_neg fun final => other (Option.some.inj (known.symm.trans final))] at texts
    split
    · next m b others' =>
      obtain ⟨n, a, others⟩ := List.length_eq_two.mp (lengths.symm.trans (congrArg _ others'))
      rw [others, others'] at texts
      have matcher : m.text = n.text := (List.cons.inj texts).1
      have text : b.text = Equiv.swap old new a.text := (List.cons.inj (List.cons.inj texts).2).1
      rw [others, verdicts_append, verdicts_append, renamed.number,
        verdicts_checkMatcher ruleType matcher, verdicts_checkTarget declared text]
    · next several =>
      split
      · next n a others =>
        obtain ⟨m, b, others'⟩ := List.length_eq_two.mp (lengths.trans (congrArg _ others))
        exact absurd others' (several m b)
      · rw [lengths]
        exact arity ruleType _

theorem NumberedLine.RuleRenamed.final? {l l' : NumberedLine} (renamed : RuleRenamed old new l l') :
    Option.Rel Range.SameLine l.final? l'.final? := by
  have type := renamed.pieces.first
  have lengths := renamed.pieces.length
  rw [NumberedLine.final?, NumberedLine.final?, type]
  split
  · next a final others =>
    obtain ⟨b, others'⟩ := List.length_eq_one_iff.mp (lengths.trans (congrArg _ others))
    rw [final, others']
    exact .some renamed.number
  · next incomplete =>
    split
    · next b final others' =>
      obtain ⟨a, others⟩ := List.length_eq_one_iff.mp (lengths.symm.trans (congrArg _ others'))
      exact (incomplete a final others).elim
    · exact .none

/-- Each rule is judged by the first complete `FINAL` rule before it. -/
theorem verdicts_checkRulesFrom
    (declared : ∀ t, actors'.contains (Equiv.swap old new t) = actors.contains t)
    {lines lines' : List NumberedLine}
    (related : List.Forall₂ (NumberedLine.RuleRenamed old new) lines lines')
    (first : Option.Rel Range.SameLine first? first'?) :
    verdicts (checkRulesFrom actors' first'? lines') =
      verdicts (checkRulesFrom actors first? lines) := by
  induction related generalizing first? first'? with
  | nil => rfl
  | @cons l l' rest rest' here _ ih =>
    have next : Option.Rel Range.SameLine (first?.or l.final?) (first'?.or l'.final?) := by
      cases first with
      | none => exact here.final?
      | some same => exact .some same
    rw [checkRulesFrom, checkRulesFrom, verdicts_append, verdicts_append,
      verdicts_checkRule declared first here, ih next]

end Rules

end ProxyConfig
