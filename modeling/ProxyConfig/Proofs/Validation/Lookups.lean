import ProxyConfig.Proofs.Actor.Sites
import ProxyConfig.Proofs.Related
import ProxyConfig.Proofs.Validation.Codes
import ProxyConfig.Proofs.Validation.Lines
import Mathlib.Tactic.TFAE

/-! # Lookups of names

A name is looked up in the namespace of the document, by a search for its first declaration, and
among the names that the validator of actors collects on its way. All of them know the same names,
wherever they are declared, and so a reference is reported exactly if the search finds nothing.
-/

namespace ProxyConfig

open Text

namespace Entry

/-- The actors of a group that are looked up by name, if the type of the group is known. -/
def lookedUpActors (e : Entry) : List Span :=
  match (Keyword.parse? e.arguments.first.text : Option GroupType) with
  | none => []
  | some _ => e.arguments.operands.filter fun a => !a.isEmpty

/-- The last resorts of a group that are looked up by name, if the type of the group is known. -/
def lookedUpLastResorts (e : Entry) : List Span :=
  match (Keyword.parse? e.arguments.first.text : Option GroupType) with
  | none => []
  | some _ => e.arguments.properties.filterMap fun a => (a.property? e.line).bind lastResort?

end Entry

/-- The target of a rule that is looked up by name: that of a known type with all its arguments. -/
def NumberedLine.lookedUpTarget? (l : NumberedLine) : Option Span :=
  (Keyword.parse? l.pieces.first.text : Option RuleType).bind fun type =>
    if l.pieces.others.length = type.arity then l.pieces.piece? type.targetIndex else none

/-- A line without content has no target. -/
theorem NumberedLine.lookedUpTarget?_of_isEmpty {l : NumberedLine}
    (empty : l.content.isEmpty = true) : l.lookedUpTarget? = none := by
  have single : l.pieces.others = [] := by
    refine List.eq_nil_iff_forall_not_mem.mpr fun a member => ?_
    rw [solid_of_others member] at empty
    cases empty
  rw [lookedUpTarget?, single]
  cases (Keyword.parse? l.pieces.first.text : Option RuleType) with
  | none => rfl
  | some type => cases type <;> rfl

section Reports

/-- The report on looked up names: one issue at each that is not known. -/
def unresolved (issue : Text → Issue) (known : Text → Bool) (line : Nat) (looked : List Span) :
    List Diagnostic :=
  (looked.filter fun a => !known a.text).map fun a => (issue a.text).on (a.range line)

variable {issue : Text → Issue} {known : Text → Bool} {line : Nat}

theorem unresolved_cons (a : Span) (rest : List Span) :
    unresolved issue known line (a :: rest) =
      (if known a.text then [] else [(issue a.text).on (a.range line)])
        ++ unresolved issue known line rest := by
  rw [unresolved, List.filter_cons]
  cases known a.text <;> rfl

theorem mem_unresolved_iff {d : Diagnostic} {looked : List Span} :
    d ∈ unresolved issue known line looked ↔
      ∃ a ∈ looked, known a.text = false ∧ (issue a.text).on (a.range line) = d := by
  simp only [unresolved, List.mem_map, List.mem_filter, Bool.not_eq_true', and_assoc]

end Reports

section Groups

variable {names : List Text} {e : Entry}

theorem coded_checkActors (actors : List Span) :
    coded "LC308" (checkActors names e actors) =
      unresolved .unresolvedActor names.contains e.line (actors.filter fun a => !a.isEmpty) := by
  have each : coded "LC308" (actors.flatMap (checkActor names e.line)) =
      unresolved .unresolvedActor names.contains e.line (actors.filter fun a => !a.isEmpty) := by
    induction actors with
    | nil => rfl
    | cons a rest ih =>
      rw [List.flatMap_cons, coded_append, ih, checkActor, List.filter_cons]
      cases a.isEmpty with
      | true => rfl
      | false =>
        rw [if_neg Bool.false_ne_true, Bool.not_false, if_pos rfl, unresolved_cons]
        congr 1
        split
        · rfl
        · exact coded_singleton rfl
  rw [checkActors]
  split
  · next none =>
    rw [List.isEmpty_iff.mp none]
    rfl
  · exact each

/-- Only the value of a last resort is looked up. -/
theorem coded_checkGroupProperty (t : GroupType) (key : GroupProperty) (property : Entry)
    (argument : Span) :
    coded "LC309" (checkGroupProperty t names key property argument) =
      if key = .lastResort then
        unresolved .unresolvedLastResort names.contains property.line [property.value]
      else [] := by
  have warning : coded "LC309" (if key = .failover ∧ t = .urlTest then
      [Issue.failoverInUrlTest.on (argument.range property.line)] else []) = [] := by
    split <;> rfl
  rw [checkGroupProperty, coded_append, warning, List.nil_append, checkGroupValue]
  by_cases resort : key = .lastResort
  · rw [resort, if_pos rfl, unresolved_cons]
    dsimp only [GroupProperty.valueKind]
    split
    · rfl
    · exact coded_singleton rfl
  · rw [if_neg resort]
    cases key with
    | lastResort => exact absurd rfl resort
    | failover | healthCheck | fallbackCache =>
      exact coded_eq_nil (codes_checkBoolean _ _) (by decide)
    | checkInterval | failTimeout | cacheSize | cacheTimeout | healthCheckTimeout
    | healthCheckDelay | healthCheckActive | delayBase =>
      exact coded_eq_nil (codes_checkInteger _ _) (by decide)
    | method =>
      dsimp only [GroupProperty.valueKind]
      split <;> rfl

/-- A group of no known type is reported for that alone. -/
theorem checkGroup_cases (names : List Text) (e : Entry) :
    ((Keyword.parse? e.arguments.first.text : Option GroupType) = none ∧
      CodesIn ["LC301", "LC302", "LC303"] (checkGroup names e)) ∨
    ∃ t, (Keyword.parse? e.arguments.first.text : Option GroupType) = some t ∧
      checkGroup names e = t.rules.check e.line e.valueRange (checkGroupProperty t names)
        e.arguments.properties ++ checkActors names e e.arguments.operands := by
  by_cases empty : e.arguments.first.isEmpty = true
  · refine .inl ⟨by rw [List.isEmpty_iff.mp empty]; rfl, ?_⟩
    rw [checkGroup, if_pos empty]
    simp [Issue.code]
  · rw [checkGroup, if_neg empty]
    cases (Keyword.parse? e.arguments.first.text : Option GroupType) with
    | some t => exact .inr ⟨t, rfl, rfl⟩
    | none =>
      refine .inl ⟨rfl, ?_⟩
      dsimp only
      rw [unknownGroupType]
      split <;> simp [Issue.code]

/-- A group reports each of its actors that is not known. -/
theorem coded_unresolvedActor :
    coded "LC308" (checkGroup names e) =
      unresolved .unresolvedActor names.contains e.line e.lookedUpActors := by
  rw [Entry.lookedUpActors]
  obtain ⟨unknown, own⟩ | ⟨t, known, whole⟩ := checkGroup_cases names e
  · rw [unknown, coded_eq_nil own (by decide)]
    rfl
  · have properties : coded "LC308" (t.rules.check e.line e.valueRange (checkGroupProperty t names)
        e.arguments.properties) = [] := by
      rw [PropertyRules.coded_check _ (by decide : "LC308" ∉ groupPropertyCodes.toList)]
      refine List.flatMap_eq_nil_iff.mpr fun (key, property, argument) _ => ?_
      exact coded_eq_nil (codes_checkGroupProperty t names key property argument) (by decide)
    rw [known, whole, coded_append, properties, List.nil_append, coded_checkActors]

/-- A group reports each of its last resorts that is not known. -/
theorem coded_unresolvedLastResort :
    coded "LC309" (checkGroup names e) =
      unresolved .unresolvedLastResort names.contains e.line e.lookedUpLastResorts := by
  rw [Entry.lookedUpLastResorts]
  obtain ⟨unknown, own⟩ | ⟨t, known, whole⟩ := checkGroup_cases names e
  · rw [unknown, coded_eq_nil own (by decide)]
    rfl
  · have actors : coded "LC309" (checkActors names e e.arguments.operands) = [] :=
      coded_eq_nil (codes_checkActors names e _) (by decide)
    rw [known, whole, coded_append, actors, List.append_nil,
      PropertyRules.coded_check _ (by decide : "LC309" ∉ groupPropertyCodes.toList)]
    induction e.arguments.properties with
    | nil => rfl
    | cons a rest ih =>
      rw [List.filterMap_cons, List.filterMap_cons, Span.known?]
      cases read : a.property? e.line with
      | none => exact ih
      | some property =>
        rw [Option.bind_some, Option.bind_some, Entry.lastResort?]
        cases (Keyword.parse? property.key.text : Option GroupProperty) with
        | none =>
          rw [if_neg (Option.some_ne_none _).symm]
          exact ih
        | some key =>
          dsimp only [Option.map_some]
          rw [List.flatMap_cons, coded_checkGroupProperty, ih, Entry.line_of_parse? read]
          by_cases resort : key = .lastResort
          · rw [if_pos resort, if_pos (congrArg some resort), unresolved_cons, unresolved_cons]
            rw [List.append_assoc]
            rfl
          · rw [if_neg resort, if_neg fun same => resort (Option.some.inj same)]
            rfl

end Groups

section Rules

variable {actors : Namespace}

theorem coded_checkTarget (target : Span) (line : Nat) :
    coded "LC411" (checkTarget actors target line) =
      unresolved .undefinedTarget actors.contains line [target] := by
  rw [checkTarget, unresolved_cons]
  split
  · rfl
  · exact coded_singleton rfl

theorem coded_arity (l : NumberedLine) (type : RuleType) (found : Nat) :
    coded "LC411" [l.report (arityIssue type found)] = [] := by
  rw [arityIssue]
  split <;> rfl

/-- A rule reports its target if that is not known. -/
theorem coded_checkRule (first? : Option Range) (l : NumberedLine) :
    coded "LC411" (checkRule actors first? l) =
      unresolved .undefinedTarget actors.contains l.number l.lookedUpTarget?.toList := by
  rw [checkRule, NumberedLine.lookedUpTarget?]
  split
  · next unknown =>
    rw [unknown]
    rfl
  · next final =>
    rw [final, Option.bind_some]
    split
    · next target others =>
      have earlier : coded "LC411" (checkFinal first? (l.pieces.first.range l.number)) = [] := by
        cases first? <;> rfl
      have last : l.pieces.piece? RuleType.final.targetIndex = some target := by
        simp [Pieces.piece?, Pieces.toList, RuleType.targetIndex, RuleType.arity, others]
      rw [coded_append, earlier, List.nil_append, coded_checkTarget, last, others]
      rfl
    · next others incomplete =>
      have short : l.pieces.others.length ≠ RuleType.final.arity := by
        intro single
        obtain ⟨target, only⟩ := List.length_eq_one_iff.mp single
        exact incomplete target only
      rw [coded_arity, if_neg short]
      rfl
  · next type other known =>
    have two : type.arity = 2 := by
      cases type with
      | final => exact absurd rfl other
      | ipCidr | domain | domainSuffix | domainKeyword | geoIp | external | portRange | network
      | inboundTag => rfl
    rw [known, Option.bind_some]
    split
    · next matcher target others =>
      have earlier : coded "LC411" (checkMatcher type matcher l.number) = [] :=
        coded_eq_nil (codes_checkMatcher type matcher l.number) (by decide)
      have last : l.pieces.piece? type.targetIndex = some target := by
        simp [Pieces.piece?, Pieces.toList, RuleType.targetIndex, two, others]
      rw [coded_append, earlier, List.nil_append, coded_checkTarget, last, others, two]
      rfl
    · next others incomplete =>
      have short : l.pieces.others.length ≠ type.arity := by
        rw [two]
        intro pair
        obtain ⟨matcher, target, both⟩ := List.length_eq_two.mp pair
        exact incomplete matcher target both
      rw [coded_arity, if_neg short]
      rfl

/-- The rules report their targets that are not known, line by line. -/
theorem coded_checkRulesFrom (first? : Option Range) (lines : List NumberedLine) :
    coded "LC411" (checkRulesFrom actors first? lines) = lines.flatMap fun l =>
      unresolved .undefinedTarget actors.contains l.number l.lookedUpTarget?.toList := by
  induction lines generalizing first? with
  | nil => rfl
  | cons l rest ih => rw [checkRulesFrom, coded_append, coded_checkRule, ih, List.flatMap_cons]

end Rules

namespace Document

variable {doc : Document} {name : Text}

section Names

/-- Whether the search finds a declaration of the name. -/
def declares (doc : Document) (name : Text) : Bool := (doc.declaration? name).isSome

/-- The rules look names up in the namespace. -/
theorem contains_actors (doc : Document) : doc.actors.contains = doc.declares := by
  funext name
  rw [Bool.eq_iff_iff, Namespace.contains_iff, declares, isSome_declaration?_iff]

/-- The groups look names up among those that the validator has collected. -/
theorem contains_declared (doc : Document) :
    ((doc.actorLines.filterMap ActorLine.declaration?).map Declaration.name).contains =
      doc.declares := by
  funext name
  rw [Bool.eq_iff_iff, List.contains_iff_mem, (names_actorLines_perm doc).mem_iff, declares,
    isSome_declaration?_iff]

/-- A name is declared by the entries that have it as their key, in any section of actors. -/
theorem exists_entry_iff :
    name ∈ doc.actors.declarations.map Declaration.name ↔
      ∃ s ∈ doc.sections, s.actorKind?.isSome = true ∧ ∃ l ∈ doc.body s, ∃ e,
        Entry.ofLine? l.number l.text = some e ∧ e.key.text = name := by
  have either (s : Section) : s.actorKind?.isSome = true ↔
      (s.kind? == some .proxy) = true ∨ (s.kind? == some .proxyGroup) = true := by
    rw [Section.actorKind?]
    cases s.kind? with
    | none => simp
    | some kind => cases kind <;> simp
  rw [map_name_actors, List.mem_map]
  simp only [List.mem_append, entries, linesOf, sectionsOf, List.mem_filterMap, List.mem_flatMap,
    List.mem_filter, either]
  constructor
  · rintro ⟨e, ⟨l, ⟨s, ⟨here, kind⟩, inside⟩, read⟩ | ⟨l, ⟨s, ⟨here, kind⟩, inside⟩, read⟩, same⟩
    · exact ⟨s, here, .inl kind, l, inside, e, read, same⟩
    · exact ⟨s, here, .inr kind, l, inside, e, read, same⟩
  · rintro ⟨s, here, kind | kind, l, inside, e, read, same⟩
    · exact ⟨e, .inl ⟨l, ⟨s, ⟨here, kind⟩, inside⟩, read⟩, same⟩
    · exact ⟨e, .inr ⟨l, ⟨s, ⟨here, kind⟩, inside⟩, read⟩, same⟩

end Names

section Census

/-- The groups report under a code of their own what they look up and the search does not find. -/
theorem coded_groups (doc : Document) {code : String} {issue : Text → Issue}
    {lookedUp : Entry → List Span} (own : ∀ other, code ∈ Validator.codes other → other = .actors)
    (foreign : code ∉ declarationCodes)
    (each : ∀ names e, coded code (checkGroup names e) =
      unresolved issue names.contains e.line (lookedUp e))
    (agrees : ∀ e f, e.Agrees f → lookedUp f = lookedUp e) :
    coded code doc.validate = (doc.entries .proxyGroup).flatMap fun e =>
      unresolved issue doc.declares e.line (lookedUp e) := by
  have groups := (agrees_declared doc .group).flatMap_eq
    (f := fun e => unresolved issue doc.declares e.line (lookedUp e))
    (g := fun e => unresolved issue doc.declares e.line (lookedUp e)) fun e f same => by
      rw [agrees e f same, same.line]
  rw [coded_validate .actors own, Validator.run, checkActors, coded_append,
    coded_eq_nil (codes_checkDeclarationsFrom _ _) foreign, List.nil_append, coded_flatMap]
  simp only [each, contains_declared]
  rw [List.flatMap_map] at groups
  exact groups.symm

theorem coded_actors (doc : Document) :
    coded "LC308" doc.validate = (doc.entries .proxyGroup).flatMap fun e =>
      unresolved .unresolvedActor doc.declares e.line e.lookedUpActors := by
  refine coded_groups doc ?_ (by decide) (fun _ _ => coded_unresolvedActor) fun e f same => ?_
  · intro other
    cases other <;> decide
  · rw [Entry.lookedUpActors, Entry.lookedUpActors, Entry.arguments, Entry.arguments, same.value]

theorem coded_lastResorts (doc : Document) :
    coded "LC309" doc.validate = (doc.entries .proxyGroup).flatMap fun e =>
      unresolved .unresolvedLastResort doc.declares e.line e.lookedUpLastResorts := by
  refine coded_groups doc ?_ (by decide) (fun _ _ => coded_unresolvedLastResort) fun e f same => ?_
  · intro other
    cases other <;> decide
  · rw [Entry.lookedUpLastResorts, Entry.lookedUpLastResorts, Entry.arguments, Entry.arguments,
      same.value, same.line]

theorem coded_targets (doc : Document) :
    coded "LC411" doc.validate = (doc.linesOf .rule).flatMap fun l =>
      unresolved .undefinedTarget doc.declares l.number l.lookedUpTarget?.toList := by
  have own (other : Validator) : "LC411" ∈ other.codes → other = .rules := by
    cases other <;> decide
  have ending (range : Range) (found : Bool) :
      coded "LC411" (if found then [] else [Issue.missingFinal.on range]) = [] := by
    cases found <;> rfl
  rw [coded_validate .rules own, Validator.run, checkRules, coded_append, ending, List.append_nil,
    coded_checkRulesFrom, contains_actors]
  refine flatMap_solidLines _ fun l empty => ?_
  rw [NumberedLine.lookedUpTarget?_of_isEmpty empty]
  rfl

end Census

section Places

/-- The lines of one kind have different numbers. -/
theorem eq_of_mem_linesOf {kind : SectionKind} {l m : NumberedLine} (here : l ∈ doc.linesOf kind)
    (there : m ∈ doc.linesOf kind) (same : l.number = m.number) : l = m := by
  obtain ⟨s, left, inside⟩ := List.mem_flatMap.mp here
  obtain ⟨t, right, inside'⟩ := List.mem_flatMap.mp there
  exact (eq_of_mem_body (List.mem_filter.mp left).1 (List.mem_filter.mp right).1 inside inside'
    same).2

/-- The entries of one kind are on different lines. -/
theorem eq_of_mem_entries {kind : SectionKind} {e f : Entry} (here : e ∈ doc.entries kind)
    (there : f ∈ doc.entries kind) (same : e.line = f.line) : e = f := by
  obtain ⟨l, left, read⟩ := List.mem_filterMap.mp here
  obtain ⟨m, right, read'⟩ := List.mem_filterMap.mp there
  rw [Entry.line_of_parse? read, Entry.line_of_parse? read'] at same
  rw [eq_of_mem_linesOf left right same] at read
  exact Option.some.inj (read.symm.trans read')

end Places

end Document

namespace Entry

variable {e : Entry} {a b : Span}

/-- Two arguments are one, or one ends before the other starts. -/
theorem arguments_apart (here : a ∈ e.arguments.toList) (there : b ∈ e.arguments.toList) :
    a = b ∨ a.endColumn < b.column ∨ b.endColumn < a.column :=
  e.arguments_pairwise.apart here there

theorem eq_of_mem_lookedUpActors (here : a ∈ e.lookedUpActors) (there : b ∈ e.lookedUpActors)
    (same : a.column = b.column) : a = b := by
  have inside {c : Span} (member : c ∈ e.lookedUpActors) : c ∈ e.arguments.toList := by
    rw [lookedUpActors] at member
    split at member
    · cases member
    · have operand := List.mem_of_mem_tail (List.mem_filter.mp member).1
      exact (List.takeWhile_sublist _).subset operand
  rcases arguments_apart (inside here) (inside there) with equal | before | after
  · exact equal
  · rw [Span.endColumn] at before
    omega
  · rw [Span.endColumn] at after
    omega

/-- A last resort stands in an argument of its own. -/
theorem exists_argument_of_mem_lookedUpLastResorts (member : a ∈ e.lookedUpLastResorts) :
    ∃ argument ∈ e.arguments.toList, ∃ property, argument.property? e.line = some property ∧
      property.value = a := by
  rw [lookedUpLastResorts] at member
  split at member
  · cases member
  · obtain ⟨argument, inside, found⟩ := List.mem_filterMap.mp member
    obtain ⟨property, read, resort⟩ := Option.bind_eq_some_iff.mp found
    rw [lastResort?, Option.ite_none_right_eq_some] at resort
    exact ⟨argument, (List.dropWhile_sublist _).subset inside, property, read, Option.some.inj resort.2⟩

theorem eq_of_mem_lookedUpLastResorts (here : a ∈ e.lookedUpLastResorts)
    (there : b ∈ e.lookedUpLastResorts) (same : a.column = b.column) : a = b := by
  obtain ⟨c, inside, p, read, rfl⟩ := exists_argument_of_mem_lookedUpLastResorts here
  obtain ⟨d, inside', q, read', rfl⟩ := exists_argument_of_mem_lookedUpLastResorts there
  have left := value_inside_of_parse? read
  have right := value_inside_of_parse? read'
  rw [Span.endColumn] at left right
  rcases arguments_apart inside inside' with equal | before | after
  · rw [equal] at read
    rw [Option.some.inj (read.symm.trans read')]
  · rw [Span.endColumn, Span.length] at before
    omega
  · rw [Span.endColumn, Span.length] at after
    omega

end Entry

section Reports

/-- Whether a report has a diagnostic under the code at the range. -/
def Reports (report : List Diagnostic) (code : String) (range : Range) : Prop :=
  ∃ d ∈ report, d.code = some code ∧ d.range = range

/-- Where looked up names are told apart by their places, each is reported by itself. -/
theorem reports_iff {α : Type} {report : List Diagnostic} {code : String} {items : List α}
    {issue : Text → Issue} {known : Text → Bool} {line : α → Nat} {lookedUp : α → List Span}
    (census : coded code report = items.flatMap fun i => unresolved issue known (line i) (lookedUp i))
    (lines : ∀ i ∈ items, ∀ j ∈ items, line i = line j → i = j)
    (columns : ∀ i, ∀ a ∈ lookedUp i, ∀ b ∈ lookedUp i, a.column = b.column → a = b)
    {i : α} (here : i ∈ items) {a : Span} (inside : a ∈ lookedUp i) :
    Reports report code (a.range (line i)) ↔ known a.text = false := by
  have found (range : Range) : Reports report code range ↔
      ∃ d ∈ coded code report, d.range = range := by
    simp only [Reports, coded, List.mem_filter, beq_iff_eq, and_assoc]
  rw [found, census]
  constructor
  · rintro ⟨d, member, place⟩
    obtain ⟨j, there, reported⟩ := List.mem_flatMap.mp member
    obtain ⟨b, inside', unknown, rfl⟩ := mem_unresolved_iff.mp reported
    obtain ⟨sameLine, sameColumn⟩ : line j = line i ∧ b.column = a.column :=
      Position.mk.inj (congrArg Range.start place)
    rw [lines j there i here sameLine] at inside'
    rwa [columns i b inside' a inside sameColumn] at unknown
  · intro unknown
    refine ⟨(issue a.text).on (a.range (line i)), ?_, rfl⟩
    exact List.mem_flatMap.mpr ⟨i, here, mem_unresolved_iff.mpr ⟨a, inside, unknown, rfl⟩⟩

end Reports

namespace Document

variable {doc : Document}

theorem declares_eq_false_iff {name : Text} :
    doc.declares name = false ↔ doc.declaration? name = none := by
  rw [declares, Option.isSome_eq_false_iff, Option.isNone_iff_eq_none]

/-- An actor of a group is reported exactly if it is declared nowhere. -/
theorem reports_actor_iff {e : Entry} (here : e ∈ doc.entries .proxyGroup) {t : GroupType}
    (known : Keyword.parse? e.arguments.first.text = some t) {a : Span}
    (inside : a ∈ e.arguments.operands) (named : a.text ≠ []) :
    Reports doc.validate "LC308" (a.range e.line) ↔ doc.declaration? a.text = none := by
  have lookedUp : a ∈ e.lookedUpActors := by
    rw [Entry.lookedUpActors, known]
    refine List.mem_filter.mpr ⟨inside, ?_⟩
    rwa [Span.isEmpty, Bool.not_eq_true', ← Bool.not_eq_true, List.isEmpty_iff]
  rw [← declares_eq_false_iff]
  exact reports_iff doc.coded_actors (fun _ left _ right => eq_of_mem_entries left right)
    (fun _ _ left _ right => Entry.eq_of_mem_lookedUpActors left right) here lookedUp

/-- A last resort of a group is reported exactly if it is declared nowhere. -/
theorem reports_lastResort_iff {e : Entry} (here : e ∈ doc.entries .proxyGroup) {t : GroupType}
    (known : Keyword.parse? e.arguments.first.text = some t) {a : Span}
    (inside : a ∈ e.arguments.others) {p : Entry} (read : a.property? e.line = some p)
    {value : Span} (resort : p.lastResort? = some value) :
    Reports doc.validate "LC309" (value.range e.line) ↔ doc.declaration? value.text = none := by
  have lookedUp : value ∈ e.lookedUpLastResorts := by
    rw [Entry.lookedUpLastResorts, known]
    refine List.mem_filterMap.mpr ⟨a, ?_, Option.bind_eq_some_iff.mpr ⟨p, read, resort⟩⟩
    rcases Pieces.mem_operands_or_properties inside with operand | property
    · rw [Span.property?_of_isPlain (Pieces.isPlain_of_mem_operands operand)] at read
      cases read
    · exact property
  rw [← declares_eq_false_iff]
  exact reports_iff doc.coded_lastResorts (fun _ left _ right => eq_of_mem_entries left right)
    (fun _ _ left _ right => Entry.eq_of_mem_lookedUpLastResorts left right) here lookedUp

/-- The target of a complete rule is reported exactly if it is declared nowhere. -/
theorem reports_target_iff {l : NumberedLine} (here : l ∈ doc.linesOf .rule) {type : RuleType}
    (known : Keyword.parse? l.pieces.first.text = some type)
    (complete : l.pieces.others.length = type.arity) {target : Span}
    (last : l.pieces.piece? type.targetIndex = some target) :
    Reports doc.validate "LC411" (target.range l.number) ↔ doc.declaration? target.text = none := by
  have lookedUp : target ∈ l.lookedUpTarget?.toList := by
    rw [NumberedLine.lookedUpTarget?, known, Option.bind_some, if_pos complete, last]
    exact List.mem_singleton_self target
  rw [← declares_eq_false_iff]
  refine reports_iff doc.coded_targets (fun _ left _ right => eq_of_mem_linesOf left right) ?_ here
    lookedUp
  intro m a left b right _
  rw [Option.mem_toList] at left right
  exact Option.some.inj (left.symm.trans right)

/-- All lookups of a name agree, wherever it is declared: it is in the namespace, the namespace and
the search have a declaration of it, the validator of actors collects it, and it is the key of an
entry in some section of actors. An actor of a group, a last resort and the target of a complete rule
are reported exactly if the search finds no declaration. -/
theorem lookups_agree (doc : Document) :
    (∀ name, [doc.actors.contains name = true,
      (doc.actors.get? name).isSome = true,
      (doc.declaration? name).isSome = true,
      name ∈ (doc.actorLines.filterMap ActorLine.declaration?).map Declaration.name,
      ∃ s ∈ doc.sections, s.actorKind?.isSome = true ∧ ∃ l ∈ doc.body s, ∃ e,
        Entry.ofLine? l.number l.text = some e ∧ e.key.text = name].TFAE ∧
      doc.actors.get? name = doc.declaration? name) ∧
    (∀ e ∈ doc.entries .proxyGroup, ∀ t : GroupType,
      Keyword.parse? e.arguments.first.text = some t →
        (∀ a ∈ e.arguments.operands, a.text ≠ [] →
          (Reports doc.validate "LC308" (a.range e.line) ↔ doc.declaration? a.text = none)) ∧
        ∀ a ∈ e.arguments.others, ∀ p, a.property? e.line = some p →
          ∀ value, p.lastResort? = some value →
            (Reports doc.validate "LC309" (value.range e.line) ↔
              doc.declaration? value.text = none)) ∧
    ∀ l ∈ doc.linesOf .rule, ∀ type : RuleType,
      Keyword.parse? l.pieces.first.text = some type → l.pieces.others.length = type.arity →
        ∃ target, l.pieces.piece? type.targetIndex = some target ∧
          (Reports doc.validate "LC411" (target.range l.number) ↔
            doc.declaration? target.text = none) := by
  refine ⟨?_, ?_, ?_⟩
  · intro name
    refine ⟨?_, get?_actors doc name⟩
    rw [get?_actors]
    tfae_have 1 ↔ 3 := by rw [Namespace.contains_iff, isSome_declaration?_iff]
    tfae_have 2 ↔ 3 := Iff.rfl
    tfae_have 4 ↔ 3 := by rw [(names_actorLines_perm doc).mem_iff, isSome_declaration?_iff]
    tfae_have 3 ↔ 5 := by rw [isSome_declaration?_iff, exists_entry_iff]
    tfae_finish
  · intro e here t known
    constructor
    · intro a inside named
      exact reports_actor_iff here known inside named
    · intro a inside p read value resort
      exact reports_lastResort_iff here known inside read resort
  · intro l here type known complete
    have bound : type.targetIndex < l.pieces.toList.length := by
      rw [Pieces.toList, List.length_cons, complete]
      exact Nat.lt_succ_self _
    refine ⟨l.pieces.toList[type.targetIndex], List.getElem?_eq_getElem bound, ?_⟩
    exact reports_target_iff here known complete (List.getElem?_eq_getElem bound)

/-- An actor that is declared further down, one that is not, and a target of the same kind. -/
theorem lookups_agree_forward :
    let doc := Document.parse
      "[Rule]\nFINAL, b\n[Proxy Group]\ng = failover, a, b, last-resort=c\n[Proxy]\na = direct".toList
    ¬ Reports doc.validate "LC308" (.onLine 4 15 1) ∧ Reports doc.validate "LC308" (.onLine 4 18 1) ∧
      Reports doc.validate "LC309" (.onLine 4 33 1) ∧ Reports doc.validate "LC411" (.onLine 2 8 1) := by
  intro doc
  obtain ⟨names, groups, rules⟩ := lookups_agree doc
  let e : Entry := ⟨4, ⟨"g".toList, 1⟩, ⟨"failover, a, b, last-resort=c".toList, 5⟩⟩
  have here : e ∈ doc.entries .proxyGroup := by decide +kernel
  obtain ⟨actors, resorts⟩ := groups e here .failover (by decide +kernel)
  have declared : doc.declaration? "a".toList ≠ none := by decide +kernel
  have unknown : doc.declaration? "b".toList = none := by decide +kernel
  have noResort : doc.declaration? "c".toList = none := by decide +kernel
  refine ⟨?_, ?_, ?_, ?_⟩
  · intro reported
    have inside : ⟨"a".toList, 15⟩ ∈ e.arguments.operands := by decide +kernel
    exact declared ((actors _ inside (by decide)).mp reported)
  · have inside : ⟨"b".toList, 18⟩ ∈ e.arguments.operands := by decide +kernel
    exact (actors _ inside (by decide)).mpr unknown
  · have inside : ⟨"last-resort=c".toList, 21⟩ ∈ e.arguments.others := by decide +kernel
    exact (resorts _ inside ⟨4, ⟨"last-resort".toList, 21⟩, ⟨"c".toList, 33⟩⟩ (by decide +kernel)
      ⟨"c".toList, 33⟩ (by decide +kernel)).mpr noResort
  · have inside : ⟨2, "FINAL, b".toList⟩ ∈ doc.linesOf .rule := by decide +kernel
    obtain ⟨target, last, reported⟩ := rules _ inside .final (by decide +kernel) (by decide +kernel)
    have found : (NumberedLine.pieces ⟨2, "FINAL, b".toList⟩).piece? RuleType.final.targetIndex =
        some ⟨"b".toList, 8⟩ := by decide +kernel
    obtain rfl := Option.some.inj (last.symm.trans found)
    exact reported.mpr unknown

end Document

end ProxyConfig
