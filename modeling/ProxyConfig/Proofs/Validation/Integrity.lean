import ProxyConfig.Proofs.Validation.Finals
import ProxyConfig.Proofs.Validation.Names

/-! # What holds of a document without errors

The validators and the search for a name read the same lines independently. Each lemma here reads the
clean report of one check as the fact it stands for: names are declared once, at most one `FINAL` rule
is complete, and whatever the search takes for a reference was looked up among the declared names, or
its line would be an error for another reason.
-/

namespace ProxyConfig

open Text

/-- Where the check of declarations reports no error, no name is declared twice. -/
theorem nodup_of_checkDeclarationsFrom {lines : List ActorLine}
    (clean : Errorless (checkDeclarationsFrom [] lines)) :
    ((lines.filterMap ActorLine.declaration?).map Declaration.name).Nodup := by
  rw [checkDeclarationsFrom_eq, Pass.errorless_runFrom_iff fun _ => rfl] at clean
  rw [List.Nodup, List.pairwise_map]
  refine List.forall_withEarlier_iff_pairwise.mp fun p inside first before same => ?_
  have fresh := fresh_of_checkName (errorless_append.mp (clean.2 p inside)).1
  exact fresh (List.mem_map.mpr ⟨first, before, same⟩)

section Groups

variable {names : List Text} {e : Entry} {argument : Span}

/-- The check of a group does not see where its key stands. -/
theorem Entry.Agrees.checkGroup (names : List Text) {f : Entry} (agrees : e.Agrees f) :
    checkGroup names f = checkGroup names e := by
  obtain ⟨line, key, value⟩ := e
  obtain ⟨line', key', value'⟩ := f
  obtain ⟨rfl, -, rfl⟩ := agrees
  rfl

/-- A last resort in a group without errors was looked up by its check, even an empty one. -/
theorem mem_names_of_lastResort {property : Entry} {value : Span}
    (clean : Errorless (checkGroup names e)) (inside : argument ∈ e.arguments.others)
    (found : argument.property? e.line = some property)
    (resort : property.lastResort? = some value) : value.text ∈ names := by
  obtain ⟨t, -, listed, -⟩ := errorless_checkGroup_iff_parts.mp clean
  rw [Entry.lastResort?, Option.ite_none_right_eq_some] at resort
  obtain ⟨keyed, same⟩ := resort
  cases same
  rcases Pieces.mem_operands_or_properties inside with operand | listing
  · rw [Span.property?_of_isPlain (Pieces.isPlain_of_mem_operands operand)] at found
    cases found
  · obtain ⟨read, key, again, known, -, checked⟩ :=
      (PropertyRules.errorless_check_iff.mp listed).1 argument listing
    rw [found] at again
    cases again
    rw [keyed] at known
    cases known
    exact (errorless_checkGroupProperty_iff.mp checked).2.2 rfl

/-- A named actor in a group without errors was looked up by its check. -/
theorem mem_names_of_actor (clean : Errorless (checkGroup names e))
    (inside : argument ∈ e.arguments.others) (unread : argument.property? e.line = none) :
    argument.text ∈ names := by
  obtain ⟨t, -, listed, actors⟩ := errorless_checkGroup_iff_parts.mp clean
  rcases Pieces.mem_operands_or_properties inside with operand | property
  · have named := (errorless_checkActors_iff.mp actors).2 argument.text (List.mem_map_of_mem operand)
    exact named.2
  · -- a plain argument among the properties is an error of its own
    obtain ⟨read, -, found, -⟩ := (PropertyRules.errorless_check_iff.mp listed).1 argument property
    rw [unread] at found
    cases found

/-- Every reference that the search finds in a group without errors was looked up by its check. -/
theorem mem_names_of_checkGroup {name : Text} {x : NameSite}
    (clean : Errorless (checkGroup names e)) (inside : argument ∈ e.arguments.others)
    (member : x ∈ e.referenceSites name argument) : name ∈ names := by
  obtain ⟨a, role, refers, rfl, rfl⟩ := Entry.mem_referenceSites_iff.mp member
  cases refers with
  | member plain => exact mem_names_of_actor clean inside plain
  | lastResort read resort => exact mem_names_of_lastResort clean inside read resort

end Groups

/-- The target that the search finds on a rule without errors was looked up by its check. -/
theorem contains_of_checkRule {actors : Namespace} {first? : Option Range} {l : NumberedLine}
    {target : Span} (clean : Errorless (checkRule actors first? l))
    (named : ruleTarget? l.pieces = some target) : actors.contains target.text = true := by
  obtain ⟨type, known, ⟨rfl, -, last, others, declared⟩ | ⟨other, matcher, last, others, -, declared⟩⟩ :=
    errorless_checkRule_iff_parts.mp clean
  · rw [ruleTarget?, known, others] at named
    cases named
    exact declared
  · have third : ruleTarget? l.pieces = some last := by
      rw [ruleTarget?, known, others]
      cases type with
      | final => exact absurd rfl other
      | _ =>
        dsimp only
        rw [Pieces.piece?, Pieces.toList, others]
        rfl
    rw [named] at third
    cases third
    exact declared

theorem checkRule_of_mem {actors : Namespace} {first? : Option Range} {lines : List NumberedLine}
    {l : NumberedLine} (clean : Errorless (checkRulesFrom actors first? lines)) (member : l ∈ lines) :
    ∃ earlier?, Errorless (checkRule actors earlier? l) := by
  obtain ⟨p, inside, rfl⟩ := List.exists_mem_withEarlier member
  rw [checkRulesFrom_eq_flatMap, errorless_flatMap] at clean
  exact ⟨_, clean p inside⟩

namespace Document

variable {doc : Document}

theorem errorless_validate_iff :
    Errorless doc.validate ↔ Errorless doc.checkSections ∧ Errorless doc.checkGeneral ∧
      Errorless doc.checkHosts ∧ Errorless doc.checkActors ∧ Errorless doc.checkRules ∧
        Errorless doc.checkEnv := by
  simp [validate, validateWith, Validator.all, Validator.run, errorless_append]

/-- Where actors are reported without errors, every declared name is declared once. -/
theorem nodup_of_checkActors (clean : Errorless doc.checkActors) :
    (doc.actors.declarations.map Declaration.name).Nodup := by
  obtain ⟨lines, -⟩ := errorless_append.mp clean
  exact (names_actorLines_perm doc).nodup_iff.mp (nodup_of_checkDeclarationsFrom lines)

/-- Where actors are reported without errors, so is every group, against the declared names. -/
theorem checkGroup_of_mem_entries (clean : Errorless doc.checkActors) {e : Entry}
    (member : e ∈ doc.entries .proxyGroup) :
    Errorless (checkGroup ((doc.actorLines.filterMap ActorLine.declaration?).map Declaration.name) e) := by
  let names := (doc.actorLines.filterMap ActorLine.declaration?).map Declaration.name
  -- the validator reads the same entries, up to the place of an empty key
  have groups := (agrees_declared doc .group).flatMap_eq fun _ _ same =>
    same.checkGroup names
  rw [List.flatMap_map] at groups
  have whole := (errorless_append.mp clean).2
  rw [← groups] at whole
  exact errorless_flatMap.mp whole e member

/-- Where actors are reported without errors, every last resort is a declared name. -/
theorem declared_of_lastResort (clean : Errorless doc.checkActors) {e property : Entry}
    (member : e ∈ doc.entries .proxyGroup) {argument value : Span}
    (inside : argument ∈ e.arguments.others) (found : argument.property? e.line = some property)
    (resort : property.lastResort? = some value) :
    value.text ∈ doc.actors.declarations.map Declaration.name :=
  (names_actorLines_perm doc).mem_iff.mp
    (mem_names_of_lastResort (checkGroup_of_mem_entries clean member) inside found resort)

/-- Where rules are reported without errors, every line with a target was checked without errors. -/
theorem exists_checkRule_of_ruleTarget? (clean : Errorless doc.checkRules) {l : NumberedLine}
    (member : l ∈ doc.linesOf .rule) {target : Span} (aimed : ruleTarget? l.pieces = some target) :
    ∃ first?, Errorless (checkRule doc.actors first? l) := by
  have solid : l.content.isEmpty = false := by
    obtain ⟨i, behind, piece⟩ := mem_of_ruleTarget? aimed
    obtain ⟨j, rfl⟩ := Nat.exists_eq_succ_of_ne_zero behind
    exact NumberedLine.solid_of_others (List.mem_of_getElem? (i := j) piece)
  have listed : l ∈ doc.solidLines (doc.sectionsOf .rule) :=
    mem_solidLines_iff.mpr ⟨List.mem_flatMap.mp member, solid⟩
  exact checkRule_of_mem (errorless_append.mp clean).1 listed

/-- Where rules are reported without errors, every target is a declared name. -/
theorem declared_of_ruleTarget? (clean : Errorless doc.checkRules) {l : NumberedLine}
    (member : l ∈ doc.linesOf .rule) {target : Span} (aimed : ruleTarget? l.pieces = some target) :
    target.text ∈ doc.actors.declarations.map Declaration.name := by
  obtain ⟨first?, checked⟩ := exists_checkRule_of_ruleTarget? clean member aimed
  exact Namespace.contains_iff.mp (contains_of_checkRule checked aimed)

/-- What the search finds besides declarations is a declared name. -/
theorem declared_of_mem_sites {name : Text} {x : NameSite} (actors : Errorless doc.checkActors)
    (rules : Errorless doc.checkRules) (named : IsName name) (member : x ∈ doc.sites name false) :
    name ∈ doc.actors.declarations.map Declaration.name := by
  obtain ⟨s, here, l, inside, found⟩ := (mem_sites_iff named).mp member
  have listed (kind : SectionKind) (known : s.kind? = some kind) : l ∈ doc.linesOf kind :=
    List.mem_flatMap.mpr ⟨s, List.mem_filter.mpr ⟨here, by rw [known]; exact beq_self_eq_true _⟩,
      inside⟩
  unfold NumberedLine.sites at found
  split at found
  · simp at found
  · next group =>
    obtain ⟨e, read, site⟩ := List.mem_flatMap.mp found
    rw [Option.mem_toList] at read
    rw [if_neg Bool.false_ne_true, List.nil_append] at site
    obtain ⟨argument, among, site⟩ := List.mem_flatMap.mp site
    have clean := checkGroup_of_mem_entries actors
      (List.mem_filterMap.mpr ⟨l, listed .proxyGroup group, read⟩)
    exact (names_actorLines_perm doc).mem_iff.mp (mem_names_of_checkGroup clean among site)
  · next rule =>
    rw [Option.mem_toList, Option.map_eq_some_iff] at found
    obtain ⟨target, selected, rfl⟩ := found
    obtain ⟨aimed, same⟩ := Option.filter_eq_some_iff.mp selected
    have known := declared_of_ruleTarget? rules (listed .rule rule) aimed
    rwa [eq_of_beq same] at known
  · cases found

theorem finals_of_checkRules (clean : Errorless doc.checkRules) :
    ((doc.linesOf .rule).filter NumberedLine.isFinal).length ≤ 1 := by
  have lines := (errorless_append.mp clean).1
  have second : Errorless (coded "LC402" (checkRulesFrom doc.actors none
      (doc.solidLines (doc.sectionsOf .rule)))) :=
    fun d member => lines d (List.mem_of_mem_filter member)
  rw [coded_secondFinal_checkRulesFrom, filter_isFinal_solidLines] at second
  cases finals : (doc.linesOf .rule).filter NumberedLine.isFinal with
  | nil => exact Nat.zero_le 1
  | cons first rest =>
    rw [finals] at second
    rw [(errorless_map_iff fun _ => rfl).mp second]
    exact Nat.le_refl 1

end Document

/-- In a document that is reported without errors, the keys of the actor sections are distinct, there
is at most one complete `FINAL` rule, and every reference that the search finds has exactly one
declaring site, which is the name of the declaration that is looked up. -/
theorem integrity_of_errorless (s : Text) (accepted : Errorless (validate s)) :
    (((Document.parse s).entries .proxy ++ (Document.parse s).entries .proxyGroup).map
      fun e => e.key.text).Nodup ∧
    (((Document.parse s).linesOf .rule).filter NumberedLine.isFinal).length ≤ 1 ∧
    ∀ name, ∀ x ∈ (Document.parse s).sites name false, ∃ d y,
      (Document.parse s).declaration? name = some d ∧
      ((Document.parse s).sites name true).filter (fun x => x.role.isDeclaration) = [y] ∧
      y.range = d.nameRange := by
  obtain ⟨-, -, -, actors, rules, -⟩ := Document.errorless_validate_iff.mp accepted
  have unique := Document.nodup_of_checkActors actors
  refine ⟨Document.map_name_actors _ ▸ unique, Document.finals_of_checkRules rules, ?_⟩
  intro name x member
  have named : IsName name := by
    by_contra unnamed
    rw [Document.sites_eq_nil unnamed] at member
    cases member
  have declared := Document.declared_of_mem_sites actors rules named member
  obtain ⟨d, found⟩ := Document.exists_declaration?_of_mem declared
  exact ⟨d, d.site, found, Document.filter_sites_of_nodup named unique found, rfl⟩

/-- A group member that is declared further down, in a document without errors. -/
theorem forward_reference_declared :
    let s := "[Rule]\nFINAL, g\n[Proxy Group]\ng = static, a\n[Proxy]\na = direct".toList
    Errorless (validate s) ∧ ∃ d y, (Document.parse s).declaration? "a".toList = some d ∧
      ((Document.parse s).sites "a".toList true).filter (fun x => x.role.isDeclaration) = [y] ∧
      y.range = d.nameRange := by
  have accepted : Errorless
      (validate "[Rule]\nFINAL, g\n[Proxy Group]\ng = static, a\n[Proxy]\na = direct".toList) := by
    decide +kernel
  exact ⟨accepted, (integrity_of_errorless _ accepted).2.2 "a".toList
    ⟨"a".toList, .onLine 4 13 1, .member⟩ (by decide +kernel)⟩

end ProxyConfig
