import ProxyConfig.Proofs.Actor.Namespace
import ProxyConfig.Proofs.Keyword
import ProxyConfig.Proofs.Outline.Lines
import ProxyConfig.Proofs.Validation.Integrity

/-! # Actors in the outline

The outline and the search for a name read the lines of a document independently. What a line shows in
the outline and what the search finds on it are said here side by side; on the lines of a document
without errors, and on the targets of complete rules, they are the same, up to groups without a name.
-/

namespace ProxyConfig

open ProxyConfig.Symbol

theorem ClientView.symbols_utf32 (doc : Document) :
    (ClientView.mk doc .utf32).symbols = doc.outline.map (Symbol.map Range.toClient) := by
  rw [ClientView.symbols, ClientView.clientSymbols, mapAll_mapAll, ← mapAll_eq_map]
  rfl

namespace Document

variable {doc : Document} {kind : SectionKind}

/-- The symbols below the sections of a kind, in the order of the document. -/
theorem flatMap_children (doc : Document) (shown : kind ≠ .onDemand) :
    (doc.outline.filter fun c => c.name == Keyword.spelling kind).flatMap Symbol.children =
      (doc.sectionsOf kind).flatMap fun s => doc.lineSymbols s kind := by
  rw [outline, sectionsOf]
  induction doc.sections with
  | nil => rfl
  | cons s rest ih =>
    rw [List.filterMap_cons, List.filter_cons]
    cases known : s.kind? with
    | none => simpa [sectionSymbol?, known] using ih
    | some other =>
      by_cases same : other = kind
      · subst same
        simp [sectionSymbol?, known, shown, ih]
      · have differs : Keyword.spelling other ≠ Keyword.spelling kind :=
          fun equal => same (Keyword.spelling_injective equal)
        by_cases hidden : other = .onDemand
        · simpa [sectionSymbol?, known, hidden, same, shown.symm] using ih
        · simpa [sectionSymbol?, known, hidden, same, differs] using ih

/-- The entries of a kind that have a key are those of the outline. -/
theorem filter_entries (doc : Document) (kind : SectionKind) :
    (doc.entries kind).filter (fun e => !e.key.isEmpty) =
      (doc.sectionsOf kind).flatMap doc.keyedEntries := by
  rw [entries, linesOf, List.filterMap_flatMap, List.filter_flatMap]
  rfl

/-- The declarations of one kind that have a name. -/
theorem filter_declarations (doc : Document) (kind : ActorKind) :
    doc.actors.declarations.filter (fun d => d.kind == kind && !d.name.isEmpty) =
      ((doc.entries kind.sectionKind).filter fun e => !e.key.isEmpty).map (⟨kind, ·⟩) := by
  rw [declarations_actors, List.filter_append, declarations, declarations, List.filter_map,
    List.filter_map]
  cases kind <;> simp [Function.comp_def, Declaration.name, Span.isEmpty]

/-- The sections of a kind show the declarations of the kind that have a name. -/
theorem map_children_outline (doc : Document) (kind : ActorKind) :
    ((doc.outline.filter fun c => c.name == Keyword.spelling kind.sectionKind).flatMap
        Symbol.children).map (fun c => (c.name, c.selection)) =
      (doc.actors.declarations.filter fun d => d.kind == kind && !d.name.isEmpty).map
        fun d => (String.ofList d.name, d.nameRange) := by
  have shown : kind.sectionKind ≠ .onDemand := by cases kind <;> decide
  have lines (s : Section) : (doc.lineSymbols s kind.sectionKind).map
      (fun c => (c.name, c.selection)) =
        (doc.keyedEntries s).map fun e => (String.ofList e.key.text, e.keyRange) := by
    cases kind <;> simp [lineSymbols, ActorKind.sectionKind, Function.comp_def, Entry.proxySymbol,
      Entry.groupSymbol, Symbol.ofEntry]
  rw [flatMap_children doc shown, filter_declarations, filter_entries, List.map_map,
    List.map_flatMap, List.map_flatMap]
  simp only [lines]
  rfl

end Document

/-! ## References in the outline -/

namespace Symbol

variable {R S : Type}

/-- Whether the symbol is an actor that a group or a rule refers to. Properties are of another kind,
whatever their values say. -/
def isReference (c : Symbol R) : Bool :=
  c.kind == .actor && (c.detail == "actor" || c.detail == "outbound")

/-- The ranges of the references below and among the symbols. -/
def references (symbols : List (Symbol R)) : List R :=
  ((nodesAll symbols).filter isReference).map range

theorem mem_references_iff {symbols : List (Symbol R)} {r : R} :
    r ∈ references symbols ↔ ∃ c ∈ nodesAll symbols, c.isReference = true ∧ c.range = r := by
  simp [references, and_assoc]

@[simp] theorem isReference_map (f : R → S) (c : Symbol R) :
    (c.map f).isReference = c.isReference := by
  rw [isReference, kind_map, detail_map]
  rfl

theorem references_map (f : R → S) (symbols : List (Symbol R)) :
    references (symbols.map (map f)) = (references symbols).map f := by
  rw [← mapAll_eq_map, references, nodesAll_mapAll, List.filter_map, references, List.map_map,
    List.map_map]
  simp [Function.comp_def]

@[simp] theorem references_nil : references ([] : List (Symbol R)) = [] := rfl

@[simp] theorem references_append (symbols others : List (Symbol R)) :
    references (symbols ++ others) = references symbols ++ references others := by
  simp [references, nodesAll_append]

theorem references_singleton (c : Symbol R) :
    references [c] = (if c.isReference = true then [c.range] else []) ++ references c.children := by
  rw [references, nodesAll, nodesAll, List.append_nil, nodes_eq, List.filter_cons]
  split <;> rfl

/-- The references of symbols that are picked from a list are found item by item. -/
theorem references_filterMap {α : Type} (items : List α) (symbol? : α → Option (Symbol R)) :
    references (items.filterMap symbol?) = items.flatMap fun a => references (symbol? a).toList := by
  rw [references, nodesAll_filterMap, List.filter_flatMap, List.map_flatMap]
  rfl

theorem references_of_leaves {symbols : List (Symbol R)} (bare : ∀ c ∈ symbols, c.children = []) :
    references symbols = (symbols.filter isReference).map range := by
  have alone : nodesAll symbols = symbols := by
    rw [nodesAll_eq_flatMap]
    calc symbols.flatMap nodes = symbols.flatMap fun c => [c] :=
          List.flatMap_congr fun c member => by rw [nodes_eq, bare c member, nodesAll]
      _ = symbols := by rw [List.flatMap_singleton']
  rw [references, alone]

end Symbol

namespace Entry

theorem references_propertySymbols (e : Entry) : references e.propertySymbols = [] := by
  rw [propertySymbols, references_of_leaves (List.forall_mem_map.mpr fun _ _ => rfl),
    List.filter_eq_nil_iff.mpr (List.forall_mem_map.mpr fun _ _ => Bool.false_ne_true), List.map_nil]

theorem references_spanSymbols (e : Entry) (spans : List Span) (detail : String)
    (kind : SymbolKind) : references (e.spanSymbols spans detail kind) =
      if kind = .actor ∧ (detail = "actor" ∨ detail = "outbound") then
        (spans.filter fun a => !a.isEmpty).map fun a => a.range e.line
      else [] := by
  have alike (a : Span) : isReference (.ofSpan a e.line detail kind) =
      decide (kind = .actor ∧ (detail = "actor" ∨ detail = "outbound")) := by
    rw [Bool.eq_iff_iff]
    simp [isReference, Symbol.ofSpan]
  rw [spanSymbols, references_of_leaves (List.forall_mem_map.mpr fun _ _ => rfl), List.filter_map,
    List.map_map]
  simp only [Function.comp_def, alike]
  split
  · next shown => simp [shown, Symbol.ofSpan]
  · next other => simp [other]

end Entry

namespace NumberedLine

variable {l : NumberedLine} {r : Range}

/-- A group line refers to the actors in front of its properties, if its key is not empty. -/
theorem mem_references_group_iff :
    r ∈ references (l.symbol? .proxyGroup).toList ↔
      ∃ e, l.keyed? = some e ∧ ∃ a ∈ e.arguments.operands, a.text ≠ [] ∧ a.range l.number = r := by
  rw [symbol?]
  cases read : l.keyed? with
  | none => simp
  | some e =>
    have sameLine : e.line = l.number :=
      Entry.line_of_parse? (Option.filter_eq_some_iff.mp read).1
    have shown : references [e.groupSymbol] =
        (e.arguments.operands.filter fun a => !a.isEmpty).map fun a => a.range e.line := by
      rw [references_singleton, if_neg (by simp [isReference, Entry.groupSymbol, Symbol.ofEntry])]
      simp [Entry.groupSymbol, Symbol.ofEntry, Entry.references_spanSymbols,
        Entry.references_propertySymbols]
    rw [Option.map_some, Option.toList_some, shown, sameLine]
    simp [Span.isEmpty, and_assoc]

/-- A rule of a known type with the right number of arguments. -/
def IsComplete (l : NumberedLine) : Prop :=
  ∃ rule : RuleType, Keyword.parse? l.pieces.first.text = some rule ∧
    l.pieces.others.length = rule.arity

/-- A complete rule refers to its target. -/
theorem mem_references_rule_iff :
    r ∈ references (l.symbol? .rule).toList ↔
      l.IsComplete ∧ ∃ target, ruleTarget? l.pieces = some target ∧ target.text ≠ [] ∧
        target.range l.number = r := by
  rw [symbol?, ruleSymbol?]
  cases known : (Keyword.parse? l.pieces.first.text : Option RuleType) with
  | none => simp [IsComplete, known]
  | some rule =>
    have length : l.pieces.toList.length = l.pieces.others.length + 1 := rfl
    by_cases complete : l.pieces.others.length = rule.arity
    · have whole : l.IsComplete := ⟨rule, known, complete⟩
      rw [ruleTarget?_of_parse? known, Pieces.piece?]
      cases piece : l.pieces.toList[rule.targetIndex]? with
      | none => simp [piece]
      | some target =>
        by_cases void : target.text = []
        · simp [length, complete, piece, references_singleton, isReference, Span.isEmpty, void]
        · simpa [length, complete, piece, references_singleton, isReference, Span.isEmpty, void,
            whole, Symbol.ofSpan] using eq_comm
    · have part : ¬ l.IsComplete := by simp [IsComplete, known, complete]
      simp [length, complete, part]

theorem references_of_other {kind : SectionKind} (group : kind ≠ .proxyGroup)
    (rule : kind ≠ .rule) : references (l.symbol? kind).toList = [] := by
  have leaf (e : Entry) (detail : String) : references [Symbol.ofEntry e detail .key []] = [] := by
    simp [references_singleton, isReference, Symbol.ofEntry]
  cases kind with
  | proxyGroup => exact absurd rfl group
  | rule => exact absurd rfl rule
  | onDemand => rfl
  | general | env =>
    rw [symbol?]
    cases l.keyed? with
    | none => rfl
    | some e => exact leaf e _
  | proxy =>
    rw [symbol?]
    cases l.keyed? with
    | none => rfl
    | some e =>
      simp [references_singleton, isReference, Entry.proxySymbol, Symbol.ofEntry,
        Entry.references_propertySymbols]
  | host =>
    rw [symbol?]
    cases l.keyed? with
    | none => rfl
    | some e =>
      simp [references_singleton, isReference, Entry.hostSymbol, Symbol.ofEntry,
        Entry.references_spanSymbols]

end NumberedLine

namespace Document

variable {doc : Document} {kind : SectionKind} {l : NumberedLine} {r : Range}

/-- The outline refers to what its groups and its rules refer to. -/
theorem mem_references_outline_iff :
    r ∈ references doc.outline ↔
      (∃ l ∈ doc.linesOf .proxyGroup, r ∈ references (l.symbol? .proxyGroup).toList) ∨
        ∃ l ∈ doc.linesOf .rule, r ∈ references (l.symbol? .rule).toList := by
  have sections (s : Section) : references (doc.sectionSymbol? s).toList =
      s.kind?.toList.flatMap fun kind => (doc.body s).flatMap fun l =>
        references (l.symbol? kind).toList := by
    rw [sectionSymbol?]
    cases s.kind? with
    | none => rfl
    | some kind =>
      by_cases hidden : kind = .onDemand
      · simp [hidden, NumberedLine.symbol?]
      · simp [hidden, references_singleton, isReference, lineSymbols_eq, references_filterMap]
  rw [outline, references_filterMap]
  simp only [sections, List.mem_flatMap, Option.mem_toList, mem_linesOf_iff]
  constructor
  · rintro ⟨s, here, kind, known, l, inside, shown⟩
    by_cases group : kind = .proxyGroup
    · exact .inl ⟨l, ⟨s, here, group ▸ known, inside⟩, group ▸ shown⟩
    by_cases rule : kind = .rule
    · exact .inr ⟨l, ⟨s, here, rule ▸ known, inside⟩, rule ▸ shown⟩
    rw [NumberedLine.references_of_other group rule] at shown
    cases shown
  · rintro (⟨l, ⟨s, here, known, inside⟩, shown⟩ | ⟨l, ⟨s, here, known, inside⟩, shown⟩)
    · exact ⟨s, here, _, known, l, inside, shown⟩
    · exact ⟨s, here, _, known, l, inside, shown⟩

end Document

/-! ## References of the search -/

namespace Entry

variable {e : Entry} {name : Text} {a : Span} {x : NameSite}

theorem role_of_mem_declarationSites {kind : ActorKind} (member : x ∈ e.declarationSites kind name) :
    x.role = .declaration kind := by
  obtain ⟨-, here⟩ := List.mem_ite_nil_right.mp member
  rw [List.mem_singleton.mp here]
  rfl

theorem role_ne_of_mem_referenceSites (member : x ∈ e.referenceSites name a) :
    x.role ≠ .ruleTarget := by
  obtain ⟨b, role, refers, -, rfl⟩ := mem_referenceSites_iff.mp member
  cases refers <;> exact NameRole.noConfusion

/-- A member is an argument that is no property. -/
theorem mem_referenceSites_member_iff :
    x ∈ e.referenceSites name a ∧ x.role = .member ↔
      a.property? e.line = none ∧ a.text = name ∧ x = a.site e.line .member := by
  rw [mem_referenceSites_iff]
  constructor
  · rintro ⟨⟨b, role, refers, text, rfl⟩, same⟩
    cases refers with
    | member plain => exact ⟨plain, text, rfl⟩
    | lastResort => cases same
  · rintro ⟨plain, text, rfl⟩
    exact ⟨⟨a, .member, .member plain, text, rfl⟩, rfl⟩

end Entry

namespace NumberedLine

variable {l : NumberedLine} {kind? : Option SectionKind} {name : Text} {x : NameSite}

theorem mem_sites_member_iff :
    x ∈ l.sites kind? name true ∧ x.role = .member ↔
      kind? = some .proxyGroup ∧ ∃ e, l.rawEntry? = some e ∧ ∃ a ∈ e.arguments.others,
        a.property? e.line = none ∧ a.text = name ∧ x = a.site e.line .member := by
  constructor
  · rintro ⟨member, role⟩
    unfold sites at member
    split at member
    · obtain ⟨e, -, found⟩ := List.mem_flatMap.mp member
      rw [Entry.role_of_mem_declarationSites found] at role
      cases role
    · obtain ⟨e, read, found⟩ := List.mem_flatMap.mp member
      rcases List.mem_append.mp found with found | found
      · rw [Entry.role_of_mem_declarationSites found] at role
        cases role
      · obtain ⟨a, inside, found⟩ := List.mem_flatMap.mp found
        exact ⟨rfl, e, Option.mem_toList.mp read, a, inside,
          Entry.mem_referenceSites_member_iff.mp ⟨found, role⟩⟩
    · rw [Option.mem_toList, Option.map_eq_some_iff] at member
      obtain ⟨target, -, rfl⟩ := member
      cases role
    · cases member
  · rintro ⟨rfl, e, read, a, inside, site⟩
    obtain ⟨found, role⟩ := Entry.mem_referenceSites_member_iff.mpr site
    refine ⟨List.mem_flatMap.mpr ⟨e, Option.mem_toList.mpr read, ?_⟩, role⟩
    exact List.mem_append_right _ (List.mem_flatMap.mpr ⟨a, inside, found⟩)

theorem mem_sites_target_iff :
    x ∈ l.sites kind? name true ∧ x.role = .ruleTarget ↔
      kind? = some .rule ∧ ∃ target, ruleTarget? l.pieces = some target ∧ target.text = name ∧
        x = target.site l.number .ruleTarget := by
  constructor
  · rintro ⟨member, role⟩
    unfold sites at member
    split at member
    · obtain ⟨e, -, found⟩ := List.mem_flatMap.mp member
      rw [Entry.role_of_mem_declarationSites found] at role
      cases role
    · obtain ⟨e, -, found⟩ := List.mem_flatMap.mp member
      rcases List.mem_append.mp found with found | found
      · rw [Entry.role_of_mem_declarationSites found] at role
        cases role
      · obtain ⟨a, -, found⟩ := List.mem_flatMap.mp found
        exact absurd role (Entry.role_ne_of_mem_referenceSites found)
    · rw [Option.mem_toList, Option.map_eq_some_iff] at member
      obtain ⟨target, kept, rfl⟩ := member
      obtain ⟨found, same⟩ := Option.filter_eq_some_iff.mp kept
      exact ⟨rfl, target, found, eq_of_beq same, rfl⟩
    · cases member
  · rintro ⟨rfl, target, found, same, rfl⟩
    refine ⟨?_, rfl⟩
    rw [sites, Option.mem_toList, Option.map_eq_some_iff]
    exact ⟨target, Option.filter_eq_some_iff.mpr ⟨found, beq_iff_eq.mpr same⟩, rfl⟩

end NumberedLine

/-! ## Lines without errors -/

theorem Pieces.mem_others_of_mem_operands {p : Pieces} {a : Span} (member : a ∈ p.operands) :
    a ∈ p.others := by
  by_cases plain : p.first.isPlain = true
  · rw [operands_of_isPlain plain] at member
    exact (List.takeWhile_sublist _).subset member
  · rw [operands, toList, List.takeWhile_cons_of_neg plain] at member
    cases member

/-- In a group without errors nothing but an actor is no property. -/
theorem Entry.property?_eq_none_iff {names : List Text} {e : Entry}
    (clean : Errorless (checkGroup names e)) {a : Span} (inside : a ∈ e.arguments.others) :
    a.property? e.line = none ↔ a ∈ e.arguments.operands := by
  obtain ⟨t, -, listed, -⟩ := errorless_checkGroup_iff_parts.mp clean
  constructor
  · intro absent
    rcases Pieces.mem_operands_or_properties inside with operand | property
    · exact operand
    · obtain ⟨p, -, read, -⟩ := (PropertyRules.errorless_check_iff.mp listed).1 a property
      rw [absent] at read
      cases read
  · intro operand
    exact Span.property?_of_isPlain (Pieces.isPlain_of_mem_operands operand)

/-- A rule without errors has a known type and the right number of arguments. -/
theorem NumberedLine.isComplete_of_checkRule {actors : Namespace} {first? : Option Range}
    {l : NumberedLine} (clean : Errorless (checkRule actors first? l)) : l.IsComplete := by
  obtain ⟨type, known, ⟨rfl, -, target, others, -⟩ | ⟨other, matcher, target, others, -⟩⟩ :=
    errorless_checkRule_iff_parts.mp clean
  · exact ⟨.final, known, congrArg List.length others⟩
  · refine ⟨type, known, (congrArg List.length others).trans ?_⟩
    cases type with
    | final => exact absurd rfl other
    | _ => rfl

namespace Document

variable {doc : Document} {l : NumberedLine} {name : Text} {x : NameSite} {r : Range}

/-- Whether a declaration with a name stands on the line. -/
def NamesLine (doc : Document) (n : Nat) : Prop :=
  ∃ d ∈ doc.actors.declarations, d.name ≠ [] ∧ d.nameRange.start.line = n

/-- A line of a group section names a group if the outline has a symbol for it. -/
theorem namesLine_iff (group : l ∈ doc.linesOf .proxyGroup) {e : Entry}
    (read : l.rawEntry? = some e) : doc.NamesLine l.number ↔ l.keyed? = some e := by
  have keyed : l.keyed? = some e ↔ e.key.text ≠ [] := by
    rw [NumberedLine.keyed?, Option.filter_eq_some_iff, and_iff_right read]
    simp [Span.isEmpty]
  rw [keyed]
  constructor
  · rintro ⟨d, member, solid, sameLine⟩
    obtain ⟨m, there, other⟩ := mem_actors_iff.mp member
    obtain ⟨s, here, -, inside⟩ := mem_linesOf_iff.mp group
    obtain ⟨t, here', -, inside'⟩ := mem_linesOf_iff.mp there
    have number : l.number = m.number := sameLine.symm.trans (Entry.line_of_parse? other)
    rw [(eq_of_mem_body here here' inside inside' number).2, other] at read
    cases read
    exact solid
  · intro solid
    exact ⟨⟨.group, e⟩, mem_actors_iff.mpr ⟨l, group, read⟩, solid, Entry.line_of_parse? read⟩

/-- The members of groups, over all names. -/
theorem exists_member_iff :
    (∃ name, x ∈ doc.sites name true ∧ x.role = .member) ↔
      ∃ l ∈ doc.linesOf .proxyGroup, ∃ e, l.rawEntry? = some e ∧ ∃ a ∈ e.arguments.others,
        a.property? e.line = none ∧ IsName a.text ∧ x = a.site e.line .member := by
  constructor
  · rintro ⟨name, member, role⟩
    have named := isName_of_mem_sites member
    obtain ⟨s, here, l, inside, found⟩ := (mem_sites_iff named).mp member
    obtain ⟨known, e, read, a, among, absent, rfl, site⟩ :=
      NumberedLine.mem_sites_member_iff.mp ⟨found, role⟩
    exact ⟨l, mem_linesOf_iff.mpr ⟨s, here, known, inside⟩, e, read, a, among, absent, named, site⟩
  · rintro ⟨l, listed, e, read, a, among, absent, named, site⟩
    obtain ⟨s, here, known, inside⟩ := mem_linesOf_iff.mp listed
    obtain ⟨found, role⟩ := NumberedLine.mem_sites_member_iff.mpr
      ⟨known, e, read, a, among, absent, rfl, site⟩
    exact ⟨a.text, (mem_sites_iff named).mpr ⟨s, here, l, inside, found⟩, role⟩

/-- The targets of rules, over all names. -/
theorem exists_target_iff :
    (∃ name, x ∈ doc.sites name true ∧ x.role = .ruleTarget) ↔
      ∃ l ∈ doc.linesOf .rule, ∃ target, ruleTarget? l.pieces = some target ∧
        IsName target.text ∧ x = target.site l.number .ruleTarget := by
  constructor
  · rintro ⟨name, member, role⟩
    have named := isName_of_mem_sites member
    obtain ⟨s, here, l, inside, found⟩ := (mem_sites_iff named).mp member
    obtain ⟨known, target, aimed, rfl, site⟩ := NumberedLine.mem_sites_target_iff.mp ⟨found, role⟩
    exact ⟨l, mem_linesOf_iff.mpr ⟨s, here, known, inside⟩, target, aimed, named, site⟩
  · rintro ⟨l, listed, target, aimed, named, site⟩
    obtain ⟨s, here, known, inside⟩ := mem_linesOf_iff.mp listed
    obtain ⟨found, role⟩ := NumberedLine.mem_sites_target_iff.mpr ⟨known, target, aimed, rfl, site⟩
    exact ⟨target.text, (mem_sites_iff named).mpr ⟨s, here, l, inside, found⟩, role⟩

/-- Where actors are reported without errors, the groups of the outline refer to the members that the
search finds behind a key. -/
theorem group_references_iff (clean : Errorless doc.checkActors) :
    (∃ l ∈ doc.linesOf .proxyGroup, r ∈ references (l.symbol? .proxyGroup).toList) ↔
      ∃ name, ∃ x ∈ doc.sites name true,
        (x.role = .member ∧ doc.NamesLine x.range.start.line) ∧ x.range = r := by
  constructor
  · rintro ⟨l, listed, shown⟩
    obtain ⟨e, keyed, a, operand, solid, rfl⟩ := NumberedLine.mem_references_group_iff.mp shown
    have read := (Option.filter_eq_some_iff.mp keyed).1
    have sameLine := Entry.line_of_parse? read
    have plain := Pieces.isPlain_of_mem_operands operand
    obtain ⟨name, member, role⟩ := exists_member_iff.mpr ⟨l, listed, e, read, a,
      Pieces.mem_others_of_mem_operands operand, Span.property?_of_isPlain plain,
      ⟨solid, Span.isPlain_iff.mp plain⟩, rfl⟩
    refine ⟨name, _, member, ⟨role, ?_⟩, congrArg a.range sameLine⟩
    change doc.NamesLine e.line
    rw [sameLine]
    exact (namesLine_iff listed read).mpr keyed
  · rintro ⟨name, x, member, ⟨role, named⟩, rfl⟩
    obtain ⟨l, listed, e, read, a, among, absent, ⟨solid, -⟩, rfl⟩ :=
      exists_member_iff.mp ⟨name, member, role⟩
    have sameLine := Entry.line_of_parse? read
    change doc.NamesLine e.line at named
    rw [sameLine] at named
    have accepted := checkGroup_of_mem_entries clean (List.mem_filterMap.mpr ⟨l, listed, read⟩)
    have operand := (Entry.property?_eq_none_iff accepted among).mp absent
    exact ⟨l, listed, NumberedLine.mem_references_group_iff.mpr ⟨e,
      (namesLine_iff listed read).mp named, a, operand, solid, congrArg a.range sameLine.symm⟩⟩

/-- Where rules are reported without errors, the rules of the outline refer to the targets that the
search finds. -/
theorem rule_references_iff (clean : Errorless doc.checkRules) :
    (∃ l ∈ doc.linesOf .rule, r ∈ references (l.symbol? .rule).toList) ↔
      ∃ name, ∃ x ∈ doc.sites name true, x.role = .ruleTarget ∧ x.range = r := by
  constructor
  · rintro ⟨l, listed, shown⟩
    obtain ⟨-, target, aimed, solid, rfl⟩ := NumberedLine.mem_references_rule_iff.mp shown
    have named := isName_of_declared (declared_of_ruleTarget? clean listed aimed) solid
    obtain ⟨name, member, role⟩ := exists_target_iff.mpr ⟨l, listed, target, aimed, named, rfl⟩
    exact ⟨name, _, member, role, rfl⟩
  · rintro ⟨name, x, member, role, rfl⟩
    obtain ⟨l, listed, target, aimed, ⟨solid, -⟩, rfl⟩ := exists_target_iff.mp ⟨name, member, role⟩
    obtain ⟨first?, checked⟩ := exists_checkRule_of_ruleTarget? clean listed aimed
    exact ⟨l, listed, NumberedLine.mem_references_rule_iff.mpr
      ⟨NumberedLine.isComplete_of_checkRule checked, target, aimed, solid, rfl⟩⟩

/-- In a document without errors the outline refers to what the search finds in rules, and in groups
that have a name. -/
theorem mem_references_iff_site (actors : Errorless doc.checkActors) (rules : Errorless doc.checkRules) :
    r ∈ references doc.outline ↔ ∃ name, ∃ x ∈ doc.sites name true,
      (x.role = .ruleTarget ∨ x.role = .member ∧ doc.NamesLine x.range.start.line) ∧
        x.range = r := by
  rw [mem_references_outline_iff, group_references_iff actors, rule_references_iff rules]
  constructor
  · rintro (⟨name, x, member, role, place⟩ | ⟨name, x, member, role, place⟩)
    · exact ⟨name, x, member, .inr role, place⟩
    · exact ⟨name, x, member, .inl role, place⟩
  · rintro ⟨name, x, member, role | role, place⟩
    · exact .inr ⟨name, x, member, role, place⟩
    · exact .inl ⟨name, x, member, role, place⟩

end Document

/-- The sections of proxies and of groups show the declarations with a name, each at its place, and in
a text without errors the actors below them are what the search finds as the targets of rules and as
the members of groups with a name. -/
theorem outline_shows_actors (s : Text) :
    let doc := Document.parse s
    let symbols := (ClientView.mk doc .utf32).symbols
    (∀ kind : ActorKind,
      ((symbols.filter fun c => c.name == Keyword.spelling kind.sectionKind).flatMap
          Symbol.children).map (fun c => (c.name, c.selection)) =
        (doc.actors.declarations.filter fun d => d.kind == kind && !d.name.isEmpty).map
          fun d => (String.ofList d.name, d.nameRange.toClient)) ∧
    (Errorless (validate s) → ∀ r : ClientRange,
      (∃ c ∈ Symbol.nodesAll symbols, c.isReference = true ∧ c.range = r) ↔
        ∃ name, ∃ x ∈ doc.sites name true,
          (x.role = .ruleTarget ∨ x.role = .member ∧ doc.NamesLine x.range.start.line) ∧
            x.range.toClient = r) := by
  intro doc symbols
  have encoded : symbols = doc.outline.map (Symbol.map Range.toClient) :=
    ClientView.symbols_utf32 doc
  refine ⟨fun kind => ?_, fun accepted r => ?_⟩
  · have shown := congrArg (List.map (Prod.map id Range.toClient)) (doc.map_children_outline kind)
    rw [encoded]
    simpa [List.filter_map, List.flatMap_map, List.map_flatMap, Function.comp_def] using shown
  · obtain ⟨-, -, -, actors, rules, -⟩ := Document.errorless_validate_iff.mp accepted
    rw [← Symbol.mem_references_iff, encoded, Symbol.references_map, List.mem_map]
    constructor
    · rintro ⟨_, shown, place⟩
      obtain ⟨name, x, member, role, rfl⟩ := (Document.mem_references_iff_site actors rules).mp shown
      exact ⟨name, x, member, role, place⟩
    · rintro ⟨name, x, member, role, place⟩
      exact ⟨x.range, (Document.mem_references_iff_site actors rules).mpr
        ⟨name, x, member, role, rfl⟩, place⟩

/-- A group in front of its member, and a rule. -/
theorem outline_shows_actors_group :
    let s := "[Proxy Group]\ng = select, a\n[Proxy]\na = direct\n[Rule]\nFINAL, g".toList
    let symbols := (ClientView.mk (Document.parse s) .utf32).symbols
    Errorless (validate s) ∧
      ∃ c ∈ Symbol.nodesAll symbols, c.isReference = true ∧ c.range = ⟨⟨1, 12⟩, ⟨1, 13⟩⟩ := by
  have accepted : Errorless (validate
      "[Proxy Group]\ng = select, a\n[Proxy]\na = direct\n[Rule]\nFINAL, g".toList) := by
    decide +kernel
  have site : (⟨"a".toList, .onLine 2 13 1, .member⟩ : NameSite) ∈ (Document.parse
      "[Proxy Group]\ng = select, a\n[Proxy]\na = direct\n[Rule]\nFINAL, g".toList).sites
        "a".toList true :=
    (Document.mem_sites_iff ⟨by decide, by decide⟩).mpr (by decide +kernel)
  have named : (Document.parse
      "[Proxy Group]\ng = select, a\n[Proxy]\na = direct\n[Rule]\nFINAL, g".toList).NamesLine 2 :=
    ⟨⟨.group, ⟨2, ⟨"g".toList, 1⟩, ⟨"select, a".toList, 5⟩⟩⟩, by decide +kernel, by decide, rfl⟩
  exact ⟨accepted, ((outline_shows_actors _).2 accepted _).mpr
    ⟨"a".toList, _, site, .inr ⟨rfl, named⟩, rfl⟩⟩

/-- The value of a property may look like the mark of an actor, and a group without a name has no
symbol, although the search finds its members. -/
theorem outline_differs_from_search :
    let s := "[Proxy]\na = direct\n[Proxy Group]\ng = failover, a, health-check=actor\n= select, a\n[Rule]\nFINAL, g".toList
    let doc := Document.parse s
    let symbols := (ClientView.mk doc .utf32).symbols
    Errorless (validate s) ∧
      (∃ c ∈ Symbol.nodesAll symbols, c.detail = "actor" ∧
        ∀ name, ∀ x ∈ doc.sites name true, x.role = .member ∨ x.role = .ruleTarget →
          x.range.toClient ≠ c.range) ∧
      ∃ x ∈ doc.sites "a".toList true, x.role = .member ∧
        ∀ c ∈ Symbol.nodesAll symbols, c.range ≠ x.range.toClient := by
  intro s doc symbols
  refine ⟨by decide +kernel, ?_, ?_⟩
  · -- the property `health-check=actor`
    have shown : ∃ c ∈ Symbol.nodesAll symbols,
        c.detail = "actor" ∧ c.range = ⟨⟨3, 17⟩, ⟨3, 35⟩⟩ := by
      decide +kernel
    obtain ⟨c, node, detail, place⟩ := shown
    refine ⟨c, node, detail, fun name x member role => ?_⟩
    have members : ∀ l ∈ doc.linesOf .proxyGroup, ∀ e, l.rawEntry? = some e →
        ∀ a ∈ e.arguments.others, a.property? e.line = none →
          (a.range e.line).toClient ≠ ⟨⟨3, 17⟩, ⟨3, 35⟩⟩ := by
      decide +kernel
    have targets : ∀ l ∈ doc.linesOf .rule, ∀ target, ruleTarget? l.pieces = some target →
        (target.range l.number).toClient ≠ ⟨⟨3, 17⟩, ⟨3, 35⟩⟩ := by
      decide +kernel
    rw [place]
    rcases role with role | role
    · obtain ⟨l, listed, e, read, a, among, absent, -, rfl⟩ :=
        Document.exists_member_iff.mp ⟨name, member, role⟩
      exact members l listed e read a among absent
    · obtain ⟨l, listed, target, aimed, -, rfl⟩ := Document.exists_target_iff.mp ⟨name, member, role⟩
      exact targets l listed target aimed
  · -- the member of the group without a name
    refine ⟨⟨"a".toList, .onLine 5 11 1, .member⟩,
      (Document.mem_sites_iff ⟨by decide, by decide⟩).mpr (by decide +kernel), rfl, by decide +kernel⟩

end ProxyConfig
