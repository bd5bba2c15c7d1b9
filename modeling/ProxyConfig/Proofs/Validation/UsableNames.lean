import ProxyConfig.Proofs.Validation.Integrity

/-! # Usable names

A declared name is whatever stands before an `=`, and a name that is referred to is a piece between
commas. The two languages differ in the comma and in the empty name, and no validator looks at either:
a line without a key declares the empty name, which every reference without a name then finds. In a
document without errors all else is in order, since every target and every last resort is the key of a
declaration.
-/

namespace ProxyConfig

open Text

/-- Whether a rule that aims at the name is read back as two pieces, the second of which is the name. -/
def IsReferable (name : Text) : Prop :=
  ∃ type target, (Pieces.read 1 ("FINAL, ".toList ++ name)).toList = [type, target] ∧
    target.text = name

/-- A trimmed name can be referred to unless a comma cuts it. -/
theorem isReferable_iff {name : Text} (trimmed : IsTrimmed name) : IsReferable name ↔ ',' ∉ name := by
  have split : "FINAL, ".toList ++ name = "FINAL".toList ++ ',' :: (' ' :: name) := rfl
  rw [IsReferable, split]
  constructor
  · rintro ⟨type, target, pieces, -⟩ comma
    have counted := congrArg List.length pieces
    rw [Pieces.length_toList_read, List.count_append, List.count_cons_self,
      List.count_cons_of_ne (by decide)] at counted
    have cut := List.count_pos_iff.mpr comma
    simp only [List.length_cons, List.length_nil] at counted
    omega
  · intro whole
    have single : ',' ∉ ' ' :: name := by simpa using whole
    rw [Pieces.read_append_cons 1 (by decide), Pieces.read_of_not_mem _ single]
    refine ⟨_, _, rfl, ?_⟩
    have bare : Text.trim ([' '] ++ (name ++ [])) = name := trim_surround rfl trimmed rfl
    rwa [List.append_nil, ← Span.text_trimmed 7] at bare

namespace Document

variable {doc : Document} {name : Text}

/-- The keys of the sections that declare actors. -/
def actorKeys (doc : Document) : List Text :=
  (doc.entries .proxy ++ doc.entries .proxyGroup).map fun e => e.key.text

/-- The names that rules aim at. -/
def targets (doc : Document) : List Text :=
  (doc.linesOf .rule).filterMap fun l => (ruleTarget? l.pieces).map Span.text

/-- The names that groups fall back on. -/
def lastResorts (doc : Document) : List Text :=
  (doc.entries .proxyGroup).flatMap fun e => e.arguments.others.filterMap fun a =>
    ((a.property? e.line).bind Entry.lastResort?).map Span.text

theorem isTrimmed_of_mem_actorKeys (member : name ∈ doc.actorKeys) : IsTrimmed name := by
  have entry {kind : SectionKind} {e : Entry} (inside : e ∈ doc.entries kind) :
      IsTrimmed e.key.text := by
    obtain ⟨l, -, read⟩ := List.mem_filterMap.mp inside
    exact (Entry.isTrimmed_of_parse? read).1
  obtain ⟨e, inside, rfl⟩ := List.mem_map.mp member
  exact (List.mem_append.mp inside).elim entry entry

theorem mem_actorKeys_of_mem_targets (clean : Errorless doc.checkRules)
    (member : name ∈ doc.targets) : name ∈ doc.actorKeys := by
  obtain ⟨l, here, found⟩ := List.mem_filterMap.mp member
  obtain ⟨target, aimed, rfl⟩ := Option.map_eq_some_iff.mp found
  rw [actorKeys, ← map_name_actors]
  exact declared_of_ruleTarget? clean here aimed

theorem mem_actorKeys_of_mem_lastResorts (clean : Errorless doc.checkActors)
    (member : name ∈ doc.lastResorts) : name ∈ doc.actorKeys := by
  obtain ⟨e, here, found⟩ := List.mem_flatMap.mp member
  obtain ⟨argument, inside, read⟩ := List.mem_filterMap.mp found
  obtain ⟨value, selected, rfl⟩ := Option.map_eq_some_iff.mp read
  obtain ⟨property, listed, resort⟩ := Option.bind_eq_some_iff.mp selected
  rw [actorKeys, ← map_name_actors]
  exact declared_of_lastResort clean here inside listed resort

end Document

/-- In a document without errors every target and every last resort is the key of a declaration. So
all names are usable exactly if no key is empty or holds a comma, which no validator looks at. -/
theorem names_usable_iff (s : Text) (accepted : Errorless (validate s)) :
    let doc := Document.parse s
    (∀ name ∈ doc.targets ++ doc.lastResorts, name ∈ doc.actorKeys) ∧
    (((∀ name ∈ doc.actorKeys, name ≠ [] ∧ IsReferable name) ∧
        ∀ name ∈ doc.targets ++ doc.lastResorts, name ≠ []) ↔
      ∀ name ∈ doc.actorKeys, name ≠ [] ∧ ',' ∉ name) := by
  intro doc
  obtain ⟨-, -, -, actors, rules, -⟩ := Document.errorless_validate_iff.mp accepted
  have declared : ∀ name ∈ doc.targets ++ doc.lastResorts, name ∈ doc.actorKeys := by
    intro name member
    rcases List.mem_append.mp member with target | resort
    · exact Document.mem_actorKeys_of_mem_targets rules target
    · exact Document.mem_actorKeys_of_mem_lastResorts actors resort
  have referable : ∀ name ∈ doc.actorKeys, (IsReferable name ↔ ',' ∉ name) := fun name member =>
    isReferable_iff (Document.isTrimmed_of_mem_actorKeys member)
  refine ⟨declared, ?_, ?_⟩
  · rintro ⟨usable, -⟩ name member
    exact ⟨(usable name member).1, (referable name member).mp (usable name member).2⟩
  · intro plain
    refine ⟨fun name member => ?_, fun name member => (plain name (declared name member)).1⟩
    exact ⟨(plain name member).1, (referable name member).mpr (plain name member).2⟩

/-- A target and a last resort that are declared further down, in a document without errors. -/
theorem names_usable_forward :
    let s := "[Rule]\nFINAL, g\n[Proxy Group]\ng = failover, a, last-resort=a\n[Proxy]\na = direct".toList
    let doc := Document.parse s
    Errorless (validate s) ∧ doc.targets ++ doc.lastResorts = ["g".toList, "a".toList] ∧
      (∀ name ∈ doc.actorKeys, name ≠ [] ∧ IsReferable name) ∧
        ∀ name ∈ doc.targets ++ doc.lastResorts, name ≠ [] := by
  intro s doc
  have accepted : Errorless (validate s) := by decide +kernel
  have plain : ∀ name ∈ doc.actorKeys, name ≠ [] ∧ ',' ∉ name := by decide +kernel
  exact ⟨accepted, by decide +kernel, (names_usable_iff s accepted).2.mpr plain⟩

/-- Without any error, a line without a key declares the empty name, a target and a last resort without
a name find it, and a rule that aims at a key with a comma aims at something else. -/
theorem unusable_names_accepted :
    let proxies := "[Proxy]\n= direct\na,b = direct\nc = direct\n".toList
    let s := proxies ++ "[Proxy Group]\ng = failover, c, last-resort=\n[Rule]\nFINAL,\n".toList
    let doc := Document.parse s
    validate s = [] ∧ [] ∈ doc.actorKeys ∧ [] ∈ doc.targets ∧ [] ∈ doc.lastResorts ∧
      "a,b".toList ∈ doc.actorKeys ∧ ¬ IsReferable "a,b".toList := by
  intro proxies s doc
  have cut : ¬ IsReferable "a,b".toList := by
    rw [isReferable_iff ⟨by decide, by decide⟩]
    decide
  refine ⟨by decide +kernel, by decide +kernel, by decide +kernel, by decide +kernel,
    by decide +kernel, cut⟩

end ProxyConfig
