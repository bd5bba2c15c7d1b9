import ProxyConfig.Proofs.Hover

/-! # Hovers and references

Under a cursor, the hover looks for the argument that the cursor touches, and the lookup of names
counts the commas in front of the cursor. Both find the same references: where the name has a
declaration, the hover shows its summary, and wherever the hover shows the summary of an actor in a
place of references, the lookup finds the name there.
-/

namespace ProxyConfig

open Text

/-- The summary of an actor is none of a keyword. -/
theorem Declaration.summary_ne_keyword {K : Type} [Keyword K] {label : String} {k : K}
    (d : Declaration) (closed : ')' ∉ label.toList) (proxy : label ≠ "proxy")
    (group : label ≠ "proxy group") : Keyword.summary label k ≠ d.summary := by
  intro same
  rcases Declaration.eq_of_labelled_summary (same ▸ Keyword.labelled_summary label k) closed with
    named | named
  · exact proxy named
  · exact group named

theorem Span.isEmpty_range {a : Span} {line : Nat} : (a.range line).isEmpty = a.isEmpty := by
  have stop : (a.range line).isEmpty = true ↔ a.text.length = 0 := by
    simp [Range.isEmpty, Span.range, Range.onLine, Range.between, Span.length]
  rw [Bool.eq_iff_iff, stop, List.length_eq_zero_iff, isEmpty, List.isEmpty_iff]

namespace Document

variable {doc : Document} {p : Position} {x : NameSite} {d : Declaration}

/-- A name that refers to a declared actor under the cursor is shown. -/
theorem hoverAt?_of_siteAt? (found : doc.siteAt? p = some x)
    (reference : x.role.isDeclaration = false)
    (known : x.role = .ruleTarget → ∃ k : RuleType,
      Keyword.parse? (NumberedLine.pieces ⟨p.line, doc.line p.line⟩).first.text = some k)
    (declared : doc.declaration? x.name = some d) : doc.hoverAt? p = some ⟨d.summary, x.range⟩ := by
  refine hoverAt?_eq_some_iff.mpr ?_
  rcases reference_cases_of_siteAt? found reference with ⟨group, e, read, here⟩ | ⟨rule, here⟩
  · obtain ⟨argument, inside, a, role, refers, solid, touches, rfl⟩ :=
      Entry.referenceSiteAt?_eq_some_iff.mp here
    have line : e.line = p.line := Entry.line_of_parse? read
    exact ⟨a, .group group read (.reference inside (refers.solid solid) refers declared), touches,
      line ▸ rfl⟩
  · obtain ⟨target, named, solid, touches, rfl⟩ := NumberedLine.targetSiteAt?_eq_some_iff.mp here
    obtain ⟨k, parsed⟩ := known rfl
    rw [ruleTarget?_of_parse? parsed] at named
    exact ⟨target, .rule rule (.target (Keyword.text_of_parse? parsed).symm named solid declared),
      touches, rfl⟩

/-- What is shown about an actor in the value of a group is a name that refers to it. -/
theorem ExplainsGroup.refers {e : Entry} {a : Span} (explains : doc.ExplainsGroup e a d.summary) :
    ∃ argument ∈ e.arguments.others, ∃ role, e.Refers argument a role ∧
      ∃ found, doc.declaration? a.text = some found ∧ d.summary = found.summary := by
  generalize content : d.summary = summary at explains
  cases explains with
  | type =>
    exact absurd content.symm (d.summary_ne_keyword (by decide) (by decide) (by decide))
  | property =>
    exact absurd content.symm (d.summary_ne_keyword (by decide) (by decide) (by decide))
  | reference inside _ refers declared => exact ⟨_, inside, _, refers, _, declared, rfl⟩

/-- What is shown about an actor on a rule is the target. -/
theorem ExplainsRule.targets {l : NumberedLine} {a : Span}
    (explains : doc.ExplainsRule l a d.summary) : ruleTarget? l.pieces = some a ∧
      ∃ found, doc.declaration? a.text = some found ∧ d.summary = found.summary := by
  generalize content : d.summary = summary at explains
  cases explains with
  | type =>
    exact absurd content.symm (d.summary_ne_keyword (by decide) (by decide) (by decide))
  | target spelled piece solid declared =>
    rw [ruleTarget?_of_parse? (Keyword.parse?_eq_some_iff.mpr spelled.symm)]
    exact ⟨piece, _, declared, rfl⟩

/-- The name of an actor that is shown behind the declared names is a site. -/
theorem exists_siteAt?_of_hoverAt? {hover : Hover} (found : doc.hoverAt? p = some hover)
    (summary : hover.content = d.summary) (solid : hover.range.isEmpty = false)
    (place : doc.kindAt? p.line = some .rule ∨ doc.kindAt? p.line = some .proxyGroup ∧
      ∃ key value, cut? '=' (doc.line p.line) = some (key, value) ∧ key.length + 1 < p.column) :
    ∃ x declared, doc.siteAt? p = some x ∧ x.range = hover.range ∧
      doc.declaration? x.name = some declared ∧ hover.content = declared.summary := by
  obtain ⟨a, explains, touches, range⟩ := hoverAt?_eq_some_iff.mp found
  rw [range, Span.isEmpty_range, Span.isEmpty_eq_false_iff] at solid
  rw [summary] at explains
  rw [range, summary]
  generalize content : d.summary = shown at explains
  cases explains with
  | setting known =>
    rw [known] at place
    simp at place
  | proxy known =>
    rw [known] at place
    simp at place
  | @name e kind known read =>
    -- the cursor is behind the `=`, the declared name in front of it
    rcases place with rule | ⟨-, key, value, cut, behind⟩
    · rw [known] at rule
      cases kind <;> cases rule
    · have ends := Entry.endColumn_key_le read cut
      have upTo := (Span.touches_iff.mp touches).2
      omega
  | @group e _ _ known read explains =>
    subst content
    obtain ⟨argument, inside, role, refers, declared, resolved, same⟩ := explains.refers
    have line : e.line = p.line := Entry.line_of_parse? read
    have site : e.referenceSiteAt? p.column = some (a.site p.line role) :=
      Entry.referenceSiteAt?_eq_some_iff.mpr
        ⟨argument, inside, a, role, refers, solid, touches, by rw [line]⟩
    refine ⟨a.site p.line role, declared, ?_, rfl, resolved, same⟩
    rw [siteAt?_eq, known]
    exact NumberedLine.siteAt?_of_referenceSiteAt? read site
  | rule known explains =>
    subst content
    obtain ⟨named, declared, resolved, same⟩ := explains.targets
    refine ⟨a.site p.line .ruleTarget, declared, ?_, rfl, resolved, same⟩
    rw [siteAt?_eq, known]
    exact NumberedLine.targetSiteAt?_eq_some_iff.mpr ⟨a, named, solid, touches, rfl⟩

/-- The hover and the lookup of names find the same references under a cursor: a declared actor that
the lookup finds is shown with the range of its name, and an actor that is shown on a rule, or behind
the first `=` of a group, is one whose name the lookup finds. -/
theorem hover_agrees_with_sites (doc : Document) (p : Position) :
    (∀ (x : NameSite) (d : Declaration), doc.siteAt? p = some x → x.role.isDeclaration = false →
      (x.role = .ruleTarget → ∃ k : RuleType,
        Keyword.parse? (NumberedLine.pieces ⟨p.line, doc.line p.line⟩).first.text = some k) →
      doc.declaration? x.name = some d → doc.hoverAt? p = some ⟨d.summary, x.range⟩) ∧
    ∀ (hover : Hover) (d : Declaration), doc.hoverAt? p = some hover → hover.content = d.summary →
      hover.range.isEmpty = false →
      (doc.kindAt? p.line = some .rule ∨ doc.kindAt? p.line = some .proxyGroup ∧
        ∃ key value, cut? '=' (doc.line p.line) = some (key, value) ∧ key.length + 1 < p.column) →
      ∃ x declared, doc.siteAt? p = some x ∧ x.range = hover.range ∧
        doc.declaration? x.name = some declared ∧ hover.content = declared.summary :=
  ⟨fun _ _ found reference known declared => hoverAt?_of_siteAt? found reference known declared,
    fun _ _ found summary solid place => exists_siteAt?_of_hoverAt? found summary solid place⟩

/-- The last resort of a group is shown, and the hover on a target is on its name. -/
theorem hover_agrees_with_sites_last_resort :
    let doc := Document.parse
      "[Proxy]\na = direct\n[Proxy Group]\ng = failover, a, last-resort=a\n[Rule]\nFINAL, a".toList
    (∃ d, doc.declaration? "a".toList = some d ∧
      doc.hoverAt? ⟨4, 30⟩ = some ⟨d.summary, ⟨⟨4, 30⟩, ⟨4, 31⟩⟩⟩) ∧
    ∃ x declared, doc.siteAt? ⟨6, 9⟩ = some x ∧ x.range = ⟨⟨6, 8⟩, ⟨6, 9⟩⟩ ∧
      doc.declaration? x.name = some declared := by
  intro doc
  let d : Declaration := ⟨.proxy, ⟨2, ⟨"a".toList, 1⟩, ⟨"direct".toList, 5⟩⟩⟩
  have declared : doc.declaration? "a".toList = some d := by decide +kernel
  have site : doc.siteAt? ⟨4, 30⟩ = some ⟨"a".toList, ⟨⟨4, 30⟩, ⟨4, 31⟩⟩, .lastResort⟩ := by
    decide +kernel
  have target : doc.hoverAt? ⟨6, 9⟩ = some ⟨d.summary, ⟨⟨6, 8⟩, ⟨6, 9⟩⟩⟩ := by decide +kernel
  have known : doc.kindAt? 6 = some .rule := by decide +kernel
  obtain ⟨x, found, at?, range, resolved, -⟩ :=
    (hover_agrees_with_sites doc ⟨6, 9⟩).2 _ d target rfl (by decide) (.inl known)
  exact ⟨⟨d, declared,
    (hover_agrees_with_sites doc ⟨4, 30⟩).1 _ d site rfl (fun rule => by cases rule) declared⟩,
    x, found, at?, range, resolved⟩

end Document

end ProxyConfig
