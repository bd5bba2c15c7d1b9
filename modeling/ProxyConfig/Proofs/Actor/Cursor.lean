import ProxyConfig.Proofs.Actor.Namespace

/-! # The site under the cursor

The lookup under the cursor goes from a position to a line and counts commas; the search for a name
goes from the sections to their lines and takes the pieces one by one. On one line, a cursor that
touches a piece has as many commas before it as there are pieces before that one, so both read the
same piece, and over the document both see the same lines.
-/

namespace ProxyConfig

open Text

namespace NumberedLine

/-- The actor name that a cursor on a line of a section of the given kind touches. -/
def siteAt? (l : NumberedLine) (kind? : Option SectionKind) (column : Nat) : Option NameSite :=
  match kind? with
  | some .proxy => l.rawEntry?.bind fun e => e.declarationSiteAt? .proxy ⟨l.number, column⟩
  | some .proxyGroup =>
    l.rawEntry?.bind fun e =>
      (e.declarationSiteAt? .group ⟨l.number, column⟩).or (e.referenceSiteAt? column)
  | some .rule => l.targetSiteAt? column
  | _ => none

end NumberedLine

theorem Document.siteAt?_eq (doc : Document) (p : Position) :
    doc.siteAt? p =
      NumberedLine.siteAt? ⟨p.line, doc.line p.line⟩ (doc.kindAt? p.line) p.column := rfl

namespace Span

theorem isEmpty_eq_false_iff {a : Span} : a.isEmpty = false ↔ a.text ≠ [] := by
  simp [isEmpty]

/-- A column in the range of a span on a line touches the span. -/
theorem touches_of_contains {a : Span} {line column : Nat}
    (inside : (a.range line).contains ⟨line, column⟩ = true) : a.touches column = true := by
  obtain ⟨-, starts, ends⟩ := Range.contains_onLine_iff.mp inside
  rw [touches, Bool.and_eq_true, decide_eq_true_eq, decide_eq_true_eq]
  exact ⟨starts, Nat.le_of_lt ends⟩

theorem touches_iff {a : Span} {column : Nat} :
    a.touches column = true ↔ a.column ≤ column ∧ column ≤ a.endColumn := by
  rw [touches, Bool.and_eq_true, decide_eq_true_eq, decide_eq_true_eq]

/-- A column that touches a part of a span touches the span. -/
theorem StandsIn.touches {a b : Span} {column : Nat} (stands : b.StandsIn a.column a.text)
    (touches : b.touches column = true) : a.touches column = true := by
  have starts := stands.le_column
  have ends : b.endColumn ≤ a.endColumn := stands.endColumn_le
  rw [touches_iff] at touches ⊢
  exact ⟨Nat.le_trans starts touches.1, Nat.le_trans touches.2 ends⟩

end Span

namespace Entry

variable {e : Entry} {x : NameSite}

theorem declarationSiteAt?_eq_some_iff {kind : ActorKind} {p : Position} :
    e.declarationSiteAt? kind p = some x ↔
      e.key.text ≠ [] ∧ e.keyRange.contains p = true ∧
        x = e.key.site e.line (.declaration kind) := by
  rw [declarationSiteAt?, Option.ite_none_right_eq_some, Bool.and_eq_true, Bool.not_eq_true',
    Span.isEmpty_eq_false_iff, Option.some.injEq, and_assoc, eq_comm (a := x)]

theorem mem_declarationSites_iff {kind : ActorKind} {name : Text} :
    x ∈ e.declarationSites kind name ↔
      e.key.text = name ∧ x = e.key.site e.line (.declaration kind) := by
  rw [declarationSites, List.mem_ite_nil_right, List.mem_singleton]

/-- A cursor that touches an argument is in the piece with its number. -/
theorem piece?_pieceIndexAt {argument : Span} {column : Nat} (inside : argument ∈ e.arguments.others)
    (touches : argument.touches column = true) :
    ¬ column < e.value.column ∧
      (if pieceIndexAt e.value.text e.value.column column = 0 then none
        else e.arguments.piece? (pieceIndexAt e.value.text e.value.column column)) =
          some argument := by
  obtain ⟨i, here⟩ := List.mem_iff_getElem?.mp inside
  have piece : e.arguments.piece? (i + 1) = some argument := here
  have index : pieceIndexAt e.value.text e.value.column column = i + 1 :=
    Pieces.pieceIndexAt_of_touches piece touches
  have starts := le_column_of_mem_arguments (List.mem_of_getElem? piece)
  have reached := (Span.touches_iff.mp touches).1
  rw [index, if_neg (Nat.succ_ne_zero i), piece]
  exact ⟨by omega, rfl⟩

/-- What a cursor touches among the arguments is a name that one of them refers to. -/
theorem referenceSiteAt?_eq_some_iff {column : Nat} : e.referenceSiteAt? column = some x ↔
    ∃ argument ∈ e.arguments.others, ∃ a role, e.Refers argument a role ∧ a.text ≠ [] ∧
      a.touches column = true ∧ x = a.site e.line role := by
  constructor
  · intro found
    rw [referenceSiteAt?] at found
    split at found
    · cases found
    dsimp only at found
    split at found
    · cases found
    next argument selected =>
    have inside : argument ∈ e.arguments.others := by
      split at selected
      · cases selected
      · next index =>
        obtain ⟨i, succ⟩ := Nat.exists_eq_succ_of_ne_zero index
        rw [succ] at selected
        exact List.mem_of_getElem? (i := i) selected
    refine ⟨argument, inside, ?_⟩
    split at found
    · next plain =>
      rw [Option.ite_none_right_eq_some, Bool.and_eq_true, Bool.not_eq_true',
        Span.isEmpty_eq_false_iff, Option.some.injEq] at found
      obtain ⟨⟨solid, touches⟩, rfl⟩ := found
      exact ⟨argument, .member, .member plain, solid, touches, rfl⟩
    · next property read =>
      obtain ⟨value, selected, rfl⟩ := Option.map_eq_some_iff.mp found
      obtain ⟨resort, test⟩ := Option.filter_eq_some_iff.mp selected
      rw [Bool.and_eq_true, Bool.not_eq_true', Span.isEmpty_eq_false_iff] at test
      exact ⟨value, .lastResort, .lastResort read resort, test.1, test.2, rfl⟩
  · rintro ⟨argument, inside, a, role, refers, solid, touches, rfl⟩
    obtain ⟨reached, piece⟩ :=
      piece?_pieceIndexAt inside (refers.standsIn.touches touches)
    have full : a.isEmpty = false := Span.isEmpty_eq_false_iff.mpr solid
    rw [referenceSiteAt?, if_neg reached]
    cases refers with
    | member plain =>
      simp only [piece, plain, full, touches, Bool.not_false, Bool.and_self, if_true]
    | lastResort read resort =>
      simp only [piece, read, resort, Option.filter_some, full, touches, Bool.not_false,
        Bool.and_self, if_true, Option.map_some]

/-- What the cursor touches in the arguments is a place of its name there. -/
theorem mem_others_sites_of_referenceSiteAt? {column : Nat}
    (found : e.referenceSiteAt? column = some x) :
    x ∈ e.arguments.others.flatMap (e.referenceSites x.name) := by
  obtain ⟨argument, inside, a, role, refers, -, -, rfl⟩ := referenceSiteAt?_eq_some_iff.mp found
  exact List.mem_flatMap.mpr ⟨argument, inside, mem_referenceSites_iff.mpr ⟨a, role, refers, rfl, rfl⟩⟩

/-- A cursor in a place of a name among the arguments finds that place. -/
theorem referenceSiteAt?_of_mem_others_sites {name : Text} {column : Nat} (solid : name ≠ [])
    (member : x ∈ e.arguments.others.flatMap (e.referenceSites name))
    (contains : x.range.contains ⟨e.line, column⟩ = true) : e.referenceSiteAt? column = some x := by
  obtain ⟨argument, inside, found⟩ := List.mem_flatMap.mp member
  obtain ⟨a, role, refers, text, rfl⟩ := mem_referenceSites_iff.mp found
  exact referenceSiteAt?_eq_some_iff.mpr ⟨argument, inside, a, role, refers, text ▸ solid,
    Span.touches_of_contains contains, rfl⟩

end Entry

namespace NumberedLine

variable {l : NumberedLine} {kind? : Option SectionKind} {x : NameSite} {column : Nat}

/-- A cursor that touches a reference is behind the declared name of the line. -/
theorem siteAt?_of_referenceSiteAt? {e : Entry} (read : l.rawEntry? = some e)
    (found : e.referenceSiteAt? column = some x) : l.siteAt? (some .proxyGroup) column = some x := by
  obtain ⟨-, -, -, middle⟩ := standsIn_of_rawEntry? read
  have undeclared : e.declarationSiteAt? .group ⟨l.number, column⟩ = none := by
    refine Option.eq_none_iff_forall_ne_some.mpr fun y declaration => ?_
    obtain ⟨argument, inside, a, role, refers, -, touches, -⟩ :=
      Entry.referenceSiteAt?_eq_some_iff.mp found
    have argumentTouches := refers.standsIn.touches touches
    have starts := Entry.le_column_of_mem_arguments (List.mem_cons_of_mem _ inside)
    have reached := (Span.touches_iff.mp argumentTouches).1
    obtain ⟨-, onKey, -⟩ := Entry.declarationSiteAt?_eq_some_iff.mp declaration
    obtain ⟨-, -, before⟩ := Range.contains_onLine_iff.mp onKey
    change column < e.key.endColumn at before
    omega
  change (l.rawEntry?.bind fun e => (e.declarationSiteAt? .group ⟨l.number, column⟩).or
    (e.referenceSiteAt? column)) = some x
  rw [read, Option.bind_some, undeclared, Option.none_or, found]

theorem targetSiteAt?_eq_some_iff :
    l.targetSiteAt? column = some x ↔ ∃ target, ruleTarget? l.pieces = some target ∧
      target.text ≠ [] ∧ target.touches column = true ∧ x = target.site l.number .ruleTarget := by
  rw [targetSiteAt?]
  constructor
  · intro found
    split at found
    · cases found
    · next target named =>
      rw [Option.ite_none_right_eq_some, Option.some.injEq] at found
      obtain ⟨⟨-, full, -, touches⟩, rfl⟩ := found
      rw [Bool.not_eq_true', Span.isEmpty_eq_false_iff] at full
      exact ⟨target, named, full, touches, rfl⟩
  · rintro ⟨target, named, solid, touches, rfl⟩
    obtain ⟨i, behind, piece⟩ := mem_of_ruleTarget? named
    have index : pieceIndexAt l.text.uncommented 1 column = i :=
      Pieces.pieceIndexAt_of_touches piece touches
    have full : target.isEmpty = false := Span.isEmpty_eq_false_iff.mpr solid
    rw [named, index]
    exact if_pos ⟨behind, by rw [full]; rfl, piece, touches⟩

/-- What a cursor on a line touches is one of the sites of its name there. -/
theorem mem_sites_of_siteAt? (found : l.siteAt? kind? column = some x) :
    x ∈ l.sites kind? x.name true := by
  have declared {e : Entry} {kind : ActorKind} {p : Position}
      (here : e.declarationSiteAt? kind p = some x) : x ∈ e.declarationSites kind x.name := by
    obtain ⟨-, -, rfl⟩ := Entry.declarationSiteAt?_eq_some_iff.mp here
    exact Entry.mem_declarationSites_iff.mpr ⟨rfl, rfl⟩
  unfold siteAt? at found
  unfold sites
  split at found
  · obtain ⟨e, read, here⟩ := Option.bind_eq_some_iff.mp found
    exact List.mem_flatMap.mpr ⟨e, Option.mem_toList.mpr read, declared here⟩
  · obtain ⟨e, read, here⟩ := Option.bind_eq_some_iff.mp found
    refine List.mem_flatMap.mpr ⟨e, Option.mem_toList.mpr read, ?_⟩
    rcases Option.or_eq_some_iff.mp here with here | ⟨-, here⟩
    · exact List.mem_append_left _ (declared here)
    · exact List.mem_append_right _ (Entry.mem_others_sites_of_referenceSiteAt? here)
  · obtain ⟨target, named, -, -, rfl⟩ := targetSiteAt?_eq_some_iff.mp found
    have same : (target.text == (target.site l.number .ruleTarget).name) = true :=
      beq_self_eq_true target.text
    change _ ∈ (((ruleTarget? l.pieces).filter fun a =>
      a.text == (target.site l.number .ruleTarget).name).map fun a =>
        a.site l.number .ruleTarget).toList
    rw [named, Option.filter_some, if_pos same]
    exact List.mem_singleton_self _
  · cases found

/-- A cursor in the range of a site on the line touches that site. -/
theorem siteAt?_of_mem_sites {name : Text} (solid : name ≠ [])
    (member : x ∈ l.sites kind? name true) (contains : x.range.contains ⟨l.number, column⟩ = true) :
    l.siteAt? kind? column = some x := by
  have declared {e : Entry} {kind : ActorKind} (read : l.rawEntry? = some e)
      (here : x ∈ e.declarationSites kind name) :
      e.declarationSiteAt? kind ⟨l.number, column⟩ = some x := by
    obtain ⟨text, rfl⟩ := Entry.mem_declarationSites_iff.mp here
    exact Entry.declarationSiteAt?_eq_some_iff.mpr ⟨text ▸ solid, contains, rfl⟩
  unfold sites at member
  unfold siteAt?
  split at member
  · obtain ⟨e, read, here⟩ := List.mem_flatMap.mp member
    rw [Option.mem_toList] at read
    rw [read, Option.bind_some]
    exact declared read here
  · obtain ⟨e, read, here⟩ := List.mem_flatMap.mp member
    rw [Option.mem_toList] at read
    rcases List.mem_append.mp here with here | here
    · change (l.rawEntry?.bind fun e => (e.declarationSiteAt? .group ⟨l.number, column⟩).or
        (e.referenceSiteAt? column)) = some x
      rw [read, Option.bind_some, declared read here, Option.some_or]
    · rw [← Entry.line_of_parse? read] at contains
      exact siteAt?_of_referenceSiteAt? read
        (Entry.referenceSiteAt?_of_mem_others_sites solid here contains)
  · rw [Option.mem_toList, Option.map_eq_some_iff] at member
    obtain ⟨target, selected, rfl⟩ := member
    obtain ⟨named, same⟩ := Option.filter_eq_some_iff.mp selected
    have text : target.text = name := by simpa using same
    exact targetSiteAt?_eq_some_iff.mpr
      ⟨target, named, text ▸ solid, Span.touches_of_contains contains, rfl⟩
  · cases member

/-- There is nothing to touch on a blank line. -/
theorem siteAt?_of_allBlank (blank : l.text.allBlank = true) : l.siteAt? kind? column = none := by
  have bare : l.text.uncommented = l.text :=
    uncommented_of_not_mem (not_mem_of_allBlank blank (by decide))
  have unread : l.rawEntry? = none := by
    refine Entry.parse?_eq_none_iff.mpr ?_
    rw [bare]
    exact not_mem_of_allBlank blank (by decide)
  unfold siteAt?
  split
  · rw [unread, Option.bind_none]
  · rw [unread, Option.bind_none]
  · have single : l.pieces = ⟨.trimmed 1 l.text, []⟩ := by
      rw [pieces, bare, Pieces.read_of_not_mem 1 (not_mem_of_allBlank blank (by decide))]
    have untargeted : ruleTarget? l.pieces = none := by
      rw [single, ruleTarget?]
      split
      · next others => cases others
      · rfl
    rw [targetSiteAt?, untargeted]
  · rfl

end NumberedLine

namespace Document

variable {doc : Document}

theorem kindAt?_of_mem_body {s : Section} {l : NumberedLine} (here : s ∈ doc.sections)
    (member : l ∈ doc.body s) : doc.kindAt? l.number = s.kind? := by
  rw [kindAt?, sectionAt?_of_mem_body here member, Option.bind_some]

/-- A name under the cursor that is not declared there is a reference of a group, or a target. -/
theorem reference_cases_of_siteAt? {p : Position} {x : NameSite} (found : doc.siteAt? p = some x)
    (reference : x.role.isDeclaration = false) :
    (doc.kindAt? p.line = some .proxyGroup ∧ ∃ e, Entry.ofLine? p.line (doc.line p.line) = some e ∧
        e.referenceSiteAt? p.column = some x) ∨
      doc.kindAt? p.line = some .rule ∧
        NumberedLine.targetSiteAt? ⟨p.line, doc.line p.line⟩ p.column = some x := by
  have undeclared {e : Entry} {kind : ActorKind} (here : e.declarationSiteAt? kind p = some x) :
      False := by
    obtain ⟨-, -, rfl⟩ := Entry.declarationSiteAt?_eq_some_iff.mp here
    cases reference
  rw [siteAt?_eq] at found
  unfold NumberedLine.siteAt? at found
  split at found
  · obtain ⟨e, -, here⟩ := Option.bind_eq_some_iff.mp found
    exact (undeclared here).elim
  · next group =>
    obtain ⟨e, read, here⟩ := Option.bind_eq_some_iff.mp found
    rcases Option.or_eq_some_iff.mp here with here | ⟨-, here⟩
    · exact (undeclared here).elim
    · exact .inl ⟨group, e, read, here⟩
  · next rule => exact .inr ⟨rule, found⟩
  · cases found

/-- A cursor in the range of a site of a name finds that site. -/
theorem siteAt?_of_mem_sites {name : Text} (named : IsName name) {x : NameSite}
    (member : x ∈ doc.sites name true) {p : Position} (contains : x.range.contains p = true) :
    doc.siteAt? p = some x := by
  obtain ⟨s, here, l, inside, found⟩ := (mem_sites_iff named).mp member
  have onLine : p.line = l.number := by
    obtain ⟨span, role, rfl, -⟩ := NumberedLine.within_of_mem_sites found
    exact (Range.contains_onLine_iff.mp contains).1
  obtain ⟨line, column⟩ := p
  change line = l.number at onLine
  subst onLine
  rw [siteAt?_eq, kindAt?_of_mem_body here inside, line_number_of_mem_body inside]
  exact NumberedLine.siteAt?_of_mem_sites named.1 found contains

/-- A cursor on a line that is no header finds sites of the search only. -/
theorem mem_sites_of_siteAt? {p : Position} {x : NameSite} (named : IsName x.name)
    (body : headerName? (doc.line p.line) = none) (found : doc.siteAt? p = some x) :
    x ∈ doc.sites x.name true := by
  rw [siteAt?_eq] at found
  cases owner : doc.sectionAt? p.line with
  | none =>
    rw [kindAt?, owner] at found
    cases found
  | some s =>
    have here := mem_sections_of_sectionAt? owner
    rcases mem_body_or_allBlank_of_sectionAt? owner body with inside | blank
    · rw [kindAt?, owner] at found
      exact (mem_sites_iff named).mpr
        ⟨s, here, _, inside, NumberedLine.mem_sites_of_siteAt? found⟩
    · rw [NumberedLine.siteAt?_of_allBlank blank] at found
      cases found

/-- The search for a name and the lookup under the cursor find the same sites: the search finds what
some cursor on a line that is no header finds, and then every cursor in the range of the site does. -/
theorem mem_sites_iff_exists_siteAt? (s : Text) {name : Text} (named : IsName name) (x : NameSite) :
    (x ∈ (parse s).sites name true ↔ ∃ p, headerName? ((parse s).line p.line) = none ∧
      (parse s).siteAt? p = some x ∧ x.name = name) ∧
      (x ∈ (parse s).sites name true →
        ∀ p, x.range.contains p = true → (parse s).siteAt? p = some x) := by
  refine ⟨⟨?_, ?_⟩, fun member p contains => siteAt?_of_mem_sites named member contains⟩
  · intro member
    obtain ⟨t, here, l, inside, found⟩ := (mem_sites_iff named).mp member
    obtain ⟨span, role, rfl, text, -⟩ := NumberedLine.within_of_mem_sites found
    have long : 0 < span.length := List.length_pos_of_ne_nil (text ▸ named.1)
    refine ⟨⟨l.number, span.column⟩, ?_, siteAt?_of_mem_sites named member ?_, text⟩
    · rw [line_number_of_mem_body inside]
      exact headerName?_of_mem_body here inside
    · exact Range.contains_onLine_iff.mpr ⟨rfl, Nat.le_refl _, Nat.lt_add_of_pos_right long⟩
  · rintro ⟨p, body, found, rfl⟩
    exact mem_sites_of_siteAt? named body found

/-- The member of a group, found by the search and so under each of its columns. -/
theorem siteAt?_group_member :
    IsName "ab".toList ∧ ∀ column, 13 ≤ column → column < 15 →
      (parse "[Proxy Group]\ng = static, ab # x".toList).siteAt? ⟨2, column⟩ =
        some ⟨"ab".toList, .onLine 2 13 2, .member⟩ := by
  have named : IsName "ab".toList := ⟨by decide, by decide⟩
  refine ⟨named, ?_⟩
  intro column starts ends
  exact (mem_sites_iff_exists_siteAt? _ named _).2 (by decide +kernel) ⟨2, column⟩
    (Range.contains_onLine_iff.mpr ⟨rfl, starts, ends⟩)

end Document

end ProxyConfig
