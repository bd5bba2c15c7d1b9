import ProxyConfig.Proofs.Layout
import ProxyConfig.Proofs.Position
import ProxyConfig.Proofs.Text.Columns
import Mathlib.Data.List.Perm.Basic

/-! # Sites line by line

The search for a name goes through the proxies, the groups and the rules of a document and sorts what
it finds. The result is a walk through the document: section by section, line by line, and each line
from left to right. `sites_eq_walk` states this, and facts about all sites are then facts about the
sites of one line.
-/

namespace ProxyConfig

open Text

namespace NumberedLine

/-- The entry that everything but the validators reads off a line. -/
def rawEntry? (l : NumberedLine) : Option Entry := Entry.ofLine? l.number l.text

/-- The sites of a name on a line of a section of the given kind, from left to right. -/
def sites (l : NumberedLine) (kind? : Option SectionKind) (name : Text) (declarations : Bool) :
    List NameSite :=
  match kind? with
  | some .proxy =>
    l.rawEntry?.toList.flatMap fun e =>
      if declarations then e.declarationSites .proxy name else []
  | some .proxyGroup =>
    l.rawEntry?.toList.flatMap fun e =>
      (if declarations then e.declarationSites .group name else [])
        ++ e.arguments.others.flatMap (e.referenceSites name)
  | some .rule =>
    (((ruleTarget? l.pieces).filter fun target => target.text == name).map
      fun target => target.site l.number .ruleTarget).toList
  | _ => []

end NumberedLine

/-- A name that the search looks for at all: not empty, and without `=`. -/
def IsName (name : Text) : Prop := name ≠ [] ∧ '=' ∉ name

/-- A site that a name has on a line, somewhere between two columns. -/
def NameSite.Within (x : NameSite) (line : Nat) (name : Text) (first last : Nat) : Prop :=
  ∃ span : Span, ∃ role, x = span.site line role ∧ span.text = name ∧ first ≤ span.column ∧
    span.endColumn ≤ last

theorem NameSite.Within.mono {x : NameSite} {line : Nat} {name : Text} {first last first' last' : Nat}
    (within : x.Within line name first last) (left : first' ≤ first) (right : last ≤ last') :
    x.Within line name first' last' := by
  obtain ⟨span, role, rfl, text, starts, ends⟩ := within
  exact ⟨span, role, rfl, text, Nat.le_trans left starts, Nat.le_trans ends right⟩

/-- Sites of a name that lie between columns behind each other are in order. -/
theorem NameSite.Within.precedes {x y : NameSite} {line : Nat} {name : Text} {a b c d : Nat}
    (left : x.Within line name a b) (right : y.Within line name c d) (apart : b < c) :
    x.range.Precedes y.range := by
  obtain ⟨span, role, rfl, -, -, ends⟩ := left
  obtain ⟨other, role', rfl, -, starts, -⟩ := right
  exact Span.range_precedes (by omega)

/-- A site that a name has on a line, at a stretch of a text that starts at a column. -/
def NameSite.StandsIn (x : NameSite) (line : Nat) (name : Text) (start : Nat) (s : Text) : Prop :=
  ∃ span : Span, ∃ role, x = span.site line role ∧ span.text = name ∧ span.StandsIn start s

namespace NameSite.StandsIn

variable {x : NameSite} {line start : Nat} {name s : Text}

theorem within (stands : x.StandsIn line name start s) :
    x.Within line name start (start + s.length) := by
  obtain ⟨span, role, rfl, text, inside⟩ := stands
  exact ⟨span, role, rfl, text, inside.le_column, inside.endColumn_le⟩

theorem trans {a : Span} (inner : x.StandsIn line name a.column a.text)
    (outer : a.StandsIn start s) : x.StandsIn line name start s := by
  obtain ⟨span, role, rfl, text, inside⟩ := inner
  exact ⟨span, role, rfl, text, inside.trans outer⟩

end NameSite.StandsIn

namespace Entry

variable {e : Entry} {name : Text} {x : NameSite}

theorem standsIn_of_mem_declarationSites {kind : ActorKind}
    (member : x ∈ e.declarationSites kind name) :
    x.StandsIn e.line name e.key.column e.key.text := by
  rw [declarationSites] at member
  split at member
  · next same =>
    obtain rfl := List.mem_singleton.mp member
    exact ⟨e.key, _, rfl, same, Span.standsIn_self e.key⟩
  · cases member

theorem eq_value_of_lastResort? {property : Entry} {value : Span}
    (resort : property.lastResort? = some value) : value = property.value := by
  rw [lastResort?, Option.ite_none_right_eq_some, Option.some.injEq] at resort
  exact resort.2.symm

/-- The span by which an argument of a group refers to an actor, and what the name does there. -/
inductive Refers (e : Entry) (argument : Span) : Span → NameRole → Prop
  | member (plain : argument.property? e.line = none) : e.Refers argument argument .member
  | lastResort {property : Entry} {value : Span} (read : argument.property? e.line = some property)
      (resort : property.lastResort? = some value) : e.Refers argument value .lastResort

theorem mem_referenceSites_iff {argument : Span} : x ∈ e.referenceSites name argument ↔
    ∃ a role, e.Refers argument a role ∧ a.text = name ∧ x = a.site e.line role := by
  rw [referenceSites]
  constructor
  · intro member
    split at member
    · next plain =>
      obtain ⟨text, here⟩ := List.mem_ite_nil_right.mp member
      exact ⟨argument, .member, .member plain, text, List.mem_singleton.mp here⟩
    · next property read =>
      split at member
      · cases member
      · next value resort =>
        obtain ⟨text, here⟩ := List.mem_ite_nil_right.mp member
        exact ⟨value, .lastResort, .lastResort read resort, text, List.mem_singleton.mp here⟩
  · rintro ⟨a, role, refers, text, rfl⟩
    cases refers with
    | member plain =>
      rw [plain]
      exact List.mem_ite_nil_right.mpr ⟨text, List.mem_singleton_self _⟩
    | lastResort read resort =>
      simp only [read, resort]
      exact List.mem_ite_nil_right.mpr ⟨text, List.mem_singleton_self _⟩

/-- The name stands in its argument. -/
theorem Refers.standsIn {argument a : Span} {role : NameRole} (refers : e.Refers argument a role) :
    a.StandsIn argument.column argument.text := by
  cases refers with
  | member => exact Span.standsIn_self argument
  | lastResort read resort =>
    rw [eq_value_of_lastResort? resort]
    exact (Span.standsIn_of_property? read).2

/-- A name stands in an argument with a text. -/
theorem Refers.solid {argument a : Span} {role : NameRole} (refers : e.Refers argument a role)
    (solid : a.text ≠ []) : argument.text ≠ [] := by
  obtain ⟨before, after, split, -⟩ := refers.standsIn
  rw [split]
  simp [solid]

theorem standsIn_of_mem_referenceSites {argument : Span}
    (member : x ∈ e.referenceSites name argument) :
    x.StandsIn e.line name argument.column argument.text := by
  obtain ⟨a, role, refers, text, rfl⟩ := mem_referenceSites_iff.mp member
  exact ⟨a, role, rfl, text, refers.standsIn⟩

theorem standsIn_of_mem_others_sites
    (member : x ∈ e.arguments.others.flatMap (e.referenceSites name)) :
    x.StandsIn e.line name e.value.column e.value.text := by
  obtain ⟨argument, inside, found⟩ := List.mem_flatMap.mp member
  have listed : argument ∈ e.arguments.toList := List.mem_cons_of_mem _ inside
  exact (standsIn_of_mem_referenceSites found).trans (standsIn_of_mem_arguments listed)

theorem within_of_mem_declarationSites {kind : ActorKind}
    (member : x ∈ e.declarationSites kind name) :
    x.Within e.line name e.key.column e.key.endColumn :=
  (standsIn_of_mem_declarationSites member).within

theorem within_of_mem_referenceSites {argument : Span}
    (member : x ∈ e.referenceSites name argument) :
    x.Within e.line name argument.column argument.endColumn :=
  (standsIn_of_mem_referenceSites member).within

theorem within_of_mem_others_sites (member : x ∈ e.arguments.others.flatMap (e.referenceSites name)) :
    x.Within e.line name e.value.column e.value.endColumn :=
  (standsIn_of_mem_others_sites member).within

theorem referenceSites_pairwise (argument : Span) :
    (e.referenceSites name argument).Pairwise fun x y => x.range.Precedes y.range := by
  rw [referenceSites]
  split
  · split
    · exact List.pairwise_singleton _ _
    · exact .nil
  · split
    · exact .nil
    · split
      · exact List.pairwise_singleton _ _
      · exact .nil

/-- The references of an entry are found from left to right. -/
theorem others_sites_pairwise (e : Entry) (name : Text) :
    (e.arguments.others.flatMap (e.referenceSites name)).Pairwise
      fun x y => x.range.Precedes y.range := by
  refine List.pairwise_flatMap.mpr ⟨fun argument _ => referenceSites_pairwise argument, ?_⟩
  refine (List.pairwise_cons.mp (arguments_pairwise e)).2.imp ?_
  intro a b apart x left y right
  exact (within_of_mem_referenceSites left).precedes (within_of_mem_referenceSites right) apart

end Entry

/-- The target of a rule of a known type is the piece that the type says. -/
theorem ruleTarget?_of_parse? {p : Pieces} {rule : RuleType}
    (known : (Keyword.parse? p.first.text : Option RuleType) = some rule) :
    ruleTarget? p = p.piece? rule.targetIndex := by
  rw [ruleTarget?, known]
  split
  · next first target rest final others =>
    obtain rfl := Option.some.inj final
    rw [Pieces.piece?, Pieces.toList, others]
    rfl
  · next other =>
    cases rule with
    | final =>
      -- without a target there is no third piece either
      cases others : p.others with
      | nil =>
        rw [Pieces.piece?, Pieces.piece?, Pieces.toList, others]
        rfl
      | cons target rest => exact absurd others (other target rest rfl)
    | _ => rfl

theorem mem_of_ruleTarget? {pieces : Pieces} {target : Span} (found : ruleTarget? pieces = some target) :
    ∃ i, i ≠ 0 ∧ pieces.piece? i = some target := by
  rw [ruleTarget?] at found
  split at found
  · next first target' rest others =>
    cases found
    refine ⟨1, by decide, ?_⟩
    rw [Pieces.piece?, Pieces.toList, others]
    rfl
  · exact ⟨2, by decide, found⟩

namespace NumberedLine

variable {l : NumberedLine} {kind? : Option SectionKind} {name : Text} {declarations : Bool}
  {x : NameSite}

theorem standsIn_of_rawEntry? {e : Entry} (read : l.rawEntry? = some e) :
    e.line = l.number ∧ e.key.StandsIn 1 l.text ∧ e.value.StandsIn 1 l.text ∧
      e.key.endColumn < e.value.column := by
  obtain ⟨key, value⟩ := Entry.standsIn_of_parse? read
  exact ⟨Entry.line_of_parse? read, key, value, (Entry.key_before_value_of_parse? read).2⟩

/-- The sites of a name on a line are stretches of the line. -/
theorem standsIn_of_mem_sites (member : x ∈ l.sites kind? name declarations) :
    x.StandsIn l.number name 1 l.text := by
  unfold sites at member
  split at member
  · obtain ⟨e, read, found⟩ := List.mem_flatMap.mp member
    obtain ⟨line, key, -, -⟩ := standsIn_of_rawEntry? (Option.mem_toList.mp read)
    split at found
    · exact line ▸ (Entry.standsIn_of_mem_declarationSites found).trans key
    · cases found
  · obtain ⟨e, read, found⟩ := List.mem_flatMap.mp member
    obtain ⟨line, key, value, -⟩ := standsIn_of_rawEntry? (Option.mem_toList.mp read)
    rcases List.mem_append.mp found with found | found
    · split at found
      · exact line ▸ (Entry.standsIn_of_mem_declarationSites found).trans key
      · cases found
    · exact line ▸ (Entry.standsIn_of_mem_others_sites found).trans value
  · rw [Option.mem_toList, Option.map_eq_some_iff] at member
    obtain ⟨target, selected, rfl⟩ := member
    obtain ⟨found, same⟩ := Option.filter_eq_some_iff.mp selected
    obtain ⟨i, -, piece⟩ := mem_of_ruleTarget? found
    have listed : target ∈ l.pieces.toList := List.mem_of_getElem? piece
    exact ⟨target, _, rfl, by simpa using same, standsIn_of_mem_pieces listed⟩
  · cases member

/-- The sites of a name on a line lie on the line. -/
theorem within_of_mem_sites (member : x ∈ l.sites kind? name declarations) :
    x.Within l.number name 1 (l.text.length + 1) := by
  rw [Nat.add_comm]
  exact (standsIn_of_mem_sites member).within

/-- The sites of a name on a line are found from left to right. -/
theorem sites_pairwise (l : NumberedLine) (kind? : Option SectionKind) (name : Text)
    (declarations : Bool) :
    (l.sites kind? name declarations).Pairwise fun x y => x.range.Precedes y.range := by
  have declared (e : Entry) (kind : ActorKind) :
      (if declarations then e.declarationSites kind name else []).Pairwise
        fun x y => x.range.Precedes y.range := by
    split
    · rw [Entry.declarationSites]
      split
      · exact List.pairwise_singleton _ _
      · exact .nil
    · exact .nil
  unfold sites
  split
  · cases l.rawEntry? with
    | none => exact .nil
    | some e => simpa using declared e .proxy
  · cases read : l.rawEntry? with
    | none => exact .nil
    | some e =>
      obtain ⟨-, -, -, middle⟩ := standsIn_of_rawEntry? read
      rw [Option.toList_some, List.flatMap_singleton]
      refine List.pairwise_append.mpr ⟨declared e .group, e.others_sites_pairwise name, ?_⟩
      intro x left y right
      split at left
      · exact (Entry.within_of_mem_declarationSites left).precedes
          (Entry.within_of_mem_others_sites right) middle
      · cases left
  · cases (ruleTarget? l.pieces).filter fun target => target.text == name with
    | none => exact .nil
    | some target => exact List.pairwise_singleton _ _
  · exact .nil

end NumberedLine

namespace Document

variable {doc : Document} {name : Text} {declarations : Bool}

/-- The sites of a name, section by section and line by line. -/
def siteWalk (doc : Document) (name : Text) (declarations : Bool) : List NameSite :=
  doc.sections.flatMap fun s => (doc.body s).flatMap fun l => l.sites s.kind? name declarations

/-- What is found on the lines of a kind is found section by section. -/
theorem flatMap_linesOf {β : Type} (doc : Document) (kind : SectionKind)
    (f : NumberedLine → List β) :
    (doc.linesOf kind).flatMap f =
      doc.sections.flatMap fun s => if s.kind? = some kind then (doc.body s).flatMap f else [] := by
  rw [linesOf, sectionsOf, List.flatMap_assoc]
  induction doc.sections with
  | nil => rfl
  | cons s rest ih =>
    rw [List.flatMap_cons, ← ih]
    by_cases same : s.kind? = some kind
    · rw [List.filter_cons_of_pos (by simpa using same), List.flatMap_cons, if_pos same]
    · rw [List.filter_cons_of_neg (by simpa using same), if_neg same, List.nil_append]

/-- What is found in the entries of a kind is found section by section. -/
theorem flatMap_entries {β : Type} (doc : Document) (kind : SectionKind) (f : Entry → List β) :
    (doc.entries kind).flatMap f = doc.sections.flatMap fun s =>
      if s.kind? = some kind then (doc.body s).flatMap fun l => l.rawEntry?.toList.flatMap f
      else [] := by
  rw [entries, List.filterMap_eq_flatMap_toList, List.flatMap_assoc]
  exact flatMap_linesOf doc kind fun l => l.rawEntry?.toList.flatMap f

/-- The three searches together find what the walk finds. -/
private theorem perm_siteWalk (doc : Document) (name : Text) (declarations : Bool) :
    ((if declarations then doc.declarationSites .proxy name else [])
      ++ doc.groupSites name declarations ++ doc.ruleSites name).Perm
        (doc.siteWalk name declarations) := by
  have proxies : (if declarations then doc.declarationSites .proxy name else []) =
      doc.sections.flatMap fun s => if s.kind? = some .proxy then (doc.body s).flatMap fun l =>
        l.sites (some .proxy) name declarations else [] := by
    cases declarations with
    | true => exact flatMap_entries doc .proxy _
    | false => simp [NumberedLine.sites]
  have groups : doc.groupSites name declarations =
      doc.sections.flatMap fun s => if s.kind? = some .proxyGroup then (doc.body s).flatMap fun l =>
        l.sites (some .proxyGroup) name declarations else [] :=
    flatMap_entries doc .proxyGroup _
  have rules : doc.ruleSites name =
      doc.sections.flatMap fun s => if s.kind? = some .rule then (doc.body s).flatMap fun l =>
        l.sites (some .rule) name declarations else [] := by
    rw [ruleSites, List.filterMap_eq_flatMap_toList]
    exact flatMap_linesOf doc .rule _
  rw [proxies, groups, rules]
  refine ((List.flatMap_append_perm _ _ _).append_right _).trans ?_
  refine (List.flatMap_append_perm _ _ _).trans (List.Perm.of_eq ?_)
  rw [siteWalk]
  congr 1
  funext s
  -- at most one of the three searches looks into a section
  cases kinds : s.kind? with
  | none => simp [NumberedLine.sites]
  | some kind => cases kind <;> simp [NumberedLine.sites]

/-- The walk finds the sites in document order, each behind the one before it. -/
theorem siteWalk_pairwise (doc : Document) (name : Text) (declarations : Bool) :
    (doc.siteWalk name declarations).Pairwise fun x y => x.range.Precedes y.range := by
  have behind {l m : NumberedLine} {kind? kind?' : Option SectionKind} {x y : NameSite}
      (left : x ∈ l.sites kind? name declarations) (right : y ∈ m.sites kind?' name declarations)
      (less : l.number < m.number) : x.range.Precedes y.range := by
    obtain ⟨span, role, rfl, -⟩ := NumberedLine.within_of_mem_sites left
    obtain ⟨other, role', rfl, -⟩ := NumberedLine.within_of_mem_sites right
    exact Span.range_precedes_of_lt less
  refine List.pairwise_flatMap.mpr ⟨fun s _ => List.pairwise_flatMap.mpr ⟨?_, ?_⟩, ?_⟩
  · exact fun l _ => l.sites_pairwise s.kind? name declarations
  · exact (body_pairwise doc s).imp fun less x left y right => behind left right less
  · refine (sections_pairwise doc).imp ?_
    intro s t apart x left y right
    obtain ⟨l, here, left⟩ := List.mem_flatMap.mp left
    obtain ⟨m, there, right⟩ := List.mem_flatMap.mp right
    have upTo := (mem_body_iff.mp here).2.1
    have after := (mem_body_iff.mp there).1
    exact behind left right (by omega)

/-- Sites of the walk at one place are one site. -/
private theorem eq_of_mem_siteWalk {x y : NameSite} (left : x ∈ doc.siteWalk name declarations)
    (right : y ∈ doc.siteWalk name declarations) (forth : x.range.start.upTo y.range.start = true)
    (back : y.range.start.upTo x.range.start = true) : x = y := by
  rcases (siteWalk_pairwise doc name declarations).apart left right with same | before | after
  · exact same
  · exact absurd before.1 (Position.not_before_of_upTo back)
  · exact absurd after.1 (Position.not_before_of_upTo forth)

/-- The sorted search is the walk through the document. -/
theorem sites_eq_walk (doc : Document) (declarations : Bool) (named : IsName name) :
    doc.sites name declarations = doc.siteWalk name declarations := by
  obtain ⟨solid, bare⟩ := named
  have searched : ¬ (name.isEmpty || name.contains '=') = true := by
    simpa using ⟨solid, bare⟩
  rw [sites, if_neg searched]
  have found := (List.mergeSort_perm _ fun a b : NameSite =>
    a.range.start.upTo b.range.start).trans (perm_siteWalk doc name declarations)
  refine found.eq_of_pairwise ?_ (List.pairwise_mergeSort ?_ ?_ _)
    ((siteWalk_pairwise doc name declarations).imp fun order => Position.upTo_of_before order.1)
  · intro x y left right forth back
    exact eq_of_mem_siteWalk (found.mem_iff.mp left) right forth back
  · exact fun _ _ _ => Position.upTo_trans
  · exact fun _ _ => Position.upTo_total _ _

theorem sites_eq_nil (unnamed : ¬ IsName name) : doc.sites name declarations = [] := by
  rw [sites, if_pos]
  rw [IsName, not_and_or, not_not, not_not] at unnamed
  simpa using unnamed

theorem isName_of_mem_sites {x : NameSite} (member : x ∈ doc.sites name declarations) :
    IsName name := by
  by_contra unnamed
  rw [sites_eq_nil unnamed] at member
  cases member

/-- A site of a name stands on a line of the body of a section. -/
theorem mem_sites_iff (named : IsName name) {x : NameSite} :
    x ∈ doc.sites name declarations ↔
      ∃ s ∈ doc.sections, ∃ l ∈ doc.body s, x ∈ l.sites s.kind? name declarations := by
  simp only [sites_eq_walk doc declarations named, siteWalk, List.mem_flatMap]

/-- A site of the search stands in the body of a section, so on no header. -/
theorem headerName?_of_mem_sites {x : NameSite}
    (member : x ∈ doc.sites name declarations) :
    headerName? (doc.line x.range.start.line) = none := by
  have named := isName_of_mem_sites member
  obtain ⟨s, here, l, inside, found⟩ := (mem_sites_iff named).mp member
  obtain ⟨span, role, rfl, -⟩ := NumberedLine.within_of_mem_sites found
  change headerName? (doc.line l.number) = none
  rw [line_number_of_mem_body inside]
  exact headerName?_of_mem_body here inside

end Document

end ProxyConfig
