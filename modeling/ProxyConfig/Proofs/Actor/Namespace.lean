import ProxyConfig.Actor.Site
import ProxyConfig.Proofs.Actor.Sites

/-! # Declarations of a name

The declarations of a document are the entries of its actor sections. The first declaration of a name
is looked up in that list, and the sites of the name that declare it are those of the same list, so a
name that is declared once has one declaring site.
-/

namespace ProxyConfig

namespace NameRole

/-- Whether the name is declared there. -/
def isDeclaration : NameRole → Bool
  | declaration _ => true
  | member | lastResort | ruleTarget => false

end NameRole

namespace Declaration

/-- The place of the declared name. -/
def site (d : Declaration) : NameSite := d.entry.key.site d.entry.line (.declaration d.kind)

end Declaration

theorem Entry.not_isDeclaration_of_mem_referenceSites {e : Entry} {name : Text} {argument : Span}
    {x : NameSite} (member : x ∈ e.referenceSites name argument) :
    ¬ x.role.isDeclaration = true := by
  obtain ⟨a, role, refers, -, rfl⟩ := mem_referenceSites_iff.mp member
  cases refers <;> exact Bool.false_ne_true

theorem Namespace.contains_iff {ns : Namespace} {name : Text} :
    ns.contains name = true ↔ name ∈ ns.declarations.map Declaration.name := by
  rw [contains, List.contains_iff_mem, ns.mem_known]

namespace Document

variable {doc : Document} {name : Text}

/-- The declared names are the keys of the entries in the actor sections. -/
theorem map_name_actors (doc : Document) :
    doc.actors.declarations.map Declaration.name =
      (doc.entries .proxy ++ doc.entries .proxyGroup).map fun e => e.key.text := by
  rw [declarations_actors, declarations, declarations, List.map_append, List.map_append, List.map_map,
    List.map_map]
  rfl

theorem declaration?_eq_find? (doc : Document) (name : Text) :
    doc.declaration? name = doc.actors.declarations.find? fun d => d.name == name := by
  rw [declarations_actors, List.find?_append, declaration?]

/-- The namespace has the declaration that the search finds. -/
theorem get?_actors (doc : Document) (name : Text) : doc.actors.get? name = doc.declaration? name := by
  rw [declaration?_eq_find?, Namespace.get?]

theorem isSome_declaration?_iff :
    (doc.declaration? name).isSome = true ↔ name ∈ doc.actors.declarations.map Declaration.name := by
  rw [declaration?_eq_find?, List.find?_isSome, List.mem_map]
  simp only [beq_iff_eq]

theorem exists_declaration?_of_mem (declared : name ∈ doc.actors.declarations.map Declaration.name) :
    ∃ d, doc.declaration? name = some d :=
  Option.isSome_iff_exists.mp (isSome_declaration?_iff.mpr declared)

/-- A declaration is an entry in the sections of its kind. -/
theorem mem_actors_iff {d : Declaration} : d ∈ doc.actors.declarations ↔
    ∃ l ∈ doc.linesOf d.kind.sectionKind, l.rawEntry? = some d.entry := by
  obtain ⟨kind, e⟩ := d
  rw [declarations_actors, List.mem_append, declarations, declarations]
  cases kind <;> simp [entries, NumberedLine.rawEntry?]

theorem mem_actors_iff_mem_entries {d : Declaration} :
    d ∈ doc.actors.declarations ↔ d.entry ∈ doc.entries d.kind.sectionKind :=
  mem_actors_iff.trans List.mem_filterMap.symm

theorem isName_of_declared (declared : name ∈ doc.actors.declarations.map Declaration.name)
    (solid : name ≠ []) : IsName name := by
  obtain ⟨d, member, rfl⟩ := List.mem_map.mp declared
  obtain ⟨l, -, read⟩ := mem_actors_iff.mp member
  obtain ⟨key, value, -, keyed, -, -, -, -, entry⟩ := Entry.exists_append_of_parse? read
  rw [Declaration.name, entry, Span.text_trimmed] at solid ⊢
  exact ⟨solid, fun inside => keyed (Text.mem_of_mem_trim inside)⟩

/-- The declaring sites of a name, as declarations. -/
theorem declarationSites_eq (doc : Document) (name : Text) :
    doc.declarationSites .proxy name ++ doc.declarationSites .group name =
      (doc.actors.declarations.filter fun d => d.name == name).map Declaration.site := by
  have one (kind : ActorKind) : doc.declarationSites kind name =
      ((doc.declarations kind).filter fun d => d.name == name).map Declaration.site := by
    rw [declarationSites, declarations]
    induction doc.entries kind.sectionKind with
    | nil => rfl
    | cons e rest ih =>
      rw [List.flatMap_cons, ih, List.map_cons, Entry.declarationSites]
      by_cases same : e.key.text = name
      · have kept : (Declaration.name ⟨kind, e⟩ == name) = true := beq_iff_eq.mpr same
        rw [if_pos same, List.filter_cons, if_pos kept]
        rfl
      · have dropped : ¬ (Declaration.name ⟨kind, e⟩ == name) = true :=
          fun equal => same (eq_of_beq equal)
        rw [if_neg same, List.filter_cons, if_neg dropped]
        rfl
  rw [one, one, declarations_actors, List.filter_append, List.map_append]

/-- The sites of a name that declare it are those of its declarations. -/
theorem filter_sites_perm (doc : Document) (named : IsName name) :
    ((doc.sites name true).filter fun x => x.role.isDeclaration).Perm
      ((doc.actors.declarations.filter fun d => d.name == name).map Declaration.site) := by
  have declaring (e : Entry) (kind : ActorKind) :
      (e.declarationSites kind name).filter (fun x => x.role.isDeclaration) =
        e.declarationSites kind name := by
    rw [Entry.declarationSites]
    split <;> rfl
  have proxies : (doc.declarationSites .proxy name).filter (fun x => x.role.isDeclaration) =
      doc.declarationSites .proxy name := by
    rw [declarationSites, List.filter_flatMap]
    simp only [declaring]
  have groups : (doc.groupSites name true).filter (fun x => x.role.isDeclaration) =
      doc.declarationSites .group name := by
    have references (e : Entry) : (e.arguments.others.flatMap (e.referenceSites name)).filter
        (fun x => x.role.isDeclaration) = [] := by
      rw [List.filter_eq_nil_iff]
      intro x member
      obtain ⟨argument, -, found⟩ := List.mem_flatMap.mp member
      exact Entry.not_isDeclaration_of_mem_referenceSites found
    rw [groupSites, List.filter_flatMap]
    simp only [if_true, List.filter_append, declaring, references, List.append_nil]
    rfl
  have rules : (doc.ruleSites name).filter (fun x => x.role.isDeclaration) = [] := by
    rw [List.filter_eq_nil_iff]
    intro x member
    obtain ⟨l, -, found⟩ := List.mem_filterMap.mp member
    obtain ⟨target, -, rfl⟩ := Option.map_eq_some_iff.mp found
    exact Bool.false_ne_true
  have searched : ¬ (name.isEmpty || name.contains '=') = true := by
    simpa using ⟨named.1, named.2⟩
  rw [sites, if_neg searched, ← declarationSites_eq]
  refine ((List.mergeSort_perm _ _).filter _).trans (List.Perm.of_eq ?_)
  rw [if_pos rfl, List.filter_append, List.filter_append, proxies, groups, rules, List.append_nil]

/-- Where no name is declared twice, a declared name has one declaring site. -/
theorem filter_sites_of_nodup (named : IsName name)
    (unique : (doc.actors.declarations.map Declaration.name).Nodup) {d : Declaration}
    (found : doc.declaration? name = some d) :
    (doc.sites name true).filter (fun x => x.role.isDeclaration) = [d.site] := by
  have alone : doc.actors.declarations.filter (fun d => d.name == name) = [d] := by
    rw [declaration?_eq_find?, List.find?_eq_some_iff_append] at found
    obtain ⟨same, earlier, later, split, before⟩ := found
    have after : later.filter (fun d => d.name == name) = [] := by
      rw [split, List.map_append, List.map_cons] at unique
      have others := (List.nodup_cons.mp (List.nodup_append.mp unique).2.1).1
      rw [List.filter_eq_nil_iff]
      intro other member equal
      apply others
      rw [eq_of_beq same, ← eq_of_beq equal]
      exact List.mem_map_of_mem member
    have nothing : earlier.filter (fun d => d.name == name) = [] := by
      rw [List.filter_eq_nil_iff]
      intro other member equal
      simpa [equal] using before other member
    rw [split, List.filter_append, nothing, List.nil_append, List.filter_cons, if_pos same, after]
  have sites := filter_sites_perm doc named
  rw [alone, List.map_singleton] at sites
  exact List.perm_singleton.mp sites

end Document

end ProxyConfig
