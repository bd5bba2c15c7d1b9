import ProxyConfig.Proofs.Actor.Namespace

/-! # Lists of references

The sites of a name are listed in the order of the document, each behind the one before it, and each
is a stretch of a line that spells the name. So edits at all of them do not touch each other. Leaving
the declarations out of the search leaves them out of the list and changes nothing else.
-/

namespace ProxyConfig

/-- The sites of an entry that do not declare a name are its references. -/
theorem Entry.filter_groupSites (e : Entry) (name : Text) :
    (e.declarationSites .group name ++ e.arguments.others.flatMap (e.referenceSites name)).filter
        (fun x => !x.role.isDeclaration) =
      e.arguments.others.flatMap (e.referenceSites name) := by
  have declared : (e.declarationSites .group name).filter (fun x => !x.role.isDeclaration) = [] := by
    rw [declarationSites]
    split <;> rfl
  rw [List.filter_append, declared, List.nil_append, List.filter_eq_self]
  intro x member
  obtain ⟨argument, -, found⟩ := List.mem_flatMap.mp member
  simpa using not_isDeclaration_of_mem_referenceSites found

namespace NumberedLine

/-- On a line, leaving the declarations out of the search leaves them out of what is found. -/
theorem filter_sites (l : NumberedLine) (kind? : Option SectionKind) (name : Text) :
    (l.sites kind? name true).filter (fun x => !x.role.isDeclaration) = l.sites kind? name false := by
  unfold sites
  split
  · cases l.rawEntry? with
    | none => rfl
    | some e =>
      rw [Option.toList_some, List.flatMap_singleton, List.flatMap_singleton, if_pos rfl,
        Entry.declarationSites]
      split <;> rfl
  · cases l.rawEntry? with
    | none => rfl
    | some e =>
      rw [Option.toList_some, List.flatMap_singleton, List.flatMap_singleton, if_pos rfl]
      exact e.filter_groupSites name
  · cases (ruleTarget? l.pieces).filter fun target => target.text == name <;> rfl
  · rfl

end NumberedLine

namespace Document

variable {doc : Document} {name : Text} {declarations : Bool}

theorem filter_siteWalk (doc : Document) (name : Text) :
    (doc.siteWalk name true).filter (fun x => !x.role.isDeclaration) = doc.siteWalk name false := by
  rw [siteWalk, siteWalk, List.filter_flatMap]
  simp only [List.filter_flatMap, NumberedLine.filter_sites]

/-- A site of a name covers the name on a line of the document. -/
theorem covers_of_mem_sites {x : NameSite} (member : x ∈ doc.sites name declarations) :
    x.name = name ∧ x.range.Covers doc name := by
  obtain ⟨s, here, l, inside, found⟩ := (mem_sites_iff (isName_of_mem_sites member)).mp member
  obtain ⟨span, role, rfl, text, stands⟩ := NumberedLine.standsIn_of_mem_sites found
  obtain ⟨first, last⟩ := number_of_mem_body here inside
  rw [← line_number_of_mem_body inside] at stands
  exact ⟨text, text ▸ stands.covers first last⟩

/-- The references to a name are listed in order and do not touch each other, each covers the name
and nothing else, and the shorter list is the longer one without the declarations. -/
theorem references_ordered_exact (doc : Document) (name : Text) :
    ((doc.sites name true).Pairwise fun x y => x.range.start.before y.range.start = true) ∧
      ((doc.sites name true).Pairwise fun x y => ∀ p, ¬ (x.range.touches p = true ∧
        y.range.touches p = true)) ∧
      (∀ x ∈ doc.sites name true, x.name = name ∧ x.range.Covers doc name) ∧
      doc.sites name false = (doc.sites name true).filter fun x => !x.role.isDeclaration := by
  by_cases named : IsName name
  · have ordered : (doc.sites name true).Pairwise fun x y => x.range.Precedes y.range := by
      rw [sites_eq_walk doc true named]
      exact siteWalk_pairwise doc name true
    refine ⟨ordered.imp And.left, ordered.imp ?_, fun x member => covers_of_mem_sites member, ?_⟩
    · exact fun order p both => order.not_touches both.1 both.2
    · rw [sites_eq_walk doc true named, sites_eq_walk doc false named, filter_siteWalk]
  · rw [sites_eq_nil named, sites_eq_nil named]
    exact ⟨.nil, .nil, fun x member => absurd member List.not_mem_nil, rfl⟩

/-- A wide name that a rule and a group refer to before it is declared. -/
theorem references_before_declaration :
    let doc := Document.parse
      "[Rule]\nFINAL,名\n[Proxy Group]\ng =failover,\u3000名 ,last-resort= 名\n[Proxy]\n名 = ss".toList
    ((doc.sites "名".toList true).map fun x => (x.role, x.range)) =
        [(.ruleTarget, .onLine 2 7 1), (.member, .onLine 4 14 1), (.lastResort, .onLine 4 30 1),
          (.declaration .proxy, .onLine 6 1 1)] ∧
      doc.sites "名".toList false =
        (doc.sites "名".toList true).filter fun x => !x.role.isDeclaration := by
  intro doc
  refine ⟨?_, (references_ordered_exact doc "名".toList).2.2.2⟩
  rw [sites_eq_walk doc true ⟨by decide, by decide⟩]
  decide +kernel

end Document

end ProxyConfig
