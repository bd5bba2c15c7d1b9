import ProxyConfig.Proofs.Hover

/-! # Answers on the line of the cursor

What is shown or renamed at a cursor stands on its line: its range is that of a span of the line.
-/

namespace ProxyConfig

/-- A hover stands on the line of the cursor. -/
theorem Document.liesOn_hoverAt? {doc : Document} {p : Position} {hover : Hover}
    (found : doc.hoverAt? p = some hover) : hover.range.LiesOn p.line := by
  obtain ⟨a, -, -, range⟩ := hoverAt?_eq_some_iff.mp found
  rw [range]
  exact a.liesOn_range p.line

theorem NumberedLine.liesOn_of_mem_sites {l : NumberedLine} {kind? : Option SectionKind}
    {name : Text} {declarations : Bool} {x : NameSite}
    (member : x ∈ l.sites kind? name declarations) : x.range.LiesOn l.number := by
  obtain ⟨a, role, rfl, -⟩ := within_of_mem_sites member
  exact a.liesOn_range l.number

/-- The name under the cursor stands on its line. -/
theorem Document.liesOn_siteAt? {doc : Document} {p : Position} {x : NameSite}
    (found : doc.siteAt? p = some x) : x.range.LiesOn p.line := by
  rw [siteAt?_eq] at found
  exact NumberedLine.liesOn_of_mem_sites (NumberedLine.mem_sites_of_siteAt? found)

end ProxyConfig
