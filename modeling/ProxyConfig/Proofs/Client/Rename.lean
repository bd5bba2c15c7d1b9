import ProxyConfig.Navigation
import ProxyConfig.Proofs.Actor.Rename
import ProxyConfig.Proofs.CursorLine

/-! # Offered and executed renames

A client is offered to rename the name under its cursor, and a rename edits the sites that the search
finds for that name. Every rename that goes through was offered. The converse needs the cursor's site
to be one of the search: the search skips names with `=` and header lines, and the cursor does not.
-/

namespace ProxyConfig

open Text

/-- A cursor finds no empty reference. -/
theorem Entry.name_ne_nil_of_referenceSiteAt? {e : Entry} {column : Nat} {x : NameSite}
    (found : e.referenceSiteAt? column = some x) : x.name ≠ [] := by
  rw [referenceSiteAt?] at found
  split at found
  · cases found
  dsimp only at found
  split at found
  · cases found
  split at found
  · split at found
    · next solid =>
      cases found
      rw [Bool.and_eq_true, Bool.not_eq_true', Span.isEmpty_eq_false_iff] at solid
      exact solid.1
    · cases found
  · obtain ⟨value, selected, rfl⟩ := Option.map_eq_some_iff.mp found
    have solid := (Option.filter_eq_some_iff.mp selected).2
    rw [Bool.and_eq_true, Bool.not_eq_true', Span.isEmpty_eq_false_iff] at solid
    exact solid.1

namespace Document

variable {doc : Document} {p : Position} {x : NameSite}

/-- A cursor finds no empty name. -/
theorem name_ne_nil_of_siteAt? (found : doc.siteAt? p = some x) : x.name ≠ [] := by
  have declared {e : Entry} {kind : ActorKind} {q : Position}
      (here : e.declarationSiteAt? kind q = some x) : x.name ≠ [] := by
    obtain ⟨solid, -, rfl⟩ := Entry.declarationSiteAt?_eq_some_iff.mp here
    exact solid
  rw [siteAt?_eq] at found
  unfold NumberedLine.siteAt? at found
  split at found
  · obtain ⟨e, -, here⟩ := Option.bind_eq_some_iff.mp found
    exact declared here
  · obtain ⟨e, -, here⟩ := Option.bind_eq_some_iff.mp found
    rcases Option.or_eq_some_iff.mp here with here | ⟨-, here⟩
    · exact declared here
    · exact Entry.name_ne_nil_of_referenceSiteAt? here
  · obtain ⟨target, -, solid, -, rfl⟩ := NumberedLine.targetSiteAt?_eq_some_iff.mp found
    exact solid
  · cases found

/-- What the cursor finds is found by the search, unless the name holds `=` or stands in a header. -/
theorem mem_sites_iff_of_siteAt? (found : doc.siteAt? p = some x) :
    x ∈ doc.sites x.name true ↔ '=' ∉ x.name ∧ headerName? (doc.line p.line) = none := by
  constructor
  · intro member
    have named := isName_of_mem_sites member
    have body := headerName?_of_mem_sites member
    rw [(liesOn_siteAt? found).1] at body
    exact ⟨named.2, body⟩
  · rintro ⟨plain, body⟩
    exact mem_sites_of_siteAt? ⟨name_ne_nil_of_siteAt? found, plain⟩ body found

end Document

namespace ClientView

variable {view : ClientView} {p : ClientPosition} {newName : Text}

/-- A rename goes through if the search finds the name under the cursor, and edits all its sites. -/
theorem rename_eq_ok_iff {renamed : ClientRename} (readable : '=' ∉ newName ∧ ',' ∉ newName) :
    view.rename p newName = .ok renamed ↔
      ∃ x, view.siteAt? p = some x ∧ view.doc.sites x.name true ≠ [] ∧
        renamed = ⟨x.name, newName, (view.doc.sites x.name true).map fun y =>
          ⟨view.clientRange y.range, String.ofList newName⟩⟩ := by
  have edits (x : NameSite) : (view.doc.siteRanges x.name).map
      (fun range => TextEdit.mk (view.clientRange range) (String.ofList newName)) =
        (view.doc.sites x.name true).map fun y =>
          ⟨view.clientRange y.range, String.ofList newName⟩ := by
    rw [Document.siteRanges, List.map_map]
    rfl
  rw [rename]
  constructor
  · intro renames
    cases planned : view.doc.planRename (view.position p) newName with
    | error refusal =>
      rw [planned] at renames
      cases renames
    | ok plan =>
      rw [planned] at renames
      obtain ⟨-, x, found, solid, rfl⟩ := Document.planRename_eq_ok_iff.mp planned
      cases renames
      exact ⟨x, found, solid, by rw [← edits]⟩
  · rintro ⟨x, found, solid, rfl⟩
    have planned := Document.planRename_eq_ok_iff.mpr
      ⟨Document.checkNewName_eq_ok_iff.mpr readable, x, found, solid, rfl⟩
    rw [planned, ← edits]
    rfl

theorem prepareRename?_eq_some_iff {range : ClientRange} {old : Text} :
    view.prepareRename? p = some (range, old) ↔
      ∃ x, view.siteAt? p = some x ∧ view.clientRange x.range = range ∧ x.name = old := by
  simp only [prepareRename?, Option.map_eq_some_iff, Prod.mk.injEq]

/-- Every rename to a readable name was offered. An offer can be taken if the search finds the offered
name somewhere, and the edits include the offered range if the name is free of `=` and stands on no
header line, which is when the search finds the very site under the cursor. -/
theorem rename_of_offer (view : ClientView) (p : ClientPosition) {newName : Text}
    (readable : '=' ∉ newName ∧ ',' ∉ newName) :
    (∀ renamed, view.rename p newName = .ok renamed →
      ∃ range, view.prepareRename? p = some (range, renamed.oldName)) ∧
    (∀ range old, view.prepareRename? p = some (range, old) →
      ((∃ renamed, view.rename p newName = .ok renamed) ↔ view.doc.sites old true ≠ []) ∧
      ('=' ∉ old → headerName? (view.doc.line (view.position p).line) = none →
        ∃ renamed, view.rename p newName = .ok renamed ∧ renamed.oldName = old ∧
          ∃ edit ∈ renamed.edits, edit.range = range)) ∧
    ∀ x, view.siteAt? p = some x → (x ∈ view.doc.sites x.name true ↔
      '=' ∉ x.name ∧ headerName? (view.doc.line (view.position p).line) = none) := by
  refine ⟨?_, ?_, fun x found => Document.mem_sites_iff_of_siteAt? found⟩
  · intro renamed renames
    obtain ⟨x, found, -, rfl⟩ := (rename_eq_ok_iff readable).mp renames
    exact ⟨view.clientRange x.range, prepareRename?_eq_some_iff.mpr ⟨x, found, rfl, rfl⟩⟩
  · intro range old offered
    obtain ⟨x, found, rfl, rfl⟩ := prepareRename?_eq_some_iff.mp offered
    refine ⟨⟨?_, fun solid => ⟨_, (rename_eq_ok_iff readable).mpr ⟨x, found, solid, rfl⟩⟩⟩, ?_⟩
    · rintro ⟨renamed, renames⟩
      obtain ⟨y, found', solid, -⟩ := (rename_eq_ok_iff readable).mp renames
      obtain rfl := Option.some.inj (found.symm.trans found')
      exact solid
    · intro plain body
      have member := (Document.mem_sites_iff_of_siteAt? found).mpr ⟨plain, body⟩
      exact ⟨_, (rename_eq_ok_iff readable).mpr ⟨x, found, List.ne_nil_of_mem member, rfl⟩, rfl,
        _, List.mem_map_of_mem member, rfl⟩

/-- The target of a `FINAL` rule is offered and renamed. -/
theorem rename_of_offer_target :
    let view : ClientView := ⟨.parse "[Proxy]\na = direct\n[Rule]\nFINAL, a".toList, .utf16⟩
    let new := "b".toList
    ('=' ∉ new ∧ ',' ∉ new) ∧
      view.prepareRename? ⟨3, 7⟩ = some (⟨⟨3, 7⟩, ⟨3, 8⟩⟩, "a".toList) ∧
      ∃ renamed, view.rename ⟨3, 7⟩ new = .ok renamed ∧ renamed.oldName = "a".toList ∧
        ∃ edit ∈ renamed.edits, edit.range = ⟨⟨3, 7⟩, ⟨3, 8⟩⟩ := by
  intro view new
  have readable : '=' ∉ new ∧ ',' ∉ new := by decide
  have offered : view.prepareRename? ⟨3, 7⟩ = some (⟨⟨3, 7⟩, ⟨3, 8⟩⟩, "a".toList) := by
    decide +kernel
  exact ⟨readable, offered, ((view.rename_of_offer ⟨3, 7⟩ readable).2.1 _ _ offered).2
    (by decide) (by decide +kernel)⟩

/-- A target with `=` is offered, although no rename of it goes through; so is a header line below a
section of proxies, whose text behind the brackets is read as a value. -/
theorem offer_refused :
    let view : ClientView :=
      ⟨.parse "[Proxy]\na = direct\n[Rule] = x\nFINAL, a=b".toList, .utf16⟩
    (view.prepareRename? ⟨3, 7⟩ = some (⟨⟨3, 7⟩, ⟨3, 10⟩⟩, "a=b".toList) ∧
      ¬ ∃ renamed, view.rename ⟨3, 7⟩ "Renamed".toList = .ok renamed) ∧
    view.prepareRename? ⟨2, 2⟩ = some (⟨⟨2, 0⟩, ⟨2, 6⟩⟩, "[Rule]".toList) ∧
      ¬ ∃ renamed, view.rename ⟨2, 2⟩ "Renamed".toList = .ok renamed := by
  intro view
  have refused {p : ClientPosition} {x : NameSite} (found : view.siteAt? p = some x)
      (nowhere : view.doc.sites x.name true = []) :
      ¬ ∃ renamed, view.rename p "Renamed".toList = .ok renamed := by
    rintro ⟨renamed, renames⟩
    obtain ⟨y, found', solid, -⟩ := (rename_eq_ok_iff (by decide)).mp renames
    obtain rfl := Option.some.inj (found.symm.trans found')
    exact solid nowhere
  refine ⟨⟨by decide +kernel, ?_⟩, by decide +kernel, ?_⟩
  · exact refused (x := ⟨"a=b".toList, .onLine 4 8 3, .ruleTarget⟩) (by decide +kernel)
      (Document.sites_eq_nil fun named => absurd named.2 (by decide))
  · refine refused (x := ⟨"[Rule]".toList, .onLine 3 1 6, .declaration .proxy⟩)
      (by decide +kernel) ?_
    rw [Document.sites_eq_walk _ _ ⟨by decide, by decide⟩]
    decide +kernel

end ClientView

end ProxyConfig
