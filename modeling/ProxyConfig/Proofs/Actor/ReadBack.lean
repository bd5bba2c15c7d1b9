import ProxyConfig.Proofs.Actor.Rename
import Mathlib.Data.List.Flatten

/-! # Reading a new name back

A rename refuses a new name with `=` or a comma. Other names get past it that no line holds: where they
are written, they end at a mark or a line end, lose the blanks at their edges, or leave nothing. What the
search finds is always a word, and a word is found wherever it is written, so of the names that get past
the words are those that are read back. That takes lines which are no headers, and a word with a bracket
may make one.
-/

namespace ProxyConfig

open Text

/-! ## Names that are found -/

theorem Pieces.isTrimmed_of_mem_read {column : Nat} {s : Text} {a : Span}
    (member : a ∈ (read column s).toList) : IsTrimmed a.text := by
  have texts : a.text ∈ (pieces ',' s).map trim := by
    rw [← map_text_place column, ← toList_read]
    exact List.mem_map_of_mem member
  obtain ⟨t, -, same⟩ := List.mem_map.mp texts
  rw [← same]
  exact isTrimmed_trim t

section Found

variable {x : NameSite} {name : Text} {declarations : Bool}

theorem Entry.isTrimmed_of_mem_referenceSites {e : Entry} {a : Span} (trimmed : IsTrimmed a.text)
    (member : x ∈ e.referenceSites name a) : IsTrimmed name := by
  obtain ⟨b, role, refers, rfl, rfl⟩ := mem_referenceSites_iff.mp member
  cases refers with
  | member => exact trimmed
  | lastResort read resort =>
    rw [eq_value_of_lastResort? resort]
    exact (isTrimmed_of_parse? read).2

namespace NumberedLine

variable {l : NumberedLine} {kind? : Option SectionKind}

/-- A name that is found has no blanks around it. -/
theorem isTrimmed_of_mem_sites (member : x ∈ l.sites kind? name declarations) : IsTrimmed name := by
  have declared {e : Entry} {kind : ActorKind} (read : l.rawEntry? = some e)
      (found : x ∈ if declarations then e.declarationSites kind name else []) : IsTrimmed name := by
    split at found
    · rw [Entry.declarationSites] at found
      split at found
      · next same =>
        rw [← same]
        exact (Entry.isTrimmed_of_parse? read).1
      · cases found
    · cases found
  unfold sites at member
  split at member
  · obtain ⟨e, read, found⟩ := List.mem_flatMap.mp member
    exact declared (Option.mem_toList.mp read) found
  · obtain ⟨e, read, found⟩ := List.mem_flatMap.mp member
    rcases List.mem_append.mp found with found | found
    · exact declared (Option.mem_toList.mp read) found
    · obtain ⟨a, inside, found⟩ := List.mem_flatMap.mp found
      exact Entry.isTrimmed_of_mem_referenceSites
        (Pieces.isTrimmed_of_mem_read (List.mem_cons_of_mem _ inside)) found
  · rw [Option.mem_toList, Option.map_eq_some_iff] at member
    obtain ⟨target, selected, rfl⟩ := member
    obtain ⟨found, same⟩ := Option.filter_eq_some_iff.mp selected
    obtain ⟨i, -, piece⟩ := mem_of_ruleTarget? found
    rw [← eq_of_beq same]
    exact Pieces.isTrimmed_of_mem_read (List.mem_of_getElem? piece)
  · cases member

/-- Comments are not searched. -/
theorem sites_uncommented (l : NumberedLine) :
    sites ⟨l.number, l.text.uncommented⟩ kind? name declarations = l.sites kind? name declarations := by
  have entry : rawEntry? ⟨l.number, l.text.uncommented⟩ = l.rawEntry? :=
    Entry.parse?_uncommented l.number 1 l.text
  have cut : pieces ⟨l.number, l.text.uncommented⟩ = l.pieces := by
    rw [pieces, pieces, uncommented_of_not_mem (not_mem_uncommented l.text)]
  unfold sites
  rw [entry, cut]

/-- A name that is found is written in front of the comment of its line. -/
theorem subset_of_mem_sites (member : x ∈ l.sites kind? name declarations) :
    name ⊆ l.text.uncommented := by
  rw [← sites_uncommented] at member
  obtain ⟨span, role, rfl, rfl, before, after, split, -⟩ := standsIn_of_mem_sites member
  change l.text.uncommented = _ at split
  intro c inside
  rw [split]
  exact List.mem_append_right _ (List.mem_append_left _ inside)

end NumberedLine

/-- Whatever is found and has no comma is a word. -/
theorem Document.isWord_of_mem_sites {s : Text} (member : x ∈ (parse s).sites name declarations)
    (single : ',' ∉ name) : IsWord name := by
  have named := isName_of_mem_sites member
  obtain ⟨t, here, l, inside, found⟩ := (mem_sites_iff named).mp member
  have written := NumberedLine.subset_of_mem_sites found
  have flat := newline_not_mem_of_mem_body here inside
  exact ⟨named.1, NumberedLine.isTrimmed_of_mem_sites found, named.2, single,
    fun mark => not_mem_uncommented l.text (written mark),
    fun newline => flat (mem_of_mem_uncommented (written newline))⟩

end Found

/-! ## Words are found -/

section Lines

variable {old new : Text}

/-- A span that has the new name if another one has the old name is found where that one is. -/
theorem Span.sublist_sites {a b : Span} {line line' : Nat} (role : NameRole) (same : line' = line)
    (exchanged : a.text = old → b.text = new) :
    ((if a.text = old then [a.site line role] else []).map NameSite.place).Sublist
      ((if b.text = new then [b.site line' role] else []).map NameSite.place) := by
  split
  · next found =>
    rw [if_pos (exchanged found), List.map_singleton, List.map_singleton, List.singleton_sublist,
      List.mem_singleton]
    exact congrArg (·, role) same.symm
  · exact List.nil_sublist _

theorem Span.text_recore (solid : old ≠ []) (word : IsWord new) {s : Text} {column column' : Nat}
    (same : (Span.trimmed column s).text = old) :
    (Span.trimmed column' (recore old new s)).text = new := by
  rw [text_trimmed] at same ⊢
  rw [trim_recore solid word.trimmed, if_pos same]

/-- The old name in an argument gives way to the new one. -/
theorem Entry.sublist_referenceSites (solid : old ≠ []) (word : IsWord new) {e f : Entry}
    (line : f.line = e.line) {s : Text} (clean : '#' ∉ s) (column column' : Nat) :
    ((e.referenceSites old (.trimmed column s)).map NameSite.place).Sublist
      ((f.referenceSites new (.trimmed column' (renamedArgument old new s))).map NameSite.place) := by
  rw [renamedArgument]
  cases found : cut? '=' s with
  | none =>
    have absent := cut?_eq_none_iff.mp found
    have absentAfter : '=' ∉ recore old new s := not_mem_recore solid absent word.keyless
    rw [referenceSites, referenceSites, Span.property?_of_not_mem e.line column absent,
      Span.property?_of_not_mem f.line column' absentAfter]
    exact Span.sublist_sites .member line (Span.text_recore solid word)
  | some halves =>
    obtain ⟨key, value⟩ := halves
    obtain ⟨rfl, keyed⟩ := cut?_eq_some_iff.mp found
    obtain ⟨p, before, -, text, place⟩ := Span.exists_property? e.line column clean keyed
    rw [referenceSites, before]
    dsimp only
    rw [lastResort?, text]
    by_cases resort : (Keyword.parse? key.trim : Option GroupProperty) = some .lastResort
    · have cleanAfter : '#' ∉ key ++ '=' :: recore old new value := by
        rw [List.mem_append, List.mem_cons, not_or, not_or] at clean ⊢
        exact ⟨clean.1, clean.2.1, not_mem_recore solid clean.2.2 word.unmarked⟩
      obtain ⟨q, after, -, textAfter, placeAfter⟩ :=
        Span.exists_property? f.line column' cleanAfter keyed
      rw [if_pos resort, if_pos resort, referenceSites, after]
      dsimp only
      rw [lastResort?, textAfter, if_pos resort, place, placeAfter]
      exact Span.sublist_sites .lastResort line (Span.text_recore solid word)
    · rw [if_neg resort]
      exact List.nil_sublist _

theorem Entry.sublist_others_sites (solid : old ≠ []) (word : IsWord new) {e f : Entry}
    (line : f.line = e.line) {texts : List Text} (clean : ∀ t ∈ texts, '#' ∉ t)
    (column column' : Nat) :
    (((Pieces.place column texts).flatMap (e.referenceSites old)).map NameSite.place).Sublist
      (((Pieces.place column' (texts.map (renamedArgument old new))).flatMap
        (f.referenceSites new)).map NameSite.place) := by
  induction texts generalizing column column' with
  | nil => exact List.Sublist.refl _
  | cons t rest ih =>
    rw [Pieces.place, List.map_cons, Pieces.place, List.flatMap_cons, List.flatMap_cons,
      List.map_append, List.map_append]
    exact (sublist_referenceSites solid word line (clean t (List.mem_cons_self ..)) _ _).append
      (ih (fun u member => clean u (List.mem_cons_of_mem _ member)) _ _)

/-- The target of a renamed rule has the new name if the target of the rule has the old one. -/
theorem NumberedLine.exists_target_renamed (solid : old ≠ []) (word : IsWord new) {l : NumberedLine}
    {target : Span} (found : ruleTarget? l.pieces = some target) :
    ∃ target', ruleTarget? (l.renamed old new (some .rule)).pieces = some target' ∧
      (target.text = old → target'.text = new) := by
  have before := l.pieces_eq
  have type : (cutAll ',' l.text.uncommented).1.trim = l.pieces.first.text := by
    rw [before, Span.text_trimmed]
  have text := congrArg (Option.map Span.text) found
  rw [ruleTarget?_eq, ← List.getElem?_map, before, Pieces.map_text_place, List.getElem?_map, ← before,
    Option.map_some, Option.map_eq_some_iff] at text
  obtain ⟨t, piece, core⟩ := text
  have after : (ruleTarget? (l.renamed old new (some .rule)).pieces).map Span.text =
      some (recore old new t).trim := by
    change (ruleTarget? (pieces ⟨l.number, renamedLine (some .rule) old new l.text⟩)).map _ = _
    rw [pieces_renamedRule solid word, ruleTarget?_eq, Span.text_trimmed, ← List.getElem?_map,
      Pieces.map_text_place, List.getElem?_map, List.getElem?_modify_eq, type, piece]
    rfl
  obtain ⟨target', aimed, same⟩ := Option.map_eq_some_iff.mp after
  refine ⟨target', aimed, fun here => ?_⟩
  rw [same, trim_recore solid word.trimmed, if_pos (core.trans here)]

/-- On a renamed line the new name is found wherever the old one was. -/
theorem NumberedLine.sublist_sites_renamed (solid : old ≠ []) (word : IsWord new) (l : NumberedLine)
    (kind? : Option SectionKind) :
    ((l.sites kind? old true).map NameSite.place).Sublist
      (((l.renamed old new kind?).sites kind? new true).map NameSite.place) := by
  cases kind? with
  | none => exact List.nil_sublist _
  | some kind =>
    cases kind with
    | proxy =>
      rw [sites, sites]
      cases found : cut? '=' l.text.uncommented with
      | none =>
        rw [rawEntry?_eq_none found]
        exact List.nil_sublist _
      | some halves =>
        have after := rawEntry?_renamedEntry (f := id) solid word l.number found
          (not_mem_of_cut?_uncommented found).2
        change rawEntry? (l.renamed old new (some .proxy)) = _ at after
        rw [rawEntry?_of_cut? found, after, Option.toList_some, Option.toList_some,
          List.flatMap_singleton, List.flatMap_singleton, if_pos rfl, if_pos rfl]
        exact Span.sublist_sites (.declaration .proxy) rfl (Span.text_recore solid word)
    | proxyGroup =>
      rw [sites, sites]
      cases found : cut? '=' l.text.uncommented with
      | none =>
        rw [rawEntry?_eq_none found]
        exact List.nil_sublist _
      | some halves =>
        have clean := (not_mem_of_cut?_uncommented found).2
        have after := rawEntry?_renamedEntry solid word l.number found
          (not_mem_renamedArguments solid (by decide) clean word.unmarked)
        change rawEntry? (l.renamed old new (some .proxyGroup)) = _ at after
        rw [rawEntry?_of_cut? found, after, Option.toList_some, Option.toList_some,
          List.flatMap_singleton, List.flatMap_singleton, if_pos rfl, if_pos rfl, List.map_append,
          List.map_append, Entry.others_arguments, Entry.others_arguments, Pieces.read_eq,
          Pieces.read_eq, cutAll_renamedArguments solid word]
        exact (Span.sublist_sites (.declaration .group) rfl (Span.text_recore solid word)).append
          (Entry.sublist_others_sites solid word rfl (not_mem_cutAll ',' clean).2 _ _)
    | rule =>
      have listed (a : Span) (name : Text) (n : Nat) : (((some a).filter fun b => b.text == name).map
          fun b => b.site n .ruleTarget).toList =
            if a.text = name then [a.site n .ruleTarget] else [] := by
        rw [Option.filter_some]
        by_cases same : a.text = name
        · rw [if_pos (beq_iff_eq.mpr same), if_pos same]
          rfl
        · rw [if_neg (fun equal => same (eq_of_beq equal)), if_neg same]
          rfl
      rw [sites, sites]
      cases found : ruleTarget? l.pieces with
      | none => exact List.nil_sublist _
      | some target =>
        obtain ⟨target', aimed, exchanged⟩ := exists_target_renamed solid word found
        rw [aimed, listed, listed]
        exact Span.sublist_sites .ruleTarget rfl exchanged
    | general | host | env | onDemand => exact List.nil_sublist _

end Lines

/-! ## Documents -/

namespace Document

variable {old new : Text}

theorem Renamed.sublist_sites {doc doc' : Document} (renamed : Renamed old new doc doc')
    (named : IsName old) (word : IsWord new) :
    ((doc.sites old true).map NameSite.place).Sublist ((doc'.sites new true).map NameSite.place) := by
  rw [sites_eq_walk doc true named, sites_eq_walk doc' true ⟨word.solid, word.keyless⟩, siteWalk,
    siteWalk, renamed.sections, List.map_flatMap, List.map_flatMap]
  refine List.Sublist.flatMap_right _ fun t here => ?_
  rw [renamed.body t here, List.flatMap_map, List.map_flatMap, List.map_flatMap]
  exact List.Sublist.flatMap_right _ fun l _ => l.sublist_sites_renamed named.1 word t.kind?

/-- Only the lines of the edits can come to be headers. -/
theorem keepsLayout_of_edited {s : Text} (named : IsName old) (word : IsWord new)
    (edited : ∀ r ∈ (parse s).siteRanges old,
      headerName? ((parse (s.replace ((parse s).siteRanges old) new)).line r.start.line) = none) :
    (parse s).KeepsLayout old new where
  named := named
  word := word
  bodies t here l inside := by
    cases sites : l.sites t.kind? old true with
    | nil =>
      have flat := newline_not_mem_of_mem_body here inside
      rw [← replaceFrom_sites named l flat, sites, List.map_nil,
        replaceFrom_of_clear flat fun r member => absurd member List.not_mem_nil]
      exact headerName?_of_mem_body here inside
    | cons x rest =>
      have found : x ∈ l.sites t.kind? old true := sites ▸ List.mem_cons_self ..
      have body := edited x.range
        ((mem_siteRanges_iff named).mpr ⟨t, here, l, inside, List.mem_map_of_mem found⟩)
      obtain ⟨span, role, rfl, -⟩ := NumberedLine.within_of_mem_sites found
      rw [← line_renamed named word here inside]
      exact body

end Document

/-- Wherever the plan puts the new name, the search finds it: on the same line, in the same role. -/
def RenamePlan.IsReadBack (plan : RenamePlan) (s : Text) : Prop :=
  (((Document.parse s).sites plan.oldName true).map NameSite.place).Sublist
    (((Document.parse (plan.apply s)).sites plan.newName true).map NameSite.place)

namespace Document

variable {s new : Text} {p : Position} {plan : RenamePlan}

theorem planRename_refused {doc : Document} (refused : '=' ∈ new ∨ ',' ∈ new) :
    doc.planRename p new = .error (.invalidName new) := by
  have guarded : checkNewName new = .error (.invalidName new) := by
    refine if_pos ?_
    rwa [Bool.or_eq_true, List.contains_iff_mem, List.contains_iff_mem]
  rw [planRename, guarded]
  rfl

/-- What the plan of a rename is made of. -/
theorem planned_cases (planned : (parse s).planRename p new = .ok plan) :
    IsName plan.oldName ∧ ',' ∉ new ∧ (parse s).sites plan.oldName true ≠ [] ∧
      plan = ⟨plan.oldName, new, (parse s).siteRanges plan.oldName⟩ := by
  obtain ⟨accepted, site, -, solid, rfl⟩ := planRename_eq_ok_iff.mp planned
  obtain ⟨x, member⟩ := List.exists_mem_of_ne_nil _ solid
  exact ⟨isName_of_mem_sites member, (checkNewName_eq_ok_iff.mp accepted).2, solid, rfl⟩

theorem isReadBack_of_keepsLayout (planned : (parse s).planRename p new = .ok plan)
    (kept : (parse s).KeepsLayout plan.oldName new) : plan.IsReadBack s := by
  obtain ⟨named, -, -, same⟩ := planned_cases planned
  have renamed := renamed_replace kept
  rw [same, RenamePlan.IsReadBack, RenamePlan.apply]
  exact renamed.sublist_sites named kept.word

/-- A new name is read back if it is a word and none of the lines that it is written in is a header. -/
theorem isReadBack_iff (planned : (parse s).planRename p new = .ok plan) :
    plan.IsReadBack s ↔ IsWord new ∧
      ∀ r ∈ plan.ranges, headerName? ((parse (plan.apply s)).line r.start.line) = none := by
  obtain ⟨named, single, solid, same⟩ := planned_cases planned
  have newName : plan.newName = new := by rw [same]
  have ranges : plan.ranges = (parse s).siteRanges plan.oldName := by rw [same]
  have text : plan.apply s = s.replace ((parse s).siteRanges plan.oldName) new := by
    rw [RenamePlan.apply, newName, ranges]
  constructor
  · intro back
    rw [RenamePlan.IsReadBack, newName] at back
    have found {x : NameSite} (member : x ∈ (parse s).sites plan.oldName true) :
        ∃ y ∈ (parse (plan.apply s)).sites new true, y.place = x.place :=
      List.mem_map.mp (back.mem (List.mem_map_of_mem member))
    constructor
    · obtain ⟨x, member⟩ := List.exists_mem_of_ne_nil _ solid
      obtain ⟨y, there, -⟩ := found member
      exact isWord_of_mem_sites there single
    · intro r listed
      rw [ranges] at listed
      obtain ⟨x, member, rfl⟩ := List.mem_map.mp listed
      obtain ⟨y, there, place⟩ := found member
      have line : y.range.start.line = x.range.start.line := congrArg Prod.fst place
      rw [← line]
      exact headerName?_of_mem_sites there
  · rintro ⟨word, bodies⟩
    rw [ranges, text] at bodies
    exact isReadBack_of_keepsLayout planned (keepsLayout_of_edited named word bodies)

/-- The guard lets all names through but those with `=` or a comma, and these are refused before any
edit. A new name that gets through is read back, so that the search finds it at least as often as the plan
has ranges, exactly if it is a word and makes no header of a line it is written in. A word that does not
start with a bracket and holds no closing one makes none. -/
theorem rename_read_back (s : Text) (p : Position) (new : Text) :
    (checkNewName new = .ok () ↔ '=' ∉ new ∧ ',' ∉ new) ∧
    (('=' ∈ new ∨ ',' ∈ new) → (parse s).planRename p new = .error (.invalidName new)) ∧
    ∀ plan, (parse s).planRename p new = .ok plan →
      (plan.IsReadBack s ↔ IsWord new ∧
        ∀ r ∈ plan.ranges, headerName? ((parse (plan.apply s)).line r.start.line) = none) ∧
      (IsWord new → new.head? ≠ some '[' → ']' ∉ new → plan.IsReadBack s) ∧
      (plan.IsReadBack s →
        plan.ranges.length ≤ ((parse (plan.apply s)).sites new true).length) := by
  refine ⟨checkNewName_eq_ok_iff, planRename_refused,
    fun plan planned => ⟨isReadBack_iff planned, ?_, fun back => ?_⟩⟩
  · intro word opening closing
    have named := (planned_cases planned).1
    exact isReadBack_of_keepsLayout planned (keepsLayout_of_unbracketed named word opening closing)
  · obtain ⟨-, -, -, same⟩ := planned_cases planned
    have newName : plan.newName = new := by rw [same]
    have ranges : plan.ranges.length = ((parse s).sites plan.oldName true).length := by
      rw [same]
      exact List.length_map _
    have count := back.length_le
    rw [List.length_map, List.length_map, newName, ← ranges] at count
    exact count

/-- A name with a blank inside, at the target of a rule. -/
theorem rename_read_back_blank :
    let s := "[Rule]\nFINAL, a # a\n[Proxy]\na = direct".toList
    ∃ plan, (parse s).planRename ⟨2, 8⟩ "b c".toList = .ok plan ∧
      plan.apply s = "[Rule]\nFINAL, b c # a\n[Proxy]\nb c = direct".toList ∧ plan.IsReadBack s ∧
        plan.ranges.length ≤ ((parse (plan.apply s)).sites "b c".toList true).length := by
  intro s
  have sites : (parse s).sites "a".toList true =
      [⟨"a".toList, .onLine 2 8 1, .ruleTarget⟩, ⟨"a".toList, .onLine 4 1 1, .declaration .proxy⟩] := by
    rw [sites_eq_walk _ _ ⟨by decide, by decide⟩]
    decide +kernel
  have planned : (parse s).planRename ⟨2, 8⟩ "b c".toList =
      .ok ⟨"a".toList, "b c".toList, [.onLine 2 8 1, .onLine 4 1 1]⟩ := by
    refine planRename_eq_ok_iff.mpr
      ⟨rfl, ⟨"a".toList, .onLine 2 8 1, .ruleTarget⟩, by decide +kernel, ?_, ?_⟩
    · rw [sites]
      exact List.cons_ne_nil _ _
    · rw [siteRanges, sites]
      rfl
  obtain ⟨-, word, count⟩ := (rename_read_back s ⟨2, 8⟩ "b c".toList).2.2 _ planned
  have back := word (by decide) (by decide) (by decide)
  exact ⟨_, planned, by decide +kernel, back, count back⟩

/-- A mark gets past the guard, and the line is cut at it. -/
theorem rename_lost :
    ¬ ∀ (s : Text) (p : Position) (new : Text) (plan : RenamePlan), checkNewName new = .ok () →
      (parse s).planRename p new = .ok plan →
        plan.ranges.length ≤ ((parse (plan.apply s)).sites new true).length := by
  intro holds
  let s := "[Proxy]\na = direct".toList
  have sites : (parse s).sites "a".toList true =
      [⟨"a".toList, .onLine 2 1 1, .declaration .proxy⟩] := by
    rw [sites_eq_walk _ _ ⟨by decide, by decide⟩]
    decide +kernel
  have planned : (parse s).planRename ⟨2, 1⟩ "b#c".toList =
      .ok ⟨"a".toList, "b#c".toList, [.onLine 2 1 1]⟩ := by
    refine planRename_eq_ok_iff.mpr
      ⟨rfl, ⟨"a".toList, .onLine 2 1 1, .declaration .proxy⟩, by decide +kernel, ?_, ?_⟩
    · rw [sites]
      exact List.cons_ne_nil _ _
    · rw [siteRanges, sites]
      rfl
  have count := holds s ⟨2, 1⟩ "b#c".toList _ rfl planned
  rw [sites_eq_walk _ _ ⟨by decide, by decide⟩] at count
  exact absurd count (by decide +kernel)

end Document

end ProxyConfig
