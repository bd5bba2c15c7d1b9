import ProxyConfig.Proofs.Actor.RenamedLine
import ProxyConfig.Proofs.Text.Edit
import Mathlib.Logic.Equiv.Basic

/-! # Reading a renamed line

A renamed line is read as the line was, with the names exchanged and everything else the same but for
its columns. Where the new name does not occur, exchanging the old name for the new one is the swap of
both names, and a swap keeps equal names equal and different names different.
-/

namespace ProxyConfig

open Text

/-- A name that can be written in place of any other: it is not cut, trimmed or taken for a header. -/
structure IsSafeName (name : Text) : Prop where
  solid : name ≠ []
  trimmed : IsTrimmed name
  clean : ∀ c ∈ ['=', ',', '#', '[', ']', '\n'], c ∉ name

instance (name : Text) : Decidable (IsSafeName name) :=
  decidable_of_iff (name ≠ [] ∧ (name.trimStart = name ∧ name.trimEnd = name) ∧
      (['=', ',', '#', '[', ']', '\n'].all fun c => !name.contains c) = true)
    ⟨fun ⟨solid, trimmed, clean⟩ => ⟨solid, trimmed, by simpa using clean⟩,
      fun ⟨solid, trimmed, clean⟩ => ⟨solid, trimmed, by simpa using clean⟩⟩

namespace IsSafeName

variable {name : Text}

theorem isWord (safe : IsSafeName name) : IsWord name where
  solid := safe.solid
  trimmed := safe.trimmed
  keyless := safe.clean '=' (by decide)
  single := safe.clean ',' (by decide)
  unmarked := safe.clean '#' (by decide)
  flat := safe.clean '\n' (by decide)

theorem isName (safe : IsSafeName name) : IsName name := ⟨safe.solid, safe.isWord.keyless⟩

theorem head_ne (safe : IsSafeName name) : name.head? ≠ some '[' := fun head =>
  safe.clean '[' (by decide) (List.mem_of_mem_head? head)

theorem no_closing (safe : IsSafeName name) : ']' ∉ name := safe.clean ']' (by decide)

end IsSafeName

section Swap

variable {old new : Text}

theorem swap_of_ne_new {t : Text} (other : t ≠ new) :
    Equiv.swap old new t = if t = old then new else t := by
  rw [Equiv.swap_apply_def, if_neg other]

/-- Exchanging the core swaps the names, where the new one was not there. -/
theorem trim_recore_eq_swap (solid : old ≠ []) (word : IsWord new) {s : Text}
    (other : s.trim ≠ new) : (recore old new s).trim = Equiv.swap old new s.trim := by
  rw [trim_recore solid word.trimmed, swap_of_ne_new other]

theorem not_mem_recore (solid : old ≠ []) {s : Text} {c : Char} (absent : c ∉ s) (clean : c ∉ new) :
    c ∉ recore old new s :=
  fun member => ((Respelled.of_recore new solid s).mem member).elim absent clean

end Swap

namespace Text

theorem mem_trim_iff {s : Text} {c : Char} (solid : isBlank c = false) : c ∈ s.trim ↔ c ∈ s := by
  refine ⟨mem_of_mem_trim, fun member => ?_⟩
  obtain ⟨lead, trail, leading, trailing, split⟩ := exists_surround s
  rw [split, List.mem_append, List.mem_append] at member
  rcases member with front | core | back
  · exact absurd front (not_mem_of_allBlank leading solid)
  · exact core
  · exact absurd back (not_mem_of_allBlank trailing solid)

end Text

theorem Span.isPlain_trimmed (column : Nat) (s : Text) :
    (Span.trimmed column s).isPlain = true ↔ '=' ∉ s := by
  rw [isPlain, text_trimmed, Bool.not_eq_true', ← Bool.not_eq_true, List.contains_iff_mem,
    mem_trim_iff (by decide)]

/-- Two readings of a property before and after a rename: only a last resort is a name. -/
structure Entry.PropertyRenamed (old new : Text) (p q : Entry) : Prop where
  line : q.line = p.line
  key : q.key.text = p.key.text
  value : q.value.text =
    if (Keyword.parse? p.key.text : Option GroupProperty) = some .lastResort then
      Equiv.swap old new p.value.text
    else p.value.text

/-- An argument before and after a rename: a property with its key, or a name. -/
structure Span.Renamed (old new : Text) (line : Nat) (a b : Span) : Prop where
  plain : b.isPlain = a.isPlain
  property : Option.Rel (Entry.PropertyRenamed old new) (a.property? line) (b.property? line)
  text : a.property? line = none → b.text = Equiv.swap old new a.text

/-- A declaration before and after a rename. -/
structure Entry.Renamed (old new : Text) (kind : ActorKind) (e f : Entry) : Prop where
  line : f.line = e.line
  key : f.key.text = Equiv.swap old new e.key.text
  value : kind = .proxy → f.value.text = e.value.text
  type : kind = .group → f.arguments.first.text = e.arguments.first.text
  others : kind = .group →
    List.Forall₂ (Span.Renamed old new e.line) e.arguments.others f.arguments.others

/-- The pieces of a rule before and after a rename. -/
structure Pieces.Renamed (old new : Text) (p q : Pieces) : Prop where
  first : q.first.text = p.first.text
  others : q.others.map (·.text) =
    (p.others.map (·.text)).modify (targetOffset p.first.text) (Equiv.swap old new)

section Reading

variable {old new : Text}

/-- A property keeps its key and its `=`, and its value is the name of a last resort or the same. -/
theorem Span.renamed_property {line column : Nat} {key value value' : Text} (keyed : '=' ∉ key)
    (clean : '#' ∉ key ++ '=' :: value) (clean' : '#' ∉ key ++ '=' :: value')
    (swapped : value'.trim = if (Keyword.parse? key.trim : Option GroupProperty) = some .lastResort
      then Equiv.swap old new value.trim else value.trim) (column' : Nat) :
    Span.Renamed old new line (.trimmed column (key ++ '=' :: value))
      (.trimmed column' (key ++ '=' :: value')) := by
  obtain ⟨p, before, start, text, place⟩ := exists_property? line column clean keyed
  obtain ⟨q, after, startAfter, textAfter, placeAfter⟩ := exists_property? line column' clean' keyed
  refine ⟨?_, ?_, fun none => ?_⟩
  · rw [Bool.eq_iff_iff, isPlain_trimmed, isPlain_trimmed]
    simp
  · rw [before, after]
    refine .some ⟨startAfter.trans start.symm, textAfter.trans text.symm, ?_⟩
    rw [placeAfter, place, text_trimmed, text_trimmed, swapped, text]
  · rw [before] at none
    cases none

/-- An argument in which the new name does not stand is read with the names swapped. -/
theorem Span.renamed_argument (solid : old ≠ []) (word : IsWord new) {e : Entry} {s : Text}
    (clean : '#' ∉ s) {column : Nat} (unused : e.referenceSites new (.trimmed column s) = [])
    (column' : Nat) :
    Span.Renamed old new e.line (.trimmed column s) (.trimmed column' (renamedArgument old new s)) := by
  rw [Entry.referenceSites] at unused
  rw [renamedArgument]
  cases found : cut? '=' s with
  | none =>
    have absent := cut?_eq_none_iff.mp found
    have absentAfter : '=' ∉ recore old new s := not_mem_recore solid absent word.keyless
    have before := property?_of_not_mem e.line column absent
    rw [before] at unused
    have other : s.trim ≠ new := by
      intro same
      rw [if_pos (by rw [text_trimmed, same])] at unused
      cases unused
    refine ⟨?_, ?_, fun _ => ?_⟩
    · rw [Bool.eq_iff_iff, isPlain_trimmed, isPlain_trimmed]
      exact ⟨fun _ => absent, fun _ => absentAfter⟩
    · rw [before, property?_of_not_mem e.line column' absentAfter]
      exact .none
    · rw [text_trimmed, text_trimmed, trim_recore_eq_swap solid word other]
  | some halves =>
    obtain ⟨key, value⟩ := halves
    obtain ⟨rfl, keyed⟩ := cut?_eq_some_iff.mp found
    dsimp only
    split
    · next resort =>
      obtain ⟨p, before, -, text, place⟩ := exists_property? e.line column clean keyed
      rw [before] at unused
      dsimp only at unused
      rw [Entry.lastResort?, text, if_pos resort] at unused
      have other : value.trim ≠ new := by
        intro same
        dsimp only at unused
        rw [if_pos (by rw [place, text_trimmed, same])] at unused
        cases unused
      refine renamed_property keyed clean ?_ ?_ column'
      · rw [List.mem_append, List.mem_cons, not_or, not_or] at clean ⊢
        exact ⟨clean.1, clean.2.1, not_mem_recore solid clean.2.2 word.unmarked⟩
      · rw [if_pos resort, trim_recore_eq_swap solid word other]
    · next other =>
      exact renamed_property keyed clean clean (by rw [if_neg other]) column'

theorem not_mem_renamedArgument (solid : old ≠ []) {s : Text} {c : Char} (absent : c ∉ s)
    (clean : c ∉ new) : c ∉ renamedArgument old new s := by
  rw [renamedArgument]
  split
  · exact not_mem_recore solid absent clean
  · next key value found =>
    obtain ⟨rfl, -⟩ := cut?_eq_some_iff.mp found
    split
    · rw [List.mem_append, List.mem_cons, not_or, not_or] at absent ⊢
      exact ⟨absent.1, absent.2.1, not_mem_recore solid absent.2.2 clean⟩
    · exact absent

theorem cutAll_renamedArguments (solid : old ≠ []) (word : IsWord new) (s : Text) :
    cutAll ',' (renamedArguments old new s) =
      ((cutAll ',' s).1, (cutAll ',' s).2.map (renamedArgument old new)) := by
  obtain ⟨first, others⟩ := separator_not_mem_cutAll ',' s
  rw [renamedArguments, ← List.flatMap_map (renamedArgument old new) (',' :: ·), cutAll_append first]
  intro t member
  obtain ⟨u, inside, rfl⟩ := List.mem_map.mp member
  exact not_mem_renamedArgument solid (others u inside) word.single

/-- The arguments of a group behind its type are read with the names swapped. -/
theorem Pieces.renamed_arguments (solid : old ≠ []) (word : IsWord new) {e : Entry}
    {texts : List Text} (clean : ∀ t ∈ texts, '#' ∉ t) {column : Nat}
    (unused : (place column texts).flatMap (e.referenceSites new) = []) (column' : Nat) :
    List.Forall₂ (Span.Renamed old new e.line) (place column texts)
      (place column' (texts.map (renamedArgument old new))) := by
  induction texts generalizing column column' with
  | nil => exact .nil
  | cons t rest ih =>
    rw [place, List.flatMap_cons, List.append_eq_nil_iff] at unused
    exact .cons (Span.renamed_argument solid word (clean t (List.mem_cons_self ..)) unused.1 column')
      (ih (fun u member => clean u (List.mem_cons_of_mem _ member)) unused.2 _)

theorem Entry.trim_key_ne_of_unused {e : Entry} {kind : ActorKind}
    (unused : e.declarationSites kind new = []) : e.key.text ≠ new := by
  intro same
  rw [declarationSites, if_pos same] at unused
  cases unused

/-- What is read off a renamed declaration. -/
theorem rawEntry?_renamedEntry (solid : old ≠ []) (word : IsWord new) (n : Nat)
    {f : Text → Text} {s key value : Text} (found : cut? '=' s.uncommented = some (key, value))
    (clean : '#' ∉ f value) :
    NumberedLine.rawEntry? ⟨n, renamedEntry old new f s⟩ =
      some ⟨n, .trimmed 1 (recore old new key),
        .trimmed (1 + (recore old new key).length + 1) (f value)⟩ := by
  have keyed := (cut?_eq_some_iff.mp found).2
  have cleanKey := (not_mem_of_cut?_uncommented found).1
  rw [renamedEntry, found]
  exact Entry.parse?_append n 1 (not_mem_recore solid keyed word.keyless)
    (not_mem_recore solid cleanKey word.unmarked) clean (isComment_comment s)

theorem rawEntry?_eq_none {n : Nat} {s : Text} (none : cut? '=' s.uncommented = none) :
    NumberedLine.rawEntry? ⟨n, s⟩ = Option.none :=
  Entry.parse?_eq_none_iff.mpr (cut?_eq_none_iff.mp none)

theorem rawEntry?_of_cut? {n : Nat} {s key value : Text}
    (found : cut? '=' s.uncommented = some (key, value)) :
    NumberedLine.rawEntry? ⟨n, s⟩ =
      some ⟨n, .trimmed 1 key, .trimmed (1 + key.length + 1) value⟩ := by
  unfold NumberedLine.rawEntry?
  rw [Entry.ofLine?, Entry.parse?_eq, found]
  rfl

section Halves

variable {n : Nat} {key value : Text}

theorem Entry.renamed_proxy (solid : old ≠ []) (word : IsWord new) (free : key.trim ≠ new) :
    Entry.Renamed old new .proxy ⟨n, .trimmed 1 key, .trimmed (1 + key.length + 1) value⟩
      ⟨n, .trimmed 1 (recore old new key), .trimmed (1 + (recore old new key).length + 1) value⟩ := by
  refine ⟨rfl, ?_, fun _ => ?_, fun other => absurd other (by decide),
    fun other => absurd other (by decide)⟩
  · rw [Span.text_trimmed, Span.text_trimmed, trim_recore_eq_swap solid word free]
  · rw [Span.text_trimmed, Span.text_trimmed]

theorem Entry.renamed_group (solid : old ≠ []) (word : IsWord new) (free : key.trim ≠ new)
    (clean : '#' ∉ value)
    (unused : (Pieces.read (1 + key.length + 1) value).others.flatMap (referenceSites
      ⟨n, .trimmed 1 key, .trimmed (1 + key.length + 1) value⟩ new) = []) :
    Entry.Renamed old new .group ⟨n, .trimmed 1 key, .trimmed (1 + key.length + 1) value⟩
      ⟨n, .trimmed 1 (recore old new key), .trimmed (1 + (recore old new key).length + 1)
        (renamedArguments old new value)⟩ := by
  have cut := cutAll_renamedArguments solid word value
  refine ⟨rfl, ?_, fun other => absurd other (by decide), fun _ => ?_, fun _ => ?_⟩
  · rw [Span.text_trimmed, Span.text_trimmed, trim_recore_eq_swap solid word free]
  · rw [(first_arguments _ _ _ _).text_eq, (first_arguments _ _ _ _).text_eq, Pieces.read_eq,
      Pieces.read_eq, cut, Span.text_trimmed, Span.text_trimmed]
  · rw [others_arguments, others_arguments, Pieces.read_eq, Pieces.read_eq, cut]
    exact Pieces.renamed_arguments solid word (not_mem_cutAll ',' clean).2 unused _

theorem not_mem_renamedArguments (solid : old ≠ []) {c : Char} (other : c ≠ ',') (absent : c ∉ value)
    (clean : c ∉ new) : c ∉ renamedArguments old new value := by
  obtain ⟨first, rest⟩ := not_mem_cutAll ',' absent
  rw [renamedArguments, List.mem_append, not_or,
    ← List.flatMap_map (renamedArgument old new) (',' :: ·)]
  refine ⟨first, not_mem_join other fun t member => ?_⟩
  obtain ⟨u, inside, rfl⟩ := List.mem_map.mp member
  exact not_mem_renamedArgument solid (rest u inside) clean

end Halves

/-- A declaration in which the new name does not stand is read with the names swapped. -/
theorem NumberedLine.rawEntry?_renamed (solid : old ≠ []) (word : IsWord new)
    (l : NumberedLine) (kind : ActorKind) (unused : l.sites (some kind.sectionKind) new true = []) :
    Option.Rel (Entry.Renamed old new kind) l.rawEntry? <|
      rawEntry? ⟨l.number, renamedLine (some kind.sectionKind) old new l.text⟩ := by
  cases found : cut? '=' l.text.uncommented with
  | none =>
    have before : l.rawEntry? = none := rawEntry?_eq_none found
    have same : renamedLine (some kind.sectionKind) old new l.text = l.text := by
      cases kind <;> simp only [renamedLine, ActorKind.sectionKind, renamedEntry, found]
    rw [same]
    change Option.Rel _ l.rawEntry? l.rawEntry?
    rw [before]
    exact .none
  | some halves =>
    obtain ⟨key, value⟩ := halves
    have before : l.rawEntry? = some ⟨l.number, .trimmed 1 key, .trimmed (1 + key.length + 1) value⟩ :=
      rawEntry?_of_cut? found
    have clean := (not_mem_of_cut?_uncommented found).2
    cases kind with
    | proxy =>
      change l.sites (some .proxy) new true = [] at unused
      rw [sites, before, Option.toList_some, List.flatMap_singleton] at unused
      have free := Entry.trim_key_ne_of_unused unused
      rw [Span.text_trimmed] at free
      rw [before]
      dsimp only [renamedLine, ActorKind.sectionKind]
      rw [rawEntry?_renamedEntry solid word l.number found (f := id) clean]
      exact .some (Entry.renamed_proxy solid word free)
    | group =>
      change l.sites (some .proxyGroup) new true = [] at unused
      rw [sites, before, Option.toList_some, List.flatMap_singleton, if_pos rfl,
        List.append_eq_nil_iff, Entry.others_arguments] at unused
      have free := Entry.trim_key_ne_of_unused unused.1
      rw [Span.text_trimmed] at free
      have cleanAfter := not_mem_renamedArguments solid (by decide) clean word.unmarked
      rw [before]
      dsimp only [renamedLine, ActorKind.sectionKind]
      rw [rawEntry?_renamedEntry solid word l.number found cleanAfter]
      exact .some (Entry.renamed_group solid word free clean unused.2)

theorem not_mem_modify {texts : List Text} {f : Text → Text} {c : Char} {j : Nat}
    (absent : ∀ t ∈ texts, c ∉ t) (clean : ∀ t ∈ texts, c ∉ f t) : ∀ t ∈ texts.modify j f, c ∉ t := by
  intro t member
  obtain ⟨i, found⟩ := List.mem_iff_getElem?.mp member
  rw [List.getElem?_modify] at found
  obtain ⟨u, inside, rfl⟩ := Option.map_eq_some_iff.mp found
  have listed := List.mem_of_getElem? inside
  split
  · exact clean u listed
  · exact absent u listed

theorem cutAll_renamedRule (solid : old ≠ []) (word : IsWord new) (s : Text) :
    cutAll ',' (renamedRule old new s) = ((cutAll ',' s).1,
      (cutAll ',' s).2.modify (targetOffset (cutAll ',' s).1.trim) (recore old new)) := by
  obtain ⟨first, others⟩ := separator_not_mem_cutAll ',' s
  exact cutAll_append first (not_mem_modify others fun t member =>
    not_mem_recore solid (others t member) word.single)

/-- A renamed rule is cut into the pieces of the rule, with the old name exchanged in its target. -/
theorem NumberedLine.pieces_renamedRule (solid : old ≠ []) (word : IsWord new) (l : NumberedLine) :
    pieces ⟨l.number, renamedLine (some .rule) old new l.text⟩ =
      ⟨.trimmed 1 (cutAll ',' l.text.uncommented).1,
        Pieces.place (1 + (cutAll ',' l.text.uncommented).1.length + 1)
          ((cutAll ',' l.text.uncommented).2.modify
            (targetOffset (cutAll ',' l.text.uncommented).1.trim) (recore old new))⟩ := by
  obtain ⟨cleanFirst, cleanRest⟩ := not_mem_cutAll ',' (not_mem_uncommented l.text)
  have clean : '#' ∉ renamedRule old new l.text.uncommented := by
    rw [renamedRule, List.mem_append, not_or]
    exact ⟨cleanFirst, not_mem_join (by decide) (not_mem_modify cleanRest fun t member =>
      not_mem_recore solid (cleanRest t member) word.unmarked)⟩
  have bare : uncommented (renamedLine (some .rule) old new l.text) =
      renamedRule old new l.text.uncommented :=
    uncommented_append clean (isComment_comment l.text)
  rw [pieces, bare, Pieces.read_eq, cutAll_renamedRule solid word]

/-- A rule in which the new name is not the target is read with the names swapped. -/
theorem NumberedLine.pieces_renamed (solid : old ≠ []) (word : IsWord new) (l : NumberedLine)
    (unused : l.sites (some .rule) new true = []) :
    Pieces.Renamed old new l.pieces
      (pieces ⟨l.number, renamedLine (some .rule) old new l.text⟩) := by
  have before := l.pieces_eq
  have type : (cutAll ',' l.text.uncommented).1.trim = l.pieces.first.text := by
    rw [before, Span.text_trimmed]
  -- the target itself is the one piece that must not be the new name
  have free : ∀ t, (cutAll ',' l.text.uncommented).2[targetOffset l.pieces.first.text]? = some t →
      t.trim ≠ new := by
    intro t found same
    have texts : (l.pieces.others.map (·.text))[targetOffset l.pieces.first.text]? = some new := by
      rw [before, Pieces.map_text_place, ← before, List.getElem?_map, found, Option.map_some, same]
    rw [List.getElem?_map, Option.map_eq_some_iff] at texts
    obtain ⟨target, here, text⟩ := texts
    rw [sites, ruleTarget?_eq, here, Option.filter_some, if_pos (beq_iff_eq.mpr text)] at unused
    cases unused
  rw [pieces_renamedRule solid word]
  refine ⟨?_, ?_⟩
  · rw [← type, Span.text_trimmed]
  · rw [Pieces.map_text_place, type]
    conv_rhs => rw [before, Pieces.map_text_place, ← before]
    apply List.ext_getElem?
    intro i
    rw [List.getElem?_map, List.getElem?_modify, List.getElem?_modify, List.getElem?_map]
    cases found : (cutAll ',' l.text.uncommented).2[i]? with
    | none => rfl
    | some t =>
      by_cases here : targetOffset l.pieces.first.text = i
      · have other := free t (by rw [here, found])
        simp only [here, if_true, Option.map_some, Option.map_eq_map]
        rw [trim_recore_eq_swap solid word other]
      · simp only [here, if_false, Option.map_some, Option.map_eq_map]

end Reading

end ProxyConfig
