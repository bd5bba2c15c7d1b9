import ProxyConfig.Proofs.Actor.Renamed

/-! # Renaming and the layout of a document

A renamed line is a respelled one: the old name gives way to the new one and nothing else changes. It
is as blank as before, it ends in no new carriage return, and it becomes no header, because the new
name has no bracket and never stands right behind one.
-/

namespace ProxyConfig

open Text

section Header

variable {new : Text}

/-- What stands behind a key or a first piece makes a header only by a closing bracket. -/
theorem headerName?_append_congr {front rest rest' : Text} {c : Char} (solid : isBlank c = false)
    (mark : c ∉ ['[', ']', '#']) (closing : ']' ∈ rest'.uncommented → ']' ∈ rest.uncommented)
    (body : headerName? (front ++ c :: rest) = none) : headerName? (front ++ c :: rest') = none := by
  simp only [List.mem_cons, List.not_mem_nil, or_false, not_or] at mark
  obtain ⟨notOpening, notClosing, notMark⟩ := mark
  rw [← Option.not_isSome_iff_eq_none, Section.headerName?_isSome_iff] at body ⊢
  rintro ⟨margin, name, tail, split, blank, named, unclosed, clean⟩
  apply body
  -- the opening bracket stands in the front, since `c` is neither a blank nor that bracket
  obtain ⟨inside, rfl, within⟩ : ∃ inside, front = margin ++ '[' :: inside ∧
      inside ++ c :: rest' = name ++ ']' :: tail := by
    rcases List.append_eq_append_iff.mp split with ⟨more, rfl, right⟩ | ⟨more, rfl, right⟩
    · cases more with
      | nil =>
        rw [List.nil_append, List.cons.injEq] at right
        exact absurd right.1 notOpening
      | cons d more =>
        rw [List.cons_append, List.cons.injEq] at right
        have white := allBlank_iff.mp blank c (by simp [right.1])
        exact absurd (white.symm.trans solid) (by decide)
    · cases more with
      | nil =>
        rw [List.nil_append, List.cons.injEq] at right
        exact absurd right.1.symm notOpening
      | cons d more =>
        rw [List.cons_append, List.cons.injEq] at right
        obtain ⟨rfl, right⟩ := right
        exact ⟨more, rfl, right.symm⟩
  rcases List.append_eq_append_iff.mp within with ⟨more, rfl, right⟩ | ⟨more, rfl, right⟩
  · cases more with
    | nil =>
      rw [List.nil_append, List.cons.injEq] at right
      exact absurd right.1 notClosing
    | cons d more =>
      rw [List.cons_append, List.cons.injEq] at right
      obtain ⟨rfl, rfl⟩ := right
      rw [List.mem_append, List.mem_cons, not_or, not_or] at unclosed clean
      have closes : ']' ∈ uncommented (more ++ ']' :: tail) := by
        have bare : ∀ e ∈ more, (e != '#') = true := fun e member =>
          bne_iff_ne.mpr fun same => clean.2.2 (same ▸ member)
        rw [uncommented, List.takeWhile_append_of_pos bare, List.takeWhile_cons_of_pos (by decide)]
        exact List.mem_append_right _ (List.mem_cons_self ..)
      obtain ⟨first, last, found, absent⟩ := List.eq_append_cons_of_mem (closing closes)
      have cleanFirst : '#' ∉ first := fun member => not_mem_uncommented rest (by
        rw [found]
        exact List.mem_append_left _ member)
      refine ⟨margin, inside ++ c :: first, last ++ rest.comment, ?_, blank, by simp, ?_, ?_⟩
      · conv_lhs => rw [← uncommented_append_comment rest, found]
        simp
      · simp only [List.mem_append, List.mem_cons, not_or]
        exact ⟨unclosed.1, unclosed.2.1, absent⟩
      · simp only [List.mem_append, List.mem_cons, not_or]
        exact ⟨clean.1, clean.2.1, cleanFirst⟩
  · cases more with
    | nil =>
      rw [List.nil_append, List.cons.injEq] at right
      exact absurd right.1.symm notClosing
    | cons d more =>
      rw [List.cons_append, List.cons.injEq] at right
      obtain ⟨rfl, rfl⟩ := right
      exact ⟨margin, name, more ++ c :: rest, by simp, blank, named, unclosed, clean⟩

end Header

namespace Text.Respelled

variable {old new : Text}

theorem flatMap {α : Type} {f g : α → Text} (each : ∀ a, Respelled old new (f a) (g a))
    (items : List α) : Respelled old new (items.flatMap f) (items.flatMap g) := by
  induction items with
  | nil => exact .nil
  | cons a rest ih => exact (each a).append ih

theorem renamedArgument (new : Text) (solid : old ≠ []) (s : Text) :
    Respelled old new s (renamedArgument old new s) := by
  rw [ProxyConfig.renamedArgument]
  split
  · exact of_recore new solid s
  · next key value found =>
    obtain ⟨rfl, -⟩ := cut?_eq_some_iff.mp found
    split
    · exact (refl key).append (.keep '=' (of_recore new solid value))
    · exact refl _

theorem renamedArguments (new : Text) (solid : old ≠ []) (s : Text) :
    Respelled old new s (renamedArguments old new s) := by
  conv_lhs => rw [← append_cutAll ',' s]
  exact (refl _).append (flatMap (fun t => .keep ',' (renamedArgument new solid t)) _)

theorem modify (new : Text) (solid : old ≠ []) (texts : List Text) (j : Nat) :
    Respelled old new (texts.flatMap (',' :: ·))
      ((texts.modify j (recore old new)).flatMap (',' :: ·)) := by
  induction texts generalizing j with
  | nil =>
    rw [List.modify_nil]
    exact .nil
  | cons t rest ih =>
    cases j with
    | zero => exact .append (.keep ',' (of_recore new solid t)) (refl _)
    | succ j => exact .append (refl _) (ih j)

theorem renamedRule (new : Text) (solid : old ≠ []) (s : Text) :
    Respelled old new s (renamedRule old new s) := by
  conv_lhs => rw [← append_cutAll ',' s]
  exact (refl _).append (modify new solid _ _)

theorem renamedEntry (new : Text) (solid : old ≠ []) {f : Text → Text}
    (value : ∀ s, Respelled old new s (f s)) (s : Text) :
    Respelled old new s (renamedEntry old new f s) := by
  rw [ProxyConfig.renamedEntry]
  split
  · exact refl s
  · next key rest found =>
    conv_lhs => rw [← eq_of_cut?_uncommented found]
    exact (of_recore new solid key).append (.keep '=' ((value rest).append (refl _)))

/-- A renamed line is a respelled one. -/
theorem renamedLine (new : Text) (solid : old ≠ []) (kind? : Option SectionKind) (s : Text) :
    Respelled old new s (renamedLine kind? old new s) := by
  unfold ProxyConfig.renamedLine
  split
  · exact renamedEntry new solid refl s
  · exact renamedEntry new solid (renamedArguments new solid) s
  · conv_lhs => rw [← uncommented_append_comment s]
    exact (renamedRule new solid _).append (refl _)
  · exact refl s

end Text.Respelled

section Lines

variable {old new : Text}

/-- A renamed rule is its first piece and, if there were more, a comma and the others. -/
theorem renamedRule_cases (new : Text) (solid : old ≠ []) (s : Text) :
    renamedRule old new s = s ∨ ∃ front rest rest', s = front ++ ',' :: rest ∧
      renamedRule old new s = front ++ ',' :: rest' ∧
        Respelled old new (',' :: rest) (',' :: rest') := by
  have split := append_cutAll ',' s
  have respelled := Respelled.modify new solid (cutAll ',' s).2
    (targetOffset (cutAll ',' s).1.trim)
  rw [renamedRule]
  cases others : (cutAll ',' s).2 with
  | nil =>
    rw [others] at split
    rw [List.modify_nil]
    exact .inl split
  | cons t texts =>
    rw [others] at split respelled
    cases modified : (t :: texts).modify (targetOffset (cutAll ',' s).1.trim) (recore old new) with
    | nil =>
      rw [List.modify_eq_nil_iff] at modified
      cases modified
    | cons u texts' =>
      rw [modified] at respelled
      exact .inr ⟨_, t ++ texts.flatMap (',' :: ·), u ++ texts'.flatMap (',' :: ·), split.symm, rfl,
        respelled⟩

/-- A line that is no header becomes none by a rename. -/
theorem headerName?_renamedLine (solid : old ≠ []) (word : IsWord new) (opening : new.head? ≠ some '[')
    (closing : ']' ∉ new) (kind? : Option SectionKind) {s : Text} (body : headerName? s = none) :
    headerName? (renamedLine kind? old new s) = none := by
  have entry {f : Text → Text} (value : ∀ t, Respelled old new t (f t)) :
      headerName? (renamedEntry old new f s) = none := by
    rw [renamedEntry]
    split
    · exact body
    · next key rest found =>
      obtain ⟨-, same⟩ | ⟨lead, trail, leading, -, -, -, result⟩ := recore_cases new solid key
      · rw [same]
        rw [← eq_of_cut?_uncommented found] at body
        refine headerName?_append_congr (by decide) (by decide) ?_ body
        have clean := (not_mem_of_cut?_uncommented found).2
        have cleanAfter : '#' ∉ f rest := fun member =>
          ((value rest).mem member).elim clean word.unmarked
        rw [uncommented_append clean (isComment_comment s),
          uncommented_append cleanAfter (isComment_comment s)]
        exact fun member => ((value rest).mem member).resolve_right closing
      · rw [result, List.append_assoc, List.append_assoc]
        exact Section.headerName?_of_core leading word.trimmed word.solid opening _
  unfold renamedLine
  split
  · exact entry Respelled.refl
  · exact entry (Respelled.renamedArguments new solid)
  · have whole := uncommented_append_comment s
    rcases renamedRule_cases new solid s.uncommented with same |
      ⟨front, rest, rest', split, result, respelled⟩
    · rwa [same, whole]
    · have clean := not_mem_uncommented s
      have mem {c : Char} (other : c ≠ ',') (member : c ∈ rest') : c ∈ rest ∨ c ∈ new :=
        (respelled.mem (List.mem_cons_of_mem _ member)).imp_left fun found =>
          (List.mem_cons.mp found).resolve_left other
      rw [split, List.mem_append, List.mem_cons, not_or, not_or] at clean
      have cleanAfter : '#' ∉ rest' := fun member =>
        (mem (by decide) member).elim clean.2.2 word.unmarked
      rw [result, List.append_assoc, List.cons_append]
      rw [split, List.append_assoc, List.cons_append] at whole
      rw [← whole] at body
      refine headerName?_append_congr (by decide) (by decide) ?_ body
      rw [uncommented_append clean.2.2 (isComment_comment s),
        uncommented_append cleanAfter (isComment_comment s)]
      exact fun member => (mem (by decide) member).resolve_right closing
  · exact body

/-- What a renamed line holds before its comment is blank only if it was. -/
theorem allBlank_uncommented_renamedLine (solid : old ≠ []) (word : IsWord new)
    (kind? : Option SectionKind) (s : Text) :
    (renamedLine kind? old new s).uncommented.allBlank = s.uncommented.allBlank := by
  have entry {f : Text → Text} (value : ∀ t, Respelled old new t (f t)) :
      (renamedEntry old new f s).uncommented.allBlank = s.uncommented.allBlank := by
    rw [renamedEntry]
    split
    · rfl
    · next key rest found =>
      obtain ⟨cleanKey, cleanRest⟩ := not_mem_of_cut?_uncommented found
      have clean : '#' ∉ recore old new key ++ '=' :: f rest := by
        rw [List.mem_append, List.mem_cons, not_or, not_or]
        exact ⟨not_mem_recore solid cleanKey word.unmarked, by decide, fun member =>
          ((value rest).mem member).elim cleanRest word.unmarked⟩
      have bare := uncommented_append clean (isComment_comment s)
      rw [List.append_assoc, List.cons_append] at bare
      rw [bare, (cut?_eq_some_iff.mp found).1, allBlank_of_mem (c := '=') (by simp) (by decide),
        allBlank_of_mem (c := '=') (by simp) (by decide)]
  unfold renamedLine
  split
  · exact entry Respelled.refl
  · exact entry (Respelled.renamedArguments new solid)
  · have clean : '#' ∉ renamedRule old new s.uncommented := fun member =>
      ((Respelled.renamedRule new solid _).mem member).elim (not_mem_uncommented s) word.unmarked
    rw [uncommented_append clean (isComment_comment s)]
    rcases renamedRule_cases new solid s.uncommented with same | ⟨front, rest, rest', split, result, -⟩
    · rw [same]
    · rw [result, split, allBlank_of_mem (c := ',') (by simp) (by decide),
        allBlank_of_mem (c := ',') (by simp) (by decide)]
  · rfl

/-- A renamed line is blank only if the line was. -/
theorem allBlank_renamedLine (new : Text) (solid : old ≠ []) (kind? : Option SectionKind) (s : Text) :
    (renamedLine kind? old new s).allBlank = s.allBlank := by
  have entry (f : Text → Text) : (renamedEntry old new f s).allBlank = s.allBlank := by
    rw [renamedEntry]
    split
    · rfl
    · next key rest found =>
      have marked : '=' ∈ s := by
        rw [← eq_of_cut?_uncommented found]
        exact List.mem_append_right _ (List.mem_cons_self ..)
      rw [allBlank_of_mem marked (by decide), allBlank_of_mem (c := '=') (by simp) (by decide)]
  unfold renamedLine
  split
  · exact entry id
  · exact entry _
  · rcases renamedRule_cases new solid s.uncommented with same | ⟨front, rest, rest', split, result, -⟩
    · rw [same, uncommented_append_comment]
    · have marked : ',' ∈ s := mem_of_mem_uncommented (by
        rw [split]
        exact List.mem_append_right _ (List.mem_cons_self ..))
      rw [result, allBlank_of_mem marked (by decide), allBlank_of_mem (c := ',') (by simp) (by decide)]
  · rfl

end Lines

end ProxyConfig
