import ProxyConfig.Proofs.Text.Replace

/-! # Exchanging the core of a piece

A rename exchanges one core for another and leaves the margins of the piece alone. Many such steps
turn a text into one that is respelled: the same characters in the same order, with some occurrences
of the old text exchanged for the new one.
-/

namespace ProxyConfig

namespace Text

/-- The text with the core `new` between the same margins, if its core is `old`. -/
def recore (old new s : Text) : Text :=
  if s.trim = old then
    let margin := s.takeWhile isBlank
    margin ++ (new ++ s.drop (margin.length + old.length))
  else s

/-- The second text is the first one with some occurrences of `old` exchanged for `new`. -/
inductive Respelled (old new : Text) : Text → Text → Prop where
  | nil : Respelled old new [] []
  | keep (c : Char) {s t : Text} : Respelled old new s t → Respelled old new (c :: s) (c :: t)
  | swap {s t : Text} : Respelled old new s t → Respelled old new (old ++ s) (new ++ t)

variable {old new : Text}

theorem recore_of_ne {s : Text} (other : s.trim ≠ old) : recore old new s = s := if_neg other

theorem recore_surround {lead trail : Text} (leading : lead.allBlank = true)
    (trimmed : IsTrimmed old) (solid : old ≠ []) (trailing : trail.allBlank = true) :
    recore old new (lead ++ (old ++ trail)) = lead ++ (new ++ trail) := by
  have behind : (lead ++ (old ++ trail)).drop (lead.length + old.length) = trail := by
    rw [← List.append_assoc, List.drop_left' (List.length_append)]
  rw [recore, if_pos (trim_surround leading trimmed trailing)]
  dsimp only
  rw [trimmed.takeWhile_blank leading solid, behind]

/-- Either the core is another one, or it is exchanged between its margins. -/
theorem recore_cases (new : Text) (solid : old ≠ []) (s : Text) :
    (s.trim ≠ old ∧ recore old new s = s) ∨
      ∃ lead trail : Text, lead.allBlank = true ∧ trail.allBlank = true ∧ IsTrimmed old ∧
        s = lead ++ (old ++ trail) ∧ recore old new s = lead ++ (new ++ trail) := by
  by_cases same : s.trim = old
  · obtain ⟨lead, trail, leading, trailing, split⟩ := exists_surround s
    have trimmed : IsTrimmed old := same ▸ isTrimmed_trim s
    rw [same] at split
    refine .inr ⟨lead, trail, leading, trailing, trimmed, split, ?_⟩
    rw [split, recore_surround leading trimmed solid trailing]
  · exact .inl ⟨same, recore_of_ne same⟩

/-- The core of the result is the new core exactly if the old core was there. -/
theorem trim_recore (solid : old ≠ []) (trimmed : IsTrimmed new) (s : Text) :
    (recore old new s).trim = if s.trim = old then new else s.trim := by
  obtain ⟨other, same⟩ | ⟨lead, trail, leading, trailing, trimmedOld, split, result⟩ :=
    recore_cases new solid s
  · rw [same, if_neg other]
  · have core : s.trim = old := by rw [split, trim_surround leading trimmedOld trailing]
    rw [result, if_pos core, trim_surround leading trimmed trailing]

namespace Respelled

theorem refl (s : Text) : Respelled old new s s := by
  induction s with
  | nil => exact .nil
  | cons c s ih => exact .keep c ih

theorem append {s t s' t' : Text} (left : Respelled old new s t) (right : Respelled old new s' t') :
    Respelled old new (s ++ s') (t ++ t') := by
  induction left with
  | nil => exact right
  | keep c _ ih => exact .keep c ih
  | swap _ ih =>
    rw [List.append_assoc, List.append_assoc]
    exact .swap ih

theorem of_recore (new : Text) (solid : old ≠ []) (s : Text) :
    Respelled old new s (recore old new s) := by
  obtain ⟨-, same⟩ | ⟨lead, trail, -, -, -, split, result⟩ := recore_cases new solid s
  · rw [same]
    exact refl s
  · rw [result]
    conv_lhs => rw [split]
    exact (refl lead).append (.swap (refl trail))

theorem mem {s t : Text} {c : Char} (respelled : Respelled old new s t) (member : c ∈ t) :
    c ∈ s ∨ c ∈ new := by
  induction respelled with
  | nil => cases member
  | keep d _ ih =>
    rcases List.mem_cons.mp member with rfl | member
    · exact .inl (List.mem_cons_self ..)
    · exact (ih member).imp (List.mem_cons_of_mem _) id
  | swap _ ih =>
    rcases List.mem_append.mp member with here | member
    · exact .inr here
    · exact (ih member).imp (List.mem_append_right _) id

theorem eq_nil {s : Text} (respelled : Respelled old new s []) (solid : new ≠ []) : s = [] := by
  generalize empty : ([] : Text) = t at respelled
  cases respelled with
  | nil => rfl
  | keep c _ => cases empty
  | swap _ => exact absurd (List.append_eq_nil_iff.mp empty.symm).1 solid

/-- A respelled text ends in a character that the new text does not end in only if it did before. -/
theorem getLast? {s t : Text} {c : Char} (respelled : Respelled old new s t)
    (solid : new ≠ []) (other : new.getLast? ≠ some c) (last : t.getLast? = some c) :
    s.getLast? = some c := by
  induction respelled with
  | nil => exact last
  | @keep d s t rest ih =>
    rw [List.getLast?_cons] at last ⊢
    cases behind : t.getLast? with
    | none =>
      rw [List.getLast?_eq_none_iff] at behind
      subst behind
      rw [rest.eq_nil solid]
      exact last
    | some e =>
      rw [behind, Option.getD_some] at last
      rw [ih (behind.trans last), Option.getD_some]
  | swap _ ih =>
    rw [List.getLast?_append] at last ⊢
    rcases Option.or_eq_some_iff.mp last with last | ⟨-, last⟩
    · rw [ih last, Option.some_or]
    · exact absurd last other

end Respelled

/-- The range of a piece with the core `old`, if it has it, exchanges the core. -/
theorem replaceFrom_trimmed (new : Text) (solid : old ≠ []) {s : Text} (flat : '\n' ∉ s)
    (line column : Nat) :
    replaceFrom (if (Span.trimmed column s).text = old then [(Span.trimmed column s).range line]
      else []) new ⟨line, column⟩ s = recore old new s := by
  rw [Span.text_trimmed]
  obtain ⟨other, same⟩ | ⟨lead, trail, leading, trailing, trimmed, split, result⟩ :=
    recore_cases new solid s
  · rw [if_neg other, same]
    exact replaceFrom_of_clear flat fun r member => absurd member List.not_mem_nil
  · have core : s.trim = old := by rw [split, trim_surround leading trimmed trailing]
    have place : Span.trimmed column s = ⟨old, column + lead.length⟩ := by
      rw [split, Span.trimmed_surround column leading trimmed solid trailing]
    rw [if_pos core, result, place]
    rw [split] at flat ⊢
    exact replaceFrom_core flat solid

end Text

end ProxyConfig
