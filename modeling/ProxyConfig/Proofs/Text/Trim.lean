import ProxyConfig.Text.Span
import Mathlib.Data.List.DropRight
import Mathlib.Data.List.TakeWhile

/-! # Trimming and the place of what is left

A text that is not blank is `lead ++ core ++ trail` with blank margins and a core that no trim
changes. `Span.trimmed` reads the core and counts the lead, so everything that is said about a span
of a line is said about such a division of the line.
-/

namespace ProxyConfig

namespace Text

/-- The text without the blanks at both ends. -/
def trim (s : Text) : Text := s.trimStart.trimEnd

/-- A text with no blank at either end. -/
def IsTrimmed (s : Text) : Prop := s.trimStart = s ∧ s.trimEnd = s

theorem allBlank_iff {s : Text} : s.allBlank = true ↔ ∀ c ∈ s, isBlank c = true :=
  List.all_eq_true

@[simp] theorem allBlank_append (s t : Text) : (s ++ t).allBlank = (s.allBlank && t.allBlank) :=
  List.all_append

@[simp] theorem allBlank_nil : allBlank [] = true := rfl

theorem trimStart_append {lead : Text} (blank : lead.allBlank = true) (s : Text) :
    (lead ++ s).trimStart = s.trimStart :=
  List.dropWhile_append_of_pos (allBlank_iff.mp blank)

/-- A character that is no blank ends the blanks at the start. -/
theorem trimStart_append_cons (s : Text) {c : Char} (solid : isBlank c = false) (rest : Text) :
    (s ++ c :: rest).trimStart = s.trimStart ++ c :: rest := by
  induction s with
  | nil => exact List.dropWhile_cons_of_neg (Bool.eq_false_iff.mp solid)
  | cons first s ih =>
    rw [trimStart, trimStart, List.cons_append, List.dropWhile_cons, List.dropWhile_cons]
    split
    · exact ih
    · rfl

theorem takeWhile_blank_append_cons (s : Text) {c : Char} (solid : isBlank c = false) (rest : Text) :
    (s ++ c :: rest).takeWhile isBlank = s.takeWhile isBlank := by
  induction s with
  | nil => exact List.takeWhile_cons_of_neg (Bool.eq_false_iff.mp solid)
  | cons first s ih =>
    rw [List.cons_append, List.takeWhile_cons, List.takeWhile_cons, ih]

theorem trimEnd_append (s : Text) {trail : Text} (blank : trail.allBlank = true) :
    (s ++ trail).trimEnd = s.trimEnd := by
  have reversed : ∀ c ∈ trail.reverse, isBlank c = true := by
    intro c member
    exact allBlank_iff.mp blank c (List.mem_reverse.mp member)
  rw [trimEnd, List.reverse_append, List.dropWhile_append_of_pos reversed, trimEnd]

/-- A character that is no blank starts the blanks at the end. -/
theorem trimEnd_append_cons (s : Text) {c : Char} (solid : isBlank c = false) (rest : Text) :
    (s ++ c :: rest).trimEnd = s ++ c :: rest.trimEnd := by
  have reversed : (s ++ c :: rest).reverse = rest.reverse ++ c :: s.reverse := by simp
  have front := trimStart_append_cons rest.reverse solid s.reverse
  rw [trimStart, trimStart] at front
  rw [trimEnd, reversed, front, trimEnd]
  simp

theorem trimStart_eq_nil_iff {s : Text} : s.trimStart = [] ↔ s.allBlank = true := by
  rw [trimStart, List.dropWhile_eq_nil_iff, allBlank_iff]

/-- The first character of a trimmed text is no blank. -/
theorem IsTrimmed.head_not_blank {c : Char} {s : Text} (trimmed : IsTrimmed (c :: s)) :
    ¬ isBlank c = true := by
  intro blank
  have start : s.trimStart = c :: s := by
    have same := trimmed.1
    rwa [trimStart, List.dropWhile_cons_of_pos blank] at same
  have shorter := (List.dropWhile_suffix isBlank (l := s)).length_le
  rw [← trimStart, start, List.length_cons] at shorter
  omega

/-- The last character of a trimmed text is no blank. -/
theorem IsTrimmed.getLast_not_blank {c : Char} {s : Text} (trimmed : IsTrimmed s)
    (last : s.getLast? = some c) : ¬ isBlank c = true := by
  have solid : s ≠ [] := by
    rintro rfl
    cases last
  rw [← (List.getLast_eq_iff_getLast?_eq_some solid).mpr last]
  exact List.rdropWhile_eq_self_iff.mp trimmed.2 solid

/-- A trimmed text starts with something that later text cannot turn into a margin. -/
theorem IsTrimmed.trimStart_append {core : Text} (trimmed : IsTrimmed core) (solid : core ≠ [])
    (rest : Text) : (core ++ rest).trimStart = core ++ rest := by
  cases core with
  | nil => exact absurd rfl solid
  | cons c core =>
    rw [List.cons_append, trimStart, List.dropWhile_cons_of_neg trimmed.head_not_blank]

/-- What stands behind a text does not change the first character that is no blank. -/
theorem head?_trimStart_append {front : Text} (solid : front.allBlank = false) (rest : Text) :
    (front ++ rest).trimStart.head? = front.trimStart.head? := by
  have core : front.trimStart ≠ [] := by
    rw [ne_eq, trimStart_eq_nil_iff, solid]
    exact Bool.false_ne_true
  rw [trimStart, List.dropWhile_append, if_neg (by simpa [trimStart] using core)]
  exact List.head?_append_of_ne_nil _ core

/-- The first margin is what stands before the core. -/
theorem IsTrimmed.takeWhile_blank {lead core : Text} (trimmed : IsTrimmed core)
    (leading : lead.allBlank = true) (solid : core ≠ []) (rest : Text) :
    (lead ++ (core ++ rest)).takeWhile isBlank = lead := by
  rw [List.takeWhile_append_of_pos (allBlank_iff.mp leading)]
  cases core with
  | nil => exact absurd rfl solid
  | cons c core =>
    rw [List.cons_append, List.takeWhile_cons_of_neg trimmed.head_not_blank, List.append_nil]

theorem IsTrimmed.not_allBlank {core : Text} (trimmed : IsTrimmed core) (solid : core ≠ []) :
    core.allBlank = false := by
  apply Bool.eq_false_iff.mpr
  intro blank
  exact solid (trimmed.1.symm.trans (trimStart_eq_nil_iff.mpr blank))

theorem trimEnd_trimEnd (s : Text) : s.trimEnd.trimEnd = s.trimEnd :=
  List.rdropWhile_idempotent isBlank s

/-- The blanks that `trimEnd` takes away. -/
theorem exists_trimEnd_append (s : Text) :
    ∃ trail : Text, trail.allBlank = true ∧ s = s.trimEnd ++ trail := by
  refine ⟨s.rtakeWhile isBlank, ?_, List.rdropWhile_append_rtakeWhile.symm⟩
  exact allBlank_iff.mpr fun c member => List.mem_rtakeWhile_imp member

theorem exists_append_trimStart (s : Text) :
    ∃ lead : Text, lead.allBlank = true ∧ s = lead ++ s.trimStart := by
  refine ⟨s.takeWhile isBlank, ?_, List.takeWhile_append_dropWhile.symm⟩
  exact allBlank_iff.mpr fun c member => List.mem_takeWhile_imp member

theorem isTrimmed_trim (s : Text) : IsTrimmed s.trim := by
  refine ⟨?_, trimEnd_trimEnd s.trimStart⟩
  obtain ⟨trail, blank, split⟩ := exists_trimEnd_append s.trimStart
  rw [trim]
  cases core : s.trimStart.trimEnd with
  | nil => rfl
  | cons c rest =>
    have solid : ¬ isBlank c = true := by
      have head := List.head?_dropWhile_not isBlank s
      rw [← trimStart, split, core, List.cons_append, List.head?_cons] at head
      exact Bool.eq_false_iff.mp head
    rw [trimStart, List.dropWhile_cons_of_neg solid]

/-- Trimming leaves exactly the core between blank margins. -/
theorem trim_surround {lead core trail : Text} (leading : lead.allBlank = true)
    (trimmed : IsTrimmed core) (trailing : trail.allBlank = true) :
    (lead ++ (core ++ trail)).trim = core := by
  rw [trim, trimStart_append leading]
  by_cases solid : core = []
  · subst solid
    rw [List.nil_append, trimStart_eq_nil_iff.mpr trailing]
    rfl
  · rw [trimmed.trimStart_append solid, trimEnd_append core trailing, trimmed.2]

theorem trim_eq_nil_iff {s : Text} : s.trim = [] ↔ s.allBlank = true := by
  constructor
  · intro empty
    obtain ⟨lead, leading, front⟩ := exists_append_trimStart s
    obtain ⟨trail, trailing, back⟩ := exists_trimEnd_append s.trimStart
    rw [trim] at empty
    rw [empty, List.nil_append] at back
    rw [front, back, allBlank_append, leading, trailing, Bool.true_and]
  · intro blank
    rw [trim, trimStart_eq_nil_iff.mpr blank]
    rfl

/-- Every text is its trimmed core between blank margins. -/
theorem exists_surround (s : Text) :
    ∃ lead trail : Text, lead.allBlank = true ∧ trail.allBlank = true ∧
      s = lead ++ (s.trim ++ trail) := by
  obtain ⟨lead, leading, front⟩ := exists_append_trimStart s
  obtain ⟨trail, trailing, back⟩ := exists_trimEnd_append s.trimStart
  refine ⟨lead, trail, leading, trailing, ?_⟩
  calc
    s = lead ++ s.trimStart := front
    _ = lead ++ (s.trim ++ trail) := by rw [trim, ← back]

theorem mem_of_mem_trim {s : Text} {c : Char} (member : c ∈ s.trim) : c ∈ s := by
  obtain ⟨lead, trail, -, -, split⟩ := exists_surround s
  rw [split]
  exact List.mem_append_right _ (List.mem_append_left _ member)

end Text

namespace Span

open Text

@[simp] theorem text_trimmed (column : Nat) (s : Text) : (trimmed column s).text = s.trim := by
  rw [trimmed]
  split
  · next blank => exact (trim_eq_nil_iff.mpr blank).symm
  · rfl

theorem trimmed_of_allBlank (column : Nat) {s : Text} (blank : s.allBlank = true) :
    trimmed column s = ⟨[], column⟩ := by
  rw [trimmed, if_pos blank]

/-- A core between margins is read where it stands. -/
theorem trimmed_surround (column : Nat) {lead core trail : Text} (leading : lead.allBlank = true)
    (trimmed : IsTrimmed core) (solid : core ≠ []) (trailing : trail.allBlank = true) :
    Span.trimmed column (lead ++ (core ++ trail)) = ⟨core, column + lead.length⟩ := by
  have notBlank : ¬ (lead ++ (core ++ trail)).allBlank = true := by
    simp [trimmed.not_allBlank solid]
  have text := trim_surround leading trimmed trailing
  rw [Text.trim] at text
  rw [Span.trimmed, if_neg notBlank, text, trimmed.takeWhile_blank leading solid]

/-- The two ways a span is read off a text. -/
theorem trimmed_cases (column : Nat) (s : Text) :
    (s.allBlank = true ∧ trimmed column s = ⟨[], column⟩) ∨
      ∃ lead trail : Text, lead.allBlank = true ∧ trail.allBlank = true ∧ s.trim ≠ [] ∧
        s = lead ++ (s.trim ++ trail) ∧ trimmed column s = ⟨s.trim, column + lead.length⟩ := by
  by_cases blank : s.allBlank = true
  · exact .inl ⟨blank, trimmed_of_allBlank column blank⟩
  · obtain ⟨lead, trail, leading, trailing, split⟩ := exists_surround s
    have solid : s.trim ≠ [] := fun empty => blank (trim_eq_nil_iff.mp empty)
    refine .inr ⟨lead, trail, leading, trailing, solid, split, ?_⟩
    calc
      trimmed column s = trimmed column (lead ++ (s.trim ++ trail)) := by rw [← split]
      _ = ⟨s.trim, column + lead.length⟩ :=
        trimmed_surround column leading (isTrimmed_trim s) solid trailing

theorem le_column_trimmed (column : Nat) (s : Text) : column ≤ (trimmed column s).column := by
  obtain ⟨-, read⟩ | ⟨lead, trail, -, -, -, -, read⟩ := trimmed_cases column s
  · rw [read]
  · rw [read]
    exact Nat.le_add_right _ _

/-- A span does not reach beyond the text that it is read off. -/
theorem endColumn_trimmed_le (column : Nat) (s : Text) :
    (trimmed column s).endColumn ≤ column + s.length := by
  obtain ⟨-, read⟩ | ⟨lead, trail, -, -, -, split, read⟩ := trimmed_cases column s
  · rw [read]
    simp [endColumn, length]
  · have total := congrArg List.length split
    simp only [List.length_append] at total
    rw [read]
    simp only [endColumn, length]
    omega

/-- Blanks behind a text change nothing. -/
theorem trimmed_append_blank (column : Nat) (s : Text) {trail : Text}
    (blank : trail.allBlank = true) : trimmed column (s ++ trail) = trimmed column s := by
  obtain ⟨void, read⟩ | ⟨lead, rest, leading, trailing, solid, split, read⟩ := trimmed_cases column s
  · rw [read, trimmed_of_allBlank column (by rw [allBlank_append, void, blank, Bool.true_and])]
  · have margins : (rest ++ trail).allBlank = true := by
      rw [allBlank_append, trailing, blank, Bool.true_and]
    rw [read]
    conv_lhs => rw [split, List.append_assoc, List.append_assoc]
    exact trimmed_surround column leading (isTrimmed_trim s) solid margins

/-- Blanks before a text move the place that it is read from, unless all of it is blank. -/
theorem trimmed_blank_append (column : Nat) {lead : Text} (blank : lead.allBlank = true) {s : Text}
    (solid : s.allBlank = false) :
    trimmed column (lead ++ s) = trimmed (column + lead.length) s := by
  obtain ⟨void, -⟩ | ⟨front, rest, leading, trailing, core, split, read⟩ :=
    trimmed_cases (column + lead.length) s
  · exact absurd (void.symm.trans solid) (by decide)
  · have margins : (lead ++ front).allBlank = true := by
      rw [allBlank_append, blank, leading, Bool.true_and]
    rw [read]
    conv_lhs => rw [split, ← List.append_assoc]
    rw [trimmed_surround column margins (isTrimmed_trim s) core trailing, List.length_append,
      Nat.add_assoc]

end Span

end ProxyConfig
