import ProxyConfig.Position

/-! # The order of positions

Document order on positions as arithmetic, for the ranges of one line.
-/

namespace ProxyConfig

namespace Position

variable {p q r : Position}

theorem before_iff :
    p.before q = true ↔ p.line < q.line ∨ p.line = q.line ∧ p.column < q.column := by
  simp [before]

theorem upTo_iff :
    p.upTo q = true ↔ p.line < q.line ∨ p.line = q.line ∧ p.column ≤ q.column := by
  simp [upTo]

theorem upTo_trans (left : p.upTo q = true) (right : q.upTo r = true) : p.upTo r = true := by
  rw [upTo_iff] at *
  omega

theorem upTo_of_before (less : p.before q = true) : p.upTo q = true := by
  rw [upTo_iff]
  rw [before_iff] at less
  omega

theorem upTo_total (p q : Position) : (p.upTo q || q.upTo p) = true := by
  rw [Bool.or_eq_true, upTo_iff, upTo_iff]
  omega

theorem not_before_of_upTo (order : p.upTo q = true) : ¬ q.before p = true := by
  rw [before_iff]
  rw [upTo_iff] at order
  omega

end Position

namespace Range

/-- The range lies in the outer one and does not end before it starts. -/
def Within (r outer : Range) : Prop :=
  outer.start.upTo r.start = true ∧ r.start.upTo r.stop = true ∧ r.stop.upTo outer.stop = true

/-- The range starts and ends before the later one starts. -/
def Precedes (r later : Range) : Prop :=
  r.start.before later.start = true ∧ r.stop.before later.start = true

theorem contains_iff {r : Range} {p : Position} :
    r.contains p = true ↔ r.start.upTo p = true ∧ p.before r.stop = true := by
  simp [contains]

theorem touches_iff {r : Range} {p : Position} :
    r.touches p = true ↔ r.start.upTo p = true ∧ p.upTo r.stop = true := by
  simp [touches]

/-- Ranges of different lines are in the order of the lines. -/
theorem Precedes.of_line_lt {r later : Range} (starts : r.start.line < later.start.line)
    (stops : r.stop.line < later.start.line) : r.Precedes later :=
  ⟨Position.before_iff.mpr (.inl starts), Position.before_iff.mpr (.inl stops)⟩

/-- No position is in two ranges that stand behind each other, or at the end of the first. -/
theorem Precedes.not_touches {r later : Range} (order : r.Precedes later) {p : Position}
    (first : r.touches p = true) : ¬ later.touches p = true := by
  intro second
  have ends := (touches_iff.mp first).2
  have starts := (touches_iff.mp second).1
  exact Position.not_before_of_upTo (Position.upTo_trans starts ends) order.2

/-- A range on one line holds the positions between its columns. -/
theorem contains_onLine_iff {line column length : Nat} {p : Position} :
    (onLine line column length).contains p = true ↔
      p.line = line ∧ column ≤ p.column ∧ p.column < column + length := by
  rw [contains_iff, Position.upTo_iff, Position.before_iff]
  change (line < p.line ∨ line = p.line ∧ column ≤ p.column) ∧
    (p.line < line ∨ p.line = line ∧ p.column < column + length) ↔ _
  omega

end Range

end ProxyConfig
