import ProxyConfig.Proofs.Position
import ProxyConfig.Proofs.Text.Cut

/-! # Replacing ranges of a text

`Text.replace` walks through a text with its position: where a range starts it puts the new text, and
it leaves out what lies in a range. On one line the walk splits at every column, ranges elsewhere do
not matter, and the range of a trimmed piece exchanges the core of the piece between its margins.
-/

namespace ProxyConfig

/-- The position behind a character. -/
def Position.next (p : Position) (c : Char) : Position :=
  if c = '\n' then ⟨p.line + 1, 1⟩ else ⟨p.line, p.column + 1⟩

namespace Text

/-- What becomes of the text from a position on when the characters of each range are replaced. -/
def replaceFrom (ranges : List Range) (new : Text) (p : Position) : Text → Text
  | [] => []
  | c :: s =>
    (if ranges.any fun r => r.start == p then new else [])
      ++ ((if ranges.any fun r => r.contains p then [] else [c])
        ++ replaceFrom ranges new (p.next c) s)

/-- The text with the characters of each range replaced by `new`. -/
def replace (s : Text) (ranges : List Range) (new : Text) : Text := replaceFrom ranges new ⟨1, 1⟩ s

/-- Ranges that neither start at nor hold a column from `first` up to `last` of the line. -/
def Clear (ranges : List Range) (line first last : Nat) : Prop :=
  ∀ r ∈ ranges, ∀ c, first ≤ c → c < last → r.start ≠ ⟨line, c⟩ ∧ ¬ r.contains ⟨line, c⟩ = true

theorem Clear.mono {ranges : List Range} {line first last first' last' : Nat}
    (clear : Clear ranges line first last) (left : first ≤ first') (right : last' ≤ last) :
    Clear ranges line first' last' :=
  fun r member c starts ends =>
    clear r member c (Nat.le_trans left starts) (Nat.lt_of_lt_of_le ends right)

theorem Clear.append {first second : List Range} {line a b : Nat} (left : Clear first line a b)
    (right : Clear second line a b) : Clear (first ++ second) line a b := by
  intro r member
  rcases List.mem_append.mp member with member | member
  · exact left r member
  · exact right r member

section Line

variable {ranges : List Range} {new : Text} {line column : Nat}

theorem replaceFrom_cons {c : Char} (flat : c ≠ '\n') (s : Text) :
    replaceFrom ranges new ⟨line, column⟩ (c :: s) =
      (if ranges.any fun r => r.start == ⟨line, column⟩ then new else [])
        ++ ((if ranges.any fun r => r.contains ⟨line, column⟩ then [] else [c])
          ++ replaceFrom ranges new ⟨line, column + 1⟩ s) := by
  rw [replaceFrom, Position.next, if_neg flat]

/-- The walk splits at every column of a line. -/
theorem replaceFrom_append {a : Text} (flat : '\n' ∉ a) (b : Text) :
    replaceFrom ranges new ⟨line, column⟩ (a ++ b) =
      replaceFrom ranges new ⟨line, column⟩ a
        ++ replaceFrom ranges new ⟨line, column + a.length⟩ b := by
  induction a generalizing column with
  | nil => rfl
  | cons c a ih =>
    obtain ⟨here, behind⟩ := List.ne_and_not_mem_of_not_mem_cons flat
    rw [List.cons_append, replaceFrom_cons (Ne.symm here), replaceFrom_cons (Ne.symm here),
      ih behind, List.length_cons, List.append_assoc, List.append_assoc, Nat.add_assoc,
      Nat.add_comm 1]

/-- Only ranges that reach the columns of the text matter. -/
theorem replaceFrom_congr {others : List Range} {s : Text} (flat : '\n' ∉ s)
    (same : ∀ c, column ≤ c → c < column + s.length →
      ((∃ r ∈ ranges, r.start = ⟨line, c⟩) ↔ ∃ r ∈ others, r.start = ⟨line, c⟩) ∧
      ((∃ r ∈ ranges, r.contains ⟨line, c⟩ = true) ↔ ∃ r ∈ others, r.contains ⟨line, c⟩ = true)) :
    replaceFrom ranges new ⟨line, column⟩ s = replaceFrom others new ⟨line, column⟩ s := by
  induction s generalizing column with
  | nil => rfl
  | cons c s ih =>
    obtain ⟨here, behind⟩ := List.ne_and_not_mem_of_not_mem_cons flat
    have rest : replaceFrom ranges new ⟨line, column + 1⟩ s =
        replaceFrom others new ⟨line, column + 1⟩ s :=
      ih behind fun c' starts ends => same c' (by omega) (by rw [List.length_cons]; omega)
    obtain ⟨starts, holds⟩ := same column (Nat.le_refl _) (by rw [List.length_cons]; omega)
    rw [replaceFrom_cons (Ne.symm here), replaceFrom_cons (Ne.symm here), rest]
    simp only [List.any_eq_true, beq_iff_eq, starts, holds]

/-- A text that no range reaches stays as it is. -/
theorem replaceFrom_of_clear {s : Text} (flat : '\n' ∉ s)
    (clear : Clear ranges line column (column + s.length)) :
    replaceFrom ranges new ⟨line, column⟩ s = s := by
  have none : replaceFrom ranges new ⟨line, column⟩ s = replaceFrom [] new ⟨line, column⟩ s := by
    refine replaceFrom_congr flat fun c starts ends => ⟨⟨?_, ?_⟩, ⟨?_, ?_⟩⟩
    · rintro ⟨r, member, start⟩
      exact absurd start (clear r member c starts ends).1
    · rintro ⟨r, member, -⟩
      cases member
    · rintro ⟨r, member, holds⟩
      exact absurd holds (clear r member c starts ends).2
    · rintro ⟨r, member, -⟩
      cases member
  rw [none]
  clear none clear
  induction s generalizing column with
  | nil => rfl
  | cons c s ih =>
    obtain ⟨here, behind⟩ := List.ne_and_not_mem_of_not_mem_cons flat
    rw [replaceFrom_cons (Ne.symm here), ih behind]
    rfl

private theorem exists_mem_append_clear {clearRanges others : List Range} {P : Range → Prop}
    (clear : ∀ r ∈ clearRanges, ¬ P r) :
    (∃ r ∈ clearRanges ++ others, P r) ↔ ∃ r ∈ others, P r := by
  constructor
  · rintro ⟨r, member, holds⟩
    rcases List.mem_append.mp member with member | member
    · exact absurd holds (clear r member)
    · exact ⟨r, member, holds⟩
  · rintro ⟨r, member, holds⟩
    exact ⟨r, List.mem_append_right _ member, holds⟩

/-- Ranges that do not reach a text can be left out. -/
theorem replaceFrom_clear_append {others : List Range} {s : Text} (flat : '\n' ∉ s)
    (clear : Clear ranges line column (column + s.length)) :
    replaceFrom (ranges ++ others) new ⟨line, column⟩ s =
      replaceFrom others new ⟨line, column⟩ s := by
  refine replaceFrom_congr flat fun c starts ends => ⟨?_, ?_⟩
  · exact exists_mem_append_clear fun r member => (clear r member c starts ends).1
  · exact exists_mem_append_clear fun r member => (clear r member c starts ends).2

theorem replaceFrom_append_clear {others : List Range} {s : Text} (flat : '\n' ∉ s)
    (clear : Clear ranges line column (column + s.length)) :
    replaceFrom (others ++ ranges) new ⟨line, column⟩ s =
      replaceFrom others new ⟨line, column⟩ s := by
  refine Eq.trans ?_ (replaceFrom_clear_append flat clear)
  refine replaceFrom_congr flat fun c _ _ => ⟨?_, ?_⟩ <;>
    simp only [List.mem_append, or_comm]

/-- A range on one line is clear of the columns before and behind it. -/
theorem clear_onLine {start length first last : Nat} (long : 0 < length)
    (apart : last ≤ start ∨ start + length ≤ first) :
    Clear [.onLine line start length] line first last := by
  intro r member c starts ends
  obtain rfl := List.mem_singleton.mp member
  rw [Range.contains_onLine_iff]
  constructor
  · intro same
    have column : start = c := congrArg Position.column same
    omega
  · rintro ⟨-, reached, before⟩
    change start ≤ c at reached
    change c < start + length at before
    omega

/-- The inside of a range is left out. -/
private theorem replaceFrom_inside {s : Text} (flat : '\n' ∉ s) {start length : Nat}
    (after : start < column) (upTo : column + s.length ≤ start + length) :
    replaceFrom [.onLine line start length] new ⟨line, column⟩ s = [] := by
  induction s generalizing column with
  | nil => rfl
  | cons c s ih =>
    obtain ⟨here, behind⟩ := List.ne_and_not_mem_of_not_mem_cons flat
    rw [List.length_cons] at upTo
    have late : ¬ (Range.onLine line start length).start = ⟨line, column⟩ := by
      intro same
      have equal : start = column := congrArg Position.column same
      omega
    have held : (Range.onLine line start length).contains ⟨line, column⟩ = true :=
      Range.contains_onLine_iff.mpr ⟨rfl, Nat.le_of_lt after, by change column < _; omega⟩
    rw [replaceFrom_cons (Ne.symm here), ih behind (by omega) (by omega)]
    simp [late, held]

/-- The range of a core exchanges the core and nothing else. -/
theorem replaceFrom_core {lead core trail : Text} (flat : '\n' ∉ lead ++ (core ++ trail))
    (solid : core ≠ []) :
    replaceFrom [.onLine line (column + lead.length) core.length] new ⟨line, column⟩
      (lead ++ (core ++ trail)) = lead ++ (new ++ trail) := by
  simp only [List.mem_append, not_or] at flat
  obtain ⟨flatLead, flatCore, flatTrail⟩ := flat
  have long : 0 < core.length := List.length_pos_of_ne_nil solid
  have front : replaceFrom [.onLine line (column + lead.length) core.length] new ⟨line, column⟩ lead =
      lead :=
    replaceFrom_of_clear flatLead (clear_onLine long (.inl (Nat.le_refl _)))
  have back : replaceFrom [.onLine line (column + lead.length) core.length] new
      ⟨line, column + lead.length + core.length⟩ trail = trail :=
    replaceFrom_of_clear flatTrail (clear_onLine long (.inr (Nat.le_refl _)))
  have middle : replaceFrom [.onLine line (column + lead.length) core.length] new
      ⟨line, column + lead.length⟩ core = new := by
    cases core with
    | nil => exact absurd rfl solid
    | cons c rest =>
      obtain ⟨here, behind⟩ := List.ne_and_not_mem_of_not_mem_cons flatCore
      have held : (Range.onLine line (column + lead.length) (c :: rest).length).contains
          ⟨line, column + lead.length⟩ = true :=
        Range.contains_onLine_iff.mpr
          ⟨rfl, Nat.le_refl _, Nat.lt_add_of_pos_right (List.length_pos_of_ne_nil solid)⟩
      have begins : ((Range.onLine line (column + lead.length) (c :: rest).length).start ==
          ⟨line, column + lead.length⟩) = true := beq_self_eq_true _
      rw [replaceFrom_cons (Ne.symm here),
        replaceFrom_inside behind (by omega) (by rw [List.length_cons]; omega)]
      simp only [List.any_cons, List.any_nil, Bool.or_false, begins, held, if_true,
        List.append_nil]
  rw [replaceFrom_append flatLead, replaceFrom_append flatCore, front, middle, back]

end Line

section Lines

variable {ranges : List Range} {new : Text}

theorem mem_of_mem_replaceFrom {p : Position} {s : Text} {c : Char}
    (member : c ∈ replaceFrom ranges new p s) : c ∈ s ∨ c ∈ new := by
  induction s generalizing p with
  | nil => cases member
  | cons d s ih =>
    rw [replaceFrom] at member
    rcases List.mem_append.mp member with here | member
    · split at here
      · exact .inr here
      · cases here
    · rcases List.mem_append.mp member with here | behind
      · split at here
        · cases here
        · exact .inl (List.mem_singleton.mp here ▸ List.mem_cons_self ..)
      · exact (ih behind).imp (List.mem_cons_of_mem _) id

/-- A line end that no range reaches stays a line end. -/
theorem replaceFrom_newline {line column : Nat} (clear : Clear ranges line column (column + 1))
    (s : Text) :
    replaceFrom ranges new ⟨line, column⟩ ('\n' :: s) =
      '\n' :: replaceFrom ranges new ⟨line + 1, 1⟩ s := by
  have unmarked : ¬ (ranges.any fun r => r.start == ⟨line, column⟩) = true := by
    intro marked
    obtain ⟨r, member, start⟩ := List.any_eq_true.mp marked
    exact (clear r member column (Nat.le_refl _) (Nat.lt_succ_self _)).1 (eq_of_beq start)
  have unheld : ¬ (ranges.any fun r => r.contains ⟨line, column⟩) = true := by
    intro held
    obtain ⟨r, member, holds⟩ := List.any_eq_true.mp held
    exact (clear r member column (Nat.le_refl _) (Nat.lt_succ_self _)).2 holds
  rw [replaceFrom, if_neg unmarked, if_neg unheld, Position.next, if_pos rfl]
  rfl

private theorem pieces_replaceFrom (flat : '\n' ∉ new) {s : Text} {line : Nat}
    (clear : ∀ i piece, (pieces '\n' s)[i]? = some piece →
      Clear ranges (line + i) (1 + piece.length) (1 + piece.length + 1)) :
    pieces '\n' (replaceFrom ranges new ⟨line, 1⟩ s) =
      (pieces '\n' s).mapIdx fun i piece => replaceFrom ranges new ⟨line + i, 1⟩ piece := by
  have kept {p : Position} {t : Text} (absent : '\n' ∉ t) : '\n' ∉ replaceFrom ranges new p t :=
    fun member => (mem_of_mem_replaceFrom member).elim absent flat
  induction s using pieces_induction (d := '\n') generalizing line with
  | single s absent =>
    rw [pieces_of_not_mem absent, pieces_of_not_mem (kept absent)]
    rfl
  | more piece s absent ih =>
    rw [pieces_append_cons absent] at clear ⊢
    have here : Clear ranges line (1 + piece.length) (1 + piece.length + 1) := clear 0 piece rfl
    have later (i : Nat) : line + (i + 1) = line + 1 + i := by omega
    have behind : pieces '\n' (replaceFrom ranges new ⟨line + 1, 1⟩ s) =
        (pieces '\n' s).mapIdx fun i piece => replaceFrom ranges new ⟨line + 1 + i, 1⟩ piece :=
      ih fun i other found => later i ▸ clear (i + 1) other found
    rw [replaceFrom_append absent, replaceFrom_newline here, pieces_append_cons (kept absent), behind,
      List.mapIdx_cons]
    congr 2
    funext i other
    rw [later i]

private theorem dropReturn_replaceFrom {line : Nat} {piece : Text} (flat : '\n' ∉ piece)
    (clear : Clear ranges line (1 + (dropReturn piece).length) (3 + (dropReturn piece).length))
    (ends : (dropReturn piece).getLast? ≠ some '\r' →
      (replaceFrom ranges new ⟨line, 1⟩ (dropReturn piece)).getLast? ≠ some '\r') :
    dropReturn (replaceFrom ranges new ⟨line, 1⟩ piece) =
      replaceFrom ranges new ⟨line, 1⟩ (dropReturn piece) := by
  by_cases returned : piece.getLast? = some '\r'
  · have text : dropReturn piece = piece.dropLast := by rw [dropReturn, if_pos returned]
    have split : piece = piece.dropLast ++ ['\r'] :=
      (List.dropLast_append_getLast? _ returned).symm
    have flatText : '\n' ∉ piece.dropLast := fun member =>
      flat ((List.dropLast_sublist piece).mem member)
    rw [text] at clear ⊢
    have last : replaceFrom ranges new ⟨line, 1 + piece.dropLast.length⟩ ['\r'] = ['\r'] :=
      replaceFrom_of_clear (by decide)
        (clear.mono (Nat.le_refl _) (by change 1 + _ + 1 ≤ _; omega))
    conv_lhs => rw [split, replaceFrom_append flatText, last]
    rw [dropReturn, List.getLast?_concat, if_pos rfl, List.dropLast_concat]
  · have text : dropReturn piece = piece := by rw [dropReturn, if_neg returned]
    rw [text] at ends ⊢
    rw [dropReturn, if_neg (ends returned)]

theorem not_mem_of_mem_lines {s line : Text} (member : line ∈ s.lines) : '\n' ∉ line := by
  obtain ⟨piece, inside, rfl⟩ := List.mem_map.mp member
  have absent := not_mem_of_mem_pieces inside
  rw [dropReturn]
  split
  · exact fun found => absent ((List.dropLast_sublist piece).mem found)
  · exact absent

/-- The lines of a replaced text are the replaced lines, provided that the ranges lie within lines
and no line comes to end in a carriage return. -/
theorem lines_replace (flat : '\n' ∉ new) {s : Text}
    (clear : ∀ i text, s.lines[i]? = some text →
      Clear ranges (i + 1) (1 + text.length) (3 + text.length))
    (ends : ∀ i text, s.lines[i]? = some text → text.getLast? ≠ some '\r' →
      (replaceFrom ranges new ⟨i + 1, 1⟩ text).getLast? ≠ some '\r') :
    (s.replace ranges new).lines =
      s.lines.mapIdx fun i text => replaceFrom ranges new ⟨i + 1, 1⟩ text := by
  have line {i : Nat} {piece : Text} (found : (pieces '\n' s)[i]? = some piece) :
      s.lines[i]? = some (dropReturn piece) := by
    rw [lines, List.getElem?_map, found, Option.map_some]
  have short (piece : Text) : (dropReturn piece).length ≤ piece.length ∧
      piece.length ≤ (dropReturn piece).length + 1 := by
    rw [dropReturn]
    split
    · rw [List.length_dropLast]
      omega
    · omega
  have split : pieces '\n' (replaceFrom ranges new ⟨1, 1⟩ s) =
      (pieces '\n' s).mapIdx fun i piece => replaceFrom ranges new ⟨1 + i, 1⟩ piece := by
    refine pieces_replaceFrom flat fun i piece found => ?_
    have reach := clear i _ (line found)
    have bounds := short piece
    rw [Nat.add_comm 1 i]
    exact reach.mono (by omega) (by omega)
  rw [lines, replace, split]
  apply List.ext_getElem?
  intro i
  rw [List.getElem?_map, List.getElem?_mapIdx, List.getElem?_mapIdx]
  cases found : (pieces '\n' s)[i]? with
  | none => rw [lines, List.getElem?_map, found]; rfl
  | some piece =>
    have flatPiece := not_mem_of_mem_pieces (List.mem_of_getElem? found)
    rw [line found, Option.map_some, Option.map_some, Option.map_some, Nat.add_comm 1 i,
      dropReturn_replaceFrom flatPiece (clear i _ (line found)) (ends i _ (line found))]

end Lines

end Text

end ProxyConfig
