import ProxyConfig.Proofs.Text.Cut

/-! # Editing a text

A client that carries out an edit takes the characters of a range out of the text and puts others in
their place. Within one line, and with a new text that ends no line, the edit changes that line and
leaves the others as they are.
-/

namespace ProxyConfig

namespace Text

/-- The number of characters in front of a position. -/
def offsetAt (s : Text) (p : Position) : Nat :=
  (((pieces '\n' s).take (p.line - 1)).flatMap (· ++ ['\n'])).length + (p.column - 1)

/-- The text with the characters of a range exchanged for others. -/
def edit (s : Text) (r : Range) (new : Text) : Text :=
  s.take (s.offsetAt r.start) ++ (new ++ s.drop (s.offsetAt r.stop))

/-- A text that can be put anywhere into a line: it ends no line and is no part of a line end. -/
structure FitsLine (new : Text) : Prop where
  solid : new ≠ []
  flat : '\n' ∉ new
  last : new.getLast? ≠ some '\r'

instance (new : Text) : Decidable (FitsLine new) :=
  decidable_of_iff (new ≠ [] ∧ '\n' ∉ new ∧ new.getLast? ≠ some '\r')
    ⟨fun ⟨solid, flat, last⟩ => ⟨solid, flat, last⟩,
      fun ⟨solid, flat, last⟩ => ⟨solid, flat, last⟩⟩

/-- A text that is read back wherever a line is cut at marks, commas and the first `=` and its parts
are trimmed. -/
structure IsWord (word : Text) : Prop where
  solid : word ≠ []
  trimmed : IsTrimmed word
  keyless : '=' ∉ word
  single : ',' ∉ word
  unmarked : '#' ∉ word
  flat : '\n' ∉ word

instance (word : Text) : Decidable (IsWord word) :=
  decidable_of_iff
    (word ≠ [] ∧ (word.trimStart = word ∧ word.trimEnd = word) ∧ '=' ∉ word ∧ ',' ∉ word ∧
      '#' ∉ word ∧ '\n' ∉ word)
    ⟨fun ⟨solid, trimmed, keyless, single, unmarked, flat⟩ =>
      ⟨solid, trimmed, keyless, single, unmarked, flat⟩,
      fun ⟨solid, trimmed, keyless, single, unmarked, flat⟩ =>
      ⟨solid, trimmed, keyless, single, unmarked, flat⟩⟩

theorem IsWord.fitsLine {word : Text} (isWord : IsWord word) : FitsLine word where
  solid := isWord.solid
  flat := isWord.flat
  last last := isWord.trimmed.getLast_not_blank last (by decide)

theorem FitsLine.append {front back : Text} (flat : '\n' ∉ front) (fits : FitsLine back) :
    FitsLine (front ++ back) where
  solid := List.append_ne_nil_of_right_ne_nil _ fits.solid
  flat := by
    rw [List.mem_append, not_or]
    exact ⟨flat, fits.flat⟩
  last := by
    rw [List.getLast?_append_of_ne_nil _ fits.solid]
    exact fits.last

/-- A line stands between line ends, the second of which may start with a carriage return. -/
theorem exists_piece_of_line {s line : Text} {i : Nat} (found : s.lines[i]? = some line) :
    ∃ (earlier : List Text) (ending : Text) (later : List Text),
      pieces '\n' s = earlier ++ (line ++ ending) :: later ∧ earlier.length = i ∧
        ((ending = [] ∧ line.getLast? ≠ some '\r') ∨ ending = ['\r']) := by
  rw [lines, List.getElem?_map] at found
  obtain ⟨piece, inside, rfl⟩ := Option.map_eq_some_iff.mp found
  obtain ⟨short, same⟩ := List.getElem?_eq_some_iff.mp inside
  have split : pieces '\n' s =
      (pieces '\n' s).take i ++ piece :: (pieces '\n' s).drop (i + 1) := by
    rw [← same, List.getElem_cons_drop, List.take_append_drop]
  have count : ((pieces '\n' s).take i).length = i := List.length_take_of_le (Nat.le_of_lt short)
  by_cases returned : piece.getLast? = some '\r'
  · refine ⟨(pieces '\n' s).take i, ['\r'], (pieces '\n' s).drop (i + 1), ?_, count, .inr rfl⟩
    rw [dropReturn, if_pos returned, List.dropLast_append_getLast? _ returned]
    exact split
  · refine ⟨(pieces '\n' s).take i, [], (pieces '\n' s).drop (i + 1), ?_, count, .inl ⟨rfl, ?_⟩⟩
    · rw [dropReturn, if_neg returned, List.append_nil]
      exact split
    · rwa [dropReturn, if_neg returned]

theorem dropReturn_append {line ending : Text}
    (ends : (ending = [] ∧ line.getLast? ≠ some '\r') ∨ ending = ['\r']) :
    dropReturn (line ++ ending) = line := by
  rw [dropReturn]
  rcases ends with ⟨rfl, bare⟩ | rfl
  · rw [List.append_nil, if_neg bare]
  · rw [List.getLast?_concat, if_pos rfl, List.dropLast_concat]

variable {s new front old back : Text} {i : Nat} {r : Range}

/-- An edit within a line exchanges a part of that line. -/
theorem lines_edit (fits : FitsLine new) (found : s.lines[i]? = some (front ++ (old ++ back)))
    (lines : r.start.line = i + 1 ∧ r.stop.line = i + 1) (start : r.start.column - 1 = front.length)
    (stop : r.stop.column - 1 = front.length + old.length) :
    (s.edit r new).lines = s.lines.set i (front ++ (new ++ back)) := by
  obtain ⟨earlier, ending, later, cut, rfl, ends⟩ := exists_piece_of_line found
  obtain ⟨whole, clean⟩ := pieces_eq_append_cons_iff.mp cut
  have before (p : Position) (line : p.line = earlier.length + 1) :
      s.offsetAt p = (earlier.flatMap (· ++ ['\n'])).length + (p.column - 1) := by
    rw [offsetAt, cut, line, Nat.add_sub_cancel, List.take_left' rfl]
  have edited : s.edit r new = earlier.flatMap (· ++ ['\n']) ++
      ((front ++ (new ++ back)) ++ ending ++ later.flatMap ('\n' :: ·)) := by
    have head : s.take (s.offsetAt r.start) = earlier.flatMap (· ++ ['\n']) ++ front := by
      have parts : s = (earlier.flatMap (· ++ ['\n']) ++ front) ++
          (old ++ (back ++ (ending ++ later.flatMap ('\n' :: ·)))) := by
        rw [whole]
        simp only [List.append_assoc]
      rw [before _ lines.1, start, ← List.length_append]
      conv_lhs => rw [parts]
      exact List.take_left' rfl
    have tail : s.drop (s.offsetAt r.stop) = back ++ (ending ++ later.flatMap ('\n' :: ·)) := by
      have parts : s = (earlier.flatMap (· ++ ['\n']) ++ (front ++ old)) ++
          (back ++ (ending ++ later.flatMap ('\n' :: ·))) := by
        rw [whole]
        simp only [List.append_assoc]
      rw [before _ lines.2, stop, ← List.length_append, ← List.length_append]
      conv_lhs => rw [parts]
      exact List.drop_left' rfl
    rw [edit, head, tail]
    simp only [List.append_assoc]
  have single : ∀ t ∈ earlier ++ (front ++ (new ++ back) ++ ending) :: later, '\n' ∉ t := by
    rw [List.forall_mem_append, List.forall_mem_cons] at clean ⊢
    refine ⟨clean.1, ?_, clean.2.2⟩
    have here := clean.2.1
    simp only [List.mem_append, not_or] at here ⊢
    exact ⟨⟨here.1.1, fits.flat, here.1.2.2⟩, here.2⟩
  have newEnds : (ending = [] ∧ (front ++ (new ++ back)).getLast? ≠ some '\r') ∨ ending = ['\r'] := by
    refine ends.imp_left fun ⟨empty, bare⟩ => ⟨empty, ?_⟩
    rw [List.getLast?_append_of_ne_nil _ (by simp [fits.solid])]
    by_cases void : back = []
    · rw [void, List.append_nil]
      exact fits.last
    · rw [List.getLast?_append_of_ne_nil _ void]
      rwa [List.getLast?_append_of_ne_nil _ (by simp [void]),
        List.getLast?_append_of_ne_nil _ void] at bare
  rw [Text.lines, pieces_eq_append_cons_iff.mpr ⟨edited, single⟩, Text.lines, cut, List.map_append,
    List.map_append, List.map_cons, List.map_cons, dropReturn_append newEnds,
    List.set_append_right _ _ (by rw [List.length_map]), List.length_map, Nat.sub_self,
    List.set_cons_zero]

end Text

end ProxyConfig
