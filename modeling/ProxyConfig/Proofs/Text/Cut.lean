import ProxyConfig.Text.Line
import ProxyConfig.Proofs.Text.Trim

/-! # Cutting a text, read as equations on appends

`Text.cut?` is characterised by its result and `Text.pieces` is the library's `List.splitOn`, so a
text is either one piece or a piece, a separator and more pieces. Margins of blanks around a text
change neither the cut nor the spans of its pieces, except for the place of an empty first piece.
-/

namespace ProxyConfig

namespace Text

variable {d : Char}

theorem cut?_eq_none_iff {s : Text} : cut? d s = none ↔ d ∉ s := by
  induction s with
  | nil => simp [cut?]
  | cons c s ih =>
    rw [cut?, List.mem_cons]
    split
    · next same => simp [same]
    · next other =>
      rw [Option.map_eq_none_iff, ih]
      exact ⟨fun absent => not_or.mpr ⟨Ne.symm other, absent⟩, fun absent => (not_or.mp absent).2⟩

theorem cut?_append_cons {before : Text} (absent : d ∉ before) (after : Text) :
    cut? d (before ++ d :: after) = some (before, after) := by
  induction before with
  | nil => simp [cut?]
  | cons c before ih =>
    obtain ⟨other, rest⟩ := not_or.mp (List.mem_cons.not.mp absent)
    rw [List.cons_append, cut?, if_neg (Ne.symm other), ih rest]
    rfl

theorem not_mem_of_cut? {s before after : Text} (found : cut? d s = some (before, after)) :
    d ∉ before := by
  induction s generalizing before after with
  | nil => simp [cut?] at found
  | cons c s ih =>
    rw [cut?] at found
    split at found
    · cases found
      exact List.not_mem_nil
    · next other =>
      obtain ⟨⟨first, last⟩, inner, pair⟩ := Option.map_eq_some_iff.mp found
      cases pair
      exact List.not_mem_cons_of_ne_of_not_mem (Ne.symm other) (ih inner)

theorem cut?_eq_some_iff {s before after : Text} :
    cut? d s = some (before, after) ↔ s = before ++ d :: after ∧ d ∉ before := by
  constructor
  · intro found
    exact ⟨append_of_cut? found, not_mem_of_cut? found⟩
  · rintro ⟨rfl, absent⟩
    exact cut?_append_cons absent after

/-- A text with the separator is cut at the last one. -/
theorem exists_append_last {s : Text} (member : d ∈ s) :
    ∃ before after : Text, s = before ++ d :: after ∧ d ∉ after := by
  induction s with
  | nil => cases member
  | cons c rest ih =>
    by_cases later : d ∈ rest
    · obtain ⟨before, after, split, absent⟩ := ih later
      exact ⟨c :: before, after, by rw [split, List.cons_append], absent⟩
    · obtain rfl := (List.mem_cons.mp member).resolve_right later
      exact ⟨[], rest, rfl, later⟩

/-- Text without the separator before another text joins the first half. -/
theorem cut?_append_left {lead : Text} (absent : d ∉ lead) (s : Text) :
    cut? d (lead ++ s) = (cut? d s).map fun (before, after) => (lead ++ before, after) := by
  cases found : cut? d s with
  | none =>
    have missing : d ∉ lead ++ s := by
      simp [absent, cut?_eq_none_iff.mp found]
    rw [cut?_eq_none_iff.mpr missing, Option.map_none]
  | some halves =>
    obtain ⟨before, after⟩ := halves
    obtain ⟨split, first⟩ := cut?_eq_some_iff.mp found
    rw [Option.map_some, cut?_eq_some_iff, split, List.append_assoc]
    exact ⟨rfl, by simp [absent, first]⟩

/-- Text without the separator behind another text joins the second half. -/
theorem cut?_append_right (s : Text) {trail : Text} (absent : d ∉ trail) :
    cut? d (s ++ trail) = (cut? d s).map fun (before, after) => (before, after ++ trail) := by
  cases found : cut? d s with
  | none =>
    have missing : d ∉ s ++ trail := by
      simp [absent, cut?_eq_none_iff.mp found]
    rw [cut?_eq_none_iff.mpr missing, Option.map_none]
  | some halves =>
    obtain ⟨before, after⟩ := halves
    obtain ⟨split, first⟩ := cut?_eq_some_iff.mp found
    rw [Option.map_some, cut?_eq_some_iff, split, List.append_assoc]
    exact ⟨rfl, first⟩

theorem pieces_eq_splitOn (d : Char) (s : Text) : pieces d s = s.splitOn d := by
  induction s with
  | nil => rfl
  | cons c s ih =>
    rw [List.splitOn_cons_eq_if_modifyHead, ← ih, pieces, pieces, cutAll]
    by_cases same : c = d <;> simp [same]

theorem pieces_of_not_mem {s : Text} (absent : d ∉ s) : pieces d s = [s] := by
  rw [pieces_eq_splitOn, List.splitOn_eq_singleton absent]

theorem pieces_append_cons {piece : Text} (absent : d ∉ piece) (s : Text) :
    pieces d (piece ++ d :: s) = piece :: pieces d s := by
  rw [pieces_eq_splitOn, List.splitOn_append_cons_self_of_not_mem absent, ← pieces_eq_splitOn]

/-- Every text is one piece, or a piece and a separator before another text. -/
@[elab_as_elim]
theorem pieces_induction {motive : Text → Prop} (single : ∀ s, d ∉ s → motive s)
    (more : ∀ piece s, d ∉ piece → motive s → motive (piece ++ d :: s)) (s : Text) : motive s := by
  induction length : s.length using Nat.strongRecOn generalizing s with
  | ind n ih =>
    cases found : cut? d s with
    | none => exact single s (cut?_eq_none_iff.mp found)
    | some halves =>
      obtain ⟨piece, rest⟩ := halves
      obtain ⟨rfl, absent⟩ := cut?_eq_some_iff.mp found
      refine more piece rest absent (ih rest.length ?_ rest rfl)
      rw [← length, List.length_append, List.length_cons]
      omega

/-- A text is its first piece and the others, each behind a separator. -/
theorem append_cutAll (d : Char) (s : Text) :
    (cutAll d s).1 ++ (cutAll d s).2.flatMap (d :: ·) = s := by
  induction s with
  | nil => rfl
  | cons c s ih =>
    rw [cutAll]
    dsimp only
    split
    · next same => rw [same, List.flatMap_cons, List.nil_append, List.cons_append, ih]
    · rw [List.cons_append, ih]

/-- Pieces without the separator are read back off their join. -/
theorem cutAll_append {first : Text} (absent : d ∉ first) {others : List Text}
    (clean : ∀ t ∈ others, d ∉ t) :
    cutAll d (first ++ others.flatMap (d :: ·)) = (first, others) := by
  have whole : pieces d (first ++ others.flatMap (d :: ·)) = first :: others := by
    induction others generalizing first with
    | nil => rw [List.flatMap_nil, List.append_nil, pieces_of_not_mem absent]
    | cons t rest ih =>
      rw [List.flatMap_cons, List.cons_append, pieces_append_cons absent,
        ih (clean t (List.mem_cons_self ..)) fun u member => clean u (List.mem_cons_of_mem _ member)]
  rw [pieces, List.cons.injEq] at whole
  exact Prod.ext whole.1 whole.2

theorem not_mem_of_mem_pieces {s piece : Text} (member : piece ∈ pieces d s) : d ∉ piece := by
  induction s using pieces_induction (d := d) with
  | single s absent =>
    rw [pieces_of_not_mem absent, List.mem_singleton] at member
    rwa [member]
  | more first s absent ih =>
    rw [pieces_append_cons absent, List.mem_cons] at member
    rcases member with rfl | member
    · exact absent
    · exact ih member

theorem mem_of_mem_pieces {s piece : Text} {c : Char} (member : piece ∈ pieces d s)
    (inside : c ∈ piece) : c ∈ s := by
  induction s using pieces_induction (d := d) with
  | single s absent =>
    rw [pieces_of_not_mem absent, List.mem_singleton] at member
    rwa [← member]
  | more first s absent ih =>
    rw [pieces_append_cons absent, List.mem_cons] at member
    rcases member with rfl | member
    · exact List.mem_append_left _ inside
    · exact List.mem_append_right _ (List.mem_cons_of_mem _ (ih member))

/-- The pieces hold no character that the text does not hold. -/
theorem not_mem_cutAll (d : Char) {c : Char} {s : Text} (absent : c ∉ s) :
    c ∉ (cutAll d s).1 ∧ ∀ t ∈ (cutAll d s).2, c ∉ t :=
  ⟨fun found => absent (mem_of_mem_pieces (List.mem_cons_self ..) found),
    fun _ member found => absent (mem_of_mem_pieces (List.mem_cons_of_mem _ member) found)⟩

theorem separator_not_mem_cutAll (d : Char) (s : Text) :
    d ∉ (cutAll d s).1 ∧ ∀ t ∈ (cutAll d s).2, d ∉ t :=
  ⟨not_mem_of_mem_pieces (List.mem_cons_self ..),
    fun _ member => not_mem_of_mem_pieces (List.mem_cons_of_mem _ member)⟩

/-- The pieces of a text are the texts without the separator that it is the join of. -/
theorem pieces_eq_cons_iff {s first : Text} {others : List Text} :
    pieces d s = first :: others ↔
      s = first ++ others.flatMap (d :: ·) ∧ d ∉ first ∧ ∀ t ∈ others, d ∉ t := by
  constructor
  · intro cut
    obtain ⟨rfl, rfl⟩ := List.cons.inj cut
    exact ⟨(append_cutAll d s).symm, separator_not_mem_cutAll d s⟩
  · rintro ⟨rfl, absent, clean⟩
    rw [pieces, cutAll_append absent clean]

/-- The separators behind the earlier pieces are those before the others. -/
theorem flatMap_cons_append (d : Char) (earlier : List Text) (piece : Text) (later : List Text) :
    (earlier ++ piece :: later).flatMap (d :: ·) =
      d :: (earlier.flatMap (· ++ [d]) ++ (piece ++ later.flatMap (d :: ·))) := by
  induction earlier with
  | nil => rfl
  | cons t rest ih =>
    rw [List.cons_append, List.flatMap_cons, ih, List.flatMap_cons, List.append_assoc,
      List.append_assoc, List.singleton_append, List.cons_append]

/-- A text is cut at one of its pieces. -/
theorem pieces_eq_append_cons_iff {s piece : Text} {earlier later : List Text} :
    pieces d s = earlier ++ piece :: later ↔
      s = earlier.flatMap (· ++ [d]) ++ (piece ++ later.flatMap (d :: ·)) ∧
        ∀ t ∈ earlier ++ piece :: later, d ∉ t := by
  cases earlier with
  | nil =>
    rw [List.nil_append, pieces_eq_cons_iff, List.forall_mem_cons, List.flatMap_nil, List.nil_append]
  | cons t rest =>
    rw [List.cons_append, pieces_eq_cons_iff, flatMap_cons_append, List.forall_mem_cons,
      List.flatMap_cons, List.append_assoc, List.append_assoc, List.singleton_append]

/-- The piece that holds a place of the text, or ends there. -/
theorem exists_piece_at (d : Char) (s : Text) {n : Nat} (inside : n ≤ s.length) :
    ∃ (earlier : List Text) (piece : Text) (later : List Text),
      pieces d s = earlier ++ piece :: later ∧ earlier.length = (s.take n).count d ∧
        (earlier.flatMap (· ++ [d])).length ≤ n ∧
          n ≤ (earlier.flatMap (· ++ [d])).length + piece.length := by
  induction s using pieces_induction (d := d) generalizing n with
  | single s absent =>
    refine ⟨[], s, [], pieces_of_not_mem absent, ?_, Nat.zero_le n, by simpa using inside⟩
    exact (List.count_eq_zero_of_not_mem fun found => absent (List.mem_of_mem_take found)).symm
  | more first s absent ih =>
    rw [List.length_append, List.length_cons] at inside
    by_cases here : n ≤ first.length
    · refine ⟨[], first, pieces d s, pieces_append_cons absent s, ?_, Nat.zero_le n, by simpa using here⟩
      rw [List.take_append_of_le_length here]
      exact (List.count_eq_zero_of_not_mem fun found => absent (List.mem_of_mem_take found)).symm
    · obtain ⟨earlier, piece, later, cut, count, starts, ends⟩ :=
        ih (n := n - (first.length + 1)) (by omega)
      refine ⟨first :: earlier, piece, later, ?_, ?_, ?_, ?_⟩
      · rw [pieces_append_cons absent, cut, List.cons_append]
      · rw [List.take_append, List.take_of_length_le (by omega),
          show n - first.length = n - (first.length + 1) + 1 by omega, List.take_succ_cons,
          List.count_append, List.count_cons_self, List.count_eq_zero_of_not_mem absent, ← count,
          List.length_cons]
        omega
      · rw [List.flatMap_cons, List.length_append, List.length_append, List.length_singleton]
        omega
      · rw [List.flatMap_cons, List.length_append, List.length_append, List.length_singleton]
        omega

theorem not_mem_join {c : Char} (other : c ≠ d) {texts : List Text} (absent : ∀ t ∈ texts, c ∉ t) :
    c ∉ texts.flatMap (d :: ·) := by
  intro member
  obtain ⟨t, inside, found⟩ := List.mem_flatMap.mp member
  rcases List.mem_cons.mp found with same | found
  · exact other same
  · exact absent t inside found

theorem not_mem_of_allBlank {s : Text} (blank : s.allBlank = true) (solid : isBlank d = false) :
    d ∉ s := by
  intro member
  have white := allBlank_iff.mp blank d member
  exact absurd (white.symm.trans solid) (by decide)

theorem allBlank_of_mem {c : Char} {s : Text} (member : c ∈ s) (solid : isBlank c = false) :
    s.allBlank = false :=
  Bool.eq_false_iff.mpr fun blank => not_mem_of_allBlank blank solid member

theorem not_mem_uncommented (line : Text) : '#' ∉ line.uncommented := by
  intro member
  have kept := List.mem_takeWhile_imp member
  exact absurd kept (by decide)

theorem uncommented_of_not_mem {s : Text} (absent : '#' ∉ s) : s.uncommented = s := by
  rw [uncommented, List.takeWhile_eq_self_iff]
  intro c member
  exact bne_iff_ne.mpr fun same => absent (same ▸ member)

/-- A comment with its mark, or nothing. -/
def IsComment (s : Text) : Prop := s = [] ∨ ∃ rest, s = '#' :: rest

/-- The comment of a line, with its mark. -/
def comment (line : Text) : Text := line.dropWhile (· != '#')

theorem uncommented_append_comment (line : Text) : line.uncommented ++ line.comment = line :=
  List.takeWhile_append_dropWhile

theorem isComment_comment (line : Text) : IsComment line.comment := by
  rw [comment]
  cases tail : line.dropWhile (· != '#') with
  | nil => exact .inl rfl
  | cons c rest =>
    have mark := List.head?_dropWhile_not (· != '#') line
    rw [tail] at mark
    have same : c = '#' := by simpa using mark
    exact .inr ⟨rest, by rw [same]⟩

theorem uncommented_append {s comment : Text} (absent : '#' ∉ s) (marked : IsComment comment) :
    uncommented (s ++ comment) = s := by
  have kept : ∀ c ∈ s, (c != '#') = true := fun c member =>
    bne_iff_ne.mpr fun same => absent (same ▸ member)
  rw [uncommented, List.takeWhile_append_of_pos kept]
  obtain rfl | ⟨rest, rfl⟩ := marked <;> simp

/-- Without a mark up to a place, the text up to there is before the comment. -/
theorem le_length_uncommented {line : Text} {n : Nat} (inside : n ≤ line.length)
    (clean : '#' ∉ line.take n) : n ≤ line.uncommented.length := by
  by_contra short
  obtain empty | ⟨rest, marked⟩ := isComment_comment line
  · have whole := uncommented_append_comment line
    rw [empty, List.append_nil] at whole
    rw [whole] at short
    exact short inside
  · apply clean
    rw [← uncommented_append_comment line, marked, List.take_append,
      List.take_of_length_le (by omega),
      show n - line.uncommented.length = n - line.uncommented.length - 1 + 1 by omega,
      List.take_succ_cons]
    exact List.mem_append_right _ (List.mem_cons_self ..)

theorem mem_of_mem_uncommented {line : Text} {c : Char} (member : c ∈ line.uncommented) :
    c ∈ line :=
  (List.takeWhile_sublist _).mem member

section Halves

variable {line key value : Text} (found : cut? '=' line.uncommented = some (key, value))

include found

/-- A line with an `=` is a key, the `=`, a value and a comment. -/
theorem eq_of_cut?_uncommented : key ++ '=' :: (value ++ line.comment) = line := by
  have whole := uncommented_append_comment line
  rwa [(cut?_eq_some_iff.mp found).1, List.append_assoc] at whole

theorem not_mem_of_cut?_uncommented : '#' ∉ key ∧ '#' ∉ value := by
  have clean := not_mem_uncommented line
  rw [(cut?_eq_some_iff.mp found).1, List.mem_append, List.mem_cons, not_or, not_or] at clean
  exact ⟨clean.1, clean.2.2⟩

end Halves

end Text

/-- Two spans that are the same, unless both are empty. -/
def Span.Agrees (a b : Span) : Prop := a = b ∨ (a.text = [] ∧ b.text = [])

theorem Span.Agrees.text_eq {a b : Span} (agrees : a.Agrees b) : a.text = b.text := by
  rcases agrees with rfl | ⟨left, right⟩
  · rfl
  · rw [left, right]

theorem Span.Agrees.eq_of_solid {a b : Span} (agrees : a.Agrees b) (solid : b.text ≠ []) : a = b :=
  agrees.resolve_right fun empty => solid empty.2

/-- Trimming before reading moves only an empty span. -/
theorem Span.trimmed_append_agrees (column : Nat) {lead : Text} (blank : lead.allBlank = true)
    (s : Text) : (trimmed (column + lead.length) s).Agrees (trimmed column (lead ++ s)) := by
  by_cases void : s.allBlank = true
  · have all : (lead ++ s).allBlank = true := by
      rw [Text.allBlank_append, blank, void, Bool.true_and]
    rw [trimmed_of_allBlank _ void, trimmed_of_allBlank _ all]
    exact .inr ⟨rfl, rfl⟩
  · exact .inl (trimmed_blank_append column blank (Bool.eq_false_iff.mpr void)).symm

namespace Pieces

open Text

theorem toList_read (column : Nat) (s : Text) :
    (read column s).toList = place column (pieces ',' s) := rfl

theorem read_eq (column : Nat) (s : Text) :
    read column s = ⟨.trimmed column (cutAll ',' s).1,
      place (column + (cutAll ',' s).1.length + 1) (cutAll ',' s).2⟩ := rfl

/-- The texts of placed pieces are the trimmed pieces, wherever they stand. -/
theorem map_text_place (column : Nat) (texts : List Text) :
    (place column texts).map (·.text) = texts.map trim := by
  induction texts generalizing column with
  | nil => rfl
  | cons t rest ih => rw [place, List.map_cons, ih, Span.text_trimmed, List.map_cons]

/-- A piece between commas has none. -/
theorem not_mem_of_mem_read {column : Nat} {s : Text} {a : Span}
    (member : a ∈ (read column s).toList) : ',' ∉ a.text := by
  have text : a.text ∈ (pieces ',' s).map trim := by
    rw [← map_text_place column]
    exact List.mem_map_of_mem member
  obtain ⟨piece, listed, same⟩ := List.mem_map.mp text
  rw [← same]
  exact fun inside => not_mem_of_mem_pieces listed (mem_of_mem_trim inside)

theorem read_of_not_mem (column : Nat) {s : Text} (absent : ',' ∉ s) :
    read column s = ⟨.trimmed column s, []⟩ := by
  have single := pieces_of_not_mem absent
  rw [pieces, List.cons.injEq] at single
  rw [read_eq, single.1, single.2]
  rfl

theorem read_append_cons (column : Nat) {piece : Text} (absent : ',' ∉ piece) (s : Text) :
    read column (piece ++ ',' :: s) =
      ⟨.trimmed column piece, (read (column + piece.length + 1) s).toList⟩ := by
  have more := pieces_append_cons absent s
  rw [pieces, List.cons.injEq] at more
  rw [toList_read, read_eq, more.1, more.2]

/-- Blanks behind a text change none of its pieces. -/
theorem read_append_blank (column : Nat) (s : Text) {trail : Text} (blank : trail.allBlank = true) :
    read column (s ++ trail) = read column s := by
  induction s using pieces_induction (d := ',') generalizing column with
  | single s absent =>
    have none : ',' ∉ s ++ trail := by
      simp [absent, not_mem_of_allBlank blank (d := ',') (by decide)]
    rw [read_of_not_mem column none, read_of_not_mem column absent,
      Span.trimmed_append_blank column s blank]
  | more piece s absent ih =>
    rw [List.append_assoc, List.cons_append, read_append_cons column absent,
      read_append_cons column absent, ih]

/-- Blanks before a text move at most an empty first piece. -/
theorem read_blank_append (column : Nat) {lead : Text} (blank : lead.allBlank = true) (s : Text) :
    (read (column + lead.length) s).first.Agrees (read column (lead ++ s)).first ∧
      (read column (lead ++ s)).others = (read (column + lead.length) s).others := by
  have clean : ',' ∉ lead := not_mem_of_allBlank blank (by decide)
  induction s using pieces_induction (d := ',') with
  | single s absent =>
    have none : ',' ∉ lead ++ s := by simp [clean, absent]
    rw [read_of_not_mem _ none, read_of_not_mem _ absent]
    exact ⟨Span.trimmed_append_agrees column blank s, rfl⟩
  | more piece s absent _ =>
    have none : ',' ∉ lead ++ piece := by simp [clean, absent]
    rw [← List.append_assoc, read_append_cons _ none, read_append_cons _ absent,
      List.length_append, ← Nat.add_assoc]
    exact ⟨Span.trimmed_append_agrees column blank piece, rfl⟩

/-- The pieces of a trimmed text are those of the text, but for the place of an empty first one. -/
theorem read_trimmed (column : Nat) (s : Text) :
    (read (Span.trimmed column s).column s.trim).first.Agrees (read column s).first ∧
      (read column s).others = (read (Span.trimmed column s).column s.trim).others := by
  obtain ⟨blank, place⟩ | ⟨lead, trail, leading, trailing, -, split, place⟩ :=
    Span.trimmed_cases column s
  · have absent : ',' ∉ s := not_mem_of_allBlank blank (by decide)
    rw [place, trim_eq_nil_iff.mpr blank, read_of_not_mem column absent, place]
    exact ⟨.inl rfl, rfl⟩
  · have same : read column s = read column (lead ++ s.trim) := by
      conv_lhs => rw [split, ← List.append_assoc]
      exact read_append_blank column (lead ++ s.trim) trailing
    rw [place, same]
    exact read_blank_append column leading s.trim

theorem place_append (column : Nat) (earlier later : List Text) :
    place column (earlier ++ later) =
      place column earlier ++ place (column + (earlier.flatMap (· ++ [','])).length) later := by
  induction earlier generalizing column with
  | nil => rfl
  | cons t rest ih =>
    rw [List.cons_append, place, ih, place, List.flatMap_cons, List.length_append, List.length_append,
      List.length_singleton, List.cons_append, Nat.add_assoc, Nat.add_assoc, Nat.add_assoc]

/-- A piece is read where it stands. -/
theorem piece?_read {column : Nat} {s piece : Text} {earlier later : List Text}
    (cut : pieces ',' s = earlier ++ piece :: later) :
    (read column s).piece? earlier.length =
      some (.trimmed (column + (earlier.flatMap (· ++ [','])).length) piece) := by
  have front : (place column earlier).length = earlier.length := place_length column earlier
  rw [piece?, toList_read, cut, place_append, place, List.getElem?_append_right (Nat.le_of_eq front),
    front, Nat.sub_self]
  rfl

end Pieces

end ProxyConfig
