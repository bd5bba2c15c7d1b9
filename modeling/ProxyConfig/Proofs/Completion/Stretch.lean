import ProxyConfig.Completion
import ProxyConfig.Proofs.Actor.Cursor
import ProxyConfig.Proofs.Client.Ranges

/-! # The stretch of a line that is completed

A completion works on a stretch of the content of its line: the key of a line, a piece between commas,
or one side of the `=` of such a piece. The cursor is in the stretch or at one of its ends, and the
offers replace the word in the stretch. So every range of an offer is a margin of blanks, what is
replaced, and another margin, in a stretch that holds the cursor.
-/

namespace ProxyConfig

open Text

/-- Blanks around a text hold none of the commas before a column. -/
theorem pieceIndexAt_trimmed {start column : Nat} (s : Text) :
    pieceIndexAt s.trim (Span.trimmed start s).column column = (s.take (column - start)).count ',' := by
  rw [pieceIndexAt]
  obtain ⟨blank, -⟩ | ⟨lead, trail, leading, trailing, -, split, place⟩ := Span.trimmed_cases start s
  · have absent : ',' ∉ s := not_mem_of_allBlank blank (by decide)
    rw [trim_eq_nil_iff.mpr blank, List.take_nil,
      List.count_eq_zero_of_not_mem fun found => absent (List.mem_of_mem_take found)]
    rfl
  · have margin {t : Text} (blank : t.allBlank = true) (n : Nat) : (t.take n).count ',' = 0 :=
      List.count_eq_zero_of_not_mem fun found =>
        not_mem_of_allBlank blank (by decide) (List.mem_of_mem_take found)
    rw [place]
    conv_rhs =>
      rw [split, List.take_append, List.take_append, List.count_append, List.count_append,
        margin leading, margin trailing]
    rw [Nat.zero_add, Nat.add_zero, Nat.sub_sub]

namespace Cursor

variable {c : Cursor}

theorem liesOn_wordRange (c : Cursor) (word : Span) : (c.wordRange word).LiesOn c.line := by
  rw [wordRange]
  split
  · exact Range.liesOn_point c.position
  · exact Range.liesOn_between ..

/-- Only a word that is there is replaced, so an empty word may stand anywhere. -/
theorem wordRange_congr (c : Cursor) {a b : Span} (agrees : a.Agrees b) :
    c.wordRange a = c.wordRange b := by
  rcases agrees with rfl | ⟨left, right⟩
  · rfl
  · rw [wordRange, wordRange, Span.isEmpty, Span.isEmpty, left, right]
    rfl

/-- A stretch of the content of the line with the cursor in it or at one of its ends. -/
structure Stretch (c : Cursor) where
  front : Text
  inside : Text
  back : Text
  split : c.content = front ++ (inside ++ back)
  starts : front.length ≤ c.column - 1
  ends : c.column - 1 ≤ front.length + inside.length

namespace Stretch

/-- The word in the stretch. -/
def word (s : c.Stretch) : Span := .trimmed (s.front.length + 1) s.inside

/-- What an offer for the word replaces. -/
def range (s : c.Stretch) : Range := c.wordRange s.word

/-- A stretch as two margins of blanks and what an offer replaces between them. -/
structure Replaces (s : c.Stretch) (lead old trail : Text) : Prop where
  split : s.inside = lead ++ (old ++ trail)
  leading : lead.allBlank = true
  trailing : trail.allBlank = true
  lines : s.range.LiesOn c.line
  start : s.range.start.column - 1 = s.front.length + lead.length
  stop : s.range.stop.column - 1 = s.front.length + lead.length + old.length
  start_pos : 0 < c.column → 0 < s.range.start.column
  ordered : s.range.start.column ≤ s.range.stop.column
  reaches : c.column ≤ s.range.stop.column

/-- An offer replaces the word, with the blanks behind it up to the cursor. -/
theorem exists_replaces (s : c.Stretch) : ∃ lead old trail, s.Replaces lead old trail := by
  have starts := s.starts
  have ends := s.ends
  have lines : s.range.LiesOn c.line := c.liesOn_wordRange s.word
  obtain ⟨blank, read⟩ | ⟨lead, trail, leading, trailing, solid, split, read⟩ :=
    Span.trimmed_cases (s.front.length + 1) s.inside
  · have void := allBlank_iff.mp blank
    have range : s.range = .point c.position := by
      rw [Stretch.range, wordRange, word, read]
      rfl
    have start : s.range.start.column = c.column := by rw [range]; rfl
    have stop : s.range.stop.column = c.column := by rw [range]; rfl
    have length : (s.inside.take (c.column - 1 - s.front.length)).length =
        c.column - 1 - s.front.length := by
      rw [List.length_take]
      omega
    refine ⟨s.inside.take (c.column - 1 - s.front.length), [],
      s.inside.drop (c.column - 1 - s.front.length), ?_, ?_, ?_, lines, ?_, ?_, ?_, ?_, ?_⟩
    · rw [List.nil_append, List.take_append_drop]
    · exact allBlank_iff.mpr fun x member => void x (List.mem_of_mem_take member)
    · exact allBlank_iff.mpr fun x member => void x (List.mem_of_mem_drop member)
    · rw [start, length]
      omega
    · rw [stop, length, List.length_nil]
      omega
    · rw [start]
      exact id
    · rw [start, stop]
    · rw [stop]
  · have full : (Span.trimmed (s.front.length + 1) s.inside).isEmpty = false := by
      rw [read, Span.isEmpty_eq_false_iff]
      exact solid
    have range : s.range = .between c.line (s.front.length + 1 + lead.length)
        (max (s.front.length + 1 + lead.length + s.inside.trim.length) c.column) := by
      rw [Stretch.range, wordRange, word, full, read]
      rfl
    have start : s.range.start.column = s.front.length + 1 + lead.length := by rw [range]; rfl
    have stop : s.range.stop.column =
        max (s.front.length + 1 + lead.length + s.inside.trim.length) c.column := by rw [range]; rfl
    have total := congrArg List.length split
    rw [List.length_append, List.length_append] at total
    -- the cursor may be in the blanks behind the word
    let more := c.column - 1 - (s.front.length + lead.length + s.inside.trim.length)
    have length : (trail.take more).length = more := by
      rw [List.length_take]
      omega
    have void := allBlank_iff.mp trailing
    refine ⟨lead, s.inside.trim ++ trail.take more, trail.drop more, ?_, leading, ?_, lines, ?_, ?_, ?_,
      ?_, ?_⟩
    · rw [List.append_assoc, List.take_append_drop]
      exact split
    · exact allBlank_iff.mpr fun x member => void x (List.mem_of_mem_drop member)
    · rw [start]
      omega
    · rw [stop, List.length_append, length]
      omega
    · rw [start]
      omega
    · rw [start, stop]
      omega
    · rw [stop]
      omega

theorem start_line (s : c.Stretch) : s.range.start.line = c.line := (c.liesOn_wordRange s.word).1

/-- The stretch stands in the line, in front of the comment. -/
theorem lineText_eq {s : c.Stretch} {lead old trail : Text} (replaces : s.Replaces lead old trail) :
    c.lineText = s.front ++ (lead ++ (old ++ (trail ++ (s.back ++ c.lineText.comment)))) := by
  have whole : c.content ++ c.lineText.comment = c.lineText := uncommented_append_comment c.lineText
  conv_lhs => rw [← whole, s.split, replaces.split]
  simp only [List.append_assoc]

/-- The text up to what is replaced. -/
theorem take_start {s : c.Stretch} {lead old trail : Text} (replaces : s.Replaces lead old trail) :
    c.lineText.take (s.range.start.column - 1) = s.front ++ lead := by
  rw [lineText_eq replaces, ← List.append_assoc]
  exact List.take_left' (by rw [replaces.start, List.length_append])

/-- The text up to the end of what is replaced. -/
theorem take_stop {s : c.Stretch} {lead old trail : Text} (replaces : s.Replaces lead old trail) :
    c.lineText.take (s.range.stop.column - 1) = s.front ++ lead ++ old := by
  rw [lineText_eq replaces, ← List.append_assoc, ← List.append_assoc]
  exact List.take_left' (by rw [replaces.stop, List.length_append, List.length_append])

end Stretch

/-- The piece between commas that the cursor is in, behind a part of the line that is not cut. -/
structure PieceAt (c : Cursor) (base : Text) where
  earlier : List Text
  piece : Text
  later : List Text
  split : c.content =
    base ++ (earlier.flatMap (· ++ [',']) ++ (piece ++ later.flatMap (',' :: ·)))
  single : ∀ t ∈ earlier ++ piece :: later, ',' ∉ t
  starts : base.length + (earlier.flatMap (· ++ [','])).length ≤ c.column - 1
  ends : c.column - 1 ≤ base.length + (earlier.flatMap (· ++ [','])).length + piece.length

namespace PieceAt

variable {base : Text}

/-- What stands in front of the piece. -/
def front (a : c.PieceAt base) : Text := base ++ a.earlier.flatMap (· ++ [','])

/-- What stands behind the piece. -/
def back (a : c.PieceAt base) : Text := a.later.flatMap (',' :: ·)

/-- The text that is cut into pieces. -/
def text (a : c.PieceAt base) : Text := a.earlier.flatMap (· ++ [',']) ++ (a.piece ++ a.back)

theorem content_eq (a : c.PieceAt base) : c.content = a.front ++ (a.piece ++ a.back) := by
  rw [front, List.append_assoc]
  exact a.split

theorem pieces_text (a : c.PieceAt base) : pieces ',' a.text = a.earlier ++ a.piece :: a.later :=
  pieces_eq_append_cons_iff.mpr ⟨rfl, a.single⟩

theorem comma_not_mem (a : c.PieceAt base) : ',' ∉ a.piece := a.single _ (by simp)

theorem mark_not_mem (a : c.PieceAt base) : '#' ∉ a.piece := by
  intro member
  apply not_mem_uncommented c.lineText
  change '#' ∈ c.content
  rw [a.content_eq]
  exact List.mem_append_right _ (List.mem_append_left _ member)

theorem length_front (a : c.PieceAt base) :
    a.front.length = base.length + (a.earlier.flatMap (· ++ [','])).length := List.length_append

/-- The whole piece. -/
def stretch (a : c.PieceAt base) : c.Stretch where
  front := a.front
  inside := a.piece
  back := a.back
  split := a.content_eq
  starts := by rw [length_front]; exact a.starts
  ends := by rw [length_front]; exact a.ends

/-- A cursor behind a part of the content is in one of the pieces of the rest, and the commas before it
count the earlier ones. -/
theorem exists_pieceAt {s : Text} (split : c.content = base ++ s) (reached : base.length ≤ c.column - 1)
    (short : c.column - 1 ≤ c.content.length) :
    ∃ a : c.PieceAt base, a.text = s ∧
      a.earlier.length = (s.take (c.column - 1 - base.length)).count ',' := by
  have long : c.column - 1 - base.length ≤ s.length := by
    rw [split, List.length_append] at short
    omega
  obtain ⟨earlier, piece, later, cut, count, starts, ends⟩ := exists_piece_at ',' s long
  obtain ⟨whole, single⟩ := pieces_eq_append_cons_iff.mp cut
  exact ⟨⟨earlier, piece, later, by rw [← whole, split], single, by omega, by omega⟩, whole.symm, count⟩

end PieceAt

section Declarations

/-- The declaration whose value is cut. -/
def PieceAt.entry {key : Text} (a : c.PieceAt (key ++ ['='])) : Entry :=
  ⟨c.line, .trimmed 1 key, .trimmed (1 + key.length + 1) a.text⟩

variable {entry : Entry} {index : Nat}

theorem entry?_of_cut? {key value : Text} (cut : cut? '=' c.content = some (key, value)) :
    c.entry? = some ⟨c.line, .trimmed 1 key, .trimmed (1 + key.length + 1) value⟩ := by
  have clean : '#' ∉ c.content := not_mem_uncommented c.lineText
  unfold entry?
  rw [Entry.parse?_eq, uncommented_of_not_mem clean, cut]
  rfl

/-- The commas in front of the cursor, behind the `=` of the line. -/
theorem pieceIndex_eq (c : Cursor) (start : Nat) (value : Text) :
    c.pieceIndex (Span.trimmed start value).text (Span.trimmed start value).column =
      (value.take (c.column - start)).count ',' := by
  rw [pieceIndex, Span.text_trimmed, pieceIndexAt_trimmed]

theorem argument?_eq_some_iff : c.argument? = some (entry, index) ↔
    c.entry? = some entry ∧ index = c.pieceIndex entry.value.text entry.value.column ∧
      ∃ equals, c.equalsColumn? = some equals ∧ equals < c.column := by
  rw [argument?]
  constructor
  · intro found
    obtain ⟨equals, position, found⟩ := Option.bind_eq_some_iff.mp found
    obtain ⟨e, read, found⟩ := Option.bind_eq_some_iff.mp found
    obtain ⟨behind, found⟩ := Option.ite_none_right_eq_some.mp found
    cases found
    exact ⟨read, rfl, equals, position, behind⟩
  · rintro ⟨read, rfl, equals, position, behind⟩
    rw [position, read]
    exact if_pos behind

/-- A cursor behind the `=` of a declaration is in one of the pieces of its value. -/
theorem exists_pieceAt_of_argument? (found : c.argument? = some (entry, index))
    (short : c.column - 1 ≤ c.content.length) :
    ∃ key, ∃ a : c.PieceAt (key ++ ['=']), '=' ∉ key ∧ a.earlier.length = index ∧
      entry = a.entry := by
  obtain ⟨read, rfl, equals, position, behind⟩ := argument?_eq_some_iff.mp found
  obtain ⟨⟨key, value⟩, cut, rfl⟩ := Option.map_eq_some_iff.mp position
  obtain ⟨split, keyed⟩ := cut?_eq_some_iff.mp cut
  rw [entry?_of_cut? cut] at read
  cases read
  change key.length + 1 < c.column at behind
  have parts : c.content = (key ++ ['=']) ++ value := by
    rw [split, List.append_assoc, List.singleton_append]
  have length : (key ++ ['=']).length = key.length + 1 := List.length_append
  obtain ⟨a, text, count⟩ := PieceAt.exists_pieceAt parts (by omega) short
  refine ⟨key, a, keyed, ?_, by rw [PieceAt.entry, text]⟩
  rw [count, pieceIndex_eq, length]
  congr 2
  omega

variable {key : Text}

/-- The piece is the one with its number among the pieces of the value. -/
theorem PieceAt.piece?_read (a : c.PieceAt (key ++ ['='])) :
    (Pieces.read (1 + key.length + 1) a.text).piece? a.earlier.length = some a.stretch.word := by
  have column : 1 + key.length + 1 + (a.earlier.flatMap (· ++ [','])).length = a.front.length + 1 := by
    rw [a.length_front, List.length_append, List.length_singleton]
    omega
  rw [Pieces.piece?_read a.pieces_text, column]
  rfl

/-- The arguments behind the type are the pieces of the value. -/
theorem PieceAt.piece?_arguments (a : c.PieceAt (key ++ ['='])) (behind : a.earlier.length ≠ 0) :
    a.entry.arguments.piece? a.earlier.length = some a.stretch.word := by
  have read := a.piece?_read
  obtain ⟨i, index⟩ := Nat.exists_eq_succ_of_ne_zero behind
  rw [index] at read ⊢
  exact (congrArg (·[i]?) (Entry.others_arguments c.line _ _ a.text)).trans read

theorem PieceAt.map_text_arguments (a : c.PieceAt (key ++ ['='])) :
    a.entry.arguments.toList.map (·.text) = (a.earlier ++ a.piece :: a.later).map trim := by
  have first := Entry.first_arguments c.line (.trimmed 1 key) (1 + key.length + 1) a.text
  have others := Entry.others_arguments c.line (.trimmed 1 key) (1 + key.length + 1) a.text
  rw [← a.pieces_text, ← Pieces.map_text_place (1 + key.length + 1), ← Pieces.toList_read,
    Pieces.toList, Pieces.toList, List.map_cons, List.map_cons, ← first.text_eq, ← others]
  rfl

/-- The type is the first piece of the value. -/
theorem PieceAt.first_arguments_agrees (a : c.PieceAt (key ++ ['='])) (first : a.earlier.length = 0) :
    a.entry.arguments.first.Agrees a.stretch.word := by
  have read := a.piece?_read
  rw [first] at read
  have same : (Pieces.read (1 + key.length + 1) a.text).first = a.stretch.word := Option.some.inj read
  rw [← same]
  exact Entry.first_arguments c.line _ _ a.text

end Declarations

section Sides

variable {base key value : Text}

/-- The `=` of a trimmed text stands where it does in the text. -/
theorem exists_cut?_trimmed (column : Nat) {s : Text} (split : s = key ++ '=' :: value)
    (keyed : '=' ∉ key) : ∃ inner rest, cut? '=' s.trim = some (inner, rest) ∧
      (Span.trimmed column s).column + inner.length = column + key.length := by
  obtain ⟨blank, -⟩ | ⟨lead, trail, leading, trailing, -, parts, place⟩ := Span.trimmed_cases column s
  · exact absurd (by rw [split]; simp) (not_mem_of_allBlank (d := '=') blank (by decide))
  · have whole : cut? '=' (lead ++ (s.trim ++ trail)) = some (key, value) := by
      rw [← parts]
      exact cut?_eq_some_iff.mpr ⟨split, keyed⟩
    rw [cut?_append_left (not_mem_of_allBlank leading (by decide)),
      cut?_append_right _ (not_mem_of_allBlank trailing (by decide)), Option.map_map] at whole
    obtain ⟨⟨inner, rest⟩, cut, halves⟩ := Option.map_eq_some_iff.mp whole
    cases halves
    refine ⟨inner, rest, cut, ?_⟩
    rw [place, List.length_append, Nat.add_assoc]

/-- The part of a piece before its first `=`. -/
def PieceAt.keyStretch (a : c.PieceAt base) (split : a.piece = key ++ '=' :: value)
    (upTo : c.column ≤ a.front.length + 1 + key.length) : c.Stretch where
  front := a.front
  inside := key
  back := '=' :: (value ++ a.back)
  split := by rw [a.content_eq, split, List.append_assoc, List.cons_append]
  starts := a.stretch.starts
  ends := by omega

/-- The part of a piece behind its first `=`. -/
def PieceAt.valueStretch (a : c.PieceAt base) (split : a.piece = key ++ '=' :: value)
    (behind : a.front.length + 1 + key.length < c.column) : c.Stretch where
  front := a.front ++ (key ++ ['='])
  inside := value
  back := a.back
  split := by simp [a.content_eq, split]
  starts := by
    rw [List.length_append, List.length_append, List.length_singleton]
    omega
  ends := by
    have ends := a.stretch.ends
    change c.column - 1 ≤ a.front.length + a.piece.length at ends
    rw [split, List.length_append, List.length_cons] at ends
    rw [List.length_append, List.length_append, List.length_singleton]
    omega

/-- The property in a piece, and the side of its `=` that the cursor is on. -/
structure PieceAt.Property (a : c.PieceAt base) (key value : Text) (property : Entry) : Prop where
  split : a.piece = key ++ '=' :: value
  keyed : '=' ∉ key
  read : a.stretch.word.property? c.line = some property
  line : property.line = c.line
  keySpan : property.key.Agrees (.trimmed (a.front.length + 1) key)
  valueSpan : property.value = .trimmed (a.front.length + 1 + key.length + 1) value
  slot : c.slot a.stretch.word =
    if a.front.length + 1 + key.length < c.column then .value property else .key property.key true

/-- A piece with an `=` has a property. -/
theorem PieceAt.exists_property (a : c.PieceAt base) (split : a.piece = key ++ '=' :: value)
    (keyed : '=' ∉ key) : ∃ property, a.Property key value property := by
  obtain ⟨inner, rest, core, column⟩ := exists_cut?_trimmed (a.front.length + 1) split keyed
  have text : a.stretch.word.text = a.piece.trim := Span.text_trimmed _ _
  have agrees := Span.property?_trimmed c.line (a.front.length + 1) a.mark_not_mem
  rw [Entry.parse?_eq, uncommented_of_not_mem a.mark_not_mem, split, cut?_append_cons keyed, ← split]
    at agrees
  change Option.Rel _ (a.stretch.word.property? c.line) _ at agrees
  cases read : a.stretch.word.property? c.line with
  | none =>
    rw [read] at agrees
    cases agrees
  | some property =>
    rw [read] at agrees
    cases agrees with
    | some same =>
      refine ⟨property, split, keyed, read, same.line, same.key, same.value, ?_⟩
      rw [slot, read, text, core]
      change (if a.stretch.word.column + inner.length < c.column then _ else _) = _
      rw [show a.stretch.word.column + inner.length = a.front.length + 1 + key.length from column]

/-- A piece is plain or has a property. -/
theorem PieceAt.slot_cases (a : c.PieceAt base) :
    ('=' ∉ a.piece ∧ c.slot a.stretch.word = .key a.stretch.word false) ∨
      ∃ key value property, a.Property key value property := by
  cases cut : cut? '=' a.piece with
  | none =>
    have absent := cut?_eq_none_iff.mp cut
    have plain : a.stretch.word.property? c.line = none :=
      Span.property?_of_not_mem c.line (a.front.length + 1) absent
    refine .inl ⟨absent, ?_⟩
    rw [slot, plain]
  | some halves =>
    obtain ⟨key, value⟩ := halves
    obtain ⟨split, keyed⟩ := cut?_eq_some_iff.mp cut
    obtain ⟨property, found⟩ := a.exists_property split keyed
    exact .inr ⟨key, value, property, found⟩

end Sides

end Cursor

end ProxyConfig
