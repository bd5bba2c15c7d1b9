import ProxyConfig.Actor.Site
import ProxyConfig.Proofs.Text.Tokens

/-! # Columns of pieces

The pieces of a text lie behind each other in the text, one comma apart, so the number of commas
before a column that touches a piece is the number of the piece. A property lies inside its
argument, and the arguments of an entry behind its key.
-/

namespace ProxyConfig

open Text

namespace Pieces

theorem le_column_of_mem_place {column : Nat} {texts : List Text} {a : Span}
    (member : a ∈ place column texts) : column ≤ a.column := by
  induction texts generalizing column with
  | nil => cases member
  | cons s rest ih =>
    rcases List.mem_cons.mp member with rfl | member
    · exact Span.le_column_trimmed column s
    · exact Nat.le_trans (by omega) (ih member)

/-- What is placed is each text between the blanks around it. -/
theorem forall₂_place (column : Nat) (texts : List Text) :
    List.Forall₂ (fun a t => ∃ lead trail : Text, lead.allBlank = true ∧ trail.allBlank = true ∧
      IsTrimmed a.text ∧ t = lead ++ (a.text ++ trail)) (place column texts) texts := by
  induction texts generalizing column with
  | nil => exact .nil
  | cons t rest ih =>
    refine .cons ?_ (ih _)
    obtain ⟨lead, trail, leading, trailing, split⟩ := exists_surround t
    rw [Span.text_trimmed]
    exact ⟨lead, trail, leading, trailing, isTrimmed_trim t, split⟩

/-- Pieces that were one separator apart keep a column between them. -/
theorem place_pairwise (column : Nat) (texts : List Text) :
    (place column texts).Pairwise fun a b => a.endColumn < b.column := by
  induction texts generalizing column with
  | nil => exact .nil
  | cons s rest ih =>
    refine .cons ?_ (ih _)
    intro b member
    have ends := Span.endColumn_trimmed_le column s
    have starts := le_column_of_mem_place member
    omega

theorem endColumn_le_of_mem_read {column : Nat} {s : Text} {a : Span}
    (member : a ∈ (read column s).toList) : a.endColumn ≤ column + s.length :=
  (standsIn_of_mem_read member).endColumn_le

theorem le_column_of_mem_read {column : Nat} {s : Text} {a : Span}
    (member : a ∈ (read column s).toList) : column ≤ a.column :=
  (standsIn_of_mem_read member).le_column

/-- The commas before a column that touches a piece count the pieces before it. -/
theorem pieceIndexAt_of_touches {start column i : Nat} {s : Text} {a : Span}
    (found : (read start s).piece? i = some a) (touches : a.touches column = true) :
    pieceIndexAt s start column = i := by
  simp only [Span.touches, Bool.and_eq_true, decide_eq_true_eq] at touches
  induction s using pieces_induction (d := ',') generalizing start i with
  | single s absent =>
    rw [read_of_not_mem start absent] at found
    cases i with
    | zero => exact List.count_eq_zero_of_not_mem fun member => absent (List.mem_of_mem_take member)
    | succ i => simp [piece?, toList] at found
  | more piece s absent ih =>
    rw [read_append_cons start absent] at found
    cases i with
    | zero =>
      obtain rfl : Span.trimmed start piece = a := Option.some.inj found
      have ends := Span.endColumn_trimmed_le start piece
      rw [pieceIndexAt, List.take_append_of_le_length (by omega)]
      exact List.count_eq_zero_of_not_mem fun member => absent (List.mem_of_mem_take member)
    | succ i =>
      have inside : a ∈ (read (start + piece.length + 1) s).toList := List.mem_of_getElem? found
      have starts := le_column_of_mem_read inside
      have count := ih found
      rw [pieceIndexAt] at count ⊢
      have cut : (piece ++ ',' :: s).take (column - start) =
          piece ++ ',' :: s.take (column - (start + piece.length + 1)) := by
        rw [List.take_append, List.take_of_length_le (by omega),
          show column - start - piece.length = column - (start + piece.length + 1) + 1 by omega,
          List.take_succ_cons]
      rw [cut, List.count_append, List.count_cons_self, count,
        List.count_eq_zero_of_not_mem absent]
      omega

end Pieces

namespace Entry

/-- A property lies inside the argument that it is read off. -/
theorem value_inside_of_parse? {line column : Nat} {s : Text} {e : Entry}
    (read : parse? line column s = some e) :
    column < e.value.column ∧ e.value.endColumn ≤ column + s.length := by
  obtain ⟨key, value, comment, -, -, -, -, rfl, rfl⟩ := exists_append_of_parse? read
  have starts := Span.le_column_trimmed (column + key.length + 1) value
  have ends := Span.endColumn_trimmed_le (column + key.length + 1) value
  rw [List.length_append, List.length_cons, List.length_append]
  constructor
  · change column < (Span.trimmed _ value).column
    omega
  · change (Span.trimmed _ value).endColumn ≤ _
    omega

theorem line_of_parse? {line column : Nat} {s : Text} {e : Entry}
    (read : parse? line column s = some e) : e.line = line := by
  obtain ⟨key, value, comment, -, -, -, -, -, rfl⟩ := exists_append_of_parse? read
  rfl

/-- The key of an entry ends before its value starts. -/
theorem key_before_value_of_parse? {line column : Nat} {s : Text} {e : Entry}
    (read : parse? line column s = some e) :
    column ≤ e.key.column ∧ e.key.endColumn < e.value.column := by
  obtain ⟨key, value, comment, -, -, -, -, rfl, rfl⟩ := exists_append_of_parse? read
  have starts := Span.le_column_trimmed column key
  have ends := Span.endColumn_trimmed_le column key
  have follows := Span.le_column_trimmed (column + key.length + 1) value
  constructor
  · exact starts
  · change (Span.trimmed column key).endColumn < (Span.trimmed _ value).column
    omega

/-- The key of an entry ends up to the first `=` of its text. -/
theorem endColumn_key_le {line column : Nat} {s key value : Text} {e : Entry}
    (read : parse? line column s = some e) (cut : cut? '=' s = some (key, value)) :
    e.key.endColumn ≤ column + key.length := by
  obtain ⟨key', value', comment, absent, -, -, -, rfl, rfl⟩ := exists_append_of_parse? read
  rw [cut?_append_cons absent, Option.some.injEq, Prod.mk.injEq] at cut
  rw [← cut.1]
  exact Span.endColumn_trimmed_le column key'

theorem le_column_of_mem_arguments {e : Entry} {a : Span} (member : a ∈ e.arguments.toList) :
    e.value.column ≤ a.column :=
  Pieces.le_column_of_mem_read member

theorem endColumn_le_of_mem_arguments {e : Entry} {a : Span} (member : a ∈ e.arguments.toList) :
    a.endColumn ≤ e.value.endColumn :=
  Pieces.endColumn_le_of_mem_read member

theorem arguments_pairwise (e : Entry) :
    e.arguments.toList.Pairwise fun a b => a.endColumn < b.column :=
  Pieces.place_pairwise e.value.column (pieces ',' e.value.text)

/-- The tokens of an entry are where their columns say, and its arguments are the pieces of the value
between consecutive commas, each without the blanks around it. -/
structure Faithful (e : Entry) (raw : Text) : Prop where
  key : e.key.StandsIn 1 raw
  value : e.value.StandsIn 1 raw
  argument : ∀ a ∈ e.arguments.toList, a.StandsIn 1 raw
  property : ∀ a ∈ e.arguments.toList, ∀ line p, a.property? line = some p →
    p.key.StandsIn 1 raw ∧ p.value.StandsIn 1 raw
  count : e.arguments.toList.length = e.value.text.count ',' + 1
  joined : ∃ texts : List Text, e.value.text = [','].intercalate texts ∧ (∀ t ∈ texts, ',' ∉ t) ∧
    List.Forall₂ (fun a t => ∃ lead trail : Text, lead.allBlank = true ∧ trail.allBlank = true ∧
      IsTrimmed a.text ∧ t = lead ++ (a.text ++ trail)) e.arguments.toList texts
  apart : e.arguments.toList.Pairwise fun a b => a.endColumn < b.column

/-- Whatever line an entry is read off, its tokens are faithful to the line. -/
theorem faithful_of_ofLine? {number : Nat} {raw : Text} {e : Entry}
    (read : ofLine? number raw = some e) : e.Faithful raw := by
  obtain ⟨key, value⟩ := standsIn_of_parse? read
  have argument {a : Span} (member : a ∈ e.arguments.toList) : a.StandsIn 1 raw :=
    (standsIn_of_mem_arguments member).trans value
  refine ⟨key, value, fun a member => argument member, ?_, Pieces.length_toList_read _ _, ?_,
    arguments_pairwise e⟩
  · intro a member line p found
    obtain ⟨left, right⟩ := Span.standsIn_of_property? found
    exact ⟨left.trans (argument member), right.trans (argument member)⟩
  · refine ⟨pieces ',' e.value.text, ?_, fun t member => not_mem_of_mem_pieces member,
      Pieces.forall₂_place e.value.column (pieces ',' e.value.text)⟩
    rw [pieces_eq_splitOn, List.intercalate_splitOn]

/-- Wide blanks, wide letters, blank pieces and a property of a line that has them all. -/
theorem faithful_wide_line :
    ofLine? 3 "\u3000名 =\u00a0ss , ,,p= é # x".toList =
        some ⟨3, ⟨"名".toList, 2⟩, ⟨"ss , ,,p= é".toList, 6⟩⟩ ∧
      Faithful ⟨3, ⟨"名".toList, 2⟩, ⟨"ss , ,,p= é".toList, 6⟩⟩
        "\u3000名 =\u00a0ss , ,,p= é # x".toList :=
  ⟨by decide, faithful_of_ofLine? (by decide : ofLine? 3 _ = _)⟩

end Entry

end ProxyConfig
