import ProxyConfig.Proofs.Entry
import ProxyConfig.Proofs.Position

/-! # Where tokens stand

A token is a stretch of the text that it is read off, and its column counts the characters before it.
Texts are read in layers: a value inside a line, arguments inside a value, a property inside an
argument. A stretch of a stretch is a stretch, so each reader is looked at once, inside the text that
it is given, and the layers follow.
-/

namespace ProxyConfig

open Text

namespace Span

/-- The characters of the span are those of a text, from the column of the span on; the text itself
starts at the column `start`. -/
def StandsIn (a : Span) (start : Nat) (s : Text) : Prop :=
  ∃ before after : Text, s = before ++ (a.text ++ after) ∧ a.column = start + before.length

namespace StandsIn

variable {a b : Span} {start : Nat} {s : Text}

theorem trans (inner : b.StandsIn a.column a.text) (outer : a.StandsIn start s) :
    b.StandsIn start s := by
  obtain ⟨before, after, split, column⟩ := outer
  obtain ⟨lead, trail, cut, offset⟩ := inner
  refine ⟨before ++ lead, trail ++ after, ?_, ?_⟩
  · rw [split, cut, List.append_assoc, List.append_assoc, List.append_assoc]
  · rw [offset, column, List.length_append, Nat.add_assoc]

theorem append_right (stands : a.StandsIn start s) (trail : Text) : a.StandsIn start (s ++ trail) :=
  trans (a := ⟨s, start⟩) stands ⟨[], trail, rfl, rfl⟩

/-- A separator and the text before it count as columns. -/
theorem behind {piece : Text} (stands : a.StandsIn (start + piece.length + 1) s) (d : Char)
    (trail : Text) : a.StandsIn start (piece ++ d :: (s ++ trail)) := by
  refine trans (a := ⟨s, start + piece.length + 1⟩) stands ⟨piece ++ [d], trail, ?_, ?_⟩
  · rw [List.append_assoc, List.singleton_append]
  · rw [List.length_append, List.length_singleton, Nat.add_assoc]

theorem le_column (stands : a.StandsIn start s) : start ≤ a.column := by
  obtain ⟨before, after, -, column⟩ := stands
  omega

theorem endColumn_le (stands : a.StandsIn start s) : a.endColumn ≤ start + s.length := by
  obtain ⟨before, after, split, column⟩ := stands
  have total := congrArg List.length split
  rw [List.length_append, List.length_append] at total
  rw [endColumn, length]
  omega

end StandsIn

theorem standsIn_self (a : Span) : a.StandsIn a.column a.text :=
  ⟨[], [], (List.append_nil a.text).symm, rfl⟩

/-- A trimmed text stands in the text, and so does the nothing that is left of blanks. -/
theorem standsIn_trimmed (column : Nat) (s : Text) : (trimmed column s).StandsIn column s := by
  obtain ⟨-, read⟩ | ⟨lead, trail, -, -, -, split, read⟩ := trimmed_cases column s
  · rw [read]
    exact ⟨[], s, rfl, rfl⟩
  · rw [read]
    exact ⟨lead, trail, split, rfl⟩

end Span

/-- A piece stands in the text that was cut. -/
theorem Pieces.standsIn_of_mem_read {column : Nat} {s : Text} {a : Span}
    (member : a ∈ (read column s).toList) : a.StandsIn column s := by
  induction s using pieces_induction (d := ',') generalizing column with
  | single s absent =>
    rw [read_of_not_mem column absent] at member
    obtain rfl := List.mem_singleton.mp member
    exact Span.standsIn_trimmed column s
  | more piece s absent ih =>
    rw [read_append_cons column absent] at member
    rcases List.mem_cons.mp member with rfl | member
    · exact (Span.standsIn_trimmed column piece).append_right (',' :: s)
    · have whole := (ih member).behind ',' []
      rwa [List.append_nil] at whole

namespace Entry

/-- The key and the value of an entry stand in the text that the entry is read off. -/
theorem standsIn_of_parse? {line column : Nat} {s : Text} {e : Entry}
    (read : parse? line column s = some e) :
    e.key.StandsIn column s ∧ e.value.StandsIn column s := by
  obtain ⟨key, value, comment, -, -, -, -, rfl, rfl⟩ := exists_append_of_parse? read
  constructor
  · exact (Span.standsIn_trimmed column key).append_right ('=' :: (value ++ comment))
  · exact (Span.standsIn_trimmed (column + key.length + 1) value).behind '=' comment

/-- The arguments of an entry stand in its value. -/
theorem standsIn_of_mem_arguments {e : Entry} {a : Span} (member : a ∈ e.arguments.toList) :
    a.StandsIn e.value.column e.value.text :=
  Pieces.standsIn_of_mem_read member

end Entry

/-- The key and the value of a property stand in its argument. -/
theorem Span.standsIn_of_property? {a : Span} {line : Nat} {p : Entry}
    (read : a.property? line = some p) :
    p.key.StandsIn a.column a.text ∧ p.value.StandsIn a.column a.text :=
  Entry.standsIn_of_parse? read

namespace NumberedLine

/-- What is read off a line before its comment stands in the line. -/
private theorem standsIn_text {l : NumberedLine} {a : Span} (stands : a.StandsIn 1 l.text.uncommented) :
    a.StandsIn 1 l.text := by
  have whole := stands.append_right l.text.comment
  rwa [uncommented_append_comment] at whole

theorem standsIn_content (l : NumberedLine) : l.content.StandsIn 1 l.text :=
  standsIn_text (Span.standsIn_trimmed 1 l.text.uncommented)

theorem standsIn_of_mem_pieces {l : NumberedLine} {a : Span} (member : a ∈ l.pieces.toList) :
    a.StandsIn 1 l.text :=
  standsIn_text (Pieces.standsIn_of_mem_read member)

end NumberedLine

namespace Span

variable {a b : Span} {m n : Nat}

/-- Spans with a column between them are in order on a line. -/
theorem range_precedes (apart : a.endColumn < b.column) : (a.range n).Precedes (b.range n) := by
  have order : a.column ≤ a.endColumn := Nat.le_add_right _ _
  refine ⟨Position.before_iff.mpr (.inr ⟨rfl, ?_⟩), Position.before_iff.mpr (.inr ⟨rfl, apart⟩)⟩
  change a.column < b.column
  omega

/-- Spans of different lines are in the order of the lines. -/
theorem range_precedes_of_lt (less : m < n) : (a.range m).Precedes (b.range n) := .of_line_lt less less

end Span

/-- The range covers the characters of a token, and nothing else, on one line of a document. -/
def Range.Covers (r : Range) (doc : Document) (token : Text) : Prop :=
  ∃ (n : Nat) (before after : Text), 1 ≤ n ∧ n ≤ doc.lineCount ∧
    doc.line n = before ++ (token ++ after) ∧ r = .onLine n (before.length + 1) token.length

/-- A span of a line covers its text. -/
theorem Span.StandsIn.covers {a : Span} {doc : Document} {n : Nat}
    (stands : a.StandsIn 1 (doc.line n)) (first : 1 ≤ n) (last : n ≤ doc.lineCount) :
    (a.range n).Covers doc a.text := by
  obtain ⟨before, after, split, column⟩ := stands
  refine ⟨n, before, after, first, last, split, ?_⟩
  rw [range, column, Nat.add_comm]
  rfl

end ProxyConfig
