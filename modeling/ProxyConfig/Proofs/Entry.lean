import ProxyConfig.Document
import ProxyConfig.Proofs.Related
import ProxyConfig.Proofs.Text.Cut
import Mathlib.Data.Option.Basic

/-! # Reading entries

An entry is read off `key ++ '=' :: value` and a comment. The validators read entries off the trimmed
content of a line and everything else off the raw line; the two readings agree on all but the place
of an empty key. The same holds of an argument of a declaration and the piece it was trimmed from.
-/

namespace ProxyConfig

open Text

namespace Entry

/-- Two readings of one entry: only an empty key may be placed differently. -/
structure Agrees (e f : Entry) : Prop where
  line : e.line = f.line
  key : e.key.Agrees f.key
  value : e.value = f.value

theorem parse?_eq (line column : Nat) (s : Text) :
    parse? line column s = (cut? '=' s.uncommented).map fun halves =>
      ⟨line, .trimmed column halves.1, .trimmed (column + halves.1.length + 1) halves.2⟩ := rfl

theorem parse?_uncommented (line column : Nat) (s : Text) :
    parse? line column s.uncommented = parse? line column s := by
  rw [parse?_eq, parse?_eq, uncommented_of_not_mem (not_mem_uncommented s)]

/-- What is read off a key, a value and a comment. -/
theorem parse?_append (line column : Nat) {key value comment : Text} (keyed : '=' ∉ key)
    (cleanKey : '#' ∉ key) (cleanValue : '#' ∉ value) (marked : IsComment comment) :
    parse? line column (key ++ '=' :: (value ++ comment)) =
      some ⟨line, .trimmed column key, .trimmed (column + key.length + 1) value⟩ := by
  have clean : '#' ∉ key ++ '=' :: value := by simp [cleanKey, cleanValue]
  have bare : uncommented (key ++ '=' :: (value ++ comment)) = key ++ '=' :: value := by
    rw [← uncommented_append clean marked, List.append_assoc, List.cons_append]
  rw [parse?_eq, bare, cut?_append_cons keyed, Option.map_some]

/-- Every entry is read off a key, a value and a comment. -/
theorem exists_append_of_parse? {line column : Nat} {s : Text} {e : Entry}
    (read : parse? line column s = some e) :
    ∃ key value comment : Text, '=' ∉ key ∧ '#' ∉ key ∧ '#' ∉ value ∧ IsComment comment ∧
      s = key ++ '=' :: (value ++ comment) ∧
      e = ⟨line, .trimmed column key, .trimmed (column + key.length + 1) value⟩ := by
  rw [parse?_eq] at read
  obtain ⟨⟨key, value⟩, found, rfl⟩ := Option.map_eq_some_iff.mp read
  obtain ⟨cleanKey, cleanValue⟩ := not_mem_of_cut?_uncommented found
  exact ⟨key, value, s.comment, (cut?_eq_some_iff.mp found).2, cleanKey, cleanValue,
    isComment_comment s, (eq_of_cut?_uncommented found).symm, rfl⟩

/-- A line with an entry is not blank. -/
theorem solid_of_parse? {line column : Nat} {s : Text} {e : Entry}
    (read : parse? line column s = some e) : s.allBlank = false := by
  obtain ⟨key, value, comment, -, -, -, -, rfl, -⟩ := exists_append_of_parse? read
  exact allBlank_of_mem (List.mem_append_right _ (List.mem_cons_self ..)) (by decide)

/-- Both halves of an entry are without blanks around them. -/
theorem isTrimmed_of_parse? {line column : Nat} {s : Text} {e : Entry}
    (read : parse? line column s = some e) : IsTrimmed e.key.text ∧ IsTrimmed e.value.text := by
  obtain ⟨key, value, comment, -, -, -, -, -, rfl⟩ := exists_append_of_parse? read
  rw [Span.text_trimmed, Span.text_trimmed]
  exact ⟨isTrimmed_trim key, isTrimmed_trim value⟩

/-- An empty key is placed where the text of its entry starts. -/
theorem column_of_empty_key {line column : Nat} {s : Text} {e : Entry}
    (read : parse? line column s = some e) (empty : e.key.text = []) : e.key.column = column := by
  obtain ⟨key, value, comment, -, -, -, -, -, rfl⟩ := exists_append_of_parse? read
  rw [Span.text_trimmed] at empty
  rw [Span.trimmed_of_allBlank column (trim_eq_nil_iff.mp empty)]

theorem parse?_eq_none_iff {line column : Nat} {s : Text} :
    parse? line column s = none ↔ '=' ∉ s.uncommented := by
  rw [parse?_eq, Option.map_eq_none_iff, cut?_eq_none_iff]

/-- Trimming a text before it is read moves at most an empty key. -/
theorem parse?_trimmed (line column : Nat) {s : Text} (clean : '#' ∉ s) :
    Option.Rel Agrees (parse? line (Span.trimmed column s).column s.trim) (parse? line column s) := by
  have cleanCore : '#' ∉ s.trim := fun member => clean (mem_of_mem_trim member)
  rw [parse?_eq, parse?_eq, uncommented_of_not_mem clean, uncommented_of_not_mem cleanCore]
  obtain ⟨blank, -⟩ | ⟨lead, trail, leading, trailing, -, split, place⟩ := Span.trimmed_cases column s
  · have absent : '=' ∉ s := not_mem_of_allBlank blank (by decide)
    have core : s.trim = [] := trim_eq_nil_iff.mpr blank
    rw [core, cut?_eq_none_iff.mpr absent, cut?_eq_none_iff.mpr List.not_mem_nil]
    exact .none
  · have whole : cut? '=' s = (cut? '=' s.trim).map fun halves =>
        (lead ++ halves.1, halves.2 ++ trail) := by
      conv_lhs => rw [split]
      rw [cut?_append_left (not_mem_of_allBlank leading (by decide)),
        cut?_append_right _ (not_mem_of_allBlank trailing (by decide)), Option.map_map]
      rfl
    rw [whole, place]
    cases cut? '=' s.trim with
    | none => exact .none
    | some halves =>
      obtain ⟨key, value⟩ := halves
      refine .some ⟨rfl, Span.trimmed_append_agrees column leading key, ?_⟩
      change Span.trimmed (column + lead.length + key.length + 1) value =
        Span.trimmed (column + (lead ++ key).length + 1) (value ++ trail)
      rw [Span.trimmed_append_blank _ _ trailing, List.length_append, ← Nat.add_assoc]

/-- The arguments of a value behind the first are the pieces of the raw value. -/
theorem others_arguments (line : Nat) (key : Span) (column : Nat) (value : Text) :
    (arguments ⟨line, key, .trimmed column value⟩).others = (Pieces.read column value).others := by
  rw [(Pieces.read_trimmed column value).2, ← Span.text_trimmed column value]
  rfl

/-- The type of a declaration is the first piece of the raw value. -/
theorem first_arguments (line : Nat) (key : Span) (column : Nat) (value : Text) :
    (arguments ⟨line, key, .trimmed column value⟩).first.Agrees (Pieces.read column value).first := by
  have agrees := (Pieces.read_trimmed column value).1
  rwa [← Span.text_trimmed column value] at agrees

end Entry

/-- A property is read alike off an argument and off the piece that it was trimmed from. -/
theorem Span.property?_trimmed (line column : Nat) {piece : Text} (clean : '#' ∉ piece) :
    Option.Rel Entry.Agrees ((Span.trimmed column piece).property? line)
      (Entry.parse? line column piece) := by
  rw [property?, text_trimmed]
  exact Entry.parse?_trimmed line column clean

theorem Span.property?_of_not_mem (line column : Nat) {s : Text} (absent : '=' ∉ s) :
    (Span.trimmed column s).property? line = none := by
  rw [property?, text_trimmed]
  exact Entry.parse?_eq_none_iff.mpr fun member =>
    absent (mem_of_mem_trim (mem_of_mem_uncommented member))

/-- The property in an argument has the halves of the piece, and its value stands where it does. -/
theorem Span.exists_property? (line column : Nat) {key value : Text}
    (clean : '#' ∉ key ++ '=' :: value) (keyed : '=' ∉ key) :
    ∃ p, (Span.trimmed column (key ++ '=' :: value)).property? line = some p ∧ p.line = line ∧
      p.key.text = key.trim ∧ p.value = .trimmed (column + key.length + 1) value := by
  have agrees := property?_trimmed line column clean
  rw [Entry.parse?_eq, uncommented_of_not_mem clean, cut?_append_cons keyed] at agrees
  cases read : (Span.trimmed column (key ++ '=' :: value)).property? line with
  | none =>
    rw [read] at agrees
    cases agrees
  | some p =>
    rw [read] at agrees
    cases agrees with
    | some same => exact ⟨p, rfl, same.line, by rw [same.key.text_eq, text_trimmed], same.value⟩

namespace Pieces

/-- What stands behind the type of a declaration is an operand or belongs to the properties. -/
theorem mem_operands_or_properties {p : Pieces} {a : Span} (inside : a ∈ p.others) :
    a ∈ p.operands ∨ a ∈ p.properties := by
  rw [operands, properties, toList]
  by_cases plain : p.first.isPlain = true
  · rw [List.takeWhile_cons_of_pos plain, List.dropWhile_cons_of_pos plain, List.tail_cons,
      ← List.mem_append, List.takeWhile_append_dropWhile]
    exact inside
  · rw [List.dropWhile_cons_of_neg plain]
    exact .inr (List.mem_cons_of_mem _ inside)

theorem isPlain_of_mem_operands {p : Pieces} {a : Span} (member : a ∈ p.operands) :
    a.isPlain = true :=
  List.mem_takeWhile_imp (List.mem_of_mem_tail member)

theorem operands_of_isPlain {p : Pieces} (plain : p.first.isPlain = true) :
    p.operands = p.others.takeWhile Span.isPlain := by
  rw [operands, toList, List.takeWhile_cons_of_pos plain, List.tail_cons]

theorem properties_of_isPlain {p : Pieces} (plain : p.first.isPlain = true) :
    p.properties = p.others.dropWhile Span.isPlain := by
  rw [properties, toList, List.dropWhile_cons_of_pos plain]

end Pieces

theorem Span.isPlain_iff {a : Span} : a.isPlain = true ↔ '=' ∉ a.text := by
  simp [isPlain]

/-- A keyword that is spelled without an `=` is no property. -/
theorem Span.isPlain_of_parse? {K : Type} [Keyword K] (bare : ∀ k : K, '=' ∉ Keyword.text k) {a : Span}
    {k : K} (known : Keyword.parse? a.text = some k) : a.isPlain = true := by
  rw [isPlain_iff, ← Keyword.text_of_parse? known]
  exact bare k

/-- A property has an `=` in its argument. -/
theorem Span.property?_of_isPlain {a : Span} {line : Nat} (plain : a.isPlain = true) :
    a.property? line = none :=
  Entry.parse?_eq_none_iff.mpr fun member => isPlain_iff.mp plain (mem_of_mem_uncommented member)

/-- The validators and the other readers of a line see the same entry. -/
theorem NumberedLine.entry?_agrees (l : NumberedLine) :
    Option.Rel Entry.Agrees l.entry? (Entry.ofLine? l.number l.text) := by
  unfold entry?
  rw [content, Entry.ofLine?, Span.text_trimmed, ← Entry.parse?_uncommented _ _ l.text]
  exact Entry.parse?_trimmed l.number 1 (not_mem_uncommented l.text)

/-- The trimmed content of a line, the line without its comment and the whole line are read as the same
entry. Only an empty key has no place of its own, and stands where the text that was read starts. -/
theorem NumberedLine.readings_agree (l : NumberedLine) :
    l.entry?.isSome = (Entry.ofLine? l.number l.text).isSome ∧
      Entry.ofLine? l.number l.text.uncommented = Entry.ofLine? l.number l.text ∧
      ∀ e f, l.entry? = some e → Entry.ofLine? l.number l.text = some f →
        e.line = f.line ∧ e.key.text = f.key.text ∧ e.value = f.value ∧
          (f.key.text ≠ [] → e.key.column = f.key.column) ∧
          (f.key.text = [] → e.key.column = l.content.column ∧ f.key.column = 1) := by
  have agrees := l.entry?_agrees
  refine ⟨?_, Entry.parse?_uncommented l.number 1 l.text, fun e f content raw => ?_⟩
  · exact agrees.isSome_eq.symm
  · rw [content, raw] at agrees
    cases agrees with
    | some same =>
      refine ⟨same.line, same.key.text_eq, same.value, fun solid => ?_, fun empty => ?_⟩
      · rw [same.key.eq_of_solid solid]
      · have blank : e.key.text = [] := same.key.text_eq.trans empty
        exact ⟨Entry.column_of_empty_key content blank, Entry.column_of_empty_key raw empty⟩

/-- A key between wide blanks, and a comment that looks like an entry. -/
theorem NumberedLine.readings_agree_wide :
    let l : NumberedLine := ⟨2, "\u3000 a\u3000= b # c = d".toList⟩
    ∃ e f, l.entry? = some e ∧ Entry.ofLine? 2 l.text = some f ∧ f.key.text ≠ [] ∧
      e.key.column = f.key.column ∧ e.value = f.value := by
  intro l
  let e : Entry := ⟨2, ⟨['a'], 3⟩, ⟨['b'], 7⟩⟩
  have content : l.entry? = some e := by decide +kernel
  have raw : Entry.ofLine? 2 l.text = some e := by decide +kernel
  obtain ⟨-, -, value, column, -⟩ := l.readings_agree.2.2 e e content raw
  exact ⟨e, e, content, raw, by decide, column (by decide), value⟩

end ProxyConfig
