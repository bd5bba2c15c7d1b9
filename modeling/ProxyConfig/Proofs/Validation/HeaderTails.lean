import ProxyConfig.Proofs.Partition
import ProxyConfig.Proofs.Text.Tokens
import ProxyConfig.Proofs.Validation.Codes

/-! # What stands behind a header

A header ends at the first bracket that closes it. The check for text behind it starts from the last
bracket before the comment instead. The two are the same bracket exactly if no further one follows;
then the text behind the header is reported, all of it, exactly if it is not blank. Where a further
bracket follows, the text up to it is left out of the report, or nothing is reported at all.
-/

namespace ProxyConfig

open Text

/-- A header line cut at the brackets: a margin, `[`, the name, the first `]`, what stands behind it,
and the comment. -/
structure HeaderLine (line : Text) where
  margin : Text
  inside : Text
  tail : Text
  comment : Text
  split : line = margin ++ '[' :: (inside ++ ']' :: (tail ++ comment))
  blank : margin.allBlank = true
  unclosed : ']' ∉ inside
  clean : '#' ∉ inside ∧ '#' ∉ tail
  marked : IsComment comment

/-- The report on a text behind a header that starts at a column. -/
def reportBehind (n column : Nat) (tail : Text) : List Diagnostic :=
  if tail.allBlank then [] else [Issue.trailingHeaderText.on ((Span.trimmed column tail).range n)]

namespace HeaderLine

variable {line : Text}

/-- The column behind the bracket that closes the header. -/
def tailColumn (h : HeaderLine line) : Nat := h.margin.length + h.inside.length + 3

/-- The report that the text behind the header calls for. -/
def due (h : HeaderLine line) (n : Nat) : List Diagnostic := reportBehind n h.tailColumn h.tail

theorem exists_of_headerName? {name : Span} (header : headerName? line = some name) :
    ∃ h : HeaderLine line, name = .trimmed (h.margin.length + 2) h.inside := by
  obtain ⟨margin, inside, rest, split, blank, -, unclosed, clean, named⟩ :=
    Section.headerName?_eq_some_iff.mp header
  refine ⟨⟨margin, inside, rest.uncommented, rest.comment, ?_, blank, unclosed,
    ⟨clean, not_mem_uncommented rest⟩, isComment_comment rest⟩, named⟩
  rw [uncommented_append_comment, split]

theorem uncommented_eq (h : HeaderLine line) :
    line.uncommented = h.margin ++ '[' :: (h.inside ++ ']' :: h.tail) := by
  have clean : '#' ∉ h.margin ++ '[' :: (h.inside ++ ']' :: h.tail) := by
    simp [h.clean, not_mem_of_allBlank h.blank (d := '#') (by decide)]
  conv_lhs => rw [h.split]
  rw [← uncommented_append clean h.marked]
  simp

/-- The text behind the header stands in the line. -/
theorem standsIn_tail (h : HeaderLine line) : (Span.trimmed h.tailColumn h.tail).StandsIn 1 line := by
  have front : h.tailColumn = 1 + (h.margin ++ '[' :: h.inside).length + 1 := by
    rw [tailColumn, List.length_append, List.length_cons]
    omega
  have stands := Span.standsIn_trimmed h.tailColumn h.tail
  rw [front] at stands ⊢
  have whole := stands.behind ']' h.comment
  rw [List.append_assoc, List.cons_append] at whole
  exact (congrArg (Span.StandsIn _ 1) h.split).mpr whole

end HeaderLine

namespace Document

theorem afterLastBracket?_append_cons (before : Text) {after : Text} (absent : ']' ∉ after) :
    afterLastBracket? (before ++ ']' :: after) = some (.trimmed (before.length + 2) after) := by
  have last : ((before ++ ']' :: after).reverse.takeWhile (· != ']')).reverse = after := by
    have solid : ∀ c ∈ after.reverse, (c != ']') = true := fun c member =>
      bne_iff_ne.mpr fun same => absent (same ▸ List.mem_reverse.mp member)
    rw [List.reverse_append, List.reverse_cons, List.append_assoc,
      List.takeWhile_append_of_pos solid, List.singleton_append,
      List.takeWhile_cons_of_neg (by decide), List.append_nil, List.reverse_reverse]
  have total : (before ++ ']' :: after).length = before.length + 1 + after.length := by
    rw [List.length_append, List.length_cons]
    omega
  rw [afterLastBracket?, last, total, if_neg (by omega), Nat.add_sub_cancel]

/-- Blanks at the end of a line change nothing behind its last bracket. -/
theorem afterLastBracket?_trimEnd (before : Text) {after : Text} (absent : ']' ∉ after) :
    afterLastBracket? (before ++ ']' :: after).trimEnd =
      some (.trimmed (before.length + 2) after) := by
  obtain ⟨trail, blank, split⟩ := exists_trimEnd_append after
  have unclosed : ']' ∉ after.trimEnd := fun member =>
    absent (split ▸ List.mem_append_left trail member)
  rw [trimEnd_append_cons before (by decide), afterLastBracket?_append_cons before unclosed,
    ← Span.trimmed_append_blank (before.length + 2) after.trimEnd blank, ← split]

variable {doc : Document} {t : Section}

theorem coded_trailing_checkHeadersFrom (doc : Document) (earlier sections : List Section) :
    coded "LC002" (doc.checkHeadersFrom earlier sections) =
      sections.flatMap doc.trailingHeaderText := by
  induction sections generalizing earlier with
  | nil => rfl
  | cons s rest ih =>
    rw [checkHeadersFrom, coded_append, coded_append, ih, List.flatMap_cons,
      coded_eq_self (doc.codes_trailingHeaderText s),
      coded_eq_nil (codes_checkSectionName earlier s) (by decide), List.append_nil]

theorem startLine_of_mem_trailingHeaderText {d : Diagnostic}
    (member : d ∈ doc.trailingHeaderText t) : d.range.start.line = t.startLine := by
  rw [trailingHeaderText] at member
  split at member
  · cases member
  · split at member
    · cases member
    · rw [List.mem_singleton.mp member]
      rfl

/-- The reports under a code on one line. -/
def reportsOn (doc : Document) (code : String) (n : Nat) : List Diagnostic :=
  (coded code (Validator.sections.run doc)).filter fun d => d.range.start.line == n

/-- Each header has a report of its own on the text behind it. -/
theorem reportsOn_startLine (here : t ∈ doc.sections) :
    doc.reportsOn "LC002" t.startLine = doc.trailingHeaderText t := by
  have whole : coded "LC002" (Validator.sections.run doc) =
      doc.sections.flatMap doc.trailingHeaderText := by
    change coded "LC002" (doc.strayContent ++ doc.checkHeadersFrom [] doc.sections) = _
    rw [coded_append, coded_eq_nil doc.codes_strayContent (by decide), List.nil_append,
      coded_trailing_checkHeadersFrom]
  have others {sections : List Section} (apart : ∀ s ∈ sections, s.startLine ≠ t.startLine) :
      (sections.flatMap doc.trailingHeaderText).filter
        (fun d => d.range.start.line == t.startLine) = [] := by
    refine List.filter_eq_nil_iff.mpr fun d member same => ?_
    obtain ⟨s, inside, found⟩ := List.mem_flatMap.mp member
    exact apart s inside ((startLine_of_mem_trailingHeaderText found).symm.trans (eq_of_beq same))
  have own : (doc.trailingHeaderText t).filter (fun d => d.range.start.line == t.startLine) =
      doc.trailingHeaderText t :=
    List.filter_eq_self.mpr fun d member =>
      beq_iff_eq.mpr (startLine_of_mem_trailingHeaderText member)
  obtain ⟨earlier, later, split⟩ := List.append_of_mem here
  have order := pairwise_startLine doc
  rw [split] at order
  obtain ⟨-, behind, before⟩ := List.pairwise_append.mp order
  rw [reportsOn, whole, split, List.flatMap_append, List.flatMap_cons, List.filter_append,
    List.filter_append, own, others, others, List.nil_append, List.append_nil]
  · exact fun s member => (Nat.ne_of_lt ((List.pairwise_cons.mp behind).1 s member)).symm
  · exact fun s member => Nat.ne_of_lt (before s member t (List.mem_cons_self ..))

/-- What is reported behind a header is what stands behind the last bracket. -/
theorem trailingHeaderText_eq {before after : Text} (absent : ']' ∉ after)
    (split : (doc.line t.startLine).uncommented = before ++ ']' :: after) :
    doc.trailingHeaderText t = reportBehind t.startLine (before.length + 2) after := by
  have empty : (Span.trimmed (before.length + 2) after).isEmpty = after.allBlank := by
    rw [Bool.eq_iff_iff, Span.isEmpty, List.isEmpty_iff, Span.text_trimmed, trim_eq_nil_iff]
  rw [trailingHeaderText, split, afterLastBracket?_trimEnd before absent]
  dsimp only
  rw [empty]
  rfl

/-- Every header has a last bracket before its comment. -/
theorem exists_last_bracket (here : t ∈ doc.sections) :
    ∃ before after : Text, ']' ∉ after ∧
      (doc.line t.startLine).uncommented = before ++ ']' :: after := by
  obtain ⟨h, -⟩ := HeaderLine.exists_of_headerName? (headerName?_startLine here)
  have closed : ']' ∈ (doc.line t.startLine).uncommented := by
    rw [h.uncommented_eq]
    simp
  obtain ⟨before, after, split, absent⟩ := exists_append_last closed
  exact ⟨before, after, absent, split⟩

/-- A report that starts at the first bracket is no report on what follows a later one. -/
theorem reportBehind_ne (n column : Nat) (before after : Text) :
    reportBehind n (column + before.length + 1) after ≠
      reportBehind n column (before ++ ']' :: after) := by
  have solid : (before ++ ']' :: after).allBlank = false :=
    allBlank_of_mem (List.mem_append_right _ (List.mem_cons_self ..)) (by decide)
  have early : (Span.trimmed column (before ++ ']' :: after)).column ≤ column + before.length := by
    have notBlank : ¬ (before ++ ']' :: after).allBlank = true := Bool.eq_false_iff.mp solid
    rw [Span.trimmed, if_neg notBlank, takeWhile_blank_append_cons before (by decide)]
    exact Nat.add_le_add_left (List.takeWhile_sublist _).length_le column
  have late := Span.le_column_trimmed (column + before.length + 1) after
  rw [reportBehind, reportBehind, solid, if_neg Bool.false_ne_true]
  intro same
  split at same
  · cases same
  · have places := congrArg (fun d => d.range.start.column) (List.cons.inj same).1
    change (Span.trimmed (column + before.length + 1) after).column =
      (Span.trimmed column (before ++ ']' :: after)).column at places
    omega

section Tails

variable (h : HeaderLine (doc.line t.startLine))

include h

/-- Without a further bracket, all of the text behind the header is reported. -/
theorem trailingHeaderText_of_not_mem (absent : ']' ∉ h.tail) :
    doc.trailingHeaderText t = h.due t.startLine := by
  have line : (doc.line t.startLine).uncommented =
      (h.margin ++ '[' :: h.inside) ++ ']' :: h.tail := by
    rw [h.uncommented_eq, List.append_assoc, List.cons_append]
  have column : (h.margin ++ '[' :: h.inside).length + 2 = h.tailColumn := by
    simp only [List.length_append, List.length_cons, HeaderLine.tailColumn]
    omega
  rw [trailingHeaderText_eq absent line, column]
  rfl

/-- With further brackets, the text behind the last one is reported. -/
theorem trailingHeaderText_of_append {before after : Text} (split : h.tail = before ++ ']' :: after)
    (absent : ']' ∉ after) : doc.trailingHeaderText t =
      reportBehind t.startLine (h.tailColumn + before.length + 1) after := by
  have line : (doc.line t.startLine).uncommented =
      (h.margin ++ '[' :: (h.inside ++ ']' :: before)) ++ ']' :: after := by
    rw [h.uncommented_eq, split]
    simp
  have column : (h.margin ++ '[' :: (h.inside ++ ']' :: before)).length + 2 =
      h.tailColumn + before.length + 1 := by
    simp only [List.length_append, List.length_cons, HeaderLine.tailColumn]
    omega
  rw [trailingHeaderText_eq absent line, column]

/-- The report that is called for covers the text behind the header, without the blanks around it. -/
theorem covers_of_mem_due (here : t ∈ doc.sections) {d : Diagnostic}
    (member : d ∈ h.due t.startLine) : d.range.Covers doc h.tail.trim := by
  have covers := h.standsIn_tail.covers (startLine_pos here) (startLine_le_lineCount here)
  rw [Span.text_trimmed] at covers
  rw [HeaderLine.due, reportBehind] at member
  split at member
  · cases member
  · rw [List.mem_singleton.mp member]
    exact covers

end Tails

/-- What stands behind the bracket that closes a header is reported as it should be exactly if no
further bracket stands there. Else the report starts behind the last one. -/
theorem trailing_text_reported_iff (here : t ∈ doc.sections) :
    ∃ h : HeaderLine (doc.line t.startLine),
      (doc.reportsOn "LC002" t.startLine = h.due t.startLine ↔ ']' ∉ h.tail) ∧
      (∀ before after : Text, h.tail = before ++ ']' :: after → ']' ∉ after →
        doc.reportsOn "LC002" t.startLine =
          reportBehind t.startLine (h.tailColumn + before.length + 1) after) ∧
      ∀ d ∈ h.due t.startLine, d.range.Covers doc h.tail.trim := by
  obtain ⟨h, -⟩ := HeaderLine.exists_of_headerName? (headerName?_startLine here)
  rw [reportsOn_startLine here]
  refine ⟨h, ⟨?_, trailingHeaderText_of_not_mem h⟩,
    fun before after split absent => trailingHeaderText_of_append h split absent,
    fun d member => covers_of_mem_due h here member⟩
  intro same member
  obtain ⟨before, after, split, absent⟩ := exists_append_last member
  apply reportBehind_ne t.startLine h.tailColumn before after
  rw [← trailingHeaderText_of_append h split absent, same, HeaderLine.due, split]

/-- Wide text behind an indented header, and a bracket in the comment. -/
theorem trailing_text_reported_wide :
    let doc := Document.parse "[General]\n [Rule] 名\u3000x # ]".toList
    let t : Section := ⟨⟨"Rule".toList, 3⟩, 2, 2⟩
    t ∈ doc.sections ∧
      doc.reportsOn "LC002" t.startLine = [Issue.trailingHeaderText.on (.onLine 2 9 3)] ∧
      ∃ h : HeaderLine (doc.line t.startLine),
        (doc.reportsOn "LC002" t.startLine = h.due t.startLine ↔ ']' ∉ h.tail) ∧
        ∀ d ∈ h.due t.startLine, d.range.Covers doc h.tail.trim := by
  intro doc t
  have here : t ∈ doc.sections := by decide +kernel
  obtain ⟨h, reported, -, covers⟩ := trailing_text_reported_iff here
  exact ⟨here, by decide +kernel, h, reported, covers⟩

/-- A further bracket at the end of a line hides the text before it: the report that the text calls
for is missing. -/
theorem text_before_bracket_unreported :
    let doc := Document.parse "[General] extra]".toList
    ∃ t ∈ doc.sections, ∃ h : HeaderLine (doc.line t.startLine), h.tail = " extra]".toList ∧
      h.due t.startLine = [Issue.trailingHeaderText.on (.onLine 1 11 6)] ∧
      doc.reportsOn "LC002" t.startLine = [] := by
  intro doc
  refine ⟨⟨⟨"General".toList, 2⟩, 1, 1⟩, by decide +kernel, ?_⟩
  refine ⟨⟨[], "General".toList, " extra]".toList, [], by decide +kernel, rfl, by decide, by decide,
    .inl rfl⟩, rfl, by decide +kernel, by decide +kernel⟩

end Document

end ProxyConfig
