import ProxyConfig.Document
import ProxyConfig.Proofs.Header
import ProxyConfig.Proofs.Related
import Mathlib.Data.List.Chain
import Mathlib.Data.List.GetD

/-! # The layout of a document

The sections of a document follow each other: each starts at a header, ends before the next header,
and only blank lines lie between two of them. So a line belongs to the body of at most one section,
and the section that a cursor on it is in is that one.
-/

namespace ProxyConfig

namespace Document

variable {doc : Document}

theorem line_eq_getD (doc : Document) {n : Nat} (positive : 0 < n) :
    doc.line n = doc.lines.getD (n - 1) [] := by
  cases n with
  | zero => omega
  | succ n => rfl

/-- A line with something on it is a line of the document. -/
theorem mem_lines_of_line_ne_nil {n : Nat} (solid : doc.line n ≠ []) :
    0 < n ∧ doc.lines[n - 1]? = some (doc.line n) := by
  cases n with
  | zero => exact absurd rfl solid
  | succ n =>
    refine ⟨Nat.succ_pos n, ?_⟩
    change doc.lines.getD n [] ≠ [] at solid
    change doc.lines[n]? = some (doc.lines.getD n [])
    rw [List.getD_eq_getElem?_getD] at solid ⊢
    cases found : doc.lines[n]? with
    | none => simp [found] at solid
    | some text => rfl

theorem le_lineCount_of_line_ne_nil {n : Nat} (solid : doc.line n ≠ []) : n ≤ doc.lineCount := by
  obtain ⟨positive, found⟩ := mem_lines_of_line_ne_nil solid
  have inside := (List.getElem?_eq_some_iff.mp found).1
  change n ≤ doc.lines.length
  omega

theorem line_eq_nil {n : Nat} (behind : doc.lineCount < n) : doc.line n = [] := by
  by_contra solid
  exact absurd (le_lineCount_of_line_ne_nil solid) (Nat.not_le.mpr behind)

theorem lines_eq_map (doc : Document) :
    doc.lines = (List.range' 1 doc.lineCount).map doc.line := by
  refine List.ext_getElem (by simp [lineCount]) fun i left right => ?_
  rw [List.getElem_map, List.getElem_range', Nat.one_mul, Nat.add_comm]
  exact (List.getD_eq_getElem _ _ left).symm

end Document

namespace Section

theorem mem_bodyLines_iff {s : Section} {n : Nat} :
    n ∈ s.bodyLines ↔ s.startLine < n ∧ n ≤ s.endLine := by
  rw [bodyLines, List.mem_range'_1]
  omega

variable {doc : Document}

theorem mem_headers_iff {n : Nat} {name : Span} :
    (n, name) ∈ headers doc.lines ↔ headerName? (doc.line n) = some name := by
  constructor
  · intro member
    obtain ⟨⟨text, number⟩, inside, found⟩ := List.mem_filterMap.mp member
    obtain ⟨least, here⟩ := List.mk_mem_zipIdx_iff_le_and_getElem?_sub.mp inside
    obtain ⟨read, header, pair⟩ := Option.map_eq_some_iff.mp found
    cases pair
    rw [doc.line_eq_getD least, List.getD_eq_getElem?_getD, here, Option.getD_some, header]
  · intro header
    obtain ⟨positive, here⟩ := Document.mem_lines_of_line_ne_nil (ne_nil_of_headerName? header)
    refine List.mem_filterMap.mpr ⟨(doc.line n, n), ?_, ?_⟩
    · exact List.mk_mem_zipIdx_iff_le_and_getElem?_sub.mpr ⟨positive, here⟩
    · simp [header]

theorem pairwise_headers (lines : List Text) :
    (headers lines).Pairwise fun a b => a.1 < b.1 := by
  have numbers : (lines.zipIdx 1).Pairwise fun a b => a.2 < b.2 := by
    rw [← List.pairwise_map, List.zipIdx_map_snd]
    exact List.pairwise_lt_range' 1
  refine numbers.filterMap _ ?_
  intro a b less x found y other
  obtain ⟨_, -, rfl⟩ := Option.map_eq_some_iff.mp found
  obtain ⟨_, -, rfl⟩ := Option.map_eq_some_iff.mp other
  exact less

theorem lastSolidLine_le (lines : List Text) (n : Nat) : lastSolidLine lines n ≤ n := by
  fun_induction lastSolidLine lines n with
  | case1 => exact Nat.le_refl _
  | case2 => exact Nat.le_refl _
  | case3 n blank ih => omega
  | case4 n solid => exact Nat.le_refl _

/-- The lines that `lastSolidLine` passes over are blank. -/
theorem allBlank_of_lastSolidLine_lt {n k : Nat} (after : lastSolidLine doc.lines n < k)
    (upTo : k ≤ n) : (doc.line k).allBlank = true := by
  revert after upTo
  fun_induction lastSolidLine doc.lines n with
  | case1 => omega
  | case2 => omega
  | case3 n blank ih =>
    intro after upTo
    by_cases here : k = n + 2
    · rw [here]
      exact blank
    · exact ih after (by omega)
  | case4 n solid => omega

/-- A line that is not blank stops the walk. -/
theorem le_lastSolidLine {n k : Nat} (upTo : k ≤ n) (solid : (doc.line k).allBlank = false) :
    k ≤ lastSolidLine doc.lines n := by
  by_contra beyond
  have blank : (doc.line k).allBlank = true := allBlank_of_lastSolidLine_lt (by omega) upTo
  exact absurd (blank.symm.trans solid) (by decide)

/-- The walk stops on a line that is not blank, if there is one to stop at. -/
theorem allBlank_lastSolidLine {n k : Nat} (positive : 0 < k) (upTo : k ≤ n)
    (solid : (doc.line k).allBlank = false) :
    (doc.line (lastSolidLine doc.lines n)).allBlank = false := by
  revert upTo
  fun_induction lastSolidLine doc.lines n with
  | case1 => omega
  | case2 =>
    intro upTo
    rwa [show k = 1 by omega] at solid
  | case3 n blank ih =>
    intro upTo
    apply ih
    by_contra beyond
    rw [show k = n + 2 by omega] at solid
    exact absurd (solid.symm.trans blank) (by decide)
  | case4 n stop => exact fun _ => Bool.eq_false_iff.mpr stop

section Congruence

variable {lines lines' : List Text}

private theorem lastSolidLine_congr (blank : lines'.map Text.allBlank = lines.map Text.allBlank)
    (n : Nat) : lastSolidLine lines' n = lastSolidLine lines n := by
  have line (i : Nat) : (lines'.getD i []).allBlank = (lines.getD i []).allBlank := by
    have here := congrArg (fun marks => marks.getD i true) blank
    rwa [← Text.allBlank_nil, List.getD_map, List.getD_map] at here
  fun_induction lastSolidLine lines n with
  | case1 => rfl
  | case2 => rfl
  | case3 n void ih => rw [lastSolidLine, line, if_pos void, ih]
  | case4 n solid => rw [lastSolidLine, line, if_neg solid]

private theorem between_congr (blank : lines'.map Text.allBlank = lines.map Text.allBlank)
    (hs : List (Nat × Span)) : between lines' hs = between lines hs := by
  have length : lines'.length = lines.length := by
    simpa only [List.length_map] using congrArg List.length blank
  fun_induction between lines hs with
  | case1 => rfl
  | case2 start name => rw [between, length]
  | case3 start name next nextName rest ih => rw [between, lastSolidLine_congr blank, ih]

/-- The headers are read off each line alone. -/
theorem headers_congr (header : lines'.map headerName? = lines.map headerName?) :
    headers lines' = headers lines := by
  have found (texts : List Text) : headers texts =
      ((texts.map headerName?).zipIdx 1).filterMap fun (name?, number) => name?.map (number, ·) := by
    rw [headers, List.zipIdx_map, List.filterMap_map]
    rfl
  rw [found, found, header]

/-- The sections depend only on which lines are headers and which are blank. -/
theorem ofLines_congr (header : lines'.map headerName? = lines.map headerName?)
    (blank : lines'.map Text.allBlank = lines.map Text.allBlank) :
    ofLines lines' = ofLines lines := by
  rw [ofLines, ofLines, between_congr blank, headers_congr header]

end Congruence

/-- What lies between a section and the one that follows it. -/
structure Precedes (doc : Document) (s t : Section) : Prop where
  ends : s.endLine < t.startLine
  solid : (doc.line s.endLine).allBlank = false
  gap : ∀ n, s.endLine < n → n < t.startLine → (doc.line n).allBlank = true

private theorem between_cons (lines : List Text) (start : Nat) (name : Span)
    (rest : List (Nat × Span)) :
    ∃ endLine, between lines ((start, name) :: rest) =
      ⟨name, start, endLine⟩ :: between lines rest ∧
        endLine = (rest.head?.map fun next => lastSolidLine lines (next.1 - 1)).getD lines.length := by
  cases rest with
  | nil => exact ⟨lines.length, rfl, rfl⟩
  | cons next rest => exact ⟨lastSolidLine lines (next.1 - 1), rfl, rfl⟩

theorem map_between (lines : List Text) (hs : List (Nat × Span)) :
    (between lines hs).map (fun s => (s.startLine, s.name)) = hs := by
  induction hs with
  | nil => rfl
  | cons header rest ih =>
    obtain ⟨start, name⟩ := header
    obtain ⟨endLine, same, -⟩ := between_cons lines start name rest
    rw [same, List.map_cons, ih]

/-- The sections of headers that stand in order follow each other to the end of the document. -/
private theorem isChain_between {hs : List (Nat × Span)} (sorted : hs.Pairwise fun a b => a.1 < b.1)
    (real : ∀ h ∈ hs, headerName? (doc.line h.1) = some h.2) :
    (between doc.lines hs).IsChain (Precedes doc) ∧
      (∀ s ∈ between doc.lines hs, s.startLine ≤ s.endLine) ∧
      ∀ s, (between doc.lines hs).getLast? = some s → s.endLine = doc.lineCount := by
  induction hs with
  | nil => simp [between]
  | cons header rest ih =>
    obtain ⟨start, name⟩ := header
    have headerHere := real (start, name) (List.mem_cons_self ..)
    have solid := allBlank_of_headerName? headerHere
    have present := ne_nil_of_headerName? headerHere
    have ihRest := ih (List.pairwise_cons.mp sorted).2
      fun h member => real h (List.mem_cons_of_mem _ member)
    cases rest with
    | nil =>
      refine ⟨.singleton _, ?_, ?_⟩
      · intro s member
        obtain rfl := List.mem_singleton.mp member
        exact Document.le_lineCount_of_line_ne_nil (n := start) present
      · intro s last
        cases last
        rfl
    | cons next rest =>
      obtain ⟨following, nextName⟩ := next
      have less : start < following :=
        (List.pairwise_cons.mp sorted).1 (following, nextName) (List.mem_cons_self ..)
      obtain ⟨chain, ordered, last⟩ := ihRest
      have reach : start ≤ lastSolidLine doc.lines (following - 1) :=
        le_lastSolidLine (by omega) solid
      have bound := lastSolidLine_le doc.lines (following - 1)
      obtain ⟨endLine, tail, -⟩ := between_cons doc.lines following nextName rest
      change (⟨name, start, lastSolidLine doc.lines (following - 1)⟩ ::
        between doc.lines ((following, nextName) :: rest)).IsChain _ ∧ _
      rw [between]
      refine ⟨?_, ?_, ?_⟩
      · rw [tail] at chain ⊢
        refine .cons_cons ⟨by change lastSolidLine _ _ < following; omega, ?_, ?_⟩ chain
        · have positive := (Document.mem_lines_of_line_ne_nil present).1
          exact allBlank_lastSolidLine positive (by omega) solid
        intro n after before
        exact allBlank_of_lastSolidLine_lt after (by change n < following at before; omega)
      · intro s member
        rcases List.mem_cons.mp member with rfl | member
        · exact reach
        · exact ordered s member
      · intro s found
        rw [tail] at found last
        rw [List.getLast?_cons_cons] at found
        exact last s found

end Section

namespace Document

open Section

variable {doc : Document} {s t : Section}

private theorem layout (doc : Document) :
    doc.sections.IsChain (Precedes doc) ∧ (∀ s ∈ doc.sections, s.startLine ≤ s.endLine) ∧
      ∀ s, doc.sections.getLast? = some s → s.endLine = doc.lineCount :=
  isChain_between (pairwise_headers doc.lines) fun _ member => mem_headers_iff.mp member

theorem sections_isChain (doc : Document) : doc.sections.IsChain (Precedes doc) := (layout doc).1

theorem startLine_le_endLine (member : s ∈ doc.sections) : s.startLine ≤ s.endLine :=
  (layout doc).2.1 s member

/-- The last section ends with the document. -/
theorem endLine_of_getLast? (last : doc.sections.getLast? = some s) : s.endLine = doc.lineCount :=
  (layout doc).2.2 s last

theorem headerName?_startLine (member : s ∈ doc.sections) :
    headerName? (doc.line s.startLine) = some s.name := by
  apply mem_headers_iff.mp
  rw [← map_between doc.lines (headers doc.lines)]
  exact List.mem_map_of_mem (f := fun s : Section => (s.startLine, s.name)) member

theorem startLine_pos (here : s ∈ doc.sections) : 0 < s.startLine :=
  (mem_lines_of_line_ne_nil (ne_nil_of_headerName? (headerName?_startLine here))).1

theorem exists_section_of_headerName? {n : Nat} {name : Span}
    (header : headerName? (doc.line n) = some name) :
    ∃ s ∈ doc.sections, s.startLine = n ∧ s.name = name := by
  have member := mem_headers_iff.mpr header
  rw [← map_between doc.lines (headers doc.lines)] at member
  obtain ⟨s, inside, pair⟩ := List.mem_map.mp member
  cases pair
  exact ⟨s, inside, rfl, rfl⟩

/-- Sections do not overlap. -/
theorem sections_pairwise (doc : Document) :
    doc.sections.Pairwise fun s t => s.endLine < t.startLine := by
  let R (s t : Section) : Prop :=
    s.endLine < t.startLine ∧ s.startLine ≤ s.endLine ∧ t.startLine ≤ t.endLine
  have ordered : doc.sections.IsChain R := by
    refine (sections_isChain doc).imp_of_mem_imp ?_
    intro s t left right precedes
    exact ⟨precedes.ends, startLine_le_endLine left, startLine_le_endLine right⟩
  have transitive : Trans R R R := by
    refine ⟨?_⟩
    rintro s t u ⟨first, order, middle⟩ ⟨second, -, last⟩
    exact ⟨by omega, order, last⟩
  exact ordered.pairwise.imp And.left

theorem sections_apart (here : s ∈ doc.sections) (there : t ∈ doc.sections) :
    s = t ∨ s.endLine < t.startLine ∨ t.endLine < s.startLine :=
  (sections_pairwise doc).apart here there

theorem endLine_le_lineCount (member : s ∈ doc.sections) : s.endLine ≤ doc.lineCount := by
  obtain ⟨earlier, later, split⟩ := List.append_of_mem member
  cases last : later.getLast? with
  | none =>
    rw [List.getLast?_eq_none_iff.mp last] at split
    exact Nat.le_of_eq (endLine_of_getLast? (by rw [split, List.getLast?_concat]))
  | some t =>
    have whole : doc.sections.getLast? = some t := by
      rw [split, List.getLast?_append, List.getLast?_cons, last]
      rfl
    have pairs := sections_pairwise doc
    rw [split] at pairs
    have before := (List.pairwise_cons.mp (List.pairwise_append.mp pairs).2.1).1 t
      (List.mem_of_getLast? last)
    have ends := endLine_of_getLast? whole
    have order := startLine_le_endLine (List.mem_of_getLast? whole)
    omega

theorem startLine_le_lineCount (here : s ∈ doc.sections) : s.startLine ≤ doc.lineCount :=
  Nat.le_trans (startLine_le_endLine here) (endLine_le_lineCount here)

theorem numbered_getElem? (doc : Document) (i : Nat) :
    doc.numbered[i]? = (doc.lines[i]?).map fun text => ⟨i + 1, text⟩ := by
  rw [numbered, List.getElem?_map, List.getElem?_zipIdx, Option.map_map]
  simp only [Function.comp_def, Nat.add_comm 1 i]

theorem numbered_eq_map (doc : Document) :
    doc.numbered = (List.range' 1 doc.lineCount).map fun n => ⟨n, doc.line n⟩ := by
  refine List.ext_getElem? fun i => ?_
  have text : doc.lines[i]? = ((List.range' 1 doc.lineCount).map doc.line)[i]? := by
    rw [← lines_eq_map]
  rw [numbered_getElem?, text, List.getElem?_map, List.getElem?_map, Option.map_map]
  by_cases inside : i < doc.lineCount
  · rw [List.getElem?_range' inside, Nat.one_mul, Nat.add_comm 1 i]
    rfl
  · rw [List.getElem?_eq_none (by simpa using inside)]
    rfl

theorem mem_numbered_iff {l : NumberedLine} :
    l ∈ doc.numbered ↔ 0 < l.number ∧ doc.lines[l.number - 1]? = some l.text := by
  constructor
  · intro member
    obtain ⟨⟨text, number⟩, inside, rfl⟩ := List.mem_map.mp member
    exact List.mk_mem_zipIdx_iff_le_and_getElem?_sub.mp inside
  · rintro ⟨positive, found⟩
    refine List.mem_map.mpr ⟨(l.text, l.number), ?_, rfl⟩
    exact List.mk_mem_zipIdx_iff_le_and_getElem?_sub.mpr ⟨positive, found⟩

theorem number_of_mem_numbered {l : NumberedLine} (member : l ∈ doc.numbered) :
    1 ≤ l.number ∧ l.number ≤ doc.lineCount := by
  rw [numbered_eq_map] at member
  obtain ⟨n, inside, rfl⟩ := List.mem_map.mp member
  obtain ⟨first, last⟩ := List.mem_range'_1.mp inside
  exact ⟨first, by change n ≤ doc.lineCount; omega⟩

theorem line_number_of_mem_numbered {l : NumberedLine} (member : l ∈ doc.numbered) :
    doc.line l.number = l.text := by
  rw [numbered_eq_map] at member
  obtain ⟨n, -, rfl⟩ := List.mem_map.mp member
  rfl

theorem line_mem_numbered {n : Nat} (positive : 0 < n) (upTo : n ≤ doc.lineCount) :
    ⟨n, doc.line n⟩ ∈ doc.numbered := by
  rw [numbered_eq_map]
  exact List.mem_map_of_mem (List.mem_range'_1.mpr ⟨positive, by omega⟩)

/-- The first lines are those with small numbers. -/
theorem mem_take_numbered_iff {l : NumberedLine} {k : Nat} :
    l ∈ doc.numbered.take k ↔ l.number ≤ k ∧ l ∈ doc.numbered := by
  constructor
  · intro member
    obtain ⟨i, found⟩ := List.mem_iff_getElem?.mp member
    rw [List.getElem?_take, Option.ite_none_right_eq_some, numbered_getElem?] at found
    obtain ⟨inside, found⟩ := found
    obtain ⟨text, -, rfl⟩ := Option.map_eq_some_iff.mp found
    exact ⟨inside, List.mem_of_mem_take member⟩
  · rintro ⟨upTo, member⟩
    obtain ⟨positive, found⟩ := mem_numbered_iff.mp member
    refine List.mem_of_getElem? (i := l.number - 1) ?_
    rw [List.getElem?_take_of_lt (by omega), numbered_getElem?, found, Option.map_some,
      Nat.sub_add_cancel positive]

/-- The body of a section holds the lines behind its header up to its end. -/
theorem mem_body_iff {l : NumberedLine} :
    l ∈ doc.body s ↔ s.startLine < l.number ∧ l.number ≤ s.endLine ∧ doc.line l.number = l.text := by
  rw [body, List.mem_map]
  constructor
  · rintro ⟨n, inside, rfl⟩
    obtain ⟨behind, upTo⟩ := mem_bodyLines_iff.mp inside
    exact ⟨behind, upTo, rfl⟩
  · rintro ⟨behind, upTo, text⟩
    exact ⟨l.number, mem_bodyLines_iff.mpr ⟨behind, upTo⟩, by rw [text]⟩

/-- The lines of a body are lines of the document. -/
theorem number_of_mem_body {l : NumberedLine} (here : s ∈ doc.sections) (member : l ∈ doc.body s) :
    1 ≤ l.number ∧ l.number ≤ doc.lineCount := by
  obtain ⟨behind, upTo, -⟩ := mem_body_iff.mp member
  have last := endLine_le_lineCount here
  constructor
  · omega
  · omega

theorem line_number_of_mem_body {l : NumberedLine} (member : l ∈ doc.body s) :
    doc.line l.number = l.text :=
  (mem_body_iff.mp member).2.2

theorem mem_numbered_of_mem_body {l : NumberedLine} (here : s ∈ doc.sections)
    (member : l ∈ doc.body s) : l ∈ doc.numbered := by
  obtain ⟨first, last⟩ := number_of_mem_body here member
  have listed := line_mem_numbered first last
  rwa [line_number_of_mem_body member] at listed

theorem getElem?_of_mem_body {l : NumberedLine} (here : s ∈ doc.sections)
    (member : l ∈ doc.body s) : doc.lines[l.number - 1]? = some l.text :=
  (mem_numbered_iff.mp (mem_numbered_of_mem_body here member)).2

theorem numbered_pairwise (doc : Document) :
    doc.numbered.Pairwise fun a b => a.number < b.number := by
  have numbers : (doc.lines.zipIdx 1).Pairwise fun a b => a.2 < b.2 := by
    rw [← List.pairwise_map, List.zipIdx_map_snd]
    exact List.pairwise_lt_range' 1
  exact List.pairwise_map.mpr numbers

theorem body_pairwise (doc : Document) (s : Section) :
    (doc.body s).Pairwise fun a b => a.number < b.number :=
  List.pairwise_map.mpr (List.pairwise_lt_range' 1)

/-- A line lies in the body of one section only. -/
theorem eq_of_mem_body {l m : NumberedLine} (here : s ∈ doc.sections) (there : t ∈ doc.sections)
    (left : l ∈ doc.body s) (right : m ∈ doc.body t) (same : l.number = m.number) :
    s = t ∧ l = m := by
  have lines : l = m := by
    have texts := (line_number_of_mem_body left).symm.trans
      ((congrArg doc.line same).trans (line_number_of_mem_body right))
    cases l
    cases m
    cases same
    cases texts
    rfl
  refine ⟨?_, lines⟩
  subst lines
  obtain ⟨afterS, upToS, -⟩ := mem_body_iff.mp left
  obtain ⟨afterT, upToT, -⟩ := mem_body_iff.mp right
  rcases sections_apart here there with same | before | after
  · exact same
  · omega
  · omega

/-- A header stands in no body. -/
theorem headerName?_of_mem_body {l : NumberedLine} (here : s ∈ doc.sections)
    (member : l ∈ doc.body s) : headerName? l.text = none := by
  cases header : headerName? l.text with
  | none => rfl
  | some name =>
    rw [← line_number_of_mem_body member] at header
    obtain ⟨t, there, starts, -⟩ := exists_section_of_headerName? header
    obtain ⟨after, upTo, -⟩ := mem_body_iff.mp member
    have order := startLine_le_endLine there
    rcases sections_apart here there with rfl | before | after
    · omega
    · omega
    · omega

/-- The section at a line is the last one that starts before it. -/
theorem sectionAt?_eq_find? (doc : Document) (n : Nat) :
    doc.sectionAt? n = doc.sections.reverse.find? fun s => s.startLine < n := by
  have found : ∀ (p : Section → Bool) (l : List Section),
      (((l.zipIdx.filter fun x => p x.1).getLast?).map (·.2)).bind (l[·]?) =
        l.reverse.find? p := by
    intro p l
    have selected : (l.zipIdx.filter fun x => p x.1).map Prod.fst = l.filter p := by
      conv_rhs => rw [← List.zipIdx_map_fst 0 l, List.filter_map]
      rfl
    rw [← List.head?_filter, List.filter_reverse, List.head?_reverse, ← selected,
      List.getLast?_map]
    cases last : (l.zipIdx.filter fun x => p x.1).getLast? with
    | none => rfl
    | some x =>
      have inside := (List.mem_filter.mp (List.mem_of_getLast? last)).1
      exact List.mem_zipIdx_iff_getElem?.mp inside
  exact found (fun s => s.startLine < n) doc.sections

theorem sectionAt?_eq_some_iff {n : Nat} :
    doc.sectionAt? n = some s ↔ s.startLine < n ∧
      ∃ earlier later, doc.sections = earlier ++ s :: later ∧ ∀ t ∈ later, n ≤ t.startLine := by
  rw [sectionAt?_eq_find?, List.find?_eq_some_iff_append]
  simp only [decide_eq_true_eq, Bool.not_eq_true', decide_eq_false_iff_not, Nat.not_lt]
  refine and_congr_right fun _ => ⟨?_, ?_⟩
  · rintro ⟨later, earlier, split, behind⟩
    refine ⟨earlier.reverse, later.reverse, ?_, fun t member => behind t (List.mem_reverse.mp member)⟩
    rw [← List.reverse_reverse doc.sections, split]
    simp
  · rintro ⟨earlier, later, split, behind⟩
    refine ⟨later.reverse, earlier.reverse, ?_, fun t member => behind t (List.mem_reverse.mp member)⟩
    rw [split]
    simp

theorem mem_sections_of_sectionAt? {n : Nat} (found : doc.sectionAt? n = some s) :
    s ∈ doc.sections := by
  obtain ⟨-, earlier, later, split, -⟩ := sectionAt?_eq_some_iff.mp found
  simp [split]

/-- A line of a body is in that section. -/
theorem sectionAt?_of_mem_body {l : NumberedLine} (here : s ∈ doc.sections)
    (member : l ∈ doc.body s) : doc.sectionAt? l.number = some s := by
  obtain ⟨after, upTo, -⟩ := mem_body_iff.mp member
  obtain ⟨earlier, later, split⟩ := List.append_of_mem here
  refine sectionAt?_eq_some_iff.mpr ⟨after, earlier, later, split, ?_⟩
  intro t behind
  have pairs := sections_pairwise doc
  rw [split] at pairs
  have before := (List.pairwise_cons.mp (List.pairwise_append.mp pairs).2.1).1 t behind
  omega

/-- A line that is in a section, but in no body, is a header or blank. -/
theorem mem_body_or_allBlank_of_sectionAt? {n : Nat} (found : doc.sectionAt? n = some s)
    (notHeader : headerName? (doc.line n) = none) :
    ⟨n, doc.line n⟩ ∈ doc.body s ∨ (doc.line n).allBlank = true := by
  obtain ⟨after, earlier, later, split, behind⟩ := sectionAt?_eq_some_iff.mp found
  by_cases blank : (doc.line n).allBlank = true
  · exact .inr blank
  · have solid : doc.line n ≠ [] := by
      intro empty
      exact blank (by rw [empty]; rfl)
    refine .inl (mem_body_iff.mpr ⟨after, ?_, rfl⟩)
    change n ≤ s.endLine
    have chain := (List.isChain_append.mp (split ▸ sections_isChain doc)).2.1
    cases later with
    | nil =>
      have last : doc.sections.getLast? = some s := by rw [split, List.getLast?_concat]
      rw [endLine_of_getLast? last]
      exact le_lineCount_of_line_ne_nil solid
    | cons t later =>
      have follows := (List.isChain_cons_cons.mp chain).1
      have upTo := behind t (List.mem_cons_self ..)
      have there : t ∈ doc.sections := by rw [split]; simp
      have other : n ≠ t.startLine := by
        rintro rfl
        rw [headerName?_startLine there] at notHeader
        cases notHeader
      by_contra beyond
      exact blank (follows.gap n (by omega) (by omega))

/-- The kind of a line is that of the last header before it. -/
theorem kindAt?_eq (doc : Document) (n : Nat) :
    doc.kindAt? n = ((headers doc.lines).reverse.find? fun h => h.1 < n).bind fun h =>
      Keyword.parse? h.2.text := by
  rw [kindAt?, sectionAt?_eq_find?, ← map_between doc.lines (headers doc.lines), ← List.map_reverse,
    List.find?_map, Option.bind_map]
  rfl

theorem mem_linesOf_iff {kind : SectionKind} {l : NumberedLine} : l ∈ doc.linesOf kind ↔
    ∃ s ∈ doc.sections, s.kind? = some kind ∧ l ∈ doc.body s := by
  simp [linesOf, sectionsOf, and_assoc]

/-- The lines of a kind are what the document has there, and no headers. -/
theorem of_mem_linesOf {kind : SectionKind} {l : NumberedLine} (member : l ∈ doc.linesOf kind) :
    doc.kindAt? l.number = some kind ∧ doc.line l.number = l.text ∧ headerName? l.text = none := by
  obtain ⟨s, here, known, inside⟩ := mem_linesOf_iff.mp member
  refine ⟨?_, line_number_of_mem_body inside, headerName?_of_mem_body here inside⟩
  rw [kindAt?, sectionAt?_of_mem_body here inside]
  exact known

/-- A line that is neither a header nor blank is among the lines of its kind. -/
theorem mem_linesOf_of_kindAt? {kind : SectionKind} {n : Nat} (known : doc.kindAt? n = some kind)
    (body : headerName? (doc.line n) = none) (solid : (doc.line n).allBlank = false) :
    ⟨n, doc.line n⟩ ∈ doc.linesOf kind := by
  obtain ⟨s, found, same⟩ := Option.bind_eq_some_iff.mp known
  refine mem_linesOf_iff.mpr ⟨s, mem_sections_of_sectionAt? found, same, ?_⟩
  refine (mem_body_or_allBlank_of_sectionAt? found body).resolve_right fun blank => ?_
  rw [solid] at blank
  cases blank

end Document

end ProxyConfig
