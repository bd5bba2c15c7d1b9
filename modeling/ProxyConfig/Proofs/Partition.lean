import ProxyConfig.Proofs.Validation.Integrity
import Mathlib.Data.List.Perm.Basic

/-! # Sections partition the lines

Every line that is not blank stands before the first header, is a header, or lies in the body of
exactly one section, and the section of a cursor on it is that one. Where the section structure is
reported without errors, nothing stands before the first header and every section has a known name,
so no line escapes the validators.
-/

namespace ProxyConfig

open Text

namespace Document

open Section

variable {doc : Document} {s : Section} {n : Nat}

/-- Whether a line is a section header. -/
def isHeader (doc : Document) (n : Nat) : Bool := (headerName? (doc.line n)).isSome

/-- A line before the first header. -/
def IsStray (doc : Document) (n : Nat) : Prop := ∀ s ∈ doc.sections, n < s.startLine

/-- The sections that have the line in their bodies. -/
def owners (doc : Document) (n : Nat) : List Section :=
  doc.sections.filter fun s => s.bodyLines.contains n

theorem mem_owners_iff : s ∈ doc.owners n ↔ s ∈ doc.sections ∧ s.startLine < n ∧ n ≤ s.endLine := by
  rw [owners, List.mem_filter, List.contains_iff_mem, mem_bodyLines_iff]

theorem isHeader_iff : doc.isHeader n = true ↔ ∃ s ∈ doc.sections, s.startLine = n := by
  constructor
  · intro header
    obtain ⟨name, found⟩ := Option.isSome_iff_exists.mp header
    obtain ⟨s, here, starts, -⟩ := exists_section_of_headerName? found
    exact ⟨s, here, starts⟩
  · rintro ⟨s, here, rfl⟩
    rw [isHeader, headerName?_startLine here]
    rfl

theorem pairwise_startLine (doc : Document) :
    doc.sections.Pairwise fun s t => s.startLine < t.startLine := by
  refine (sections_pairwise doc).imp_of_mem ?_
  intro s t here _ apart
  have order := startLine_le_endLine here
  omega

/-- The sections start at the headers, in order. -/
theorem map_startLine_sections (doc : Document) :
    doc.sections.map Section.startLine = (List.range' 1 doc.lineCount).filter doc.isHeader := by
  have starts : (doc.sections.map Section.startLine).Pairwise (· < ·) :=
    List.pairwise_map.mpr (pairwise_startLine doc)
  have numbers : ((List.range' 1 doc.lineCount).filter doc.isHeader).Pairwise (· < ·) :=
    (List.pairwise_lt_range' 1).filter _
  -- two increasing lists with the same members
  refine List.Perm.eq_of_pairwise (fun a b _ _ less more => absurd less (Nat.lt_asymm more))
    starts numbers ?_
  apply (List.perm_ext_iff_of_nodup (starts.imp Nat.ne_of_lt) (numbers.imp Nat.ne_of_lt)).mpr
  intro n
  rw [List.mem_map, List.mem_filter, List.mem_range'_1, isHeader_iff]
  constructor
  · rintro ⟨s, here, rfl⟩
    have positive := startLine_pos here
    have order := startLine_le_endLine here
    have inside := endLine_le_lineCount here
    exact ⟨by omega, s, here, rfl⟩
  · rintro ⟨-, s, here, starts⟩
    exact ⟨s, here, starts⟩

/-- A line in the body of one section is in the body of no other. -/
theorem owners_eq_singleton (here : s ∈ doc.sections) (inside : n ∈ s.bodyLines) :
    doc.owners n = [s] := by
  obtain ⟨after, upTo⟩ := mem_bodyLines_iff.mp inside
  obtain ⟨earlier, later, split⟩ := List.append_of_mem here
  have pairs := sections_pairwise doc
  rw [split] at pairs
  obtain ⟨-, behind, before⟩ := List.pairwise_append.mp pairs
  have nothingBefore : earlier.filter (fun t => t.bodyLines.contains n) = [] := by
    apply List.filter_eq_nil_iff.mpr
    intro t member owned
    rw [List.contains_iff_mem, mem_bodyLines_iff] at owned
    have apart := before t member s (List.mem_cons_self ..)
    omega
  have nothingBehind : later.filter (fun t => t.bodyLines.contains n) = [] := by
    apply List.filter_eq_nil_iff.mpr
    intro t member owned
    rw [List.contains_iff_mem, mem_bodyLines_iff] at owned
    have apart := (List.pairwise_cons.mp behind).1 t member
    omega
  have owned : s.bodyLines.contains n = true := List.contains_iff_mem.mpr inside
  rw [owners, split, List.filter_append, nothingBefore, List.filter_cons, if_pos owned,
    nothingBehind, List.nil_append]

theorem mem_body_of_mem_bodyLines (doc : Document) (inside : n ∈ s.bodyLines) :
    ⟨n, doc.line n⟩ ∈ doc.body s :=
  List.mem_map_of_mem inside

theorem sectionAt?_of_mem_bodyLines (here : s ∈ doc.sections) (inside : n ∈ s.bodyLines) :
    doc.sectionAt? n = some s :=
  sectionAt?_of_mem_body here (mem_body_of_mem_bodyLines doc inside)

/-- A header is in no body. -/
theorem owners_of_isHeader (header : doc.isHeader n = true) : doc.owners n = [] := by
  apply List.filter_eq_nil_iff.mpr
  intro s here owned
  have body := headerName?_of_mem_body here
    (mem_body_of_mem_bodyLines doc (List.contains_iff_mem.mp owned))
  rw [isHeader, body] at header
  cases header

theorem owners_of_isStray (stray : doc.IsStray n) : doc.owners n = [] := by
  apply List.filter_eq_nil_iff.mpr
  intro s here owned
  rw [List.contains_iff_mem, mem_bodyLines_iff] at owned
  have before := stray s here
  omega

theorem not_isStray_of_isHeader (header : doc.isHeader n = true) : ¬ doc.IsStray n := by
  intro stray
  obtain ⟨s, here, rfl⟩ := isHeader_iff.mp header
  exact Nat.lt_irrefl _ (stray s here)

theorem not_isStray_of_mem_bodyLines (here : s ∈ doc.sections) (inside : n ∈ s.bodyLines) :
    ¬ doc.IsStray n := by
  intro stray
  have before := stray s here
  have after := (mem_bodyLines_iff.mp inside).1
  omega

/-- A line that is no header is stray, blank, or in the body of the section that a cursor on it is
in. -/
theorem stray_or_blank_or_owned (body : doc.isHeader n = false) :
    doc.IsStray n ∨ (doc.line n).allBlank = true ∨ ∃ s ∈ doc.sections, n ∈ s.bodyLines := by
  cases found : doc.sectionAt? n with
  | none =>
    rw [sectionAt?_eq_find?, List.find?_eq_none] at found
    refine .inl fun s here => ?_
    have upTo := found s (List.mem_reverse.mpr here)
    have other : s.startLine ≠ n := by
      intro same
      rw [isHeader_iff.mpr ⟨s, here, same⟩] at body
      cases body
    simp only [decide_eq_true_eq] at upTo
    omega
  | some s =>
    have none : headerName? (doc.line n) = none := by
      simpa [isHeader] using body
    rcases mem_body_or_allBlank_of_sectionAt? found none with inside | blank
    · obtain ⟨after, upTo, -⟩ := mem_body_iff.mp inside
      exact .inr (.inr ⟨s, mem_sections_of_sectionAt? found, mem_bodyLines_iff.mpr ⟨after, upTo⟩⟩)
    · exact .inr (.inl blank)

/-- Every line with something on it has exactly one place. -/
theorem place_of_solid (solid : (doc.line n).allBlank = false) :
    (doc.IsStray n ∧ doc.isHeader n = false ∧ doc.owners n = []) ∨
      (¬ doc.IsStray n ∧ doc.isHeader n = true ∧ doc.owners n = []) ∨
      (¬ doc.IsStray n ∧ doc.isHeader n = false ∧ ∃ s, doc.owners n = [s]) := by
  cases header : doc.isHeader n with
  | true => exact .inr (.inl ⟨not_isStray_of_isHeader header, rfl, owners_of_isHeader header⟩)
  | false =>
    rcases stray_or_blank_or_owned header with stray | blank | ⟨s, here, inside⟩
    · exact .inl ⟨stray, rfl, owners_of_isStray stray⟩
    · exact absurd (blank.symm.trans solid) (by decide)
    · exact .inr (.inr ⟨not_isStray_of_mem_bodyLines here inside, rfl, s,
        owners_eq_singleton here inside⟩)

section Errorless

/-- Where the headers are reported without errors, all of them have known names. -/
theorem kind?_of_checkHeadersFrom {earlier sections : List Section}
    (clean : Errorless (doc.checkHeadersFrom earlier sections)) (here : s ∈ sections) :
    s.kind?.isSome = true := by
  induction sections generalizing earlier with
  | nil => cases here
  | cons first rest ih =>
    rw [checkHeadersFrom, errorless_append, errorless_append] at clean
    rcases List.mem_cons.mp here with rfl | here
    · have named := clean.1.2
      rw [checkSectionName] at named
      split at named
      · exact absurd rfl named.severity_ne
      · next kind known => rw [known]; rfl
    · exact ih clean.2 here

/-- Where nothing is reported before the first header, nothing stands there. -/
theorem isVoid_of_strayContent (clean : Errorless doc.strayContent) (positive : 0 < n)
    (bound : n ≤ doc.lineCount) (stray : doc.IsStray n) : (doc.line n).isVoid = true := by
  by_contra solid
  have first : n ≤ ((doc.sections.head?).map (·.startLine) |>.getD (doc.lineCount + 1)) - 1 := by
    cases sections : doc.sections with
    | nil =>
      exact bound
    | cons s rest =>
      have before := stray s (by simp [sections])
      change n ≤ s.startLine - 1
      omega
  have listed : (⟨n, doc.line n⟩ : NumberedLine) ∈ doc.numbered.take
      (((doc.sections.head?).map (·.startLine) |>.getD (doc.lineCount + 1)) - 1) :=
    mem_take_numbered_iff.mpr ⟨first, line_mem_numbered positive bound⟩
  have full : ¬ (NumberedLine.content ⟨n, doc.line n⟩).isEmpty = true := by
    rw [NumberedLine.content_isEmpty_iff]
    exact solid
  have reported : Issue.strayContent.on ((NumberedLine.content ⟨n, doc.line n⟩).range n) ∈
      doc.strayContent :=
    List.mem_filterMap.mpr ⟨_, listed, if_neg full⟩
  exact clean _ reported rfl

/-- In a document without errors, a line with content is a header or in the body of a known
section. -/
theorem owned_of_errorless (clean : Errorless doc.checkSections)
    (content : (doc.line n).isVoid = false) :
    doc.isHeader n = true ∨ ∃ s, doc.owners n = [s] ∧ s.kind?.isSome = true := by
  obtain ⟨strays, headers⟩ := errorless_append.mp clean
  have solid : (doc.line n).allBlank = false := by
    rw [Bool.eq_false_iff]
    intro blank
    apply Bool.eq_false_iff.mp content
    exact allBlank_iff.mpr fun c member => allBlank_iff.mp blank c (mem_of_mem_uncommented member)
  have present : doc.line n ≠ [] := by
    intro empty
    rw [empty] at solid
    cases solid
  rcases place_of_solid solid with ⟨stray, -, -⟩ | ⟨-, header, -⟩ | ⟨-, -, s, owner⟩
  · have void := isVoid_of_strayContent strays (mem_lines_of_line_ne_nil present).1
      (le_lineCount_of_line_ne_nil present) stray
    exact absurd (void.symm.trans content) (by decide)
  · exact .inl header
  · have here := (mem_owners_iff.mp (owner ▸ List.mem_singleton_self s)).1
    exact .inr ⟨s, owner, kind?_of_checkHeadersFrom headers here⟩

end Errorless

/-- The sections of a text start at its headers, in order, and follow each other to its end with
blank lines between them. Each line that is not blank is stray, a header, or in the body of exactly
one section, which is the section at the line. Where nothing is reported as an error, each line
with content is a header or in the body of exactly one section, and that section is a known one. -/
theorem sections_partition (s : Text) :
    let doc := parse s
    doc.sections.map Section.startLine = (List.range' 1 doc.lineCount).filter doc.isHeader ∧
    (∀ t ∈ doc.sections, t.startLine ≤ t.endLine) ∧
    doc.sections.IsChain (fun t u => t.endLine < u.startLine ∧
      (doc.line t.endLine).allBlank = false ∧
      ∀ n, t.endLine < n → n < u.startLine → (doc.line n).allBlank = true) ∧
    (∀ t, doc.sections.getLast? = some t → t.endLine = doc.lineCount) ∧
    (∀ n, (doc.line n).allBlank = false →
      (doc.IsStray n ∧ doc.isHeader n = false ∧ doc.owners n = []) ∨
        (¬ doc.IsStray n ∧ doc.isHeader n = true ∧ doc.owners n = []) ∨
        (¬ doc.IsStray n ∧ doc.isHeader n = false ∧ ∃ t, doc.owners n = [t])) ∧
    (∀ t ∈ doc.sections, ∀ n ∈ t.bodyLines, doc.sectionAt? n = some t) ∧
    (∀ n, doc.isHeader n = false → (∀ t ∈ doc.sections, n ∉ t.bodyLines) →
      doc.IsStray n ∨ (doc.line n).allBlank = true ∨ doc.lineCount < n) ∧
    (Errorless (ProxyConfig.validate s) → ∀ n, (doc.line n).isVoid = false →
      doc.isHeader n = true ∨ ∃ t, doc.owners n = [t] ∧ t.kind?.isSome = true) := by
  intro doc
  refine ⟨map_startLine_sections doc, fun t here => startLine_le_endLine here, ?_,
    fun t last => endLine_of_getLast? last, fun n solid => place_of_solid solid,
    fun t here n inside => sectionAt?_of_mem_bodyLines here inside, ?_, ?_⟩
  · apply (sections_isChain doc).imp
    intro t u precedes
    exact ⟨precedes.ends, precedes.solid, precedes.gap⟩
  · intro n body unowned
    rcases stray_or_blank_or_owned body with stray | blank | ⟨t, here, inside⟩
    · exact .inl stray
    · exact .inr (.inl blank)
    · exact absurd inside (unowned t here)
  · intro accepted n content
    exact owned_of_errorless (errorless_validate_iff.mp accepted).1 content

/-- A comment line belongs to the section above it, the blank line below it to none. -/
theorem sections_partition_comment :
    let s := "[Proxy]\na = direct\n\n# note\n\n[Rule]\nFINAL, a".toList
    let doc := parse s
    let proxies : Section := ⟨⟨"Proxy".toList, 2⟩, 1, 4⟩
    let rules : Section := ⟨⟨"Rule".toList, 2⟩, 6, 7⟩
    (proxies ∈ doc.sections ∧ proxies.startLine ≤ proxies.endLine) ∧
    (doc.sections.getLast? = some rules ∧ rules.endLine = doc.lineCount) ∧
    ((doc.line 4).allBlank = false ∧
      ((doc.IsStray 4 ∧ doc.isHeader 4 = false ∧ doc.owners 4 = []) ∨
        (¬ doc.IsStray 4 ∧ doc.isHeader 4 = true ∧ doc.owners 4 = []) ∨
        (¬ doc.IsStray 4 ∧ doc.isHeader 4 = false ∧ ∃ t, doc.owners 4 = [t]))) ∧
    (4 ∈ proxies.bodyLines ∧ doc.sectionAt? 4 = some proxies) ∧
    (doc.isHeader 5 = false ∧ (∀ t ∈ doc.sections, 5 ∉ t.bodyLines) ∧
      (doc.IsStray 5 ∨ (doc.line 5).allBlank = true ∨ doc.lineCount < 5)) ∧
    (Errorless (ProxyConfig.validate s) ∧ (doc.line 2).isVoid = false ∧
      (doc.isHeader 2 = true ∨ ∃ t, doc.owners 2 = [t] ∧ t.kind?.isSome = true)) := by
  intro s doc proxies rules
  obtain ⟨-, order, -, ends, places, here, unowned, accepted⟩ := sections_partition s
  have first : proxies ∈ doc.sections := by decide +kernel
  have last : doc.sections.getLast? = some rules := by decide +kernel
  have solid : (doc.line 4).allBlank = false := by decide +kernel
  have inside : 4 ∈ proxies.bodyLines := by decide
  have body : doc.isHeader 5 = false := by decide +kernel
  have outside : ∀ t ∈ doc.sections, 5 ∉ t.bodyLines := by decide +kernel
  have clean : Errorless (ProxyConfig.validate s) := by decide +kernel
  have content : (doc.line 2).isVoid = false := by decide +kernel
  exact ⟨⟨first, order proxies first⟩, ⟨last, ends rules last⟩, ⟨solid, places 4 solid⟩,
    ⟨inside, here proxies first 4 inside⟩, ⟨body, outside, unowned 5 body outside⟩,
    clean, content, accepted clean 2 content⟩

end Document

end ProxyConfig
