import ProxyConfig.Section
import ProxyConfig.Proofs.Text.Cut
import ProxyConfig.Proofs.Text.Pattern

/-! # Headers

A header line is a margin of blanks, `[`, a name without `]` and `#`, the first `]`, and anything. No
two ways to cut a line like that differ, so the pattern of headers, which only finds one of them, finds
exactly the header lines, with their names. The comment of a line plays no part in it.
-/

namespace ProxyConfig

open Text

/-- A line cut at the brackets of a header. -/
structure HeaderParts (line : Text) where
  margin : Text
  inside : Text
  rest : Text
  split : line = margin ++ '[' :: (inside ++ ']' :: rest)
  blank : margin.allBlank = true
  solid : inside ≠ []
  unclosed : ']' ∉ inside
  clean : '#' ∉ inside

namespace HeaderParts

variable {line : Text}

/-- The name between the brackets. -/
def name (h : HeaderParts line) : Span := .trimmed (h.margin.length + 2) h.inside

/-- The first bracket ends the margin, and the first one that closes it ends the name. -/
theorem unique (h h' : HeaderParts line) : h = h' := by
  obtain ⟨margin, inside, rest, split, blank, solid, unclosed, clean⟩ := h
  obtain ⟨margin', inside', rest', split', blank', solid', unclosed', clean'⟩ := h'
  have opened := (cut?_append_cons (not_mem_of_allBlank blank (by decide)) _).symm.trans
    ((congrArg (cut? '[') (split.symm.trans split')).trans
      (cut?_append_cons (not_mem_of_allBlank blank' (by decide)) _))
  obtain ⟨rfl, behind⟩ := Prod.mk.inj (Option.some.inj opened)
  have closed := (cut?_append_cons unclosed _).symm.trans
    ((congrArg (cut? ']') behind).trans (cut?_append_cons unclosed' _))
  obtain ⟨rfl, rfl⟩ := Prod.mk.inj (Option.some.inj closed)
  rfl

/-- The texts that the parts of the pattern take. -/
def texts (h : HeaderParts line) : List Text := [h.margin, ['['], h.inside, [']']]

theorem takes_texts (h : HeaderParts line) :
    List.Forall₂ PatternPart.Takes headerPattern h.texts := by
  have inside : ∀ c ∈ h.inside, (c != ']' && c != '#') = true := by
    intro c member
    rw [Bool.and_eq_true, bne_iff_ne, bne_iff_ne]
    exact ⟨fun same => h.unclosed (same ▸ member), fun same => h.clean (same ▸ member)⟩
  exact .cons ⟨Nat.zero_le _, allBlank_iff.mp h.blank⟩ <| .cons ⟨'[', rfl, rfl⟩ <|
    .cons ⟨List.length_pos_iff.mpr h.solid, inside⟩ <| .cons ⟨']', rfl, rfl⟩ .nil

theorem exists_of_takes {texts : List Text} {rest : Text}
    (taken : List.Forall₂ PatternPart.Takes headerPattern texts)
    (split : line = texts.flatten ++ rest) : ∃ h : HeaderParts line, h.texts = texts := by
  simp only [headerPattern, List.forall₂_cons_left_iff, List.forall₂_nil_left_iff] at taken
  obtain ⟨margin, _, ⟨-, blank⟩, ⟨_, _, ⟨c, rfl, opens⟩, ⟨inside, _, ⟨long, within⟩,
    ⟨_, _, ⟨d, rfl, closes⟩, rfl, rfl⟩, rfl⟩, rfl⟩, rfl⟩ := taken
  obtain rfl : c = '[' := eq_of_beq opens
  obtain rfl : d = ']' := eq_of_beq closes
  refine ⟨⟨margin, inside, rest, by simpa using split, allBlank_iff.mpr blank,
    List.length_pos_iff.mp long, ?_, ?_⟩, rfl⟩
  · exact fun member => absurd (within ']' member) (by decide)
  · exact fun member => absurd (within '#' member) (by decide)

theorem match?_eq_some_iff {texts : List Text} :
    PatternPart.match? headerPattern line = some texts ↔ ∃ h : HeaderParts line, h.texts = texts := by
  constructor
  · intro found
    obtain ⟨taken, rest, split⟩ := PatternPart.takes_of_match? found
    exact exists_of_takes taken split
  · rintro ⟨h, rfl⟩
    have front : line = h.texts.flatten ++ h.rest := by simpa [HeaderParts.texts] using h.split
    have matched := PatternPart.isSome_match?_iff.mpr ⟨_, h.rest, h.takes_texts, front⟩
    obtain ⟨texts, found⟩ := Option.isSome_iff_exists.mp matched
    obtain ⟨taken, rest, split⟩ := PatternPart.takes_of_match? found
    obtain ⟨h', rfl⟩ := exists_of_takes taken split
    rw [found, h'.unique h]

/-- The pattern finds the name of a header. -/
theorem headerName?_eq_some_iff {name : Span} :
    headerName? line = some name ↔ ∃ h : HeaderParts line, h.name = name := by
  constructor
  · intro header
    rw [headerName?] at header
    split at header
    · next margin _ inside _ found =>
      obtain ⟨h, same⟩ := match?_eq_some_iff.mp found
      cases same
      cases header
      exact ⟨h, rfl⟩
    · cases header
  · rintro ⟨h, rfl⟩
    rw [headerName?, match?_eq_some_iff.mpr ⟨h, rfl⟩]
    rfl

/-- The name stands in the line where its column says. -/
theorem take_drop_name (h : HeaderParts line) :
    1 ≤ h.name.column ∧ (line.drop (h.name.column - 1)).take h.name.length = h.name.text := by
  obtain ⟨-, read⟩ | ⟨lead, trail, -, -, -, split, read⟩ :=
    Span.trimmed_cases (h.margin.length + 2) h.inside
  · rw [name, read]
    exact ⟨Nat.le_add_left 1 _, rfl⟩
  · have whole : line = (h.margin ++ '[' :: lead) ++ (h.inside.trim ++ (trail ++ ']' :: h.rest)) := by
      conv_lhs => rw [h.split, split]
      simp
    have front : (h.margin ++ '[' :: lead).length = h.margin.length + 2 + lead.length - 1 := by
      rw [List.length_append, List.length_cons]
      omega
    rw [name, read]
    refine ⟨by dsimp only; omega, ?_⟩
    dsimp only [Span.length]
    calc
      (line.drop (h.margin.length + 2 + lead.length - 1)).take h.inside.trim.length
          = ((h.margin ++ '[' :: lead ++ (h.inside.trim ++ (trail ++ ']' :: h.rest))).drop
              (h.margin ++ '[' :: lead).length).take h.inside.trim.length := by rw [← whole, front]
      _ = h.inside.trim := by rw [List.drop_left, List.take_left]

end HeaderParts

namespace Section

/-- A header is a bracket behind blanks, a name without `]` and `#`, and the closing bracket. -/
theorem headerName?_eq_some_iff {line : Text} {name : Span} :
    headerName? line = some name ↔ ∃ margin inside rest : Text,
      line = margin ++ '[' :: (inside ++ ']' :: rest) ∧ margin.allBlank = true ∧ inside ≠ [] ∧
        ']' ∉ inside ∧ '#' ∉ inside ∧ name = .trimmed (margin.length + 2) inside := by
  rw [HeaderParts.headerName?_eq_some_iff]
  constructor
  · rintro ⟨h, rfl⟩
    exact ⟨h.margin, h.inside, h.rest, h.split, h.blank, h.solid, h.unclosed, h.clean, rfl⟩
  · rintro ⟨margin, inside, rest, split, blank, solid, unclosed, clean, rfl⟩
    exact ⟨⟨margin, inside, rest, split, blank, solid, unclosed, clean⟩, rfl⟩

theorem headerName?_nil : headerName? [] = none := rfl

theorem ne_nil_of_headerName? {line : Text} {name : Span} (header : headerName? line = some name) :
    line ≠ [] := by
  rintro rfl
  rw [headerName?_nil] at header
  cases header

/-- A header starts with something. -/
theorem allBlank_of_headerName? {line : Text} {name : Span} (header : headerName? line = some name) :
    line.allBlank = false := by
  obtain ⟨margin, inside, rest, rfl, -⟩ := headerName?_eq_some_iff.mp header
  rw [allBlank_append, Bool.and_eq_false_iff]
  exact .inr rfl

theorem headerName?_isSome_iff {line : Text} :
    (headerName? line).isSome = true ↔ ∃ margin name rest : Text,
      line = margin ++ '[' :: (name ++ ']' :: rest) ∧ margin.allBlank = true ∧ name ≠ [] ∧
        ']' ∉ name ∧ '#' ∉ name := by
  simp only [Option.isSome_iff_exists, headerName?_eq_some_iff]
  constructor
  · rintro ⟨-, margin, name, rest, split, blank, solid, unclosed, clean, -⟩
    exact ⟨margin, name, rest, split, blank, solid, unclosed, clean⟩
  · rintro ⟨margin, name, rest, split, blank, solid, unclosed, clean⟩
    exact ⟨_, margin, name, rest, split, blank, solid, unclosed, clean, rfl⟩

/-- A line whose first character besides blanks is no bracket is no header. -/
theorem headerName?_eq_none_of_head? {line : Text} (other : line.trimStart.head? ≠ some '[') :
    headerName? line = none := by
  cases header : headerName? line with
  | none => rfl
  | some name =>
    obtain ⟨margin, inside, rest, split, blank, -⟩ := headerName?_eq_some_iff.mp header
    refine absurd ?_ other
    rw [split, Text.trimStart_append blank, Text.trimStart, List.dropWhile_cons_of_neg (by decide)]
    rfl

/-- A line whose first word does not start with a bracket is no header. -/
theorem headerName?_of_core {lead core : Text} (blank : lead.allBlank = true)
    (trimmed : Text.IsTrimmed core) (solid : core ≠ []) (other : core.head? ≠ some '[') (rest : Text) :
    headerName? (lead ++ (core ++ rest)) = none := by
  apply headerName?_eq_none_of_head?
  rwa [Text.trimStart_append blank, Text.head?_trimStart_append (trimmed.not_allBlank solid), trimmed.1]

end Section

/-- A header does not see its comment. -/
theorem headerName?_uncommented (line : Text) : headerName? line.uncommented = headerName? line := by
  have forth (name : Span) (header : headerName? line.uncommented = some name) :
      headerName? line = some name := by
    obtain ⟨margin, inside, rest, split, known⟩ := Section.headerName?_eq_some_iff.mp header
    refine Section.headerName?_eq_some_iff.mpr ⟨margin, inside, rest ++ line.comment, ?_, known⟩
    conv_lhs => rw [← uncommented_append_comment line, split]
    simp
  have back (name : Span) (header : headerName? line = some name) :
      headerName? line.uncommented = some name := by
    obtain ⟨margin, inside, rest, split, blank, solid, closing, mark, known⟩ :=
      Section.headerName?_eq_some_iff.mp header
    refine Section.headerName?_eq_some_iff.mpr
      ⟨margin, inside, rest.uncommented, ?_, blank, solid, closing, mark, known⟩
    -- no comment starts before the bracket that ends the name
    have clean : ∀ c ∈ margin ++ '[' :: (inside ++ [']']), (c != '#') = true := by
      intro c member
      rw [bne_iff_ne]
      rintro rfl
      have absent : '#' ∉ margin := not_mem_of_allBlank blank (by decide)
      simp [absent, mark] at member
    have whole : ((margin ++ '[' :: (inside ++ [']'])) ++ rest).takeWhile (· != '#') =
        (margin ++ '[' :: (inside ++ [']'])) ++ rest.takeWhile (· != '#') :=
      List.takeWhile_append_of_pos clean
    rw [split, uncommented]
    simpa [uncommented] using whole
  cases header : headerName? line with
  | some name => exact back name header
  | none =>
    cases other : headerName? line.uncommented with
    | none => rfl
    | some name => exact (header.symm.trans (forth name other)).symm

/-- A header is read off exactly the lines that consist of blanks, `[`, a name without `]` and `#`, `]`,
and anything. There is one way at most to cut a line like that, the name is the part between the
brackets without the blanks around it, and it stands at its column. The comment plays no part. -/
theorem header_read_exactly (line : Text) :
    (∀ name, headerName? line = some name ↔ ∃ h : HeaderParts line, h.name = name) ∧
    (∀ h h' : HeaderParts line, h = h') ∧
    (∀ h : HeaderParts line, h.name.text = h.inside.trim) ∧
    (∀ name, headerName? line = some name → name.text ≠ [] →
      1 ≤ name.column ∧ (line.drop (name.column - 1)).take name.length = name.text) ∧
    (∀ other : Text, other.uncommented = line.uncommented → headerName? other = headerName? line) := by
  refine ⟨fun name => HeaderParts.headerName?_eq_some_iff, HeaderParts.unique, ?_, ?_, ?_⟩
  · exact fun h => Span.text_trimmed _ h.inside
  · intro name header _
    obtain ⟨h, rfl⟩ := HeaderParts.headerName?_eq_some_iff.mp header
    exact h.take_drop_name
  · intro other same
    rw [← headerName?_uncommented, same, headerName?_uncommented]

/-- A further bracket opens nothing, one that closes behind the name closes nothing, and the comment
may be another one. -/
theorem header_read_exactly_nested :
    let line := " [ [Proxy Group ] x] # [y]".toList
    let name : Span := ⟨"[Proxy Group".toList, 4⟩
    (headerName? line = some name ∧ ∃ h : HeaderParts line, h.name = name) ∧
    (name.text ≠ [] ∧ 1 ≤ name.column ∧ (line.drop (name.column - 1)).take name.length = name.text) ∧
    (Text.uncommented " [ [Proxy Group ] x] #".toList = Text.uncommented line ∧
      headerName? " [ [Proxy Group ] x] #".toList = headerName? line) := by
  intro line name
  obtain ⟨read, -, -, stands, bare⟩ := header_read_exactly line
  have header : headerName? line = some name := by decide
  have solid : name.text ≠ [] := by decide
  have same : Text.uncommented " [ [Proxy Group ] x] #".toList = Text.uncommented line := by decide
  exact ⟨⟨header, (read name).mp header⟩, ⟨solid, stands name header solid⟩, same, bare _ same⟩

end ProxyConfig
