import ProxyConfig.Proofs.Actor.Sites
import ProxyConfig.Proofs.Related
import ProxyConfig.Proofs.Validation.Lines
import Mathlib.Order.Monotone.Basic

/-! # Moved lines

A document is moved to another one if the lines that hold something besides a comment are the same but
for their comments and stand in the same order at other numbers. Whether a line is a header, which
section it is in and which names stand on it depends on nothing else, so sections and sites move
along. The blank lines and the comments themselves, and with them the ends of sections, are free.
-/

namespace ProxyConfig

open Text

/-- The range on the lines that its lines move to. -/
def Range.moved (f : Nat → Nat) (r : Range) : Range :=
  ⟨⟨f r.start.line, r.start.column⟩, ⟨f r.stop.line, r.stop.column⟩⟩

/-- The entry on the line that its line moves to. -/
def Entry.moved (f : Nat → Nat) (e : Entry) : Entry := { e with line := f e.line }

/-- The site on the line that its line moves to. -/
def NameSite.moved (f : Nat → Nat) (x : NameSite) : NameSite := { x with range := x.range.moved f }

/-- A line and the line that it moves to. -/
structure NumberedLine.Moved (f : Nat → Nat) (l l' : NumberedLine) : Prop where
  number : l'.number = f l.number
  bare : l'.text.uncommented = l.text.uncommented

/-- A section and the section that it moves to. The ends are free, since blank lines are. -/
structure Section.Moved (f : Nat → Nat) (s s' : Section) : Prop where
  name : s'.name = s.name
  startLine : s'.startLine = f s.startLine

variable {f : Nat → Nat}

@[simp] theorem Range.moved_id (r : Range) : r.moved id = r := rfl

theorem NameSite.moved_id : NameSite.moved id = id := rfl

@[simp] theorem Span.moved_range (a : Span) (line : Nat) :
    (a.range line).moved f = a.range (f line) := rfl

theorem Section.Moved.kind? {s s' : Section} (moved : s.Moved f s') : s'.kind? = s.kind? := by
  rw [Section.kind?, Section.kind?, moved.name]

theorem Section.Moved.nameRange {s s' : Section} (moved : s.Moved f s') :
    s'.nameRange = s.nameRange.moved f := by
  rw [Section.nameRange, Section.nameRange, moved.name, moved.startLine, Span.moved_range]

section Headers

/-- A line that holds nothing but a comment is no header. -/
theorem isVoid_of_headerName? {line : Text} {name : Span} (header : headerName? line = some name) :
    line.isVoid = false := by
  rw [← headerName?_uncommented] at header
  exact Section.allBlank_of_headerName? header

end Headers

namespace Entry

theorem parse?_moved (line column : Nat) (s : Text) :
    parse? (f line) column s = (parse? line column s).map (Entry.moved f) := by
  rw [parse?_eq, parse?_eq, Option.map_map]
  rfl

end Entry

theorem Span.property?_moved (a : Span) (line : Nat) :
    a.property? (f line) = (a.property? line).map (Entry.moved f) :=
  Entry.parse?_moved line a.column a.text

namespace NumberedLine

namespace Moved

variable {l l' : NumberedLine} (moved : l.Moved f l')

include moved

theorem content : l'.content = l.content := by
  rw [NumberedLine.content, NumberedLine.content, moved.bare]

theorem pieces : l'.pieces = l.pieces := by
  rw [NumberedLine.pieces, NumberedLine.pieces, moved.bare]

theorem isVoid : l'.text.isVoid = l.text.isVoid := congrArg Text.allBlank moved.bare

theorem headerName? : headerName? l'.text = headerName? l.text := by
  rw [← headerName?_uncommented, moved.bare, headerName?_uncommented]

theorem entry? : l'.entry? = l.entry?.map (Entry.moved f) := by
  rw [NumberedLine.entry?, NumberedLine.entry?, moved.content, moved.number, Entry.parse?_moved]

theorem rawEntry? : l'.rawEntry? = l.rawEntry?.map (Entry.moved f) := by
  rw [NumberedLine.rawEntry?, NumberedLine.rawEntry?, Entry.ofLine?, Entry.ofLine?,
    ← Entry.parse?_uncommented, moved.bare, Entry.parse?_uncommented, moved.number,
    Entry.parse?_moved]

/-- The names on a line move with it. -/
theorem sites (kind? : Option SectionKind) (name : Text) (declarations : Bool) :
    l'.sites kind? name declarations =
      (l.sites kind? name declarations).map (NameSite.moved f) := by
  have declared (e : Entry) (kind : ActorKind) :
      (if declarations then (e.moved f).declarationSites kind name else []) =
        (if declarations then e.declarationSites kind name else []).map (NameSite.moved f) := by
    cases declarations with
    | false => rfl
    | true =>
      have key : (e.moved f).key = e.key := rfl
      rw [if_pos rfl, if_pos rfl, Entry.declarationSites, Entry.declarationSites, key]
      split <;> rfl
  have referred (e : Entry) (a : Span) :
      (e.moved f).referenceSites name a = (e.referenceSites name a).map (NameSite.moved f) := by
    have property : a.property? (e.moved f).line = (a.property? e.line).map (Entry.moved f) :=
      a.property?_moved e.line
    rw [Entry.referenceSites, Entry.referenceSites, property]
    cases a.property? e.line with
    | none =>
      dsimp only [Option.map_none]
      split <;> rfl
    | some p =>
      have resort : (p.moved f).lastResort? = p.lastResort? := rfl
      dsimp only [Option.map_some]
      rw [resort]
      cases p.lastResort? with
      | none => rfl
      | some value =>
        dsimp only
        split <;> rfl
  unfold NumberedLine.sites
  rw [moved.rawEntry?, moved.pieces, moved.number]
  split
  · cases l.rawEntry? with
    | none => rfl
    | some e => simpa using declared e .proxy
  · cases l.rawEntry? with
    | none => rfl
    | some e =>
      have others : (e.moved f).arguments = e.arguments := rfl
      have each := funext (referred e)
      simp only [Option.map_some, Option.toList_some, List.flatMap_singleton, List.map_append,
        List.map_flatMap, declared, each, others]
  · cases (ruleTarget? l.pieces).filter fun target => target.text == name <;> rfl
  · rfl

end Moved

/-- No name stands on a line that holds nothing but a comment. -/
theorem sites_of_isEmpty {l : NumberedLine} (empty : l.content.isEmpty = true)
    (kind? : Option SectionKind) (name : Text) (declarations : Bool) :
    l.sites kind? name declarations = [] := by
  have bare := content_isEmpty_iff.mp empty
  have unread : l.rawEntry? = none :=
    Entry.parse?_eq_none_iff.mpr (not_mem_of_allBlank bare (by decide))
  have single : l.pieces = ⟨.trimmed 1 l.text.uncommented, []⟩ :=
    Pieces.read_of_not_mem 1 (not_mem_of_allBlank bare (by decide))
  have untargeted : ruleTarget? l.pieces = none := by
    rw [ruleTarget?, single]
    split
    · next others => cases others
    · rfl
  unfold sites
  rw [unread, untargeted]
  split <;> rfl

end NumberedLine

namespace Document

/-- The lines that hold something besides a comment. -/
def solid (doc : Document) : List NumberedLine := doc.numbered.filter fun l => !l.text.isVoid

/-- The solid lines that are no headers. -/
def contents (doc : Document) : List NumberedLine :=
  doc.solid.filter fun l => (headerName? l.text).isNone

/-- The other document has the same lines in the same order, but for comments and blank lines. -/
structure Moved (f : Nat → Nat) (doc doc' : Document) : Prop where
  mono : StrictMono f
  solid : List.Forall₂ (NumberedLine.Moved f) doc.solid doc'.solid

variable {doc doc' : Document} {s s' : Section} {l : NumberedLine}

theorem mem_solid_iff : l ∈ doc.solid ↔
    0 < l.number ∧ doc.lines[l.number - 1]? = some l.text ∧ l.text.isVoid = false := by
  rw [solid, List.mem_filter, mem_numbered_iff, Bool.not_eq_true', and_assoc]

/-- What is not void on a line of the document is one of the solid lines. -/
theorem mem_solid_of_line {n : Nat} (content : (doc.line n).isVoid = false) :
    ⟨n, doc.line n⟩ ∈ doc.solid := by
  have present : doc.line n ≠ [] := by
    intro empty
    rw [empty] at content
    cases content
  obtain ⟨positive, found⟩ := mem_lines_of_line_ne_nil present
  exact mem_solid_iff.mpr ⟨positive, found, content⟩

theorem line_of_mem_solid (member : l ∈ doc.solid) : doc.line l.number = l.text :=
  line_number_of_mem_numbered (List.mem_filter.mp member).1

theorem solid_pairwise (doc : Document) : doc.solid.Pairwise fun a b => a.number < b.number :=
  (numbered_pairwise doc).filter _

/-- Lines of the document in order, given by their members. -/
theorem eq_filter_solid {lines : List NumberedLine} {p : NumberedLine → Bool}
    (ordered : lines.Pairwise fun a b => a.number < b.number)
    (members : ∀ l, l ∈ lines ↔ l ∈ doc.solid ∧ p l = true) : lines = doc.solid.filter p := by
  have selected := (solid_pairwise doc).filter p
  refine List.Perm.eq_of_pairwise
    (fun a b _ _ less more => absurd less (Nat.lt_asymm more)) ordered selected ?_
  have distinct {a b : NumberedLine} (less : a.number < b.number) : a ≠ b := by
    rintro rfl
    exact Nat.lt_irrefl _ less
  refine (List.perm_ext_iff_of_nodup (ordered.imp distinct) (selected.imp distinct)).mpr fun l => ?_
  rw [members, List.mem_filter]

/-- The headers are found among the solid lines. -/
theorem headers_eq_filterMap (doc : Document) :
    Section.headers doc.lines =
      doc.solid.filterMap fun l => (headerName? l.text).map fun name => (l.number, name) := by
  rw [solid, List.filterMap_filter, numbered, List.filterMap_map, Section.headers]
  refine List.filterMap_congr fun line _ => ?_
  obtain ⟨text, number⟩ := line
  dsimp only [Function.comp_apply]
  cases header : headerName? text with
  | none => simp
  | some name => simp [isVoid_of_headerName? header]

/-- A solid line is in the body of the section it is in, unless it is a header. -/
def isBodyOf (doc : Document) (s : Section) (l : NumberedLine) : Bool :=
  (headerName? l.text).isNone && (doc.sectionAt? l.number).map Section.startLine == some s.startLine

/-- A line with content is in the body of a section if it is no header and a cursor on it is there. -/
theorem mem_body_and_solid_iff (here : s ∈ doc.sections) :
    l ∈ doc.body s ∧ l.content.isEmpty = false ↔
      l ∈ doc.solid ∧ headerName? l.text = none ∧ doc.sectionAt? l.number = some s := by
  have content : l.content.isEmpty = false ↔ l.text.isVoid = false := by
    rw [← Bool.not_eq_true, NumberedLine.content_isEmpty_iff, Bool.not_eq_true]
    rfl
  rw [content]
  constructor
  · rintro ⟨inside, full⟩
    obtain ⟨positive, found⟩ := mem_numbered_iff.mp (mem_numbered_of_mem_body here inside)
    exact ⟨mem_solid_iff.mpr ⟨positive, found, full⟩, headerName?_of_mem_body here inside,
      sectionAt?_of_mem_body here inside⟩
  · rintro ⟨member, notHeader, found⟩
    have full := (mem_solid_iff.mp member).2.2
    have text := line_of_mem_solid member
    refine ⟨?_, full⟩
    rcases mem_body_or_allBlank_of_sectionAt? found (text ▸ notHeader) with inside | blank
    · rwa [text] at inside
    · rw [text] at blank
      have void : l.text.isVoid = true :=
        allBlank_iff.mpr fun c inside => allBlank_iff.mp blank c (mem_of_mem_uncommented inside)
      rw [void] at full
      cases full

/-- The solid lines of chosen sections are those that are no headers and in a chosen section. -/
theorem solidLines_filter (doc : Document) (p : Section → Bool) :
    doc.solidLines (doc.sections.filter p) =
      doc.contents.filter fun l => (doc.sectionAt? l.number).any p := by
  have ordered : ((doc.sections.filter p).flatMap doc.body).Pairwise
      fun a b => a.number < b.number := by
    refine List.pairwise_flatMap.mpr ⟨fun s _ => body_pairwise doc s, ?_⟩
    refine ((sections_pairwise doc).imp ?_).filter p
    intro s t apart a left b right
    obtain ⟨-, upTo, -⟩ := mem_body_iff.mp left
    obtain ⟨behind, -, -⟩ := mem_body_iff.mp right
    omega
  rw [contents, List.filter_filter]
  refine eq_filter_solid (ordered.filter _) fun l => ?_
  rw [mem_solidLines_iff, Bool.and_eq_true, Option.isNone_iff_eq_none, Option.any_eq_true]
  constructor
  · rintro ⟨⟨s, chosen, inside⟩, full⟩
    obtain ⟨here, marked⟩ := List.mem_filter.mp chosen
    obtain ⟨member, notHeader, found⟩ := (mem_body_and_solid_iff here).mp ⟨inside, full⟩
    exact ⟨member, ⟨s, found, marked⟩, notHeader⟩
  · rintro ⟨member, ⟨s, found, marked⟩, notHeader⟩
    have here := mem_sections_of_sectionAt? found
    obtain ⟨inside, full⟩ := (mem_body_and_solid_iff here).mpr ⟨member, notHeader, found⟩
    exact ⟨⟨s, List.mem_filter.mpr ⟨here, marked⟩, inside⟩, full⟩

theorem solidLines_pairwise (doc : Document) (kind : SectionKind) :
    (doc.solidLines (doc.sectionsOf kind)).Pairwise fun a b => a.number < b.number := by
  rw [sectionsOf, solidLines_filter]
  exact ((solid_pairwise doc).filter _).filter _

theorem solidLines_eq_filter (here : s ∈ doc.sections) :
    doc.solidLines [s] = doc.solid.filter (doc.isBodyOf s) := by
  have whole : doc.solidLines [s] = (doc.body s).filter fun l => !l.content.isEmpty := by
    rw [solidLines, List.flatMap_singleton]
  have ordered := (body_pairwise doc s).filter fun l => !l.content.isEmpty
  rw [← whole] at ordered
  refine eq_filter_solid ordered fun l => ?_
  rw [whole, List.mem_filter, Bool.not_eq_true', mem_body_and_solid_iff here, isBodyOf,
    Bool.and_eq_true, beq_iff_eq, Option.isNone_iff_eq_none]
  refine and_congr_right fun _ => and_congr_right fun _ => ⟨fun found => by rw [found]; rfl, ?_⟩
  intro owner
  obtain ⟨t, found, same⟩ := Option.map_eq_some_iff.mp owner
  have there := mem_sections_of_sectionAt? found
  have order := startLine_le_endLine there
  rcases sections_apart there here with rfl | before | after
  · exact found
  · omega
  · have order := startLine_le_endLine here
    omega

/-- Solid lines are found section by section. -/
theorem solidLines_eq_flatMap (doc : Document) (sections : List Section) :
    doc.solidLines sections = sections.flatMap fun s => doc.solidLines [s] := by
  rw [solidLines, List.filter_flatMap]
  refine List.flatMap_congr fun s _ => ?_
  rw [solidLines, List.flatMap_singleton]

/-- A solid line that moves to one of the other document stands there at its new number. -/
theorem uncommented_line {lines : List NumberedLine}
    (moved : List.Forall₂ (NumberedLine.Moved f) doc.solid lines)
    (among : ∀ l' ∈ lines, l' ∈ doc'.solid) {n : Nat} (content : (doc.line n).isVoid = false) :
    (doc'.line (f n)).uncommented = (doc.line n).uncommented := by
  obtain ⟨i, inside, found⟩ := List.getElem_of_mem (mem_solid_of_line content)
  have inside' : i < lines.length := moved.length_eq ▸ inside
  have here := moved.get inside inside'
  rw [List.get_eq_getElem, List.get_eq_getElem, found] at here
  have text := line_of_mem_solid (among _ (List.getElem_mem inside'))
  rw [here.number] at text
  rw [text, here.bare]

/-- The sections start at the headers, so they move to the sections that start at chosen lines if the
solid lines move to the chosen ones. -/
theorem sections_moved (p : Nat → Bool) (moved : List.Forall₂ (NumberedLine.Moved f) doc.solid
    (doc'.solid.filter fun l => p l.number)) :
    List.Forall₂ (Section.Moved f) doc.sections (doc'.sections.filter fun s => p s.startLine) := by
  have headers : (Section.headers doc'.lines).filter (fun h => p h.1) =
      (Section.headers doc.lines).map fun h => (f h.1, h.2) := by
    have chosen : (Section.headers doc'.lines).filter (fun h => p h.1) =
        (doc'.solid.filter fun l => p l.number).filterMap
          fun l => (headerName? l.text).map fun name => (l.number, name) := by
      rw [headers_eq_filterMap, List.filter_filterMap, List.filterMap_filter]
      refine List.filterMap_congr fun l _ => ?_
      cases headerName? l.text <;> simp [Option.filter]
    rw [chosen, headers_eq_filterMap]
    apply moved.filterMap_eq_map
    intro l l' line
    rw [line.headerName?, line.number, Option.map_map]
    rfl
  have related : List.Forall₂ (fun s s' : Section => (s'.startLine, s'.name) = (f s.startLine, s.name))
      doc.sections (doc'.sections.filter fun s => p s.startLine) := by
    apply List.forall₂_of_map_eq
    rw [← Section.map_between doc.lines (Section.headers doc.lines), List.map_map,
      ← Section.map_between doc'.lines (Section.headers doc'.lines), List.filter_map] at headers
    exact headers
  refine related.imp fun s s' same => ?_
  obtain ⟨start, name⟩ := Prod.mk.inj same
  exact ⟨name, start⟩

namespace Moved

variable (moved : doc.Moved f doc')

include moved

/-- A solid line stands at its new number, but for its comment. -/
theorem line {n : Nat} (content : (doc.line n).isVoid = false) :
    (doc'.line (f n)).uncommented = (doc.line n).uncommented :=
  uncommented_line moved.solid (fun _ member => member) content

theorem sections : List.Forall₂ (Section.Moved f) doc.sections doc'.sections := by
  have all : List.Forall₂ (Section.Moved f) doc.sections (doc'.sections.filter fun _ => true) :=
    sections_moved (fun _ => true) (by rw [List.filter_true]; exact moved.solid)
  rwa [List.filter_true] at all

theorem sectionAt? (n : Nat) :
    Option.Rel (Section.Moved f) (doc.sectionAt? n) (doc'.sectionAt? (f n)) := by
  rw [sectionAt?_eq_find?, sectionAt?_eq_find?]
  refine (List.rel_reverse moved.sections).find? fun s s' same => ?_
  rw [same.startLine, Bool.eq_iff_iff, decide_eq_true_iff, decide_eq_true_iff,
    moved.mono.lt_iff_lt]

/-- The solid lines of a section move with it. -/
theorem solidLines_singleton (here : s ∈ doc.sections) (there : s' ∈ doc'.sections)
    (same : s.Moved f s') :
    List.Forall₂ (NumberedLine.Moved f) (doc.solidLines [s]) (doc'.solidLines [s']) := by
  rw [solidLines_eq_filter here, solidLines_eq_filter there]
  refine List.rel_filter (fun l l' line => ?_) moved.solid
  have owner := moved.sectionAt? l.number
  change doc.isBodyOf s l = true ↔ doc'.isBodyOf s' l' = true
  rw [isBodyOf, isBodyOf, line.headerName?, line.number, same.startLine]
  generalize doc.sectionAt? l.number = t?, doc'.sectionAt? (f l.number) = t'? at owner
  cases owner with
  | none => rfl
  | some known => simp [known.startLine, moved.mono.injective.eq_iff]

/-- A section and the one that it moves to are in their documents. -/
theorem sections_mem : List.Forall₂
    (fun s s' => (s ∈ doc.sections ∧ s' ∈ doc'.sections) ∧ s.Moved f s') doc.sections doc'.sections := by
  have both : List.Forall₂ (fun s s' => s' ∈ doc'.sections ∧ s.Moved f s') doc.sections doc'.sections := by
    have flipped := (List.forall₂_and_left _ _).mpr
      ⟨fun s' (member : s' ∈ doc'.sections) => member, moved.sections.flip⟩
    exact flipped.flip
  have all := (List.forall₂_and_left _ _).mpr
    ⟨fun s (member : s ∈ doc.sections) => member, both⟩
  exact all.imp fun s s' ⟨here, there, same⟩ => ⟨⟨here, there⟩, same⟩

/-- The sites of a name move with their lines. -/
theorem sites (name : Text) (declarations : Bool) :
    doc'.sites name declarations = (doc.sites name declarations).map (NameSite.moved f) := by
  have walk (d : Document) : d.siteWalk name declarations = d.sections.flatMap fun s =>
      (d.solidLines [s]).flatMap fun l => l.sites s.kind? name declarations := by
    refine List.flatMap_congr fun s _ => ?_
    rw [flatMap_solidLines [s] fun l empty =>
      NumberedLine.sites_of_isEmpty empty s.kind? name declarations, List.flatMap_singleton]
  by_cases named : IsName name
  · rw [sites_eq_walk _ _ named, sites_eq_walk _ _ named, walk, walk]
    apply moved.sections_mem.flatMap_eq_map
    rintro s s' ⟨⟨here, there⟩, same⟩
    apply (moved.solidLines_singleton here there same).flatMap_eq_map
    intro l l' line
    rw [same.kind?]
    exact line.sites s.kind? name declarations
  · rw [sites_eq_nil named, sites_eq_nil named, List.map_nil]

end Moved

end Document

end ProxyConfig
