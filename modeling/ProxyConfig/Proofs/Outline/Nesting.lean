import ProxyConfig.Proofs.Client.Queries
import ProxyConfig.Proofs.Outline.Lines
import ProxyConfig.Proofs.Position
import ProxyConfig.Proofs.Validation.InDocument

/-! # The nesting of the outline

The outline is a tree of ranges: a name is in the range of its symbol, the ranges below a symbol are
in its own, and neighbours stand one behind the other. On a line this is the order of the columns that
an entry and its arguments are read at; sections and their lines are in the order of the lines. The
order of two positions of a document does not depend on the units in which columns are counted.
-/

namespace ProxyConfig

namespace Symbol

variable {R S : Type} {within precedes : R → R → Prop} {within' precedes' : S → S → Prop}

mutual

/-- The name of the symbol and everything below it are in its range, at every depth. -/
def WellNested (within precedes : R → R → Prop) : Symbol R → Prop
  | node _ _ _ range selection children =>
    within selection range ∧ (∀ child ∈ children, within child.range range) ∧
      WellNestedAll within precedes children

/-- The symbols stand one behind the other, and each of them is well nested. -/
def WellNestedAll (within precedes : R → R → Prop) : List (Symbol R) → Prop
  | [] => True
  | symbol :: rest =>
    symbol.WellNested within precedes ∧ (∀ later ∈ rest, precedes symbol.range later.range) ∧
      WellNestedAll within precedes rest

end

theorem wellNestedAll_iff {symbols : List (Symbol R)} :
    WellNestedAll within precedes symbols ↔
      (∀ symbol ∈ symbols, symbol.WellNested within precedes) ∧
        symbols.Pairwise fun a b => precedes a.range b.range := by
  induction symbols with
  | nil => simp [WellNestedAll]
  | cons symbol rest ih =>
    rw [WellNestedAll, ih, List.forall_mem_cons, List.pairwise_cons]
    tauto

mutual

/-- Nesting survives a change of the ranges that keeps their order. -/
theorem WellNested.map {f : R → S} (inside : ∀ r outer, within r outer → within' (f r) (f outer))
    (behind : ∀ r later, precedes r later → precedes' (f r) (f later)) :
    ∀ symbol : Symbol R, symbol.WellNested within precedes →
      (symbol.map f).WellNested within' precedes'
  | node _ _ _ range selection children, ⟨name, below, nested⟩ => by
    refine ⟨inside _ _ name, fun image member => ?_, WellNestedAll.map inside behind children nested⟩
    rw [mapAll_eq_map] at member
    obtain ⟨child, here, rfl⟩ := List.mem_map.mp member
    rw [range_map]
    exact inside _ _ (below child here)

theorem WellNestedAll.map {f : R → S} (inside : ∀ r outer, within r outer → within' (f r) (f outer))
    (behind : ∀ r later, precedes r later → precedes' (f r) (f later)) :
    ∀ symbols : List (Symbol R), WellNestedAll within precedes symbols →
      WellNestedAll within' precedes' (mapAll f symbols)
  | [], _ => trivial
  | symbol :: rest, ⟨here, order, nested⟩ => by
    refine ⟨WellNested.map inside behind symbol here, fun image member => ?_,
      WellNestedAll.map inside behind rest nested⟩
    rw [mapAll_eq_map] at member
    obtain ⟨later, there, rfl⟩ := List.mem_map.mp member
    rw [range_map, range_map]
    exact behind _ _ (order later there)

end

end Symbol

/-! ## Ranges of one document -/

namespace Document

/-- A position at a character of a line, or behind the last one. -/
structure Holds (doc : Document) (p : Position) : Prop where
  line_pos : 1 ≤ p.line
  line_le : p.line ≤ doc.lineCount
  column_pos : 1 ≤ p.column
  column_le : p.column ≤ (doc.line p.line).length + 1

/-- One range of the document lies in another one. -/
structure Nests (doc : Document) (r outer : Range) : Prop where
  start : doc.Holds r.start
  stop : doc.Holds r.stop
  outerStart : doc.Holds outer.start
  outerStop : doc.Holds outer.stop
  within : r.Within outer

/-- One range of the document stands in front of another one. -/
structure Leads (doc : Document) (r later : Range) : Prop where
  start : doc.Holds r.start
  stop : doc.Holds r.stop
  laterStart : doc.Holds later.start
  precedes : r.Precedes later

/-- A symbol stands in a span of a line, with all that is below it. -/
structure Shows (doc : Document) (line : Nat) (a : Span) (symbol : Symbol) : Prop where
  located : symbol.range.PointsInto doc
  onLine : symbol.range.start.line = line
  starts : a.column ≤ symbol.range.start.column
  ends : symbol.range.stop.column ≤ a.endColumn
  nested : symbol.WellNested doc.Nests doc.Leads

/-- Symbols that stand in arguments of a line, one behind the other. -/
structure ShowsEach (doc : Document) (line : Nat) (arguments : List Span)
    (symbols : List Symbol) : Prop where
  nested : Symbol.WellNestedAll doc.Nests doc.Leads symbols
  shown : ∀ symbol ∈ symbols, ∃ a ∈ arguments, doc.Shows line a symbol

end Document

variable {doc : Document} {line : Nat} {a b : Span}

open ProxyConfig.Symbol ProxyConfig.Document

namespace Range.PointsInto

variable {r outer later : Range}

theorem start (located : r.PointsInto doc) : doc.Holds r.start where
  line_pos := located.line_pos
  line_le := located.line_le
  column_pos := located.column_pos
  column_le := located.ordered.trans located.column_le

theorem stop (located : r.PointsInto doc) : doc.Holds r.stop where
  line_pos := located.sameLine ▸ located.line_pos
  line_le := located.sameLine ▸ located.line_le
  column_pos := located.column_pos.trans located.ordered
  column_le := located.sameLine.symm ▸ located.column_le

/-- On one line, a range is in another one if its columns are. -/
theorem nests (inner : r.PointsInto doc) (whole : outer.PointsInto doc)
    (sameLine : r.start.line = outer.start.line) (starts : outer.start.column ≤ r.start.column)
    (ends : r.stop.column ≤ outer.stop.column) : doc.Nests r outer := by
  have lines := inner.sameLine
  have outerLines := whole.sameLine
  have order := inner.ordered
  refine ⟨inner.start, inner.stop, whole.start, whole.stop, ?_⟩
  simp only [Within, Position.upTo_iff]
  omega

/-- On one line, a range stands in front of another one if a column is between them. -/
theorem leads (first : r.PointsInto doc) (second : later.PointsInto doc)
    (sameLine : r.start.line = later.start.line) (apart : r.stop.column < later.start.column) :
    doc.Leads r later := by
  have lines := first.sameLine
  have order := first.ordered
  refine ⟨first.start, first.stop, second.start, ?_⟩
  simp only [Precedes, Position.before_iff]
  omega

/-- Ranges on different lines are in the order of the lines. -/
theorem leads_of_lt (first : r.PointsInto doc) (second : later.PointsInto doc)
    (before : r.start.line < later.start.line) : doc.Leads r later := by
  have lines := first.sameLine
  refine ⟨first.start, first.stop, second.start, ?_⟩
  simp only [Precedes, Position.before_iff]
  omega

end Range.PointsInto

/-! ## Symbols of arguments -/

namespace Document.Shows

variable {symbol other : Symbol}

theorem leads (first : doc.Shows line a symbol) (second : doc.Shows line b other)
    (apart : a.endColumn < b.column) : doc.Leads symbol.range other.range := by
  have ends := first.ends
  have starts := second.starts
  exact first.located.leads second.located (first.onLine.trans second.onLine.symm) (by omega)

/-- A span shows itself. -/
theorem ofSpan (located : (a.range line).PointsInto doc) (detail : String) (kind : SymbolKind) :
    doc.Shows line a (.ofSpan a line detail kind) where
  located := located
  onLine := rfl
  starts := le_rfl
  ends := le_rfl
  nested := ⟨located.nests located rfl le_rfl le_rfl, by simp, trivial⟩

/-- The symbol of an entry in a span, with symbols of its arguments below it. -/
theorem ofEntry {e : Entry} {children : List Symbol} (located : (a.range line).PointsInto doc)
    (read : a.property? line = some e) (below : doc.ShowsEach line e.arguments.toList children)
    (detail : String) (kind : SymbolKind) :
    doc.Shows line a (.ofEntry e detail kind children) := by
  have whole := Span.located_of_property? located read
  have sameLine := Entry.line_of_parse? read
  obtain ⟨starts, order⟩ := Entry.key_before_value_of_parse? read
  obtain ⟨behind, ends⟩ := Entry.value_inside_of_parse? read
  have key : e.key.column ≤ e.key.endColumn := Nat.le_add_right _ _
  have value : e.value.column ≤ e.value.endColumn := Nat.le_add_right _ _
  refine ⟨whole.range, sameLine, starts, ends, ?_, ?_, below.nested⟩
  · refine whole.key.nests whole.range rfl le_rfl ?_
    change e.key.endColumn ≤ e.value.endColumn
    omega
  · intro child member
    obtain ⟨b, inside, shows⟩ := below.shown child member
    have left := Entry.le_column_of_mem_arguments inside
    have right := Entry.endColumn_le_of_mem_arguments inside
    refine shows.located.nests whole.range (shows.onLine.trans sameLine.symm) ?_ ?_
    · have first := shows.starts
      change e.key.column ≤ child.range.start.column
      omega
    · exact shows.ends.trans right

end Document.Shows

namespace Document.ShowsEach

variable {arguments others : List Span} {symbols behind : List Symbol}

theorem nil : doc.ShowsEach line arguments [] := ⟨trivial, by simp⟩

theorem mono (shows : doc.ShowsEach line arguments symbols) (more : arguments ⊆ others) :
    doc.ShowsEach line others symbols :=
  ⟨shows.nested, fun symbol member =>
    (shows.shown symbol member).imp fun _ inside => ⟨more inside.1, inside.2⟩⟩

/-- Each argument shows one symbol at most. -/
theorem filterMap {symbol? : Span → Option Symbol}
    (apart : arguments.Pairwise fun a b => a.endColumn < b.column)
    (each : ∀ a ∈ arguments, ∀ symbol, symbol? a = some symbol → doc.Shows line a symbol) :
    doc.ShowsEach line arguments (arguments.filterMap symbol?) := by
  have shown symbol (member : symbol ∈ arguments.filterMap symbol?) :
      ∃ a ∈ arguments, doc.Shows line a symbol := by
    obtain ⟨a, inside, found⟩ := List.mem_filterMap.mp member
    exact ⟨a, inside, each a inside symbol found⟩
  refine ⟨wellNestedAll_iff.mpr ⟨fun symbol member => ?_, ?_⟩, shown⟩
  · obtain ⟨a, -, shows⟩ := shown symbol member
    exact shows.nested
  · refine List.pairwise_filterMap.mpr (apart.imp_of_mem ?_)
    intro a b left right less first firstFound second secondFound
    exact (each a left first firstFound).leads (each b right second secondFound) less

theorem append (first : doc.ShowsEach line arguments symbols)
    (second : doc.ShowsEach line others behind)
    (apart : ∀ a ∈ arguments, ∀ b ∈ others, a.endColumn < b.column) :
    doc.ShowsEach line (arguments ++ others) (symbols ++ behind) := by
  obtain ⟨here, order⟩ := wellNestedAll_iff.mp first.nested
  obtain ⟨there, later⟩ := wellNestedAll_iff.mp second.nested
  refine ⟨wellNestedAll_iff.mpr ⟨List.forall_mem_append.mpr ⟨here, there⟩,
    List.pairwise_append.mpr ⟨order, later, ?_⟩⟩, List.forall_mem_append.mpr ⟨?_, ?_⟩⟩
  · intro symbol left other right
    obtain ⟨a, inside, shows⟩ := first.shown symbol left
    obtain ⟨b, among, showsOther⟩ := second.shown other right
    exact shows.leads showsOther (apart a inside b among)
  · exact (first.mono (List.subset_append_left ..)).shown
  · exact (second.mono (List.subset_append_right ..)).shown

end Document.ShowsEach

namespace Entry

variable {e : Entry} (located : e.Located doc)

include located

theorem shows_propertySymbol? {a : Span} (member : a ∈ e.arguments.toList) {symbol : Symbol}
    (found : e.propertySymbol? a = some symbol) : doc.Shows e.line a symbol := by
  obtain ⟨property, kept, rfl⟩ := Option.map_eq_some_iff.mp found
  have read := (Option.filter_eq_some_iff.mp kept).1
  exact .ofEntry (located.argument member) read .nil _ _

theorem shows_spanSymbol? {a : Span} (member : a ∈ e.arguments.toList) {symbol : Symbol}
    {detail : String} {kind : SymbolKind} (found : e.spanSymbol? detail kind a = some symbol) :
    doc.Shows e.line a symbol := by
  rw [spanSymbol?] at found
  split at found
  · cases found
  · rw [← Option.some.inj found]
    exact .ofSpan (located.argument member) _ _

theorem showsEach_propertySymbols :
    doc.ShowsEach e.line e.arguments.properties e.propertySymbols := by
  rw [propertySymbols_eq]
  exact .filterMap (e.arguments_pairwise.sublist (List.dropWhile_sublist _))
    fun a member symbol => shows_propertySymbol? located (Pieces.mem_of_mem_properties member)

theorem showsEach_spanSymbols {spans : List Span} (among : spans.Sublist e.arguments.toList)
    (detail : String) (kind : SymbolKind) :
    doc.ShowsEach e.line spans (e.spanSymbols spans detail kind) := by
  rw [spanSymbols_eq]
  exact .filterMap (e.arguments_pairwise.sublist among)
    fun a member symbol => shows_spanSymbol? located (among.subset member)

/-- The actors of a group stand in front of its properties. -/
theorem showsEach_groupSymbols :
    doc.ShowsEach e.line e.arguments.toList
      (e.spanSymbols e.arguments.operands "actor" .actor ++ e.propertySymbols) := by
  have operands : e.arguments.operands.Sublist e.arguments.toList :=
    (List.tail_sublist _).trans (List.takeWhile_sublist _)
  have parts : (e.arguments.operands ++ e.arguments.properties).Sublist e.arguments.toList := by
    conv_rhs => rw [← List.takeWhile_append_dropWhile (p := Span.isPlain) (l := e.arguments.toList)]
    exact (List.tail_sublist _).append_right _
  have apart := List.pairwise_append.mp (e.arguments_pairwise.sublist parts)
  exact (ShowsEach.append (showsEach_spanSymbols located operands "actor" .actor)
    (showsEach_propertySymbols located) apart.2.2).mono parts.subset

end Entry

/-! ## Lines and sections -/

namespace NumberedLine

variable {l : NumberedLine}

/-- What a line holds behind its type lies in the content of the line, and so does the type. -/
theorem inside_content {a : Span} (member : a ∈ l.pieces.toList) (solid : a.text ≠ []) :
    a.Inside l.content := by
  obtain ⟨first, others⟩ := Pieces.read_trimmed 1 l.text.uncommented
  have listed : a ∈ (Pieces.read l.content.column l.content.text).toList := by
    rw [content, Span.text_trimmed]
    rcases List.mem_cons.mp member with same | member
    · subst same
      rcases first with same | ⟨-, void⟩
      · exact List.mem_cons.mpr (.inl same.symm)
      · exact absurd void solid
    · exact List.mem_cons_of_mem _ (others ▸ member)
  exact ⟨Pieces.le_column_of_mem_read listed, Pieces.endColumn_le_of_mem_read listed⟩

/-- The whole line, its comment included. -/
def whole (l : NumberedLine) : Span := ⟨l.text, 1⟩

variable (real : l.IsLineOf doc) {symbol : Symbol}

include real

theorem IsLineOf.whole : (l.whole.range l.number).PointsInto doc := by
  refine Span.pointsInto_of_le real.number_pos real.number_le le_rfl ?_
  rw [real.text, Nat.add_comm]
  exact le_rfl

theorem shows_ofEntry {e : Entry} {children : List Symbol} (keyed : l.keyed? = some e)
    (below : e.Located doc → doc.ShowsEach e.line e.arguments.toList children)
    (detail : String) (kind : SymbolKind) :
    doc.Shows l.number l.whole (.ofEntry e detail kind children) := by
  have read : l.whole.property? l.number = some e := (Option.filter_eq_some_iff.mp keyed).1
  have sameLine := Entry.line_of_parse? read
  rw [sameLine] at below
  exact .ofEntry real.whole read (below (Span.located_of_property? real.whole read)) detail kind

theorem shows_ruleSymbol? (found : l.ruleSymbol? = some symbol) :
    doc.Shows l.number l.whole symbol := by
  obtain ⟨rule, known, found⟩ := Option.bind_eq_some_iff.mp found
  split at found
  · cases found
  obtain ⟨target, piece, found⟩ := Option.bind_eq_some_iff.mp found
  rw [← Option.some.inj found]
  have solid : l.pieces.first.text ≠ [] := by
    rw [← Keyword.text_of_parse? known]
    cases rule <;> decide
  have type : l.pieces.first ∈ l.pieces.toList := List.mem_cons_self ..
  have name := inside_content type solid
  have starts := Span.le_column_trimmed 1 l.text.uncommented
  have ends := (Span.endColumn_trimmed_le 1 l.text.uncommented).trans
    (Nat.add_le_add_left (List.takeWhile_sublist _).length_le 1)
  refine ⟨real.content, rfl, starts, ends, ?_, ?_, ?_⟩
  · exact (real.piece type).nests real.content rfl name.starts name.ends
  · intro child member
    split at member
    · cases member
    · next solidTarget =>
      obtain rfl := List.mem_singleton.mp member
      have among : target ∈ l.pieces.toList := List.mem_of_getElem? piece
      have inside := inside_content among (by simpa [Span.isEmpty] using solidTarget)
      exact (real.piece among).nests real.content rfl inside.starts inside.ends
  · split
    · trivial
    · have among : target ∈ l.pieces.toList := List.mem_of_getElem? piece
      exact ⟨(Shows.ofSpan (real.piece among) _ _).nested, by simp, trivial⟩

/-- What a line shows in an outline stands on the line. -/
theorem shows_symbol? {kind : SectionKind} (found : l.symbol? kind = some symbol) :
    doc.Shows l.number l.whole symbol := by
  cases kind with
  | rule => exact shows_ruleSymbol? real found
  | onDemand => cases found
  | general | env =>
    obtain ⟨e, keyed, rfl⟩ := Option.map_eq_some_iff.mp found
    exact shows_ofEntry real keyed (fun _ => .nil) _ _
  | proxy =>
    obtain ⟨e, keyed, rfl⟩ := Option.map_eq_some_iff.mp found
    refine shows_ofEntry real keyed (fun located => ?_) _ _
    exact (Entry.showsEach_propertySymbols located).mono (List.dropWhile_sublist _).subset
  | proxyGroup =>
    obtain ⟨e, keyed, rfl⟩ := Option.map_eq_some_iff.mp found
    exact shows_ofEntry real keyed Entry.showsEach_groupSymbols _ _
  | host =>
    obtain ⟨e, keyed, rfl⟩ := Option.map_eq_some_iff.mp found
    exact shows_ofEntry real keyed
      (fun located => Entry.showsEach_spanSymbols located (List.Sublist.refl _) _ _) _ _

end NumberedLine

namespace Document

variable {s t : Section}

theorem holds_sectionRange (here : s ∈ doc.sections) :
    doc.Holds (doc.sectionRange s).start ∧ doc.Holds (doc.sectionRange s).stop := by
  have first := startLine_pos here
  have order := startLine_le_endLine here
  have last := endLine_le_lineCount here
  exact ⟨⟨first, order.trans last, le_rfl, Nat.le_add_left _ _⟩,
    ⟨first.trans_le order, last, Nat.le_add_left _ _, le_rfl⟩⟩

/-- A range on a line of a section is in the range of the section. -/
theorem nests_sectionRange (here : s ∈ doc.sections) {r : Range} (located : r.PointsInto doc)
    (starts : s.startLine ≤ r.start.line) (ends : r.start.line ≤ s.endLine) :
    doc.Nests r (doc.sectionRange s) := by
  obtain ⟨first, last⟩ := holds_sectionRange here
  refine ⟨located.start, located.stop, first, last, ?_⟩
  have sameLine := located.sameLine
  have left := located.column_pos
  have order := located.ordered
  have right := located.stop.column_le
  simp only [Range.Within, Position.upTo_iff, sectionRange]
  rcases Nat.lt_or_ge r.start.line s.endLine with before | behind
  · omega
  · rw [sameLine, show r.start.line = s.endLine by omega] at right
    omega

theorem wellNested_section (here : s ∈ doc.sections) (kind : SectionKind) (name : String) :
    (Symbol.node name "section" .header (doc.sectionRange s) s.nameRange
      (doc.lineSymbols s kind)).WellNested doc.Nests doc.Leads := by
  have shows (l : NumberedLine) (inside : l ∈ doc.body s) (symbol : Symbol)
      (found : l.symbol? kind = some symbol) : doc.Shows l.number l.whole symbol :=
    NumberedLine.shows_symbol? (isLineOf_of_mem_body here inside) found
  rw [lineSymbols_eq]
  refine ⟨?_, fun child member => ?_, wellNestedAll_iff.mpr ⟨fun symbol member => ?_, ?_⟩⟩
  · exact nests_sectionRange here (pointsInto_nameRange here) le_rfl (startLine_le_endLine here)
  · obtain ⟨l, inside, found⟩ := List.mem_filterMap.mp member
    obtain ⟨behind, upTo, -⟩ := mem_body_iff.mp inside
    have stands := shows l inside child found
    refine nests_sectionRange here stands.located ?_ ?_
    · rw [stands.onLine]
      exact behind.le
    · rwa [stands.onLine]
  · obtain ⟨l, inside, found⟩ := List.mem_filterMap.mp member
    exact (shows l inside symbol found).nested
  · refine List.pairwise_filterMap.mpr ((body_pairwise doc s).imp_of_mem ?_)
    intro l m left right less first firstFound second secondFound
    have before := shows l left first firstFound
    have after := shows m right second secondFound
    refine before.located.leads_of_lt after.located ?_
    rwa [before.onLine, after.onLine]

theorem leads_sectionRange (here : s ∈ doc.sections) (there : t ∈ doc.sections)
    (apart : s.endLine < t.startLine) : doc.Leads (doc.sectionRange s) (doc.sectionRange t) := by
  obtain ⟨first, last⟩ := holds_sectionRange here
  have order := startLine_le_endLine here
  refine ⟨first, last, (holds_sectionRange there).1, ?_⟩
  simp only [Range.Precedes, Position.before_iff, sectionRange]
  omega

/-- The outline is well nested at every depth, and its sections stand one behind the other. -/
theorem wellNestedAll_outline (doc : Document) :
    WellNestedAll doc.Nests doc.Leads doc.outline := by
  have shape (s : Section) (symbol : Symbol) (found : doc.sectionSymbol? s = some symbol) :
      ∃ name kind, symbol = .node name "section" .header (doc.sectionRange s) s.nameRange
        (doc.lineSymbols s kind) := by
    obtain ⟨kind, -, found⟩ := Option.bind_eq_some_iff.mp found
    split at found
    · cases found
    · exact ⟨_, kind, (Option.some.inj found).symm⟩
  refine wellNestedAll_iff.mpr ⟨fun symbol member => ?_, ?_⟩
  · obtain ⟨s, here, found⟩ := List.mem_filterMap.mp member
    obtain ⟨name, kind, rfl⟩ := shape s symbol found
    exact wellNested_section here kind name
  · refine List.pairwise_filterMap.mpr ((sections_pairwise doc).imp_of_mem ?_)
    intro s t here there apart first firstFound second secondFound
    obtain ⟨_, _, rfl⟩ := shape s first firstFound
    obtain ⟨_, _, rfl⟩ := shape t second secondFound
    exact leads_sectionRange here there apart

end Document

/-! ## The outline of a client -/

namespace ClientRange

/-- The range with its coordinates counted from 1, which keeps their order. -/
def toRange (r : ClientRange) : Range := ⟨r.start.toPosition, r.stop.toPosition⟩

def Within (r outer : ClientRange) : Prop := r.toRange.Within outer.toRange

def Precedes (r later : ClientRange) : Prop := r.toRange.Precedes later.toRange

end ClientRange

namespace ClientView

variable {view : ClientView} {p q : Position} {r outer later : Range}

section Fits

variable (lines : view.doc.lineCount ≤ UInt32.size)
  (columns : ∀ line ∈ view.doc.lines, view.encoding.offset line line.length < UInt32.size)

theorem unitsBefore_mono (line : Nat) {first second : Nat} (order : first ≤ second) :
    view.unitsBefore line first ≤ view.unitsBefore line second :=
  (view.encoding.offset_strictMono _).monotone (Nat.sub_le_sub_right order 1)

include columns

theorem unitsBefore_lt_size (inside : view.doc.Holds p) :
    view.unitsBefore p.line p.column < UInt32.size := by
  refine (view.unitsBefore_mono p.line inside.column_le).trans_lt ?_
  change view.encoding.offset (view.doc.line p.line) (view.doc.line p.line).length < _
  by_cases void : view.doc.line p.line = []
  · rw [void]
    exact (by decide : 0 < UInt32.size)
  · exact columns _ (List.mem_of_getElem? (Document.mem_lines_of_line_ne_nil void).2)

include lines

/-- A position of the document reaches the client with its units. -/
theorem toPosition_clientPosition (inside : view.doc.Holds p) :
    (view.clientPosition p).toPosition = ⟨p.line, view.unitsBefore p.line p.column + 1⟩ := by
  have fits := unitsBefore_lt_size columns inside
  have sameLine : (view.clientPosition p).line.toNat + 1 = p.line :=
    Position.toNat_line_toClient inside.line_pos (inside.line_le.trans lines)
  rw [ClientPosition.toPosition, sameLine, view.toNat_character_clientPosition fits]

theorem before_clientPosition (left : view.doc.Holds p) (right : view.doc.Holds q)
    (order : p.before q = true) :
    (view.clientPosition p).toPosition.before (view.clientPosition q).toPosition = true := by
  rw [toPosition_clientPosition lines columns left, toPosition_clientPosition lines columns right]
  rw [Position.before_iff] at order ⊢
  rcases order with before | ⟨sameLine, less⟩
  · exact .inl before
  · have grows := view.unitsBefore_lt p.line left.column_pos less
    rw [← sameLine]
    exact .inr ⟨rfl, Nat.add_lt_add_right grows 1⟩

theorem upTo_clientPosition (left : view.doc.Holds p) (right : view.doc.Holds q)
    (order : p.upTo q = true) :
    (view.clientPosition p).toPosition.upTo (view.clientPosition q).toPosition = true := by
  rw [toPosition_clientPosition lines columns left, toPosition_clientPosition lines columns right]
  rw [Position.upTo_iff] at order ⊢
  rcases order with before | ⟨sameLine, less⟩
  · exact .inl before
  · have grows := view.unitsBefore_mono p.line less
    rw [← sameLine]
    exact .inr ⟨rfl, Nat.add_le_add_right grows 1⟩

theorem within_clientRange (nests : view.doc.Nests r outer) :
    (view.clientRange r).Within (view.clientRange outer) := by
  obtain ⟨start, stop, outerStart, outerStop, first, order, last⟩ := nests
  exact ⟨upTo_clientPosition lines columns outerStart start first,
    upTo_clientPosition lines columns start stop order,
    upTo_clientPosition lines columns stop outerStop last⟩

theorem precedes_clientRange (leads : view.doc.Leads r later) :
    (view.clientRange r).Precedes (view.clientRange later) := by
  obtain ⟨start, stop, laterStart, first, last⟩ := leads
  exact ⟨before_clientPosition lines columns start laterStart first,
    before_clientPosition lines columns stop laterStart last⟩

end Fits

/-- In both encodings the outline is a well-formed tree of ranges: at every depth a name is in the
range of its symbol, what is below a symbol is in its range, and neighbours are apart and in the
order of the document. -/
theorem wellNestedAll_symbols (view : ClientView) (lines : view.doc.lineCount ≤ UInt32.size)
    (columns : ∀ line ∈ view.doc.lines, view.encoding.offset line line.length < UInt32.size) :
    Symbol.WellNestedAll ClientRange.Within ClientRange.Precedes view.symbols := by
  rw [view.symbols_eq lines]
  refine WellNestedAll.map (fun r outer nests => ?_) (fun r later leads => ?_) _
    (Document.wellNestedAll_outline view.doc)
  · exact within_clientRange lines columns nests
  · exact precedes_clientRange lines columns leads

/-- A group with an empty actor and an empty value, and a header without lines. -/
theorem wellNestedAll_symbols_pair :
    let view : ClientView :=
      ⟨.parse "[Proxy Group]\n😀 = select, 😀,, 😀, a= # 😀\n[Rule]\nFINAL, 😀\n[Host]".toList, .utf16⟩
    view.symbols.length = 3 ∧
      Symbol.WellNestedAll ClientRange.Within ClientRange.Precedes view.symbols := by
  intro view
  exact ⟨by decide +kernel, wellNestedAll_symbols view (by decide +kernel) (by decide +kernel)⟩

end ClientView

end ProxyConfig
