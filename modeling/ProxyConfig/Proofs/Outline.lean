import ProxyConfig.Outline
import ProxyConfig.Proofs.Client.Ranges
import ProxyConfig.Proofs.Layout
import ProxyConfig.Proofs.Text.Columns

/-! # Ranges of the outline

A property of ranges holds of a tree of symbols if it holds of both ranges of every node. Trees of
such ranges have the same image under functions that agree on them, and the ranges of an outline
stand on lines of the document.
-/

namespace ProxyConfig

namespace Symbol

variable {R S T : Type}

mutual

/-- Both ranges of the symbol, and of every symbol below it, have the property. -/
def Forall (P : R → Prop) : Symbol R → Prop
  | node _ _ _ range selection children => P range ∧ P selection ∧ ForallAll P children

def ForallAll (P : R → Prop) : List (Symbol R) → Prop
  | [] => True
  | symbol :: rest => symbol.Forall P ∧ ForallAll P rest

end

theorem forallAll_iff {P : R → Prop} {symbols : List (Symbol R)} :
    ForallAll P symbols ↔ ∀ symbol ∈ symbols, symbol.Forall P := by
  induction symbols with
  | nil => simp [ForallAll]
  | cons symbol rest ih => rw [ForallAll, List.forall_mem_cons, ih]

mutual

/-- A property that follows from another one holds wherever that one does. -/
theorem Forall.mono {P Q : R → Prop} (weaker : ∀ r, P r → Q r) :
    ∀ symbol : Symbol R, symbol.Forall P → symbol.Forall Q
  | node _ _ _ range selection children, ⟨whole, name, below⟩ =>
    ⟨weaker range whole, weaker selection name, ForallAll.mono weaker children below⟩

theorem ForallAll.mono {P Q : R → Prop} (weaker : ∀ r, P r → Q r) :
    ∀ symbols : List (Symbol R), ForallAll P symbols → ForallAll Q symbols
  | [], _ => trivial
  | symbol :: rest, ⟨here, behind⟩ =>
    ⟨Forall.mono weaker symbol here, ForallAll.mono weaker rest behind⟩

end

mutual

/-- Functions that agree on the ranges of a tree give the same tree. -/
theorem map_congr {P : R → Prop} {f g : R → S} (agree : ∀ r, P r → f r = g r) :
    ∀ symbol : Symbol R, symbol.Forall P → symbol.map f = symbol.map g
  | node _ _ _ range selection children, holds => by
    obtain ⟨whole, name, below⟩ := holds
    rw [map, map, agree range whole, agree selection name, mapAll_congr agree children below]

theorem mapAll_congr {P : R → Prop} {f g : R → S} (agree : ∀ r, P r → f r = g r) :
    ∀ symbols : List (Symbol R), ForallAll P symbols → mapAll f symbols = mapAll g symbols
  | [], _ => rfl
  | symbol :: rest, holds => by
    rw [mapAll, mapAll, map_congr agree symbol holds.1, mapAll_congr agree rest holds.2]

end

mutual

theorem map_map (f : R → S) (g : S → T) : ∀ symbol : Symbol R, (symbol.map f).map g = symbol.map (g ∘ f)
  | node _ _ _ _ _ children => by
    rw [map, map, map, mapAll_mapAll f g children]
    rfl

theorem mapAll_mapAll (f : R → S) (g : S → T) :
    ∀ symbols : List (Symbol R), mapAll g (mapAll f symbols) = mapAll (g ∘ f) symbols
  | [] => rfl
  | symbol :: rest => by
    rw [mapAll, mapAll, mapAll, map_map f g symbol, mapAll_mapAll f g rest]

end

end Symbol

open Range

namespace Symbol

variable {line count : Nat}

theorem forall_ofSpan {P : Range → Prop} {a : Span} (holds : P (a.range line)) (detail : String)
    (kind : SymbolKind) : (ofSpan a line detail kind).Forall P :=
  ⟨holds, holds, trivial⟩

theorem forall_ofEntry {P : Range → Prop} {e : Entry} {children : List Symbol} (whole : P e.range)
    (key : P e.keyRange) (below : ∀ child ∈ children, child.Forall P) (detail : String)
    (kind : SymbolKind) : (ofEntry e detail kind children).Forall P :=
  ⟨whole, key, forallAll_iff.mpr below⟩

end Symbol

namespace Entry

variable {e : Entry}

theorem liesOn_range (e : Entry) : e.range.LiesOn e.line := liesOn_between ..

theorem liesOn_keyRange (e : Entry) : e.keyRange.LiesOn e.line := e.key.liesOn_range e.line

theorem forall_propertySymbols : ∀ symbol ∈ e.propertySymbols, symbol.Forall (LiesOn e.line) := by
  intro symbol member
  obtain ⟨property, kept, rfl⟩ := List.mem_map.mp member
  obtain ⟨argument, -, read⟩ := List.mem_filterMap.mp (List.mem_filter.mp kept).1
  rw [← line_of_parse? read]
  exact Symbol.forall_ofEntry property.liesOn_range property.liesOn_keyRange (by simp) _ _

theorem forall_spanSymbols {spans : List Span} {detail : String} {kind : SymbolKind} :
    ∀ symbol ∈ e.spanSymbols spans detail kind, symbol.Forall (LiesOn e.line) := by
  intro symbol member
  obtain ⟨a, -, rfl⟩ := List.mem_map.mp member
  exact Symbol.forall_ofSpan (a.liesOn_range e.line) _ _

theorem forall_ofEntry {children : List Symbol}
    (below : ∀ child ∈ children, child.Forall (LiesOn e.line)) (detail : String)
    (kind : SymbolKind) : (Symbol.ofEntry e detail kind children).Forall (LiesOn e.line) :=
  Symbol.forall_ofEntry e.liesOn_range e.liesOn_keyRange below detail kind

end Entry

theorem NumberedLine.forall_ruleSymbol? {l : NumberedLine} {symbol : Symbol}
    (found : l.ruleSymbol? = some symbol) : symbol.Forall (LiesOn l.number) := by
  obtain ⟨rule, -, found⟩ := Option.bind_eq_some_iff.mp found
  split at found
  · cases found
  obtain ⟨target, -, found⟩ := Option.bind_eq_some_iff.mp found
  rw [← Option.some.inj found]
  refine ⟨l.content.liesOn_range l.number, l.pieces.first.liesOn_range l.number, ?_⟩
  split
  · trivial
  · exact ⟨Symbol.forall_ofSpan (target.liesOn_range l.number) _ _, trivial⟩

namespace Document

variable {doc : Document} {s : Section}

theorem mem_keyedEntries {e : Entry} (member : e ∈ doc.keyedEntries s) :
    ∃ l ∈ doc.body s, e.line = l.number := by
  obtain ⟨l, inside, read⟩ := List.mem_filterMap.mp (List.mem_filter.mp member).1
  exact ⟨l, inside, Entry.line_of_parse? read⟩

/-- The symbols of a line stand on it. -/
theorem forall_lineSymbols (kind : SectionKind) : ∀ symbol ∈ doc.lineSymbols s kind,
    ∃ l ∈ doc.body s, symbol.Forall (LiesOn l.number) := by
  have entries {toSymbol : Entry → Symbol} (each : ∀ e, (toSymbol e).Forall (LiesOn e.line)) :
      ∀ symbol ∈ (doc.keyedEntries s).map toSymbol,
        ∃ l ∈ doc.body s, symbol.Forall (LiesOn l.number) := by
    intro symbol member
    obtain ⟨e, keyed, rfl⟩ := List.mem_map.mp member
    obtain ⟨l, inside, line⟩ := mem_keyedEntries keyed
    exact ⟨l, inside, line ▸ each e⟩
  cases kind with
  | general => exact entries fun e => e.forall_ofEntry (by simp) _ _
  | env => exact entries fun e => e.forall_ofEntry (by simp) _ _
  | proxy => exact entries fun e => e.forall_ofEntry Entry.forall_propertySymbols _ _
  | proxyGroup =>
    refine entries fun e => e.forall_ofEntry ?_ _ _
    exact List.forall_mem_append.mpr ⟨Entry.forall_spanSymbols, Entry.forall_propertySymbols⟩
  | rule =>
    intro symbol member
    obtain ⟨l, inside, found⟩ := List.mem_filterMap.mp member
    exact ⟨l, inside, NumberedLine.forall_ruleSymbol? found⟩
  | host => exact entries fun e => e.forall_ofEntry Entry.forall_spanSymbols _ _
  | onDemand => simp [lineSymbols]

/-- The ranges of an outline stand on lines of the document. -/
theorem forall_outline (doc : Document) :
    Symbol.ForallAll (LiesIn doc.lineCount) doc.outline := by
  refine Symbol.forallAll_iff.mpr fun symbol member => ?_
  obtain ⟨s, here, found⟩ := List.mem_filterMap.mp member
  obtain ⟨kind, -, found⟩ := Option.bind_eq_some_iff.mp found
  split at found
  · cases found
  have first := startLine_pos here
  have order := startLine_le_endLine here
  have last := endLine_le_lineCount here
  rw [← Option.some.inj found]
  refine ⟨?_, ?_, Symbol.forallAll_iff.mpr fun child below => ?_⟩
  · exact ⟨⟨first, order.trans last⟩, first.trans_le order, last⟩
  · exact (s.name.liesOn_range s.startLine).liesIn first (order.trans last)
  · obtain ⟨l, inside, holds⟩ := forall_lineSymbols kind child below
    obtain ⟨positive, upTo⟩ := number_of_mem_body here inside
    exact Symbol.Forall.mono (fun r onLine => onLine.liesIn positive upTo) child holds

end Document

end ProxyConfig
