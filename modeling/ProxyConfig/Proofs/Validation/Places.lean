import ProxyConfig.Proofs.Text.Columns
import ProxyConfig.Proofs.Validation.Codes

/-! # The places of diagnostics

Every range that is reported covers characters of one line of the document, or is empty at one of
its columns, the one behind the last character included. The validators make their ranges from spans
that were read off a line, and a span that was read off another one lies inside it. So a check of a
value or of an entry reports inside the document if what it is given stands there.

A diagnostic has a further place only if it is about a token that is there again, and then the place is
where the token stood before. What was seen is kept in the order in which it stands, so the checks that
report such tokens are given entries that stand behind the earlier ones.
-/

namespace ProxyConfig

open Text

/-- The range is on one line of the document and ends at most behind its last character. -/
structure Range.PointsInto (r : Range) (doc : Document) : Prop where
  sameLine : r.stop.line = r.start.line
  line_pos : 1 ≤ r.start.line
  line_le : r.start.line ≤ doc.lineCount
  column_pos : 1 ≤ r.start.column
  ordered : r.start.column ≤ r.stop.column
  column_le : r.stop.column ≤ (doc.line r.start.line).length + 1

instance (r : Range) (doc : Document) : Decidable (r.PointsInto doc) :=
  decidable_of_iff
    (r.stop.line = r.start.line ∧ 1 ≤ r.start.line ∧ r.start.line ≤ doc.lineCount ∧
      1 ≤ r.start.column ∧ r.start.column ≤ r.stop.column ∧
      r.stop.column ≤ (doc.line r.start.line).length + 1)
    ⟨fun ⟨same, first, last, left, order, right⟩ => ⟨same, first, last, left, order, right⟩,
      fun ⟨same, first, last, left, order, right⟩ => ⟨same, first, last, left, order, right⟩⟩

/-- The range of a diagnostic and those that explain it are in the document. -/
structure Diagnostic.PointsInto (d : Diagnostic) (doc : Document) : Prop where
  range : d.range.PointsInto doc
  related : ∀ r ∈ d.related, r.range.PointsInto doc

/-- Every diagnostic of a report is in the document. -/
def Located (doc : Document) (report : List Diagnostic) : Prop := ∀ d ∈ report, d.PointsInto doc

/-- The token that is there again, if the issue is about one. -/
def Issue.repeated? : Issue → Option Text
  | duplicateSection name | duplicateSetting name | duplicateProxy name | proxyNamedLikeGroup name
  | duplicateGroup name | groupNamedLikeProxy name | duplicateHost name | duplicateKey _ name =>
    some name
  | secondFinal => some "FINAL".toList
  | _ => none

/-- A diagnostic about a token that is there again: its range covers the token, and its one further
place is an earlier range that covers the same characters. -/
def Diagnostic.PointsBack (d : Diagnostic) (doc : Document) : Prop :=
  ∃ (issue : Issue) (token : Text) (first : Related), issue.repeated? = some token ∧
    d = (issue.on d.range).withRelated first.range first.message ∧
    first.range.Precedes d.range ∧ first.range.Covers doc token ∧ d.range.Covers doc token

/-- A diagnostic in the document that has no further place or points back to one. -/
def Diagnostic.Grounded (d : Diagnostic) (doc : Document) : Prop :=
  (d.range.PointsInto doc ∧ d.related = []) ∨ d.PointsBack doc

/-- Every diagnostic of a report is in the document, with further places only for what is repeated. -/
def Grounded (doc : Document) (report : List Diagnostic) : Prop := ∀ d ∈ report, d.Grounded doc

variable {doc : Document}

section Reports

/-- A range that covers a token is in the document. -/
theorem Range.Covers.pointsInto {r : Range} {token : Text} (covers : r.Covers doc token) :
    r.PointsInto doc := by
  obtain ⟨n, before, after, first, last, split, rfl⟩ := covers
  refine ⟨rfl, first, last, Nat.succ_le_succ (Nat.zero_le _), Nat.le_add_right _ _, ?_⟩
  change before.length + 1 + token.length ≤ (doc.line n).length + 1
  rw [split, List.length_append, List.length_append]
  omega

theorem Diagnostic.Grounded.pointsInto {d : Diagnostic} (grounded : d.Grounded doc) :
    d.PointsInto doc := by
  obtain ⟨here, bare⟩ | ⟨issue, token, first, -, same, -, there, here⟩ := grounded
  · exact ⟨here, fun r member => absurd (bare ▸ member) List.not_mem_nil⟩
  · refine ⟨here.pointsInto, fun r member => ?_⟩
    rw [same] at member
    rw [List.mem_singleton.mp member]
    exact there.pointsInto

@[simp] theorem grounded_nil : Grounded doc [] := fun _ member => absurd member List.not_mem_nil

@[simp] theorem grounded_cons {d : Diagnostic} {report : List Diagnostic} :
    Grounded doc (d :: report) ↔ d.Grounded doc ∧ Grounded doc report :=
  List.forall_mem_cons

@[simp] theorem grounded_append {first second : List Diagnostic} :
    Grounded doc (first ++ second) ↔ Grounded doc first ∧ Grounded doc second :=
  List.forall_mem_append

theorem grounded_flatMap {α : Type} {items : List α} {check : α → List Diagnostic}
    (each : ∀ item ∈ items, Grounded doc (check item)) : Grounded doc (items.flatMap check) := by
  intro d member
  obtain ⟨item, inside, found⟩ := List.mem_flatMap.mp member
  exact each item inside d found

@[simp] theorem Issue.grounded_on {issue : Issue} {range : Range} :
    (issue.on range).Grounded doc ↔ range.PointsInto doc :=
  ⟨fun grounded => grounded.pointsInto.range, fun located => .inl ⟨located, rfl⟩⟩

end Reports

namespace Span

variable {a b : Span} {line : Nat}

/-- A span that is read off another one. -/
structure Inside (b a : Span) : Prop where
  starts : a.column ≤ b.column
  ends : b.endColumn ≤ a.endColumn

theorem Inside.trans {c : Span} (inner : c.Inside b) (outer : b.Inside a) : c.Inside a :=
  ⟨outer.starts.trans inner.starts, inner.ends.trans outer.ends⟩

/-- What is read off a span on a line is on the line too. -/
theorem Inside.pointsInto (inside : b.Inside a) (located : (a.range line).PointsInto doc) :
    (b.range line).PointsInto doc where
  sameLine := rfl
  line_pos := located.line_pos
  line_le := located.line_le
  column_pos := located.column_pos.trans inside.starts
  ordered := Nat.le_add_right _ _
  column_le := inside.ends.trans located.column_le

/-- A span between the first column of a line and the one behind its end. -/
theorem pointsInto_of_le (positive : 1 ≤ line) (upTo : line ≤ doc.lineCount)
    (starts : 1 ≤ a.column) (ends : a.endColumn ≤ (doc.line line).length + 1) :
    (a.range line).PointsInto doc where
  sameLine := rfl
  line_pos := positive
  line_le := upTo
  column_pos := starts
  ordered := Nat.le_add_right _ _
  column_le := ends

section Values

variable (located : (a.range line).PointsInto doc)

include located

theorem grounded_checkPort : Grounded doc (a.checkPort line).toList := by
  rw [checkPort]
  split
  · simpa using located
  · split <;> simp [located]

theorem grounded_checkBoolean : Grounded doc (a.checkBoolean line).toList := by
  rw [checkBoolean]
  split <;> simp [located]

theorem grounded_checkInteger : Grounded doc (a.checkInteger line).toList := by
  rw [checkInteger]
  split <;> simp [located]

theorem grounded_checkAddress : Grounded doc (a.checkAddress line).toList := by
  rw [checkAddress]
  split <;> simp [located]

end Values

end Span

namespace Entry

/-- The key and the value of an entry are on its line, the key before the value. -/
structure Located (e : Entry) (doc : Document) : Prop where
  key : e.keyRange.PointsInto doc
  value : e.valueRange.PointsInto doc
  ordered : e.key.column ≤ e.value.endColumn

variable {e : Entry} {line column : Nat} {s : Text}

/-- What is read off the text of a span on a line is on the line. -/
theorem located_of_parse? {a : Span} (located : (a.range line).PointsInto doc)
    (read : parse? line a.column a.text = some e) : e.Located doc := by
  obtain ⟨starts, before⟩ := key_before_value_of_parse? read
  obtain ⟨behind, ends⟩ := value_inside_of_parse? read
  have keyOrder : e.key.column ≤ e.key.endColumn := Nat.le_add_right _ _
  have valueOrder : e.value.column ≤ e.value.endColumn := Nat.le_add_right _ _
  have onLine := line_of_parse? read
  change e.value.endColumn ≤ a.endColumn at ends
  refine ⟨?_, ?_, by omega⟩
  · rw [keyRange, onLine]
    exact Span.Inside.pointsInto ⟨starts, by omega⟩ located
  · rw [valueRange, onLine]
    exact Span.Inside.pointsInto ⟨by omega, ends⟩ located

namespace Located

variable (located : e.Located doc)

include located

/-- The range of a whole entry. -/
theorem range : e.range.PointsInto doc where
  sameLine := rfl
  line_pos := located.key.line_pos
  line_le := located.key.line_le
  column_pos := located.key.column_pos
  ordered := located.ordered
  column_le := located.value.column_le

theorem argument {a : Span} (member : a ∈ e.arguments.toList) :
    (a.range e.line).PointsInto doc :=
  Span.Inside.pointsInto ⟨le_column_of_mem_arguments member, endColumn_le_of_mem_arguments member⟩
    located.value

end Located

/-- The key and the value of an entry are stretches of its line in the document, the key first. -/
structure StandsOn (e : Entry) (doc : Document) : Prop where
  line_pos : 1 ≤ e.line
  line_le : e.line ≤ doc.lineCount
  key : e.key.StandsIn 1 (doc.line e.line)
  value : e.value.StandsIn 1 (doc.line e.line)
  ordered : e.key.endColumn < e.value.column

/-- The entry stands in the document, and its key behind the one of an earlier entry. -/
structure Follows (e first : Entry) (doc : Document) : Prop where
  here : e.StandsOn doc
  there : first.StandsOn doc
  order : first.keyRange.Precedes e.keyRange

namespace StandsOn

variable {first : Entry}

theorem coversKey (stands : e.StandsOn doc) : e.keyRange.Covers doc e.key.text :=
  stands.key.covers stands.line_pos stands.line_le

theorem located (stands : e.StandsOn doc) : e.Located doc where
  key := stands.coversKey.pointsInto
  value := (stands.value.covers stands.line_pos stands.line_le).pointsInto
  ordered := by
    have key : e.key.column ≤ e.key.endColumn := Nat.le_add_right _ _
    have value : e.value.column ≤ e.value.endColumn := Nat.le_add_right _ _
    have order := stands.ordered
    omega

/-- Entries of different lines follow each other. -/
theorem follows (here : e.StandsOn doc) (there : first.StandsOn doc) (before : first.line < e.line) :
    e.Follows first doc :=
  ⟨here, there, Span.range_precedes_of_lt before⟩

/-- What is read off a stretch of a line stands on the line. -/
theorem of_parse? {a : Span} (span : a.StandsIn 1 (doc.line line)) (line_pos : 1 ≤ line)
    (line_le : line ≤ doc.lineCount) (read : parse? line a.column a.text = some e) :
    e.StandsOn doc := by
  obtain ⟨key, value⟩ := standsIn_of_parse? read
  have onLine := line_of_parse? read
  subst onLine
  exact ⟨line_pos, line_le, key.trans span, value.trans span, (key_before_value_of_parse? read).2⟩

end StandsOn

section Repetitions

variable {first : Entry} {earlier : List Entry} {issue : Issue}

/-- A second entry with one key is reported back to an earlier one. -/
theorem Follows.pointsBack (follows : e.Follows first doc) (same : first.key.text = e.key.text)
    (repeats : issue.repeated? = some e.key.text) (note : String) :
    ((issue.on e.keyRange).withRelated first.keyRange note).PointsBack doc :=
  ⟨issue, e.key.text, ⟨first.keyRange, note⟩, repeats, rfl, follows.order,
    same ▸ follows.there.coversKey, follows.here.coversKey⟩

theorem grounded_checkRepeated (behind : ∀ first ∈ earlier, e.Follows first doc)
    (repeats : issue.repeated? = some e.key.text) :
    Grounded doc (e.checkRepeated earlier issue) := by
  rw [checkRepeated, firstAmong?]
  split
  · simp
  · next first found =>
    have same : first.key.text = e.key.text := eq_of_beq (List.find?_some found :)
    have follows := behind first (List.mem_of_find?_eq_some found)
    exact grounded_cons.mpr ⟨.inr (follows.pointsBack same repeats _), grounded_nil⟩

end Repetitions

end Entry

/-- A property in an argument on a line is on the line. -/
theorem Span.located_of_property? {a : Span} {line : Nat} {property : Entry}
    (located : (a.range line).PointsInto doc) (read : a.property? line = some property) :
    property.Located doc :=
  Entry.located_of_parse? located read

namespace Pieces

variable {p : Pieces} {a : Span}

theorem mem_of_mem_operands (member : a ∈ p.operands) : a ∈ p.toList :=
  (List.takeWhile_sublist _).mem (List.mem_of_mem_tail member)

theorem mem_of_mem_properties (member : a ∈ p.properties) : a ∈ p.toList :=
  (List.dropWhile_sublist _).mem member

end Pieces

namespace PropertyRules

variable {K : Type} [Keyword K] [DecidableEq K] {rules : PropertyRules K} {line : Nat}
  {value : Range} {checkValue : K → Entry → Span → List Diagnostic} {earlier : List Entry}

/-- The findings on one property behind the earlier ones, if the check of its value is grounded. -/
theorem grounded_findingsOn {property : Entry} {argument : Span} (stands : property.StandsOn doc)
    (behind : ∀ first ∈ earlier, property.Follows first doc)
    (values : ∀ key, Grounded doc (checkValue key property argument)) :
    Grounded doc ((rules.findingsOn earlier property argument).flatMap
      (PropertyFinding.report checkValue)) := by
  have key := stands.located.key
  have repeats : Grounded doc ((rules.repeated earlier property).flatMap
      (PropertyFinding.report checkValue)) := by
    rw [repeated]
    split
    · simp
    · next first found =>
      have same : first.key.text = property.key.text := eq_of_beq (List.find?_some found :)
      have follows := behind first (List.mem_of_find?_eq_some found)
      exact grounded_cons.mpr ⟨.inr (follows.pointsBack same rfl _), grounded_nil⟩
  rw [findingsOn, List.flatMap_append, grounded_append]
  refine ⟨repeats, ?_⟩
  split
  · simpa [PropertyFinding.report] using key
  · next known _ =>
    split
    · simpa [PropertyFinding.report] using values known
    · simpa [PropertyFinding.report] using ⟨values known, key⟩

/-- Along the arguments of a line, each property stands behind the earlier ones. -/
theorem grounded_scanFrom {arguments : List Span} (line_pos : 1 ≤ line)
    (line_le : line ≤ doc.lineCount) (whole : value.PointsInto doc)
    (before : ∀ first ∈ earlier, first.StandsOn doc ∧ first.line = line ∧
      ∀ a ∈ arguments, first.key.endColumn < a.column)
    (spans : ∀ a ∈ arguments, a.StandsIn 1 (doc.line line))
    (ordered : arguments.Pairwise fun a b => a.endColumn < b.column)
    (values : ∀ key property a, a ∈ arguments → a.property? line = some property →
      Grounded doc (checkValue key property a)) :
    Grounded doc ((rules.scanFrom line value earlier arguments).flatMap
      (PropertyFinding.report checkValue)) := by
  induction arguments generalizing earlier with
  | nil =>
    rw [scanFrom, missing, List.flatMap_map]
    exact grounded_flatMap fun key _ => by simpa [PropertyFinding.report] using whole
  | cons a rest ih =>
    obtain ⟨here, behind⟩ := List.forall_mem_cons.mp spans
    obtain ⟨apart, follow⟩ := List.pairwise_cons.mp ordered
    have kept : ∀ first ∈ earlier, first.StandsOn doc ∧ first.line = line ∧
        ∀ b ∈ rest, first.key.endColumn < b.column := by
      intro first member
      obtain ⟨stands, same, ends⟩ := before first member
      exact ⟨stands, same, fun b inside => ends b (List.mem_cons_of_mem _ inside)⟩
    have later : ∀ key property b, b ∈ rest → b.property? line = some property →
        Grounded doc (checkValue key property b) :=
      fun key property b member => values key property b (List.mem_cons_of_mem _ member)
    rw [scanFrom]
    cases read : a.property? line with
    | none =>
      rw [List.flatMap_cons, grounded_append]
      refine ⟨?_, ih kept behind follow later⟩
      simpa [PropertyFinding.report] using (here.covers line_pos line_le).pointsInto
    | some property =>
      have stands := Entry.StandsOn.of_parse? here line_pos line_le read
      have onLine : property.line = line := Entry.line_of_parse? read
      have key := (Span.standsIn_of_property? read).1
      rw [List.flatMap_append, grounded_append]
      refine ⟨grounded_findingsOn stands (fun first member => ?_)
        fun known => values known property a (List.mem_cons_self ..) read, ?_⟩
      · obtain ⟨there, same, ends⟩ := before first member
        refine ⟨stands, there, ?_⟩
        rw [Entry.keyRange, Entry.keyRange, same, onLine]
        exact Span.range_precedes
          (Nat.lt_of_lt_of_le (ends a (List.mem_cons_self ..)) key.le_column)
      · refine ih (List.forall_mem_append.mpr ⟨kept, ?_⟩) behind follow later
        refine List.forall_mem_singleton.mpr ⟨stands, onLine, fun b inside => ?_⟩
        exact Nat.lt_of_le_of_lt key.endColumn_le (apart b inside)

/-- A property list reports at its keys, at its arguments, at its value, and where the checks of its
values report. -/
theorem grounded_check {e : Entry} (stands : e.StandsOn doc)
    (values : ∀ key property a, a ∈ e.arguments.properties → a.property? e.line = some property →
      Grounded doc (checkValue key property a)) :
    Grounded doc (rules.check e.line e.valueRange checkValue e.arguments.properties) := by
  refine grounded_scanFrom stands.line_pos stands.line_le stands.located.value (by simp) ?_ ?_ values
  · intro a member
    exact (Entry.standsIn_of_mem_arguments (Pieces.mem_of_mem_properties member)).trans stands.value
  · exact (Entry.arguments_pairwise e).sublist (List.dropWhile_sublist _)

end PropertyRules

section Actors

variable {e : Entry}

theorem grounded_checkProxyValue (located : e.Located doc) (key : ProxyProperty) :
    Grounded doc (checkProxyValue key e) := by
  rw [checkProxyValue]
  split
  · split <;> simp [located.value]
  · exact Span.grounded_checkBoolean located.value
  · exact Span.grounded_checkInteger located.value
  all_goals simp

theorem grounded_checkOperands (located : e.Located doc) (p : Protocol) {operands : List Span}
    (spans : ∀ a ∈ operands, (a.range e.line).PointsInto doc) :
    Grounded doc (checkOperands p e operands) := by
  have address : Grounded doc (checkHostAndPort e operands) := by
    rw [checkHostAndPort, grounded_append]
    constructor
    · split <;> simp [located.value]
    · split
      · simpa using located.value
      · next port found =>
        have member := List.mem_of_getElem? (Option.filter_eq_some_iff.mp found).1
        exact Span.grounded_checkPort (spans port member)
  rw [checkOperands, grounded_append]
  constructor
  · split
    · exact address
    · simp
  · intro d member
    obtain ⟨a, extra, rfl⟩ := List.mem_map.mp member
    simpa using spans a (List.mem_of_mem_drop extra)

theorem grounded_checkProxy (stands : e.StandsOn doc) : Grounded doc (checkProxy e) := by
  have located := stands.located
  rw [checkProxy]
  split
  · simpa using located.value
  · split
    · simpa using located.argument (List.mem_cons_self ..)
    · next p _ =>
      rw [grounded_append]
      constructor
      · refine PropertyRules.grounded_check stands fun key property a member read => ?_
        have argument := located.argument (Pieces.mem_of_mem_properties member)
        exact grounded_checkProxyValue (Span.located_of_property? argument read) key
      · exact grounded_checkOperands located p fun a member =>
          located.argument (Pieces.mem_of_mem_operands member)

theorem grounded_checkGroupProperty (t : GroupType) (names : List Text) (key : GroupProperty)
    {a : Span} {property : Entry} {line : Nat} (span : (a.range line).PointsInto doc)
    (read : a.property? line = some property) :
    Grounded doc (checkGroupProperty t names key property a) := by
  have located := Span.located_of_property? span read
  rw [checkGroupProperty, grounded_append]
  constructor
  · split
    · rw [Entry.line_of_parse? read]
      simpa using span
    · simp
  · rw [checkGroupValue]
    split
    · exact Span.grounded_checkBoolean located.value
    · exact Span.grounded_checkInteger located.value
    · split <;> simp [located.value]
    · split <;> simp [located.value]
    all_goals simp

theorem grounded_checkActors (located : e.Located doc) (names : List Text) {actors : List Span}
    (spans : ∀ a ∈ actors, (a.range e.line).PointsInto doc) :
    Grounded doc (checkActors names e actors) := by
  rw [checkActors]
  split
  · simpa using located.value
  · refine grounded_flatMap fun a member => ?_
    rw [checkActor]
    split
    · simpa using spans a member
    · split <;> simp [spans a member]

theorem grounded_checkGroup (stands : e.StandsOn doc) (names : List Text) :
    Grounded doc (checkGroup names e) := by
  have located := stands.located
  rw [checkGroup]
  split
  · simpa using located.value
  · split
    · simpa using located.argument (List.mem_cons_self ..)
    · next t _ =>
      rw [grounded_append]
      constructor
      · exact PropertyRules.grounded_check stands
          fun key property a member => grounded_checkGroupProperty t names key
            (located.argument (Pieces.mem_of_mem_properties member))
      · exact grounded_checkActors located names fun a member =>
          located.argument (Pieces.mem_of_mem_operands member)

/-- A name that was declared before is reported back to the declaration that is found first. -/
theorem grounded_checkName {d : Declaration} {earlier : List Declaration}
    (behind : ∀ first ∈ earlier, d.entry.Follows first.entry doc) :
    Grounded doc (checkName earlier d) := by
  have known {kind : ActorKind} {first : Declaration} {issue : Issue} (note : String)
      (found : d.firstAmong? kind earlier = some first) (repeats : issue.repeated? = some d.name) :
      Grounded doc [(issue.on d.nameRange).withRelated first.nameRange note] := by
    have follows := behind first (List.mem_of_find?_eq_some found)
    have same : first.name = d.name :=
      eq_of_beq (Bool.and_eq_true_iff.mp (List.find?_some found :)).2
    exact grounded_cons.mpr ⟨.inr (follows.pointsBack same repeats note), grounded_nil⟩
  have duplicate : d.duplicateIssue.1.repeated? = some d.name := by
    rw [Declaration.duplicateIssue]
    cases d.kind <;> rfl
  have conflict : d.conflictIssue.1.repeated? = some d.name := by
    rw [Declaration.conflictIssue]
    cases d.kind <;> rfl
  rw [checkName]
  split
  · next own => exact known _ own duplicate
  · next other => exact known _ other conflict
  · simp

theorem grounded_checkDeclaration {d : Declaration} {earlier : List Declaration}
    (stands : d.entry.StandsOn doc) (behind : ∀ first ∈ earlier, d.entry.Follows first.entry doc) :
    Grounded doc (checkDeclaration earlier d) := by
  rw [checkDeclaration, grounded_append]
  refine ⟨grounded_checkName behind, ?_⟩
  split
  · exact grounded_checkProxy stands
  · simp

end Actors

end ProxyConfig
