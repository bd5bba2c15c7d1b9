import ProxyConfig.Proofs.Partition
import ProxyConfig.Proofs.Validation.Finals
import ProxyConfig.Proofs.Validation.HeaderTails
import ProxyConfig.Proofs.Validation.NameConflicts
import ProxyConfig.Proofs.Validation.Places

/-! # Diagnostics point into the document

Every validator reads lines of the document and the headers of its sections. Their contents, their
pieces and the names in the headers lie on their lines, and so does everything that is reported of
them. The report on a missing rule is at a header or at the first column of the first line, which
every document has.

The validators go through sections and lines in the order of the document, so what they compare a line
or a header with stands before it. A diagnostic that has a further place points back to the same token.
-/

namespace ProxyConfig

open Text

variable {doc : Document}

namespace NumberedLine

/-- A line of the document, with its number and its text. -/
structure IsLineOf (l : NumberedLine) (doc : Document) : Prop where
  number_pos : 1 ≤ l.number
  number_le : l.number ≤ doc.lineCount
  text : doc.line l.number = l.text

variable {l : NumberedLine}

/-- A stretch of a line covers its text. -/
theorem IsLineOf.covers (real : l.IsLineOf doc) {a : Span} (stands : a.StandsIn 1 l.text) :
    (a.range l.number).Covers doc a.text := by
  rw [← real.text] at stands
  exact stands.covers real.number_pos real.number_le

theorem IsLineOf.content (real : l.IsLineOf doc) : (l.content.range l.number).PointsInto doc :=
  (real.covers l.standsIn_content).pointsInto

theorem IsLineOf.piece (real : l.IsLineOf doc) {a : Span} (member : a ∈ l.pieces.toList) :
    (a.range l.number).PointsInto doc :=
  (real.covers (standsIn_of_mem_pieces member)).pointsInto

/-- The entry on a line stands on it. -/
theorem IsLineOf.entry (real : l.IsLineOf doc) {e : Entry} (read : l.entry? = some e) :
    e.StandsOn doc :=
  .of_parse? (real.text.symm ▸ l.standsIn_content) real.number_pos real.number_le read

@[simp] theorem IsLineOf.report (real : l.IsLineOf doc) (issue : Issue) :
    (l.report issue).Grounded doc :=
  Issue.grounded_on.mpr real.content

/-- The word of a final rule covers the word. -/
theorem IsLineOf.covers_finalWord (real : l.IsLineOf doc) (final : l.isFinal = true) :
    l.finalWord.Covers doc "FINAL".toList := by
  have word : l.pieces.first.text = "FINAL".toList :=
    (Keyword.text_of_parse? (isFinal_iff.mp final).1).symm
  rw [← range_first_of_isFinal final, ← word]
  exact real.covers (standsIn_of_mem_pieces (List.mem_cons_self ..))

end NumberedLine

section Entries

variable {e : Entry} {earlier : List Entry}

theorem grounded_addresses (located : e.Located doc) :
    Grounded doc (e.arguments.toList.flatMap fun a => (a.checkAddress e.line).toList) :=
  grounded_flatMap fun _ member => Span.grounded_checkAddress (located.argument member)

theorem grounded_checkSetting (stands : e.StandsOn doc)
    (behind : ∀ first ∈ earlier, e.Follows first doc) : Grounded doc (checkSetting earlier e) := by
  have located := stands.located
  rw [checkSetting, grounded_append]
  refine ⟨Entry.grounded_checkRepeated behind rfl, ?_⟩
  split
  · simpa using located.key
  · next key _ =>
    rw [checkSettingValue]
    split
    · rw [grounded_append]
      refine ⟨Span.grounded_checkInteger located.value, ?_⟩
      split <;> simp [located.value]
    · split <;> simp [located.value]
    · split <;> simp [located.value]
    · exact grounded_addresses located
    · split
      · split <;> simp [located.range]
      · simp
    · exact Span.grounded_checkBoolean located.value
    · exact Span.grounded_checkPort located.value
    all_goals simp

theorem grounded_checkHost (stands : e.StandsOn doc)
    (behind : ∀ first ∈ earlier, e.Follows first doc) : Grounded doc (checkHost earlier e) :=
  grounded_append.mpr ⟨Entry.grounded_checkRepeated behind rfl, grounded_addresses stands.located⟩

/-- A pass over entries of different lines, in their order, is grounded if its checks are. -/
theorem grounded_runFrom {L E : Type} {pass : Pass L E} {lines : List L} (entry : E → Entry)
    (faults : ∀ l ∈ lines, (pass.fault l).Grounded doc)
    (stands : ∀ e ∈ lines.filterMap pass.read, (entry e).StandsOn doc)
    (ordered : (lines.filterMap pass.read).Pairwise fun a b => (entry a).line < (entry b).line)
    (checks : ∀ earlier e, (entry e).StandsOn doc →
      (∀ first ∈ earlier, (entry e).Follows (entry first) doc) →
        Grounded doc (pass.check earlier e)) :
    Grounded doc (pass.runFrom [] lines) := by
  intro d reported
  obtain ⟨l, inside, -, rfl⟩ | ⟨p, member, found⟩ := Pass.mem_runFrom_iff.mp reported
  · exact faults l inside
  · obtain ⟨later, split⟩ := List.mem_withEarlier_iff.mp member
    have here : (entry p.2).StandsOn doc := stands p.2 (by rw [split]; simp)
    refine checks p.1 p.2 here (fun first before => ?_) d found
    have there : (entry first).StandsOn doc := stands first (by rw [split]; simp [before])
    exact here.follows there
      (List.forall_withEarlier_iff_pairwise.mpr ordered p member first before)

end Entries

section Rules

variable {a : Span} {line : Nat}

/-- The halves of a port range stand where the range has them. -/
theorem grounded_checkPortRange (located : (a.range line).PointsInto doc) :
    Grounded doc (checkPortRange a line) := by
  rw [checkPortRange]
  split
  · simpa using located
  · next low high found =>
    have length := congrArg List.length (append_of_cut? found)
    rw [List.length_append, List.length_cons] at length
    have ends : a.endColumn = a.column + (low.length + (high.length + 1)) := by
      rw [Span.endColumn, Span.length, length]
    rw [grounded_append]
    constructor
    · have inside : Span.Inside ⟨low, a.column⟩ a := by
        refine ⟨Nat.le_refl _, ?_⟩
        change a.column + low.length ≤ a.endColumn
        omega
      exact Span.grounded_checkPort (inside.pointsInto located)
    · have inside : Span.Inside ⟨high, a.column + low.length + 1⟩ a := by
        constructor
        · change a.column ≤ a.column + low.length + 1
          omega
        · change a.column + low.length + 1 + high.length ≤ a.endColumn
          omega
      exact Span.grounded_checkPort (inside.pointsInto located)

theorem grounded_checkMatcher (located : (a.range line).PointsInto doc) (type : RuleType) :
    Grounded doc (checkMatcher type a line) := by
  cases type with
  | external =>
    rw [checkMatcher, checkExternal, grounded_append]
    constructor
    · split <;> simp [located]
    · cases externalFault? a.text <;> simp [located]
  | portRange => exact grounded_checkPortRange located
  | ipCidr | network | domain | domainSuffix | domainKeyword | geoIp =>
    rw [checkMatcher]
    split <;> simp [located]
  | inboundTag | final => simp [checkMatcher]

theorem grounded_checkTarget (located : (a.range line).PointsInto doc) (actors : Namespace) :
    Grounded doc (checkTarget actors a line) := by
  rw [checkTarget]
  split <;> simp [located]

theorem grounded_checkRule_none {l : NumberedLine} (real : l.IsLineOf doc) (actors : Namespace) :
    Grounded doc (checkRule actors none l) := by
  have type := real.piece (List.mem_cons_self .. : l.pieces.first ∈ l.pieces.toList)
  have others {a : Span} (member : a ∈ l.pieces.others) : (a.range l.number).PointsInto doc :=
    real.piece (List.mem_cons_of_mem _ member)
  have arity (type : RuleType) (n : Nat) : Grounded doc [l.report (arityIssue type n)] := by
    simpa using real.report _
  rw [checkRule]
  split
  · simpa using type
  · split
    · next target found => exact grounded_checkTarget (others (by simp [found])) actors
    · exact arity _ _
  · split
    · next matcher target found =>
      exact grounded_append.mpr ⟨grounded_checkMatcher (others (by simp [found])) _,
        grounded_checkTarget (others (by simp [found])) actors⟩
    · exact arity _ _

/-- A final rule is compared with an earlier one. -/
theorem grounded_checkRulesFrom (actors : Namespace) {lines : List NumberedLine}
    (real : ∀ l ∈ lines, l.IsLineOf doc) (ordered : lines.Pairwise fun a b => a.number < b.number) :
    Grounded doc (checkRulesFrom actors none lines) := by
  rw [checkRulesFrom_eq_flatMap]
  refine grounded_flatMap fun p member => ?_
  obtain ⟨later, split⟩ := List.mem_withEarlier_iff.mp member
  have here : p.2.IsLineOf doc := real p.2 (by rw [split]; simp)
  rw [Option.none_or, NumberedLine.findSome?_final?, checkRule_eq, grounded_append]
  refine ⟨?_, grounded_checkRule_none here actors⟩
  split
  · next final =>
    cases found : p.1.find? NumberedLine.isFinal with
    | none => simp [checkFinal]
    | some first =>
      have before := List.mem_of_find?_eq_some found
      have there : first.IsLineOf doc := real first (by rw [split]; simp [before])
      have less : first.number < p.2.number :=
        List.forall_withEarlier_iff_pairwise.mpr ordered p member first before
      exact grounded_cons.mpr ⟨.inr ⟨.secondFinal, _, ⟨first.finalWord, _⟩, rfl, rfl,
        .of_line_lt less less, there.covers_finalWord (List.find?_some found),
        here.covers_finalWord final⟩, grounded_nil⟩
  · simp

end Rules

namespace Document

variable {s : Section}

theorem isLineOf_of_mem_numbered {l : NumberedLine} (member : l ∈ doc.numbered) :
    l.IsLineOf doc :=
  ⟨(number_of_mem_numbered member).1, (number_of_mem_numbered member).2,
    line_number_of_mem_numbered member⟩

theorem isLineOf_of_mem_body {l : NumberedLine} (here : s ∈ doc.sections) (member : l ∈ doc.body s) :
    l.IsLineOf doc :=
  isLineOf_of_mem_numbered (mem_numbered_of_mem_body here member)

theorem isLineOf_of_mem_solidLines {kind : SectionKind} {l : NumberedLine}
    (member : l ∈ doc.solidLines (doc.sectionsOf kind)) : l.IsLineOf doc := by
  obtain ⟨s, chosen, inside⟩ := List.mem_flatMap.mp (List.mem_filter.mp member).1
  exact isLineOf_of_mem_body (List.mem_filter.mp chosen).1 inside

theorem isLineOf_of_mem_actorLines {l : ActorLine} (member : l ∈ doc.actorLines) :
    l.line.IsLineOf doc := by
  obtain ⟨s, here, inside⟩ := List.mem_flatMap.mp member
  split at inside
  · cases inside
  · obtain ⟨line, solid, rfl⟩ := List.mem_map.mp inside
    obtain ⟨⟨t, among, body⟩, -⟩ := mem_solidLines_iff.mp solid
    obtain rfl := List.mem_singleton.mp among
    exact isLineOf_of_mem_body here body

/-- The entries on the lines of the sections of a kind, in order. -/
theorem entries_pairwise (doc : Document) (kind : SectionKind) :
    ((doc.solidLines (doc.sectionsOf kind)).filterMap NumberedLine.entry?).Pairwise
      fun a b => a.line < b.line := by
  refine List.Pairwise.filterMap _ ?_ (doc.solidLines_pairwise kind)
  intro l m before a here b there
  rw [Entry.line_of_parse? here, Entry.line_of_parse? there]
  exact before

theorem standsOn_of_mem_solidLines {kind : SectionKind} {e : Entry}
    (member : e ∈ (doc.solidLines (doc.sectionsOf kind)).filterMap NumberedLine.entry?) : e.StandsOn doc := by
  obtain ⟨l, inside, read⟩ := List.mem_filterMap.mp member
  exact (isLineOf_of_mem_solidLines inside).entry read

theorem standsOn_of_mem_actorLines {d : Declaration}
    (member : d ∈ doc.actorLines.filterMap ActorLine.declaration?) : d.entry.StandsOn doc := by
  obtain ⟨l, inside, read⟩ := List.mem_filterMap.mp member
  obtain ⟨e, entry, rfl⟩ := Option.map_eq_some_iff.mp read
  exact (isLineOf_of_mem_actorLines inside).entry entry

/-- A header line is a line of the document, and the name in it stands on it. -/
theorem covers_nameRange (here : s ∈ doc.sections) : s.nameRange.Covers doc s.name.text := by
  refine Span.StandsIn.covers ?_ (startLine_pos here) (startLine_le_lineCount here)
  obtain ⟨margin, inside, rest, split, -, -, -, -, name⟩ :=
    Section.headerName?_eq_some_iff.mp (headerName?_startLine here)
  have column : margin.length + 2 = 1 + margin.length + 1 := by omega
  rw [name, split, column]
  exact (Span.standsIn_trimmed (1 + margin.length + 1) inside).behind '[' (']' :: rest)

theorem pointsInto_nameRange (here : s ∈ doc.sections) : s.nameRange.PointsInto doc :=
  (covers_nameRange here).pointsInto

theorem grounded_trailingHeaderText (here : s ∈ doc.sections) :
    Grounded doc (doc.trailingHeaderText s) := by
  obtain ⟨before, after, absent, split⟩ := exists_last_bracket here
  have line : before ++ ']' :: (after ++ (doc.line s.startLine).comment) = doc.line s.startLine := by
    have whole := uncommented_append_comment (doc.line s.startLine)
    rwa [split, List.append_assoc, List.cons_append] at whole
  have stands : (Span.trimmed (1 + before.length + 1) after).StandsIn 1 (doc.line s.startLine) :=
    line ▸ (Span.standsIn_trimmed (1 + before.length + 1) after).behind ']' _
  have covers := stands.covers (startLine_pos here) (startLine_le_lineCount here)
  have column : before.length + 2 = 1 + before.length + 1 := by omega
  rw [trailingHeaderText_eq absent split, reportBehind, column]
  split
  · simp
  · simpa using covers.pointsInto

/-- A header is compared with the first one of its kind. -/
theorem grounded_checkSectionName {earlier : List Section} (here : s ∈ doc.sections)
    (before : ∀ first ∈ earlier, first ∈ doc.sections ∧ first.startLine < s.startLine) :
    Grounded doc (checkSectionName earlier s) := by
  rw [checkSectionName]
  split
  · simpa using pointsInto_nameRange here
  · next kind known =>
    split
    · simp
    · next first found =>
      obtain ⟨there, less⟩ := before first (List.mem_of_find?_eq_some found)
      have same : first.name.text = s.name.text :=
        (Keyword.text_of_parse? (eq_of_beq (List.find?_some found :))).symm.trans
          (Keyword.text_of_parse? known)
      refine grounded_cons.mpr ⟨.inr ⟨.duplicateSection s.name.text, _, ⟨first.nameRange, _⟩, rfl,
        rfl, Span.range_precedes_of_lt less, ?_, covers_nameRange here⟩, grounded_nil⟩
      exact same ▸ covers_nameRange there

theorem grounded_checkHeadersFrom {earlier sections : List Section}
    (parts : doc.sections = earlier ++ sections) :
    Grounded doc (doc.checkHeadersFrom earlier sections) := by
  induction sections generalizing earlier with
  | nil => simp [checkHeadersFrom]
  | cons s rest ih =>
    have here : s ∈ doc.sections := by rw [parts]; simp
    have order := pairwise_startLine doc
    rw [parts] at order
    rw [checkHeadersFrom, grounded_append, grounded_append]
    refine ⟨⟨grounded_trailingHeaderText here, grounded_checkSectionName here ?_⟩,
      ih (by rw [parts, List.append_assoc, List.singleton_append])⟩
    intro first before
    refine ⟨by rw [parts]; simp [before], ?_⟩
    exact (List.pairwise_append.mp order).2.2 first before s (List.mem_cons_self ..)

theorem grounded_checkSections (doc : Document) : Grounded doc doc.checkSections := by
  refine grounded_append.mpr ⟨?_, grounded_checkHeadersFrom rfl⟩
  intro d member
  obtain ⟨l, inside, found⟩ := List.mem_filterMap.mp member
  split at found
  · cases found
  · cases found
    exact Issue.grounded_on.mpr (isLineOf_of_mem_numbered (List.mem_of_mem_take inside)).content

theorem grounded_checkGeneral (doc : Document) : Grounded doc doc.checkGeneral := by
  rw [checkGeneral, checkSettingsFrom_eq]
  exact grounded_runFrom id (fun l inside => (isLineOf_of_mem_solidLines inside).report _)
    (fun e => standsOn_of_mem_solidLines) (entries_pairwise doc .general)
    fun earlier e => grounded_checkSetting

theorem grounded_checkHosts (doc : Document) : Grounded doc doc.checkHosts := by
  rw [checkHosts, checkHostsFrom_eq]
  exact grounded_runFrom id (fun l inside => (isLineOf_of_mem_solidLines inside).report _)
    (fun e => standsOn_of_mem_solidLines) (entries_pairwise doc .host)
    fun earlier e => grounded_checkHost

theorem grounded_checkActors (doc : Document) : Grounded doc doc.checkActors := by
  refine grounded_append.mpr ⟨?_, grounded_flatMap fun d member => ?_⟩
  · have ordered := doc.declared_pairwise
    rw [← filterMap_declaration?_actorLines] at ordered
    rw [checkDeclarationsFrom_eq]
    exact grounded_runFrom Declaration.entry
      (fun l inside => (isLineOf_of_mem_actorLines inside).report _)
      (fun d => standsOn_of_mem_actorLines) ordered fun earlier d => grounded_checkDeclaration
  · exact grounded_checkGroup (standsOn_of_mem_actorLines (List.mem_filter.mp member).1) _

/-- A document has a first line, so even the report on a missing rule is in it. -/
theorem pointsInto_missingFinalRange (s : Text) :
    (parse s).missingFinalRange.PointsInto (parse s) := by
  rw [missingFinalRange]
  split
  · next first rest found =>
    have member : first ∈ (parse s).sectionsOf .rule := by simp [found]
    exact pointsInto_nameRange (List.mem_filter.mp member).1
  · have one : 1 ≤ (parse s).lineCount := by
      change 1 ≤ s.lines.length
      rw [Text.lines, List.length_map, pieces_length]
      omega
    exact ⟨rfl, Nat.le_refl 1, one, Nat.le_refl 1, Nat.le_refl 1, Nat.succ_le_succ (Nat.zero_le _)⟩

theorem grounded_run (s : Text) (v : Validator) : Grounded (parse s) (v.run (parse s)) := by
  cases v with
  | sections => exact grounded_checkSections _
  | general => exact grounded_checkGeneral _
  | hosts => exact grounded_checkHosts _
  | actors => exact grounded_checkActors _
  | rules =>
    refine grounded_append.mpr ⟨grounded_checkRulesFrom _
      (fun l member => isLineOf_of_mem_solidLines member) ((parse s).solidLines_pairwise .rule), ?_⟩
    split
    · simp
    · simpa using pointsInto_missingFinalRange s
  | env =>
    refine grounded_flatMap fun l member => ?_
    have real := isLineOf_of_mem_solidLines member
    rw [checkVariable]
    split
    · simpa using real.report _
    · split
      · simpa using real.report _
      · simp

theorem located_run (s : Text) (v : Validator) : Located (parse s) (v.run (parse s)) :=
  fun d found => (grounded_run s v d found).pointsInto

end Document

/-- Every diagnostic points into the document: its range and each range that explains it is on one
line of the document, starts at a column of the line and ends at most behind its last character. -/
theorem diagnostics_point_into_document (s : Text) :
    ∀ d ∈ validate s, d.range.PointsInto (.parse s) ∧
      ∀ r ∈ d.related, r.range.PointsInto (.parse s) := by
  intro d reported
  obtain ⟨v, -, found⟩ := List.mem_flatMap.mp reported
  obtain ⟨own, related⟩ := Document.located_run s v d found
  exact ⟨own, related⟩

/-- A name that is declared again, behind blanks and before a comment. -/
theorem duplicate_points_into_document :
    let s := "[Proxy]\na = direct\n  a = direct # again".toList
    ∃ d ∈ validate s, d.range = .onLine 3 3 1 ∧ d.related.map (·.range) = [.onLine 2 1 1] ∧
      d.range.PointsInto (.parse s) ∧ ∀ r ∈ d.related, r.range.PointsInto (.parse s) := by
  intro s
  have reported : ∃ d ∈ validate s, d.range = .onLine 3 3 1 ∧
      d.related.map (·.range) = [.onLine 2 1 1] := by decide +kernel
  obtain ⟨d, member, here, there⟩ := reported
  exact ⟨d, member, here, there, diagnostics_point_into_document s d member⟩

/-- A diagnostic with further places has one. It is about a token that is there again, the place ends
before the diagnostic starts, and both cover the token. -/
theorem related_points_back (s : Text) :
    ∀ d ∈ validate s, d.related ≠ [] →
      ∃ (issue : Issue) (token : Text) (first : Related), issue.repeated? = some token ∧
        d.code = some issue.code ∧ d.message = issue.message ∧ d.related = [first] ∧
        first.range.stop.upTo d.range.start = true ∧ first.range ≠ d.range ∧
        first.range.Covers (.parse s) token ∧ d.range.Covers (.parse s) token := by
  intro d reported explained
  obtain ⟨v, -, found⟩ := List.mem_flatMap.mp reported
  obtain ⟨-, bare⟩ | ⟨issue, token, first, repeats, same, order, there, here⟩ :=
    Document.grounded_run s v d found
  · exact absurd bare explained
  · refine ⟨issue, token, first, repeats, ?_, ?_, ?_, Position.upTo_of_before order.2, ?_, there, here⟩
    · rw [same]
      rfl
    · rw [same]
      rfl
    · rw [same]
      rfl
    · intro equal
      have before := order.1
      rw [equal] at before
      exact Position.not_before_of_upTo (Position.upTo_of_before before) before

/-- A blank key that occurs three times on one line: the second and the third point to the first. -/
theorem related_points_back_blank :
    let s := "[Proxy]\na = direct, = x, = y, = z".toList
    ∃ d ∈ validate s, d.range = .onLine 2 23 0 ∧ d.related.map (·.range) = [.onLine 2 13 0] ∧
      ∃ (issue : Issue) (token : Text) (first : Related), issue.repeated? = some token ∧
        d.code = some issue.code ∧ d.message = issue.message ∧ d.related = [first] ∧
        first.range.stop.upTo d.range.start = true ∧ first.range ≠ d.range ∧
        first.range.Covers (.parse s) token ∧ d.range.Covers (.parse s) token := by
  intro s
  have reported : ∃ d ∈ validate s, d.range = .onLine 2 23 0 ∧
      d.related.map (·.range) = [.onLine 2 13 0] ∧ d.related ≠ [] := by decide +kernel
  obtain ⟨d, member, here, there, explained⟩ := reported
  exact ⟨d, member, here, there, related_points_back s d member explained⟩

end ProxyConfig
