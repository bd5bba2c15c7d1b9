import ProxyConfig.Proofs.Completion.Stretch
import ProxyConfig.Proofs.Hover.Endpoints
import Mathlib.Logic.Relation

/-! # Indices

Pieces, arguments and sections are reached by numbers that are counted in one place and used in another:
the commas in front of a cursor, the arguments in front of the first property, the place of a rule's
target, the headers in front of a line, the lines that the walk back from a header passes over. Each of
these numbers is within the list that it is used on, wherever the cursor is.
-/

namespace ProxyConfig

open Text

namespace Pieces

theorem length_pos (p : Pieces) : 0 < p.toList.length := Nat.succ_pos _

/-- The pieces are cut at the first property, behind the first piece and not behind the last one. -/
structure CutInside (p : Pieces) : Prop where
  behind : 1 ≤ p.plainCount
  upTo : p.plainCount ≤ p.toList.length
  operands : p.operands = (p.toList.take p.plainCount).drop 1
  properties : p.properties = p.toList.drop p.plainCount

/-- A keyword holds no `=`, so it stands in front of the properties. -/
theorem plainCount_pos {K : Type} [Keyword K] (bare : ∀ k : K, '=' ∉ Keyword.text k) {p : Pieces} {k : K}
    (known : Keyword.parse? p.first.text = some k) : 1 ≤ p.plainCount := by
  rw [plainCount, toList, List.takeWhile_cons_of_pos (Span.isPlain_of_parse? bare known)]
  exact Nat.succ_pos _

theorem cutInside {K : Type} [Keyword K] (bare : ∀ k : K, '=' ∉ Keyword.text k) (p : Pieces) {k : K}
    (known : Keyword.parse? p.first.text = some k) : p.CutInside where
  behind := plainCount_pos bare known
  upTo := (List.takeWhile_sublist _).length_le
  operands := by
    rw [Pieces.operands, plainCount_eq_findIdx, List.takeWhile_eq_take_findIdx_not, List.drop_one]
  properties := by rw [Pieces.properties, plainCount_eq_findIdx, List.dropWhile_eq_drop_findIdx_not]

/-- There is a piece behind each comma. -/
theorem pieceIndexAt_lt (t : Text) (start column : Nat) :
    pieceIndexAt t start column < (read start t).toList.length := by
  have commas : (t.take (column - start)).count ',' ≤ t.count ',' :=
    (List.take_sublist _ _).count_le ','
  rw [length_toList_read, pieceIndexAt]
  omega

end Pieces

section Rules

variable {l : NumberedLine} {rule : RuleType}

/-- A rule with the right number of arguments is checked to the target that stands behind them. -/
theorem exists_target_of_arity (known : Keyword.parse? l.pieces.first.text = some rule)
    (arity : l.pieces.toList.length - 1 = rule.arity) :
    ∃ target, l.pieces.piece? rule.targetIndex = some target ∧ ∀ actors first?,
      checkTarget actors target l.number <:+ checkRule actors first? l := by
  have count : l.pieces.others.length = rule.arity := arity
  by_cases final : rule = .final
  · subst final
    obtain ⟨target, others⟩ := List.length_eq_one_iff.mp count
    refine ⟨target, by rw [Pieces.piece?, Pieces.toList, others]; rfl, fun actors first? => ?_⟩
    rw [checkRule, known, others]
    exact List.suffix_append _ _
  · have two : rule.arity = 2 := by cases rule <;> first | rfl | exact absurd rfl final
    obtain ⟨matcher, target, others⟩ := List.length_eq_two.mp (count.trans two)
    refine ⟨target, by rw [Pieces.piece?, Pieces.toList, others, RuleType.targetIndex, two]; rfl,
      fun actors first? => ?_⟩
    have whole : checkRule actors first? l =
        checkMatcher rule matcher l.number ++ checkTarget actors target l.number := by
      rw [checkRule, known, others]
      cases rule with
      | final => exact absurd rfl final
      | _ => rfl
    rw [whole]
    exact List.suffix_append _ _

/-- The target of a rule with the right number of arguments is among its pieces, and is what is
checked. -/
theorem checkTarget_suffix_checkRule (known : Keyword.parse? l.pieces.first.text = some rule)
    (arity : l.pieces.toList.length - 1 = rule.arity) :
    ∃ inside : rule.targetIndex < l.pieces.toList.length, ∀ actors first?,
      checkTarget actors (l.pieces.toList.get ⟨rule.targetIndex, inside⟩) l.number <:+
        checkRule actors first? l := by
  obtain ⟨target, found, checked⟩ := exists_target_of_arity known arity
  obtain ⟨inside, rfl⟩ := List.getElem?_eq_some_iff.mp found
  exact ⟨inside, checked⟩

end Rules

/-- The argument that a cursor is in is one of the arguments of its line. -/
theorem Cursor.lt_length_of_argument? {c : Cursor} {e : Entry} {index : Nat}
    (found : c.argument? = some (e, index)) : index < e.arguments.toList.length := by
  obtain ⟨-, rfl, -⟩ := argument?_eq_some_iff.mp found
  exact Pieces.pieceIndexAt_lt e.value.text e.value.column c.column

namespace Section

/-- The number of a section is the number of one that starts before the line. -/
theorem getElem?_of_indexAt? {sections : List Section} {n i : Nat}
    (found : indexAt? sections n = some i) : ∃ s, sections[i]? = some s ∧ s.startLine < n := by
  obtain ⟨⟨s, j⟩, last, rfl⟩ := Option.map_eq_some_iff.mp found
  obtain ⟨member, before⟩ := List.mem_filter.mp (List.mem_of_getLast? last)
  exact ⟨s, List.mem_zipIdx_iff_getElem?.mp member, of_decide_eq_true before⟩

/-- One round of the walk back from a header: the walk is at a line that is blank and not the first one,
and goes on to the line before it. -/
inductive BackStep (lines : List Text) : Nat → Nat → Prop
  | pass {n : Nat} (behind : 1 < n) (blank : (lines.getD (n - 1) []).allBlank = true) :
    BackStep lines n (n - 1)

variable {lines : List Text} {n m : Nat}

theorem lastSolidLine_eq (lines : List Text) (n : Nat) : lastSolidLine lines n =
    if 1 < n ∧ (lines.getD (n - 1) []).allBlank = true then lastSolidLine lines (n - 1) else n := by
  fun_cases lastSolidLine lines n with
  | case1 => rfl
  | case2 => rfl
  | case3 n blank => exact (if_pos ⟨by omega, blank⟩).symm
  | case4 n solid => rw [if_neg fun both => solid both.2]

/-- A round does not change where the walk ends. -/
theorem BackStep.lastSolidLine_eq (step : BackStep lines n m) :
    lastSolidLine lines m = lastSolidLine lines n := by
  cases step with
  | pass behind blank => rw [Section.lastSolidLine_eq lines n, if_pos ⟨behind, blank⟩]

/-- The walk ends where no round leads further. -/
theorem not_backStep_lastSolidLine (lines : List Text) (n m : Nat) :
    ¬ BackStep lines (lastSolidLine lines n) m := by
  fun_induction lastSolidLine lines n with
  | case1 =>
    rintro ⟨behind, -⟩
    omega
  | case2 =>
    rintro ⟨behind, -⟩
    omega
  | case3 n blank ih => exact ih
  | case4 n solid =>
    rintro ⟨-, blank⟩
    exact solid blank

theorem reaches_lastSolidLine (lines : List Text) (n : Nat) :
    Relation.ReflTransGen (BackStep lines) n (lastSolidLine lines n) := by
  fun_induction lastSolidLine lines n with
  | case1 => exact .refl
  | case2 => exact .refl
  | case3 n blank ih => exact .head (.pass (by omega) blank) ih
  | case4 n solid => exact .refl

/-- Whatever the walk comes to lies between its start and its end. -/
theorem between_of_reaches (reached : Relation.ReflTransGen (BackStep lines) n m) :
    lastSolidLine lines n ≤ m ∧ m ≤ n := by
  induction reached using Relation.ReflTransGen.head_induction_on with
  | refl => exact ⟨lastSolidLine_le lines m, Nat.le_refl m⟩
  | head step _ ih =>
    rw [step.lastSolidLine_eq] at ih
    obtain ⟨low, high⟩ := ih
    cases step with
    | pass behind blank => exact ⟨low, by omega⟩

end Section

namespace Document

open Section

variable {doc : Document} {s t : Section}

theorem precedes_of_append {earlier later : List Section}
    (split : doc.sections = earlier ++ s :: t :: later) : Precedes doc s t := by
  have chain := (List.isChain_append.mp (split ▸ sections_isChain doc)).2.1
  exact (List.isChain_cons_cons.mp chain).1

/-- A section ends where the walk back from the next header ends. -/
theorem endLine_eq_lastSolidLine (here : s ∈ doc.sections) (precedes : Precedes doc s t) :
    s.endLine = lastSolidLine doc.lines (t.startLine - 1) := by
  have ends := precedes.ends
  have upTo : s.endLine ≤ t.startLine - 1 := by omega
  have positive : 0 < s.endLine := Nat.lt_of_lt_of_le (startLine_pos here) (startLine_le_endLine here)
  refine Nat.le_antisymm (le_lastSolidLine upTo precedes.solid) (Nat.le_of_not_lt fun beyond => ?_)
  have bound := lastSolidLine_le doc.lines (t.startLine - 1)
  have blank := precedes.gap _ beyond (by omega)
  exact absurd (blank.symm.trans (allBlank_lastSolidLine positive upTo precedes.solid)) (by decide)

/-- The walk back from a header stays in the document and does not pass the header before it. -/
theorem walk_within {earlier later : List Section}
    (split : doc.sections = earlier ++ s :: t :: later) {n : Nat}
    (reached : Relation.ReflTransGen (BackStep doc.lines) (t.startLine - 1) n) :
    1 ≤ n ∧ n ≤ doc.lineCount ∧ s.startLine ≤ n := by
  have here : s ∈ doc.sections := by simp [split]
  have there : t ∈ doc.sections := by simp [split]
  obtain ⟨low, high⟩ := between_of_reaches reached
  rw [← endLine_eq_lastSolidLine here (precedes_of_append split)] at low
  have first := startLine_pos here
  have order := startLine_le_endLine here
  have last := startLine_le_lineCount there
  omega

/-- The walk back from a header gives the section before it its end. -/
theorem walk_ends {earlier later : List Section}
    (split : doc.sections = earlier ++ s :: t :: later) :
    s.endLine = lastSolidLine doc.lines (t.startLine - 1) ∧
      Relation.ReflTransGen (BackStep doc.lines) (t.startLine - 1) s.endLine ∧
      ∀ n, ¬ BackStep doc.lines s.endLine n := by
  have here : s ∈ doc.sections := by simp [split]
  have ends := endLine_eq_lastSolidLine here (precedes_of_append split)
  rw [ends]
  exact ⟨rfl, reaches_lastSolidLine _ _, not_backStep_lastSolidLine _ _⟩

/-- What is counted on a document, and in front of a cursor, is within the lists that it is used on. -/
structure IndicesWithin (doc : Document) (cursor : Position) : Prop where
  /-- A text has a first piece. -/
  pieces (t : Text) (start : Nat) : 0 < (Pieces.read start t).toList.length
  /-- A value has a first argument. -/
  arguments (e : Entry) : 0 < e.arguments.toList.length
  /-- The properties of a proxy are cut off behind its protocol. -/
  protocol (e : Entry) (protocol : Protocol) :
    Keyword.parse? e.arguments.first.text = some protocol → e.arguments.CutInside
  /-- The properties of a group are cut off behind its type. -/
  groupType (e : Entry) (type : GroupType) :
    Keyword.parse? e.arguments.first.text = some type → e.arguments.CutInside
  /-- A rule with the right number of arguments has the target that is checked. -/
  target (l : NumberedLine) (rule : RuleType) :
    Keyword.parse? l.pieces.first.text = some rule → l.pieces.toList.length - 1 = rule.arity →
      ∃ inside : rule.targetIndex < l.pieces.toList.length, ∀ actors first?,
        checkTarget actors (l.pieces.toList.get ⟨rule.targetIndex, inside⟩) l.number <:+
          checkRule actors first? l
  /-- There is a piece behind the commas in front of the cursor. -/
  commas (t : Text) (start : Nat) :
    pieceIndexAt t start cursor.column < (Pieces.read start t).toList.length
  /-- The argument that is completed is one of its value. -/
  completed (e : Entry) (index : Nat) :
    (Cursor.mk doc cursor).argument? = some (e, index) → index < e.arguments.toList.length
  /-- The section of the cursor is one of the document. -/
  sections (i : Nat) : indexAt? doc.sections cursor.line = some i → i < doc.sections.length
  /-- The walk back from a header stays in the document and does not pass the header before it. -/
  walk (earlier later : List Section) (s t : Section) :
    doc.sections = earlier ++ s :: t :: later →
      ∀ n, Relation.ReflTransGen (BackStep doc.lines) (t.startLine - 1) n →
        1 ≤ n ∧ n ≤ doc.lineCount ∧ s.startLine ≤ n
  /-- Where the walk stops, the section before the header ends. -/
  stop (earlier later : List Section) (s t : Section) :
    doc.sections = earlier ++ s :: t :: later →
      s.endLine = lastSolidLine doc.lines (t.startLine - 1) ∧
        Relation.ReflTransGen (BackStep doc.lines) (t.startLine - 1) s.endLine ∧
        ∀ n, ¬ BackStep doc.lines s.endLine n

/-- No index leads out of its list, whatever the text is and wherever the cursor stands. -/
theorem indices_within (text : Text) (cursor : Position) : IndicesWithin (parse text) cursor where
  pieces t start := (Pieces.read start t).length_pos
  arguments e := e.arguments.length_pos
  protocol e _ known := e.arguments.cutInside (fun k => by cases k <;> decide) known
  groupType e _ known := e.arguments.cutInside (fun k => by cases k <;> decide) known
  target _ _ known arity := checkTarget_suffix_checkRule known arity
  commas t start := Pieces.pieceIndexAt_lt t start cursor.column
  completed _ _ found := Cursor.lt_length_of_argument? found
  sections _ found := by
    obtain ⟨s, there, -⟩ := getElem?_of_indexAt? found
    exact (List.getElem?_eq_some_iff.mp there).1
  walk _ _ _ _ split _ reached := walk_within split reached
  stop _ _ _ _ split := walk_ends split

theorem indices_within_rule_section :
    let doc := parse "[Proxy]\np = direct\n\n[Rule]\nFINAL, p".toList
    let declaration : Entry := ⟨2, ⟨"p".toList, 1⟩, ⟨"direct".toList, 5⟩⟩
    let final : NumberedLine := ⟨5, "FINAL, p".toList⟩
    doc.sections = [⟨⟨"Proxy".toList, 2⟩, 1, 2⟩, ⟨⟨"Rule".toList, 2⟩, 4, 5⟩] ∧
      (indexAt? doc.sections 5 = some 1 ∧ 1 < doc.sections.length) ∧
      (BackStep doc.lines 3 2 ∧ 2 ≤ doc.lineCount) ∧
      (pieceIndexAt final.text 1 8 = 1 ∧ 1 < final.pieces.toList.length) ∧
      (Keyword.parse? declaration.arguments.first.text = some Protocol.direct ∧
        declaration.arguments.CutInside) ∧
      Keyword.parse? final.pieces.first.text = some RuleType.final ∧
      ∃ inside : RuleType.final.targetIndex < final.pieces.toList.length, ∀ actors first?,
        checkTarget actors (final.pieces.toList.get ⟨RuleType.final.targetIndex, inside⟩) 5 <:+
          checkRule actors first? final := by
  intro doc declaration final
  have within : IndicesWithin doc ⟨5, 8⟩ :=
    indices_within "[Proxy]\np = direct\n\n[Rule]\nFINAL, p".toList ⟨5, 8⟩
  have sections : doc.sections = [⟨⟨"Proxy".toList, 2⟩, 1, 2⟩, ⟨⟨"Rule".toList, 2⟩, 4, 5⟩] := by decide
  have here : indexAt? doc.sections 5 = some 1 := by decide
  have back : BackStep doc.lines 3 2 := .pass (by decide) (by decide)
  have protocol : Keyword.parse? declaration.arguments.first.text = some Protocol.direct := by decide
  have rule : Keyword.parse? final.pieces.first.text = some RuleType.final := by decide
  have walked := within.walk [] [] _ _ sections 2 (.single back)
  have commas := within.commas final.text 1
  exact ⟨sections, ⟨here, within.sections 1 here⟩, ⟨back, walked.2.1⟩, ⟨by decide, commas⟩,
    ⟨protocol, within.protocol declaration .direct protocol⟩, rule,
    within.target final .final rule (by decide)⟩

end Document

end ProxyConfig
