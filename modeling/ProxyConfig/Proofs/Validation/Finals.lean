import ProxyConfig.Proofs.Earlier
import ProxyConfig.Proofs.Validation.Grammar
import ProxyConfig.Proofs.Validation.Lines

/-! # How many rules are final

The check of rules goes through the lines with the place of the first complete `FINAL` rule. Whatever
else is reported on a line does not depend on that place, so the rules behind the first one are reported
once each, the first one is the related place of all of them, and a missing one is reported exactly if
there is none. A `FINAL` line with the wrong number of pieces counts for nothing.
-/

namespace ProxyConfig

open Text

namespace NumberedLine

variable {l : NumberedLine}

/-- Whether a line is a complete `FINAL` rule: the word and one target. -/
def isFinal (l : NumberedLine) : Bool :=
  l.pieces.first.text == "FINAL".toList && l.pieces.others.length == 1

theorem isFinal_iff :
    l.isFinal = true ↔
      (Keyword.parse? l.pieces.first.text : Option RuleType) = some .final ∧
        ∃ target, l.pieces.others = [target] := by
  rw [isFinal, Bool.and_eq_true, beq_iff_eq, beq_iff_eq, List.length_eq_one_iff]
  refine and_congr_left fun _ => ⟨?_, fun known => (Keyword.text_of_parse? known).symm⟩
  intro word
  rw [word]
  rfl

theorem solid_of_isFinal (final : l.isFinal = true) : l.content.isEmpty = false := by
  obtain ⟨-, target, others⟩ := isFinal_iff.mp final
  exact solid_of_others (others ▸ List.mem_singleton_self target)

theorem final?_of_isFinal (final : l.isFinal = true) :
    l.final? = some (l.pieces.first.range l.number) := by
  obtain ⟨known, target, others⟩ := isFinal_iff.mp final
  rw [final?, known, others]

theorem final?_of_not_isFinal (other : ¬l.isFinal = true) : l.final? = none := by
  rw [final?]
  split
  · next target known others => exact absurd (isFinal_iff.mpr ⟨known, target, others⟩) other
  · rfl

/-- The comma-separated texts on a line before its comment, trimmed. -/
def fields (l : NumberedLine) : List Text := (List.splitOn ',' l.text.uncommented).map trim

theorem map_text_pieces (l : NumberedLine) : l.pieces.toList.map Span.text = l.fields :=
  Pieces.map_text_read 1 l.text.uncommented

theorem isFinal_iff_fields : l.isFinal = true ↔ ∃ target, l.fields = ["FINAL".toList, target] := by
  rw [← map_text_pieces, isFinal, Bool.and_eq_true, beq_iff_eq, beq_iff_eq, List.length_eq_one_iff,
    Pieces.toList, List.map_cons]
  constructor
  · rintro ⟨word, target, others⟩
    exact ⟨target.text, by rw [word, others, List.map_singleton]⟩
  · rintro ⟨target, same⟩
    obtain ⟨word, others⟩ := List.cons.inj same
    obtain ⟨only, single, -⟩ := List.map_eq_singleton_iff.mp others
    exact ⟨word, only, single⟩

/-- The first piece of a line stands behind the blanks at its start. -/
theorem column_first (named : l.pieces.first.text ≠ []) :
    l.pieces.first.column = (l.text.takeWhile isBlank).length + 1 := by
  have parts := append_cutAll ',' l.text.uncommented
  rw [pieces, Pieces.read_eq, Span.text_trimmed] at named
  rw [pieces, Pieces.read_eq]
  obtain ⟨blank, -⟩ | ⟨lead, trail, leading, -, solid, split, place⟩ :=
    Span.trimmed_cases 1 (cutAll ',' l.text.uncommented).1
  · exact absurd (trim_eq_nil_iff.mpr blank) named
  · have margin : l.text.takeWhile isBlank = lead := by
      rw [← uncommented_append_comment l.text, ← parts, split, List.append_assoc, List.append_assoc,
        List.append_assoc]
      exact (isTrimmed_trim _).takeWhile_blank leading solid _
    rw [place, margin]
    exact Nat.add_comm 1 lead.length

/-- The word `FINAL` at the start of a line. -/
def finalWord (l : NumberedLine) : Range :=
  .onLine l.number ((l.text.takeWhile isBlank).length + 1) "FINAL".length

theorem range_first_of_isFinal (final : l.isFinal = true) :
    l.pieces.first.range l.number = l.finalWord := by
  have word : l.pieces.first.text = "FINAL".toList :=
    (Keyword.text_of_parse? (isFinal_iff.mp final).1).symm
  have named : l.pieces.first.text ≠ [] := by
    rw [word]
    decide
  rw [Span.range, finalWord, column_first named, Span.length, word]
  rfl

theorem final?_eq (l : NumberedLine) : l.final? = if l.isFinal then some l.finalWord else none := by
  split
  · next final => rw [final?_of_isFinal final, range_first_of_isFinal final]
  · next other => exact final?_of_not_isFinal other

/-- The first final rule is the first line that is one. -/
theorem findSome?_final? (lines : List NumberedLine) :
    lines.findSome? final? = (lines.find? isFinal).map finalWord := by
  induction lines with
  | nil => rfl
  | cons l rest ih =>
    rw [List.findSome?_cons, List.find?_cons, final?_eq, ih]
    cases l.isFinal <;> rfl

end NumberedLine

section Rules

variable {actors : Namespace}

/-- The codes of the report on a rule by itself. -/
def ruleCodes : List String :=
  ["LC401", "LC403", "LC404", "LC405", "LC406", "LC407", "LC408", "LC409", "LC410", "LC411",
    "LC801", "LC802"]

theorem codes_checkRule_none (actors : Namespace) (l : NumberedLine) :
    CodesIn ruleCodes (checkRule actors none l) := by
  have arity (type : RuleType) (found : Nat) : CodesIn ruleCodes [l.report (arityIssue type found)] := by
    rw [arityIssue]
    split <;> simp [ruleCodes, NumberedLine.report, Issue.code]
  have target (a : Span) : CodesIn ruleCodes (checkTarget actors a l.number) :=
    (codes_checkTarget actors a l.number).mono (by decide)
  rw [checkRule]
  split
  · simp [ruleCodes, Issue.code]
  · split
    · exact target _
    · exact arity _ _
  · split
    · exact codesIn_append.mpr ⟨(codes_checkMatcher _ _ _).mono (by decide), target _⟩
    · exact arity _ _

/-- Besides a second final rule, the report on a line does not depend on the lines before it. -/
theorem checkRule_eq (first? : Option Range) (l : NumberedLine) :
    checkRule actors first? l =
      (if l.isFinal then checkFinal first? l.finalWord else []) ++ checkRule actors none l := by
  by_cases final : l.isFinal = true
  · obtain ⟨known, target, others⟩ := NumberedLine.isFinal_iff.mp final
    rw [checkRule, checkRule, known, others, if_pos final, ← NumberedLine.range_first_of_isFinal final]
    rfl
  · rw [if_neg final, List.nil_append, checkRule, checkRule]
    split
    · rfl
    · next known =>
      split
      · next target others =>
        exact absurd (NumberedLine.isFinal_iff.mpr ⟨known, target, others⟩) final
      · rfl
    · rfl

/-- The report on a final rule that is not the first. -/
def secondFinal (first l : NumberedLine) : Diagnostic where
  severity := .error
  message := "Multiple \"FINAL\" rules found."
  code := some "LC402"
  range := l.finalWord
  related := [⟨first.finalWord, "First \"FINAL\" rule is here."⟩]

theorem coded_secondFinal_checkRule (first? : Option NumberedLine) (l : NumberedLine) :
    coded "LC402" (checkRule actors (first?.map NumberedLine.finalWord) l) =
      if l.isFinal then first?.toList.flatMap fun first => [secondFinal first l] else [] := by
  rw [checkRule_eq, coded_append, coded_eq_nil (codes_checkRule_none actors l) (by decide),
    List.append_nil]
  split
  · cases first? with
    | none => rfl
    | some first => exact coded_singleton rfl
  · rfl

/-- The final rules behind the first one are reported with it. -/
theorem coded_secondFinal_checkRulesFrom (lines : List NumberedLine) :
    coded "LC402" (checkRulesFrom actors none lines) =
      match lines.filter NumberedLine.isFinal with
      | [] => []
      | first :: rest => rest.map (secondFinal first) := by
  rw [checkRulesFrom_eq_flatMap, coded_flatMap]
  simp only [Option.none_or, NumberedLine.findSome?_final?, coded_secondFinal_checkRule]
  rw [List.flatMap_withEarlier_find? NumberedLine.isFinal fun first l => [secondFinal first l]]
  cases lines.filter NumberedLine.isFinal with
  | nil => rfl
  | cons first rest => exact List.map_eq_flatMap.symm

theorem coded_missingFinal_checkRulesFrom (lines : List NumberedLine) :
    coded "LC412" (checkRulesFrom actors none lines) = [] := by
  rw [checkRulesFrom_eq_flatMap, coded_flatMap]
  refine List.flatMap_eq_nil_iff.mpr fun p _ => ?_
  rw [checkRule_eq, coded_append, coded_eq_nil (codes_checkRule_none actors p.2) (by decide),
    List.append_nil]
  split
  · cases Option.or none (p.1.findSome? NumberedLine.final?) <;> rfl
  · rfl

end Rules

namespace Document

/-- A final rule has content. -/
theorem filter_isFinal_solidLines (doc : Document) :
    (doc.solidLines (doc.sectionsOf .rule)).filter NumberedLine.isFinal =
      (doc.linesOf .rule).filter NumberedLine.isFinal := by
  rw [solidLines, List.filter_filter]
  refine List.filter_congr fun l _ => ?_
  cases final : l.isFinal with
  | false => rfl
  | true =>
    rw [NumberedLine.solid_of_isFinal final]
    rfl

theorem coded_rules (doc : Document) {code : String} (own : code = "LC402" ∨ code = "LC412") :
    coded code doc.validate = coded code doc.checkRules := by
  refine coded_validate .rules (fun other => ?_) doc
  rcases own with rfl | rfl <;> cases other <;> decide

theorem coded_secondFinal (doc : Document) : coded "LC402" doc.validate =
    match (doc.linesOf .rule).filter NumberedLine.isFinal with
    | [] => []
    | first :: rest => rest.map (secondFinal first) := by
  have ending (range : Range) (found : Bool) :
      coded "LC402" (if found then [] else [Issue.missingFinal.on range]) = [] := by
    cases found <;> rfl
  rw [doc.coded_rules (.inl rfl), checkRules, coded_append, ending, List.append_nil,
    coded_secondFinal_checkRulesFrom, doc.filter_isFinal_solidLines]

theorem length_coded_secondFinal (doc : Document) : (coded "LC402" doc.validate).length =
    ((doc.linesOf .rule).filter NumberedLine.isFinal).length - 1 := by
  rw [doc.coded_secondFinal]
  cases (doc.linesOf .rule).filter NumberedLine.isFinal with
  | nil => rfl
  | cons first rest => exact List.length_map ..

theorem coded_missingFinal (doc : Document) : coded "LC412" doc.validate =
    if (doc.linesOf .rule).filter NumberedLine.isFinal = [] then
      [Issue.missingFinal.on (((doc.sectionsOf .rule).head?.map Section.nameRange).getD (.point ⟨1, 1⟩))]
    else [] := by
  have found : (doc.solidLines (doc.sectionsOf .rule)).findSome? NumberedLine.final? =
      ((doc.linesOf .rule).filter NumberedLine.isFinal).head?.map NumberedLine.finalWord := by
    rw [NumberedLine.findSome?_final?, ← List.head?_filter, doc.filter_isFinal_solidLines]
  have place : doc.missingFinalRange =
      ((doc.sectionsOf .rule).head?.map Section.nameRange).getD (.point ⟨1, 1⟩) := by
    rw [missingFinalRange]
    cases doc.sectionsOf .rule <;> rfl
  rw [doc.coded_rules (.inr rfl), checkRules, coded_append, coded_missingFinal_checkRulesFrom, found,
    List.nil_append, place]
  cases (doc.linesOf .rule).filter NumberedLine.isFinal with
  | nil => exact coded_singleton rfl
  | cons first rest => rfl

end Document

/-- Of the complete `FINAL` rules of all rule sections, in the order of the document, every one but the
first is reported, at its word and with the word of the first one. A missing one is warned of, at the
first header of rules or at the start of the document, exactly if there is none. -/
theorem finals_accounted (s : Text) :
    let doc := Document.parse s
    let finals := (doc.linesOf .rule).filter NumberedLine.isFinal
    (coded "LC402" doc.validate = match finals with
      | [] => []
      | first :: rest => rest.map (secondFinal first)) ∧
    (coded "LC402" doc.validate).length = finals.length - 1 ∧
    coded "LC412" doc.validate = if finals = [] then
      [{ severity := .warning
         message := "A \"FINAL\" rule is missing."
         code := some "LC412"
         range := ((doc.sectionsOf .rule).head?.map Section.nameRange).getD (.point ⟨1, 1⟩) }]
      else [] := by
  intro doc finals
  exact ⟨doc.coded_secondFinal, doc.length_coded_secondFinal, doc.coded_missingFinal⟩

end ProxyConfig
