import ProxyConfig.Validation
import ProxyConfig.Proofs.Entry
import ProxyConfig.Proofs.Related

/-! # Verdicts

The verdict of a diagnostic is what it says apart from its wording and its columns. Values are checked
by their texts, so the verdicts on two readings of a list of arguments are the same if the texts are.
For a property list it is enough that the keys are the same and that the check of values agrees.
-/

namespace ProxyConfig

open Text

/-- A code, how bad it is, the line it is on and the lines that explain it. -/
structure Verdict where
  code : Option String
  severity : Severity
  line : Nat
  related : List Nat
deriving DecidableEq

namespace Diagnostic

/-- A diagnostic without its wording and its columns. -/
def verdict (d : Diagnostic) : Verdict :=
  ⟨d.code, d.severity, d.range.start.line, d.related.map fun r => r.range.start.line⟩

theorem verdict_withRelated {d d' : Diagnostic} {range range' : Range} {message message' : String}
    (same : d'.verdict = d.verdict) (line : range'.start.line = range.start.line) :
    (d'.withRelated range' message').verdict = (d.withRelated range message).verdict := by
  simp only [verdict, Verdict.mk.injEq] at same
  obtain ⟨code, severity, start, related⟩ := same
  simp only [verdict, withRelated, List.map_append, List.map_singleton, code, severity, start,
    related, line]

end Diagnostic

/-- Issues under one code have the same verdict wherever they are on their line. -/
theorem Issue.verdict_on {issue issue' : Issue} {range range' : Range}
    (code : issue'.code = issue.code) (severity : issue'.severity = issue.severity)
    (line : range'.start.line = range.start.line) :
    (issue'.on range').verdict = (issue.on range).verdict := by
  simp only [Diagnostic.verdict, on, code, severity, line]

/-- The verdicts of a report, in its order. -/
def verdicts (report : List Diagnostic) : List Verdict := report.map Diagnostic.verdict

section Reports

theorem verdicts_cons (d : Diagnostic) (report : List Diagnostic) :
    verdicts (d :: report) = d.verdict :: verdicts report := rfl

theorem verdicts_singleton {d d' : Diagnostic} (same : d'.verdict = d.verdict) :
    verdicts [d'] = verdicts [d] := congrArg (fun verdict => [verdict]) same

/-- The verdict on a single issue. -/
theorem verdicts_issue {issue issue' : Issue} {range range' : Range}
    (code : issue'.code = issue.code) (severity : issue'.severity = issue.severity)
    (line : range'.start.line = range.start.line) :
    verdicts [issue'.on range'] = verdicts [issue.on range] :=
  verdicts_singleton (Issue.verdict_on code severity line)

theorem verdicts_append (first second : List Diagnostic) :
    verdicts (first ++ second) = verdicts first ++ verdicts second := List.map_append

/-- Related items that are reported alike. -/
theorem verdicts_flatMap {α β : Type} {R : α → β → Prop} {items : List α} {items' : List β}
    {check : α → List Diagnostic} {check' : β → List Diagnostic}
    (related : List.Forall₂ R items items')
    (each : ∀ a b, R a b → verdicts (check' b) = verdicts (check a)) :
    verdicts (items'.flatMap check') = verdicts (items.flatMap check) :=
  related.map_flatMap each

end Reports

section Values

variable {a b : Span}

theorem Span.verdicts_checkPort (text : b.text = a.text) (line : Nat) :
    verdicts (b.checkPort line).toList = verdicts (a.checkPort line).toList := by
  rw [checkPort, checkPort, text]
  split
  · rfl
  · split <;> rfl

theorem Span.verdicts_checkBoolean (text : b.text = a.text) (line : Nat) :
    verdicts (b.checkBoolean line).toList = verdicts (a.checkBoolean line).toList := by
  rw [checkBoolean, checkBoolean, text]
  split <;> rfl

theorem Span.verdicts_checkInteger (text : b.text = a.text) (line : Nat) :
    verdicts (b.checkInteger line).toList = verdicts (a.checkInteger line).toList := by
  rw [checkInteger, checkInteger, text]
  split <;> rfl

theorem verdicts_checkExternal (text : b.text = a.text) (line : Nat) :
    verdicts (checkExternal b line) = verdicts (checkExternal a line) := by
  have fault : verdicts ((externalFault? a.text).map fun fault =>
      (Issue.invalidExternal fault).on (b.range line)).toList =
        verdicts ((externalFault? a.text).map fun fault =>
          (Issue.invalidExternal fault).on (a.range line)).toList := by
    cases externalFault? a.text <;> rfl
  rw [checkExternal, checkExternal, text, verdicts_append, verdicts_append, fault]
  split <;> rfl

/-- The halves of a port range are checked by their texts, wherever the range stands. -/
theorem verdicts_checkPortRange (text : b.text = a.text) (line : Nat) :
    verdicts (checkPortRange b line) = verdicts (checkPortRange a line) := by
  rw [checkPortRange, checkPortRange, text]
  split
  · rfl
  · next low high _ =>
    rw [verdicts_append, verdicts_append]
    congr 1
    · apply Span.verdicts_checkPort
      rfl
    · apply Span.verdicts_checkPort
      rfl

/-- A matcher is checked by its text. -/
theorem verdicts_checkMatcher (type : RuleType) (text : b.text = a.text) (line : Nat) :
    verdicts (checkMatcher type b line) = verdicts (checkMatcher type a line) := by
  cases type with
  | external => exact verdicts_checkExternal text line
  | portRange => exact verdicts_checkPortRange text line
  | ipCidr | network =>
    simp only [checkMatcher, text]
    split <;> rfl
  | domain | domainSuffix | domainKeyword | geoIp =>
    have empty : b.isEmpty = a.isEmpty := congrArg List.isEmpty text
    rw [checkMatcher, checkMatcher, empty]
    split <;> rfl
  | inboundTag | final => rfl

end Values

/-- Two readings of a property under one key. -/
structure Entry.SameKey (p q : Entry) : Prop where
  line : q.line = p.line
  key : q.key.text = p.key.text

section PropertyLists

variable {K : Type} [Keyword K] {R : Entry → Entry → Prop}

/-- Two findings on related properties: the same known key, or issues with the same verdict. -/
inductive PropertyFinding.Alike (R : Entry → Entry → Prop) :
    PropertyFinding K → PropertyFinding K → Prop where
  | known {key : K} {p q : Entry} (a b : Span) (related : R p q)
    (keyed : (Keyword.parse? p.key.text : Option K) = some key) :
    Alike R (.known key p a) (.known key q b)
  | issue {d d' : Diagnostic} (same : d'.verdict = d.verdict) : Alike R (.issue d) (.issue d')

namespace PropertyRules

variable {rules : PropertyRules K} {earlier earlier' : List Entry}
  {line : Nat} {value value' : Range}

theorem alike_repeated (keyed : ∀ p q, R p q → p.SameKey q) (before : List.Forall₂ R earlier earlier')
    {p q : Entry} (here : R p q) :
    List.Forall₂ (PropertyFinding.Alike R) (rules.repeated earlier p) (rules.repeated earlier' q) := by
  have same := keyed p q here
  have first := before.find? (p := fun first => first.key.text == p.key.text)
    (q := fun first => first.key.text == q.key.text) fun a b related => by
      rw [(keyed a b related).key, same.key]
  rw [repeated, repeated]
  generalize earlier.find? _ = a?, earlier'.find? _ = b? at first
  cases first with
  | none => exact .nil
  | @some a b related =>
    refine .cons (.issue ?_) .nil
    exact Diagnostic.verdict_withRelated (Issue.verdict_on rfl rfl same.line)
      (keyed a b related).line

/-- The missing keys are reported at the line of the value. -/
theorem alike_missing (keyed : ∀ p q, R p q → p.SameKey q)
    (before : List.Forall₂ R earlier earlier') (line : value'.start.line = value.start.line) :
    List.Forall₂ (PropertyFinding.Alike R) (rules.missing value earlier)
      (rules.missing value' earlier') := by
  have absent (key : K) : (earlier'.all fun p => p.key.text != Keyword.text key) =
      earlier.all fun p => p.key.text != Keyword.text key :=
    before.all_eq fun p q here => by rw [(keyed p q here).key]
  rw [missing, missing]
  simp only [absent]
  rw [List.forall₂_map_left_iff, List.forall₂_map_right_iff]
  exact List.forall₂_same.mpr fun key _ => .issue (Issue.verdict_on rfl rfl line)

variable [DecidableEq K]

theorem alike_findingsOn (keyed : ∀ p q, R p q → p.SameKey q)
    (before : List.Forall₂ R earlier earlier') {p q : Entry} (here : R p q) (a b : Span) :
    List.Forall₂ (PropertyFinding.Alike R) (rules.findingsOn earlier p a)
      (rules.findingsOn earlier' q b) := by
  have same := keyed p q here
  refine List.rel_append (alike_repeated keyed before here) ?_
  rw [same.key]
  cases known : (Keyword.parse? p.key.text : Option K) with
  | none => exact .cons (.issue (Issue.verdict_on rfl rfl same.line)) .nil
  | some key =>
    dsimp only
    split
    · exact .cons (.known a b here known) .nil
    · exact .cons (.known a b here known) (.cons (.issue (Issue.verdict_on rfl rfl same.line)) .nil)

/-- Arguments that hold related properties give findings alike. -/
theorem alike_scanFrom (keyed : ∀ p q, R p q → p.SameKey q)
    (start : value'.start.line = value.start.line) {arguments arguments' : List Span}
    (related : List.Forall₂ (fun a b => Option.Rel R (a.property? line) (b.property? line))
      arguments arguments') (before : List.Forall₂ R earlier earlier') :
    List.Forall₂ (PropertyFinding.Alike R) (rules.scanFrom line value earlier arguments)
      (rules.scanFrom line value' earlier' arguments') := by
  induction related generalizing earlier earlier' with
  | nil => exact alike_missing keyed before start
  | @cons a b rest rest' here _ ih =>
    rw [scanFrom, scanFrom]
    generalize a.property? line = p?, b.property? line = q? at here
    cases here with
    | none => exact .cons (.issue rfl) (ih before)
    | @some p q here =>
      exact List.rel_append (alike_findingsOn keyed before here a b)
        (ih (List.rel_append before (.cons here .nil)))

/-- A property list is judged by its keys, if the check of values does not tell related properties
apart. -/
theorem verdicts_check {checkValue checkValue' : K → Entry → Span → List Diagnostic}
    (keyed : ∀ p q, R p q → p.SameKey q)
    (values : ∀ key p q a b, R p q → (Keyword.parse? p.key.text : Option K) = some key →
      verdicts (checkValue' key q b) = verdicts (checkValue key p a))
    (start : value'.start.line = value.start.line) {arguments arguments' : List Span}
    (related : List.Forall₂ (fun a b => Option.Rel R (a.property? line) (b.property? line))
      arguments arguments') :
    verdicts (rules.check line value' checkValue' arguments') =
      verdicts (rules.check line value checkValue arguments) := by
  refine verdicts_flatMap (alike_scanFrom keyed start related .nil) fun first second alike => ?_
  cases alike with
  | known a b here known => exact values _ _ _ a b here known
  | issue same => exact verdicts_singleton same

end PropertyRules

end PropertyLists

section Proxies

/-- Two readings of a property with the same texts. -/
structure Entry.SameText (p q : Entry) : Prop extends p.SameKey q where
  value : q.value.text = p.value.text

/-- The pieces of a text have the same texts wherever it stands. -/
theorem Pieces.sameText_read (column column' : Nat) (s : Text) :
    List.Forall₂ (fun a b => b.text = a.text) (read column s).toList (read column' s).toList := by
  apply List.forall₂_of_map_eq
  rw [read_eq, read_eq, toList, toList, List.map_cons, List.map_cons, map_text_place,
    map_text_place, Span.text_trimmed, Span.text_trimmed]

theorem Span.sameText_property? {a b : Span} (text : b.text = a.text) (line : Nat) :
    Option.Rel Entry.SameText (a.property? line) (b.property? line) := by
  rw [property?, property?, Entry.parse?_eq, Entry.parse?_eq, text]
  cases cut? '=' a.text.uncommented with
  | none => exact .none
  | some halves =>
    refine .some ⟨⟨rfl, ?_⟩, ?_⟩
    · rw [text_trimmed, text_trimmed]
    · rw [text_trimmed, text_trimmed]

theorem verdicts_checkProxyValue {p q : Entry} (same : p.SameText q) (key : ProxyProperty) :
    verdicts (checkProxyValue key q) = verdicts (checkProxyValue key p) := by
  rw [checkProxyValue, checkProxyValue, same.line]
  split
  · rw [same.value]
    split
    · rfl
    · exact verdicts_issue rfl rfl same.line
  · exact Span.verdicts_checkBoolean same.value p.line
  · exact Span.verdicts_checkInteger same.value p.line
  · rfl
  · rfl
  · rfl

theorem verdicts_checkHostAndPort {e f : Entry} (line : f.line = e.line)
    {operands operands' : List Span}
    (texts : List.Forall₂ (fun a b => b.text = a.text) operands operands') :
    verdicts (checkHostAndPort f operands') = verdicts (checkHostAndPort e operands) := by
  have given (i : Nat) : Option.Rel (fun a b : Span => b.text = a.text)
      (operands[i]?.filter fun a => !a.isEmpty) (operands'[i]?.filter fun a => !a.isEmpty) := by
    have at? := texts.getElem? i
    generalize operands[i]? = a?, operands'[i]? = b? at at?
    cases at? with
    | none => exact .none
    | @some a b text =>
      have empty : b.isEmpty = a.isEmpty := congrArg List.isEmpty text
      rw [Option.filter_some, Option.filter_some, empty]
      split
      · exact .some text
      · exact .none
  have host := given 0
  have port := given 1
  rw [checkHostAndPort, checkHostAndPort]
  generalize (operands[0]?.filter fun a => !a.isEmpty) = host?,
    (operands'[0]?.filter fun a => !a.isEmpty) = host'? at host ⊢
  generalize (operands[1]?.filter fun a => !a.isEmpty) = port?,
    (operands'[1]?.filter fun a => !a.isEmpty) = port'? at port ⊢
  rw [verdicts_append, verdicts_append]
  congr 1
  · cases host with
    | none => exact verdicts_issue rfl rfl line
    | some text => rfl
  · cases port with
    | none => exact verdicts_issue rfl rfl line
    | some text =>
      dsimp only
      rw [line]
      exact Span.verdicts_checkPort text e.line

theorem verdicts_checkOperands (p : Protocol) {e f : Entry} (line : f.line = e.line)
    {operands operands' : List Span}
    (texts : List.Forall₂ (fun a b => b.text = a.text) operands operands') :
    verdicts (checkOperands p f operands') = verdicts (checkOperands p e operands) := by
  have extra (n : Nat) : verdicts ((operands'.drop n).map fun a =>
      Issue.unexpectedArgument.on (a.range f.line)) = verdicts ((operands.drop n).map fun a =>
        Issue.unexpectedArgument.on (a.range e.line)) := by
    rw [List.map_eq_flatMap, List.map_eq_flatMap]
    exact verdicts_flatMap (List.forall₂_drop n texts) fun a b _ => verdicts_issue rfl rfl line
  rw [checkOperands, checkOperands, verdicts_append, verdicts_append, extra]
  split
  · rw [verdicts_checkHostAndPort line texts]
  · rfl

/-- A proxy is judged by the text of its value. -/
theorem verdicts_checkProxy {e f : Entry} (line : f.line = e.line)
    (value : f.value.text = e.value.text) : verdicts (checkProxy f) = verdicts (checkProxy e) := by
  have texts : List.Forall₂ (fun a b => b.text = a.text) e.arguments.toList f.arguments.toList := by
    rw [Entry.arguments, Entry.arguments, value]
    exact Pieces.sameText_read ..
  have plain (a b : Span) (text : b.text = a.text) : b.isPlain = a.isPlain := by
    rw [Span.isPlain, Span.isPlain, text]
  have first : f.arguments.first.text = e.arguments.first.text := (List.forall₂_cons.mp texts).1
  have empty : f.arguments.first.isEmpty = e.arguments.first.isEmpty := congrArg List.isEmpty first
  have operands := (texts.takeWhile plain).tail
  have properties := (texts.dropWhile plain).imp fun a b text =>
    Span.sameText_property? text e.line
  rw [checkProxy, checkProxy, empty, first]
  split
  · exact verdicts_issue rfl rfl line
  · split
    · exact verdicts_issue rfl rfl line
    · next p _ =>
      rw [verdicts_append, verdicts_append, line]
      congr 1
      · exact PropertyRules.verdicts_check (R := Entry.SameText) (fun p q same => same.toSameKey)
          (fun key p q _ _ same _ => verdicts_checkProxyValue same key) line properties
      · exact verdicts_checkOperands p line operands

end Proxies

end ProxyConfig
