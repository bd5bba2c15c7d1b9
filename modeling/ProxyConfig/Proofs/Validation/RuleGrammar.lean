import ProxyConfig.Proofs.Earlier
import ProxyConfig.Proofs.Validation.Finals
import ProxyConfig.Proofs.Validation.LocalErrors
import ProxyConfig.Proofs.Value.Networks

/-! # The grammar of rules

Every type of rules has matchers of its own, and the check of a matcher accepts exactly those. With a
declared target they make a rule, and so does the first `FINAL` with a declared target. A line of a rule
section is reported without errors exactly if it is one of these rules.
-/

namespace ProxyConfig

open Text

/-! ## Matchers -/

namespace Text

/-- A part between the colons of an external matcher. -/
def IsExternalPart (s : Text) : Prop := s ≠ [] ∧ ':' ∉ s

/-- `mmdb` and a country, `site` and a group, or `site`, a file and a group, with colons between them. -/
def IsExternal (s : Text) : Prop :=
  (∃ country : Text, s = "mmdb".toList ++ ':' :: country ∧ country.IsExternalPart) ∨
    (∃ group : Text, s = "site".toList ++ ':' :: group ∧ group.IsExternalPart) ∨
      ∃ file group : Text, s = "site".toList ++ ':' :: (file ++ ':' :: group) ∧ file.IsExternalPart ∧
        group.IsExternalPart

/-- Two ports with a hyphen between them. -/
def IsPortRange (s : Text) : Prop :=
  ∃ low high : Text, s = low ++ '-' :: high ∧ low.IsPort ∧ high.IsPort

variable {s : Text}

/-- The parts of an external matcher are its pieces. -/
theorem isExternal_iff_pieces : s.IsExternal ↔
    (∃ country, pieces ':' s = [Keyword.text ExternalSource.mmdb, country] ∧ country ≠ []) ∨
      (∃ group, pieces ':' s = [Keyword.text ExternalSource.site, group] ∧ group ≠ []) ∨
        ∃ file group, pieces ':' s = [Keyword.text ExternalSource.site, file, group] ∧ file ≠ [] ∧
          group ≠ [] := by
  have bare (source : ExternalSource) : ':' ∉ Keyword.text source := by cases source <;> decide
  have pair (source : ExternalSource) (t : Text) :
      pieces ':' s = [Keyword.text source, t] ∧ t ≠ [] ↔
        s = Keyword.text source ++ ':' :: t ∧ t.IsExternalPart := by
    rw [pieces_eq_cons_iff, IsExternalPart, List.forall_mem_singleton, List.flatMap_singleton]
    simp only [bare source, not_false_eq_true, true_and, and_assoc, and_comm (a := t ≠ [])]
  have triple (source : ExternalSource) (t u : Text) :
      pieces ':' s = [Keyword.text source, t, u] ∧ t ≠ [] ∧ u ≠ [] ↔
        s = Keyword.text source ++ ':' :: (t ++ ':' :: u) ∧ t.IsExternalPart ∧ u.IsExternalPart := by
    rw [pieces_eq_cons_iff, IsExternalPart, IsExternalPart, List.forall_mem_cons,
      List.forall_mem_singleton, List.flatMap_cons, List.flatMap_singleton, List.cons_append]
    simp only [bare source, not_false_eq_true, true_and]
    tauto
  simp only [pair, triple]
  rfl

theorem externalFault?_eq_none_iff : externalFault? s = none ↔ s.IsExternal := by
  rw [isExternal_iff_pieces, externalFault?]
  rcases pieces ':' s with _ | ⟨source, _ | ⟨code, rest⟩⟩
  · simp
  · simp
  · dsimp only
    cases known : (Keyword.parse? source : Option ExternalSource) with
    | none =>
      have other (k : ExternalSource) : source ≠ Keyword.text k := by
        rintro rfl
        rw [Keyword.Readable.parse?_spelling] at known
        cases known
      simp [other]
    | some k =>
      obtain rfl := Keyword.text_of_parse? known
      have spelled : Keyword.text ExternalSource.mmdb ≠ Keyword.text ExternalSource.site := by decide
      cases k with
      | mmdb => cases rest <;> simp [spelled]
      | site =>
        rcases rest with _ | ⟨group, _ | ⟨_, _⟩⟩
        · simp [spelled.symm]
        · cases code <;> cases group <;> simp [spelled.symm]
        · simp [spelled.symm]

end Text

/-- The matchers of a type of rules. A `FINAL` rule has none. -/
def RuleType.Matches : RuleType → Text → Prop
  | .ipCidr, m => m.IsNetwork
  | .domain, m | .domainSuffix, m | .domainKeyword, m | .geoIp, m => m ≠ []
  | .external, m => m.IsExternal
  | .portRange, m => m.IsPortRange
  | .network, m => m = "TCP".toList ∨ m = "UDP".toList
  | .inboundTag, _ => True
  | .final, _ => False

section Matchers

variable {matcher : Span} {line : Nat}

/-- Blanks around colons are warned of only. -/
theorem errorless_checkExternal_iff :
    Errorless (checkExternal matcher line) ↔ matcher.text.IsExternal := by
  have warning : Errorless (if hasBlankAtColon matcher.text then
      [Issue.blanksInExternal.on (matcher.range line)] else []) := by
    split <;> simp [Errorless, Issue.on, Issue.severity]
  rw [checkExternal, errorless_append, and_iff_right warning, ← externalFault?_eq_none_iff]
  cases externalFault? matcher.text with
  | none => exact iff_of_true errorless_nil rfl
  | some fault => exact iff_of_false (fun clean => clean.severity_ne rfl) (Option.some_ne_none _)

theorem errorless_checkPortRange_iff :
    Errorless (checkPortRange matcher line) ↔ matcher.text.IsPortRange := by
  rw [checkPortRange]
  cases cut : cut? '-' matcher.text with
  | none =>
    refine iff_of_false (fun clean => clean.severity_ne rfl) ?_
    rintro ⟨low, high, split, -⟩
    rw [cut?_eq_none_iff, split] at cut
    exact cut (List.mem_append_right _ (List.mem_cons_self ..))
  | some halves =>
    obtain ⟨low, high⟩ := halves
    obtain ⟨split, -⟩ := cut?_eq_some_iff.mp cut
    dsimp only
    rw [errorless_append, Span.errorless_checkPort_iff, Span.errorless_checkPort_iff]
    constructor
    · exact fun ports => ⟨low, high, split, ports⟩
    · rintro ⟨first, last, other, port, ports⟩
      -- a port holds no hyphen, so it ends at the first one
      have absent : '-' ∉ first := not_mem_of_isDigits port.1 rfl
      rw [other, cut?_append_cons absent] at cut
      cases cut
      exact ⟨port, ports⟩

theorem errorless_checkMatcher_iff {type : RuleType} (other : type ≠ .final) :
    Errorless (checkMatcher type matcher line) ↔ type.Matches matcher.text := by
  have named : Errorless (if matcher.isEmpty then [Issue.emptyMatcher.on (matcher.range line)] else [])
      ↔ matcher.text ≠ [] := by
    rw [Span.isEmpty]
    cases matcher.text with
    | nil => exact iff_of_false (fun clean => clean.severity_ne rfl) (fun solid => solid rfl)
    | cons c rest => exact iff_of_true errorless_nil (List.cons_ne_nil c rest)
  rw [checkMatcher.eq_def]
  cases type with
  | ipCidr => exact (errorless_ite_iff rfl).trans isNetwork_iff
  | domain | domainSuffix | domainKeyword | geoIp => exact named
  | external => exact errorless_checkExternal_iff
  | portRange => exact errorless_checkPortRange_iff
  | network =>
    refine (errorless_ite_iff rfl).trans (isListed_iff.trans ?_)
    simp [networks, RuleType.Matches, eq_comm]
  | inboundTag => exact iff_of_true errorless_nil trivial
  | final => exact absurd rfl other

end Matchers

/-! ## Rules -/

theorem errorless_checkRule_iff {actors : Namespace} {first? : Option Range} {l : NumberedLine} :
    Errorless (checkRule actors first? l) ↔ ∃ target, actors.contains target = true ∧
      ((l.fields = ["FINAL".toList, target] ∧ first? = none) ∨
        ∃ (type : RuleType) (matcher : Text), l.fields = [Keyword.text type, matcher, target] ∧
          type.Matches matcher) := by
  have parts (type : RuleType) (texts : List Text) : l.fields = Keyword.text type :: texts ↔
      Keyword.parse? l.pieces.first.text = some type ∧ l.pieces.others.map Span.text = texts := by
    rw [← l.map_text_pieces, Pieces.toList, List.map_cons, List.cons.injEq, Keyword.parse?_eq_some_iff,
      eq_comm (a := l.pieces.first.text)]
  rw [errorless_checkRule_iff_parts]
  constructor
  · rintro ⟨type, known, ⟨rfl, alone, target, others, declared⟩ |
      ⟨other, matcher, target, others, matched, declared⟩⟩
    · refine ⟨target.text, declared, .inl ⟨?_, alone⟩⟩
      exact (parts .final _).mpr ⟨known, by rw [others, List.map_singleton]⟩
    · refine ⟨target.text, declared, .inr ⟨type, matcher.text, ?_, ?_⟩⟩
      · exact (parts type _).mpr ⟨known, by rw [others, List.map_cons, List.map_singleton]⟩
      · exact (errorless_checkMatcher_iff other).mp matched
  · rintro ⟨text, declared, ⟨fields, alone⟩ | ⟨type, matcher, fields, matched⟩⟩
    · obtain ⟨known, others⟩ := (parts .final _).mp fields
      obtain ⟨target, single, rfl⟩ := List.map_eq_singleton_iff.mp others
      exact ⟨.final, known, .inl ⟨rfl, alone, target, single, declared⟩⟩
    · obtain ⟨known, others⟩ := (parts type _).mp fields
      obtain ⟨first, behind, pair, rfl, rest⟩ := List.map_eq_cons_iff.mp others
      obtain ⟨target, rfl, rfl⟩ := List.map_eq_singleton_iff.mp rest
      have other : type ≠ .final := by
        rintro rfl
        exact matched
      exact ⟨type, known, .inr ⟨other, first, target, pair,
        (errorless_checkMatcher_iff other).mpr matched, declared⟩⟩

section Lines

variable {actors : Namespace} {lines : List NumberedLine}

/-- A rule is reported on its line. -/
theorem line_of_mem_checkRule {first? : Option Range} {l : NumberedLine} :
    ∀ d ∈ checkRule actors first? l, d.range.start.line = l.number := by
  have self : l.Moved (fun _ => l.number) l := ⟨rfl, rfl⟩
  have fixed := (checkRule_moved (fun t => rfl : ∀ t, actors.contains t = actors.contains t) none self)
  rw [checkRule_eq]
  refine List.forall_mem_append.mpr ⟨?_, fun d member => (liesOn_of_fixed fixed d member).1⟩
  intro d member
  split at member
  · cases first? with
    | none => cases member
    | some first =>
      rw [List.mem_singleton.mp member]
      rfl
  · cases member

/-- In lines with rising numbers, no final rule stands before a line if none has a lower number. -/
theorem findSome?_final?_eq_none_iff (ordered : lines.Pairwise fun a b => a.number < b.number)
    {p : List NumberedLine × NumberedLine} (member : p ∈ lines.withEarlier) :
    p.1.findSome? NumberedLine.final? = none ↔
      ∀ m ∈ lines, m.number < p.2.number → m.isFinal = false := by
  obtain ⟨later, rfl⟩ := List.mem_withEarlier_iff.mp member
  obtain ⟨-, behind, before⟩ := List.pairwise_append.mp ordered
  rw [NumberedLine.findSome?_final?, Option.map_eq_none_iff, List.find?_eq_none]
  simp only [Bool.not_eq_true]
  constructor
  · intro none m inside lower
    rcases List.mem_append.mp inside with earlier | rest
    · exact none m earlier
    · rcases List.mem_cons.mp rest with rfl | rest
      · exact absurd lower (Nat.lt_irrefl _)
      · exact absurd ((List.pairwise_cons.mp behind).1 m rest) (Nat.lt_asymm lower)
  · intro none m inside
    exact none m (List.mem_append_left _ inside) (before m inside p.2 (List.mem_cons_self ..))

end Lines

namespace Document

variable {doc : Document} {l : NumberedLine}

/-- The target is a declared name, and the line is the first complete `FINAL` rule of the document, or
it has a matcher of its type. -/
def IsRule (doc : Document) (l : NumberedLine) : Prop :=
  ∃ target, (∃ e ∈ doc.entries .proxy ++ doc.entries .proxyGroup, e.key.text = target) ∧
    ((l.fields = ["FINAL".toList, target] ∧ ∀ m ∈ doc.linesOf .rule, m.number < l.number →
        ∀ other, m.fields ≠ ["FINAL".toList, other]) ∨
      ∃ (type : RuleType) (matcher : Text), l.fields = [Keyword.text type, matcher, target] ∧
        type.Matches matcher)

/-- A line among the solid lines of rules is accepted behind the lines before it exactly if it is a
rule of the document. -/
theorem errorless_checkRule_iff_isRule {p : List NumberedLine × NumberedLine}
    (member : p ∈ (doc.solidLines (doc.sectionsOf .rule)).withEarlier) :
    Errorless (checkRule doc.actors (p.1.findSome? NumberedLine.final?) p.2) ↔ doc.IsRule p.2 := by
  have declared (target : Text) : doc.actors.contains target = true ↔
      ∃ e ∈ doc.entries .proxy ++ doc.entries .proxyGroup, e.key.text = target := by
    rw [Namespace.contains_iff, map_name_actors, List.mem_map]
  have alone : p.1.findSome? NumberedLine.final? = none ↔ ∀ m ∈ doc.linesOf .rule,
      m.number < p.2.number → ∀ other, m.fields ≠ ["FINAL".toList, other] := by
    rw [findSome?_final?_eq_none_iff (doc.solidLines_pairwise .rule) member]
    constructor
    · rintro none m inside lower other fields
      have final : m.isFinal = true := NumberedLine.isFinal_iff_fields.mpr ⟨other, fields⟩
      have solid := mem_solidLines_iff.mpr ⟨List.mem_flatMap.mp inside, NumberedLine.solid_of_isFinal final⟩
      rw [none m solid lower] at final
      cases final
    · intro none m inside lower
      refine Bool.not_eq_true _ ▸ fun final => ?_
      obtain ⟨other, fields⟩ := NumberedLine.isFinal_iff_fields.mp final
      obtain ⟨chosen, -⟩ := mem_solidLines_iff.mp inside
      exact none m (List.mem_flatMap.mpr chosen) lower other fields
  simp only [errorless_checkRule_iff, declared, alone, IsRule]

end Document

/-- A line of a rule section that holds something besides a comment is reported without errors exactly
if it is a rule. -/
theorem rule_line_accepted_iff (s : Text) {l : NumberedLine}
    (member : l ∈ (Document.parse s).linesOf .rule) (solid : l.text.isVoid = false) :
    (∀ d ∈ (Document.parse s).checkRules, d.range.start.line = l.number → d.severity ≠ .error) ↔
      (Document.parse s).IsRule l := by
  generalize Document.parse s = doc at member
  have among : l ∈ doc.solidLines (doc.sectionsOf .rule) := by
    rw [doc.solidLines_sectionsOf_eq, List.mem_filter, solid]
    exact ⟨member, rfl⟩
  obtain ⟨p, here, rfl⟩ := List.exists_mem_withEarlier among
  rw [← Document.errorless_checkRule_iff_isRule here]
  constructor
  · intro clean d found
    refine clean d (List.mem_append_left _ ?_) (line_of_mem_checkRule d found)
    rw [checkRulesFrom_eq_flatMap]
    exact List.mem_flatMap.mpr ⟨p, here, found⟩
  · intro clean d found same
    rcases List.mem_append.mp found with rule | missing
    · rw [checkRulesFrom_eq_flatMap] at rule
      obtain ⟨q, there, reported⟩ := List.mem_flatMap.mp rule
      -- what is reported on the line is reported for it, as no other line has its number
      have distinct := List.pairwise_map.mpr
        ((doc.solidLines_pairwise .rule).imp fun less => Nat.ne_of_lt less)
      rw [line_of_mem_checkRule d reported] at same
      rw [List.eq_of_mem_withEarlier distinct there here same] at reported
      exact clean d reported
    · split at missing
      · cases missing
      · rw [List.mem_singleton.mp missing]
        exact Severity.noConfusion

/-- A `FINAL` rule behind one with a matcher, which is no rule and does not count. -/
theorem isRule_final :
    let s := "[Rule]\nFINAL, b, a\n FINAL ,a # all\n[Proxy]\na = direct".toList
    let l : NumberedLine := ⟨3, " FINAL ,a # all".toList⟩
    l ∈ (Document.parse s).linesOf .rule ∧ l.text.isVoid = false ∧ (Document.parse s).IsRule l := by
  intro s l
  have member : l ∈ (Document.parse s).linesOf .rule := by decide +kernel
  exact ⟨member, by decide, (rule_line_accepted_iff s member (by decide)).mp (by decide +kernel)⟩

end ProxyConfig
