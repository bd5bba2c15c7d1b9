import ProxyConfig.Actor.Namespace
import ProxyConfig.Validation.Lines
import ProxyConfig.Value.Check

/-! # Checking rules

Every line is `TYPE, matcher, target` or `FINAL, target`. There is one `FINAL` rule, and every target
is a declared actor. Lines with a wrong number of pieces count for nothing else.
-/

namespace ProxyConfig

/-- What is wrong with the matcher of an `EXTERNAL` rule: it is `mmdb:<code>`, `site:<group>` or
`site:<file>:<group>`. -/
def externalFault? (matcher : Text) : Option ExternalFault :=
  match Text.pieces ':' matcher with
  | [] | [_] => some .tooFewParts
  | source :: code :: rest =>
    match (Keyword.parse? source : Option ExternalSource), rest with
    | none, _ => some (.unknownSource source)
    | some .mmdb, _ :: _ => some .tooManyCountryParts
    | some .mmdb, [] => if code.isEmpty then some .noCountry else none
    | some .site, [] => if code.isEmpty then some .noGroup else none
    | some .site, [group] =>
      if code.isEmpty then some .noFile else if group.isEmpty then some .noGroup else none
    | some .site, _ :: _ :: _ => some .tooManySiteParts

/-- Whether a blank stands right before or behind a colon. -/
def hasBlankAtColon : Text → Bool
  | ' ' :: ':' :: _ => true
  | ':' :: ' ' :: _ => true
  | _ :: s => hasBlankAtColon s
  | [] => false

/-- The report on the matcher of an `EXTERNAL` rule. -/
def checkExternal (matcher : Span) (line : Nat) : List Diagnostic :=
  let range := matcher.range line
  (if hasBlankAtColon matcher.text then [Issue.blanksInExternal.on range] else [])
    ++ ((externalFault? matcher.text).map fun fault => (Issue.invalidExternal fault).on range).toList

/-- The report on a range `port-port`, each port checked where it stands. -/
def checkPortRange (matcher : Span) (line : Nat) : List Diagnostic :=
  match Text.cut? '-' matcher.text with
  | none => [Issue.portRangeWithoutHyphen.on (matcher.range line)]
  | some (low, high) =>
    (Span.checkPort ⟨low, matcher.column⟩ line).toList
      ++ (Span.checkPort ⟨high, matcher.column + low.length + 1⟩ line).toList

/-- The report on a matcher, by the type of its rule. -/
def checkMatcher (type : RuleType) (matcher : Span) (line : Nat) : List Diagnostic :=
  let range := matcher.range line
  match type with
  | .ipCidr => if matcher.text.isNetwork then [] else [Issue.invalidNetwork.on range]
  | .domain | .domainSuffix | .domainKeyword | .geoIp =>
    if matcher.isEmpty then [Issue.emptyMatcher.on range] else []
  | .external => checkExternal matcher line
  | .portRange => checkPortRange matcher line
  | .network =>
    if isListed networks matcher.text then []
    else [(Issue.unknownTransport matcher.text).on range]
  | .inboundTag | .final => []

/-- The issue with a rule that has the wrong number of arguments. -/
def arityIssue (type : RuleType) (found : Nat) : Issue :=
  if type = .final then .finalArity found else .ruleArity found

/-- The report on the target of a rule. -/
def checkTarget (actors : Namespace) (target : Span) (line : Nat) : List Diagnostic :=
  if actors.contains target.text then []
  else [(Issue.undefinedTarget target.text).on (target.range line)]

/-- The report on a `FINAL` rule, given the range of the first one if there was one before. -/
def checkFinal (first? : Option Range) (here : Range) : List Diagnostic :=
  match first? with
  | none => []
  | some first => [(Issue.secondFinal.on here).withRelated first "First \"FINAL\" rule is here."]

/-- The range of the word `FINAL` on a line that is a complete rule of this type. -/
def NumberedLine.final? (line : NumberedLine) : Option Range :=
  match (Keyword.parse? line.pieces.first.text : Option RuleType), line.pieces.others with
  | some .final, [_] => some (line.pieces.first.range line.number)
  | _, _ => none

/-- The report on one rule, given the range of the first complete `FINAL` rule before it. -/
def checkRule (actors : Namespace) (first? : Option Range) (line : NumberedLine) :
    List Diagnostic :=
  let type := line.pieces.first
  match (Keyword.parse? type.text : Option RuleType) with
  | none => [(Issue.unknownRuleType type.text).on (type.range line.number)]
  | some .final =>
    match line.pieces.others with
    | [target] =>
      checkFinal first? (type.range line.number) ++ checkTarget actors target line.number
    | others => [line.report (arityIssue .final others.length)]
  | some known =>
    match line.pieces.others with
    | [matcher, target] =>
      checkMatcher known matcher line.number ++ checkTarget actors target line.number
    | others => [line.report (arityIssue known others.length)]

/-- The reports on the rules behind the first complete `FINAL` rule, if there was one. -/
def checkRulesFrom (actors : Namespace) (first? : Option Range) :
    List NumberedLine → List Diagnostic
  | [] => []
  | line :: rest =>
    checkRule actors first? line ++ checkRulesFrom actors (first?.or line.final?) rest

/-- Where a missing `FINAL` rule is reported: at the first header of rules, else at the start. -/
def Document.missingFinalRange (doc : Document) : Range :=
  match doc.sectionsOf .rule with
  | s :: _ => s.nameRange
  | [] => .point ⟨1, 1⟩

/-- The report on the rules. -/
def Document.checkRules (doc : Document) : List Diagnostic :=
  let lines := doc.solidLines (doc.sectionsOf .rule)
  checkRulesFrom doc.actors none lines
    ++ if (lines.findSome? NumberedLine.final?).isSome then []
      else [Issue.missingFinal.on doc.missingFinalRange]

end ProxyConfig
