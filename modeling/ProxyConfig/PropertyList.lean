import ProxyConfig.Entry
import ProxyConfig.Issue

/-! # Property lists

Proxies and groups end in a list of `key=value` properties. The scan of such a list is data: a list
of findings in which an issue stands where it arises and each property with a known key stands where
its value is to be checked. `check` replaces the latter by what the check of the value reports.
-/

namespace ProxyConfig

/-- The codes that one family of property lists reports under. -/
structure PropertyCodes where
  expectedPair : String
  duplicate : String
  unknown : String
  notAllowed : String
  missing : String

/-- What a declaration accepts: the properties that it must and may have, and the wording for a
known property that it does not take. -/
structure PropertyRules (K : Type) where
  required : List K
  allowed : List K
  notAllowed : Text → String
  codes : PropertyCodes

/-- One finding of the scan of a property list. -/
inductive PropertyFinding (K : Type) where
  /-- A property with a known key, and the argument that holds it. -/
  | known (key : K) (property : Entry) (argument : Span)
  | issue (diagnostic : Diagnostic)

namespace PropertyRules

variable {K : Type} [Keyword K] [DecidableEq K]

def accepts (rules : PropertyRules K) (key : K) : Bool :=
  rules.required.contains key || rules.allowed.contains key

/-- The report on a key that an earlier property has already. -/
def repeated (rules : PropertyRules K) (earlier : List Entry) (property : Entry) :
    List (PropertyFinding K) :=
  match earlier.find? fun first => first.key.text == property.key.text with
  | none => []
  | some first =>
    [.issue (((Issue.duplicateKey rules.codes.duplicate property.key.text).on
      property.keyRange).withRelated first.keyRange (firstDefinition property.key.text))]

/-- The findings on one property behind the earlier ones. -/
def findingsOn (rules : PropertyRules K) (earlier : List Entry) (property : Entry)
    (argument : Span) : List (PropertyFinding K) :=
  rules.repeated earlier property ++
    match (Keyword.parse? property.key.text : Option K) with
    | none => [.issue ((Issue.unknownKey rules.codes.unknown property.key.text).on property.keyRange)]
    | some key =>
      if rules.accepts key then [.known key property argument]
      else
        [.known key property argument,
          .issue ((Issue.rejectedKey rules.codes.notAllowed (rules.notAllowed property.key.text)).on
            property.keyRange)]

/-- The required keys that no property has, reported at the whole value. -/
def missing (rules : PropertyRules K) (value : Range) (properties : List Entry) :
    List (PropertyFinding K) :=
  (rules.required.filter fun key => properties.all fun p => p.key.text != Keyword.text key).map
    fun key => .issue ((Issue.missingKey rules.codes.missing (Keyword.spelling key)).on value)

/-- The findings on the arguments behind the earlier properties, and on the missing keys at the end. -/
def scanFrom (rules : PropertyRules K) (line : Nat) (value : Range) (earlier : List Entry) :
    List Span → List (PropertyFinding K)
  | [] => rules.missing value earlier
  | argument :: rest =>
    match argument.property? line with
    | none =>
      .issue ((Issue.expectedPair rules.codes.expectedPair).on (argument.range line)) ::
        rules.scanFrom line value earlier rest
    | some property =>
      rules.findingsOn earlier property argument ++
        rules.scanFrom line value (earlier ++ [property]) rest

/-- The findings on a property list, in the order of its arguments. -/
def scan (rules : PropertyRules K) (line : Nat) (value : Range) (arguments : List Span) :
    List (PropertyFinding K) :=
  rules.scanFrom line value [] arguments

/-- The report on a property list; `checkValue` reports on the values of known keys. -/
def check (rules : PropertyRules K) (line : Nat) (value : Range)
    (checkValue : K → Entry → Span → List Diagnostic) (arguments : List Span) : List Diagnostic :=
  (rules.scan line value arguments).flatMap fun
    | .known key property argument => checkValue key property argument
    | .issue diagnostic => [diagnostic]

end PropertyRules

end ProxyConfig
