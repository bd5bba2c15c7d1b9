import ProxyConfig.Diagnostic
import ProxyConfig.Schema.Section
import ProxyConfig.Schema.Setting
import ProxyConfig.Schema.Proxy
import ProxyConfig.Schema.Group
import ProxyConfig.Schema.Rule

/-! # Issues

Everything that the validators can find wrong, apart from where it is. Each issue has a stable code,
a severity and a wording. The codes fall into families: `LC0` sections, `LC1` general settings, `LC2`
proxies and actor names, `LC3` proxy groups, `LC4` rules, `LC5` hosts, `LC6` environment variables,
and `LC8` values that occur in every section.
-/

namespace ProxyConfig

/-- What is wrong with the matcher of an `EXTERNAL` rule. -/
inductive ExternalFault where
  | tooFewParts
  | unknownSource (name : Text)
  | tooManyCountryParts
  | noCountry
  | tooManySiteParts
  | noFile
  | noGroup

/-- The wording of a fault in an `EXTERNAL` rule. -/
def ExternalFault.message : ExternalFault → String
  | tooFewParts =>
    "An external rule must have at least two components, separated by colons."
  | unknownSource name => s!"Unknown external rule source \"{String.ofList name}\"."
  | tooManyCountryParts => "An external MMDB rule cannot have more than two components."
  | noCountry => "An external MMDB rule must have a non-empty country code."
  | tooManySiteParts => "An external site rule cannot have more than three components."
  | noFile => "An external site rule must have a non-empty database file name."
  | noGroup => "An external site rule must have a non-empty domain group."

/-- A finding of a validator, apart from its place. -/
inductive Issue where
  -- Sections
  | strayContent
  | trailingHeaderText
  | unknownSection (name : Text)
  | duplicateSection (name : Text)
  -- General settings
  | settingWithoutEquals
  | duplicateSetting (key : Text)
  | unknownSetting (key : Text)
  | tunFdNote
  | tunNotAuto
  | invalidLogLevel
  | excludedSetting (key other : SettingKey)
  -- Actor names
  | declarationWithoutEquals
  | duplicateProxy (name : Text)
  | proxyNamedLikeGroup (name : Text)
  | duplicateGroup (name : Text)
  | groupNamedLikeProxy (name : Text)
  -- Proxies
  | expectedProtocol
  | unknownProtocol (name : Text)
  | expectedHost
  | expectedPort
  | unexpectedArgument
  | unknownCipher (name : Text)
  -- Proxy groups
  | expectedGroupType
  | removedGroupType
  | unknownGroupType (name : Text)
  | failoverInUrlTest
  | unknownMethod (name : Text)
  | noActors
  | emptyActor
  | unresolvedActor (name : Text)
  | unresolvedLastResort (name : Text)
  -- Property lists; each family of lists has codes of its own
  | expectedPair (code : String)
  | duplicateKey (code : String) (key : Text)
  | unknownKey (code : String) (key : Text)
  | rejectedKey (code : String) (wording : String)
  | missingKey (code : String) (key : String)
  -- Rules
  | finalArity (found : Nat)
  | secondFinal
  | ruleArity (found : Nat)
  | unknownRuleType (name : Text)
  | invalidNetwork
  | emptyMatcher
  | blanksInExternal
  | invalidExternal (fault : ExternalFault)
  | portRangeWithoutHyphen
  | unknownTransport (name : Text)
  | undefinedTarget (name : Text)
  | missingFinal
  -- Hosts
  | hostWithoutEquals
  | duplicateHost (name : Text)
  -- Environment variables
  | variableWithoutEquals
  | unnamedVariable
  -- Values
  | invalidPort
  | portOutOfRange
  | notBoolean (meantTrue : Bool)
  | notInteger
  | invalidAddress

namespace Issue

/-- The stable code of the issue. -/
def code : Issue → String
  | strayContent => "LC001"
  | trailingHeaderText => "LC002"
  | unknownSection _ => "LC003"
  | duplicateSection _ => "LC004"
  | settingWithoutEquals => "LC101"
  | duplicateSetting _ => "LC102"
  | unknownSetting _ => "LC103"
  | tunFdNote => "LC104"
  | tunNotAuto => "LC105"
  | invalidLogLevel => "LC106"
  | excludedSetting _ _ => "LC107"
  | declarationWithoutEquals => "LC201"
  | duplicateProxy _ => "LC202"
  | proxyNamedLikeGroup _ => "LC203"
  | duplicateGroup _ => "LC204"
  | groupNamedLikeProxy _ => "LC205"
  | expectedProtocol => "LC210"
  | unknownProtocol _ => "LC211"
  | expectedHost => "LC217"
  | expectedPort => "LC218"
  | unexpectedArgument => "LC219"
  | unknownCipher _ => "LC220"
  | expectedGroupType => "LC301"
  | removedGroupType => "LC302"
  | unknownGroupType _ => "LC303"
  | failoverInUrlTest => "LC304"
  | unknownMethod _ => "LC305"
  | noActors => "LC306"
  | emptyActor => "LC307"
  | unresolvedActor _ => "LC308"
  | unresolvedLastResort _ => "LC309"
  | expectedPair code | duplicateKey code _ | unknownKey code _ | rejectedKey code _
  | missingKey code _ => code
  | finalArity _ => "LC401"
  | secondFinal => "LC402"
  | ruleArity _ => "LC403"
  | unknownRuleType _ => "LC404"
  | invalidNetwork => "LC405"
  | emptyMatcher => "LC406"
  | blanksInExternal => "LC407"
  | invalidExternal _ => "LC408"
  | portRangeWithoutHyphen => "LC409"
  | unknownTransport _ => "LC410"
  | undefinedTarget _ => "LC411"
  | missingFinal => "LC412"
  | hostWithoutEquals => "LC501"
  | duplicateHost _ => "LC502"
  | variableWithoutEquals => "LC601"
  | unnamedVariable => "LC602"
  | invalidPort => "LC801"
  | portOutOfRange => "LC802"
  | notBoolean _ => "LC803"
  | notInteger => "LC804"
  | invalidAddress => "LC805"

/-- All issues are errors but a few. -/
def severity : Issue → Severity
  | tunFdNote => .info
  | duplicateSection _ | tunNotAuto | failoverInUrlTest | blanksInExternal | missingFinal
  | notBoolean _ => .warning
  | _ => .error

/-- The wording of the issue. -/
def message : Issue → String
  | strayContent => "Content does not belong to any section."
  | trailingHeaderText => "Unexpected content after section header."
  | unknownSection name =>
    let known := ", ".intercalate (Keyword.spellings SectionKind)
    s!"Unknown section name: {String.ofList name}.\nSection names can only be one of: {known}"
  | duplicateSection name => s!"Duplicate section name: {String.ofList name}"
  | settingWithoutEquals | declarationWithoutEquals | hostWithoutEquals
  | variableWithoutEquals => "Expected \"=\"."
  | duplicateSetting key => s!"Duplicate setting \"{String.ofList key}\"."
  | unknownSetting key => s!"Unknown setting entry \"{String.ofList key}\"."
  | tunFdNote =>
    "tun-fd is only a dummy option for Leaf core to enable TUN inbound on UWP VPN Platform. "
      ++ "\"tun = auto\" has the same effect with better semantics."
  | tunNotAuto => "Any value for \"tun\" except \"auto\" has no effect."
  | invalidLogLevel => s!"Invalid log level. Valid values are \"{quotedList logLevels}\"."
  | excludedSetting key other =>
    s!"Cannot set \"{Keyword.spelling key}\" when \"{Keyword.spelling other}\" is present."
  | duplicateProxy name => s!"Duplicate definition of proxy \"{String.ofList name}\"."
  | proxyNamedLikeGroup name =>
    s!"Proxy \"{String.ofList name}\" conflicts with a proxy group of the same name."
  | duplicateGroup name => s!"Duplicate definition of proxy group \"{String.ofList name}\"."
  | groupNamedLikeProxy name =>
    s!"Proxy group \"{String.ofList name}\" conflicts with a proxy of the same name."
  | expectedProtocol => "Expected proxy protocol."
  | unknownProtocol name =>
    let known := quotedList (Keyword.spellings Protocol)
    s!"Unknown proxy protocol \"{String.ofList name}\". Allowed values are \"{known}\"."
  | expectedHost => "Expected host name."
  | expectedPort => "Expected port number."
  | unexpectedArgument => "Unexpected argument."
  | unknownCipher name =>
    let known := quotedList aeadCiphers
    s!"Unknown encryption method \"{String.ofList name}\". Allowed values are \"{known}\"."
  | expectedGroupType => "Expected proxy group type."
  | removedGroupType =>
    "Proxy group type \"random\" has been replaced by \"static\" with \"method=random\"."
  | unknownGroupType name =>
    let known := quotedList (Keyword.spellings GroupType)
    s!"Unknown group type \"{String.ofList name}\". Allowed values are \"{known}\"."
  | failoverInUrlTest =>
    "\"url-test\" means \"failover\" with \"failover=false\". "
      ++ "Use \"failover\" as group type to customize \"failover\" option."
  | unknownMethod name =>
    let known := quotedList groupMethods
    s!"Unknown method \"{String.ofList name}\". Allowed values are \"{known}\"."
  | noActors => "A proxy group must have at least one actor."
  | emptyActor => "Empty actor."
  | unresolvedActor name | unresolvedLastResort name =>
    s!"Cannot find actor \"{String.ofList name}\" as a proxy or proxy group."
  | expectedPair _ => "Expected key=value pair."
  | duplicateKey _ key => s!"Duplicate key \"{String.ofList key}\"."
  | unknownKey _ key => s!"Unknown key \"{String.ofList key}\"."
  | rejectedKey _ wording => wording
  | missingKey _ key => s!"Missing key \"{key}\"."
  | finalArity found => s!"Expected 1 arguments for \"FINAL\" rules, found {found}."
  | secondFinal => "Multiple \"FINAL\" rules found."
  | ruleArity found => s!"Expected 2 arguments, found {found}."
  | unknownRuleType name => s!"Unknown rule type \"{String.ofList name}\"."
  | invalidNetwork => "Invalid CIDR."
  | emptyMatcher => "Expected non-empty string."
  | blanksInExternal =>
    "Spaces in external rules will not be trimmed. Please remove spaces around the colons."
  | invalidExternal fault => fault.message
  | portRangeWithoutHyphen =>
    "A port range must have two components, separated by a hyphen (\"-\")."
  | unknownTransport name =>
    s!"Unknown network type \"{String.ofList name}\". Allowed values are \"TCP\" and \"UDP\"."
  | undefinedTarget name => s!"Proxy or proxy group \"{String.ofList name}\" is not defined."
  | missingFinal => "A \"FINAL\" rule is missing."
  | duplicateHost name => s!"Duplicate host name \"{String.ofList name}\"."
  | unnamedVariable => "Expected a variable name."
  | invalidPort => "Invalid port number."
  | portOutOfRange => "Port number must be in range 0-65535."
  | notBoolean meantTrue =>
    let hint := if meantTrue then " Do you mean \"true\"?" else ""
    s!"Any value except \"true\" is treated as \"false\".{hint}"
  | notInteger => "Expected an integer."
  | invalidAddress => "Invalid IP address."

/-- The issue reported at a range. -/
def on (issue : Issue) (range : Range) : Diagnostic where
  severity := issue.severity
  message := issue.message
  code := some issue.code
  range := range

end Issue

/-- The note at the first of two definitions of a name. -/
def firstDefinition (name : Text) : String :=
  s!"First definition of \"{String.ofList name}\" is here."

end ProxyConfig
