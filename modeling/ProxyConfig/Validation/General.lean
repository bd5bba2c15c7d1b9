import ProxyConfig.Validation.Lines
import ProxyConfig.Value.Check

/-! # Checking general settings

Every line is `key = value` with a known key that occurs once. The value is checked by the kind of
its key. Of `always-real-ip` and `always-fake-ip`, the one that comes first excludes the other.
-/

namespace ProxyConfig

namespace Entry

/-- The known key of a setting. -/
def settingKey? (entry : Entry) : Option SettingKey := Keyword.parse? entry.key.text

/-- The key of a setting that takes a list of domains. -/
def domainListKey? (entry : Entry) : Option SettingKey :=
  entry.settingKey?.filter fun key => key.kind == .domainList

end Entry

/-- The other one of the two keys that exclude each other. -/
def SettingKey.counterpart : SettingKey → SettingKey
  | .alwaysRealIp => .alwaysFakeIp
  | _ => .alwaysRealIp

/-- The report on a value, by the kind of its key. -/
def checkSettingValue (earlier : List Entry) (key : SettingKey) (entry : Entry) :
    List Diagnostic :=
  match key.kind with
  | .integer =>
    (entry.value.checkInteger entry.line).toList
      ++ if key = .tunFd then [Issue.tunFdNote.on entry.valueRange] else []
  | .tun => if entry.value.text = "auto".toList then [] else [Issue.tunNotAuto.on entry.valueRange]
  | .logLevel =>
    if isListed logLevels entry.value.text then []
    else [Issue.invalidLogLevel.on entry.valueRange]
  | .addressList =>
    entry.arguments.toList.flatMap fun address => (address.checkAddress entry.line).toList
  | .domainList =>
    match earlier.findSome? Entry.domainListKey? with
    | some first =>
      if first = key then [] else [(Issue.excludedSetting key key.counterpart).on entry.range]
    | none => []
  | .boolean => (entry.value.checkBoolean entry.line).toList
  | .port => (entry.value.checkPort entry.line).toList
  | .networkInterface | .freeForm => []

/-- The report on a setting behind the earlier ones. -/
def checkSetting (earlier : List Entry) (entry : Entry) : List Diagnostic :=
  entry.checkRepeated earlier (.duplicateSetting entry.key.text)
    ++ match entry.settingKey? with
      | none => [(Issue.unknownSetting entry.key.text).on entry.keyRange]
      | some key => checkSettingValue earlier key entry

/-- The reports on the lines behind the earlier settings. -/
def checkSettingsFrom (earlier : List Entry) : List NumberedLine → List Diagnostic
  | [] => []
  | line :: rest =>
    match line.entry? with
    | none => line.report .settingWithoutEquals :: checkSettingsFrom earlier rest
    | some entry => checkSetting earlier entry ++ checkSettingsFrom (earlier ++ [entry]) rest

/-- The report on the general settings. -/
def Document.checkGeneral (doc : Document) : List Diagnostic :=
  checkSettingsFrom [] (doc.solidLines (doc.sectionsOf .general))

end ProxyConfig
