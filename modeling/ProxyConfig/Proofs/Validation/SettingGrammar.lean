import ProxyConfig.Proofs.Keyword
import ProxyConfig.Proofs.Moved
import ProxyConfig.Proofs.Validation.Grammar

/-! # The grammar of general settings

Each key takes values of its own, and the check of a value accepts exactly those. Two things are
remembered along the lines: the keys that occurred, and the first of the two keys that exclude each
other. Both are tests against earlier entries, so the settings are reported without errors exactly if
every line is a setting, no key occurs twice, and not both of the excluding keys occur.
-/

namespace ProxyConfig

open Text

/-! ## Values -/

/-- The values that a setting takes. -/
def SettingKey.Takes : SettingKey → Text → Prop
  | .tunFd, value => value.WritesInt64
  | .logLevel, value => ∃ level ∈ logLevels, level.toList = value
  | .dnsServer, value => ∀ address ∈ (List.splitOn ',' value).map trim, address.isAddress = true
  | .httpPort, value | .inboundPort, value | .socksPort, value | .apiPort, value => value.IsPort
  | _, _ => True

/-- A known key and a value that it takes, with the first `=` between them. -/
def Text.IsSetting (s : Text) : Prop :=
  '=' ∈ s ∧ ∃ key : SettingKey, Keyword.text key = s.keyPart ∧ key.Takes s.valuePart

theorem SettingKey.kind_eq_domainList_iff {key : SettingKey} :
    key.kind = .domainList ↔ key = .alwaysRealIp ∨ key = .alwaysFakeIp := by
  cases key <;> simp [kind]

section Checks

variable {earlier : List Entry} {key : SettingKey} {e : Entry}

theorem Span.errorless_checkAddress_iff {a : Span} {line : Nat} :
    Errorless (a.checkAddress line).toList ↔ a.text.isAddress = true := by
  rw [checkAddress]
  cases a.text.isAddress <;> simp [Errorless, Issue.on, Issue.severity]

theorem Entry.errorless_checkRepeated_iff {issue : Issue} (bad : issue.severity = .error) :
    Errorless (e.checkRepeated earlier issue) ↔
      ∀ first ∈ earlier, first.key.text ≠ e.key.text := by
  rw [checkRepeated, ← e.firstAmong?_eq_none_iff]
  cases e.firstAmong? earlier with
  | none => exact iff_of_true errorless_nil rfl
  | some first => exact iff_of_false (fun clean => clean.severity_ne bad) (Option.some_ne_none first)

/-- Apart from a list of domains, a value is accepted whatever the earlier entries are. -/
theorem errorless_checkSettingValue_of_ne (other : key.kind ≠ .domainList) :
    Errorless (checkSettingValue earlier key e) ↔ key.Takes e.value.text := by
  have addresses : Errorless (e.arguments.toList.flatMap fun a => (a.checkAddress e.line).toList) ↔
      ∀ address ∈ (List.splitOn ',' e.value.text).map trim, address.isAddress = true := by
    rw [errorless_flatMap, ← Pieces.map_text_read e.value.column, List.forall_mem_map]
    exact forall₂_congr fun a _ => Span.errorless_checkAddress_iff
  have note : Errorless [Issue.tunFdNote.on e.valueRange] := by
    simp [Errorless, Issue.on, Issue.severity]
  have warned : Errorless (if e.value.text = "auto".toList then [] else
      [Issue.tunNotAuto.on e.valueRange]) := by
    split <;> simp [Errorless, Issue.on, Issue.severity]
  rw [checkSettingValue]
  cases key with
  | tunFd => exact errorless_append.trans ((and_iff_left note).trans Span.errorless_checkInteger_iff)
  | tun => exact iff_of_true warned trivial
  | logLevel => exact (errorless_ite_iff rfl).trans isListed_iff
  | dnsServer => exact addresses
  | alwaysRealIp | alwaysFakeIp => exact absurd rfl other
  | routingDomainResolve => exact iff_of_true Span.errorless_checkBoolean trivial
  | httpPort | inboundPort | socksPort | apiPort => exact Span.errorless_checkPort_iff
  | logOutput | dnsInterface | httpInterface | inboundInterface | socksInterface | apiInterface =>
    exact iff_of_true errorless_nil trivial

/-- Of the two keys that exclude each other, only the first is accepted, with any value. -/
theorem errorless_checkSettingValue_of_domainList (domains : key.kind = .domainList) :
    Errorless (checkSettingValue earlier key e) ↔
      ∀ first ∈ earlier.findSome? Entry.domainListKey?, first = key := by
  rw [checkSettingValue, domains]
  dsimp only
  cases earlier.findSome? Entry.domainListKey? with
  | none => simp [errorless_nil]
  | some first => simpa using errorless_ite_iff rfl

theorem errorless_checkSettingValue_iff :
    Errorless (checkSettingValue earlier key e) ↔ key.Takes e.value.text ∧
      (key.kind = .domainList → ∀ first ∈ earlier.findSome? Entry.domainListKey?, first = key) := by
  by_cases domains : key.kind = .domainList
  · have taken : key.Takes e.value.text := by
      rcases SettingKey.kind_eq_domainList_iff.mp domains with rfl | rfl <;> trivial
    rw [errorless_checkSettingValue_of_domainList domains, and_iff_right taken, forall_prop_of_true domains]
  · rw [errorless_checkSettingValue_of_ne domains, and_iff_left fun same => absurd same domains]

end Checks

/-! ## Keys -/

namespace Entry

variable {e : Entry}

theorem mem_domainListKey?_iff {key : SettingKey} :
    key ∈ e.domainListKey? ↔ Keyword.text key = e.key.text ∧ key.kind = .domainList := by
  rw [Option.mem_def, domainListKey?, settingKey?, Option.filter_eq_some_iff,
    Keyword.parse?_eq_some_iff, beq_iff_eq]

/-- Whether an entry has one of the two keys that exclude each other. -/
def excludes (e : Entry) : Bool := isListed ["always-real-ip", "always-fake-ip"] e.key.text

theorem isSome_domainListKey? (e : Entry) : e.domainListKey?.isSome = e.excludes := by
  rw [Bool.eq_iff_iff, Option.isSome_iff_exists, excludes, isListed_iff]
  simp only [← Option.mem_def, mem_domainListKey?_iff, SettingKey.kind_eq_domainList_iff]
  simp [and_or_left, exists_or, Keyword.text, Keyword.spelling]

end Entry

section Settings

variable {earlier : List Entry} {e : Entry}

/-- A setting has a new key, a value that its key takes, and no excluded key. -/
theorem errorless_checkSetting_iff :
    Errorless (checkSetting earlier e) ↔
      (∀ first ∈ earlier, first.key.text ≠ e.key.text) ∧
      (∃ key : SettingKey, Keyword.text key = e.key.text ∧ key.Takes e.value.text) ∧
      ∀ key ∈ e.domainListKey?, ∀ first ∈ earlier.findSome? Entry.domainListKey?, first = key := by
  rw [checkSetting, errorless_append, Entry.errorless_checkRepeated_iff rfl]
  refine and_congr_right fun _ => ?_
  have known (key : SettingKey) : Keyword.text key = e.key.text ↔ e.settingKey? = some key :=
    Keyword.parse?_eq_some_iff.symm
  simp only [Entry.mem_domainListKey?_iff, known]
  cases e.settingKey? with
  | none => exact iff_of_false (fun clean => clean.severity_ne rfl) (by simp)
  | some key => simpa using errorless_checkSettingValue_iff

/-- Whatever is listed, there are never two different keys that exclude each other. -/
theorem not_excluding_iff {items : List Entry} :
    (∀ a ∈ items, ∀ b ∈ items, ∀ j ∈ a.domainListKey?, ∀ k ∈ b.domainListKey?, j = k) ↔
      ¬("always-real-ip".toList ∈ items.map (fun e => e.key.text) ∧
        "always-fake-ip".toList ∈ items.map fun e => e.key.text) := by
  have keyed {key : SettingKey} {e : Entry} (inside : e ∈ items)
      (spelled : Keyword.text key = e.key.text) : Keyword.text key ∈ items.map fun e => e.key.text :=
    List.mem_map.mpr ⟨e, inside, spelled.symm⟩
  simp only [Entry.mem_domainListKey?_iff, SettingKey.kind_eq_domainList_iff]
  constructor
  · rintro alike ⟨real, fake⟩
    obtain ⟨a, insideA, ofA⟩ := List.mem_map.mp real
    obtain ⟨b, insideB, ofB⟩ := List.mem_map.mp fake
    cases alike a insideA b insideB .alwaysRealIp ⟨ofA.symm, .inl rfl⟩ .alwaysFakeIp
      ⟨ofB.symm, .inr rfl⟩
  · rintro lacking a insideA b insideB j ⟨ofA, rfl | rfl⟩ k ⟨ofB, rfl | rfl⟩
    · rfl
    · exact absurd ⟨keyed insideA ofA, keyed insideB ofB⟩ lacking
    · exact absurd ⟨keyed insideB ofB, keyed insideA ofA⟩ lacking
    · rfl

/-- What the checks remember along the lines comes to two conditions on all entries. -/
theorem errorless_checkSettingsFrom_iff {lines : List NumberedLine} :
    Errorless (checkSettingsFrom [] lines) ↔
      (∀ l ∈ lines, l.entry?.isSome = true) ∧
      ((lines.filterMap NumberedLine.entry?).map fun e => e.key.text).Nodup ∧
      (∀ e ∈ lines.filterMap NumberedLine.entry?,
        ∃ key : SettingKey, Keyword.text key = e.key.text ∧ key.Takes e.value.text) ∧
      ¬("always-real-ip".toList ∈ (lines.filterMap NumberedLine.entry?).map (fun e => e.key.text) ∧
        "always-fake-ip".toList ∈ (lines.filterMap NumberedLine.entry?).map fun e => e.key.text) := by
  rw [checkSettingsFrom_eq, Pass.errorless_runFrom_iff fun _ => rfl]
  refine and_congr_right fun _ => ?_
  change (∀ p ∈ (lines.filterMap NumberedLine.entry?).withEarlier,
    Errorless (checkSetting p.1 p.2)) ↔ _
  simp only [errorless_checkSetting_iff, imp_and, forall_and]
  refine and_congr ?_ (and_congr ?_ ?_)
  · rw [List.Nodup, List.pairwise_map]
    exact List.forall_withEarlier_iff_pairwise
      (R := fun first e : Entry => first.key.text ≠ e.key.text)
  · exact List.forall_withEarlier_snd (P := fun e : Entry => ∃ key : SettingKey,
      Keyword.text key = e.key.text ∧ key.Takes e.value.text)
  · exact List.forall_withEarlier_findSome?_iff.trans not_excluding_iff

end Settings

/-! ## Lines -/

namespace NumberedLine

variable {l : NumberedLine} {lines : List NumberedLine}

/-- An entry has both parts of its line. -/
theorem map_entry?_parts (l : NumberedLine) :
    l.entry?.map (fun e => (e.key.text, e.value.text)) =
      if '=' ∈ l.text.uncommented then some (l.text.uncommented.keyPart, l.text.uncommented.valuePart)
      else none := by
  have agrees := l.entry?_agrees
  rw [Entry.ofLine?, Entry.parse?_eq] at agrees
  split
  · next keyed =>
    rw [cut?_of_mem keyed, Option.map_some] at agrees
    generalize l.entry? = read at agrees
    cases agrees with
    | some same =>
      rw [Option.map_some, same.key.text_eq, same.value, Span.text_trimmed, Span.text_trimmed]
      rfl
  · next bare =>
    rw [cut?_eq_none_iff.mpr bare, Option.map_none] at agrees
    generalize l.entry? = read at agrees
    cases agrees
    rfl

theorem isSome_entry?_iff : l.entry?.isSome = true ↔ '=' ∈ l.text.uncommented := by
  rw [← Option.isSome_map (f := fun e => (e.key.text, e.value.text)), map_entry?_parts]
  split <;> simp_all

theorem filterMap_entry?_parts (keyed : ∀ l ∈ lines, '=' ∈ l.text.uncommented) :
    (lines.filterMap entry?).map (fun e => (e.key.text, e.value.text)) =
      lines.map fun l => (l.text.uncommented.keyPart, l.text.uncommented.valuePart) := by
  rw [List.map_filterMap, ← List.filterMap_eq_map]
  refine List.filterMap_congr fun l member => ?_
  rw [map_entry?_parts, if_pos (keyed l member)]
  rfl

end NumberedLine

/-- The conditions on the entries are conditions on the lines that they are read off. -/
theorem errorless_checkSettingsFrom_iff_isSetting {lines : List NumberedLine} :
    Errorless (checkSettingsFrom [] lines) ↔
      (∀ l ∈ lines, l.text.uncommented.IsSetting) ∧
        (lines.map fun l => l.text.uncommented.keyPart).Nodup ∧
        ¬("always-real-ip".toList ∈ lines.map (fun l => l.text.uncommented.keyPart) ∧
          "always-fake-ip".toList ∈ lines.map fun l => l.text.uncommented.keyPart) := by
  rw [errorless_checkSettingsFrom_iff]
  simp only [NumberedLine.isSome_entry?_iff, Text.IsSetting, imp_and, forall_and, and_assoc]
  refine and_congr_right fun keyed => ?_
  have parts := NumberedLine.filterMap_entry?_parts keyed
  have keys : (lines.filterMap NumberedLine.entry?).map (fun e => e.key.text) =
      lines.map fun l => l.text.uncommented.keyPart := by
    have firsts := congrArg (List.map Prod.fst) parts
    rwa [List.map_map, List.map_map] at firsts
  have valued : (∀ e ∈ lines.filterMap NumberedLine.entry?,
      ∃ key : SettingKey, Keyword.text key = e.key.text ∧ key.Takes e.value.text) ↔
        ∀ l ∈ lines, ∃ key : SettingKey, Keyword.text key = l.text.uncommented.keyPart ∧
          key.Takes l.text.uncommented.valuePart := by
    let Good (part : Text × Text) : Prop :=
      ∃ key : SettingKey, Keyword.text key = part.1 ∧ key.Takes part.2
    have every := List.forall_mem_map (f := fun e : Entry => (e.key.text, e.value.text)) (P := Good)
      (l := lines.filterMap NumberedLine.entry?)
    rw [parts, List.forall_mem_map] at every
    exact every.symm
  rw [keys, valued]
  exact and_left_comm

/-! ## Excluded keys -/

/-- The report on one of the two excluding keys where the other one came first. -/
def excludedSetting (first e : Entry) : Diagnostic where
  severity := .error
  message := s!"Cannot set \"{String.ofList e.key.text}\" when \"{String.ofList first.key.text}\" is present."
  code := some "LC107"
  range := e.range

section Excluded

variable {earlier : List Entry} {e first : Entry} {key other : SettingKey}

/-- Two different keys that exclude each other are counterparts. -/
theorem excludedSetting_eq (here : key ∈ e.domainListKey?) (there : other ∈ first.domainListKey?)
    (differ : other ≠ key) :
    (Issue.excludedSetting key key.counterpart).on e.range = excludedSetting first e := by
  obtain ⟨spelled, domains⟩ := Entry.mem_domainListKey?_iff.mp here
  obtain ⟨spelled', domains'⟩ := Entry.mem_domainListKey?_iff.mp there
  have counter : key.counterpart = other := by
    rcases SettingKey.kind_eq_domainList_iff.mp domains with rfl | rfl
    · rcases SettingKey.kind_eq_domainList_iff.mp domains' with rfl | rfl
      · exact absurd rfl differ
      · rfl
    · rcases SettingKey.kind_eq_domainList_iff.mp domains' with rfl | rfl
      · rfl
      · exact absurd rfl differ
  rw [counter, excludedSetting, ← spelled, ← spelled', Keyword.text, Keyword.text, String.ofList_toList,
    String.ofList_toList]
  rfl

theorem coded_excluded_checkSettingValue (here : key ∈ e.domainListKey?) :
    coded "LC107" (checkSettingValue earlier key e) =
      (earlier.find? Entry.excludes).toList.flatMap fun first =>
        if e.key.text = first.key.text then [] else [excludedSetting first e] := by
  obtain ⟨spelled, domains⟩ := Entry.mem_domainListKey?_iff.mp here
  rw [checkSettingValue, domains, List.findSome?_eq_bind_find?, funext Entry.isSome_domainListKey?]
  cases found : earlier.find? Entry.excludes with
  | none => rfl
  | some first =>
    have excluding : first.excludes = true := List.find?_some found
    rw [← first.isSome_domainListKey?] at excluding
    obtain ⟨other, there⟩ := Option.isSome_iff_exists.mp excluding
    obtain ⟨spelled', -⟩ := Entry.mem_domainListKey?_iff.mp there
    have alike : e.key.text = first.key.text ↔ other = key := by
      rw [← spelled, ← spelled', Keyword.text_injective.eq_iff, eq_comm]
    rw [Option.bind_some, there, Option.toList_some, List.flatMap_singleton]
    dsimp only
    by_cases same : other = key
    · rw [if_pos same, if_pos (alike.mpr same)]
      rfl
    · rw [if_neg same, if_neg fun equal => same (alike.mp equal), excludedSetting_eq here there same]
      exact coded_singleton rfl

theorem coded_excluded_checkSetting (earlier : List Entry) (e : Entry) :
    coded "LC107" (checkSetting earlier e) =
      if e.excludes then (earlier.find? Entry.excludes).toList.flatMap fun first =>
        if e.key.text = first.key.text then [] else [excludedSetting first e]
      else [] := by
  have repeated : coded "LC107" (e.checkRepeated earlier (.duplicateSetting e.key.text)) = [] :=
    coded_eq_nil (e.codes_checkRepeated earlier _) (by simp [Issue.code])
  rw [checkSetting, coded_append, repeated, List.nil_append, ← e.isSome_domainListKey?]
  cases read : e.domainListKey? with
  | none =>
    rw [Option.isSome_none, if_neg Bool.false_ne_true]
    cases known : e.settingKey? with
    | none => rfl
    | some key =>
      have other : key.kind ≠ .domainList := by
        intro domains
        have listed := Entry.mem_domainListKey?_iff.mpr ⟨Keyword.text_of_parse? known, domains⟩
        rw [read] at listed
        cases listed
      exact coded_eq_nil (codes_checkSettingValue_of_ne earlier e other) (by decide)
  | some key =>
    obtain ⟨spelled, -⟩ := Entry.mem_domainListKey?_iff.mp read
    rw [Option.isSome_some, if_pos rfl, Entry.settingKey?, Keyword.parse?_eq_some_iff.mpr spelled]
    exact coded_excluded_checkSettingValue read

/-- Of the entries with one of the two keys, those are reported that have not the key of the first. -/
theorem coded_excluded_checkSettingsFrom (lines : List NumberedLine) :
    coded "LC107" (checkSettingsFrom [] lines) =
      match (lines.filterMap NumberedLine.entry?).filter Entry.excludes with
      | [] => []
      | first :: rest =>
        (rest.filter fun e => e.key.text ≠ first.key.text).map (excludedSetting first) := by
  have checked : coded "LC107" (checkSettingsFrom [] lines) =
      (lines.filterMap NumberedLine.entry?).withEarlier.flatMap fun p =>
        coded "LC107" (checkSetting p.1 p.2) := by
    rw [checkSettingsFrom_eq]
    exact Pass.filter_runFrom fun _ => rfl
  simp only [checked, coded_excluded_checkSetting]
  rw [List.flatMap_withEarlier_find? Entry.excludes fun first e =>
    if e.key.text = first.key.text then [] else [excludedSetting first e]]
  cases (lines.filterMap NumberedLine.entry?).filter Entry.excludes with
  | nil => rfl
  | cons first rest =>
    dsimp only
    induction rest with
    | nil => rfl
    | cons e rest ih =>
      rw [List.flatMap_cons, ih, List.filter_cons]
      by_cases same : e.key.text = first.key.text <;> simp [same]

end Excluded

/-- The settings of all general sections are reported without errors exactly if every line that holds
something besides a comment is a setting, no key occurs twice, and not both of the keys occur that
exclude each other. Those entries with one of the two keys are reported for it, at the whole entry,
that have not the key of the first such entry. -/
theorem settings_accepted_iff (s : Text) :
    let doc := Document.parse s
    let settings := ((doc.linesOf .general).filter fun l => !l.text.isVoid).map
      fun l => l.text.uncommented
    let excluding := ((doc.linesOf .general).filterMap NumberedLine.entry?).filter
      fun e => isListed ["always-real-ip", "always-fake-ip"] e.key.text
    (Errorless doc.checkGeneral ↔
      (∀ t ∈ settings, t.IsSetting) ∧ (settings.map keyPart).Nodup ∧
        ¬("always-real-ip".toList ∈ settings.map keyPart ∧
          "always-fake-ip".toList ∈ settings.map keyPart)) ∧
    coded "LC107" doc.validate = match excluding with
      | [] => []
      | first :: rest =>
        (rest.filter fun e => e.key.text ≠ first.key.text).map (excludedSetting first) := by
  intro doc settings excluding
  constructor
  · simp only [settings, List.forall_mem_map, List.map_map]
    rw [Document.checkGeneral, doc.solidLines_sectionsOf_eq]
    exact errorless_checkSettingsFrom_iff_isSetting
  · have own : coded "LC107" doc.validate = coded "LC107" doc.checkGeneral :=
      coded_validate .general (fun other => by cases other <;> decide) doc
    rw [own, Document.checkGeneral, coded_excluded_checkSettingsFrom, doc.filterMap_entry?_solidLines]
    rfl

end ProxyConfig
