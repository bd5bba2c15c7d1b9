import ProxyConfig.Proofs.Validation.Passes

/-! # The codes of the validators

Every diagnostic has a code, and each validator reports under codes of its own: its family and the
codes of the values it checks. A diagnostic is therefore found by its code in the report of one
validator, and the report of a check under one code is the check of the lines that it concerns.
-/

namespace ProxyConfig

/-- The diagnostics of a report that are under one code, in its order. -/
def coded (code : String) (report : List Diagnostic) : List Diagnostic :=
  report.filter fun d => d.code == some code

/-- Every diagnostic of a report is under one of the codes. -/
def CodesIn (codes : List String) (report : List Diagnostic) : Prop :=
  ∀ d ∈ report, ∃ code ∈ codes, d.code = some code

@[simp] theorem Issue.code_on (issue : Issue) (range : Range) :
    (issue.on range).code = some issue.code := rfl

@[simp] theorem Diagnostic.code_withRelated (d : Diagnostic) (range : Range) (message : String) :
    (d.withRelated range message).code = d.code := rfl

section Coded

variable {code : String}

theorem coded_append (first second : List Diagnostic) :
    coded code (first ++ second) = coded code first ++ coded code second := List.filter_append ..

theorem coded_flatMap {α : Type} (items : List α) (check : α → List Diagnostic) :
    coded code (items.flatMap check) = items.flatMap fun item => coded code (check item) :=
  List.filter_flatMap

/-- A diagnostic under the code stays. -/
theorem coded_singleton {d : Diagnostic} (same : d.code = some code) : coded code [d] = [d] :=
  List.filter_cons_of_pos (beq_iff_eq.mpr same)

theorem coded_eq_nil {codes : List String} {report : List Diagnostic}
    (within : CodesIn codes report) (foreign : code ∉ codes) : coded code report = [] := by
  refine List.filter_eq_nil_iff.mpr fun d member same => ?_
  obtain ⟨other, listed, own⟩ := within d member
  rw [own, beq_iff_eq, Option.some_inj] at same
  exact foreign (same ▸ listed)

theorem coded_eq_self {report : List Diagnostic} (own : CodesIn [code] report) :
    coded code report = report := by
  refine List.filter_eq_self.mpr fun d member => ?_
  obtain ⟨_, listed, same⟩ := own d member
  rw [same, List.mem_singleton.mp listed]
  exact beq_self_eq_true _

end Coded

section Reports

variable {codes : List String}

@[simp] theorem codesIn_nil : CodesIn codes [] := fun _ member => absurd member List.not_mem_nil

@[simp] theorem codesIn_cons {d : Diagnostic} {report : List Diagnostic} :
    CodesIn codes (d :: report) ↔ (∃ code ∈ codes, d.code = some code) ∧ CodesIn codes report :=
  List.forall_mem_cons

@[simp] theorem codesIn_append {first second : List Diagnostic} :
    CodesIn codes (first ++ second) ↔ CodesIn codes first ∧ CodesIn codes second :=
  List.forall_mem_append

theorem codesIn_flatMap {α : Type} {items : List α} {check : α → List Diagnostic}
    (each : ∀ item ∈ items, CodesIn codes (check item)) : CodesIn codes (items.flatMap check) := by
  intro d member
  obtain ⟨item, inside, found⟩ := List.mem_flatMap.mp member
  exact each item inside d found

theorem codesIn_runFrom {L E : Type} {pass : Pass L E}
    (faults : ∀ l, ∃ code ∈ codes, (pass.fault l).code = some code)
    (checks : ∀ earlier e, CodesIn codes (pass.check earlier e)) (earlier : List E)
    (lines : List L) : CodesIn codes (pass.runFrom earlier lines) :=
  Pass.forall_mem_runFrom (Q := fun _ => True) (fun _ _ _ _ => trivial) (fun l _ => faults l)
    (fun earlier e _ _ => checks earlier e) fun _ _ => trivial

theorem CodesIn.mono {more : List String} {report : List Diagnostic} (within : CodesIn codes report)
    (subset : codes ⊆ more) : CodesIn more report := by
  intro d member
  obtain ⟨code, listed, own⟩ := within d member
  exact ⟨code, subset listed, own⟩

end Reports

section Values

variable (a : Span) (line : Nat)

theorem codes_checkPort : CodesIn ["LC801", "LC802"] (a.checkPort line).toList := by
  rw [Span.checkPort]
  split
  · simp [Issue.code]
  · split <;> simp [Issue.code]

theorem codes_checkBoolean : CodesIn ["LC803"] (a.checkBoolean line).toList := by
  rw [Span.checkBoolean]
  split <;> simp [Issue.code]

theorem codes_checkInteger : CodesIn ["LC804"] (a.checkInteger line).toList := by
  rw [Span.checkInteger]
  split <;> simp [Issue.code]

theorem codes_checkAddress : CodesIn ["LC805"] (a.checkAddress line).toList := by
  rw [Span.checkAddress]
  split <;> simp [Issue.code]

end Values

/-- A repeated entry is reported under the code of its issue. -/
theorem Entry.codes_checkRepeated (e : Entry) (earlier : List Entry) (issue : Issue) :
    CodesIn [issue.code] (e.checkRepeated earlier issue) := by
  rw [checkRepeated]
  split <;> simp

section PropertyLists

def PropertyCodes.toList (codes : PropertyCodes) : List String :=
  [codes.expectedPair, codes.duplicate, codes.unknown, codes.notAllowed, codes.missing]

variable {K : Type}

namespace PropertyFinding

/-- The known property that is to be checked, if the finding is one. -/
def known? : PropertyFinding K → Option (K × Entry × Span)
  | known key property argument => some (key, property, argument)
  | issue _ => none

/-- An issue of the scan itself is under one of the codes. -/
def IsUnder (codes : List String) : PropertyFinding K → Prop
  | known _ _ _ => True
  | issue d => ∃ code ∈ codes, d.code = some code

/-- What is reported on a finding. -/
def report (checkValue : K → Entry → Span → List Diagnostic) : PropertyFinding K → List Diagnostic
  | known key property argument => checkValue key property argument
  | issue d => [d]

theorem coded_report {checkValue : K → Entry → Span → List Diagnostic} {code : String}
    {codes : List String} {findings : List (PropertyFinding K)} (foreign : code ∉ codes)
    (under : ∀ finding ∈ findings, finding.IsUnder codes) :
    coded code (findings.flatMap (report checkValue)) =
      (findings.filterMap known?).flatMap
        fun (key, property, argument) => coded code (checkValue key property argument) := by
  induction findings with
  | nil => rfl
  | cons finding rest ih =>
    obtain ⟨here, behind⟩ := List.forall_mem_cons.mp under
    rw [List.flatMap_cons, coded_append, ih behind]
    cases finding with
    | known key property argument => rfl
    | issue d =>
      have nothing : coded code [d] = [] :=
        coded_eq_nil (codesIn_cons.mpr ⟨here, codesIn_nil⟩) foreign
      rw [report, nothing]
      rfl

end PropertyFinding

/-- The property in an argument, if its key is known. -/
def Span.known? [Keyword K] (argument : Span) (line : Nat) : Option (K × Entry × Span) :=
  (argument.property? line).bind fun property =>
    (Keyword.parse? property.key.text).map fun key => (key, property, argument)

namespace PropertyRules

open PropertyFinding

variable {rules : PropertyRules K}

theorem under_repeated (earlier : List Entry) (property : Entry) :
    ∀ finding ∈ rules.repeated earlier property, finding.IsUnder rules.codes.toList := by
  rw [repeated]
  split <;> simp [IsUnder, Issue.code, PropertyCodes.toList]

variable [Keyword K] {line : Nat} {value : Range}
  {checkValue : K → Entry → Span → List Diagnostic}

theorem under_missing (properties : List Entry) :
    ∀ finding ∈ rules.missing value properties, finding.IsUnder rules.codes.toList := by
  intro finding member
  obtain ⟨key, -, rfl⟩ := List.mem_map.mp member
  simp [IsUnder, Issue.code, PropertyCodes.toList]

variable [DecidableEq K]

theorem under_findingsOn (earlier : List Entry) (property : Entry) (argument : Span) :
    ∀ finding ∈ rules.findingsOn earlier property argument,
      finding.IsUnder rules.codes.toList := by
  rw [findingsOn]
  refine List.forall_mem_append.mpr ⟨under_repeated earlier property, ?_⟩
  split
  · simp [IsUnder, Issue.code, PropertyCodes.toList]
  · split <;> simp [IsUnder, Issue.code, PropertyCodes.toList]

/-- The issues of the scan are under the codes of the list. -/
theorem under_scanFrom (earlier : List Entry) (arguments : List Span) :
    ∀ finding ∈ rules.scanFrom line value earlier arguments,
      finding.IsUnder rules.codes.toList := by
  induction arguments generalizing earlier with
  | nil => exact under_missing earlier
  | cons argument rest ih =>
    rw [scanFrom]
    split
    · refine List.forall_mem_cons.mpr ⟨?_, ih earlier⟩
      simp [IsUnder, Issue.code, PropertyCodes.toList]
    · next property _ =>
      exact List.forall_mem_append.mpr ⟨under_findingsOn earlier property argument, ih _⟩

theorem known?_findingsOn (earlier : List Entry) (property : Entry) (argument : Span) :
    (rules.findingsOn earlier property argument).filterMap PropertyFinding.known? =
      ((Keyword.parse? property.key.text).map fun key => (key, property, argument)).toList := by
  have repeats : (rules.repeated earlier property).filterMap PropertyFinding.known? = [] := by
    rw [repeated]
    split <;> rfl
  rw [findingsOn, List.filterMap_append, repeats, List.nil_append]
  cases (Keyword.parse? property.key.text : Option K) with
  | none => rfl
  | some key =>
    dsimp only
    split <;> rfl

/-- The scan finds the properties with known keys, in the order of the arguments. -/
theorem known?_scanFrom (earlier : List Entry) (arguments : List Span) :
    (rules.scanFrom line value earlier arguments).filterMap PropertyFinding.known? =
      arguments.filterMap fun argument => argument.known? line := by
  induction arguments generalizing earlier with
  | nil =>
    rw [scanFrom, missing, List.filterMap_map]
    exact List.filterMap_eq_nil_iff.mpr fun _ _ => rfl
  | cons argument rest ih =>
    rw [scanFrom, List.filterMap_cons, Span.known?]
    cases argument.property? line with
    | none => exact ih earlier
    | some property =>
      dsimp only
      rw [List.filterMap_append, known?_findingsOn, ih, Option.bind_some]
      cases (Keyword.parse? property.key.text : Option K) <;> rfl

/-- A property list reports under its own codes and those of its values. -/
theorem codes_check {codes : List String} (arguments : List Span) (own : rules.codes.toList ⊆ codes)
    (values : ∀ key property argument, CodesIn codes (checkValue key property argument)) :
    CodesIn codes (rules.check line value checkValue arguments) := by
  refine codesIn_flatMap fun finding member => ?_
  have under := under_scanFrom [] arguments finding member
  cases finding with
  | known key property argument => exact values key property argument
  | issue d =>
    obtain ⟨code, listed, same⟩ := under
    exact codesIn_cons.mpr ⟨⟨code, own listed, same⟩, codesIn_nil⟩

/-- Under a code that is not its own, a property list reports what the values are reported for. -/
theorem coded_check {code : String} (arguments : List Span) (foreign : code ∉ rules.codes.toList) :
    coded code (rules.check line value checkValue arguments) =
      (arguments.filterMap fun argument => argument.known? line).flatMap
        fun (key, property, argument) => coded code (checkValue key property argument) := by
  rw [← known?_scanFrom [] arguments]
  exact coded_report foreign (under_scanFrom [] arguments)

end PropertyRules

end PropertyLists

/-- The codes of the report on a proxy. -/
def proxyCodes : List String :=
  ["LC210", "LC211", "LC217", "LC218", "LC219", "LC220", "LC801", "LC802", "LC803", "LC804"]
    ++ proxyPropertyCodes.toList

/-- The codes of the report on a proxy group. -/
def groupCodes : List String :=
  ["LC301", "LC302", "LC303", "LC304", "LC305", "LC306", "LC307", "LC308", "LC309", "LC803",
    "LC804"]
    ++ groupPropertyCodes.toList

/-- The codes of the report on declarations, apart from the values of groups. -/
def declarationCodes : List String :=
  ["LC201", "LC202", "LC203", "LC204", "LC205"] ++ proxyCodes

/-- The codes that a validator reports under. -/
def Validator.codes : Validator → List String
  | sections => ["LC001", "LC002", "LC003", "LC004"]
  | general =>
    ["LC101", "LC102", "LC103", "LC104", "LC105", "LC106", "LC107", "LC801", "LC802", "LC803",
      "LC804", "LC805"]
  | hosts => ["LC501", "LC502", "LC805"]
  | actors => declarationCodes ++ groupCodes
  | rules =>
    ["LC401", "LC402", "LC403", "LC404", "LC405", "LC406", "LC407", "LC408", "LC409", "LC410",
      "LC411", "LC412", "LC801", "LC802"]
  | env => ["LC601", "LC602"]

section Validators

theorem Document.codes_strayContent (doc : Document) : CodesIn ["LC001"] doc.strayContent := by
  intro d member
  obtain ⟨l, -, found⟩ := List.mem_filterMap.mp member
  split at found
  · cases found
  · cases found
    simp [Issue.code]

theorem Document.codes_trailingHeaderText (doc : Document) (s : Section) :
    CodesIn ["LC002"] (doc.trailingHeaderText s) := by
  rw [trailingHeaderText]
  split
  · simp
  · split <;> simp [Issue.code]

theorem Document.codes_checkSectionName (earlier : List Section) (s : Section) :
    CodesIn ["LC003", "LC004"] (checkSectionName earlier s) := by
  rw [checkSectionName]
  split
  · simp [Issue.code]
  · split <;> simp [Issue.code]

theorem Document.codes_checkSections (doc : Document) :
    CodesIn Validator.sections.codes doc.checkSections := by
  refine codesIn_append.mpr ⟨doc.codes_strayContent.mono (by decide), ?_⟩
  generalize ([] : List Section) = earlier
  induction doc.sections generalizing earlier with
  | nil => simp [checkHeadersFrom]
  | cons s rest ih =>
    rw [checkHeadersFrom, codesIn_append, codesIn_append]
    refine ⟨⟨?_, ?_⟩, ih _⟩
    · exact (doc.codes_trailingHeaderText s).mono (by decide)
    · exact (codes_checkSectionName earlier s).mono (by decide)

/-- Only for a list of domains, the report on a value depends on the earlier entries. -/
theorem codes_checkSettingValue_of_ne (earlier : List Entry) {key : SettingKey} (e : Entry)
    (other : key.kind ≠ .domainList) :
    CodesIn ["LC104", "LC105", "LC106", "LC801", "LC802", "LC803", "LC804", "LC805"]
      (checkSettingValue earlier key e) := by
  rw [checkSettingValue]
  split
  · refine codesIn_append.mpr ⟨(codes_checkInteger _ _).mono (by decide), ?_⟩
    split <;> simp [Issue.code]
  · split <;> simp [Issue.code]
  · split <;> simp [Issue.code]
  · exact codesIn_flatMap fun a _ => (codes_checkAddress a e.line).mono (by decide)
  · next domains => exact absurd domains other
  · exact (codes_checkBoolean _ _).mono (by decide)
  · exact (codes_checkPort _ _).mono (by decide)
  · simp
  · simp

theorem codes_checkSettingValue (earlier : List Entry) (key : SettingKey) (e : Entry) :
    CodesIn ["LC104", "LC105", "LC106", "LC107", "LC801", "LC802", "LC803", "LC804", "LC805"]
      (checkSettingValue earlier key e) := by
  by_cases domains : key.kind = .domainList
  · rw [checkSettingValue, domains]
    dsimp only
    split
    · split <;> simp [Issue.code]
    · simp
  · exact (codes_checkSettingValue_of_ne earlier e domains).mono (by decide)

theorem codes_checkSetting (earlier : List Entry) (e : Entry) :
    CodesIn Validator.general.codes (checkSetting earlier e) := by
  rw [checkSetting, codesIn_append]
  refine ⟨(e.codes_checkRepeated _ _).mono (by simp [Validator.codes, Issue.code]), ?_⟩
  split
  · simp [Validator.codes, Issue.code]
  · exact (codes_checkSettingValue _ _ _).mono (by decide)

theorem Document.codes_checkGeneral (doc : Document) :
    CodesIn Validator.general.codes doc.checkGeneral := by
  rw [Document.checkGeneral, checkSettingsFrom_eq]
  refine codesIn_runFrom (fun l => ?_) codes_checkSetting _ _
  simp [Pass.settings, Validator.codes, NumberedLine.report, Issue.code]

theorem codes_checkHost (earlier : List Entry) (e : Entry) :
    CodesIn Validator.hosts.codes (checkHost earlier e) := by
  rw [checkHost, codesIn_append]
  refine ⟨(e.codes_checkRepeated _ _).mono (by simp [Validator.codes, Issue.code]), ?_⟩
  exact codesIn_flatMap fun a _ => (codes_checkAddress a e.line).mono (by decide)

theorem Document.codes_checkHosts (doc : Document) :
    CodesIn Validator.hosts.codes doc.checkHosts := by
  rw [Document.checkHosts, checkHostsFrom_eq]
  refine codesIn_runFrom (fun l => ?_) codes_checkHost _ _
  simp [Pass.hosts, Validator.codes, NumberedLine.report, Issue.code]

theorem Document.codes_checkEnv (doc : Document) : CodesIn Validator.env.codes doc.checkEnv := by
  refine codesIn_flatMap fun l _ => ?_
  rw [checkVariable]
  split
  · simp [Validator.codes, NumberedLine.report, Issue.code]
  · split <;> simp [Validator.codes, NumberedLine.report, Issue.code]

theorem codes_checkName (earlier : List Declaration) (d : Declaration) :
    CodesIn ["LC202", "LC203", "LC204", "LC205"] (checkName earlier d) := by
  rw [checkName, Declaration.duplicateIssue, Declaration.conflictIssue]
  split
  · cases d.kind <;> simp [Issue.code]
  · cases d.kind <;> simp [Issue.code]
  · simp

theorem codes_checkProxyValue (key : ProxyProperty) (property : Entry) :
    CodesIn ["LC220", "LC803", "LC804"] (checkProxyValue key property) := by
  rw [checkProxyValue]
  split
  · split <;> simp [Issue.code]
  · exact (codes_checkBoolean _ _).mono (by decide)
  · exact (codes_checkInteger _ _).mono (by decide)
  · simp
  · simp
  · simp

theorem codes_checkOperands (p : Protocol) (e : Entry) (operands : List Span) :
    CodesIn ["LC217", "LC218", "LC219", "LC801", "LC802"] (checkOperands p e operands) := by
  rw [checkOperands, codesIn_append, List.map_eq_flatMap]
  constructor
  · split
    · rw [checkHostAndPort, codesIn_append]
      constructor
      · split <;> simp [Issue.code]
      · split
        · simp [Issue.code]
        · exact (codes_checkPort _ _).mono (by decide)
    · simp
  · exact codesIn_flatMap fun a _ => by simp [Issue.code]

theorem codes_checkProxy (e : Entry) : CodesIn proxyCodes (checkProxy e) := by
  rw [checkProxy]
  split
  · simp [Issue.code, proxyCodes]
  split
  · simp [Issue.code, proxyCodes]
  · refine codesIn_append.mpr ⟨?_, (codes_checkOperands _ e _).mono (by decide)⟩
    apply PropertyRules.codes_check
    · exact List.subset_append_right ..
    · exact fun key property _ => (codes_checkProxyValue key property).mono (by decide)

theorem codes_checkGroupProperty (t : GroupType) (names : List Text) (key : GroupProperty)
    (property : Entry) (argument : Span) :
    CodesIn ["LC304", "LC305", "LC309", "LC803", "LC804"]
      (checkGroupProperty t names key property argument) := by
  rw [checkGroupProperty, codesIn_append, checkGroupValue]
  constructor
  · split <;> simp [Issue.code]
  · split
    · exact (codes_checkBoolean _ _).mono (by decide)
    · exact (codes_checkInteger _ _).mono (by decide)
    · split <;> simp [Issue.code]
    · split <;> simp [Issue.code]
    · simp
    · simp

theorem codes_checkActors (names : List Text) (e : Entry) (operands : List Span) :
    CodesIn ["LC306", "LC307", "LC308"] (checkActors names e operands) := by
  rw [checkActors]
  split
  · simp [Issue.code]
  · refine codesIn_flatMap fun a _ => ?_
    rw [checkActor]
    split
    · simp [Issue.code]
    · split <;> simp [Issue.code]

theorem codes_checkGroup (names : List Text) (e : Entry) :
    CodesIn groupCodes (checkGroup names e) := by
  rw [checkGroup]
  split
  · simp [Issue.code, groupCodes]
  split
  · rw [unknownGroupType]
    split <;> simp [Issue.code, groupCodes]
  · refine codesIn_append.mpr ⟨?_, (codes_checkActors names e _).mono (by decide)⟩
    apply PropertyRules.codes_check
    · exact List.subset_append_right ..
    · intro key property argument
      exact (codes_checkGroupProperty _ names key property argument).mono (by decide)

theorem codes_checkDeclaration (earlier : List Declaration) (d : Declaration) :
    CodesIn declarationCodes (checkDeclaration earlier d) := by
  rw [checkDeclaration, codesIn_append]
  refine ⟨(codes_checkName earlier d).mono (by decide), ?_⟩
  split
  · exact (codes_checkProxy d.entry).mono (by decide)
  · simp

/-- The report on the declarations themselves is under other codes than that on groups. -/
theorem codes_checkDeclarationsFrom (earlier : List Declaration) (lines : List ActorLine) :
    CodesIn declarationCodes (checkDeclarationsFrom earlier lines) := by
  rw [checkDeclarationsFrom_eq]
  refine codesIn_runFrom (fun l => ?_) codes_checkDeclaration _ _
  simp [Pass.declarations, NumberedLine.report, Issue.code, declarationCodes]

theorem Document.codes_checkActors (doc : Document) :
    CodesIn Validator.actors.codes doc.checkActors := by
  refine codesIn_append.mpr ⟨(codes_checkDeclarationsFrom _ _).mono (by decide), ?_⟩
  exact codesIn_flatMap fun d _ => (codes_checkGroup _ d.entry).mono (by decide)

theorem codes_checkMatcher (type : RuleType) (matcher : Span) (line : Nat) :
    CodesIn ["LC405", "LC406", "LC407", "LC408", "LC409", "LC410", "LC801", "LC802"]
      (checkMatcher type matcher line) := by
  rw [checkMatcher.eq_def]
  cases type with
  | ipCidr | domain | domainSuffix | domainKeyword | geoIp | network =>
    dsimp only
    split <;> simp [Issue.code]
  | external =>
    refine codesIn_append.mpr ⟨?_, ?_⟩
    · split <;> simp [Issue.code]
    · cases externalFault? matcher.text <;> simp [Issue.code]
  | portRange =>
    dsimp only
    rw [checkPortRange]
    split
    · simp [Issue.code]
    · exact codesIn_append.mpr
        ⟨(codes_checkPort _ _).mono (by decide), (codes_checkPort _ _).mono (by decide)⟩
  | inboundTag | final => simp

theorem codes_checkTarget (actors : Namespace) (target : Span) (line : Nat) :
    CodesIn ["LC411"] (checkTarget actors target line) := by
  rw [checkTarget]
  split <;> simp [Issue.code]

theorem codes_checkRule (actors : Namespace) (first? : Option Range) (l : NumberedLine) :
    CodesIn Validator.rules.codes (checkRule actors first? l) := by
  have arity (type : RuleType) (found : Nat) :
      CodesIn Validator.rules.codes [l.report (arityIssue type found)] := by
    rw [arityIssue]
    split <;> simp [Validator.codes, NumberedLine.report, Issue.code]
  rw [checkRule]
  split
  · simp [Validator.codes, Issue.code]
  · split
    · refine codesIn_append.mpr ⟨?_, (codes_checkTarget _ _ _).mono (by decide)⟩
      cases first? <;> simp [checkFinal, Validator.codes, Issue.code]
    · exact arity _ _
  · split
    · exact codesIn_append.mpr
        ⟨(codes_checkMatcher _ _ _).mono (by decide), (codes_checkTarget _ _ _).mono (by decide)⟩
    · exact arity _ _

theorem Document.codes_checkRules (doc : Document) :
    CodesIn Validator.rules.codes doc.checkRules := by
  refine codesIn_append.mpr ⟨?_, ?_⟩
  · rw [checkRulesFrom_eq_flatMap]
    exact codesIn_flatMap fun p _ => codes_checkRule _ _ _
  · split <;> simp [Validator.codes, Issue.code]

/-- Each validator reports under its own codes. -/
theorem codes_run (v : Validator) (doc : Document) : CodesIn v.codes (v.run doc) := by
  cases v with
  | sections => exact doc.codes_checkSections
  | general => exact doc.codes_checkGeneral
  | hosts => exact doc.codes_checkHosts
  | actors => exact doc.codes_checkActors
  | rules => exact doc.codes_checkRules
  | env => exact doc.codes_checkEnv

/-- What is selected of the reports of one validator alone is what is selected of its report. -/
theorem Document.filter_validate {select : Diagnostic → Bool} (v : Validator) (doc : Document)
    (others : ∀ other ≠ v, (other.run doc).filter select = []) :
    doc.validate.filter select = (v.run doc).filter select := by
  rw [Document.validate, Document.validateWith, List.filter_flatMap, Validator.all]
  cases v <;> simp [others]

/-- What is reported under a code of one validator alone is what that validator reports. -/
theorem coded_validate {code : String} (v : Validator)
    (own : ∀ other, code ∈ other.codes → other = v) (doc : Document) :
    coded code doc.validate = coded code (v.run doc) :=
  doc.filter_validate v fun other differs =>
    coded_eq_nil (codes_run other doc) fun listed => differs (own other listed)

end Validators

end ProxyConfig
