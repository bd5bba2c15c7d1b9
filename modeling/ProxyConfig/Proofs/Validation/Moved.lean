import ProxyConfig.Proofs.Moved
import ProxyConfig.Proofs.Validation.Passes

/-! # Reports on moved lines

A check of an entry sees the number of its line only to report there. So each check of a moved entry
reports what the check of the entry does, moved, and a pass over moved lines does so line by line,
since what it remembers of the earlier lines moves too.
-/

namespace ProxyConfig

open Text

/-- The diagnostic on the lines that its lines move to. -/
def Diagnostic.moved (f : Nat → Nat) (d : Diagnostic) : Diagnostic :=
  { d with
    range := d.range.moved f
    related := d.related.map fun r => { r with range := r.range.moved f } }

variable {f : Nat → Nat}

@[simp] theorem Diagnostic.moved_id (d : Diagnostic) : d.moved id = d := by
  simp [moved]

@[simp] theorem Diagnostic.moved_withRelated (d : Diagnostic) (range : Range) (message : String) :
    (d.withRelated range message).moved f = (d.moved f).withRelated (range.moved f) message := by
  simp [moved, withRelated]

@[simp] theorem Issue.moved_on (issue : Issue) (range : Range) :
    (issue.on range).moved f = issue.on (range.moved f) := rfl

theorem NumberedLine.Moved.report {l l' : NumberedLine} (moved : l.Moved f l') (issue : Issue) :
    l'.report issue = (l.report issue).moved f := by
  rw [NumberedLine.report, NumberedLine.report, moved.content, moved.number]
  rfl

section Values

variable (a : Span) (line : Nat)

theorem Span.checkPort_moved :
    (a.checkPort (f line)).toList = (a.checkPort line).toList.map (Diagnostic.moved f) := by
  rw [checkPort, checkPort]
  split
  · rfl
  · split <;> rfl

theorem Span.checkBoolean_moved :
    (a.checkBoolean (f line)).toList = (a.checkBoolean line).toList.map (Diagnostic.moved f) := by
  rw [checkBoolean, checkBoolean]
  split <;> rfl

theorem Span.checkInteger_moved :
    (a.checkInteger (f line)).toList = (a.checkInteger line).toList.map (Diagnostic.moved f) := by
  rw [checkInteger, checkInteger]
  split <;> rfl

theorem Span.checkAddress_moved :
    (a.checkAddress (f line)).toList = (a.checkAddress line).toList.map (Diagnostic.moved f) := by
  rw [checkAddress, checkAddress]
  split <;> rfl

/-- A matcher is checked at its place on its line. -/
theorem checkMatcher_moved (type : RuleType) :
    checkMatcher type a (f line) = (checkMatcher type a line).map (Diagnostic.moved f) := by
  cases type with
  | ipCidr | domain | domainSuffix | domainKeyword | geoIp | network =>
    rw [checkMatcher, checkMatcher]
    split <;> rfl
  | external =>
    rw [checkMatcher, checkMatcher, checkExternal, checkExternal, List.map_append]
    congr 1
    · split <;> rfl
    · cases externalFault? a.text <;> rfl
  | portRange =>
    rw [checkMatcher, checkMatcher, checkPortRange, checkPortRange]
    split
    · rfl
    · rw [List.map_append, Span.checkPort_moved, Span.checkPort_moved]
  | inboundTag | final => rfl

end Values

namespace Entry

variable (e : Entry)

@[simp] theorem moved_key : (e.moved f).key = e.key := rfl

@[simp] theorem moved_value : (e.moved f).value = e.value := rfl

@[simp] theorem moved_arguments : (e.moved f).arguments = e.arguments := rfl

@[simp] theorem moved_keyRange : (e.moved f).keyRange = e.keyRange.moved f := rfl

theorem firstAmong?_moved (earlier : List Entry) :
    (e.moved f).firstAmong? (earlier.map (Entry.moved f)) =
      (e.firstAmong? earlier).map (Entry.moved f) := by
  rw [firstAmong?, List.find?_map]
  rfl

theorem checkRepeated_moved (earlier : List Entry) (issue : Issue) :
    (e.moved f).checkRepeated (earlier.map (Entry.moved f)) issue =
      (e.checkRepeated earlier issue).map (Diagnostic.moved f) := by
  rw [checkRepeated, checkRepeated, firstAmong?_moved]
  cases e.firstAmong? earlier <;> simp

theorem checkAddresses_moved :
    ((e.moved f).arguments.toList.flatMap fun address => (address.checkAddress (f e.line)).toList) =
      (e.arguments.toList.flatMap fun address => (address.checkAddress e.line).toList).map
        (Diagnostic.moved f) := by
  rw [List.map_flatMap, moved_arguments]
  exact List.flatMap_congr fun address _ => address.checkAddress_moved e.line

end Entry

/-- The finding on the line that its line moves to. -/
def PropertyFinding.moved {K : Type} (f : Nat → Nat) : PropertyFinding K → PropertyFinding K
  | .known key property argument => .known key (property.moved f) argument
  | .issue diagnostic => .issue (diagnostic.moved f)

namespace PropertyRules

variable {K : Type} [Keyword K] [DecidableEq K] (rules : PropertyRules K)

theorem findingsOn_moved (earlier : List Entry) (property : Entry) (argument : Span) :
    rules.findingsOn (earlier.map (Entry.moved f)) (property.moved f) argument =
      (rules.findingsOn earlier property argument).map (PropertyFinding.moved f) := by
  have repeats : rules.repeated (earlier.map (Entry.moved f)) (property.moved f) =
      (rules.repeated earlier property).map (PropertyFinding.moved f) := by
    have first : (earlier.map (Entry.moved f)).find? (fun p => p.key.text == property.key.text) =
        (earlier.find? fun p => p.key.text == property.key.text).map (Entry.moved f) :=
      List.find?_map
    rw [repeated, repeated, Entry.moved_key, first]
    cases earlier.find? _ <;> simp [PropertyFinding.moved]
  rw [findingsOn, findingsOn, repeats, List.map_append, Entry.moved_key]
  congr 1
  split
  · rfl
  · split <;> rfl

theorem scanFrom_moved (line : Nat) (value : Range) (earlier : List Entry) (arguments : List Span) :
    rules.scanFrom (f line) (value.moved f) (earlier.map (Entry.moved f)) arguments =
      (rules.scanFrom line value earlier arguments).map (PropertyFinding.moved f) := by
  induction arguments generalizing earlier with
  | nil =>
    rw [scanFrom, scanFrom, missing, missing, List.map_map]
    simp only [List.all_map]
    rfl
  | cons a rest ih =>
    rw [scanFrom, scanFrom, a.property?_moved]
    cases a.property? line with
    | none => exact congrArg _ (ih earlier)
    | some property =>
      have behind := ih (earlier ++ [property])
      rw [List.map_append, List.map_singleton] at behind
      dsimp only [Option.map_some]
      rw [behind, findingsOn_moved, List.map_append]

/-- A property list is reported moved if the values of its properties are. -/
theorem check_moved (line : Nat) (value : Range) (arguments : List Span)
    {checkValue checkMoved : K → Entry → Span → List Diagnostic}
    (values : ∀ key property argument, checkMoved key (property.moved f) argument =
      (checkValue key property argument).map (Diagnostic.moved f)) :
    rules.check (f line) (value.moved f) checkMoved arguments =
      (rules.check line value checkValue arguments).map (Diagnostic.moved f) := by
  have scanned := rules.scanFrom_moved (f := f) line value [] arguments
  rw [List.map_nil] at scanned
  rw [check, check, scan, scan, scanned, List.flatMap_map, List.map_flatMap]
  refine List.flatMap_congr fun finding _ => ?_
  cases finding with
  | known key property argument => exact values key property argument
  | issue diagnostic => rfl

end PropertyRules

section Actors

variable (e : Entry)

theorem checkProxyValue_moved (key : ProxyProperty) :
    checkProxyValue key (e.moved f) = (checkProxyValue key e).map (Diagnostic.moved f) := by
  rw [checkProxyValue, checkProxyValue]
  split
  · rw [Entry.moved_value]
    split <;> rfl
  · exact e.value.checkBoolean_moved e.line
  · exact e.value.checkInteger_moved e.line
  all_goals rfl

theorem checkOperands_moved (p : Protocol) (operands : List Span) :
    checkOperands p (e.moved f) operands = (checkOperands p e operands).map (Diagnostic.moved f) := by
  have address : checkHostAndPort (e.moved f) operands =
      (checkHostAndPort e operands).map (Diagnostic.moved f) := by
    rw [checkHostAndPort, checkHostAndPort, List.map_append]
    congr 1
    · split <;> rfl
    · split
      · rfl
      · exact Span.checkPort_moved _ e.line
  rw [checkOperands, checkOperands, List.map_append, List.map_map]
  congr 1
  split
  · exact address
  · rfl

theorem checkProxy_moved : checkProxy (e.moved f) = (checkProxy e).map (Diagnostic.moved f) := by
  rw [checkProxy, checkProxy, Entry.moved_arguments]
  split
  · rfl
  · split
    · rfl
    · next p _ =>
      rw [List.map_append, checkOperands_moved]
      congr 1
      exact p.rules.check_moved e.line e.valueRange _ fun key property _ =>
        checkProxyValue_moved property key

variable (names : List Text)

theorem checkGroupProperty_moved (t : GroupType) (key : GroupProperty) (argument : Span) :
    checkGroupProperty t names key (e.moved f) argument =
      (checkGroupProperty t names key e argument).map (Diagnostic.moved f) := by
  rw [checkGroupProperty, checkGroupProperty, List.map_append]
  congr 1
  · split <;> rfl
  · rw [checkGroupValue, checkGroupValue, Entry.moved_value]
    split
    · exact e.value.checkBoolean_moved e.line
    · exact e.value.checkInteger_moved e.line
    · split <;> rfl
    · split <;> rfl
    all_goals rfl

theorem checkActors_moved (actors : List Span) :
    checkActors names (e.moved f) actors = (checkActors names e actors).map (Diagnostic.moved f) := by
  rw [checkActors, checkActors]
  split
  · rfl
  · rw [List.map_flatMap]
    refine List.flatMap_congr fun a _ => ?_
    rw [checkActor, checkActor]
    split
    · rfl
    · split <;> rfl

theorem checkGroup_moved : checkGroup names (e.moved f) = (checkGroup names e).map (Diagnostic.moved f) := by
  rw [checkGroup, checkGroup, Entry.moved_arguments]
  split
  · rfl
  · split
    · rfl
    · next t _ =>
      rw [List.map_append, checkActors_moved]
      congr 1
      exact t.rules.check_moved e.line e.valueRange _ fun key property argument =>
        checkGroupProperty_moved property names t key argument

end Actors

section Settings

variable (e : Entry) (earlier : List Entry)

theorem checkSettingValue_moved (key : SettingKey) :
    checkSettingValue (earlier.map (Entry.moved f)) key (e.moved f) =
      (checkSettingValue earlier key e).map (Diagnostic.moved f) := by
  rw [checkSettingValue, checkSettingValue, Entry.moved_value]
  split
  · rw [List.map_append, ← Span.checkInteger_moved]
    congr 1
    split <;> rfl
  · split <;> rfl
  · split <;> rfl
  · exact e.checkAddresses_moved
  · have first : (earlier.map (Entry.moved f)).findSome? Entry.domainListKey? =
        earlier.findSome? Entry.domainListKey? := List.findSome?_map
    rw [first]
    split
    · split <;> rfl
    · rfl
  · exact e.value.checkBoolean_moved e.line
  · exact e.value.checkPort_moved e.line
  all_goals rfl

theorem checkSetting_moved :
    checkSetting (earlier.map (Entry.moved f)) (e.moved f) =
      (checkSetting earlier e).map (Diagnostic.moved f) := by
  have key : (e.moved f).settingKey? = e.settingKey? := rfl
  rw [checkSetting, checkSetting, List.map_append, Entry.checkRepeated_moved, key, Entry.moved_key]
  congr 1
  cases e.settingKey? with
  | none => rfl
  | some key => exact checkSettingValue_moved e earlier key

theorem checkHost_moved :
    checkHost (earlier.map (Entry.moved f)) (e.moved f) =
      (checkHost earlier e).map (Diagnostic.moved f) := by
  rw [checkHost, checkHost, List.map_append, Entry.checkRepeated_moved]
  exact congrArg _ e.checkAddresses_moved

end Settings

section Declarations

/-- The declaration on the line that its line moves to. -/
def Declaration.moved (f : Nat → Nat) (d : Declaration) : Declaration :=
  { d with entry := d.entry.moved f }

/-- A line of an actor section and the one that it moves to. -/
structure ActorLine.Moved (f : Nat → Nat) (l l' : ActorLine) : Prop where
  kind : l'.kind = l.kind
  line : l.line.Moved f l'.line

theorem ActorLine.Moved.declaration? {l l' : ActorLine} (moved : l.Moved f l') :
    l'.declaration? = l.declaration?.map (Declaration.moved f) := by
  rw [ActorLine.declaration?, ActorLine.declaration?, moved.line.entry?, moved.kind, Option.map_map,
    Option.map_map]
  rfl

variable (d : Declaration) (earlier : List Declaration)

theorem Declaration.firstAmong?_moved (kind : ActorKind) :
    (d.moved f).firstAmong? kind (earlier.map (Declaration.moved f)) =
      (d.firstAmong? kind earlier).map (Declaration.moved f) := by
  rw [firstAmong?, List.find?_map]
  rfl

theorem checkDeclaration_moved :
    checkDeclaration (earlier.map (Declaration.moved f)) (d.moved f) =
      (checkDeclaration earlier d).map (Diagnostic.moved f) := by
  have kind : (d.moved f).kind = d.kind := rfl
  have names : checkName (earlier.map (Declaration.moved f)) (d.moved f) =
      (checkName earlier d).map (Diagnostic.moved f) := by
    rw [checkName, checkName, kind, Declaration.firstAmong?_moved, Declaration.firstAmong?_moved]
    cases d.firstAmong? d.kind earlier with
    | some first => rfl
    | none => cases d.firstAmong? d.kind.other earlier <;> rfl
  rw [checkDeclaration, checkDeclaration, List.map_append, names, kind]
  congr 1
  split
  · exact checkProxy_moved d.entry
  · rfl

end Declarations

section Rules

variable {l l' : NumberedLine} {actors actors' : Namespace}

theorem checkTarget_moved (declared : ∀ t, actors'.contains t = actors.contains t) (a : Span)
    (line : Nat) :
    checkTarget actors' a (f line) = (checkTarget actors a line).map (Diagnostic.moved f) := by
  rw [checkTarget, checkTarget, declared]
  split <;> rfl

theorem NumberedLine.Moved.final? (moved : l.Moved f l') :
    l'.final? = l.final?.map (Range.moved f) := by
  rw [NumberedLine.final?, NumberedLine.final?, moved.pieces, moved.number]
  split <;> rfl

theorem checkRule_moved (declared : ∀ t, actors'.contains t = actors.contains t)
    (first? : Option Range) (moved : l.Moved f l') :
    checkRule actors' (first?.map (Range.moved f)) l' =
      (checkRule actors first? l).map (Diagnostic.moved f) := by
  rw [checkRule, checkRule, moved.pieces, moved.number]
  split
  · rfl
  · split
    · rw [List.map_append, checkTarget_moved declared]
      congr 1
      cases first? <;> rfl
    · exact congrArg (fun d => [d]) (moved.report _)
  · split
    · rw [List.map_append, checkMatcher_moved, checkTarget_moved declared]
    · exact congrArg (fun d => [d]) (moved.report _)

end Rules

section Passes

variable {lines lines' : List NumberedLine} (moved : List.Forall₂ (NumberedLine.Moved f) lines lines')

include moved

theorem checkSettingsFrom_moved (earlier : List Entry) :
    checkSettingsFrom (earlier.map (Entry.moved f)) lines' =
      (checkSettingsFrom earlier lines).map (Diagnostic.moved f) := by
  rw [checkSettingsFrom_eq, checkSettingsFrom_eq]
  exact Pass.runFrom_map (fun l l' here => here.entry?) (fun l l' here => here.report _)
    (fun earlier e => checkSetting_moved e earlier) moved

theorem checkHostsFrom_moved (earlier : List Entry) :
    checkHostsFrom (earlier.map (Entry.moved f)) lines' =
      (checkHostsFrom earlier lines).map (Diagnostic.moved f) := by
  rw [checkHostsFrom_eq, checkHostsFrom_eq]
  exact Pass.runFrom_map (fun l l' here => here.entry?) (fun l l' here => here.report _)
    (fun earlier e => checkHost_moved e earlier) moved

theorem checkVariables_moved :
    lines'.flatMap checkVariable = (lines.flatMap checkVariable).map (Diagnostic.moved f) := by
  apply moved.flatMap_eq_map
  intro l l' here
  rw [checkVariable, checkVariable, here.entry?]
  cases l.entry? with
  | none => exact congrArg (fun d => [d]) (here.report _)
  | some e =>
    dsimp only [Option.map_some]
    rw [here.report, Entry.moved_key]
    split <;> rfl

/-- Each rule is checked behind the first complete `FINAL` rule, which moves too. -/
theorem checkRulesFrom_moved {actors actors' : Namespace}
    (declared : ∀ t, actors'.contains t = actors.contains t) (first? : Option Range) :
    checkRulesFrom actors' (first?.map (Range.moved f)) lines' =
      (checkRulesFrom actors first? lines).map (Diagnostic.moved f) := by
  induction moved generalizing first? with
  | nil => rfl
  | cons here _ ih =>
    rw [checkRulesFrom, checkRulesFrom, checkRule_moved declared first? here, here.final?,
      ← Option.map_or, ih, List.map_append]

end Passes

theorem checkDeclarationsFrom_moved {lines lines' : List ActorLine}
    (moved : List.Forall₂ (ActorLine.Moved f) lines lines') (earlier : List Declaration) :
    checkDeclarationsFrom (earlier.map (Declaration.moved f)) lines' =
      (checkDeclarationsFrom earlier lines).map (Diagnostic.moved f) := by
  rw [checkDeclarationsFrom_eq, checkDeclarationsFrom_eq]
  exact Pass.runFrom_map (fun l l' here => here.declaration?) (fun l l' here => here.line.report _)
    (fun earlier d => checkDeclaration_moved d earlier) moved

end ProxyConfig
