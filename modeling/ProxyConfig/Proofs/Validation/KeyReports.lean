import ProxyConfig.Proofs.Keyword
import ProxyConfig.Proofs.Validation.InDocument
import ProxyConfig.Proofs.Validation.Integrity
import ProxyConfig.Proofs.Validation.LocalErrors
import ProxyConfig.Proofs.Validation.Lookups
import ProxyConfig.Proofs.Validation.Places
import ProxyConfig.Proofs.Validation.Properties

/-! # Where keys are reported

A property list reports at the key of a property that an earlier argument has, that is not known or that
the type does not take, and the check of a value reports at that value. Two arguments of a declaration
are apart, so what is reported at a property is about the argument that holds it. Settings report their
keys in the same way, and each is on a line of its own.
-/

namespace ProxyConfig

open Text

/-- The codes under which the key of a property is reported. -/
def propertyKeyCodes : List String := ["LC213", "LC214", "LC215", "LC311", "LC312", "LC313"]

/-- The codes under which a value is reported that is none of the words for it. -/
def propertyWordCodes : List String := ["LC220", "LC305", "LC803"]

/-- The codes under which the key of a setting is reported. -/
def settingKeyCodes : List String := ["LC102", "LC103"]

theorem mem_propertyKeys_iff {line : Nat} {arguments : List Span} {key : Text} :
    key ∈ propertyKeys line arguments ↔
      ∃ a ∈ arguments, ∃ p, a.property? line = some p ∧ p.key.text = key := by
  simp only [propertyKeys, List.mem_map, List.mem_filterMap]
  constructor
  · rintro ⟨p, ⟨a, inside, read⟩, same⟩
    exact ⟨a, inside, p, read, same⟩
  · rintro ⟨a, inside, p, read, same⟩
    exact ⟨p, ⟨a, inside, read⟩, same⟩

/-- The key of a property in an argument, wherever the argument stands. -/
def propertyKey? (argument : Text) : Option Text :=
  (cut? '=' argument.uncommented).map fun halves => halves.1.trim

theorem propertyKeys_eq_filterMap (line : Nat) (arguments : List Span) :
    propertyKeys line arguments = (arguments.map (·.text)).filterMap propertyKey? := by
  rw [propertyKeys, List.map_filterMap, List.filterMap_map]
  refine List.filterMap_congr fun a _ => ?_
  change Option.map _ (a.property? line) = propertyKey? a.text
  rw [Span.property?, Entry.parse?_eq, Option.map_map, propertyKey?]
  exact Option.map_congr fun halves _ => Span.text_trimmed _ _

namespace PropertyRules

variable {K : Type} [Keyword K] [DecidableEq K] {rules : PropertyRules K} {line : Nat}
  {value : Range} {checkValue : K → Entry → Span → List Diagnostic} {arguments : List Span}
  {d : Diagnostic}

omit [Keyword K] in
theorem accepts_iff {key : K} :
    rules.accepts key = true ↔ key ∈ rules.required ∨ key ∈ rules.allowed := by
  rw [accepts, Bool.or_eq_true, List.contains_iff_mem, List.contains_iff_mem]

/-- A property that is reported at its key: an earlier one has the key, or the rules do not take it. -/
def Faults (rules : PropertyRules K) (earlier : List Text) (p : Entry) : Prop :=
  p.key.text ∈ earlier ∨
    ∀ key : K, Keyword.parse? p.key.text = some key → rules.accepts key = false

/-- What can be reported on a property behind the earlier keys: its value, or something at its key. -/
def MayReport (rules : PropertyRules K) (checkValue : K → Entry → Span → List Diagnostic)
    (earlier : List Text) (p : Entry) (a : Span) (d : Diagnostic) : Prop :=
  (∃ key, Keyword.parse? p.key.text = some key ∧ d ∈ checkValue key p a) ∨
    (d.range = p.keyRange ∧ rules.Faults earlier p)

theorem mayReport_of_mem_findingsOn {earlier : List Entry} {p : Entry} {a : Span}
    (member : d ∈ (rules.findingsOn earlier p a).flatMap (PropertyFinding.report checkValue)) :
    rules.MayReport checkValue (earlier.map fun first => first.key.text) p a d := by
  rw [findingsOn, List.flatMap_append, List.mem_append] at member
  rcases member with repeats | member
  · rw [repeated] at repeats
    split at repeats
    · cases repeats
    · next first found =>
      have same : first.key.text = p.key.text := eq_of_beq (List.find?_some found :)
      obtain rfl := List.mem_singleton.mp repeats
      exact .inr ⟨rfl, .inl (List.mem_map.mpr ⟨first, List.mem_of_find?_eq_some found, same⟩)⟩
  · split at member
    · next unknown =>
      obtain rfl := List.mem_singleton.mp member
      exact .inr ⟨rfl, .inr fun key known => by rw [unknown] at known; cases known⟩
    · next key known =>
      split at member
      · rw [List.flatMap_singleton] at member
        exact .inl ⟨key, known, member⟩
      · next rejected =>
        rw [List.flatMap_cons, List.mem_append, List.flatMap_singleton] at member
        rcases member with checked | refused
        · exact .inl ⟨key, known, checked⟩
        · obtain rfl := List.mem_singleton.mp refused
          refine .inr ⟨rfl, .inr fun other same => ?_⟩
          rw [known] at same
          obtain rfl := Option.some.inj same
          exact Bool.eq_false_iff.mpr rejected

theorem mem_scanFrom_cases {earlier : List Entry}
    (member : d ∈ (rules.scanFrom line value earlier arguments).flatMap
      (PropertyFinding.report checkValue)) :
    (d.code = some rules.codes.expectedPair ∨ d.code = some rules.codes.missing) ∨
      ∃ x ∈ arguments.withEarlier, ∃ p, x.2.property? line = some p ∧ rules.MayReport checkValue
        ((earlier.map fun first => first.key.text) ++ propertyKeys line x.1) p x.2 d := by
  induction arguments generalizing earlier with
  | nil =>
    rw [scanFrom, missing, List.flatMap_map] at member
    obtain ⟨key, -, reported⟩ := List.mem_flatMap.mp member
    obtain rfl := List.mem_singleton.mp reported
    exact .inl (.inr rfl)
  | cons a rest ih =>
    rw [scanFrom] at member
    -- the later arguments see the keys that were there before, and the one of this argument
    have later {more : List Text} (keys : ∀ before, more ++ propertyKeys line before =
          (earlier.map fun first => first.key.text) ++ propertyKeys line (a :: before))
        (found : ∃ x ∈ rest.withEarlier, ∃ p, x.2.property? line = some p ∧
          rules.MayReport checkValue (more ++ propertyKeys line x.1) p x.2 d) :
        ∃ x ∈ (a :: rest).withEarlier, ∃ p, x.2.property? line = some p ∧ rules.MayReport checkValue
          ((earlier.map fun first => first.key.text) ++ propertyKeys line x.1) p x.2 d := by
      obtain ⟨x, inside, p, read, reported⟩ := found
      refine ⟨(a :: x.1, x.2), List.mem_cons_of_mem _ (List.mem_map_of_mem inside), p, read, ?_⟩
      rwa [← keys]
    split at member
    · next none =>
      rcases List.mem_cons.mp member with rfl | member
      · exact .inl (.inl rfl)
      · exact (ih member).imp_right (later fun before => by simp [propertyKeys, none])
    · next p read =>
      rw [List.flatMap_append, List.mem_append] at member
      rcases member with here | member
      · refine .inr ⟨([], a), List.mem_cons_self .., p, read, ?_⟩
        rw [propertyKeys, List.filterMap_nil, List.map_nil, List.append_nil]
        exact mayReport_of_mem_findingsOn here
      · exact (ih member).imp_right (later fun before => by simp [propertyKeys, read])

/-- A property list reports arguments that are no properties, keys that are missing, and properties. -/
theorem mem_check_cases (member : d ∈ rules.check line value checkValue arguments) :
    (d.code = some rules.codes.expectedPair ∨ d.code = some rules.codes.missing) ∨
      ∃ x ∈ arguments.withEarlier, ∃ p, x.2.property? line = some p ∧
        rules.MayReport checkValue (propertyKeys line x.1) p x.2 d :=
  mem_scanFrom_cases member

end PropertyRules

namespace Entry

variable {e p q : Entry} {a b : Span} {i : Nat}

/-- The argument with a number, and the property in it. -/
structure PropertyAt (e : Entry) (i : Nat) (a : Span) (p : Entry) : Prop where
  argument : e.arguments.piece? i = some a
  read : a.property? e.line = some p

theorem PropertyAt.mem_arguments (here : e.PropertyAt i a p) : a ∈ e.arguments.toList :=
  List.mem_of_getElem? here.argument

/-- Properties of different arguments are at different columns. -/
theorem eq_of_property_column (here : a ∈ e.arguments.toList) (read : a.property? e.line = some p)
    (there : b ∈ e.arguments.toList) (read' : b.property? e.line = some q)
    (same : q.key.column = p.key.column ∨ q.value.column = p.value.column) : b = a := by
  obtain ⟨first, order⟩ := key_before_value_of_parse? read
  obtain ⟨-, last⟩ := value_inside_of_parse? read
  obtain ⟨first', order'⟩ := key_before_value_of_parse? read'
  obtain ⟨-, last'⟩ := value_inside_of_parse? read'
  simp only [Span.endColumn, Span.length] at order last order' last'
  rcases arguments_apart there here with equal | before | behind
  · exact equal
  · simp only [Span.endColumn, Span.length] at before
    omega
  · simp only [Span.endColumn, Span.length] at behind
    omega

theorem mem_arguments_of_withEarlier {x : List Span × Span}
    (listed : x ∈ e.arguments.properties.withEarlier) : x.2 ∈ e.arguments.toList := by
  obtain ⟨later, split⟩ := List.mem_withEarlier_iff.mp listed
  exact Pieces.mem_of_mem_properties (by rw [split]; exact List.mem_append_right _ (List.mem_cons_self ..))

/-- The keys of the earlier properties are keys beside the argument. -/
theorem PropertyAt.propertyKeys_subset (here : e.PropertyAt i a p) {before : List Span}
    (listed : (before, a) ∈ e.arguments.properties.withEarlier) :
    propertyKeys e.line before ⊆ propertyKeys e.line (e.arguments.toList.eraseIdx i) := by
  intro key found
  obtain ⟨b, early, q, read, same⟩ := mem_propertyKeys_iff.mp found
  obtain ⟨later, split⟩ := List.mem_withEarlier_iff.mp listed
  have sorted : e.arguments.properties.Pairwise fun a b => a.endColumn < b.column :=
    e.arguments_pairwise.sublist (List.dropWhile_sublist _)
  rw [split] at sorted
  have apart := (List.pairwise_append.mp sorted).2.2 b early a (List.mem_cons_self ..)
  have inside : b ∈ e.arguments.toList :=
    Pieces.mem_of_mem_properties (by rw [split]; exact List.mem_append_left _ early)
  obtain ⟨j, place⟩ := List.mem_iff_getElem?.mp inside
  refine mem_propertyKeys_iff.mpr ⟨b, List.mem_eraseIdx_iff_getElem?.mpr ⟨j, ?_, place⟩, q, read, same⟩
  rintro rfl
  obtain rfl := Option.some.inj (place.symm.trans here.argument)
  rw [Span.endColumn] at apart
  omega

section Reports

variable {K : Type} [Keyword K] [DecidableEq K] {rules : PropertyRules K} {value : Range}
  {checkValue : K → Entry → Span → List Diagnostic} {key : K} {code : String}

/-- An accepted key that no other argument has is not reported. -/
theorem PropertyAt.not_reports_key (here : e.PropertyAt i a p)
    (unique : p.key.text ∉ propertyKeys e.line (e.arguments.toList.eraseIdx i))
    (known : Keyword.parse? p.key.text = some key) (accepted : rules.accepts key = true)
    (other : code ≠ rules.codes.expectedPair ∧ code ≠ rules.codes.missing)
    (foreign : ∀ key q b, ∀ d ∈ checkValue key q b, d.code ≠ some code) :
    ¬ Reports (rules.check e.line value checkValue e.arguments.properties) code p.keyRange := by
  rintro ⟨d, member, coded, range⟩
  obtain (pair | missing) | ⟨⟨before, b⟩, listed, q, read, ⟨k, -, checked⟩ | ⟨place, fault⟩⟩ :=
    PropertyRules.mem_check_cases member
  · exact other.1 (Option.some.inj (coded.symm.trans pair))
  · exact other.2 (Option.some.inj (coded.symm.trans missing))
  · exact foreign k q b d checked coded
  · have column : q.key.column = p.key.column :=
      congrArg (fun r => r.start.column) (place.symm.trans range)
    obtain rfl : b = a := eq_of_property_column here.mem_arguments here.read
      (mem_arguments_of_withEarlier listed) read (.inl column)
    obtain rfl := Option.some.inj (read.symm.trans here.read)
    rcases fault with repeated | rejected
    · exact unique (here.propertyKeys_subset listed repeated)
    · rw [rejected key known] at accepted
      cases accepted

/-- A value that passes its check is not reported. -/
theorem PropertyAt.not_reports_value (here : e.PropertyAt i a p)
    (known : Keyword.parse? p.key.text = some key) (foreign : code ∉ rules.codes.toList)
    (placed : ∀ key q b, ∀ d ∈ checkValue key q b, d.code = some code → d.range = q.valueRange)
    (passes : ∀ d ∈ checkValue key p a, d.code ≠ some code) :
    ¬ Reports (rules.check e.line value checkValue e.arguments.properties) code p.valueRange := by
  rintro ⟨d, member, same, range⟩
  have found : d ∈ coded code (rules.check e.line value checkValue e.arguments.properties) :=
    List.mem_filter.mpr ⟨member, beq_iff_eq.mpr same⟩
  rw [PropertyRules.coded_check _ foreign] at found
  obtain ⟨⟨k, q, b⟩, listed, checked⟩ := List.mem_flatMap.mp found
  obtain ⟨_, inside, found⟩ := List.mem_filterMap.mp listed
  obtain ⟨_, read, found⟩ := Option.bind_eq_some_iff.mp found
  obtain ⟨_, knownToo, equal⟩ := Option.map_eq_some_iff.mp found
  cases equal
  have reported := (List.mem_filter.mp checked).1
  have column : q.value.column = p.value.column :=
    congrArg (fun r => r.start.column) ((placed k q b d reported same).symm.trans range)
  obtain rfl : b = a := eq_of_property_column here.mem_arguments here.read
    (Pieces.mem_of_mem_properties inside) read (.inr column)
  obtain rfl := Option.some.inj (read.symm.trans here.read)
  obtain rfl := Option.some.inj (knownToo.symm.trans known)
  exact passes d reported same

end Reports

end Entry

/-! ## Proxies and groups -/

/-- A report at a value that is none of the words for it. -/
def RejectsWord (words : List String) (q : Entry) (d : Diagnostic) : Prop :=
  d.range = q.valueRange ∧ ∀ word ∈ words, word.toList ≠ q.value.text

section Values

variable {q : Entry} {a : Span} {d : Diagnostic} {code : String}

theorem rejectsWord_of_checkBoolean (member : d ∈ (q.value.checkBoolean q.line).toList) :
    RejectsWord ["true", "false"] q d := by
  rw [Span.checkBoolean] at member
  split at member
  · cases member
  · next unlisted =>
    obtain rfl := List.mem_singleton.mp member
    exact ⟨rfl, fun word listed same => unlisted (isListed_iff.mpr ⟨word, listed, same⟩)⟩

theorem code_ne_of_checkInteger (member : d ∈ (q.value.checkInteger q.line).toList)
    (listed : code ∈ propertyWordCodes) : d.code ≠ some code := by
  obtain ⟨other, integer, same⟩ := codes_checkInteger q.value q.line d member
  rintro coded
  obtain rfl := Option.some.inj (same.symm.trans coded)
  rw [List.mem_singleton.mp integer] at listed
  exact absurd listed (by decide)

theorem rejectsWord_of_checkProxyValue {key : ProxyProperty} (member : d ∈ checkProxyValue key q)
    (listed : code ∈ propertyWordCodes) (coded : d.code = some code) :
    RejectsWord key.valueKind.words q d := by
  rw [checkProxyValue] at member
  split at member
  · next kind =>
    rw [kind]
    split at member
    · cases member
    · next unlisted =>
      obtain rfl := List.mem_singleton.mp member
      exact ⟨rfl, fun word inside same => unlisted (isListed_iff.mpr ⟨word, inside, same⟩)⟩
  · next kind =>
    rw [kind]
    exact rejectsWord_of_checkBoolean member
  · exact absurd coded (code_ne_of_checkInteger member listed)
  · cases member
  · cases member
  · cases member

theorem rejectsWord_of_checkGroupProperty {t : GroupType} {names : List Text} {key : GroupProperty}
    (member : d ∈ checkGroupProperty t names key q a) (listed : code ∈ propertyWordCodes)
    (coded : d.code = some code) : RejectsWord key.valueKind.words q d := by
  rw [checkGroupProperty, List.mem_append] at member
  rcases member with warned | member
  · split at warned
    · obtain rfl := List.mem_singleton.mp warned
      obtain rfl := Option.some.inj coded
      exact absurd listed (by decide)
    · cases warned
  · rw [checkGroupValue] at member
    split at member
    · next kind =>
      rw [kind]
      exact rejectsWord_of_checkBoolean member
    · exact absurd coded (code_ne_of_checkInteger member listed)
    · next kind =>
      rw [kind]
      split at member
      · cases member
      · next unlisted =>
        obtain rfl := List.mem_singleton.mp member
        exact ⟨rfl, fun word inside same => unlisted (isListed_iff.mpr ⟨word, inside, same⟩)⟩
    · split at member
      · cases member
      · obtain rfl := List.mem_singleton.mp member
        obtain rfl := Option.some.inj coded
        change "LC309" ∈ propertyWordCodes at listed
        exact absurd listed (by decide)
    · cases member
    · cases member

/-- A check of values that reports a value which is none of its words at that value, and nothing under
the codes for keys. -/
structure ChecksWords {K : Type} (checkValue : K → Entry → Span → List Diagnostic)
    (kindOf : K → ValueKind) : Prop where
  foreign : ∀ key q a, ∀ d ∈ checkValue key q a, ∀ code ∈ propertyKeyCodes, d.code ≠ some code
  words : ∀ key q a, ∀ d ∈ checkValue key q a, ∀ code ∈ propertyWordCodes, d.code = some code →
    RejectsWord (kindOf key).words q d

theorem checksWords_proxy :
    ChecksWords (fun key q _ => checkProxyValue key q) ProxyProperty.valueKind where
  foreign key q _ d member code listed coded := by
    have apart : ∀ code ∈ propertyKeyCodes, code ∉ ["LC220", "LC803", "LC804"] := by decide
    obtain ⟨other, own, same⟩ := codes_checkProxyValue key q d member
    exact apart code listed (Option.some.inj (same.symm.trans coded) ▸ own)
  words key q _ d member code listed coded := rejectsWord_of_checkProxyValue member listed coded

theorem checksWords_group (t : GroupType) (names : List Text) :
    ChecksWords (checkGroupProperty t names) GroupProperty.valueKind where
  foreign key q a d member code listed coded := by
    have apart : ∀ code ∈ propertyKeyCodes, code ∉ ["LC304", "LC305", "LC309", "LC803", "LC804"] := by
      decide
    obtain ⟨other, own, same⟩ := codes_checkGroupProperty t names key q a d member
    exact apart code listed (Option.some.inj (same.symm.trans coded) ▸ own)
  words key q a d member code listed coded := rejectsWord_of_checkGroupProperty member listed coded

end Values

section Declarations

variable {e : Entry} {code : String} {r : Range}

theorem reports_append {first second : List Diagnostic} : Reports (first ++ second) code r ↔
    Reports first code r ∨ Reports second code r := by
  simp only [Reports, List.mem_append, or_and_right, exists_or]

theorem not_reports_of_codesIn {codes : List String} {report : List Diagnostic}
    (within : CodesIn codes report) (foreign : code ∉ codes) : ¬ Reports report code r := by
  rintro ⟨d, member, coded, -⟩
  obtain ⟨other, listed, same⟩ := within d member
  exact foreign (Option.some.inj (same.symm.trans coded) ▸ listed)

/-- On the properties of a proxy, its property list reports. -/
theorem reports_of_checkProxy {p : Protocol} (known : Keyword.parse? e.arguments.first.text = some p)
    (listed : code ∈ propertyKeyCodes ++ propertyWordCodes) (reported : Reports (checkProxy e) code r) :
    Reports (p.rules.check e.line e.valueRange (fun key property _ => checkProxyValue key property)
      e.arguments.properties) code r := by
  have foreign : ∀ code ∈ propertyKeyCodes ++ propertyWordCodes,
      code ∉ ["LC217", "LC218", "LC219", "LC801", "LC802"] := by decide
  rw [checkProxy] at reported
  split at reported
  · next empty =>
    rw [List.isEmpty_iff.mp empty] at known
    cases known
  · rw [known] at reported
    dsimp only at reported
    exact (reports_append.mp reported).resolve_right
      (not_reports_of_codesIn (codes_checkOperands p e _) (foreign code listed))

/-- On the properties of a group, its property list reports. -/
theorem reports_of_checkGroup {t : GroupType} {names : List Text}
    (known : Keyword.parse? e.arguments.first.text = some t)
    (listed : code ∈ propertyKeyCodes ++ propertyWordCodes)
    (reported : Reports (checkGroup names e) code r) :
    Reports (t.rules.check e.line e.valueRange (checkGroupProperty t names) e.arguments.properties)
      code r := by
  have foreign : ∀ code ∈ propertyKeyCodes ++ propertyWordCodes,
      code ∉ ["LC306", "LC307", "LC308"] := by decide
  obtain ⟨unknown, -⟩ | ⟨t', known', whole⟩ := checkGroup_cases names e
  · rw [known] at unknown
    cases unknown
  · obtain rfl := Option.some.inj (known.symm.trans known')
    rw [whole] at reported
    exact (reports_append.mp reported).resolve_right
      (not_reports_of_codesIn (codes_checkActors names e _) (foreign code listed))

end Declarations

/-! ## Documents -/

/-- The check of a proxy does not see where its key stands. -/
theorem Entry.Agrees.checkProxy {e f : Entry} (agrees : e.Agrees f) : checkProxy f = checkProxy e := by
  obtain ⟨line, key, value⟩ := e
  obtain ⟨line', key', value'⟩ := f
  obtain ⟨rfl, -, rfl⟩ := agrees
  rfl

section Settings

variable {earlier : List Entry} {e : Entry}

theorem liesOn_of_mem_checkSettingValue {key : SettingKey} :
    ∀ d ∈ checkSettingValue earlier key e, d.range.LiesOn e.line := by
  refine liesOn_of_fixed ?_
  rw [← checkSettingValue_moved]
  -- of the earlier settings only the keys are looked at
  have keys : (earlier.map (Entry.moved fun _ => e.line)).findSome? Entry.domainListKey? =
      earlier.findSome? Entry.domainListKey? := by
    rw [List.findSome?_map]
    rfl
  change _ = checkSettingValue _ key e
  rw [checkSettingValue, checkSettingValue, keys]

/-- A setting is reported on its line. -/
theorem liesOn_of_mem_checkSetting : ∀ d ∈ checkSetting earlier e, d.range.LiesOn e.line := by
  intro d member
  rw [checkSetting, List.mem_append] at member
  rcases member with repeated | member
  · rw [Entry.checkRepeated] at repeated
    split at repeated
    · cases repeated
    · rw [List.mem_singleton.mp repeated]
      exact e.key.liesOn_range e.line
  · split at member
    · rw [List.mem_singleton.mp member]
      exact e.key.liesOn_range e.line
    · exact liesOn_of_mem_checkSettingValue d member

end Settings

namespace Document

variable {doc : Document} {code : String} {r : Range}

/-- The settings that are checked are those of the document. -/
theorem agrees_settings (doc : Document) : List.Forall₂ Entry.Agrees
    ((doc.solidLines (doc.sectionsOf .general)).filterMap NumberedLine.entry?)
    (doc.entries .general) :=
  agrees_solid (doc.linesOf .general)

/-- What is reported on properties comes from a proxy or a group; only the code of a value that should
be a Boolean is used for settings too. -/
theorem reports_property_cases (listed : code ∈ propertyKeyCodes ++ propertyWordCodes)
    (reported : Reports doc.validate code r) :
    (∃ e ∈ doc.entries .proxy, Reports (checkProxy e) code r) ∨
      (∃ e ∈ doc.entries .proxyGroup, ∃ names, Reports (checkGroup names e) code r) ∨
        ∃ e ∈ doc.entries .general, r.LiesOn e.line := by
  obtain ⟨d, member, coded, rfl⟩ := reported
  obtain ⟨v, -, found⟩ := List.mem_flatMap.mp member
  have own : code ∈ v.codes := by
    obtain ⟨other, own, same⟩ := codes_run v doc d found
    exact Option.some.inj (same.symm.trans coded) ▸ own
  have foreign {others : List String} (apart : ∀ code ∈ propertyKeyCodes ++ propertyWordCodes,
      code ∉ others) (other : code ∈ others) : False := apart code listed other
  cases v with
  | sections => exact (foreign (by decide) own).elim
  | hosts => exact (foreign (by decide) own).elim
  | rules => exact (foreign (by decide) own).elim
  | env => exact (foreign (by decide) own).elim
  | general =>
    refine .inr (.inr ?_)
    rw [Validator.run, checkGeneral, checkSettingsFrom_eq] at found
    obtain ⟨l, -, -, rfl⟩ | ⟨x, inside, checked⟩ := Pass.mem_runFrom_iff.mp found
    · obtain rfl := Option.some.inj coded
      exact absurd listed (by decide)
    · obtain ⟨f, here, agrees⟩ :=
        (agrees_settings doc).exists_of_mem (List.forall_withEarlier_snd.mpr (fun _ => id) x inside)
      exact ⟨f, here, agrees.line ▸ liesOn_of_mem_checkSetting d checked⟩
  | actors =>
    have entry {d : Declaration} {kind : ActorKind} (known : d.kind = kind)
        (inside : d ∈ doc.actorLines.filterMap ActorLine.declaration?) :
        ∃ f ∈ doc.entries kind.sectionKind, d.entry.Agrees f :=
      (agrees_declared doc kind).exists_of_mem
        (List.mem_map_of_mem (List.mem_filter.mpr ⟨inside, beq_iff_eq.mpr known⟩))
    rcases List.mem_append.mp found with found | found
    · rw [checkDeclarationsFrom_eq] at found
      obtain ⟨l, -, -, rfl⟩ | ⟨x, inside, checked⟩ := Pass.mem_runFrom_iff.mp found
      · obtain rfl := Option.some.inj coded
        exact absurd listed (by decide)
      · have declared := List.forall_withEarlier_snd.mpr (fun _ => id) x inside
        rcases List.mem_append.mp checked with named | checked
        · refine absurd ⟨d, named, coded, rfl⟩ (not_reports_of_codesIn (codes_checkName _ x.2) ?_)
          exact fun other => foreign (by decide) other
        · split at checked
          · next proxy =>
            obtain ⟨f, here, agrees⟩ := entry proxy declared
            exact .inl ⟨f, here, d, agrees.checkProxy ▸ checked, coded, rfl⟩
          · cases checked
    · obtain ⟨g, inside, checked⟩ := List.mem_flatMap.mp found
      obtain ⟨declared, group⟩ := List.mem_filter.mp inside
      obtain ⟨f, here, agrees⟩ := entry (eq_of_beq group) declared
      exact .inr (.inl ⟨f, here, _, d, agrees.checkGroup _ ▸ checked, coded, rfl⟩)

theorem kindAt?_of_mem_entries {kind : SectionKind} {e : Entry} (here : e ∈ doc.entries kind) :
    doc.kindAt? e.line = some kind := by
  obtain ⟨l, inside, read⟩ := List.mem_filterMap.mp here
  rw [Entry.line_of_parse? read]
  exact (of_mem_linesOf inside).1

/-- The reports on the properties of a declaration are those of its property list, whatever is in the
rest of the document. -/
structure ListsProperties {K : Type} [Keyword K] [DecidableEq K] (doc : Document) (e : Entry)
    (rules : PropertyRules K) (kindOf : K → ValueKind) : Prop where
  codes : rules.codes = proxyPropertyCodes ∨ rules.codes = groupPropertyCodes
  reports : ∀ code ∈ propertyKeyCodes ++ propertyWordCodes, ∀ r : Range, r.start.line = e.line →
    Reports doc.validate code r → ∃ checkValue, ChecksWords checkValue kindOf ∧
      Reports (rules.check e.line e.valueRange checkValue e.arguments.properties) code r

section Sources

variable {e : Entry}

/-- A report on a line comes from the declaration on the line. -/
theorem reports_declaration_cases (listed : code ∈ propertyKeyCodes ++ propertyWordCodes)
    {kind : SectionKind} (here : e ∈ doc.entries kind) (place : r.start.line = e.line)
    (reported : Reports doc.validate code r) :
    (kind = .proxy ∧ Reports (checkProxy e) code r) ∨
      (kind = .proxyGroup ∧ ∃ names, Reports (checkGroup names e) code r) ∨ kind = .general := by
  have same {other : SectionKind} {f : Entry} (there : f ∈ doc.entries other)
      (line : r.start.line = f.line) : kind = other := by
    have known := kindAt?_of_mem_entries there
    rw [← line, place, kindAt?_of_mem_entries here] at known
    exact Option.some.inj known
  obtain ⟨f, there, found⟩ | ⟨f, there, names, found⟩ | ⟨f, there, on⟩ :=
    reports_property_cases listed reported
  · have line : r.start.line = f.line := by
      obtain ⟨d, member, -, rfl⟩ := found
      exact (liesOn_of_mem_checkProxy f d member).1
    obtain rfl := same there line
    obtain rfl := eq_of_mem_entries here there (place.symm.trans line)
    exact .inl ⟨rfl, found⟩
  · have line : r.start.line = f.line := by
      obtain ⟨d, member, -, rfl⟩ := found
      exact (liesOn_of_mem_checkGroup names f d member).1
    obtain rfl := same there line
    obtain rfl := eq_of_mem_entries here there (place.symm.trans line)
    exact .inr (.inl ⟨rfl, names, found⟩)
  · exact .inr (.inr (same there on.1))

theorem listsProperties_proxy {p : Protocol} (here : e ∈ doc.entries .proxy)
    (known : Keyword.parse? e.arguments.first.text = some p) :
    doc.ListsProperties e p.rules ProxyProperty.valueKind where
  codes := .inl rfl
  reports code listed r place reported := by
    obtain ⟨-, found⟩ | ⟨other, -⟩ | other := reports_declaration_cases listed here place reported
    · exact ⟨_, checksWords_proxy, reports_of_checkProxy known listed found⟩
    · cases other
    · cases other

theorem listsProperties_group {t : GroupType} (here : e ∈ doc.entries .proxyGroup)
    (known : Keyword.parse? e.arguments.first.text = some t) :
    doc.ListsProperties e t.rules GroupProperty.valueKind where
  codes := .inr rfl
  reports code listed r place reported := by
    obtain ⟨other, -⟩ | ⟨-, names, found⟩ | other := reports_declaration_cases listed here place reported
    · cases other
    · exact ⟨_, checksWords_group t names, reports_of_checkGroup known listed found⟩
    · cases other

end Sources

section Properties

variable {K : Type} [Keyword K] [DecidableEq K] {e p : Entry} {rules : PropertyRules K}
  {kindOf : K → ValueKind} {i : Nat} {a : Span} {key : K}

/-- An accepted key that no other argument has is not reported. -/
theorem ListsProperties.not_reports_key (lists : doc.ListsProperties e rules kindOf)
    (here : e.PropertyAt i a p)
    (unique : p.key.text ∉ propertyKeys e.line (e.arguments.toList.eraseIdx i))
    (known : Keyword.parse? p.key.text = some key) (accepted : rules.accepts key = true)
    (listed : code ∈ propertyKeyCodes) : ¬ Reports doc.validate code p.keyRange := by
  intro reported
  obtain ⟨checkValue, checks, found⟩ := lists.reports code (List.mem_append_left _ listed) _
    (Entry.line_of_parse? here.read) reported
  have pairs : ∀ codes ∈ [proxyPropertyCodes, groupPropertyCodes], ∀ code ∈ propertyKeyCodes,
      code ≠ codes.expectedPair ∧ code ≠ codes.missing := by decide
  refine here.not_reports_key unique known accepted (pairs rules.codes ?_ code listed)
    (fun key q b d member => checks.foreign key q b d member code listed) found
  rcases lists.codes with same | same <;> simp [same]

/-- A value that is one of the words for it is not reported. -/
theorem ListsProperties.not_reports_word (lists : doc.ListsProperties e rules kindOf)
    (here : e.PropertyAt i a p) (known : Keyword.parse? p.key.text = some key) {word : String}
    (among : word ∈ (kindOf key).words) (value : p.value.text = word.toList)
    (listed : code ∈ propertyWordCodes) : ¬ Reports doc.validate code p.valueRange := by
  intro reported
  obtain ⟨checkValue, checks, found⟩ := lists.reports code (List.mem_append_right _ listed) _
    (Entry.line_of_parse? here.read) reported
  have apart : ∀ codes ∈ [proxyPropertyCodes, groupPropertyCodes], ∀ code ∈ propertyWordCodes,
      code ∉ codes.toList := by decide
  refine here.not_reports_value known (apart rules.codes ?_ code listed)
    (fun key q b d member coded => (checks.words key q b d member code listed coded).1)
    (fun d member coded => (checks.words key p a d member code listed coded).2 word among value.symm)
    found
  rcases lists.codes with same | same <;> simp [same]

end Properties

section Settings

/-- A setting is reported at its key if an earlier one has the key, or if it is not known. -/
theorem fault_of_mem_checkSetting {earlier : List Entry} {e : Entry} {d : Diagnostic}
    (member : d ∈ checkSetting earlier e) (listed : code ∈ settingKeyCodes)
    (coded : d.code = some code) :
    (∃ first ∈ earlier, first.key.text = e.key.text) ∨ e.settingKey? = none := by
  rw [checkSetting, List.mem_append] at member
  rcases member with repeated | member
  · rw [Entry.checkRepeated, Entry.firstAmong?] at repeated
    split at repeated
    · cases repeated
    · next first found =>
      exact .inl ⟨first, List.mem_of_find?_eq_some found, eq_of_beq (List.find?_some found :)⟩
  · split at member
    · next unknown => exact .inr unknown
    · next key _ =>
      have apart : ∀ code ∈ settingKeyCodes, code ∉
          ["LC104", "LC105", "LC106", "LC107", "LC801", "LC802", "LC803", "LC804", "LC805"] := by
        decide
      exact absurd ⟨d, member, coded, rfl⟩
        (not_reports_of_codesIn (codes_checkSettingValue _ key e) (apart code listed))

/-- A known key that no other setting has is not reported. -/
theorem not_reports_settingKey {e : Entry} {key : SettingKey} (here : e ∈ doc.entries .general)
    (known : Keyword.parse? e.key.text = some key)
    (unique : ∀ f ∈ doc.entries .general, f.key.text = e.key.text → f.line = e.line)
    (listed : code ∈ settingKeyCodes) : ¬ Reports doc.validate code e.keyRange := by
  rintro ⟨d, member, same, range⟩
  have own : ∀ other : Validator, code ∈ other.codes → other = .general := by
    have apart : ∀ code ∈ settingKeyCodes, ∀ other ∈ Validator.all, code ∈ other.codes →
        other = .general := by decide
    exact fun other => apart code listed other (by cases other <;> decide)
  have found : d ∈ coded code doc.validate := List.mem_filter.mpr ⟨member, beq_iff_eq.mpr same⟩
  rw [coded_validate .general own] at found
  have found := (List.mem_filter.mp found).1
  rw [Validator.run, checkGeneral, checkSettingsFrom_eq] at found
  obtain ⟨l, -, -, rfl⟩ | ⟨x, inside, checked⟩ := Pass.mem_runFrom_iff.mp found
  · obtain rfl := Option.some.inj same
    exact absurd listed (by decide)
  · obtain ⟨later, split⟩ := List.mem_withEarlier_iff.mp inside
    have partner {f : Entry} (member : f ∈ x.1 ++ x.2 :: later) :=
      (agrees_settings doc).exists_of_mem (split ▸ member)
    obtain ⟨f, there, agrees⟩ := partner (List.mem_append_right _ (List.mem_cons_self ..))
    have line : x.2.line = e.line :=
      (liesOn_of_mem_checkSetting d checked).1.symm.trans (congrArg (fun r => r.start.line) range)
    obtain rfl := eq_of_mem_entries there here (agrees.line.symm.trans line)
    rcases fault_of_mem_checkSetting checked listed same with ⟨first, before, repeated⟩ | unknown
    · obtain ⟨g, among, agrees'⟩ := partner (List.mem_append_left _ before)
      have same := unique g among
        (agrees'.key.text_eq.symm.trans (repeated.trans agrees.key.text_eq))
      have sorted : (x.1 ++ x.2 :: later).Pairwise fun a b => a.line < b.line :=
        split ▸ doc.entries_pairwise .general
      have ahead := (List.pairwise_append.mp sorted).2.2 first before x.2 (List.mem_cons_self ..)
      rw [agrees'.line, agrees.line, same] at ahead
      exact Nat.lt_irrefl _ ahead
    · rw [Entry.settingKey?, agrees.key.text_eq, known] at unknown
      cases unknown

end Settings

end Document

end ProxyConfig
