import ProxyConfig.Proofs.Earlier
import ProxyConfig.Proofs.Validation.Properties

/-! # The account of a property list

A property list is reported argument by argument and then as a whole: an argument that is no property,
a key that an earlier property has, a key that is not taken, and in the end the required keys that are
missing. Here the report is divided by these causes, with one diagnostic for each. The values are
checked apart from that, once for each property with a known key.
-/

namespace ProxyConfig

open Text

/-- An argument is a property if it has an `=` that is not in a comment. -/
theorem Span.property?_eq_none_iff {a : Span} (line : Nat) :
    a.property? line = none ↔ '=' ∉ a.text.uncommented :=
  Entry.parse?_eq_none_iff

/-- The properties among the arguments, in their order. -/
def propertiesOf (line : Nat) (arguments : List Span) : List Entry :=
  arguments.filterMap fun a => a.property? line

theorem propertyKeys_eq_map (line : Nat) (arguments : List Span) :
    propertyKeys line arguments = (propertiesOf line arguments).map fun p => p.key.text := rfl

namespace PropertyRules

variable {K : Type}

section Causes

variable (rules : PropertyRules K) (line : Nat) (value : Range)

/-- The report on an argument that is no property. -/
def unpaired (a : Span) : Diagnostic :=
  (Issue.expectedPair rules.codes.expectedPair).on (a.range line)

/-- The report on a property whose key an earlier one has, with the first one that has it. -/
def duplicate (first p : Entry) : Diagnostic :=
  ((Issue.duplicateKey rules.codes.duplicate p.key.text).on p.keyRange).withRelated first.keyRange
    (firstDefinition p.key.text)

/-- The report on a property behind the earlier ones if one of them has its key. -/
def repetition (earlier : List Entry) (p : Entry) : List Diagnostic :=
  ((p.firstAmong? earlier).map fun first => rules.duplicate first p).toList

/-- The reports on the properties whose key an earlier one has. -/
def duplicatesFrom (earlier properties : List Entry) : List Diagnostic :=
  properties.withEarlier.flatMap fun q => rules.repetition (earlier ++ q.1) q.2

variable [Keyword K]

/-- The report on a property whose key is not taken: it is unknown, or not allowed here. -/
def refusal (p : Entry) : Diagnostic :=
  match (Keyword.parse? p.key.text : Option K) with
  | none => (Issue.unknownKey rules.codes.unknown p.key.text).on p.keyRange
  | some _ =>
    (Issue.rejectedKey rules.codes.notAllowed (rules.notAllowed p.key.text)).on p.keyRange

/-- The report on a required key that no property has. -/
def absence (key : K) : Diagnostic :=
  (Issue.missingKey rules.codes.missing (Keyword.spelling key)).on value

/-- The required keys that none of the properties has, in the order of the rules. -/
def absentKeys (properties : List Entry) : List K :=
  rules.required.filter fun key => ∀ p ∈ properties, p.key.text ≠ Keyword.text key

/-- The key of the property is known and one that the rules take. -/
def TakesKey (p : Entry) : Prop :=
  ∃ key : K, Keyword.parse? p.key.text = some key ∧ (key ∈ rules.required ∨ key ∈ rules.allowed)

variable [DecidableEq K]

theorem takesKey_iff (p : Entry) :
    rules.TakesKey p ↔ (Keyword.parse? p.key.text : Option K).any rules.accepts = true := by
  cases known : (Keyword.parse? p.key.text : Option K) <;> simp [TakesKey, known, accepts]

instance (p : Entry) : Decidable (rules.TakesKey p) := decidable_of_iff' _ (rules.takesKey_iff p)

end Causes

variable {rules : PropertyRules K} {line : Nat} {value : Range} {arguments : List Span}

/-- A check of values that reports nothing. -/
def silent (_ : K) (_ : Entry) (_ : Span) : List Diagnostic := []

theorem duplicatesFrom_cons (earlier : List Entry) (p : Entry) (rest : List Entry) :
    rules.duplicatesFrom earlier (p :: rest) =
      rules.repetition earlier p ++ rules.duplicatesFrom (earlier ++ [p]) rest := by
  simp [duplicatesFrom, List.withEarlier, List.flatMap_map]

theorem report_repeated (earlier : List Entry) (p : Entry) :
    (rules.repeated earlier p).flatMap (PropertyFinding.report silent) =
      rules.repetition earlier p := by
  rw [repeated, repetition, Entry.firstAmong?]
  cases earlier.find? fun first => first.key.text == p.key.text <;> rfl

variable [Keyword K]

theorem report_missing (properties : List Entry) :
    (rules.missing value properties).flatMap (PropertyFinding.report silent) =
      (rules.absentKeys properties).map (rules.absence value) := by
  have same : (rules.required.filter fun key => properties.all fun p => p.key.text != Keyword.text key) =
      rules.absentKeys properties :=
    List.filter_congr fun key _ => Bool.eq_iff_iff.mpr (by simp)
  rw [missing, same, List.flatMap_map, List.map_eq_flatMap]
  rfl

variable [DecidableEq K]

theorem report_findingsOn (earlier : List Entry) (p : Entry) (a : Span) :
    (rules.findingsOn earlier p a).flatMap (PropertyFinding.report silent) =
      rules.repetition earlier p ++ if rules.TakesKey p then [] else [rules.refusal p] := by
  rw [findingsOn, List.flatMap_append, report_repeated]
  congr 1
  simp only [takesKey_iff, refusal]
  cases (Keyword.parse? p.key.text : Option K) with
  | none => rfl
  | some key => cases taken : rules.accepts key <;> simp [taken, PropertyFinding.report, silent]

/-- What the scan reports behind some properties, divided by cause. -/
theorem exists_report_scanFrom (earlier : List Entry) :
    ∃ found, (rules.scanFrom line value earlier arguments).flatMap (PropertyFinding.report silent) =
        found ++ (rules.absentKeys (earlier ++ propertiesOf line arguments)).map (rules.absence value) ∧
      found.Perm
        ((arguments.filter fun a => '=' ∉ a.text.uncommented).map (rules.unpaired line) ++
          rules.duplicatesFrom earlier (propertiesOf line arguments) ++
          ((propertiesOf line arguments).filter fun p => ¬ rules.TakesKey p).map rules.refusal) := by
  -- the missing keys stay behind all else, and the causes of each argument are sorted into the three
  -- lists by counting, since the scan reports them one argument at a time
  induction arguments generalizing earlier with
  | nil => exact ⟨[], by simp [scanFrom, report_missing, propertiesOf], .nil⟩
  | cons a rest ih =>
    rw [scanFrom]
    cases read : a.property? line with
    | none =>
      have here : '=' ∉ a.text.uncommented := (Span.property?_eq_none_iff line).mp read
      obtain ⟨found, whole, causes⟩ := ih earlier
      refine ⟨rules.unpaired line a :: found, ?_, ?_⟩
      · simp [propertiesOf, read, whole, PropertyFinding.report, unpaired]
      · simpa [propertiesOf, read, here] using causes
    | some p =>
      have here : '=' ∈ a.text.uncommented := by
        by_contra none
        rw [(Span.property?_eq_none_iff line).mpr none] at read
        cases read
      obtain ⟨found, whole, causes⟩ := ih (earlier ++ [p])
      have list : propertiesOf line (a :: rest) = p :: propertiesOf line rest := by
        simp [propertiesOf, read]
      let refused := if rules.TakesKey p then [] else [rules.refusal p]
      refine ⟨rules.repetition earlier p ++ refused ++ found, ?_, ?_⟩
      · simp only [List.flatMap_append, report_findingsOn, whole, list, List.append_assoc,
          List.singleton_append, refused]
      · have kept : ((p :: propertiesOf line rest).filter fun p => ¬ rules.TakesKey p).map rules.refusal =
            refused ++ ((propertiesOf line rest).filter fun p => ¬ rules.TakesKey p).map rules.refusal := by
          by_cases taken : rules.TakesKey p <;> simp [refused, taken]
        rw [list, duplicatesFrom_cons, kept, List.filter_cons_of_neg (by simpa using here)]
        refine List.perm_iff_count.mpr fun d => ?_
        have same := causes.count_eq d
        simp only [List.count_append] at same ⊢
        omega

variable (rules line value arguments) in
/-- The report without the values, divided by cause: what is found at the arguments, and then the
missing keys. -/
theorem exists_report_check :
    ∃ found, rules.check line value silent arguments =
        found ++ (rules.absentKeys (propertiesOf line arguments)).map (rules.absence value) ∧
      found.Perm
        ((arguments.filter fun a => '=' ∉ a.text.uncommented).map (rules.unpaired line) ++
          rules.duplicatesFrom [] (propertiesOf line arguments) ++
          ((propertiesOf line arguments).filter fun p => ¬ rules.TakesKey p).map rules.refusal) :=
  exists_report_scanFrom []

omit [Keyword K] [DecidableEq K] in
theorem mem_duplicatesFrom {properties : List Entry} {d : Diagnostic}
    (member : d ∈ rules.duplicatesFrom [] properties) :
    ∃ earlier p later first, properties = earlier ++ p :: later ∧ first ∈ earlier ∧
      p.firstAmong? properties = some first ∧ d = rules.duplicate first p := by
  obtain ⟨⟨earlier, p⟩, inside, reported⟩ := List.mem_flatMap.mp member
  obtain ⟨later, rfl⟩ := List.mem_withEarlier_iff.mp inside
  obtain ⟨first, found, rfl⟩ := Option.map_eq_some_iff.mp (Option.mem_toList.mp reported)
  refine ⟨earlier, p, later, first, rfl, List.mem_of_find?_eq_some found, ?_, rfl⟩
  rw [Entry.firstAmong?, List.nil_append] at found
  rw [Entry.firstAmong?, List.find?_append, found, Option.some_or]

omit [Keyword K] [DecidableEq K] in
theorem length_repetition (earlier : List Entry) (p : Entry) :
    (rules.repetition earlier p).length =
      if p.key.text ∈ earlier.map (fun q => q.key.text) then 1 else 0 := by
  have fresh : p.firstAmong? earlier = none ↔ p.key.text ∉ earlier.map fun q => q.key.text := by
    rw [p.firstAmong?_eq_none_iff, List.mem_map]
    simp only [not_exists, not_and, ne_eq]
  rw [repetition]
  split
  · next seen =>
    obtain ⟨first, found⟩ := Option.ne_none_iff_exists'.mp fun none => fresh.mp none seen
    rw [found]
    rfl
  · next unseen => rw [fresh.mpr unseen]; rfl

omit [Keyword K] [DecidableEq K] in
/-- The duplicates are the properties without one for each key. -/
theorem length_duplicatesFrom (properties : List Entry) :
    (rules.duplicatesFrom [] properties).length =
      properties.length - (properties.map fun p => p.key.text).dedup.length := by
  refine Nat.eq_sub_of_add_eq (List.length_seen_add_length_dedup (fun q seen => ?_) fun q unseen => ?_)
  · rw [List.nil_append, length_repetition, if_pos seen]
  · rw [List.nil_append, List.eq_nil_iff_length_eq_zero, length_repetition, if_neg unseen]

theorem severity_of_mem_check {d : Diagnostic}
    (member : d ∈ rules.check line value silent arguments) : d.severity = .error := by
  obtain ⟨found, whole, causes⟩ := exists_report_check rules line value arguments
  rw [whole, List.mem_append, causes.mem_iff, List.mem_append, List.mem_append] at member
  rcases member with ((pair | repeats) | refused) | missing
  · obtain ⟨a, -, rfl⟩ := List.mem_map.mp pair
    rfl
  · obtain ⟨_, p, _, first, -, -, -, rfl⟩ := mem_duplicatesFrom repeats
    rfl
  · obtain ⟨p, -, rfl⟩ := List.mem_map.mp refused
    rw [refusal]
    split <;> rfl
  · obtain ⟨key, -, rfl⟩ := List.mem_map.mp missing
    rfl

theorem forall_admits_silent_iff :
    (∀ a ∈ arguments, rules.Admits line silent a) ↔
      (∀ a ∈ arguments, '=' ∈ a.text.uncommented) ∧
        ∀ p ∈ propertiesOf line arguments, rules.TakesKey p := by
  have each (a : Span) : rules.Admits line silent a ↔
      '=' ∈ a.text.uncommented ∧ ∀ p, a.property? line = some p → rules.TakesKey p := by
    rw [← not_not (a := '=' ∈ a.text.uncommented), ← Span.property?_eq_none_iff line]
    cases read : a.property? line <;> simp [Admits, read, TakesKey, accepts, silent, errorless_nil]
  simp only [each, propertiesOf, List.mem_filterMap]
  constructor
  · intro all
    refine ⟨fun a member => (all a member).1, ?_⟩
    rintro p ⟨a, member, read⟩
    exact (all a member).2 p read
  · rintro ⟨paired, taken⟩ a member
    exact ⟨paired a member, fun p read => taken p ⟨a, member, read⟩⟩

/-- Nothing is reported of a list of properties with different keys that are taken, among them all that
are required. -/
theorem check_eq_nil_iff :
    rules.check line value silent arguments = [] ↔
      (∀ a ∈ arguments, '=' ∈ a.text.uncommented) ∧
        ((propertiesOf line arguments).map fun p => p.key.text).Nodup ∧
        (∀ p ∈ propertiesOf line arguments, rules.TakesKey p) ∧
        ∀ key ∈ rules.required, ∃ p ∈ propertiesOf line arguments, p.key.text = Keyword.text key := by
  have clean : rules.check line value silent arguments = [] ↔
      Errorless (rules.check line value silent arguments) := by
    refine ⟨fun empty => empty ▸ errorless_nil, fun clean => ?_⟩
    exact List.eq_nil_iff_forall_not_mem.mpr fun d member => clean d member (severity_of_mem_check member)
  rw [clean, errorless_check_iff, forall_admits_silent_iff, propertyKeys_eq_map]
  simp only [List.mem_map]
  exact and_assoc.trans (and_congr_right fun _ => and_left_comm)

/-- The reports on the values of the known properties, in the order of the arguments. -/
def valueReports (line : Nat) (checkValue : K → Entry → Span → List Diagnostic)
    (arguments : List Span) : List Diagnostic :=
  (arguments.filterMap fun a => a.known? line).flatMap fun (key, p, a) => checkValue key p a

variable {checkValue : K → Entry → Span → List Diagnostic}

omit [Keyword K] [DecidableEq K] in
theorem perm_report (findings : List (PropertyFinding K)) :
    (findings.flatMap (PropertyFinding.report checkValue)).Perm
      (findings.flatMap (PropertyFinding.report silent) ++
        (findings.filterMap PropertyFinding.known?).flatMap fun (key, p, a) => checkValue key p a) := by
  induction findings with
  | nil => exact .nil
  | cons finding rest ih =>
    cases finding with
    | issue d => exact ih.cons d
    | known key p a =>
      refine (ih.append_left (checkValue key p a)).trans ?_
      rw [← List.append_assoc]
      exact (List.perm_append_comm.append_right _).trans (.of_eq (List.append_assoc ..))

omit [Keyword K] [DecidableEq K] in
theorem sublist_report (findings : List (PropertyFinding K)) :
    ((findings.filterMap PropertyFinding.known?).flatMap fun (key, p, a) => checkValue key p a).Sublist
      (findings.flatMap (PropertyFinding.report checkValue)) := by
  induction findings with
  | nil => exact .slnil
  | cons finding rest ih =>
    cases finding with
    | issue d => exact ih.cons d
    | known key p a => exact ih.append_left (checkValue key p a)

/-- The values are checked in the order of the arguments, next to all other reports. -/
theorem check_values :
    (valueReports line checkValue arguments).Sublist (rules.check line value checkValue arguments) ∧
      (rules.check line value checkValue arguments).Perm
        (rules.check line value silent arguments ++ valueReports line checkValue arguments) := by
  have known : (rules.scan line value arguments).filterMap PropertyFinding.known? =
      arguments.filterMap fun a => a.known? line := known?_scanFrom [] arguments
  rw [valueReports, ← known]
  exact ⟨sublist_report _, perm_report _⟩

/-- Without the values, a property list has one error for each argument that is no property, one for
each property whose key an earlier one has, pointing back to the first of those, one for each property
whose key is not taken, and behind these one for each required key that is missing. Each property with
a known key is checked once, in the order of the arguments. -/
theorem list_accounted (rules : PropertyRules K) (line : Nat) (value : Range)
    (arguments : List Span) :
    let report := rules.check line value silent arguments
    let properties := propertiesOf line arguments
    let keys := properties.map fun p => p.key.text
    let duplicates := rules.duplicatesFrom [] properties
    (report = [] ↔
      (∀ a ∈ arguments, '=' ∈ a.text.uncommented) ∧ keys.Nodup ∧
        (∀ p ∈ properties, rules.TakesKey p) ∧
        ∀ key ∈ rules.required, ∃ p ∈ properties, p.key.text = Keyword.text key) ∧
    (∃ found, report = found ++ (rules.absentKeys properties).map (rules.absence value) ∧
      found.Perm
        ((arguments.filter fun a => '=' ∉ a.text.uncommented).map (rules.unpaired line) ++ duplicates ++
          (properties.filter fun p => ¬ rules.TakesKey p).map rules.refusal)) ∧
    duplicates.length = properties.length - keys.dedup.length ∧
    (∀ d ∈ duplicates, ∃ earlier p later first, properties = earlier ++ p :: later ∧
      first ∈ earlier ∧ p.firstAmong? properties = some first ∧ d = rules.duplicate first p) ∧
    (∀ d ∈ report, d.severity = .error) ∧
    (rules.scan line value arguments).filterMap PropertyFinding.known? =
      (arguments.filterMap fun a => a.known? line) ∧
    ∀ checkValue : K → Entry → Span → List Diagnostic,
      (valueReports line checkValue arguments).Sublist (rules.check line value checkValue arguments) ∧
        (rules.check line value checkValue arguments).Perm
          (report ++ valueReports line checkValue arguments) :=
  ⟨check_eq_nil_iff, exists_report_check .., length_duplicatesFrom _, fun _ => mem_duplicatesFrom,
    fun _ => severity_of_mem_check, known?_scanFrom [] arguments, fun _ => check_values⟩

/-- A key that is there twice, in front of an argument that is no property. -/
theorem list_accounted_repeated :
    let rules : PropertyRules ProxyProperty :=
      { required := [.encryptMethod], allowed := [.password], notAllowed := fun _ => "not allowed"
        codes := ⟨"T1", "T2", "T3", "T4", "T5"⟩ }
    let arguments := (Pieces.read 1 "password=x, password=y, z".toList).toList
    let properties := propertiesOf 1 arguments
    let first : Entry := ⟨1, ⟨"password".toList, 1⟩, ⟨"x".toList, 10⟩⟩
    let second : Entry := ⟨1, ⟨"password".toList, 13⟩, ⟨"y".toList, 22⟩⟩
    let d := rules.duplicate first second
    d ∈ rules.check 1 (.onLine 1 1 25) silent arguments ∧ d.severity = .error ∧
      d ∈ rules.duplicatesFrom [] properties ∧
      ∃ earlier p later first, properties = earlier ++ p :: later ∧ first ∈ earlier ∧
        p.firstAmong? properties = some first ∧ d = rules.duplicate first p := by
  intro rules arguments properties first second d
  have reported : d ∈ rules.check 1 (.onLine 1 1 25) silent arguments := by decide +kernel
  have repeated : d ∈ rules.duplicatesFrom [] properties := by decide +kernel
  obtain ⟨-, -, -, pointed, errors, -⟩ := list_accounted rules 1 (.onLine 1 1 25) arguments
  exact ⟨reported, errors d reported, repeated, pointed d repeated⟩

/-- An argument whose `=` stands in a comment is reported, although it has an `=`, and no key in it is
repeated or not taken. -/
theorem hidden_equals_reported :
    let rules : PropertyRules ProxyProperty :=
      { required := [], allowed := [], notAllowed := fun _ => "not allowed"
        codes := ⟨"T1", "T2", "T3", "T4", "T5"⟩ }
    let arguments : List Span := [⟨"a#=b".toList, 1⟩]
    ¬ (rules.check 1 (.onLine 1 1 4) silent arguments = [] ↔
      (∀ a ∈ arguments, '=' ∈ a.text) ∧
        ((propertiesOf 1 arguments).map fun p => p.key.text).Nodup ∧
        (∀ p ∈ propertiesOf 1 arguments, rules.TakesKey p) ∧
        ∀ key ∈ rules.required, ∃ p ∈ propertiesOf 1 arguments, p.key.text = Keyword.text key) := by
  decide +kernel

end PropertyRules

end ProxyConfig
