import ProxyConfig.Proofs.Entry
import ProxyConfig.Proofs.Keyword
import ProxyConfig.Proofs.Validation.Codes
import ProxyConfig.Proofs.Validation.Errorless
import Mathlib.Data.List.Nodup

/-! # Property lists without errors

The scan of a property list goes through the arguments once, with the properties read so far. It
reports no error exactly if every argument is a property with an accepted key and a good value, no key
occurs twice, and no required key is missing. Behind a line's comment all of this can be read off the
texts of the arguments.
-/

namespace ProxyConfig

open Text

/-- The keys of the properties among the arguments, in their order. -/
def propertyKeys (line : Nat) (arguments : List Span) : List Text :=
  (arguments.filterMap fun a => a.property? line).map fun p => p.key.text

theorem Entry.firstAmong?_eq_none_iff (e : Entry) {earlier : List Entry} :
    e.firstAmong? earlier = none ↔ ∀ first ∈ earlier, first.key.text ≠ e.key.text := by
  rw [firstAmong?, List.find?_eq_none]
  simp only [beq_iff_eq, ne_eq]

namespace PropertyRules

variable {K : Type} {rules : PropertyRules K} {line : Nat} {value : Range}
  {checkValue : K → Entry → Span → List Diagnostic} {earlier : List Entry} {property : Entry}
  {argument : Span} {arguments : List Span}

theorem errorless_repeated_iff :
    Errorless ((rules.repeated earlier property).flatMap (PropertyFinding.report checkValue)) ↔
      property.key.text ∉ earlier.map fun p => p.key.text := by
  have fresh : property.firstAmong? earlier = none ↔
      property.key.text ∉ earlier.map fun p => p.key.text := by
    rw [property.firstAmong?_eq_none_iff, List.mem_map]
    simp only [not_exists, not_and, ne_eq]
  rw [repeated, ← fresh, Entry.firstAmong?]
  cases earlier.find? fun first => first.key.text == property.key.text with
  | none => exact iff_of_true errorless_nil rfl
  | some first => exact iff_of_false (fun clean => clean.severity_ne rfl) (Option.some_ne_none first)

variable [Keyword K]

theorem errorless_missing_iff :
    Errorless ((rules.missing value earlier).flatMap (PropertyFinding.report checkValue)) ↔
      ∀ key ∈ rules.required, Keyword.text key ∈ earlier.map fun p => p.key.text := by
  rw [missing, List.flatMap_map]
  simp only [PropertyFinding.report]
  rw [← List.map_eq_flatMap, errorless_map_iff fun _ => rfl, List.filter_eq_nil_iff]
  simp only [List.all_eq_true, bne_iff_ne, ne_eq, not_forall, not_not, List.mem_map, exists_prop]

variable [DecidableEq K]

/-- An argument that is a property with an accepted key, and with a value that passes its check. -/
def Admits (rules : PropertyRules K) (line : Nat)
    (checkValue : K → Entry → Span → List Diagnostic) (argument : Span) : Prop :=
  ∃ property key, argument.property? line = some property ∧
    (Keyword.parse? property.key.text : Option K) = some key ∧ rules.accepts key = true ∧
      Errorless (checkValue key property argument)

theorem errorless_findingsOn_iff :
    Errorless ((rules.findingsOn earlier property argument).flatMap
        (PropertyFinding.report checkValue)) ↔
      property.key.text ∉ (earlier.map fun p => p.key.text) ∧
        ∃ key, (Keyword.parse? property.key.text : Option K) = some key ∧
          rules.accepts key = true ∧ Errorless (checkValue key property argument) := by
  rw [findingsOn, List.flatMap_append, errorless_append, errorless_repeated_iff]
  refine and_congr_right fun _ => ?_
  cases (Keyword.parse? property.key.text : Option K) with
  | none => exact iff_of_false (fun clean => clean.severity_ne rfl) (by simp)
  | some key =>
    dsimp only
    split
    · next accepted => simp [PropertyFinding.report, accepted]
    · next rejected =>
      refine iff_of_false (fun clean => ?_) (by simp [rejected])
      rw [List.flatMap_cons, errorless_append] at clean
      exact clean.2.severity_ne rfl

/-- The scan demands the same of every argument, of the keys of all properties together, and of the
required keys. -/
theorem errorless_scanFrom_iff (unique : (earlier.map fun p => p.key.text).Nodup) :
    Errorless ((rules.scanFrom line value earlier arguments).flatMap
        (PropertyFinding.report checkValue)) ↔
      (∀ a ∈ arguments, rules.Admits line checkValue a) ∧
        ((earlier.map fun p => p.key.text) ++ propertyKeys line arguments).Nodup ∧
          ∀ key ∈ rules.required, Keyword.text key ∈
            (earlier.map fun p => p.key.text) ++ propertyKeys line arguments := by
  induction arguments generalizing earlier with
  | nil =>
    rw [scanFrom, errorless_missing_iff]
    simp [propertyKeys, unique]
  | cons a rest ih =>
    rw [scanFrom]
    cases read : a.property? line with
    | none =>
      refine iff_of_false (fun clean => clean.severity_ne rfl) fun passes => ?_
      obtain ⟨property, -, found, -⟩ := passes.1 a (List.mem_cons_self ..)
      rw [read] at found
      cases found
    | some property =>
      have keys : propertyKeys line (a :: rest) = property.key.text :: propertyKeys line rest := by
        simp [propertyKeys, read]
      have admitted : rules.Admits line checkValue a ↔
          ∃ key, (Keyword.parse? property.key.text : Option K) = some key ∧
            rules.accepts key = true ∧ Errorless (checkValue key property a) := by
        simp [Admits, read]
      have shift : (earlier ++ [property]).map (fun p => p.key.text) ++ propertyKeys line rest =
          (earlier.map fun p => p.key.text) ++ propertyKeys line (a :: rest) := by
        simp [keys]
      rw [List.flatMap_append, errorless_append, errorless_findingsOn_iff, ← admitted,
        List.forall_mem_cons]
      constructor
      · rintro ⟨⟨fresh, first⟩, clean⟩
        have extended : ((earlier ++ [property]).map fun p => p.key.text).Nodup := by
          rw [List.map_append, List.map_singleton, ← List.concat_eq_append]
          exact unique.concat fresh
        rw [ih extended, shift] at clean
        exact ⟨⟨first, clean.1⟩, clean.2⟩
      · rintro ⟨⟨first, others⟩, distinct, complete⟩
        rw [← shift] at distinct complete
        have extended := distinct.of_append_left
        refine ⟨⟨?_, first⟩, (ih extended).mpr ⟨others, distinct, complete⟩⟩
        rw [List.map_append, List.map_singleton, ← List.concat_eq_append,
          List.nodup_concat] at extended
        exact extended.1

theorem errorless_check_iff :
    Errorless (rules.check line value checkValue arguments) ↔
      (∀ a ∈ arguments, rules.Admits line checkValue a) ∧ (propertyKeys line arguments).Nodup ∧
        ∀ key ∈ rules.required, Keyword.text key ∈ propertyKeys line arguments :=
  errorless_scanFrom_iff List.nodup_nil

end PropertyRules

/-! ## Properties as texts -/

namespace Text

/-- What stands before the first `=` of a property, trimmed. -/
def keyPart (s : Text) : Text := trim (s.takeWhile (· != '='))

/-- What stands behind the first `=` of a property, trimmed. -/
def valuePart (s : Text) : Text := trim (s.dropWhile (· != '=')).tail

/-- The first separator parts a text into what is before it and what is behind it. -/
theorem cut?_of_mem {d : Char} {s : Text} (member : d ∈ s) :
    cut? d s = some (s.takeWhile (· != d), (s.dropWhile (· != d)).tail) := by
  refine cut?_eq_some_iff.mpr ⟨?_, fun inside => by simpa using List.mem_takeWhile_imp inside⟩
  have split := List.takeWhile_append_dropWhile (p := (· != d)) (l := s)
  cases rest : s.dropWhile (· != d) with
  | nil =>
    have none := List.dropWhile_eq_nil_iff.mp rest d member
    simp at none
  | cons c tail =>
    have head : c = d := by
      have := List.head_dropWhile_not (p := (· != d)) (l := s) (by simp [rest])
      simpa [rest] using this
    rw [List.tail_cons, ← head, ← rest, head, split]

end Text

/-- Without a comment in the argument, its property has both parts of its text. -/
theorem Span.exists_property?_of_mem {a : Span} (line : Nat) (clean : '#' ∉ a.text)
    (keyed : '=' ∈ a.text) : ∃ p, a.property? line = some p ∧ p.key.text = a.text.keyPart ∧
      p.value.text = a.text.valuePart := by
  rw [property?, Entry.parse?_eq, uncommented_of_not_mem clean, cut?_of_mem keyed]
  refine ⟨_, rfl, text_trimmed _ _, ?_⟩
  exact text_trimmed _ _

namespace PropertyRules

variable {K : Type} [Keyword K] {rules : PropertyRules K} {good : K → Text → Prop} {line : Nat}
  {value : Range} {checkValue : K → Entry → Span → List Diagnostic} {a : Span}
  {arguments : List Span}

/-- The property lists that the rules take, as texts; `good` tells the values that a key may have. -/
structure Takes (rules : PropertyRules K) (good : K → Text → Prop) (properties : List Text) :
    Prop where
  paired : ∀ q ∈ properties, '=' ∈ q
  distinct : (properties.map keyPart).Nodup
  known : ∀ q ∈ properties, ∃ key : K, Keyword.text key = q.keyPart ∧
    (key ∈ rules.required ∨ key ∈ rules.allowed)
  complete : ∀ key ∈ rules.required, ∃ q ∈ properties, q.keyPart = Keyword.text key
  valued : ∀ q ∈ properties, ∀ key : K, Keyword.text key = q.keyPart → good key q.valuePart

theorem propertyKeys_eq (clean : ∀ a ∈ arguments, '#' ∉ a.text)
    (paired : ∀ a ∈ arguments, '=' ∈ a.text) :
    propertyKeys line arguments = (arguments.map Span.text).map keyPart := by
  induction arguments with
  | nil => rfl
  | cons a rest ih =>
    rw [List.forall_mem_cons] at clean paired
    obtain ⟨p, read, key, -⟩ := Span.exists_property?_of_mem line clean.1 paired.1
    have behind := ih clean.2 paired.2
    rw [propertyKeys] at behind ⊢
    simp [read, key, ← behind]

variable [DecidableEq K] [Keyword.Readable K]

theorem admits_iff (clean : '#' ∉ a.text)
    (judged : ∀ key p argument, Errorless (checkValue key p argument) ↔ good key p.value.text) :
    rules.Admits line checkValue a ↔ '=' ∈ a.text ∧ ∃ key : K, Keyword.text key = a.text.keyPart ∧
      (key ∈ rules.required ∨ key ∈ rules.allowed) ∧ good key a.text.valuePart := by
  by_cases keyed : '=' ∈ a.text
  · obtain ⟨p, read, key, value⟩ := Span.exists_property?_of_mem line clean keyed
    simp [Admits, read, key, value, judged, Keyword.parse?_eq_some_iff, accepts, keyed]
  · have none : a.property? line = none :=
      Span.property?_of_isPlain (by simpa [Span.isPlain] using keyed)
    simp [Admits, none, keyed]

/-- A property list without comments passes exactly if the rules take the texts of its arguments. -/
theorem errorless_check_iff_takes (clean : ∀ a ∈ arguments, '#' ∉ a.text)
    (judged : ∀ key p argument, Errorless (checkValue key p argument) ↔ good key p.value.text) :
    Errorless (rules.check line value checkValue arguments) ↔
      rules.Takes good (arguments.map Span.text) := by
  rw [errorless_check_iff]
  constructor
  · rintro ⟨admitted, distinct, complete⟩
    have each a (member : a ∈ arguments) := (admits_iff (clean a member) judged).mp (admitted a member)
    have paired a (member : a ∈ arguments) := (each a member).1
    rw [propertyKeys_eq clean paired] at distinct complete
    refine ⟨List.forall_mem_map.mpr paired, distinct, List.forall_mem_map.mpr ?_, ?_,
      List.forall_mem_map.mpr ?_⟩
    · intro a member
      obtain ⟨-, key, spelled, accepted, -⟩ := each a member
      exact ⟨key, spelled, accepted⟩
    · exact fun key required => List.mem_map.mp (complete key required)
    · intro a member key spelled
      obtain ⟨-, other, spelledToo, -, valued⟩ := each a member
      have same : other = key := Keyword.text_injective (spelledToo.trans spelled.symm)
      rwa [same] at valued
  · intro takes
    have paired := List.forall_mem_map.mp takes.paired
    rw [propertyKeys_eq clean paired]
    refine ⟨fun a member => (admits_iff (clean a member) judged).mpr ⟨paired a member, ?_⟩,
      takes.distinct, fun key required => List.mem_map.mpr (takes.complete key required)⟩
    have inside : a.text ∈ arguments.map Span.text := List.mem_map_of_mem member
    obtain ⟨key, spelled, accepted⟩ := takes.known a.text inside
    exact ⟨key, spelled, accepted, takes.valued a.text inside key spelled⟩

end PropertyRules

end ProxyConfig
