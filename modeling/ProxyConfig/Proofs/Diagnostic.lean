import ProxyConfig.Diagnostic.Json
import Mathlib.Data.List.Nodup

/-! # Diagnostics read back

What is written of a diagnostic is read as the same diagnostic, whichever of its parts are there, and
what is read is written again without the parts that say nothing: no `null`, no empty list of further
places and no field that the record does not have. Reading looks fields up by name, so their order,
other fields among them, and a `null` in the place of an absent text make no difference.
-/

namespace ProxyConfig

namespace Json

/-! ## Records -/

/-- The part is the value itself or stands somewhere in it. -/
inductive Inside (part : Json) : Json → Prop
  | self : Inside part part
  | item {items : List Json} {item : Json} :
      item ∈ items → Inside part item → Inside part (.array items)
  | field {fields : List (String × Json)} {name : String} {value : Json} :
      (name, value) ∈ fields → Inside part value → Inside part (.object fields)

/-- An object whose fields have different names and are each as the form of the record says. -/
def IsRecord (form : String → Json → Prop) (json : Json) : Prop :=
  ∃ fields, json = .object fields ∧ (fields.map Prod.fst).Nodup ∧ ∀ f ∈ fields, form f.1 f.2

variable {form : String → Json → Prop} {fields : List (String × Option Json)}

/-- A field of a record is the last one with its name that is there. -/
theorem field?_record_cons (name : String) (value? : Option Json) (key : String) :
    (record ((name, value?) :: fields)).field? key =
      ((record fields).field? key).or (if key = name then value? else none) := by
  cases value? with
  | none => simp [record, field?]
  | some value =>
    simp only [record, field?, List.filterMap_cons, Option.map_some, List.reverse_cons,
      List.lookup_append, List.lookup_cons, List.lookup_nil]
    by_cases same : key = name
    · simp [same]
    · simp [same, beq_eq_false_iff_ne.mpr same]

theorem field?_record_nil (key : String) : (record []).field? key = none := rfl

theorem isRecord_record (distinct : (fields.map Prod.fst).Nodup)
    (formed : ∀ f ∈ fields, ∀ value ∈ f.2, form f.1 value) : (record fields).IsRecord form := by
  refine ⟨_, rfl, ?_, ?_⟩
  · refine distinct.sublist ?_
    clear formed distinct
    induction fields with
    | nil => exact .slnil
    | cons f rest ih =>
      obtain ⟨name, value?⟩ := f
      cases value? with
      | none => exact ih.cons name
      | some value => exact ih.cons_cons name
  · intro f member
    obtain ⟨⟨name, value?⟩, inside, there⟩ := List.mem_filterMap.mp member
    obtain ⟨value, same, rfl⟩ := Option.map_eq_some_iff.mp there
    exact formed _ inside value same

theorem isRecord_pair {a b : String} (differ : a ≠ b) {x y : Json} (first : form a x)
    (second : form b y) : (object [(a, x), (b, y)]).IsRecord form :=
  ⟨_, rfl, by simp [differ], by simp [first, second]⟩

/-- A record holds no `null` if its fields hold none. -/
theorem IsRecord.not_null_inside {json : Json} (isRecord : json.IsRecord form)
    (clean : ∀ name value, form name value → ¬ null.Inside value) : ¬ null.Inside json := by
  obtain ⟨fields, rfl, -, formed⟩ := isRecord
  intro inside
  cases inside with
  | field member deeper => exact clean _ _ (formed _ member) deeper

theorem not_null_inside_string (s : String) : ¬ null.Inside (string s) := nofun

/-- The parts of an object with two fields. -/
theorem parts?_pair {a b : String} (differ : a ≠ b) (x y : Json) :
    (object [(a, x), (b, y)]).parts? [a, b] = some [some x, some y] := by
  simp [parts?, field?, List.lookup_cons, beq_eq_false_iff_ne.mpr differ]

/-- What is made of two parts is made of what each of them is read as. -/
theorem exists_of_pair {α β γ : Type} {make : α → β → γ} {first? : Json → Option α}
    {second? : Json → Option β} {parts? : Option (List (Option Json))} {c : γ}
    (read : (do
      match ← parts? with
      | [some x, some y] => some (make (← first? x) (← second? y))
      | _ => none) = some c) :
    ∃ x y a b, first? x = some a ∧ second? y = some b ∧ make a b = c := by
  simp only [bind, Option.bind_eq_some_iff] at read
  obtain ⟨parts, -, read⟩ := read
  split at read
  · next x y =>
    simp only [Option.bind_eq_some_iff, Option.some.injEq] at read
    obtain ⟨a, first, b, second, made⟩ := read
    exact ⟨x, y, a, b, first, second, made⟩
  · cases read

end Json

/-! ## Positions and ranges -/

namespace Position

/-- Both coordinates are unsigned 64-bit numbers. -/
structure Fits (p : Position) : Prop where
  line : p.line < UInt64.size
  column : p.column < UInt64.size

/-- The fields of a written position. -/
inductive Field : String → Json → Prop
  | line (n : Nat) : Field "line" (.integer n)
  | column (n : Nat) : Field "column" (.integer n)

variable {p : Position} {json : Json}

theorem isRecord_toJson (p : Position) : p.toJson.IsRecord Field :=
  Json.isRecord_pair (by decide) (.line _) (.column _)

theorem not_null_inside {name : String} (field : Field name json) : ¬ Json.null.Inside json := by
  cases field <;> nofun

theorem coordinate?_eq_some_iff {n : Nat} :
    coordinate? json = some n ↔ json = .ofNat n ∧ n < UInt64.size := by
  constructor
  · intro read
    rw [coordinate?, Json.natBelow?.eq_def] at read
    split at read
    · next m =>
      split at read
      · next small => cases read; exact ⟨rfl, small⟩
      · cases read
    · cases read
  · rintro ⟨rfl, small⟩
    exact if_pos small

theorem ofJson?_toJson (fits : p.Fits) : ofJson? p.toJson = some p := by
  have line := coordinate?_eq_some_iff.mpr ⟨rfl, fits.line⟩
  have column := coordinate?_eq_some_iff.mpr ⟨rfl, fits.column⟩
  simp [ofJson?, toJson, Json.parts?_pair, line, column]

theorem fits_of_ofJson? (read : ofJson? json = some p) : p.Fits := by
  obtain ⟨_, _, line, column, first, second, rfl⟩ := Json.exists_of_pair read
  exact ⟨(coordinate?_eq_some_iff.mp first).2, (coordinate?_eq_some_iff.mp second).2⟩

end Position

namespace Range

/-- All coordinates are unsigned 64-bit numbers. -/
structure Fits (r : Range) : Prop where
  start : r.start.Fits
  stop : r.stop.Fits

/-- The fields of a written range. -/
inductive Field : String → Json → Prop
  | start {json : Json} : json.IsRecord Position.Field → Field "start" json
  | stop {json : Json} : json.IsRecord Position.Field → Field "end" json

variable {r : Range} {json : Json}

theorem isRecord_toJson (r : Range) : r.toJson.IsRecord Field :=
  Json.isRecord_pair (by decide) (.start r.start.isRecord_toJson) (.stop r.stop.isRecord_toJson)

theorem not_null_inside {name : String} (field : Field name json) : ¬ Json.null.Inside json := by
  cases field with
  | start position | stop position =>
    exact position.not_null_inside fun _ _ => Position.not_null_inside

theorem ofJson?_toJson (fits : r.Fits) : ofJson? r.toJson = some r := by
  have start := Position.ofJson?_toJson fits.start
  have stop := Position.ofJson?_toJson fits.stop
  simp [ofJson?, toJson, Json.parts?_pair, start, stop]

theorem fits_of_ofJson? (read : ofJson? json = some r) : r.Fits := by
  obtain ⟨_, _, start, stop, first, second, rfl⟩ := Json.exists_of_pair read
  exact ⟨Position.fits_of_ofJson? first, Position.fits_of_ofJson? second⟩

end Range

/-! ## Diagnostics -/

theorem Severity.ofJson?_toJson (s : Severity) : ofJson? s.toJson = some s := by
  cases s <;> decide

namespace Related

/-- The fields of a written further place. -/
inductive Field : String → Json → Prop
  | range {json : Json} : json.IsRecord Range.Field → Field "range" json
  | message (s : String) : Field "message" (.string s)

variable {r : Related} {json : Json}

theorem isRecord_toJson (r : Related) : r.toJson.IsRecord Field :=
  Json.isRecord_pair (by decide) (.range r.range.isRecord_toJson) (.message _)

theorem not_null_inside {name : String} (field : Field name json) : ¬ Json.null.Inside json := by
  cases field with
  | range range => exact range.not_null_inside fun _ _ => Range.not_null_inside
  | message s => exact Json.not_null_inside_string s

theorem ofJson?_toJson (fits : r.range.Fits) : ofJson? r.toJson = some r := by
  have range := Range.ofJson?_toJson fits
  simp [ofJson?, toJson, Json.parts?_pair, Json.string?, range]

theorem fits_of_ofJson? (read : ofJson? json = some r) : r.range.Fits := by
  obtain ⟨_, _, range, message, first, -, rfl⟩ := Json.exists_of_pair read
  exact Range.fits_of_ofJson? first

end Related

namespace Diagnostic

/-- All coordinates are unsigned 64-bit numbers. -/
structure Fits (d : Diagnostic) : Prop where
  range : d.range.Fits
  related : ∀ r ∈ d.related, r.range.Fits

/-- The fields of a written diagnostic. -/
inductive Field : String → Json → Prop
  | severity (s : Severity) : Field "severity" (.string s.name)
  | message (s : String) : Field "message" (.string s)
  | code (s : String) : Field "code" (.string s)
  | range {json : Json} : json.IsRecord Range.Field → Field "range" json
  | file (s : String) : Field "file" (.string s)
  | help (s : String) : Field "help" (.string s)
  | related {items : List Json} : items ≠ [] → (∀ item ∈ items, item.IsRecord Related.Field) →
      Field "related" (.array items)

variable {d : Diagnostic} {json : Json}

theorem not_null_inside {name : String} (field : Field name json) : ¬ Json.null.Inside json := by
  cases field with
  | severity s => exact Json.not_null_inside_string s.name
  | message s | code s | file s | help s => exact Json.not_null_inside_string s
  | range range => exact range.not_null_inside fun _ _ => Range.not_null_inside
  | related _ records =>
    intro inside
    cases inside with
    | item member deeper =>
      exact (records _ member).not_null_inside (fun _ _ => Related.not_null_inside) deeper

theorem isRecord_toJson (d : Diagnostic) : d.toJson.IsRecord Field := by
  refine Json.isRecord_record (by simp) ?_
  simp only [List.forall_mem_cons, List.not_mem_nil, false_implies, implies_true, and_true,
    Option.mem_def, Option.some.injEq, forall_eq', Option.map_eq_some_iff, forall_exists_index,
    and_imp, forall_apply_eq_imp_iff₂]
  refine ⟨.severity _, .message _, fun s _ => .code s, .range d.range.isRecord_toJson,
    fun s _ => .file s, fun s _ => .help s, fun value there => ?_⟩
  split at there
  · cases there
  · next solid =>
    cases there
    refine .related (by simpa using solid) (List.forall_mem_map.mpr fun r _ => r.isRecord_toJson)

/-- The fields of a written diagnostic, each behind the test that it is there. -/
theorem field?_toJson (d : Diagnostic) :
    d.toJson.field? "severity" = some d.severity.toJson ∧
      d.toJson.field? "message" = some (.string d.message) ∧
      d.toJson.field? "code" = d.code.map .string ∧
      d.toJson.field? "range" = some d.range.toJson ∧
      d.toJson.field? "file" = d.file.map .string ∧
      d.toJson.field? "help" = d.help.map .string ∧
      d.toJson.field? "related" =
        if d.related.isEmpty then none else some (.array (d.related.map Related.toJson)) := by
  simp [toJson, Json.field?_record_cons, Json.field?_record_nil]

theorem ofJson?_object (fields : List (String × Json)) :
    ofJson? (.object fields) = (do
      ofParts? (← (Json.object fields).field? "severity") (← (Json.object fields).field? "message")
        (← (Json.object fields).field? "range") ((Json.object fields).field? "code")
        ((Json.object fields).field? "file") ((Json.object fields).field? "help")
        ((Json.object fields).field? "related")) := rfl

/-- The names of the fields of a diagnostic. -/
def fieldNames : List String := ["severity", "message", "code", "range", "file", "help", "related"]

/-- The names of the texts that need not be there. -/
def textNames : List String := ["code", "file", "help"]

/-- Fields that say what is written of a diagnostic, in any order and with others among them. A text
that is not there may be `null`. -/
def IsToldBy (d : Diagnostic) (fields : List (String × Json)) : Prop :=
  ∀ name ∈ fieldNames, (Json.object fields).field? name = d.toJson.field? name ∨
    (name ∈ textNames ∧ d.toJson.field? name = none ∧
      (Json.object fields).field? name = some .null)

theorem relatedOfJson?_written {related : List Related} (fits : ∀ r ∈ related, r.range.Fits) :
    relatedOfJson? (if related.isEmpty then none else some (.array (related.map Related.toJson))) =
      some related := by
  have each : (related.map Related.toJson).mapM Related.ofJson? = some related := by
    induction related with
    | nil => rfl
    | cons r rest ih =>
      rw [List.forall_mem_cons] at fits
      simp [Related.ofJson?_toJson fits.1, ih fits.2]
  cases related with
  | nil => rfl
  | cons r rest => exact each

/-- A text is read where it is written, and nothing is read off a `null`. -/
theorem optional?_string {text? : Option String} {json? : Option Json}
    (told : json? = text?.map .string ∨ text? = none ∧ json? = some .null) :
    Json.optional? Json.string? json? = some text? := by
  rcases told with rfl | ⟨rfl, rfl⟩
  · cases text? <;> rfl
  · rfl

/-- Fields that say what is written of a diagnostic are read as the diagnostic. -/
theorem ofJson?_of_told (fits : d.Fits) {fields : List (String × Json)} (told : d.IsToldBy fields) :
    ofJson? (.object fields) = some d := by
  obtain ⟨severity, message, code, range, file, help, related⟩ := d.field?_toJson
  have needed {name : String} (listed : name ∈ fieldNames) (other : name ∉ textNames) :
      (Json.object fields).field? name = d.toJson.field? name :=
    (told name listed).resolve_right fun absent => other absent.1
  have text {name : String} (listed : name ∈ fieldNames) {text? : Option String}
      (written : d.toJson.field? name = text?.map .string) :
      Json.optional? Json.string? ((Json.object fields).field? name) = some text? := by
    refine optional?_string ((told name listed).imp (·.trans written) fun absent => ?_)
    exact ⟨Option.map_eq_none_iff.mp (written.symm.trans absent.2.1), absent.2.2⟩
  have further := relatedOfJson?_written fits.related
  rw [← related, ← needed (by decide) (by decide)] at further
  rw [ofJson?_object, needed (by decide) (by decide), severity, needed (by decide) (by decide), message,
    needed (by decide) (by decide), range]
  simp [ofParts?, Severity.ofJson?_toJson, Json.string?, text (by decide) code,
    Range.ofJson?_toJson fits.range, text (by decide) file, text (by decide) help, further]

/-- A diagnostic is read off its parts, whether they are fields or the items of an array. -/
theorem exists_ofParts? (read : ofJson? json = some d) :
    ∃ severity message range code file help related,
      ofParts? severity message range code file help related = some d := by
  rw [ofJson?.eq_def] at read
  split at read
  · split at read
    · exact ⟨_, _, _, _, _, _, _, read⟩
    · cases read
  · simp only [bind, Option.bind_eq_some_iff] at read
    obtain ⟨severity, -, message, -, range, -, read⟩ := read
    exact ⟨_, _, _, _, _, _, _, read⟩

theorem fits_of_mapM {items : List Json} {related : List Related}
    (read : items.mapM Related.ofJson? = some related) : ∀ r ∈ related, r.range.Fits := by
  induction items generalizing related with
  | nil =>
    cases read
    exact List.forall_mem_nil _
  | cons item rest ih =>
    simp only [List.mapM_cons, bind, Option.bind_eq_some_iff, pure, Option.some.injEq] at read
    obtain ⟨r, first, others, behind, rfl⟩ := read
    exact List.forall_mem_cons.mpr ⟨Related.fits_of_ofJson? first, ih behind⟩

/-- What is read has 64-bit coordinates. -/
theorem fits_of_ofJson? (read : ofJson? json = some d) : d.Fits := by
  obtain ⟨severity, message, range, code, file, help, related, read⟩ := exists_ofParts? read
  simp only [ofParts?, bind, Option.bind_eq_some_iff, Option.some.injEq] at read
  obtain ⟨_, -, _, -, _, -, _, placed, _, -, _, -, further, others, rfl⟩ := read
  refine ⟨Range.fits_of_ofJson? placed, ?_⟩
  cases related with
  | none =>
    cases others
    exact List.forall_mem_nil _
  | some json =>
    simp only [relatedOfJson?, bind, Option.bind_eq_some_iff] at others
    obtain ⟨items, -, listed⟩ := others
    exact fits_of_mapM listed

/-- A diagnostic is read off what is written of it, and off all fields that tell the same. What is
read is written as the record of a diagnostic, without `null` and without an empty list of further
places, and is read again. -/
theorem json_round_trip :
    (∀ d : Diagnostic, d.Fits → ofJson? d.toJson = some d) ∧
    (∀ (d : Diagnostic) (fields : List (String × Json)), d.Fits → d.IsToldBy fields →
      ofJson? (.object fields) = some d) ∧
    ∀ (json : Json) (d : Diagnostic), ofJson? json = some d →
      d.Fits ∧ ofJson? d.toJson = some d ∧ ¬ Json.null.Inside d.toJson ∧ d.toJson.IsRecord Field := by
  have written (d : Diagnostic) (fits : d.Fits) : ofJson? d.toJson = some d :=
    ofJson?_of_told fits fun _ _ => .inl rfl
  refine ⟨written, fun d fields fits told => ofJson?_of_told fits told, fun json d read => ?_⟩
  have fits := fits_of_ofJson? read
  refine ⟨fits, written d fits, ?_, d.isRecord_toJson⟩
  exact d.isRecord_toJson.not_null_inside fun _ _ => not_null_inside

/-- Fields in another order, with one that no diagnostic has, `null` for the code and no file. -/
theorem json_round_trip_reordered :
    let d : Diagnostic :=
      { severity := .error, message := "m", range := .onLine 3 1 5, help := some "h" }
    let fields : List (String × Json) :=
      [("source", .bool true), ("help", .string "h"), ("code", .null), ("range", d.range.toJson),
        ("message", .string "m"), ("severity", .string "error")]
    d.Fits ∧ d.IsToldBy fields ∧ ofJson? (.object fields) = some d ∧ ofJson? d.toJson = some d ∧
      ¬ Json.null.Inside d.toJson ∧ d.toJson.IsRecord Field := by
  intro d fields
  have fits : d.Fits := ⟨⟨⟨by decide, by decide⟩, ⟨by decide, by decide⟩⟩, nofun⟩
  have told : d.IsToldBy fields := by
    simp only [IsToldBy, fieldNames, List.forall_mem_cons]
    exact ⟨.inl rfl, .inl rfl, .inr ⟨by decide, rfl, rfl⟩, .inl rfl, .inl rfl, .inl rfl, .inl rfl, nofun⟩
  have read : ofJson? (.object fields) = some d := json_round_trip.2.1 d fields fits told
  obtain ⟨-, again, clean, record⟩ := json_round_trip.2.2 (.object fields) d read
  exact ⟨fits, told, read, again, clean, record⟩

end Diagnostic

end ProxyConfig
