import ProxyConfig.Diagnostic

/-! # Reports without errors

A report is clean if nothing in it is an error; warnings do not count. The check of a whole is clean
if the checks of its parts are, so a check is read along its own shape: parts, items, and single tests
that report an error or nothing.
-/

namespace ProxyConfig

/-- A report in which nothing is an error. -/
def Errorless (report : List Diagnostic) : Prop := ∀ d ∈ report, d.severity ≠ .error

instance (report : List Diagnostic) : Decidable (Errorless report) :=
  inferInstanceAs (Decidable (∀ d ∈ report, d.severity ≠ .error))

theorem errorless_append {first second : List Diagnostic} :
    Errorless (first ++ second) ↔ Errorless first ∧ Errorless second :=
  List.forall_mem_append

theorem errorless_flatMap {α : Type} {items : List α} {check : α → List Diagnostic} :
    Errorless (items.flatMap check) ↔ ∀ item ∈ items, Errorless (check item) := by
  simp only [Errorless, List.mem_flatMap]
  exact ⟨fun clean item member d found => clean d ⟨item, member, found⟩,
    fun clean d ⟨item, member, found⟩ => clean item member d found⟩

/-- A report that starts with an error is not clean. -/
theorem Errorless.severity_ne {d : Diagnostic} {report : List Diagnostic}
    (clean : Errorless (d :: report)) : d.severity ≠ .error :=
  clean d (List.mem_cons_self ..)

theorem errorless_nil : Errorless [] := List.forall_mem_nil _

/-- A list of errors is clean if it is empty. -/
theorem errorless_map_iff {α : Type} {items : List α} {d : α → Diagnostic}
    (bad : ∀ item, (d item).severity = .error) : Errorless (items.map d) ↔ items = [] := by
  constructor
  · intro clean
    refine List.eq_nil_iff_forall_not_mem.mpr fun item member => ?_
    exact clean (d item) (List.mem_map_of_mem member) (bad item)
  · rintro rfl
    exact errorless_nil

/-- A check that can only report an error is clean if it passes. -/
theorem errorless_ite_iff {passes : Prop} [Decidable passes] {d : Diagnostic}
    (bad : d.severity = .error) : Errorless (if passes then [] else [d]) ↔ passes := by
  split
  · next holds => exact iff_of_true errorless_nil holds
  · next fails => exact iff_of_false (fun clean => clean.severity_ne bad) fails

end ProxyConfig
