import ProxyConfig.Text.Pattern
import Mathlib.Data.List.Forall2

/-! # What patterns match

A pattern matches a text exactly if the text starts with a row of texts that its parts can take. What a
match gives is such a row: a run that gave characters back still is a run, and one that could be
followed is found, at the latest when it has given back all characters behind it.
-/

namespace ProxyConfig.PatternPart

/-- What a part can take, whatever stands around it. -/
def Takes : PatternPart → Text → Prop
  | one test, t => ∃ c, t = [c] ∧ test c = true
  | run least test, t => least ≤ t.length ∧ ∀ c ∈ t, test c = true

section Run

variable {test : Char → Bool} {next : Text → Option (List Text)} {least : Nat} {s front : Text}

private theorem map_front_eq_some_iff {condition : Prop} [Decidable condition] {rest : Text}
    {others : List Text} :
    (if condition then (next rest).map ([], ·) else none) = some (front, others) ↔
      condition ∧ front = [] ∧ next rest = some others := by
  rw [Option.ite_none_right_eq_some, Option.map_eq_some_iff]
  refine and_congr_right fun _ => ⟨?_, ?_⟩
  · rintro ⟨found, accepted, same⟩
    cases same
    exact ⟨rfl, accepted⟩
  · rintro ⟨rfl, accepted⟩
    exact ⟨others, accepted, rfl⟩

/-- What is taken is a run, and what stands behind it is accepted. -/
theorem takes_of_takeRun? {others : List Text}
    (found : takeRun? test next least s = some (front, others)) :
    (run least test).Takes front ∧ ∃ rest, s = front ++ rest ∧ next rest = some others := by
  induction s generalizing least front with
  | nil =>
    obtain ⟨rfl, rfl, accepted⟩ := map_front_eq_some_iff.mp found
    exact ⟨⟨Nat.le_refl 0, List.forall_mem_nil _⟩, [], rfl, accepted⟩
  | cons c s ih =>
    rw [takeRun?] at found
    split at found
    · next longer others' taken =>
      cases found
      obtain ⟨passes, taken⟩ := Option.ite_none_right_eq_some.mp taken
      obtain ⟨⟨long, all⟩, rest, split, accepted⟩ := ih taken
      refine ⟨⟨?_, List.forall_mem_cons.mpr ⟨passes, all⟩⟩, rest, ?_, accepted⟩
      · rw [List.length_cons]
        omega
      · rw [split, List.cons_append]
    · obtain ⟨rfl, rfl, accepted⟩ := map_front_eq_some_iff.mp found
      exact ⟨⟨Nat.le_refl 0, List.forall_mem_nil _⟩, c :: s, rfl, accepted⟩

/-- A run in front of a text that is accepted is found, or a longer one. -/
theorem isSome_takeRun? (taken : (run least test).Takes front) {rest : Text}
    (accepted : (next rest).isSome = true) :
    (takeRun? test next least (front ++ rest)).isSome = true := by
  obtain ⟨long, all⟩ := taken
  induction front generalizing least with
  | nil =>
    obtain rfl : least = 0 := Nat.le_zero.mp long
    cases rest with
    | nil => simpa [takeRun?] using accepted
    | cons c rest =>
      rw [List.nil_append, takeRun?]
      split
      · rfl
      · simpa using accepted
  | cons c front ih =>
    obtain ⟨passes, all⟩ := List.forall_mem_cons.mp all
    have longer : (takeRun? test next (least - 1) (front ++ rest)).isSome = true :=
      ih (by rw [List.length_cons] at long; omega) all
    rw [List.cons_append, takeRun?, if_pos passes]
    split
    · rfl
    · next absent =>
      rw [absent] at longer
      cases longer

end Run

variable {parts : List PatternPart} {texts : List Text} {s : Text}

/-- The texts of a match stand at the front, one behind the other, and each part can take its own. -/
theorem takes_of_match? (found : match? parts s = some texts) :
    List.Forall₂ Takes parts texts ∧ ∃ rest, s = texts.flatten ++ rest := by
  induction parts generalizing s texts with
  | nil =>
    cases found
    exact ⟨.nil, s, rfl⟩
  | cons part parts ih =>
    cases part with
    | one test =>
      cases s with
      | nil => cases found
      | cons c s =>
        rw [match?, Option.ite_none_right_eq_some, Option.map_eq_some_iff] at found
        obtain ⟨passes, others, inner, rfl⟩ := found
        obtain ⟨taken, rest, split⟩ := ih inner
        exact ⟨.cons ⟨c, rfl, passes⟩ taken, rest, by simp [split]⟩
    | run least test =>
      rw [match?, Option.map_eq_some_iff] at found
      obtain ⟨⟨front, others⟩, inner, rfl⟩ := found
      obtain ⟨first, behind, rfl, accepted⟩ := takes_of_takeRun? inner
      obtain ⟨taken, rest, split⟩ := ih accepted
      exact ⟨.cons first taken, rest, by simp [split]⟩

/-- Where the parts can take texts one behind the other, there is a match. -/
theorem isSome_match? (taken : List.Forall₂ Takes parts texts) (rest : Text) :
    (match? parts (texts.flatten ++ rest)).isSome = true := by
  induction taken with
  | nil => rfl
  | @cons part text parts texts first _ ih =>
    cases part with
    | one test =>
      obtain ⟨c, rfl, passes⟩ := first
      rw [List.flatten_cons, List.append_assoc, List.singleton_append, match?, if_pos passes,
        Option.isSome_map]
      exact ih
    | run least test =>
      rw [List.flatten_cons, List.append_assoc, match?, Option.isSome_map]
      exact isSome_takeRun? first ih

/-- There is a match exactly where the parts can take texts off the front. -/
theorem isSome_match?_iff : (match? parts s).isSome = true ↔
    ∃ texts rest, List.Forall₂ Takes parts texts ∧ s = texts.flatten ++ rest := by
  constructor
  · intro found
    obtain ⟨texts, found⟩ := Option.isSome_iff_exists.mp found
    obtain ⟨taken, rest, split⟩ := takes_of_match? found
    exact ⟨texts, rest, taken, split⟩
  · rintro ⟨texts, rest, taken, rfl⟩
    exact isSome_match? taken rest

end ProxyConfig.PatternPart
