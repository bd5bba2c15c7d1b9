import ProxyConfig.Schema.Group
import ProxyConfig.Schema.Proxy
import ProxyConfig.Schema.Rule
import ProxyConfig.Schema.Section
import ProxyConfig.Schema.Setting
import Mathlib.Data.List.Nodup

/-! # Spellings are read back

A family is readable if each of its keywords is the one that is found under its spelling, so that no
two keywords share a spelling. Reading a keyword is then the inverse of writing it.
-/

namespace ProxyConfig.Keyword

/-- A family of keywords in which every spelling is read as the keyword that it spells. -/
class Readable (K : Type) [Keyword K] : Prop where
  parse?_spelling : ∀ k : K, (parse? (text k) : Option K) = some k

/-- A family is readable if it lists all of its keywords, with different spellings. -/
theorem Readable.of_nodup {K : Type} [Keyword K] (complete : ∀ k : K, k ∈ (all : List K))
    (distinct : ((all : List K).map text).Nodup) : Readable K where
  parse?_spelling k := by
    rw [parse?]
    cases found : (all : List K).find? fun j => text j == text k with
    | none => exact absurd (beq_self_eq_true _) (List.find?_eq_none.mp found k (complete k))
    | some j =>
      have same : text j = text k := eq_of_beq (List.find?_some found :)
      exact congrArg some
        (List.inj_on_of_nodup_map distinct (List.mem_of_find?_eq_some found) (complete k) same)

instance : Readable Protocol := .of_nodup (fun k => by cases k <;> decide) (by decide +kernel)

instance : Readable ProxyProperty := .of_nodup (fun k => by cases k <;> decide) (by decide +kernel)

instance : Readable GroupType := .of_nodup (fun k => by cases k <;> decide) (by decide +kernel)

instance : Readable GroupProperty := .of_nodup (fun k => by cases k <;> decide) (by decide +kernel)

instance : Readable SectionKind := .of_nodup (fun k => by cases k <;> decide) (by decide +kernel)

instance : Readable SettingKey := .of_nodup (fun k => by cases k <;> decide) (by decide +kernel)

instance : Readable RuleType := .of_nodup (fun k => by cases k <;> decide) (by decide +kernel)

instance : Readable ExternalSource := .of_nodup (fun k => by cases k <;> decide) (by decide +kernel)

variable {K : Type} [Keyword K] [Readable K]

theorem parse?_eq_some_iff {s : Text} {k : K} : parse? s = some k ↔ text k = s := by
  refine ⟨text_of_parse?, ?_⟩
  rintro rfl
  exact Readable.parse?_spelling k

/-- No two keywords share a spelling. -/
theorem text_injective : Function.Injective (text : K → Text) := by
  intro j k same
  exact Option.some.inj ((parse?_eq_some_iff.mpr same).symm.trans (Readable.parse?_spelling k))

theorem spelling_injective : Function.Injective (spelling : K → String) :=
  fun _ _ same => text_injective (congrArg String.toList same)

end ProxyConfig.Keyword

/-- The words that a value is to be one of, if it is to be one of a few. -/
def ProxyConfig.ValueKind.words : ProxyConfig.ValueKind → List String
  | .cipher => aeadCiphers
  | .boolean => ["true", "false"]
  | .method => groupMethods
  | .integer | .actor | .freeForm => []
