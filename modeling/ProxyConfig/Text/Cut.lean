import ProxyConfig.Text.Blank

/-! # Cutting a text at a character

`cut? d s` splits at the first `d`; `pieces d s` splits at every `d`. Both leave the separators out,
and joining the halves or the pieces with `d` gives the text back.
-/

namespace ProxyConfig.Text

/-- The text before and after the first `d`, or nothing if there is no `d`. -/
def cut? (d : Char) : Text → Option (Text × Text)
  | [] => none
  | c :: s => if c = d then some ([], s) else (cut? d s).map fun (before, after) => (c :: before, after)

/-- The text up to the first `d`, and the pieces between the later ones. -/
def cutAll (d : Char) : Text → Text × List Text
  | [] => ([], [])
  | c :: s =>
    let (first, others) := cutAll d s
    if c = d then ([], first :: others) else (c :: first, others)

/-- The pieces between consecutive occurrences of `d`: one more than there are `d`s. -/
def pieces (d : Char) (s : Text) : List Text := (cutAll d s).1 :: (cutAll d s).2

theorem pieces_length (d : Char) (s : Text) : (pieces d s).length = s.count d + 1 := by
  induction s with
  | nil => rfl
  | cons c s ih =>
    by_cases same : c = d <;> simp_all [pieces, cutAll]

theorem append_of_cut? {d : Char} {s before after : Text} (h : cut? d s = some (before, after)) :
    s = before ++ d :: after := by
  induction s generalizing before after with
  | nil => simp [cut?] at h
  | cons c s ih =>
    by_cases same : c = d
    · simp_all [cut?]
    · simp only [cut?, if_neg same, Option.map_eq_some_iff, Prod.mk.injEq] at h
      obtain ⟨⟨b, a⟩, found, rfl, rfl⟩ := h
      simp [← ih found]

end ProxyConfig.Text
