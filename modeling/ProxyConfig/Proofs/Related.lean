import Mathlib.Data.List.Forall2

/-! # Lists that are related item by item

Where a test treats related items alike, what it selects from related lists is related again, and
where related items are reported alike, so are the lists.
-/

theorem Option.Rel.isSome_eq {α β : Type} {R : α → β → Prop} {o : Option α} {o' : Option β}
    (related : Option.Rel R o o') : o'.isSome = o.isSome := by
  cases related <;> rfl

theorem Option.Rel.or {α β : Type} {R : α → β → Prop} {o p : Option α} {o' p' : Option β}
    (first : Option.Rel R o o') (second : Option.Rel R p p') :
    Option.Rel R (o.or p) (o'.or p') := by
  cases first with
  | none => exact second
  | some here => exact .some here

theorem Option.Rel.imp {α β : Type} {R S : α → β → Prop} {o : Option α} {o' : Option β}
    (related : Option.Rel R o o') (weaker : ∀ a b, R a b → S a b) : Option.Rel S o o' := by
  cases related with
  | none => exact .none
  | some here => exact .some (weaker _ _ here)

namespace List

variable {α β γ δ : Type} {R : α → β → Prop} {l : List α} {l' : List β}

/-- Lists with the same images are related by having the same image. -/
theorem forall₂_of_map_eq {f : α → γ} {g : β → γ} (same : l'.map g = l.map f) :
    Forall₂ (fun a b => g b = f a) l l' := by
  have images : Forall₂ (fun x y => y = x) (l.map f) (l'.map g) := by
    rw [same]
    exact forall₂_same.mpr fun _ _ => rfl
  rwa [forall₂_map_left_iff, forall₂_map_right_iff] at images

/-- Two ways to unfold the items of one list. -/
theorem forall₂_flatMap {S : γ → δ → Prop} {l : List α} {f : α → List γ} {g : α → List δ}
    (each : ∀ a ∈ l, Forall₂ S (f a) (g a)) : Forall₂ S (l.flatMap f) (l.flatMap g) := by
  have same : Forall₂ (fun a b => a ∈ l ∧ b = a) l l := forall₂_same.mpr fun a member => ⟨member, rfl⟩
  refine rel_flatMap same fun a b related => ?_
  obtain ⟨member, rfl⟩ := related
  exact each b member

/-- Two members of an ordered list are one, or one of them stands before the other. -/
theorem Pairwise.apart {S : α → α → Prop} (ordered : l.Pairwise S) {a b : α} (here : a ∈ l)
    (there : b ∈ l) : a = b ∨ S a b ∨ S b a := by
  obtain ⟨i, insideI, rfl⟩ := List.getElem_of_mem here
  obtain ⟨j, insideJ, rfl⟩ := List.getElem_of_mem there
  have pairs := List.pairwise_iff_getElem.mp ordered
  rcases Nat.lt_trichotomy i j with before | rfl | after
  · exact .inr (.inl (pairs i j insideI insideJ before))
  · exact .inl rfl
  · exact .inr (.inr (pairs j i insideJ insideI after))

namespace Forall₂

theorem of_option {o : Option α} {o' : Option β} (related : Option.Rel R o o') :
    Forall₂ R o.toList o'.toList := by
  cases related with
  | none => exact .nil
  | some here => exact .cons here .nil

theorem exists_of_mem (related : Forall₂ R l l') {a : α} (member : a ∈ l) : ∃ b ∈ l', R a b := by
  induction related with
  | nil => cases member
  | @cons c d rest rest' here _ ih =>
    rcases mem_cons.mp member with rfl | member
    · exact ⟨d, mem_cons_self .., here⟩
    · obtain ⟨b, inside, same⟩ := ih member
      exact ⟨b, mem_cons_of_mem _ inside, same⟩

theorem tail (related : Forall₂ R l l') : Forall₂ R l.tail l'.tail := by
  cases related with
  | nil => exact .nil
  | cons _ behind => exact behind

theorem getElem? (related : Forall₂ R l l') (i : Nat) : Option.Rel R l[i]? l'[i]? := by
  induction related generalizing i with
  | nil => exact .none
  | cons here _ ih =>
    cases i with
    | zero => exact .some here
    | succ i => exact ih i

section Selection

variable {p : α → Bool} {q : β → Bool}

theorem takeWhile (related : Forall₂ R l l') (agree : ∀ a b, R a b → q b = p a) :
    Forall₂ R (l.takeWhile p) (l'.takeWhile q) := by
  induction related with
  | nil => exact .nil
  | @cons a b rest rest' here _ ih =>
    rw [takeWhile_cons, takeWhile_cons, agree a b here]
    split
    · exact .cons here ih
    · exact .nil

theorem dropWhile (related : Forall₂ R l l') (agree : ∀ a b, R a b → q b = p a) :
    Forall₂ R (l.dropWhile p) (l'.dropWhile q) := by
  induction related with
  | nil => exact .nil
  | @cons a b rest rest' here behind ih =>
    rw [dropWhile_cons, dropWhile_cons, agree a b here]
    split
    · exact ih
    · exact .cons here behind

theorem find? (related : Forall₂ R l l') (agree : ∀ a b, R a b → q b = p a) :
    Option.Rel R (l.find? p) (l'.find? q) := by
  induction related with
  | nil => exact .none
  | @cons a b rest rest' here _ ih =>
    rw [find?_cons, find?_cons, agree a b here]
    split
    · exact .some here
    · exact ih

theorem all_eq (related : Forall₂ R l l') (agree : ∀ a b, R a b → q b = p a) : l'.all q = l.all p := by
  induction related with
  | nil => rfl
  | @cons a b rest rest' here _ ih => rw [all_cons, all_cons, agree a b here, ih]

end Selection

theorem findSome? {S : γ → δ → Prop} {f : α → Option γ} {g : β → Option δ}
    (related : Forall₂ R l l') (agree : ∀ a b, R a b → Option.Rel S (f a) (g b)) :
    Option.Rel S (l.findSome? f) (l'.findSome? g) := by
  induction related with
  | nil => exact .none
  | @cons a b rest rest' here _ ih =>
    have found := agree a b here
    rw [findSome?_cons, findSome?_cons]
    generalize f a = c?, g b = d? at found
    cases found with
    | none => exact ih
    | some same => exact .some same

/-- Related items that unfold alike. -/
theorem flatMap_eq {f : α → List γ} {g : β → List γ} (related : Forall₂ R l l')
    (each : ∀ a b, R a b → g b = f a) : l'.flatMap g = l.flatMap f := by
  induction related with
  | nil => rfl
  | @cons a b rest rest' here _ ih => rw [flatMap_cons, flatMap_cons, each a b here, ih]

/-- Related items that unfold to the images of each other. -/
theorem flatMap_eq_map {f : α → List γ} {g : β → List δ} {h : γ → δ} (related : Forall₂ R l l')
    (each : ∀ a b, R a b → g b = (f a).map h) : l'.flatMap g = (l.flatMap f).map h := by
  induction related with
  | nil => rfl
  | @cons a b rest rest' here _ ih =>
    rw [flatMap_cons, flatMap_cons, map_append, each a b here, ih]

/-- Related items with images that are images of each other. -/
theorem map_eq_map {f : α → γ} {g : β → δ} {h : γ → δ} (related : Forall₂ R l l')
    (each : ∀ a b, R a b → g b = h (f a)) : l'.map g = (l.map f).map h := by
  induction related with
  | nil => rfl
  | @cons a b rest rest' here _ ih => rw [map_cons, map_cons, map_cons, each a b here, ih]

theorem filterMap_eq_map {f : α → Option γ} {g : β → Option δ} {h : γ → δ} (related : Forall₂ R l l')
    (each : ∀ a b, R a b → g b = (f a).map h) : l'.filterMap g = (l.filterMap f).map h := by
  rw [filterMap_eq_flatMap_toList, filterMap_eq_flatMap_toList]
  apply related.flatMap_eq_map
  intro a b here
  rw [each a b here]
  cases f a <;> rfl

theorem findSome?_eq_map {f : α → Option γ} {g : β → Option δ} {h : γ → δ} (related : Forall₂ R l l')
    (each : ∀ a b, R a b → g b = (f a).map h) : l'.findSome? g = (l.findSome? f).map h := by
  rw [← head?_filterMap, ← head?_filterMap, related.filterMap_eq_map each, head?_map]

/-- Related items that unfold alike, up to what `h` sees. -/
theorem map_flatMap {f : α → List γ} {g : β → List γ} {h : γ → δ} (related : Forall₂ R l l')
    (each : ∀ a b, R a b → (g b).map h = (f a).map h) :
    (l'.flatMap g).map h = (l.flatMap f).map h := by
  induction related with
  | nil => rfl
  | @cons a b rest rest' here _ ih =>
    rw [flatMap_cons, flatMap_cons, map_append, map_append, each a b here, ih]

end Forall₂

end List
