import Mathlib.Data.Finset.Card

/-! # Items behind earlier ones

A pass over a list sees each item behind the items before it. `withEarlier` lists both, so what such a
pass does is said item by item: a test of an item against all earlier ones is a pairwise condition, a
test against the first earlier one of a kind compares with the first one of the list, and the items
whose key is new are as many as there are keys.
-/

namespace List

variable {α β : Type}

/-- Each item of a list with the items before it. -/
def withEarlier : List α → List (List α × α)
  | [] => []
  | a :: rest => ([], a) :: (withEarlier rest).map fun p => (a :: p.1, p.2)

variable {l m : List α} {a : α}

theorem withEarlier_append : (l ++ m).withEarlier =
    l.withEarlier ++ m.withEarlier.map fun p => (l ++ p.1, p.2) := by
  induction l with
  | nil => simp [withEarlier]
  | cons b rest ih =>
    rw [cons_append, withEarlier, withEarlier, ih, map_append, map_map, cons_append]
    rfl

theorem withEarlier_concat : (l ++ [a]).withEarlier = l.withEarlier ++ [(l, a)] := by
  rw [withEarlier_append]
  simp [withEarlier]

theorem map_snd_withEarlier : l.withEarlier.map Prod.snd = l := by
  induction l with
  | nil => rfl
  | cons b rest ih =>
    rw [withEarlier, map_cons, map_map]
    exact congrArg (b :: ·) ih

theorem exists_mem_withEarlier (member : a ∈ l) : ∃ p ∈ l.withEarlier, p.2 = a := by
  rw [← map_snd_withEarlier (l := l)] at member
  exact mem_map.mp member

theorem forall_withEarlier_snd {P : α → Prop} : (∀ p ∈ l.withEarlier, P p.2) ↔ ∀ a ∈ l, P a := by
  rw [← forall_mem_map (f := Prod.snd), map_snd_withEarlier]

/-- Items that differ in something are found by it, each with the items before it. -/
theorem eq_of_mem_withEarlier {f : α → β} (distinct : (l.map f).Nodup) {p q : List α × α}
    (here : p ∈ l.withEarlier) (there : q ∈ l.withEarlier) (same : f p.2 = f q.2) : p = q := by
  rw [← map_snd_withEarlier (l := l), map_map] at distinct
  exact inj_on_of_nodup_map distinct here there same

theorem mem_withEarlier_iff {p : List α × α} :
    p ∈ l.withEarlier ↔ ∃ later, l = p.1 ++ p.2 :: later := by
  obtain ⟨earlier, a⟩ := p
  induction l generalizing earlier with
  | nil => simp [withEarlier]
  | cons b rest ih =>
    rw [withEarlier, mem_cons, mem_map]
    constructor
    · rintro (same | ⟨⟨before, x⟩, member, same⟩)
      · cases same
        exact ⟨rest, rfl⟩
      · cases same
        obtain ⟨later, rfl⟩ := (ih before).mp member
        exact ⟨later, rfl⟩
    · rintro ⟨later, split⟩
      cases earlier with
      | nil =>
        cases split
        exact .inl rfl
      | cons c before =>
        obtain ⟨rfl, tail⟩ := cons.inj split
        exact .inr ⟨(before, a), (ih before).mpr ⟨later, tail⟩, rfl⟩

/-- A test of each item against every earlier one. -/
theorem forall_withEarlier_iff_pairwise {R : α → α → Prop} :
    (∀ p ∈ l.withEarlier, ∀ b ∈ p.1, R b p.2) ↔ l.Pairwise R := by
  induction l with
  | nil => simp [withEarlier]
  | cons c rest ih =>
    rw [withEarlier, forall_mem_cons, forall_mem_map, pairwise_cons, ← ih]
    simp only [forall_mem_cons, not_mem_nil, false_implies, implies_true, true_and, forall_and]
    exact and_congr_left fun _ => forall_withEarlier_snd

/-- What is reported behind the first item of a kind, for each later item of that kind. -/
theorem flatMap_withEarlier_find? {γ : Type} (p : α → Bool) (report : α → α → List γ) :
    (l.withEarlier.flatMap fun q =>
      if p q.2 then (q.1.find? p).toList.flatMap fun first => report first q.2 else []) =
      match l.filter p with
      | [] => []
      | first :: rest => rest.flatMap (report first) := by
  -- the first item may also stand before the list
  have behind (first? : Option α) :
      (l.withEarlier.flatMap fun q =>
        if p q.2 then (first?.or (q.1.find? p)).toList.flatMap fun first => report first q.2 else []) =
        match first?.toList ++ l.filter p with
        | [] => []
        | first :: rest => rest.flatMap (report first) := by
    induction l generalizing first? with
    | nil => cases first? <;> rfl
    | cons b rest ih =>
      have shifted (q : List α × α) : first?.or ((b :: q.1).find? p) =
          (first?.or (if p b then some b else none)).or (q.1.find? p) := by
        rw [find?_cons, Option.or_assoc]
        cases p b <;> rfl
      rw [withEarlier, flatMap_cons, flatMap_map]
      simp only [shifted]
      rw [ih, filter_cons, find?_nil, Option.or_none]
      by_cases kind : p b = true
      · rw [if_pos kind, if_pos kind, if_pos kind]
        cases first? with
        | none => rfl
        | some first => simp
      · rw [if_neg kind, if_neg kind, if_neg kind, nil_append, Option.or_none]
  exact behind none

section Keys

variable {key : α → Option β}

theorem findSome?_eq_bind_find? : l.findSome? key = (l.find? fun a => (key a).isSome).bind key := by
  induction l with
  | nil => rfl
  | cons a rest ih =>
    rw [findSome?_cons, find?_cons, ih]
    cases here : key a with
    | none => rfl
    | some k => exact here.symm

/-- The first key of a list is that of an item, unless an item before it has one. -/
theorem findSome?_of_mem_withEarlier {p : List α × α} (member : p ∈ l.withEarlier) {k : β}
    (here : key p.2 = some k) : l.findSome? key = some ((p.1.findSome? key).getD k) := by
  obtain ⟨later, rfl⟩ := mem_withEarlier_iff.mp member
  rw [findSome?_append, findSome?_cons, here]
  cases p.1.findSome? key <;> rfl

/-- A test of each key against the first earlier one, if there is one, holds if all keys are the same. -/
theorem forall_withEarlier_findSome?_iff :
    (∀ p ∈ l.withEarlier, ∀ k ∈ key p.2, ∀ first ∈ p.1.findSome? key, first = k) ↔
      ∀ a ∈ l, ∀ b ∈ l, ∀ j ∈ key a, ∀ k ∈ key b, j = k := by
  constructor
  · intro tested
    -- every key is the first one of the list
    have first (a : α) (inside : a ∈ l) (k : β) (here : k ∈ key a) : l.findSome? key = some k := by
      obtain ⟨p, member, rfl⟩ := exists_mem_withEarlier inside
      rw [findSome?_of_mem_withEarlier member here]
      cases before : p.1.findSome? key with
      | none => rfl
      | some j => exact congrArg some (tested p member k here j before)
    intro a insideA b insideB j ofA k ofB
    exact Option.some.inj ((first a insideA j ofA).symm.trans (first b insideB k ofB))
  · intro alike p member k here j before
    obtain ⟨b, earlier, found⟩ := exists_of_findSome?_eq_some before
    obtain ⟨later, rfl⟩ := mem_withEarlier_iff.mp member
    exact alike b (mem_append_left _ earlier) p.2 (mem_append_right _ (mem_cons_self ..)) j found k here

end Keys

/-- If each item is reported at its own place, then what is reported at the place of one is its report. -/
theorem filter_flatMap_withEarlier [DecidableEq β] {γ : Type} {report : List α × α → List γ}
    {place : α → β} {site : γ → β} (on : ∀ p, ∀ c ∈ report p, site c = place p.2)
    {earlier later : List α} (distinct : ((earlier ++ a :: later).map place).Nodup) :
    ((earlier ++ a :: later).withEarlier.flatMap report).filter (fun c => site c = place a) =
      report (earlier, a) := by
  have silent {ps : List (List α × α)} (elsewhere : ∀ p ∈ ps, place p.2 ≠ place a) :
      (ps.flatMap report).filter (fun c => site c = place a) = [] := by
    refine filter_eq_nil_iff.mpr fun c member same => ?_
    obtain ⟨p, inside, found⟩ := mem_flatMap.mp member
    exact elsewhere p inside ((on p c found).symm.trans (of_decide_eq_true same))
  have own : (report (earlier, a)).filter (fun c => site c = place a) = report (earlier, a) :=
    filter_eq_self.mpr fun c member => decide_eq_true (on _ c member)
  rw [map_append, map_cons] at distinct
  obtain ⟨-, behind, crossing⟩ := nodup_append.mp distinct
  have before : ∀ b ∈ earlier, place b ≠ place a := fun b inside =>
    crossing _ (mem_map_of_mem inside) _ (mem_cons_self ..)
  have after : ∀ b ∈ later, place b ≠ place a := fun b inside same =>
    (nodup_cons.mp behind).1 (same ▸ mem_map_of_mem inside)
  rw [withEarlier_append, withEarlier, map_cons, flatMap_append, flatMap_cons, filter_append,
    filter_append, silent (forall_withEarlier_snd (P := fun b => place b ≠ place a) |>.mpr before),
    nil_append, append_nil, own, silent, append_nil]
  refine forall_mem_map.mpr (forall_mem_map.mpr ?_)
  exact (forall_withEarlier_snd (P := fun b => place b ≠ place a)).mpr after

/-- Items whose key an earlier one has, and the keys themselves, are as many as the items. -/
theorem length_seen_add_length_dedup [DecidableEq β] {key : α → β} {γ : Type}
    {report : List α × α → List γ} (seen : ∀ p, key p.2 ∈ p.1.map key → (report p).length = 1)
    (fresh : ∀ p, key p.2 ∉ p.1.map key → report p = []) :
    (l.withEarlier.flatMap report).length + (l.map key).dedup.length = l.length := by
  simp only [← card_toFinset]
  induction l using reverseRecOn with
  | nil => rfl
  | append_singleton items a ih =>
    have last : (items.map key ++ [key a]).toFinset = insert (key a) (items.map key).toFinset := by
      rw [toFinset_append, toFinset_cons, toFinset_nil, insert_empty_eq, Finset.union_comm,
        Finset.insert_eq]
    rw [withEarlier_concat, flatMap_append, flatMap_singleton, length_append, map_append,
      map_singleton, last, length_append, length_singleton]
    by_cases known : key a ∈ items.map key
    · rw [Finset.insert_eq_of_mem (mem_toFinset.mpr known), seen (items, a) known]
      omega
    · rw [Finset.card_insert_of_notMem (mem_toFinset.not.mpr known), fresh (items, a) known,
        length_nil]
      omega

end List
