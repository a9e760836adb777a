/-
Module: GhostPour.Library.Fallible
Layer: Library
Purpose: Results that may fail: related results of two computations, and lists judged entry by entry
  with a test that may fail, with what the judgement says of each entry and which entries stay.
Trusted boundary: none
Main exports: rel_map, rel_bind, isSome_bind_iff, foldlM_isSome_iff, mapM_eq_some_iff, mapM_isSome_iff,
  mem_of_mapM, filter_zip_of_mapM, keptOf, keptOf_sublist, mem_keptOf
-/
import Mathlib

namespace GhostPour

variable {α β γ δ ι : Type}

/-! ### Related results -/

section

variable {R : α → β → Prop} {S : γ → δ → Prop}

theorem rel_map {f : α → γ} {g : β → δ} {a : Option α} {b : Option β} (related : Option.Rel R a b)
    (each : ∀ x y, R x y → S (f x) (g y)) : Option.Rel S (a.map f) (b.map g) := by
  cases related with
  | none => exact .none
  | some both => exact .some (each _ _ both)

theorem rel_bind {f : α → Option γ} {g : β → Option δ} {a : Option α} {b : Option β}
    (related : Option.Rel R a b) (each : ∀ x y, R x y → Option.Rel S (f x) (g y)) :
    Option.Rel S (a.bind f) (b.bind g) := by
  cases related with
  | none => exact .none
  | some both => exact each _ _ both

theorem some_of_rel {x : α} {b : Option β} (related : Option.Rel R (some x) b) :
    ∃ y, b = some y ∧ R x y := by
  cases related with
  | some both => exact ⟨_, rfl, both⟩

theorem some_of_rel_some {a : Option α} {y : β} (related : Option.Rel R a (some y)) :
    ∃ x, a = some x ∧ R x y := by
  cases related with
  | some both => exact ⟨_, rfl, both⟩

end

/-! ### Whether there is a result -/

theorem isSome_bind_iff {a : Option α} {f : α → Option β} :
    (a.bind f).isSome = true ↔ a.isSome = true ∧ ∀ x, a = some x → (f x).isSome = true := by
  cases a with
  | none => simp
  | some x => simp

theorem isSome_ite {c : Prop} [Decidable c] {a b : Option α} (first : a.isSome = true)
    (second : b.isSome = true) : (if c then a else b).isSome = true := by
  split
  · exact first
  · exact second

theorem isSome_eq_of_rel {R : α → β → Prop} {a : Option α} {b : Option β}
    (related : Option.Rel R a b) : a.isSome = b.isSome := by
  cases related with
  | none => rfl
  | some _ => rfl

/-- A fold returns where each of its steps does, and whether one does depends on the entry alone. -/
theorem foldlM_isSome_iff {f : β → α → Option β} {p : α → Bool}
    (each : ∀ b a, (f b a).isSome = p a) {items : List α} {b : β} :
    (items.foldlM f b).isSome = true ↔ ∀ a ∈ items, p a = true := by
  induction items generalizing b with
  | nil => simp
  | cons a items ih =>
      rw [List.foldlM_cons, List.forall_mem_cons, ← each b a, Option.bind_eq_bind, isSome_bind_iff]
      cases f b a with
      | none => simp
      | some b' => simp [ih]

/-! ### Mapping with a test that may fail -/

theorem mapM_eq_some_iff {f : α → Option β} {items : List α} {results : List β} :
    items.mapM f = some results ↔ List.Forall₂ (fun a b => f a = some b) items results := by
  induction items generalizing results with
  | nil =>
      rw [List.mapM_nil, Option.pure_def, Option.some.injEq, List.forall₂_nil_left_iff, eq_comm]
  | cons a items ih =>
      rw [List.mapM_cons, Option.bind_eq_bind, Option.bind_eq_some_iff]
      constructor
      · rintro ⟨b, here, rest⟩
        obtain ⟨later, there, outcome⟩ := Option.bind_eq_some_iff.mp rest
        cases outcome
        exact .cons here (ih.mp there)
      · intro each
        cases each with
        | cons here there =>
            refine ⟨_, here, ?_⟩
            rw [ih.mpr there]
            rfl

theorem mapM_isSome_iff {f : α → Option β} {items : List α} :
    (items.mapM f).isSome = true ↔ ∀ a ∈ items, (f a).isSome = true := by
  induction items with
  | nil => simp
  | cons a items ih =>
      rw [List.mapM_cons, List.forall_mem_cons, ← ih]
      cases f a with
      | none => simp
      | some b => cases items.mapM f <;> simp

/-- What is on the right of related lists is related to something on the left. -/
theorem exists_left_of_forall₂ {R : α → β → Prop} {items : List α} {results : List β}
    (each : List.Forall₂ R items results) {b : β} (member : b ∈ results) : ∃ a ∈ items, R a b := by
  induction each with
  | nil => cases member
  | @cons a b' items results here _ ih =>
      rcases List.mem_cons.mp member with rfl | later
      · exact ⟨a, List.mem_cons_self, here⟩
      · obtain ⟨a', listed, found⟩ := ih later
        exact ⟨a', List.mem_cons_of_mem a listed, found⟩

/-- A result comes from an entry. -/
theorem mem_of_mapM {f : α → Option β} {items : List α} {results : List β}
    (run : items.mapM f = some results) {b : β} (member : b ∈ results) :
    ∃ a ∈ items, f a = some b :=
  exists_left_of_forall₂ (mapM_eq_some_iff.mp run) member

/-- An entry has a result. -/
theorem mapM_mem {f : α → Option β} {items : List α} {results : List β}
    (run : items.mapM f = some results) {a : α} (member : a ∈ items) :
    ∃ b ∈ results, f a = some b := by
  have each := mapM_eq_some_iff.mp run
  clear run
  induction each with
  | nil => cases member
  | @cons a' b items results here _ ih =>
      rcases List.mem_cons.mp member with rfl | later
      · exact ⟨b, List.mem_cons_self, here⟩
      · obtain ⟨b', listed, found⟩ := ih later
        exact ⟨b', List.mem_cons_of_mem b listed, found⟩

/-- Something is judged to go exactly where the test condemns an entry. -/
theorem filterMap_ne_nil_iff {f : α → Option (Option ι)} {items : List α}
    {verdicts : List (Option ι)} (run : items.mapM f = some verdicts) :
    verdicts.filterMap id ≠ [] ↔ ∃ a ∈ items, ∃ info, f a = some (some info) := by
  constructor
  · intro some_
    obtain ⟨info, member⟩ := List.exists_mem_of_ne_nil _ some_
    obtain ⟨verdict, reached, same⟩ := List.mem_filterMap.mp member
    obtain ⟨a, listed, here⟩ := mem_of_mapM run reached
    exact ⟨a, listed, info, by rw [here, show verdict = some info from same]⟩
  · rintro ⟨a, listed, info, here⟩
    obtain ⟨verdict, reached, there⟩ := mapM_mem run listed
    rw [here] at there
    cases there
    exact List.ne_nil_of_mem (List.mem_filterMap.mpr ⟨some info, reached, rfl⟩)

/-- The entries whose verdict is to stay. -/
theorem filter_zip_of_mapM {f : α → Option Bool} (stays : Bool → Bool) {items : List α}
    {verdicts : List Bool} (run : items.mapM f = some verdicts) :
    ((items.zip verdicts).filter fun e => stays e.2).map Prod.fst =
      items.filter fun a => (f a).any stays := by
  have each := mapM_eq_some_iff.mp run
  clear run
  induction each with
  | nil => rfl
  | @cons a verdict _ _ here _ ih =>
      rw [List.zip_cons_cons, List.filter_cons, List.filter_cons, here, Option.any_some]
      cases stays verdict with
      | true => exact congrArg (a :: ·) ih
      | false => exact ih

/-! ### What stays -/

/-- What stays of a list where some entries were judged to go. -/
def keptOf (items : List α) (verdicts : List (Option ι)) : List α :=
  ((items.zip verdicts).filter fun v => v.2.isNone).map Prod.fst

@[simp] theorem keptOf_nil (verdicts : List (Option ι)) : keptOf ([] : List α) verdicts = [] := by
  rw [keptOf, List.zip_nil_left]
  rfl

theorem keptOf_cons (a : α) (items : List α) (verdict : Option ι) (verdicts : List (Option ι)) :
    keptOf (a :: items) (verdict :: verdicts) =
      if verdict.isNone then a :: keptOf items verdicts else keptOf items verdicts := by
  rw [keptOf, List.zip_cons_cons, List.filter_cons]
  split <;> rfl

theorem keptOf_sublist (items : List α) (verdicts : List (Option ι)) :
    (keptOf items verdicts).Sublist items := by
  induction items generalizing verdicts with
  | nil => rw [keptOf_nil]
  | cons a items ih =>
      cases verdicts with
      | nil => exact List.nil_sublist _
      | cons verdict verdicts =>
          rw [keptOf_cons]
          split
          · exact (ih verdicts).cons_cons a
          · exact (ih verdicts).cons a

/-- What stays was judged to stay. -/
theorem mem_keptOf {f : α → Option (Option ι)} {items : List α} {verdicts : List (Option ι)}
    (run : items.mapM f = some verdicts) {a : α} :
    a ∈ keptOf items verdicts ↔ a ∈ items ∧ f a = some none := by
  have each := mapM_eq_some_iff.mp run
  clear run
  induction each with
  | nil => simp
  | @cons a' verdict items verdicts here _ ih =>
      have later : a ∈ keptOf items verdicts ↔ a ∈ items ∧ f a = some none := ih
      rw [keptOf_cons, List.mem_cons, or_and_right]
      cases verdict with
      | none =>
          rw [if_pos Option.isNone_none, List.mem_cons, later]
          constructor
          · rintro (rfl | kept)
            · exact .inl ⟨rfl, here⟩
            · exact .inr kept
          · rintro (⟨rfl, _⟩ | kept)
            · exact .inl rfl
            · exact .inr kept
      | some reason =>
          rw [if_neg (by simp), later]
          refine ⟨.inr, ?_⟩
          rintro (⟨rfl, stays⟩ | kept)
          · rw [here] at stays
            cases stays
          · exact kept

/-- Where nothing was judged to go, everything stays. -/
theorem keptOf_eq_self {f : α → Option (Option ι)} {items : List α} {verdicts : List (Option ι)}
    (run : items.mapM f = some verdicts) (none_ : verdicts.filterMap id = []) :
    keptOf items verdicts = items := by
  have each := mapM_eq_some_iff.mp run
  clear run
  induction each with
  | nil => rfl
  | @cons a verdict items verdicts _ _ ih =>
      have later : verdicts.filterMap id = [] → keptOf items verdicts = items := ih
      rw [List.filterMap_eq_nil_iff, List.forall_mem_cons, ← List.filterMap_eq_nil_iff] at none_
      have stays : verdict = none := none_.1
      rw [keptOf_cons, stays, if_pos Option.isNone_none, later none_.2]

/-- What stays is a filter, where a condition says which entries were judged to stay. -/
theorem keptOf_eq_filter {f : α → Option (Option ι)} {items : List α} {verdicts : List (Option ι)}
    (run : items.mapM f = some verdicts) {p : α → Bool}
    (stays : ∀ a ∈ items, f a = some none ↔ p a = true) : keptOf items verdicts = items.filter p := by
  have each := mapM_eq_some_iff.mp run
  clear run
  induction each with
  | nil => rfl
  | @cons a verdict items verdicts here _ ih =>
      rw [List.forall_mem_cons] at stays
      have later : keptOf items verdicts = items.filter p := ih stays.2
      rw [keptOf_cons, List.filter_cons, later]
      have same : verdict.isNone = p a := by
        rw [Bool.eq_iff_iff, ← stays.1, here, Option.isNone_iff_eq_none, Option.some.injEq]
      rw [same]

/-- With a test that cannot fail, what stays is a filter. -/
theorem keptOf_map (f : α → Option ι) (items : List α) :
    keptOf items (items.map f) = items.filter fun a => (f a).isNone := by
  induction items with
  | nil => rfl
  | cons a items ih => rw [List.map_cons, keptOf_cons, List.filter_cons, ih]

end GhostPour
