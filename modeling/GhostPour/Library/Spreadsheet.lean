/-
Module: GhostPour.Library.Spreadsheet
Layer: Library
Purpose: Spreadsheet formulas over whole numbers and dates, and what a sheet of them evaluates to. A
  cell has a value when the cells its formula refers to have theirs, so a cell on a circular
  reference, or above one, has none.
Trusted boundary: human-reviewed spec
Main exports: Formula, Formula.eval, Formula.refs, Formula.maxOf, Formula.minOf, Sheet.Refers,
  Sheet.Value, Sheet.value_unique, Sheet.Value.acc, Sheet.acyclic_of_acc, Sheet.env,
  Sheet.Value.of_refs, Sheet.Value.eq_eval
-/
import GhostPour.Library.TopologicalSort
import GhostPour.Library.WorkingDays

namespace GhostPour

variable {κ : Type}

/-- A formula: a number or a date, a reference to a cell, or a function of formulas. -/
inductive Formula (κ : Type) where
  | num (n : Int)
  | ref (c : κ)
  | add (a b : Formula κ)
  | sub (a b : Formula κ)
  | neg (a : Formula κ)
  | max (a b : Formula κ)
  | min (a b : Formula κ)
  | workday (d k : Formula κ)
  | networkdays (a b : Formula κ)
deriving DecidableEq, Repr

namespace Formula

/-- The value of a formula, given those of the cells. -/
def eval (env : κ → Int) : Formula κ → Int
  | .num n => n
  | .ref c => env c
  | .add a b => a.eval env + b.eval env
  | .sub a b => a.eval env - b.eval env
  | .neg a => -a.eval env
  | .max a b => Max.max (a.eval env) (b.eval env)
  | .min a b => Min.min (a.eval env) (b.eval env)
  | .workday d k => GhostPour.workday (d.eval env) (k.eval env)
  | .networkdays a b => GhostPour.networkdays (a.eval env) (b.eval env)

/-- The cells a formula refers to. -/
def refs : Formula κ → List κ
  | .num _ => []
  | .ref c => [c]
  | .neg a => a.refs
  | .add a b | .sub a b | .max a b | .min a b | .workday a b | .networkdays a b => a.refs ++ b.refs

/-- `MAX` of a list of arguments. -/
def maxOf : List (Formula κ) → Formula κ
  | [] => .num 0
  | [e] => e
  | e :: es => .max e (maxOf es)

/-- `MIN` of a list of arguments. -/
def minOf : List (Formula κ) → Formula κ
  | [] => .num 0
  | [e] => e
  | e :: es => .min e (minOf es)

/-- The sum of a list of arguments, `a+b+c`. -/
def sumOf : List (Formula κ) → Formula κ
  | [] => .num 0
  | [e] => e
  | e :: es => .add e (sumOf es)

/-- A value depends on the cells referred to alone. -/
theorem eval_congr {f : Formula κ} {env other : κ → Int} (same : ∀ c ∈ f.refs, env c = other c) :
    f.eval env = f.eval other := by
  induction f with
  | num n => rfl
  | ref c => exact same c (List.mem_singleton.mpr rfl)
  | neg a ih => exact congrArg Neg.neg (ih same)
  | add a b iha ihb | sub a b iha ihb | max a b iha ihb | min a b iha ihb | workday a b iha ihb
  | networkdays a b iha ihb =>
      simp only [eval]
      rw [iha fun c member => same c (List.mem_append_left _ member),
        ihb fun c member => same c (List.mem_append_right _ member)]

theorem mem_refs_maxOf {es : List (Formula κ)} {c : κ} :
    c ∈ (maxOf es).refs ↔ ∃ e ∈ es, c ∈ e.refs := by
  induction es with
  | nil => simp [maxOf, refs]
  | cons e es ih =>
      cases es with
      | nil => simp [maxOf]
      | cons e' es =>
          change c ∈ e.refs ++ (maxOf (e' :: es)).refs ↔ _
          rw [List.mem_append, ih, List.exists_mem_cons_iff]
          simp

theorem mem_refs_sumOf {es : List (Formula κ)} {c : κ} :
    c ∈ (sumOf es).refs ↔ ∃ e ∈ es, c ∈ e.refs := by
  induction es with
  | nil => simp [sumOf, refs]
  | cons e es ih =>
      cases es with
      | nil => simp [sumOf]
      | cons e' es =>
          change c ∈ e.refs ++ (sumOf (e' :: es)).refs ↔ _
          rw [List.mem_append, ih, List.exists_mem_cons_iff]
          simp

theorem mem_refs_minOf {es : List (Formula κ)} {c : κ} :
    c ∈ (minOf es).refs ↔ ∃ e ∈ es, c ∈ e.refs := by
  induction es with
  | nil => simp [minOf, refs]
  | cons e es ih =>
      cases es with
      | nil => simp [minOf]
      | cons e' es =>
          change c ∈ e.refs ++ (minOf (e' :: es)).refs ↔ _
          rw [List.mem_append, ih, List.exists_mem_cons_iff]
          simp

/-- `MAX` is the largest of its arguments. -/
theorem isGreatest_maxOf {es : List (Formula κ)} (some_ : es ≠ []) (env : κ → Int) :
    IsGreatest {v | v ∈ es.map (eval env)} ((maxOf es).eval env) := by
  induction es with
  | nil => exact absurd rfl some_
  | cons e es ih =>
      cases es with
      | nil => simp [maxOf]
      | cons e' es =>
          have split : {v | v ∈ (e :: e' :: es).map (eval env)} =
              insert (e.eval env) {v | v ∈ (e' :: es).map (eval env)} :=
            Set.ext fun v => List.mem_cons
          rw [split]
          exact (ih (List.cons_ne_nil _ _)).insert _

/-- `MIN` is the least of its arguments. -/
theorem isLeast_minOf {es : List (Formula κ)} (some_ : es ≠ []) (env : κ → Int) :
    IsLeast {v | v ∈ es.map (eval env)} ((minOf es).eval env) := by
  induction es with
  | nil => exact absurd rfl some_
  | cons e es ih =>
      cases es with
      | nil => simp [minOf]
      | cons e' es =>
          have split : {v | v ∈ (e :: e' :: es).map (eval env)} =
              insert (e.eval env) {v | v ∈ (e' :: es).map (eval env)} :=
            Set.ext fun v => List.mem_cons
          rw [split]
          exact (ih (List.cons_ne_nil _ _)).insert _

theorem eval_sumOf (es : List (Formula κ)) (env : κ → Int) :
    (sumOf es).eval env = (es.map (eval env)).sum := by
  induction es with
  | nil => rfl
  | cons e es ih =>
      cases es with
      | nil => simp [sumOf]
      | cons e' es =>
          change e.eval env + (sumOf (e' :: es)).eval env = _
          rw [ih]
          simp only [List.map_cons, List.sum_cons]

end Formula

/-- What is written in each cell. -/
abbrev Sheet (κ : Type) := κ → Option (Formula κ)

namespace Sheet

variable {sheet : Sheet κ}

/-- The formula of one cell mentions another. -/
def Refers (sheet : Sheet κ) (c d : κ) : Prop := ∃ f, sheet c = some f ∧ d ∈ f.refs

/-- No cell refers to itself, directly or through others. -/
def Acyclic (sheet : Sheet κ) : Prop := ∀ c, ¬Relation.TransGen sheet.Refers c c

/-- A cell evaluates to a value: its formula does, at values of the cells it refers to. -/
inductive Value (sheet : Sheet κ) : κ → Int → Prop where
  | intro {c : κ} {f : Formula κ} (env : κ → Int) (written : sheet c = some f)
      (settled : ∀ d ∈ f.refs, Value sheet d (env d)) : Value sheet c (f.eval env)

/-- A cell evaluates to one value only. -/
theorem value_unique {c : κ} {v w : Int} (first : sheet.Value c v) (second : sheet.Value c w) :
    v = w := by
  induction first generalizing w with
  | intro env written _ ih =>
      cases second with
      | intro other written' settled =>
          cases written.symm.trans written'
          exact Formula.eval_congr fun d member => ih d member (settled d member)

/-- References from a cell with a value come to an end. -/
theorem Value.acc {c : κ} {v : Int} (value : sheet.Value c v) :
    Acc (fun d c => sheet.Refers c d) c := by
  induction value with
  | intro env written _ ih =>
      constructor
      rintro d ⟨f, written', member⟩
      cases written.symm.trans written'
      exact ih d member

theorem acyclic_of_acc (ends : ∀ c, Acc (fun d c => sheet.Refers c d) c) : sheet.Acyclic :=
  fun c => not_transGen_of_acc (ends c)

open Classical in
/-- The value of every cell that has one. -/
noncomputable def env (sheet : Sheet κ) (c : κ) : Int :=
  if settled : ∃ v, sheet.Value c v then settled.choose else 0

theorem env_eq {c : κ} {v : Int} (value : sheet.Value c v) : sheet.env c = v := by
  have settled : ∃ v, sheet.Value c v := ⟨v, value⟩
  rw [env, dif_pos settled]
  exact value_unique settled.choose_spec value

/-- What a formula evaluates to on a sheet, wherever it is written. -/
def Shows (sheet : Sheet κ) (f : Formula κ) (v : Int) : Prop :=
  ∃ env : κ → Int, (∀ c ∈ f.refs, sheet.Value c (env c)) ∧ f.eval env = v

/-- A formula whose cells have values has one. -/
theorem Value.of_refs {c : κ} {f : Formula κ} (written : sheet c = some f)
    (settled : ∀ d ∈ f.refs, ∃ v, sheet.Value d v) : sheet.Value c (f.eval sheet.env) := by
  refine .intro sheet.env written fun d mentioned => ?_
  obtain ⟨v, value⟩ := settled d mentioned
  rwa [env_eq value]

end Sheet

end GhostPour
