/-
Module: GhostPour.Budget.Proofs.FlatOvershoot
Layer: Proof
Purpose: How far the flat cap of an app can be overshot: by one call, as long as no call passes the
  check while another runs.
Trusted boundary: none
Main exports: monthSpent, WithinOneCall, FlatAction.Alone, flat_overshoot_one_call
-/
import GhostPour.Budget.UsageLog

namespace GhostPour.Budget

variable {userId app : PyStr} {cap : ℚ}

/-- What a user spent in an app in a month. -/
def monthSpent (userId app : PyStr) (month : Nat) (usage : List UsageRow) : ℚ :=
  sumWhere (fun row => row.isOf userId app && decide (row.requestTimestamp.month = month))
    UsageRow.cost usage

/-- The spend of a month exceeds the cap by no more than the cost of one of its calls. -/
def WithinOneCall (userId app : PyStr) (cap : ℚ) (month : Nat) (usage : List UsageRow) : Prop :=
  monthSpent userId app month usage ≤ cap ∨
    ∃ row ∈ usage, row.isOf userId app = true ∧ row.requestTimestamp.month = month ∧
      monthSpent userId app month usage ≤ cap + row.cost

/-- The condition on a step: a check that passes finds no other call running, and a cost is not
negative. -/
def FlatAction.Alone (userId app : PyStr) (cap : ℚ) : FlatAction → FlatState → Prop
  | .check _ estimate, s =>
      (wouldExceedFlatBudget s.now userId app estimate (some cap) s.usage).1 = false → s.running = []
  | .log _ cost _ _, _ => 0 ≤ cost.getD 0
  | _, _ => True

instance : (action : FlatAction) → (s : FlatState) → Decidable (action.Alone userId app cap s)
  | .check _ _, _ => inferInstanceAs (Decidable (_ → _))
  | .log _ _ _ _, _ => inferInstanceAs (Decidable (_ ≤ _))
  | .tick _, _ | .drop _, _ => isTrue trivial

/-- At most one call runs, and it was let through below the cap. -/
structure FlatSound (userId app : PyStr) (cap : ℚ) (s : FlatState) : Prop where
  past : ∀ row ∈ s.usage, row.requestTimestamp ≤ s.now ∧ 0 ≤ row.cost
  within : ∀ month, WithinOneCall userId app cap month s.usage
  one : s.running.length ≤ 1
  below : s.running ≠ [] → monthSpent userId app s.now.month s.usage ≤ cap

section
variable {s s' : FlatState}

/-- The check reads the spend of the month. -/
theorem appMonthSpend_eq (past : ∀ row ∈ s.usage, row.requestTimestamp ≤ s.now ∧ 0 ≤ row.cost) :
    appMonthSpend s.now userId app s.usage = monthSpent userId app s.now.month s.usage := by
  refine sumWhere_congr fun row member _ => ?_
  rw [Bool.eq_iff_iff]
  simp only [Bool.and_eq_true, decide_eq_true_eq,
    Instant.monthStart_le_iff_month (past row member).1]

theorem FlatSound.empty (positive : 0 ≤ cap) : FlatSound userId app cap .empty where
  past := by
    intro row member
    cases member
  within _ := .inl positive
  one := Nat.zero_le _
  below none := absurd rfl none

/-- In a later month nothing has been spent. -/
theorem FlatSound.tick (sound : FlatSound userId app cap s) (positive : 0 ≤ cap) {now : Instant}
    (later : s.now ≤ now) : FlatSound userId app cap { s with now := now } where
  past row member := ⟨le_trans (sound.past row member).1 later, (sound.past row member).2⟩
  within := sound.within
  one := sound.one
  below running := by
    rcases (Instant.month_mono later).eq_or_lt with same | next
    · simp only
      rw [← same]
      exact sound.below running
    · have none : monthSpent userId app now.month s.usage = 0 := by
        refine sumWhere_eq_zero fun row member taken => ?_
        simp only [Bool.and_eq_true, decide_eq_true_eq] at taken
        have before := Instant.month_mono (sound.past row member).1
        omega
      simp only
      rw [none]
      exact positive

theorem FlatSound.check (sound : FlatSound userId app cap s) {call : Nat} {estimate : Option ℚ}
    (alone : s.running = [])
    (passes : (wouldExceedFlatBudget s.now userId app estimate (some cap) s.usage).1 = false) :
    FlatSound userId app cap { s with running := call :: s.running } where
  past := sound.past
  within := sound.within
  one := by simp [alone]
  below _ := by
    have spent := spent_lt_of_passes passes
    rw [appMonthSpend_eq sound.past] at spent
    exact spent.le

/-- Fewer running calls. -/
theorem FlatSound.erase (sound : FlatSound userId app cap s) (call : Nat) :
    FlatSound userId app cap { s with running := s.running.erase call } where
  past := sound.past
  within := sound.within
  one := le_trans (List.length_erase_le) sound.one
  below running := by
    apply sound.below
    intro none
    simp [none] at running

/-- A month gains the cost of a call that is logged in it. -/
theorem monthSpent_append (month : Nat) (usage : List UsageRow) (row : UsageRow) :
    monthSpent userId app month (usage ++ [row]) = monthSpent userId app month usage +
      if row.isOf userId app && decide (row.requestTimestamp.month = month) then row.cost else 0 := by
  rw [monthSpent, sumWhere_append, sumWhere_singleton]
  rfl

/-- The only running call takes the month no further over the cap than its own cost. -/
theorem FlatSound.log (sound : FlatSound userId app cap s) {call : Nat} {cost : Option ℚ}
    {case ipHash : Option PyStr} (runs : call ∈ s.running) (positive : 0 ≤ cost.getD 0) :
    FlatSound userId app cap
      { s with usage := s.usage ++ [⟨userId, some app, cost, s.now, case, ipHash⟩]
               running := s.running.erase call } := by
  have none : s.running.erase call = [] := by
    obtain ⟨only, eq⟩ := List.length_eq_one_iff.mp
      (le_antisymm sound.one (List.length_pos_of_mem runs))
    rw [eq] at runs ⊢
    simp [List.mem_singleton.mp runs]
  refine ⟨fun row member => ?_, fun month => ?_, by simp [none], fun running => absurd none running⟩
  · rcases List.mem_append.mp member with old | new
    · exact sound.past row old
    · rw [List.mem_singleton.mp new]
      exact ⟨le_refl _, positive⟩
  · by_cases here : s.now.month = month
    · subst here
      refine .inr ⟨_, List.mem_append_right _ (List.mem_singleton_self _), by simp [UsageRow.isOf],
        rfl, ?_⟩
      rw [monthSpent_append, if_pos (by simp [UsageRow.isOf])]
      exact add_le_add_left (sound.below (List.ne_nil_of_mem runs)) _
    · have same : monthSpent userId app month
          (s.usage ++ [⟨userId, some app, cost, s.now, case, ipHash⟩]) =
            monthSpent userId app month s.usage := by
        rw [monthSpent_append, if_neg (by simp [here]), add_zero]
      rcases sound.within month with below | ⟨row, member, of, inMonth, close⟩
      · left
        rw [same]
        exact below
      · right
        refine ⟨row, List.mem_append_left _ member, of, inMonth, ?_⟩
        rw [same]
        exact close

theorem FlatSound.step (positive : 0 ≤ cap) (sound : FlatSound userId app cap s)
    (action : FlatAction) (met : action.Alone userId app cap s)
    (step : (flatMachine userId app cap).step action s = some s') : FlatSound userId app cap s' := by
  cases action with
  | tick now =>
      obtain ⟨later, eq⟩ := Option.ite_none_right_eq_some.mp step
      cases eq
      exact sound.tick positive later
  | check call estimate =>
      simp only [flatMachine] at step
      split at step
      · cases step
        exact sound
      · next passes =>
        cases step
        rw [Bool.not_eq_true] at passes
        exact sound.check (met passes) passes
  | log call cost case ipHash =>
      obtain ⟨runs, eq⟩ := Option.ite_none_right_eq_some.mp step
      cases eq
      exact sound.log runs met
  | drop call =>
      obtain ⟨runs, eq⟩ := Option.ite_none_right_eq_some.mp step
      cases eq
      exact sound.erase call

end

/-- In every run in which no call passes the check while another runs, the recorded spend of every
month exceeds the cap by no more than the cost of one of its calls. -/
theorem flat_overshoot_one_call (userId app : PyStr) (cap : ℚ) (positive : 0 ≤ cap)
    (actions : List FlatAction) (last : FlatState)
    (along : (flatMachine userId app cap).Along (FlatAction.Alone userId app cap) actions .empty)
    (run : (flatMachine userId app cap).run actions .empty = some last) (month : Nat) :
    WithinOneCall userId app cap month last.usage := by
  have sound : FlatSound userId app cap last := Machine.run_invariant_along
    (fun action s s' met sound step => sound.step positive action met step) along
    (.empty positive) run
  exact sound.within month

/-! ### Calls one after the other, and beside each other -/

/-- The machine of a user of the interview app with a cap of half a dollar. -/
abbrev halfDollar : Machine FlatState FlatAction := flatMachine (py "u") (py "n400") (1 / 2)

/-- Two calls of a dollar; the second finds the cap reached. -/
def oneAfterAnother : List FlatAction :=
  [.check 1 (some (1 / 10)), .log 1 (some 1) none none, .check 2 (some (1 / 10))]

/-- The theorem at that run: the spend is within one call of the cap. -/
theorem flat_overshoot_one_call_in_turn :
    ∃ last, halfDollar.run oneAfterAnother .empty = some last ∧ last.running = [] ∧
      monthSpent (py "u") (py "n400") 0 last.usage = 1 ∧
      WithinOneCall (py "u") (py "n400") (1 / 2) 0 last.usage := by
  obtain ⟨last, run⟩ := Option.isSome_iff_exists.mp
    (show (halfDollar.run oneAfterAnother .empty).isSome = true by decide +kernel)
  have facts : (halfDollar.run oneAfterAnother .empty).map (fun s =>
      (s.running, monthSpent (py "u") (py "n400") 0 s.usage)) = some ([], 1) := by decide +kernel
  rw [run, Option.map_some, Option.some.injEq, Prod.mk.injEq] at facts
  refine ⟨last, run, facts.1, facts.2, ?_⟩
  exact flat_overshoot_one_call (py "u") (py "n400") (1 / 2) (by decide +kernel) oneAfterAnother
    last (by decide +kernel) run 0

/-- Both calls pass before either is logged. -/
def besideEachOther : List FlatAction :=
  [.check 1 (some (1 / 10)), .check 2 (some (1 / 10)), .log 1 (some 1) none none,
    .log 2 (some 1) none none]

/-- The spend exceeds the cap by more than any one call. -/
theorem two_calls_overshoot :
    ∃ last, halfDollar.run besideEachOther .empty = some last ∧
      ¬ WithinOneCall (py "u") (py "n400") (1 / 2) 0 last.usage := by
  obtain ⟨last, run⟩ := Option.isSome_iff_exists.mp
    (show (halfDollar.run besideEachOther .empty).isSome = true by decide +kernel)
  have facts : (halfDollar.run besideEachOther .empty).map (fun s =>
      (monthSpent (py "u") (py "n400") 0 s.usage, s.usage.map UsageRow.cost)) =
        some (2, [1, 1]) := by decide +kernel
  rw [run, Option.map_some, Option.some.injEq, Prod.mk.injEq] at facts
  refine ⟨last, run, ?_⟩
  rintro (below | ⟨row, member, _, _, close⟩)
  · rw [facts.1] at below
    norm_num at below
  · have cost : row.cost ∈ [1, 1] := by
      rw [← facts.2]
      exact List.mem_map_of_mem member
    have one : row.cost = 1 := by simpa using cost
    rw [facts.1, one] at close
    norm_num at close

end GhostPour.Budget
