/-
Module: GhostPour.Budget.Proofs.CarryLedger
Layer: Proof
Purpose: What a deletion and an expiry do to the two halves of the spend: the rows they take, and
  the carry rows they add to.
Trusted boundary: none
Main exports: carriedFor, creditOn, carriedFor_credits, carriedToday_credits, spentOn_inScope
-/
import GhostPour.Budget.SpendStatements

namespace GhostPour.Budget

/-! ### The carry rows -/

/-- The lifetime spend carried for an install in an app. -/
def carriedFor (sub app : PyStr) (carry : SpendCarry) : ℚ :=
  ((carry.get (sub, app)).map Carry.lifetimeUsd).getD 0

/-- What a list of credits adds to the carry of an app. -/
def creditOn (amount : Credit → ℚ) (app : PyStr) (credits : List Credit) : ℚ :=
  sumWhere (fun credit => credit.appId = app ∧ 0 < credit.total) amount credits

section
variable (sub app : PyStr) (day : Nat) (carry : SpendCarry) (credit : Credit)

theorem carriedFor_store :
    carriedFor sub app (credit.store sub day carry) =
      carriedFor sub app carry + creditOn Credit.total app [credit] := by
  unfold Credit.store creditOn
  rw [sumWhere_singleton]
  split
  · next nothing => simp [not_lt.mpr nothing]
  · next spent =>
    by_cases same : app = credit.appId
    · subst same
      rw [if_pos (by simpa using spent)]
      unfold carriedFor
      rw [Table.get_upsert_self]
      rcases carry.get (sub, credit.appId) with _ | c
      · simp
      · simp [Carry.add]
    · rw [if_neg (by simp [Ne.symm same]), add_zero]
      unfold carriedFor
      rw [Table.get_upsert_of_ne _ _ _ (by simp [same])]

/-- A deletion of another install leaves the carry of this one. -/
theorem store_get_of_ne {other : PyStr} (ne : sub ≠ other) :
    (credit.store other day carry).get (sub, app) = carry.get (sub, app) := by
  unfold Credit.store
  split
  · rfl
  · exact Table.get_upsert_of_ne _ _ _ (by simp [ne])

/-- The carry row of an app after a credit of another app. -/
theorem store_get_of_app {app : PyStr} (ne : app ≠ credit.appId) :
    (credit.store sub day carry).get (sub, app) = carry.get (sub, app) := by
  unfold Credit.store
  split
  · rfl
  · exact Table.get_upsert_of_ne _ _ _ (by simp [ne])

/-- What the deletion's own day gains. -/
theorem carriedToday_store :
    carriedToday app day (credit.store sub day carry) =
      carriedToday app day carry + creditOn Credit.today app [credit] := by
  unfold Credit.store creditOn
  rw [sumWhere_singleton]
  split
  · next nothing => simp [not_lt.mpr nothing]
  · next spent =>
    have moved := carry.sumWhere_upsert (sub, credit.appId) ⟨credit.total, some day, credit.today⟩
      (Carry.add day credit) (carriedOn app day) (fun r => r.2.dayUsd)
    unfold carriedToday
    by_cases same : credit.appId = app
    · subst same
      rw [if_pos (by simpa using spent)]
      rcases stored : carry.get (sub, credit.appId) with _ | c
      · simpa [stored, carriedOn] using moved
      · by_cases today : c.day = some day
        · simp only [stored, Option.toList_some, List.map_cons, List.map_nil, sumWhere_singleton,
            carriedOn, today, Carry.add, Option.map_some, Option.getD_some, and_self,
            decide_true, if_true] at moved
          linarith
        · simpa [stored, carriedOn, today, Carry.add] using moved
    · rw [if_neg (by simp [same])]
      rcases stored : carry.get (sub, credit.appId) with _ | c
      · simpa [stored, carriedOn, same] using moved
      · simpa [stored, carriedOn, same] using moved

/-- A later day gains nothing, if the carry row does not hold its spend already. -/
theorem carriedToday_store_of_ne {today : Nat} (ne : today ≠ day)
    (clear : (carry.get (sub, credit.appId)).bind Carry.day ≠ some today) :
    carriedToday app today (credit.store sub day carry) = carriedToday app today carry := by
  unfold Credit.store
  split
  · rfl
  · have moved := carry.sumWhere_upsert (sub, credit.appId) ⟨credit.total, some day, credit.today⟩
      (Carry.add day credit) (carriedOn app today) (fun r => r.2.dayUsd)
    unfold carriedToday
    rcases stored : carry.get (sub, credit.appId) with _ | c
    · simpa [stored, carriedOn, ne.symm] using moved
    · have other : c.day ≠ some today := by simpa [stored] using clear
      simpa [stored, carriedOn, ne.symm, other, Carry.add] using moved

/-- An expiry adds to no day. -/
theorem carriedToday_storeExpired (today : Nat) (expired : PyStr) (spent : ℚ) :
    carriedToday app today (storeExpired sub expired spent carry) =
      carriedToday app today carry := by
  have moved := carry.sumWhere_upsert (sub, expired) ⟨spent, none, 0⟩
    (fun c => { c with lifetimeUsd := c.lifetimeUsd + spent }) (carriedOn app today)
    (fun r => r.2.dayUsd)
  unfold carriedToday storeExpired
  rcases stored : carry.get (sub, expired) with _ | c
  · simpa [stored, carriedOn] using moved
  · simpa [stored, carriedOn] using moved

theorem carriedFor_storeExpired (install expired : PyStr) (spent : ℚ) :
    carriedFor install app (storeExpired sub expired spent carry) =
      carriedFor install app carry + if sub = install ∧ app = expired then spent else 0 := by
  unfold carriedFor storeExpired
  split
  · next same =>
    obtain ⟨rfl, rfl⟩ := same
    rw [Table.get_upsert_self]
    rcases carry.get (sub, app) with _ | c <;> simp
  · next other =>
    have ne : (install, app) ≠ (sub, expired) := by
      intro same
      rw [Prod.mk.injEq] at same
      exact other ⟨same.1.symm, same.2⟩
    rw [Table.get_upsert_of_ne _ _ _ ne, add_zero]

/-- An expiry dates no carry row. -/
theorem storeExpired_day {today : Nat} {expired : PyStr} {spent : ℚ}
    (carried : ∀ key c d, carry.get key = some c → c.day = some d → d ≤ today) :
    ∀ key c d, (storeExpired sub expired spent carry).get key = some c → c.day = some d →
      d ≤ today := by
  intro key c d stored dated
  unfold storeExpired at stored
  rcases eq_or_ne key (sub, expired) with rfl | ne
  · rw [Table.get_upsert_self] at stored
    rcases old : carry.get (sub, expired) with _ | before
    · rw [old] at stored
      cases stored
      cases dated
    · rw [old] at stored
      cases stored
      exact carried (sub, expired) before d old dated
  · rw [Table.get_upsert_of_ne _ _ _ ne] at stored
    exact carried key c d stored dated

end

section
variable {sub app : PyStr} {day : Nat} {credits : List Credit} {carry : SpendCarry}

/-- The lifetime carry after the credits of a deletion. -/
theorem carriedFor_credits :
    carriedFor sub app (credits.foldl (Credit.store sub day) carry) =
      carriedFor sub app carry + creditOn Credit.total app credits := by
  induction credits generalizing carry with
  | nil => exact (add_zero _).symm
  | cons credit credits ih =>
      rw [List.foldl_cons, ih, carriedFor_store, add_assoc]
      unfold creditOn
      rw [← sumWhere_append, List.singleton_append]

theorem credits_get_of_ne {other : PyStr} (ne : sub ≠ other) :
    (credits.foldl (Credit.store other day) carry).get (sub, app) = carry.get (sub, app) := by
  induction credits generalizing carry with
  | nil => rfl
  | cons credit credits ih => rw [List.foldl_cons, ih, store_get_of_ne _ _ _ _ _ ne]

/-- The carry of the deletion's own day after its credits. -/
theorem carriedToday_credits :
    carriedToday app day (credits.foldl (Credit.store sub day) carry) =
      carriedToday app day carry + creditOn Credit.today app credits := by
  induction credits generalizing carry with
  | nil => exact (add_zero _).symm
  | cons credit credits ih =>
      rw [List.foldl_cons, ih, carriedToday_store, add_assoc]
      unfold creditOn
      rw [← sumWhere_append, List.singleton_append]

/-- The carry of a later day after the credits. -/
theorem carriedToday_credits_of_ne {today : Nat} (ne : today ≠ day)
    (clear : ∀ credit ∈ credits, (carry.get (sub, credit.appId)).bind Carry.day ≠ some today) :
    carriedToday app today (credits.foldl (Credit.store sub day) carry) =
      carriedToday app today carry := by
  induction credits generalizing carry with
  | nil => rfl
  | cons credit credits ih =>
      rw [List.foldl_cons, ih, carriedToday_store_of_ne _ _ _ _ _ ne
        (clear credit List.mem_cons_self)]
      intro other member
      have before := clear other (List.mem_cons_of_mem _ member)
      by_cases same : other.appId = credit.appId
      · -- the row of this app has the deletion's day now, or was not touched
        unfold Credit.store
        split
        · exact before
        · rw [same, Table.get_upsert_self, Option.bind_some]
          rcases carry.get (sub, credit.appId) with _ | c
          · simpa using ne.symm
          · simpa [Carry.add] using ne.symm
      · rw [store_get_of_app _ _ _ _ same]
        exact before

/-- A deletion never dates a carry row later than its own day. -/
theorem credits_day_le {today : Nat} (past : day ≤ today)
    (carried : ∀ key c d, carry.get key = some c → c.day = some d → d ≤ today) :
    ∀ key c d, (credits.foldl (Credit.store sub day) carry).get key = some c → c.day = some d →
      d ≤ today := by
  induction credits generalizing carry with
  | nil => exact carried
  | cons credit credits ih =>
      rw [List.foldl_cons]
      apply ih
      intro key c d stored dated
      unfold Credit.store at stored
      split at stored
      · exact carried key c d stored dated
      · rcases eq_or_ne key (sub, credit.appId) with rfl | ne
        · rw [Table.get_upsert_self] at stored
          have own : c.day = some day := by
            rw [← Option.some.inj stored]
            cases carry.get (sub, credit.appId) <;> rfl
          rw [own] at dated
          cases dated
          exact past
        · rw [Table.get_upsert_of_ne _ _ _ ne] at stored
          exact carried key c d stored dated

end

end GhostPour.Budget
