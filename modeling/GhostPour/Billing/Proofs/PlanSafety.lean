/-
Module: GhostPour.Billing.Proofs.PlanSafety
Layer: Proofs
Purpose: Which notifications take a plan away. A row whose plan rests on one subscription is reached
  by the end of another one only through the account token, and then loses its plan.
Trusted boundary: none
Main exports: ReachedByToken, unrelated_end_keeps_plan_iff
-/
import GhostPour.Billing.AppleWebhooks

namespace GhostPour.Billing

/-- The tier and the limit of a user. -/
def tierAndLimit (db : Db) (userId : PyStr) : Option (PyStr × Option ℚ) :=
  (db.users.get userId).map fun account => (account.tier, account.monthlyCostLimitUsd)

theorem tierAndLimit_eq (db : Db) (userId : PyStr) :
    tierAndLimit db userId =
      (db.plan userId).map fun plan => (plan.tier, plan.monthlyCostLimitUsd) := by
  unfold tierAndLimit Db.plan
  rw [Option.map_map]
  rfl

section
variable [PyRuntime]

/-- A notification reaches a user by the account token: it is for one of our subscriptions, no row
stores its transaction, and its token is the user's id. -/
def ReachedByToken (settings : WebhookSettings) (n : Notification) (users : Users)
    (userId : PyStr) : Prop :=
  ∃ t, gate settings n = .ok t ∧ Unclaimed users t ∧ TokenNames t userId

/-- The end of a subscription that a row does not rest on leaves the row's plan alone, exactly when
the row is free already or the notification does not reach it by its account token. -/
theorem unrelated_end_keeps_plan_iff (settings : WebhookSettings) (now : DateTime)
    (n : Notification) (db : Db) (userId : PyStr) (account : Account) (otid : PyStr)
    (stored : db.users.get userId = some account)
    (rests : account.originalTransactionId = some otid) (ends : n.type.EndsPlan)
    (unrelated : ∀ t, n.transaction = some t → t.originalTransactionId ≠ some otid) :
    tierAndLimit (appleNotifications settings now n db).2 userId = tierAndLimit db userId ↔
      account.tier = freeTier ∨ ¬ ReachedByToken settings n db.users userId := by
  cases passed : gate settings n with
  | error action => simp [appleNotifications, ReachedByToken, passed]
  | ok t =>
      have reaches : ReachedByToken settings n db.users userId ↔
          findUser db.users t = some (userId, account, true) := by
        constructor
        · rintro ⟨t', passed', unclaimed, names⟩
          cases passed.symm.trans passed'
          exact findUser_of_token unclaimed names stored
        · exact fun found => ⟨t, passed, (findUser_some found).2.2 rfl⟩
      rw [reaches]
      cases found : findUser db.users t with
      | none => simp [appleNotifications, passed, found]
      | some row =>
          obtain ⟨userId', account', byToken⟩ := row
          obtain ⟨stored', byTransaction, _⟩ := findUser_some found
          rw [tierAndLimit_eq, tierAndLimit_eq,
            appleNotifications_plan_of_endsPlan ends passed now db found]
          by_cases same : userId = userId'
          · subst same
            cases Option.some.inj (stored.symm.trans stored')
            cases byToken with
            | false =>
                -- the stored transaction found the row, so it is the one the plan rests on
                obtain ⟨named, isNamed, holds⟩ := byTransaction rfl
                have own := (truthy_eq_some.mp isNamed).1
                rw [holds.symm.trans rests] at own
                exact absurd own (unrelated t (gate_transaction passed))
            | true =>
                by_cases free : account.tier = freeTier
                · simp [free]
                · have changed : (account.downgradeToFree settings.tiers).plan.tier ≠
                      account.plan.tier := fun eq => free eq.symm
                  simp [free, stored, Db.plan, changed]
          · have other : userId' ≠ userId := Ne.symm same
            simp [same, other]

end

/-- A Pro account resting on transaction 1000. -/
def proOn1000 : Account :=
  { Account.signUp with tier := py "pro", originalTransactionId := some (py "1000") }

theorem unrelated_end_keeps_plan_iff_expired :
    letI := PyRuntime.ascii
    tierAndLimit (appleNotifications shoulderSurf jan1
          (proNotification .expired (py "2000") (some (py "u"))) (.single (py "u") proOn1000)).2
        (py "u") = tierAndLimit (.single (py "u") proOn1000) (py "u") ↔
      proOn1000.tier = freeTier ∨ ¬ ReachedByToken shoulderSurf
        (proNotification .expired (py "2000") (some (py "u")))
        (Db.single (py "u") proOn1000).users (py "u") :=
  letI := PyRuntime.ascii
  unrelated_end_keeps_plan_iff shoulderSurf jan1 _ _ _ proOn1000 (py "1000") (by decide)
    (by decide) (.inl rfl) (by rintro t ⟨⟩; decide)

/-- The expiry of transaction 2000, delivered with the account's token, takes the plan that rests
on transaction 1000. -/
theorem expired_by_token_takes_plan :
    letI := PyRuntime.ascii
    proOn1000.originalTransactionId = some (py "1000") ∧
      tierAndLimit (.single (py "u") proOn1000) (py "u") = some (py "pro", none) ∧
      tierAndLimit (appleNotifications shoulderSurf jan1
          (proNotification .expired (py "2000") (some (py "u"))) (.single (py "u") proOn1000)).2
        (py "u") = some (freeTier, some 2) := by
  decide +kernel

end GhostPour.Billing
