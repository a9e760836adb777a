/-
Module: GhostPour.Chat.Proofs.TurnMetering
Layer: Proofs
Purpose: Which calls of a turn are metered. A cost is put on one response of the turn's own; the
  answers of the research leg, of the envelope retry or the response it replaces, and of the guard
  retries are logged without one. So the ledger falls behind by what these cost, and by nothing else.
Trusted boundary: none
Main exports: EveryCallMetered, NothingUnbilled, turn_metered_iff
-/
import GhostPour.Chat.Proofs.TailObject
import GhostPour.Chat.TurnMeter

namespace GhostPour.Chat

open Billing Budget N400

/-! ### What the ledger says and what was spent -/

/-- The sum of `estimated_cost_usd` over the rows. -/
def TurnLedger.logged (ledger : TurnLedger) : ℚ :=
  (ledger.rows.map fun row => row.estimatedCostUsd.getD 0).sum

/-- The sum of `calculate_cost` over the responses. -/
def TurnLedger.spent (prices : PriceTable) (ledger : TurnLedger) : ℚ :=
  (ledger.received.map fun call => (call.cost prices).totalCost).sum

/-- What has been spent and not logged. -/
def TurnLedger.missing (prices : PriceTable) (ledger : TurnLedger) : ℚ :=
  ledger.spent prices - ledger.logged

section
variable (prices : PriceTable) (ledger : TurnLedger)

theorem missing_receive (call : ModelCall) :
    (ledger.receive call).missing prices = ledger.missing prices + (call.cost prices).totalCost := by
  simp only [TurnLedger.missing, TurnLedger.spent, TurnLedger.logged, TurnLedger.receive,
    List.map_append, List.map_cons, List.map_nil, List.sum_append, List.sum_singleton]
  ring

theorem missing_logUsage (status : PyStr) (call : ModelCall) (cost : Option Cost) :
    (ledger.logUsage status call cost).missing prices =
      ledger.missing prices - (cost.map Cost.totalCost).getD 0 := by
  simp only [TurnLedger.missing, TurnLedger.spent, TurnLedger.logged, TurnLedger.logUsage,
    List.map_append, List.map_cons, List.map_nil, List.sum_append, List.sum_singleton]
  ring

theorem logged_logUsage (status : PyStr) (call : ModelCall) (cost : Option Cost) :
    (ledger.logUsage status call cost).logged =
      ledger.logged + (cost.map Cost.totalCost).getD 0 := by
  simp only [TurnLedger.logged, TurnLedger.logUsage, List.map_append, List.map_cons, List.map_nil,
    List.sum_append, List.sum_singleton]

theorem logged_logError (provider model : PyStr) :
    (ledger.logError provider model).logged = ledger.logged := by
  simp [TurnLedger.logged, TurnLedger.logError]

/-- A response that is logged without a cost stays missing. -/
theorem missing_logUsage_none (status : PyStr) (call : ModelCall) :
    (ledger.logUsage status call none).missing prices = ledger.missing prices := by
  rw [missing_logUsage]
  exact sub_zero _

end

/-- A part of the turn that bills nothing: what is missing grows, by an amount that is nothing exactly
when a condition holds, and by the cost of the response that is still to be billed. -/
structure Behind (prices : PriceTable) (before after : TurnLedger) (owed : ℚ) (free : Prop) :
    Prop where
  users : after.users = before.users
  logged : after.logged = before.logged
  missing : ∃ amount, 0 ≤ amount ∧
    after.missing prices = before.missing prices + amount + owed ∧ (amount = 0 ↔ free)

namespace Behind

variable {prices : PriceTable} {before between after : TurnLedger} {owed owed' : ℚ}
  {free free' : Prop}

theorem refl (holds : free) : Behind prices before before 0 free where
  users := rfl
  logged := rfl
  missing := ⟨0, le_refl 0, by rw [add_zero, add_zero], iff_of_true rfl holds⟩

theorem trans (first : Behind prices before between owed free)
    (second : Behind prices between after owed' free') :
    Behind prices before after (owed + owed') (free ∧ free') where
  users := second.users.trans first.users
  logged := second.logged.trans first.logged
  missing := by
    obtain ⟨a, a_nonneg, one, a_iff⟩ := first.missing
    obtain ⟨b, b_nonneg, two, b_iff⟩ := second.missing
    refine ⟨a + b, add_nonneg a_nonneg b_nonneg, by rw [two, one]; ring, ?_⟩
    rw [add_eq_zero_iff_of_nonneg a_nonneg b_nonneg, a_iff, b_iff]

theorem congr (behind : Behind prices before after owed free) (same : free ↔ free') :
    Behind prices before after owed free' := by
  rwa [← propext same]

/-- A response comes in that will not be billed. -/
theorem receive (call : ModelCall) : Behind prices before (before.receive call) 0
    ((call.cost prices).totalCost = 0) where
  users := rfl
  logged := rfl
  missing := ⟨_, call.cost_nonneg prices, by rw [missing_receive, add_zero], Iff.rfl⟩

/-- A response comes in that is still to be billed. -/
theorem owe (call : ModelCall) : Behind prices before (before.receive call)
    (call.cost prices).totalCost True where
  users := rfl
  logged := rfl
  missing := ⟨0, le_refl 0, by rw [missing_receive, add_zero], iff_of_true rfl trivial⟩

/-- A row without a cost. -/
theorem row (behind : Behind prices before after owed free) (status : PyStr) (call : ModelCall) :
    Behind prices before (after.logUsage status call none) owed free where
  users := behind.users
  logged := by
    rw [logged_logUsage, behind.logged]
    exact add_zero _
  missing := by
    rw [missing_logUsage_none]
    exact behind.missing

theorem row_error (behind : Behind prices before after owed free) (provider model : PyStr) :
    Behind prices before (after.logError provider model) owed free where
  users := behind.users
  logged := (logged_logError after provider model).trans behind.logged
  missing := by
    rw [TurnLedger.missing, logged_logError]
    exact behind.missing

/-- A response that was to be billed is not. -/
theorem forfeit (behind : Behind prices before after owed free) (nonneg : 0 ≤ owed) :
    Behind prices before after 0 (free ∧ owed = 0) where
  users := behind.users
  logged := behind.logged
  missing := by
    obtain ⟨a, a_nonneg, one, a_iff⟩ := behind.missing
    refine ⟨a + owed, add_nonneg a_nonneg nonneg, by rw [one, add_zero, add_assoc], ?_⟩
    rw [add_eq_zero_iff_of_nonneg a_nonneg nonneg, a_iff]

end Behind

/-! ### The charge -/

/-- The tier has a limit and the app draws on the account's allowance. -/
def TurnSettings.Shares (settings : TurnSettings) : Prop :=
  (settings.charge 0).effectiveLimit ≠ -1 ∧ settings.metersOnItsOwn = false

/-- The allowance of the account has been drawn down by what the rows say. -/
def Charged (settings : TurnSettings) (users : Users) (ledger : TurnLedger) : Prop :=
  ∀ account, users.get settings.userId = some account →
    ledger.users.get settings.userId = some (account.addCost ledger.logged)

section
variable {settings : TurnSettings} {users : Users} {ledger : TurnLedger}

/-- What puts no cost in the rows leaves the charge right. -/
theorem Charged.of_same {after : TurnLedger} (charged : Charged settings users ledger)
    (sameUsers : after.users = ledger.users) (sameLogged : after.logged = ledger.logged) :
    Charged settings users after := by
  intro account stored
  rw [sameUsers, sameLogged]
  exact charged account stored

/-- The cost that `bill` works with is that of the response: it is zero before there are prices. -/
theorem billed_cost (prices : PriceTable) (call : ModelCall) :
    (((if prices.isLoaded then some (call.cost prices) else none).map Cost.totalCost).getD 0) =
      (call.cost prices).totalCost := by
  cases loaded : prices.isLoaded with
  | true => rfl
  | false => exact (total_cost_of_not_loaded loaded _ _ _ _ _).symm

/-- A billed response is recorded and logged at the same cost. -/
theorem Charged.bill (charged : Charged settings users ledger) (shares : settings.Shares)
    (call : ModelCall) : Charged settings users (bill settings call ledger) := by
  intro account stored
  unfold Chat.bill
  simp only
  rw [logged_logUsage, billed_cost]
  change (recordCost (settings.charge _) ledger.users).get settings.userId =
    some (account.addCost (ledger.logged + (call.cost settings.prices).totalCost))
  have before := charged account stored
  have added : ∀ cost, account.addCost (ledger.logged + cost) =
      (account.addCost ledger.logged).addCost cost := by
    intro cost
    simp [Account.addCost, add_assoc]
  rw [added, recordCost]
  split
  · next skipped =>
    have free : (call.cost settings.prices).totalCost = 0 := by
      rcases skipped with unlimited | nothing | own
      · exact absurd unlimited shares.1
      · exact le_antisymm nothing (call.cost_nonneg settings.prices)
      · exact absurd (own.symm.trans shares.2) (by decide)
    rw [before, free, Account.addCost_zero, id]
  · change (ledger.users.update settings.userId _).get settings.userId = _
    rw [Table.get_update_self, before]
    rfl

theorem missing_bill (call : ModelCall) (ledger : TurnLedger) :
    (Chat.bill settings call ledger).missing settings.prices =
      ledger.missing settings.prices - (call.cost settings.prices).totalCost := by
  unfold Chat.bill
  simp only
  rw [missing_logUsage, billed_cost]
  rfl

end

/-! ### The legs -/

/-- A response that costs nothing. -/
def TurnSettings.Free (settings : TurnSettings) (response : ProviderResponse) : Prop :=
  ((settings.call response).cost settings.prices).totalCost = 0

/-- The cost of a response does not depend on its text. -/
theorem free_text (settings : TurnSettings) (response : ProviderResponse) (text : PyStr) :
    ((settings.call { response with text := text }).cost settings.prices) =
      (settings.call response).cost settings.prices := rfl

theorem behind_research (settings : TurnSettings) (answers : TurnAnswers) (ledger : TurnLedger) :
    Behind settings.prices ledger (researchLeg settings answers ledger) 0
      (∀ response, answers.research = some (.answered response) → settings.Free response) := by
  unfold researchLeg
  split
  · next response asked =>
    refine ((Behind.receive _).row _ _).congr ?_
    rw [asked]
    constructor
    · intro free response' same
      cases same
      exact free
    · exact fun each => each response rfl
  · next silent =>
    exact .refl fun response asked => absurd asked (silent response)

/-- What is still to be billed. -/
def TurnSettings.owed (settings : TurnSettings) (response : Option ProviderResponse) : ℚ :=
  (response.map fun r => ((settings.call r).cost settings.prices).totalCost).getD 0

theorem owed_text (settings : TurnSettings) (response : ProviderResponse) (text : PyStr) :
    settings.owed (some { response with text := text }) = settings.owed (some response) := rfl

section
variable [PyRuntime] (settings : TurnSettings) (answers : TurnAnswers)

/-- Of the first response and the one to the envelope retry, the one that is not billed. -/
def discarded (first : ProviderResponse) : RouteResult → ProviderResponse
  | .answered retry => if isEnvelope (stripJsonCodeFence retry.text) then first else retry
  | _ => first

theorem behind_build (ledger : TurnLedger) :
    Behind settings.prices ledger (buildLeg settings answers ledger).2
      (settings.owed (buildLeg settings answers ledger).1) True := by
  unfold buildLeg
  split
  · exact .owe _
  · exact (Behind.refl trivial).row_error settings.provider settings.model
  · exact .refl trivial

/-- The envelope retry leaves one of two responses to be billed, or none. -/
theorem behind_envelope {start ledger : TurnLedger} {response : ProviderResponse} {free : Prop}
    (behind : Behind settings.prices start ledger (settings.owed (some response)) free) :
    Behind settings.prices start (envelopeLeg settings answers response ledger).2
      (settings.owed (envelopeLeg settings answers response ledger).1)
      (free ∧ (asksAgain settings response.text = true →
        settings.Free (discarded response answers.envelope))) := by
  have nonneg : 0 ≤ settings.owed (some response) := (settings.call response).cost_nonneg _
  by_cases asks : asksAgain settings response.text = true
  · have kept := behind.row (py "envelope_retry") (settings.call response)
    unfold envelopeLeg
    rw [if_pos asks]
    simp only [asks, true_imp_iff]
    split
    · next retry answered =>
      rw [answered]
      by_cases object : isEnvelope (stripJsonCodeFence retry.text) = true
      · rw [if_pos object, discarded, if_pos object]
        have billed := (kept.forfeit nonneg).trans (.owe (settings.call retry))
        rw [zero_add] at billed
        exact billed.congr (and_iff_left trivial)
      · rw [if_neg object, discarded, if_neg object]
        have both := (kept.trans (.receive (settings.call retry))).row
          (py "envelope_retry_failed") (settings.call retry)
        rwa [add_zero] at both
    · next failed =>
      have same : discarded response answers.envelope = response := by
        cases answer : answers.envelope with
        | answered retry => exact absurd answer (failed retry)
        | httpError => rfl
        | otherError => rfl
      rw [same]
      exact kept.forfeit nonneg
  · have quiet := behind.congr (and_iff_left (fun asks' => absurd asks' asks :
      asksAgain settings response.text = true →
        settings.Free (discarded response answers.envelope))).symm
    unfold envelopeLeg
    rw [if_neg asks]
    split
    · split
      · exact quiet
      · exact quiet
    · exact quiet

/-! ### The guard retries -/

theorem behind_guardRetry {ι : Type} (refusal : Refusal ι) (kind : PyStr) (answer : RouteResult)
    (text : PyStr) (ledger : TurnLedger) :
    Behind settings.prices ledger (guardRetry refusal kind settings answer text ledger).2 0
      (refusal.refuses text = true → ∀ retry, answer = .answered retry → settings.Free retry) := by
  unfold guardRetry
  rw [refusal.refuses_iff]
  split
  · next raised => exact .refl fun ⟨_, refused⟩ => nomatch raised.symm.trans refused
  · next passed => exact .refl fun ⟨_, refused⟩ => nomatch passed.symm.trans refused
  · next info refused =>
    split
    · next retry =>
      have came : Behind settings.prices ledger (ledger.receive (settings.call retry)) 0
          ((∃ info, refusal.check text = some (some info)) → ∀ retry',
            RouteResult.answered retry = .answered retry' → settings.Free retry') := by
        refine (Behind.receive (settings.call retry)).congr ?_
        constructor
        · intro free _ retry' same
          cases same
          exact free
        · exact fun each => each ⟨info, refused⟩ retry rfl
      simp only
      split
      · exact came
      · exact came.row _ _
      · exact came.row _ _
    · next failed => exact .refl fun _ retry answered => absurd answered (failed retry)

/-- A guard returns the same text whatever has been logged. -/
theorem guardRetry_text {ι : Type} (refusal : Refusal ι) (kind : PyStr) (answer : RouteResult)
    (text : PyStr) (ledger ledger' : TurnLedger) :
    (guardRetry refusal kind settings answer text ledger).1 =
      (guardRetry refusal kind settings answer text ledger').1 := by
  unfold guardRetry
  split
  · rfl
  · rfl
  · split
    · simp only
      split <;> rfl
    · rfl

/-- Where a retry is answered, the guard is the refusal of the tail. -/
theorem guardRetry_eq_refuseAndRetry {ι : Type} (refusal : Refusal ι) (kind : PyStr)
    (retry : ProviderResponse) (text : PyStr) (ledger : TurnLedger) :
    (guardRetry refusal kind settings (.answered retry) text ledger).1 =
      refuseAndRetry refusal (some retry.text) text := by
  unfold guardRetry refuseAndRetry
  cases refusal.check text with
  | none => rfl
  | some checked =>
      cases checked with
      | none => rfl
      | some info =>
          simp only [Option.bind_eq_bind, Option.bind_some]
          cases refusal.accepts (retryText (some retry.text)) with
          | none => rfl
          | some accepted =>
              cases accepted with
              | true => rfl
              | false => cases refusal.giveUp info text <;> rfl

/-- A stage that refuses its text gets a retry that costs nothing, or none. -/
def RetryFree (stage : TailStage × RouteResult) (text : PyStr) : Prop :=
  stageRefuses settings.tail stage.1 text = true →
    ∀ retry, stage.2 = .answered retry → settings.Free retry

theorem behind_guardStage (stage : TailStage × RouteResult) (text : PyStr) (ledger : TurnLedger) :
    Behind settings.prices ledger (guardStage settings stage text ledger).2 0
      (RetryFree settings stage text) := by
  obtain ⟨stage, answer⟩ := stage
  cases stage <;> exact behind_guardRetry settings _ _ answer text ledger

/-- What a stage makes of the text. -/
def guardText (stage : TailStage × RouteResult) (text : PyStr) : Py PyStr :=
  (guardStage settings stage text ⟨[], [], .empty⟩).1

theorem guardStage_text (stage : TailStage × RouteResult) (text : PyStr) (ledger : TurnLedger) :
    (guardStage settings stage text ledger).1 = guardText settings stage text := by
  obtain ⟨stage, answer⟩ := stage
  cases stage <;> exact guardRetry_text settings _ _ answer text ledger _

/-- A stage whose retry is answered is the stage of the tail with that text. -/
theorem guardText_answered (stage : TailStage) (retry : ProviderResponse) (text : PyStr) :
    guardText settings (stage, .answered retry) text =
      tailStep settings.tail (stage, some retry.text) text := by
  cases stage <;> exact guardRetry_eq_refuseAndRetry settings _ _ retry text _

/-- The stages as a machine on the text of the turn. -/
def guardMachine : Machine PyStr (TailStage × RouteResult) := ⟨guardText settings⟩

theorem behind_guardStages (stages : List (TailStage × RouteResult)) (text : PyStr)
    (ledger : TurnLedger) :
    Behind settings.prices ledger (guardStages settings stages text ledger).2 0
      ((guardMachine settings).Along (RetryFree settings) stages text) := by
  induction stages generalizing text ledger with
  | nil => exact .refl trivial
  | cons stage stages ih =>
      have one := behind_guardStage settings stage text ledger
      have step := guardStage_text settings stage text ledger
      unfold guardStages
      split
      · next ledger' ran =>
        rw [ran] at one step
        refine one.congr (and_iff_left fun next taken => ?_).symm
        exact nomatch step.trans taken
      · next text' ledger' ran =>
        rw [ran] at one step
        have both := one.trans (ih text' ledger')
        rw [add_zero] at both
        exact both.congr
          (Machine.along_cons_iff (m := guardMachine settings) (P := RetryFree settings) step.symm).symm

/-- Up to the bill, the turn falls behind by the research and by the response that is discarded. -/
theorem behind_respond (ledger : TurnLedger) :
    Behind settings.prices ledger (respond settings answers ledger).2
      (settings.owed (respond settings answers ledger).1)
      ((∀ response, answers.research = some (.answered response) → settings.Free response) ∧
        ∀ response, answers.first = .answered response →
          asksAgain settings (stripJsonCodeFence response.text) = true →
            settings.Free (discarded response answers.envelope)) := by
  have built := (behind_research settings answers ledger).trans
    (behind_build settings answers (researchLeg settings answers ledger))
  rw [zero_add] at built
  unfold respond
  cases first : answers.first with
  | httpError =>
      rw [buildLeg, first] at built ⊢
      exact built.congr (and_congr_right fun _ => iff_of_true trivial (fun _ same => nomatch same))
  | otherError =>
      rw [buildLeg, first] at built ⊢
      exact built.congr (and_congr_right fun _ => iff_of_true trivial (fun _ same => nomatch same))
  | answered response =>
      rw [buildLeg, first] at built ⊢
      have textless : ∀ text, settings.Free (discarded { response with text := text }
          answers.envelope) ↔ settings.Free (discarded response answers.envelope) := by
        intro text
        unfold discarded
        split
        · split <;> exact Iff.rfl
        · exact Iff.rfl
      have same : (((∀ response, answers.research = some (.answered response) →
          settings.Free response) ∧ True) ∧
          (asksAgain settings (stripJsonCodeFence response.text) = true →
            settings.Free (discarded { response with text := stripJsonCodeFence response.text }
              answers.envelope))) ↔
          ((∀ response, answers.research = some (.answered response) → settings.Free response) ∧
            ∀ response', RouteResult.answered response = .answered response' →
              asksAgain settings (stripJsonCodeFence response'.text) = true →
                settings.Free (discarded response' answers.envelope)) := by
        rw [and_true, textless]
        refine and_congr_right fun _ => ⟨?_, fun each => each response rfl⟩
        intro each response' same
        cases same
        exact each
      have enveloped := (behind_envelope settings answers built).congr same
      simp only
      split
      · next ran =>
        rw [ran] at enveloped
        exact enveloped
      · next ran =>
        rw [ran] at enveloped
        exact enveloped

/-! ### The turn -/

/-- The ledger a turn starts with. -/
def TurnLedger.start (users : Users) : TurnLedger := ⟨[], [], users⟩

omit [PyRuntime] in
theorem missing_start (prices : PriceTable) (users : Users) :
    (TurnLedger.start users).missing prices = 0 := sub_self 0

/-- Each response the turn received is in its rows at what it cost, and so is what the account has
been charged. -/
def EveryCallMetered (users : Users) (ledger : TurnLedger) : Prop :=
  ledger.logged = ledger.spent settings.prices ∧
    (settings.Shares → ∀ account, users.get settings.userId = some account →
      ledger.users.get settings.userId =
        some (account.addCost (ledger.spent settings.prices)))

/-- No response besides the billed one cost anything. -/
structure NothingUnbilled (users : Users) : Prop where
  research : ∀ response, answers.research = some (.answered response) → settings.Free response
  envelope : ∀ response, answers.first = .answered response →
    asksAgain settings (stripJsonCodeFence response.text) = true →
      settings.Free (discarded response answers.envelope)
  guards : ∀ response, (respond settings answers (.start users)).1 = some response →
    response.text ≠ [] → settings.callType = py "n400_interviewer_turn" →
      (guardMachine settings).Along (RetryFree settings) answers.stages response.text

/-- The guards of a turn that is not the N-400 interviewer's are not run. -/
theorem behind_guardLeg (text : PyStr) (ledger : TurnLedger) :
    Behind settings.prices ledger (guardLeg settings answers text ledger).2 0
      (text ≠ [] → settings.callType = py "n400_interviewer_turn" →
        (guardMachine settings).Along (RetryFree settings) answers.stages text) := by
  unfold guardLeg
  split
  · next runs =>
    refine (behind_guardStages settings answers.stages text ledger).congr ?_
    exact ⟨fun along _ _ => along, fun along => along runs.1 runs.2⟩
  · next skipped => exact .refl fun spoken interview => absurd ⟨spoken, interview⟩ skipped

omit [PyRuntime] in
/-- The title is billed as it comes in. -/
theorem missing_titleLeg (text : PyStr) (ledger : TurnLedger) :
    (titleLeg settings answers text ledger).missing settings.prices =
      ledger.missing settings.prices := by
  unfold titleLeg
  split
  · split
    · rw [missing_bill, missing_receive]
      exact add_sub_cancel_right _ _
    · rfl
  · rfl

omit [PyRuntime] in
theorem charged_titleLeg {users : Users} {ledger : TurnLedger} (shares : settings.Shares)
    (charged : Charged settings users ledger) (text : PyStr) :
    Charged settings users (titleLeg settings answers text ledger) := by
  unfold titleLeg
  split
  · split
    · exact (charged.of_same rfl rfl).bill shares _
    · exact charged
  · exact charged

omit [PyRuntime] in
theorem charged_start (users : Users) : Charged settings users (.start users) := by
  intro account stored
  have nothing : account.addCost (TurnLedger.start users).logged = account := by
    exact congrFun Account.addCost_zero account
  rw [nothing]
  exact stored

/-- A turn leaves missing what it received besides the billed responses, and the charge is what the
rows say. -/
theorem missing_runTurnTail (users : Users) :
    ((runTurnTail settings answers (.start users)).missing settings.prices = 0 ↔
        NothingUnbilled settings answers users) ∧
      (settings.Shares → Charged settings users (runTurnTail settings answers (.start users))) := by
  have upToBill := behind_respond settings answers (.start users)
  have started := charged_start settings users
  obtain ⟨a, a_nonneg, missing, a_iff⟩ := upToBill.missing
  rw [missing_start, zero_add] at missing
  have parts : NothingUnbilled settings answers users ↔ a = 0 ∧
      ∀ response, (respond settings answers (.start users)).1 = some response →
        response.text ≠ [] → settings.callType = py "n400_interviewer_turn" →
          (guardMachine settings).Along (RetryFree settings) answers.stages response.text := by
    rw [a_iff, and_assoc]
    exact ⟨fun free => ⟨free.research, free.envelope, free.guards⟩,
      fun ⟨research, envelope, guards⟩ => ⟨research, envelope, guards⟩⟩
  rw [parts]
  unfold runTurnTail
  split
  · next ledger failed =>
    rw [failed] at missing upToBill
    have nothing : ledger.missing settings.prices = a := missing.trans (add_zero a)
    refine ⟨?_, fun _ => started.of_same upToBill.users upToBill.logged⟩
    rw [nothing, failed]
    exact (and_iff_left fun response answered => nomatch answered).symm
  · next response ledger answered =>
    rw [answered] at missing upToBill
    -- The bill takes the response off what is missing; the guards add to it.
    have billed : (bill settings (settings.call response) ledger).missing settings.prices = a := by
      rw [missing_bill, missing]
      exact add_sub_cancel_right _ _
    have charged : settings.Shares →
        Charged settings users (bill settings (settings.call response) ledger) := fun shares =>
      (started.of_same upToBill.users upToBill.logged).bill shares _
    have guarded := behind_guardLeg settings answers response.text
      (bill settings (settings.call response) ledger)
    obtain ⟨b, b_nonneg, more, b_iff⟩ := guarded.missing
    rw [billed, add_zero] at more
    have exactly : a + b = 0 ↔ a = 0 ∧
        ∀ response', (some response, ledger).1 = some response' → response'.text ≠ [] →
          settings.callType = py "n400_interviewer_turn" →
            (guardMachine settings).Along (RetryFree settings) answers.stages response'.text := by
      rw [add_eq_zero_iff_of_nonneg a_nonneg b_nonneg, b_iff]
      refine and_congr_right fun _ => ⟨?_, fun each => each response rfl⟩
      intro along response' same
      cases same
      exact along
    rw [answered, ← exactly, ← more]
    split
    · next stopped =>
      rw [stopped] at guarded ⊢
      exact ⟨Iff.rfl, fun shares => (charged shares).of_same guarded.users guarded.logged⟩
    · next text ledger' passed =>
      rw [passed] at guarded ⊢
      rw [missing_titleLeg]
      exact ⟨Iff.rfl, fun shares => charged_titleLeg settings answers shares
        ((charged shares).of_same guarded.users guarded.logged) text⟩

end

/-- A build that researches first, with a model that has a price. -/
def researchedBuild : TurnSettings where
  prices := [(py "claude-sonnet-4-6", ⟨3 / 1000000, 15 / 1000000, 0, 0, 0⟩)]
  userId := py "user-1"
  tier := ⟨10, none, [], []⟩
  isTrial := false
  metersOnItsOwn := false
  provider := py "anthropic"
  model := py "claude-sonnet-4-6"
  callType := py "artifact_generation"
  titled := false
  tail := ⟨none, none⟩
  polish := id
  finish := some

/-- Both legs are answered. -/
def researchedAnswers : TurnAnswers where
  research := some (.answered ⟨py "findings", none, some 20000, some 1500⟩)
  first := .answered ⟨py "the file", none, some 4000, some 2000⟩
  envelope := .otherError
  checkpoint := .otherError
  oath := .otherError
  closing := .otherError
  dates := .otherError
  title := .otherError

end GhostPour.Chat
