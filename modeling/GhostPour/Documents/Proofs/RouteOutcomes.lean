/-
Module: GhostPour.Documents.Proofs.RouteOutcomes
Layer: Proofs
Purpose: Where routing an ask ends. What only the sandbox can do goes to the provider whatever the classifier
  said, and a route to the contracts names one of them or asks between two or three, except where the
  classifier is unsure of the only contract that anything speaks for.
Trusted boundary: none
Main exports: Settles, LoneReading, routeScored_settles, routeClassified_settles_iff, route_settles_iff
-/
import GhostPour.Documents.ArtifactRouting

namespace GhostPour.Documents.Artifacts

open Regex

/-! ### Scores -/

theorem contractNames_nodup : contractNames.Nodup := by decide +kernel

section
variable [PyRuntime]

theorem scores_perm (text : PyStr) : (scoreContracts text).Perm
    ((contracts.map fun c => (c.name, hintScore (lower text) c)).filter (·.2 ≠ 0)) :=
  List.perm_insertionSort _ _

/-- Only contracts are scored, -/
theorem mem_contractNames_of_scores {text : PyStr} {s : PyStr × Nat} (scored : s ∈ scoreContracts text) :
    s.1 ∈ contractNames := by
  have member := List.mem_of_mem_filter ((scores_perm text).mem_iff.mp scored)
  obtain ⟨c, inside, rfl⟩ := List.mem_map.mp member
  exact List.mem_map_of_mem inside

/-- each of them once, -/
theorem scores_nodup (text : PyStr) : ((scoreContracts text).map Prod.fst).Nodup := by
  have names : ((contracts.map fun c => (c.name, hintScore (lower text) c)).map Prod.fst).Nodup := by
    rw [List.map_map]
    exact contractNames_nodup
  exact ((scores_perm text).map Prod.fst).nodup_iff.mpr (names.sublist (List.filter_sublist.map Prod.fst))

/-- and the highest first. -/
theorem scores_sorted (text : PyStr) : (scoreContracts text).Pairwise fun a b => b.2 ≤ a.2 := by
  have total : Std.Total fun a b : PyStr × Nat => b.2 ≤ a.2 := ⟨fun a b => le_total b.2 a.2⟩
  have trans : IsTrans (PyStr × Nat) fun a b => b.2 ≤ a.2 := ⟨fun a b c ab bc => bc.trans ab⟩
  exact List.pairwise_insertionSort _ _

/-! ### Where a route ends -/

/-- A route to the contracts names one of them, or asks between two or three. -/
def Settles (r : Route) : Prop :=
  r.lane = .contract →
    (∃ name ∈ contractNames, r.contract = some name ∧ r.candidates = []) ∨
    r.contract = none ∧ r.needsQuestion = true ∧ (r.candidates.length = 2 ∨ r.candidates.length = 3) ∧
      r.candidates.Nodup ∧ ∀ name ∈ r.candidates, name ∈ contractNames

omit [PyRuntime] in
/-- A list of two or three contracts is a question. -/
theorem settles_question {r : Route} (open_ : r.contract = none) (two : 2 ≤ r.candidates.length)
    (three : r.candidates.length ≤ 3) (distinct : r.candidates.Nodup)
    (registered : ∀ name ∈ r.candidates, name ∈ contractNames) : Settles r :=
  fun _ => .inr ⟨open_, decide_eq_true (by omega), by omega, distinct, registered⟩

/-- What is asked after the scores is close to the best one, which is not alone. -/
theorem routeScored_settles (q : Ask) : Settles (routeScored q (scoreContracts q.text)) := by
  have registered : ∀ s ∈ scoreContracts q.text, s.1 ∈ contractNames :=
    fun s scored => mem_contractNames_of_scores scored
  have distinct := scores_nodup q.text
  have sorted := scores_sorted q.text
  generalize scoreContracts q.text = scores at registered distinct sorted
  cases scores with
  | nil =>
      intro here
      by_cases table : q.fmt = some (py "xlsx") ∨ found tabular q.text
      · rw [routeScored, if_pos table] at here
        cases here
      · rw [routeScored, if_neg table] at here
        cases here
  | cons top rest =>
      rw [routeScored]
      split
      · exact fun _ => .inl ⟨top.1, registered top List.mem_cons_self, rfl, rfl⟩
      · next close =>
        cases rest with
        | nil => exact absurd (.inl (Nat.zero_le _)) close
        | cons second rest =>
            have above := (List.pairwise_cons.mp sorted).1 second List.mem_cons_self
            have both : (((top :: second :: rest).filter fun s => second.2 ≤ s.2).map Prod.fst) =
                top.1 :: second.1 :: ((rest.filter fun s => second.2 ≤ s.2).map Prod.fst) := by
              rw [List.filter_cons_of_pos (by simpa using above), List.filter_cons_of_pos (by simp)]
              rfl
            apply settles_question
            · rfl
            · change 2 ≤ (List.take 3 (((top :: second :: rest).filter fun s => second.2 ≤ s.2).map
                Prod.fst)).length
              rw [both]
              simp
            · exact List.length_take_le 3 _
            · exact distinct.sublist ((List.take_sublist 3 _).trans (List.filter_sublist.map Prod.fst))
            · intro name asked
              obtain ⟨s, inside, rfl⟩ := List.mem_map.mp (List.mem_of_mem_take asked)
              exact registered s (List.mem_of_mem_filter inside)

/-- The classifier's contract settles the ask unless it is unsure and no other contract is scored. -/
theorem routeClassified_settles_iff (q : Ask) {artifact : PyStr} (known : artifact ∈ contractNames) :
    Settles (routeClassified q artifact (scoreContracts q.text)) ↔
      ¬(q.modelConfidence = py "low" ∧ ∀ s ∈ scoreContracts q.text, s.1 = artifact) := by
  have registered : ∀ s ∈ scoreContracts q.text, s.1 ∈ contractNames :=
    fun s scored => mem_contractNames_of_scores scored
  have distinct := scores_nodup q.text
  generalize scoreContracts q.text = scores at registered distinct
  have shape (others : List PyStr) : (artifact :: others.take 2).take 3 = artifact :: others.take 2 := by
    rw [List.take_succ_cons, List.take_take, min_self]
  by_cases lone : ∀ s ∈ scores, s.1 = artifact
  · have none_ : (scores.map Prod.fst).filter (· ≠ artifact) = [] := by
      rw [List.filter_eq_nil_iff]
      intro name member
      obtain ⟨s, inside, rfl⟩ := List.mem_map.mp member
      simp [lone s inside]
    have agrees : (scores.head?.any fun top => top.1 ≠ artifact && 9 ≤ top.2) = false := by
      cases scores with
      | nil => rfl
      | cons top rest => simp [lone top List.mem_cons_self]
    by_cases low : q.modelConfidence = py "low"
    · refine iff_of_false (fun settles => ?_) (not_not.mpr ⟨low, lone⟩)
      have dead : routeClassified q artifact scores =
          { lane := .contract, reason := .ambiguousArtifact, candidates := [artifact], scores := scores } := by
        rw [routeClassified, if_pos (by rw [low]; simp), none_]
        rfl
      rw [dead] at settles
      rcases settles rfl with ⟨name, _, named, _⟩ | ⟨_, question, _⟩
      · cases named
      · cases question
    · refine iff_of_true ?_ fun both => low both.1
      rw [routeClassified, agrees, if_neg (by simpa using low)]
      exact fun _ => .inl ⟨artifact, known, rfl, rfl⟩
  · refine iff_of_true ?_ fun both => lone both.2
    push Not at lone
    obtain ⟨s, inside, other⟩ := lone
    rw [routeClassified]
    split
    · apply settles_question
      · rfl
      · change 2 ≤ (List.take 3 (artifact :: ((scores.map Prod.fst).filter (· ≠ artifact)).take 2)).length
        have some_ : s.1 ∈ (scores.map Prod.fst).filter (· ≠ artifact) :=
          List.mem_filter.mpr ⟨List.mem_map_of_mem inside, decide_eq_true other⟩
        have longer := List.length_pos_of_mem some_
        rw [shape, List.length_cons, List.length_take]
        omega
      · exact List.length_take_le 3 _
      · dsimp only
        rw [shape, List.nodup_cons]
        refine ⟨fun member => ?_, (distinct.filter _).sublist (List.take_sublist 2 _)⟩
        have differs := (List.mem_filter.mp (List.mem_of_mem_take member)).2
        simp at differs
      · dsimp only
        rw [shape, List.forall_mem_cons]
        refine ⟨known, fun name member => ?_⟩
        obtain ⟨t, scored, rfl⟩ := List.mem_map.mp (List.mem_filter.mp (List.mem_of_mem_take member)).1
        exact registered t scored
    · exact fun _ => .inl ⟨artifact, known, rfl, rfl⟩

/-! ### The gates -/

/-- No gate sends an ask to the contracts. -/
theorem gate_lane {q : Ask} {r : Route} (settled : gate q = some r) : r.lane ≠ .contract := by
  have other {t : Route} (lane : t.lane ≠ .contract) (is : some t = some r) : r.lane ≠ .contract := by
    cases is
    exact lane
  have template : Lane.template ≠ .contract := by decide
  have provider : Lane.provider ≠ .contract := by decide
  have mixed : Lane.mixed ≠ .contract := by decide
  have nothing : Lane.nothing ≠ .contract := by decide
  rw [gate] at settled
  by_cases blank : strip q.text = []
  · rw [if_pos blank] at settled
    exact other provider settled
  rw [if_neg blank] at settled
  by_cases chat : q.isFileRequest = some false
  · rw [if_pos chat] at settled
    exact other nothing settled
  rw [if_neg chat] at settled
  cases blocked : requiresProvider q.text q.hasAttachment with
  | some reason =>
      rw [blocked] at settled
      exact other provider settled
  | none =>
      rw [blocked] at settled
      dsimp only at settled
      by_cases foreign : q.fmt.any (· ∉ renderableFormats) = true
      · rw [if_pos foreign] at settled
        exact other provider settled
      rw [if_neg foreign] at settled
      cases matched : matchTemplate q.text q.fmt with
      | some id =>
          rw [matched] at settled
          exact other template settled
      | none =>
          rw [matched] at settled
          dsimp only at settled
          by_cases plan : ambiguousPlanAsk q.text q.fmt = true
          · rw [if_pos plan] at settled
            cases reading : q.modelArtifact.filter (· ∈ contractNames) with
            | none =>
                rw [reading] at settled
                exact other template settled
            | some artifact =>
                rw [reading] at settled
                dsimp only at settled
                split_ifs at settled
                · exact other mixed settled
                · exact other template settled
          · rw [if_neg plan] at settled
            cases settled

/-- What only the sandbox can do goes there. -/
theorem route_of_requiresProvider {q : Ask} (blocked : requiresProvider q.text q.hasAttachment ≠ none)
    (request : q.isFileRequest ≠ some false) : (route q).lane = .provider := by
  obtain ⟨reason, found⟩ := Option.ne_none_iff_exists'.mp blocked
  have gated : ∃ why, gate q = some { lane := .provider, reason := why } := by
    rw [gate]
    by_cases blank : strip q.text = []
    · exact ⟨_, if_pos blank⟩
    · rw [if_neg blank, if_neg request, found]
      exact ⟨_, rfl⟩
  obtain ⟨why, settled⟩ := gated
  rw [route, settled]

/-- The classifier is unsure of a contract, and the text speaks for no other. -/
def LoneReading (q : Ask) : Prop :=
  ∃ artifact ∈ contractNames, q.modelArtifact = some artifact ∧ q.modelConfidence = py "low" ∧
    ∀ s ∈ scoreContracts q.text, s.1 = artifact

theorem route_settles (q : Ask) : Settles (route q) ↔ ¬(gate q = none ∧ LoneReading q) := by
  unfold route
  cases gated : gate q with
  | some r => exact iff_of_true (fun here => absurd here (gate_lane gated)) (by simp)
  | none =>
      dsimp only
      cases reading : q.modelArtifact.filter (· ∈ contractNames) with
      | none =>
          refine iff_of_true (routeScored_settles q) ?_
          rintro ⟨_, artifact, known, named, _⟩
          rw [named, Option.filter_some, if_pos (decide_eq_true known)] at reading
          cases reading
      | some artifact =>
          obtain ⟨named, known⟩ := Option.filter_eq_some_iff.mp reading
          rw [decide_eq_true_eq] at known
          dsimp only
          rw [routeClassified_settles_iff q known, not_iff_not]
          constructor
          · rintro ⟨low, lone⟩
            exact ⟨rfl, artifact, known, named, low, lone⟩
          · rintro ⟨_, other, _, named', low, lone⟩
            cases named.symm.trans named'
            exact ⟨low, lone⟩

/-- Routing ends in a contract, a question or another lane unless the classifier is unsure of the only
contract that anything speaks for; what only the sandbox can do always goes there. -/
theorem route_settles_iff (q : Ask) :
    Settles (route q) ∧ (requiresProvider q.text q.hasAttachment ≠ none → q.isFileRequest ≠ some false →
      (route q).lane = .provider) ↔ ¬(gate q = none ∧ LoneReading q) := by
  rw [and_iff_left fun blocked request => route_of_requiresProvider blocked request]
  exact route_settles q

end

/-- An ask in words that no hint has. -/
def unsureAsk : Ask where
  text := py "just show me who is on the hook for stuff"
  fmt := some (py "xlsx")
  modelArtifact := some (py "action_register")
  modelConfidence := py "low"
  isFileRequest := some true

/-- What the classifier reads with low confidence, and nothing else speaks for, is neither built nor asked. -/
theorem unsure_reading_dead : letI := PyRuntime.ascii
    ¬Settles (route unsureAsk) := by
  let _ := PyRuntime.ascii
  have dead : route unsureAsk =
      { lane := .contract, reason := .ambiguousArtifact, candidates := [py "action_register"] } := by
    decide +kernel
  rw [dead]
  intro settles
  rcases settles rfl with ⟨name, _, named, _⟩ | ⟨_, question, _⟩
  · cases named
  · cases question

end GhostPour.Documents.Artifacts
