/-
Module: GhostPour.Library.TopologicalSort
Layer: Library
Purpose: Relations whose chains come to an end, and Kahn's algorithm: nodes whose prerequisites are
  all taken are taken one after another, and a counter tells whether the run took every node. It did
  exactly when no node is its own prerequisite, directly or through others.
Trusted boundary: none
Main exports: acc_of_acyclic, not_transGen_of_acc, TopologicalSort.visitsAll,
  TopologicalSort.visitsAll_iff_acc, TopologicalSort.visitsAll_iff_acyclic
-/
import Mathlib

namespace GhostPour

section Chains

variable {κ : Type} {r : κ → κ → Prop}

/-- An element whose chains all end is on no cycle. -/
theorem not_transGen_of_acc {v : κ} (ends : Acc (fun d v => r v d) v) : ¬Relation.TransGen r v v := by
  have ends' := ends.transGen
  induction ends' with
  | intro v _ ih =>
      intro circular
      exact ih v (Relation.transGen_swap.mp circular) ends circular

/-- Among finitely many elements, chains end where there are no cycles. -/
theorem acc_of_acyclic {nodes : List κ} (closed : ∀ v ∈ nodes, ∀ d, r v d → d ∈ nodes)
    (acyclic : ∀ v ∈ nodes, ¬Relation.TransGen r v v) {v : κ} (member : v ∈ nodes) :
    Acc (fun d v => r v d) v := by
  let below : {v // v ∈ nodes} → {v // v ∈ nodes} → Prop := fun d v => Relation.TransGen r v.1 d.1
  have : IsTrans _ below := ⟨fun _ _ _ first second => second.trans first⟩
  have : Std.Irrefl below := ⟨fun v circular => acyclic v.1 v.2 circular⟩
  have : Finite {v // v ∈ nodes} := List.finite_toSet nodes
  have ends : Acc below ⟨v, member⟩ := (Finite.wellFounded_of_trans_of_irrefl below).apply _
  have lower : ∀ node : {v // v ∈ nodes}, Acc below node → Acc (fun d v => r v d) node.1 := by
    intro node ends
    induction ends with
    | intro node _ ih =>
        constructor
        intro d step
        exact ih ⟨d, closed node.1 node.2 d step⟩ (Relation.TransGen.single step)
  exact lower _ ends

end Chains

namespace TopologicalSort

variable {κ : Type} [DecidableEq κ] (nodes : List κ) (deps : κ → List κ)

/-- The state of the loop: how many prerequisites a node waits for, the nodes that wait for none
    with the next one first, and how many nodes were taken. -/
structure State (κ : Type) where
  indegree : κ → Nat
  queue : List κ
  seen : Nat

/-- One prerequisite of a node is taken. -/
def release (s : State κ) (v : κ) : State κ :=
  let left := s.indegree v - 1
  { s with
    indegree := Function.update s.indegree v left
    queue := if left = 0 then v :: s.queue else s.queue }

/-- The nodes that wait for a node, each as often as it names it. -/
def dependents (u : κ) : List κ := nodes.flatMap fun v => List.replicate ((deps v).count u) v

/-- The loop, for at most so many rounds. -/
def drain : Nat → State κ → State κ
  | 0, s => s
  | rounds + 1, s =>
      match s.queue with
      | [] => s
      | u :: rest =>
          drain rounds
            ((dependents nodes deps u).foldl release { s with queue := rest, seen := s.seen + 1 })

/-- The state before the loop. -/
def begin : State κ where
  indegree v := (deps v).length
  queue := (nodes.filter fun v => (deps v).length = 0).reverse
  seen := 0

/-- Whether the loop takes every node. -/
def visitsAll : Bool := (drain nodes deps nodes.length (begin nodes deps)).seen = nodes.length

/-! ### One round -/

/-- Releasing one node again and again. -/
theorem foldl_release_replicate (s : State κ) (v : κ) {n : Nat} (le : n ≤ s.indegree v) :
    (List.replicate n v).foldl release s =
      { indegree := Function.update s.indegree v (s.indegree v - n)
        queue := if 0 < n ∧ n = s.indegree v then v :: s.queue else s.queue
        seen := s.seen } := by
  induction n generalizing s with
  | zero => simp
  | succ n ih =>
      rw [List.replicate_succ, List.foldl_cons, ih]
      · simp only [release, Function.update_self, Function.update_idem, State.mk.injEq, and_true]
        constructor
        · congr 1
          omega
        · by_cases last : n + 1 = s.indegree v
          · have freed : 0 < n + 1 ∧ n + 1 = s.indegree v := ⟨n.succ_pos, last⟩
            rw [show s.indegree v - 1 = n by omega, if_pos freed]
            cases n with
            | zero => simp
            | succ n => simp
          · have left : n ≠ s.indegree v - 1 := by omega
            have more : s.indegree v - 1 ≠ 0 := by omega
            simp [left, more, last]
      · simp only [release, Function.update_self]
        omega

/-- Releasing each node a number of times: the counters go down, and the nodes whose counter
    reaches 0 join the queue. -/
theorem foldl_release_flatMap (s : State κ) {among : List κ} (nodup : among.Nodup) (times : κ → Nat)
    (le : ∀ v ∈ among, times v ≤ s.indegree v) :
    (among.flatMap fun v => List.replicate (times v) v).foldl release s =
      { indegree := fun v => if v ∈ among then s.indegree v - times v else s.indegree v
        queue := (among.filter fun v => 0 < times v ∧ times v = s.indegree v).reverse ++ s.queue
        seen := s.seen } := by
  induction among generalizing s with
  | nil => simp
  | cons v among ih =>
      obtain ⟨fresh, nodup⟩ := List.nodup_cons.mp nodup
      have other : ∀ w ∈ among, w ≠ v := fun w member same => fresh (same ▸ member)
      rw [List.flatMap_cons, List.foldl_append,
        foldl_release_replicate s v (le v List.mem_cons_self), ih _ nodup]
      · simp only [State.mk.injEq, and_true]
        constructor
        · funext w
          by_cases same : w = v
          · subst same
            simp [fresh]
          · simp [same]
        · have kept : (among.filter fun w => 0 < times w ∧
              times w = Function.update s.indegree v (s.indegree v - times v) w) =
              among.filter fun w => 0 < times w ∧ times w = s.indegree w :=
            List.filter_congr fun w member => by rw [Function.update_of_ne (other w member)]
          rw [kept, List.filter_cons]
          by_cases freed : 0 < times v ∧ times v = s.indegree v
          · rw [if_pos freed, if_pos (decide_eq_true freed), List.reverse_cons, List.append_assoc]
            rfl
          · rw [if_neg freed, if_neg fun h => freed (of_decide_eq_true h)]
      · intro w member
        change times w ≤ Function.update s.indegree v _ w
        rw [Function.update_of_ne (other w member)]
        exact le w (List.mem_cons_of_mem _ member)

/-- Taking one more node takes its mentions off what is left to wait for. -/
theorem length_filter_cons (waits : List κ) {taken : List κ} {u : κ} (fresh : u ∉ taken) :
    (waits.filter (· ∉ taken)).length = (waits.filter (· ∉ u :: taken)).length + waits.count u := by
  induction waits with
  | nil => rfl
  | cons d waits ih =>
      by_cases same : d = u
      · subst same
        rw [List.filter_cons_of_pos (by simpa using fresh), List.filter_cons_of_neg (by simp),
          List.count_cons_self, List.length_cons, ih, Nat.add_assoc]
      · rw [List.count_cons_of_ne same]
        by_cases old : d ∈ taken
        · rw [List.filter_cons_of_neg (by simpa using old),
            List.filter_cons_of_neg (by simp [old]), ih]
        · rw [List.filter_cons_of_pos (by simpa using old),
            List.filter_cons_of_pos (by simpa using ⟨same, old⟩), List.length_cons, List.length_cons,
            ih, Nat.add_right_comm]

/-! ### The loop -/

/-- What holds between the rounds, after the nodes of a list were taken. -/
structure Running (taken : List κ) (s : State κ) : Prop where
  counted : s.seen = taken.length
  nodup : (taken ++ s.queue).Nodup
  within : ∀ v ∈ taken ++ s.queue, v ∈ nodes
  waits : ∀ v ∈ nodes, s.indegree v = ((deps v).filter (· ∉ taken)).length
  ready : ∀ v ∈ nodes, s.indegree v = 0 ↔ v ∈ taken ++ s.queue
  ends : ∀ v ∈ taken, Acc (fun d v => d ∈ deps v) v

variable {nodes deps}

theorem Running.begin (nodup : nodes.Nodup) : Running nodes deps [] (begin nodes deps) where
  counted := rfl
  nodup := by
    simp only [TopologicalSort.begin, List.nil_append, List.nodup_reverse]
    exact nodup.filter _
  within v member := by
    simp only [TopologicalSort.begin, List.nil_append, List.mem_reverse] at member
    exact List.mem_of_mem_filter member
  waits v _ := by simp [TopologicalSort.begin]
  ready v member := by simp [TopologicalSort.begin, member]
  ends v member := absurd member List.not_mem_nil

/-- One round takes the first node of the queue. -/
theorem Running.step (nodup : nodes.Nodup) {taken rest : List κ} {s : State κ} {u : κ}
    (running : Running nodes deps taken s) (next : s.queue = u :: rest) :
    Running nodes deps (u :: taken)
      ((dependents nodes deps u).foldl release { s with queue := rest, seen := s.seen + 1 }) := by
  have queued : u ∈ taken ++ s.queue := by rw [next]; simp
  have fresh : u ∉ taken := by
    have apart := running.nodup
    rw [next, List.nodup_append] at apart
    exact fun member => apart.2.2 u member u List.mem_cons_self rfl
  have fewer : ∀ v ∈ nodes, s.indegree v =
      ((deps v).filter (· ∉ u :: taken)).length + (deps v).count u := fun v member => by
    rw [running.waits v member, length_filter_cons _ fresh]
  have same : ∀ v, v ∈ u :: taken ++ rest ↔ v ∈ taken ++ s.queue := fun v => by
    rw [next]
    simp only [List.cons_append, List.mem_cons, List.mem_append]
    tauto
  rw [dependents, foldl_release_flatMap _ nodup]
  · constructor
    · exact congrArg (· + 1) running.counted
    · rw [(List.Perm.append (List.Perm.refl (u :: taken)) ((List.reverse_perm _).append_right _)).nodup_iff,
        (List.perm_append_comm_assoc _ _ _).nodup_iff, List.nodup_append]
      refine ⟨nodup.filter _, ?_, ?_⟩
      · have apart := running.nodup
        rw [next] at apart
        exact List.perm_middle.nodup_iff.mp apart
      · intro v freed w old same'
        subst same'
        obtain ⟨member, freed⟩ := List.mem_filter.mp freed
        obtain ⟨some_, all⟩ := of_decide_eq_true freed
        have zero : s.indegree v = 0 := (running.ready v member).mpr ((same v).mp (by simpa using old))
        rw [all, zero] at some_
        exact absurd some_ (Nat.lt_irrefl 0)
    · intro v member
      simp only [List.mem_append, List.mem_reverse] at member
      rcases member with taken' | freed | later
      · exact running.within v ((same v).mp (List.mem_append_left _ taken'))
      · exact List.mem_of_mem_filter freed
      · exact running.within v ((same v).mp (List.mem_append_right _ later))
    · intro v member
      simp only [if_pos member, fewer v member, Nat.add_sub_cancel]
    · intro v member
      have ready := running.ready v member
      have fewer := fewer v member
      rw [← same v, List.mem_append] at ready
      simp only [List.mem_append, List.mem_reverse, List.mem_filter, member, true_and, if_true,
        decide_eq_true_eq]
      constructor
      · intro none_
        by_cases zero : s.indegree v = 0
        · exact (ready.mp zero).imp_right Or.inr
        · exact Or.inr (Or.inl (by omega))
      · rintro (taken' | freed | later)
        · rw [ready.mpr (Or.inl taken'), Nat.zero_sub]
        · omega
        · rw [ready.mpr (Or.inr later), Nat.zero_sub]
    · intro v member
      rcases List.mem_cons.mp member with rfl | old
      · have zero := (running.ready v (running.within v queued)).mpr queued
        rw [running.waits v (running.within v queued), List.length_eq_zero_iff,
          List.filter_eq_nil_iff] at zero
        exact ⟨_, fun d waits => running.ends d (by simpa using zero d waits)⟩
      · exact running.ends v old
  · intro v member
    exact (fewer v member).symm ▸ Nat.le_add_left _ _

/-- The loop runs until its rounds are used up or the queue is empty. -/
theorem Running.drain (nodup : nodes.Nodup) {taken : List κ} {s : State κ}
    (running : Running nodes deps taken s) (rounds : Nat) :
    ∃ taken', Running nodes deps taken' (drain nodes deps rounds s) ∧
      ((drain nodes deps rounds s).queue = [] ∨
        (drain nodes deps rounds s).seen = s.seen + rounds) := by
  induction rounds generalizing taken s with
  | zero => exact ⟨taken, running, Or.inr rfl⟩
  | succ rounds ih =>
      cases next : s.queue with
      | nil =>
          have stays : TopologicalSort.drain nodes deps (rounds + 1) s = s := by
            rw [TopologicalSort.drain, next]
          rw [stays]
          exact ⟨taken, running, Or.inl next⟩
      | cons u rest =>
          have goes : TopologicalSort.drain nodes deps (rounds + 1) s =
              TopologicalSort.drain nodes deps rounds ((dependents nodes deps u).foldl release
                { s with queue := rest, seen := s.seen + 1 }) := by
            rw [TopologicalSort.drain, next]
          have after := running.step nodup next
          obtain ⟨taken', running', how⟩ := ih after
          rw [goes]
          refine ⟨taken', running', how.imp_right fun used => ?_⟩
          rw [used, after.counted, List.length_cons, ← running.counted]
          omega

/-- Every node was taken when the counter says so. -/
theorem Running.mem_of_seen {taken : List κ} {s : State κ} (running : Running nodes deps taken s)
    (all : s.seen = nodes.length) {v : κ} (member : v ∈ nodes) : v ∈ taken := by
  have part : taken ⊆ nodes := fun v taken' => running.within v (List.mem_append_left _ taken')
  have apart : taken.Nodup := (List.nodup_append.mp running.nodup).1
  exact (apart.subperm part).perm_of_length_le (by rw [← all, running.counted]) |>.mem_iff.mpr member

/-- The loop takes every node exactly when the prerequisites of every node come to an end. -/
theorem visitsAll_iff_acc (nodup : nodes.Nodup) (closed : ∀ v ∈ nodes, ∀ d ∈ deps v, d ∈ nodes) :
    visitsAll nodes deps = true ↔ ∀ v ∈ nodes, Acc (fun d v => d ∈ deps v) v := by
  obtain ⟨taken, running, how⟩ := (Running.begin nodup : Running nodes deps [] _).drain nodup nodes.length
  unfold visitsAll
  rw [decide_eq_true_eq]
  constructor
  · intro all v member
    exact running.ends v (running.mem_of_seen all member)
  · intro ends
    rcases how with empty | used
    · have all : ∀ v, Acc (fun d v => d ∈ deps v) v → v ∈ nodes → v ∈ taken := by
        intro v ends
        induction ends with
        | intro v _ ih =>
            intro member
            have zero : ((deps v).filter (· ∉ taken)).length = 0 := by
              rw [List.length_eq_zero_iff, List.filter_eq_nil_iff]
              intro d waits
              simpa using ih d waits (closed v member d waits)
            have ready := (running.ready v member).mp ((running.waits v member).trans zero)
            rwa [empty, List.append_nil] at ready
      rw [running.counted]
      have apart : taken.Nodup := (List.nodup_append.mp running.nodup).1
      exact le_antisymm
        (apart.subperm fun v taken' => running.within v (List.mem_append_left _ taken')).length_le
        (nodup.subperm fun v member => all v (ends v member) member).length_le
    · rw [used]
      exact Nat.zero_add _

/-- The loop takes every node exactly when no node is its own prerequisite through any others. -/
theorem visitsAll_iff_acyclic (nodup : nodes.Nodup) (closed : ∀ v ∈ nodes, ∀ d ∈ deps v, d ∈ nodes) :
    visitsAll nodes deps = true ↔ ∀ v ∈ nodes, ¬Relation.TransGen (fun v d => d ∈ deps v) v v := by
  rw [visitsAll_iff_acc nodup closed]
  exact ⟨fun ends v member => not_transGen_of_acc (ends v member),
    fun acyclic v member => acc_of_acyclic closed acyclic member⟩

end TopologicalSort

end GhostPour
