/-
Module: GhostPour.Billing.Proofs.AccountComponents
Layer: Proofs
Purpose: The groups of accounts are the connected components of the links, whatever the order of the
  rows. A group is named after the account its plan moved to last, as long as each move lands on an
  account that is new to the links or already names its group.
Trusted boundary: none
Main exports: groups_are_components, group_named_by_holder_iff
-/
import GhostPour.Billing.PlanMoves

namespace GhostPour.Billing

open UnionFind

/-! ### The groups -/

/-- A lookup in a dict comprehension over some keys. -/
theorem get_map_keys (keys : List PyStr) (value : PyStr → PyStr) (u : PyStr) :
    Assoc.get (keys.map fun x => (x, value x)) u = if u ∈ keys then some (value u) else none := by
  induction keys with
  | nil => rfl
  | cons key keys ih =>
      rw [List.map_cons, Assoc.get, ih]
      by_cases here : key = u
      · simp [here]
      · simp [here, Ne.symm here]

/-- `groups` returns, and gives every linked account its leader. -/
theorem groups_spec (rows : List (PyStr × PyStr)) :
    ∃ g, groups rows = some g ∧
      (∀ u, g.get u = if Linked rows u then some (leaders rows u) else none) ∧
      ∀ u, groupKey g u = leaders rows u := by
  obtain ⟨parent, run, rep, keys⟩ := unionAll_spec rows
  refine ⟨_, by rw [groups, run]; exact findAll_spec _ parent rep, ?_⟩
  have get (u : PyStr) :
      Assoc.get ((parent.rows.map Prod.fst).map fun x => (x, leaders rows x)) u =
        if Linked rows u then some (leaders rows u) else none := by
    rw [get_map_keys]
    have stored : u ∈ parent.rows.map Prod.fst ↔ Linked rows u := by
      rw [← not_iff_not, ← keys u, ← parent.get_eq_none_iff]
    simp only [stored]
  refine ⟨get, fun u => ?_⟩
  rw [groupKey, get]
  split
  · rfl
  · next unlinked => exact (rep.absent u ((keys u).mpr unlinked)).symm

/-- Two accounts have one key exactly when a chain of links connects them, in whatever order the
rows are read; an account without a link has no key. -/
theorem groups_are_components (rows : List (PyStr × PyStr)) :
    ∃ g, groups rows = some g ∧
      (∀ u, g.get u ≠ none ↔ Linked rows u) ∧
      (∀ a b, Linked rows a → Linked rows b → (g.get a = g.get b ↔ Connected rows a b)) ∧
      (∀ a b, groupKey g a = groupKey g b ↔ Connected rows a b) ∧
      ∀ rows', rows'.Perm rows → ∃ g', groups rows' = some g' ∧
        ∀ a b, groupKey g' a = groupKey g' b ↔ groupKey g a = groupKey g b := by
  obtain ⟨g, run, get, key⟩ := groups_spec rows
  have components (a b : PyStr) : groupKey g a = groupKey g b ↔ Connected rows a b := by
    rw [key, key, leaders_eq_iff]
  refine ⟨g, run, fun u => ?_, fun a b linkedA linkedB => ?_, components, fun rows' same => ?_⟩
  · rw [get]
    split <;> simp_all
  · rw [get, get, if_pos linkedA, if_pos linkedB, Option.some.injEq, leaders_eq_iff]
  · obtain ⟨g', run', _, key'⟩ := groups_spec rows'
    refine ⟨g', run', fun a b => ?_⟩
    rw [key', key', leaders_eq_iff, components]
    exact ⟨.mono fun _ here => same.mem_iff.mp here, .mono fun _ here => same.mem_iff.mpr here⟩

/-! ### The links of a run of moves -/

/-- A link is stored once. -/
def recordHop (rows : List (PyStr × PyStr)) (hop : PyStr × PyStr) : List (PyStr × PyStr) :=
  if hop ∈ rows then rows else rows ++ [hop]

theorem link_linkRows (fromUserId toUserId reason : PyStr) (otid : Option PyStr) (db : Db) :
    (link fromUserId toUserId reason otid db).linkRows =
      if fromUserId ≠ [] ∧ toUserId ≠ [] ∧ fromUserId ≠ toUserId then
        recordHop db.linkRows (fromUserId, toUserId)
      else db.linkRows := by
  have stored : db.links.any (fun l => l.fromUserId = fromUserId ∧ l.toUserId = toUserId) = true ↔
      (fromUserId, toUserId) ∈ db.linkRows := by
    simp [Db.linkRows]
  unfold link recordHop
  simp only [stored]
  split
  · next skips => split <;> first | rfl | (split <;> first | rfl | (exfalso; tauto))
  · next records =>
    push Not at records
    rw [if_pos ⟨records.1, records.2.1, records.2.2.1⟩, if_neg records.2.2.2]
    simp [Db.linkRows]

/-- The holders are linked to the account that takes their plan. -/
theorem linkRows_foldl (tiers : TierConfig) (toUserId : PyStr) (otid : Option PyStr)
    (holders : List (PyStr × Account)) (db : Db) :
    (holders.foldl (fun db holder =>
      link holder.1 toUserId (py "restore") otid (downgradeToFree tiers holder.1 db)) db).linkRows =
      ((holders.map fun holder => (holder.1, toUserId)).filter fun hop : PyStr × PyStr =>
        hop.1 ≠ [] ∧ hop.2 ≠ [] ∧ hop.1 ≠ hop.2).foldl recordHop db.linkRows := by
  induction holders generalizing db with
  | nil => rfl
  | cons holder holders ih =>
      have rows : (downgradeToFree tiers holder.1 db).linkRows = db.linkRows := rfl
      rw [List.foldl_cons, ih, link_linkRows, rows, List.map_cons, List.filter_cons]
      by_cases moves : holder.1 ≠ [] ∧ toUserId ≠ [] ∧ holder.1 ≠ toUserId
      · rw [if_pos moves, if_pos (by simpa using moves), List.foldl_cons]
      · rw [if_neg moves, if_neg (by simpa using moves)]

/-- A call of `move_plan` records its hops. -/
theorem movePlan_linkRows (tiers : TierConfig) (call : MoveCall) (db : Db) :
    (movePlan tiers call.heldBy call.toUserId call.verified call.otid db).1.linkRows =
      call.hops.foldl recordHop db.linkRows := by
  unfold movePlan MoveCall.hops
  cases call.verified with
  | false => rfl
  | true =>
      cases call.heldBy.filter fun holder => isPaidTier holder.2.tier with
      | nil => rfl
      | cons first rest =>
          have moved := linkRows_foldl tiers call.toUserId call.otid (first :: rest)
            (db.onUsers fun users =>
              users.update call.toUserId (Account.carryUsage (heaviest first rest).2))
          simp only [if_true]
          cases truthy call.otid with
          | none => exact moved
          | some otid => exact moved

/-- A link that is stored again changes no leader. -/
theorem leaders_recordHop (hops : List (PyStr × PyStr)) (rows before : List (PyStr × PyStr))
    (same : leaders rows = leaders before) :
    leaders (hops.foldl recordHop rows) = leaders (before ++ hops) := by
  induction hops generalizing rows before with
  | nil => rw [List.append_nil]; exact same
  | cons hop hops ih =>
      rw [List.foldl_cons, List.append_cons]
      apply ih
      rw [leaders_append, List.foldl_cons, List.foldl_nil, recordHop]
      split
      · next stored =>
        have joinedAlready : leaders before hop.1 = leaders before hop.2 := by
          rw [← same]
          exact leaders_eq_of_mem stored
        rw [joined_eq_self joinedAlready, same]
      · rw [leaders_append, same]
        rfl

/-- The links that a run of moves stores lead every account where its hops do. -/
theorem leaders_runMoves (tiers : TierConfig) (calls : List MoveCall) (db : Db)
    (start : db.links = []) :
    leaders (runMoves tiers calls db).linkRows = leaders (calls.flatMap MoveCall.hops) := by
  induction calls using List.reverseRecOn with
  | nil => simp [runMoves, Db.linkRows, start]
  | append_singleton calls call ih =>
      rw [runMoves, List.foldl_append, List.flatMap_append, List.flatMap_singleton]
      exact (congrArg leaders (movePlan_linkRows tiers call _)).trans (leaders_recordHop _ _ _ ih)

/-! ### The name of a group -/

/-- The last hop into the group of an account goes to `home`. -/
def LastMove (hops : List (PyStr × PyStr)) (x home : PyStr) : Prop :=
  ∃ front a back, hops = front ++ (a, home) :: back ∧ Connected hops x home ∧
    ∀ hop ∈ back, ¬ Connected hops x hop.2

/-- Each group is named by the account its plan moved to last. -/
def NamedByHolder (hops : List (PyStr × PyStr)) (key : PyStr → PyStr) : Prop :=
  ∀ x home, LastMove hops x home → key x = home

/-- The account is new to the hops, or the plan of its group is there already. -/
def Lands (hops : List (PyStr × PyStr)) (home : PyStr) : Prop :=
  ¬ Linked hops home ∨ LastMove hops home home

/-- The last element that meets a condition. -/
theorem exists_last {α : Type} (p : α → Prop) (l : List α) (some : ∃ a ∈ l, p a) :
    ∃ front a back, l = front ++ a :: back ∧ p a ∧ ∀ b ∈ back, ¬ p b := by
  induction l with
  | nil =>
      obtain ⟨a, here, _⟩ := some
      cases here
  | cons first l ih =>
      by_cases later : ∃ a ∈ l, p a
      · obtain ⟨front, a, back, eq, meets, rest⟩ := ih later
        exact ⟨first :: front, a, back, by rw [eq, List.cons_append], meets, rest⟩
      · obtain ⟨a, here, meets⟩ := some
        rcases List.mem_cons.mp here with rfl | inTail
        · exact ⟨[], a, l, rfl, meets, fun b member holds => later ⟨b, member, holds⟩⟩
        · exact absurd ⟨a, inTail, meets⟩ later

/-- A linked account has a last hop into its group. -/
theorem exists_lastMove {hops : List (PyStr × PyStr)} {x : PyStr} (linked : Linked hops x) :
    ∃ home, LastMove hops x home := by
  obtain ⟨⟨a, b⟩, here, names⟩ := linked
  have chain : Connected hops x b := by
    rcases names with rfl | rfl
    · exact .rel _ _ here
    · exact .refl _
  obtain ⟨front, ⟨a', home⟩, back, eq, meets, rest⟩ :=
    exists_last (fun hop : PyStr × PyStr => Connected hops x hop.2) hops ⟨_, here, chain⟩
  exact ⟨home, front, a', back, eq, meets, rest⟩

theorem Lands.leads {hops : List (PyStr × PyStr)} {home : PyStr} (lands : Lands hops home)
    (named : NamedByHolder hops (leaders hops)) : leaders hops home = home := by
  rcases lands with new | last
  · apply (leaders_of_unlinked ?_ home).mpr rfl
    intro link here
    constructor
    · exact fun eq => new ⟨link, here, .inl eq⟩
    · exact fun eq => new ⟨link, here, .inr eq⟩
  · exact named home home last

theorem lands_of_leads {hops : List (PyStr × PyStr)} {home : PyStr}
    (leads : leaders hops home = home) (named : NamedByHolder hops (leaders hops)) :
    Lands hops home := by
  by_cases linked : Linked hops home
  · obtain ⟨last, move⟩ := exists_lastMove linked
    have same := named home last move
    rw [leads] at same
    exact .inr (same ▸ move)
  · exact .inl linked

/-- After hops into one account, the groups are named by their holders exactly when that account
leads itself. -/
theorem named_append_iff {hops more : List (PyStr × PyStr)} {home : PyStr}
    (named : NamedByHolder hops (leaders hops)) (some : more ≠ [])
    (into : ∀ hop ∈ more, hop.2 = home) :
    NamedByHolder (hops ++ more) (leaders (hops ++ more)) ↔ leaders hops home = home := by
  obtain ⟨keeps, others⟩ := @leaders_append_into _ _ hops _ _ into
  have last : ∃ front a, hops ++ more = front ++ [(a, home)] := by
    obtain ⟨init, ⟨a, b⟩, rfl⟩ := List.eq_nil_or_concat more |>.resolve_left some
    obtain rfl : b = home := into (a, b) (by simp)
    exact ⟨hops ++ init, a, by simp⟩
  obtain ⟨front, a, eq⟩ := last
  constructor
  · intro after
    rw [← keeps]
    exact after home home ⟨front, a, [], eq, .refl _, fun _ member => by cases member⟩
  · rintro leads x b ⟨front', a', back, eq', chain, rest⟩
    by_cases moved : Connected (hops ++ more) x home
    · -- The group of the new holder: nothing comes after its hop.
      obtain rfl : b = home := by
        rcases List.eq_nil_or_concat back with rfl | ⟨init, hop, rfl⟩
        · have same := (List.append_inj' (eq'.symm.trans eq) rfl).2
          cases same
          rfl
        · rw [List.concat_eq_append, ← List.cons_append, ← List.append_assoc, eq] at eq'
          cases List.singleton_injective (List.append_inj' eq' rfl).2
          exact absurd moved (rest (a, home) (by simp))
      rw [(leaders_eq_iff _ _ _).mpr moved, keeps, leads]
    · -- Another group: its hops and its leader are what they were.
      have apart {y : PyStr} (joins : Connected (hops ++ more) x y) :
          leaders (hops ++ more) y = leaders hops y := by
        refine (others y).resolve_left fun same => moved ?_
        exact .trans _ _ _ joins ((leaders_eq_iff _ _ _).mp same)
      have notNew : (a', b) ∉ more := by
        intro new
        obtain rfl : b = home := into _ new
        exact moved chain
      obtain ⟨tail, rfl, rfl⟩ : ∃ tail, hops = front' ++ (a', b) :: tail ∧ back = tail ++ more := by
        rcases List.append_eq_append_iff.mp eq' with ⟨mid, rfl, rfl⟩ | ⟨mid, rfl, split⟩
        · exact absurd (by simp) notNew
        · cases mid with
          | nil =>
              rw [List.nil_append] at split
              exact absurd (split ▸ List.mem_cons_self) notNew
          | cons first tail =>
              rw [List.cons_append, List.cons.injEq] at split
              exact ⟨tail, by rw [← split.1], split.2⟩
      rw [apart (.refl x)]
      refine named x b ⟨front', a', tail, rfl, ?_, fun hop here chain' => ?_⟩
      · rw [← leaders_eq_iff, ← apart (.refl x), ← apart chain, leaders_eq_iff]
        exact chain
      · exact rest hop (List.mem_append_left _ here)
          (chain'.mono fun _ member => List.mem_append_left _ member)

theorem MoveCall.hops_into (call : MoveCall) : ∀ hop ∈ call.hops, hop.2 = call.toUserId := by
  intro hop here
  rw [hops] at here
  split at here
  · obtain ⟨member, _⟩ := List.mem_filter.mp here
    obtain ⟨holder, _, rfl⟩ := List.mem_map.mp member
    rfl
  · cases here

/-- Each call lands on an account that is new, or has the plan of its group already. -/
def LandsEachTime (calls : List MoveCall) : Prop :=
  ∀ front call back, calls = front ++ call :: back → call.hops ≠ [] →
    Lands (front.flatMap MoveCall.hops) call.toUserId

/-- After each call, each group is named by the account its plan moved to last. -/
def NamedEachTime (calls : List MoveCall) (key : List MoveCall → PyStr → PyStr) : Prop :=
  ∀ front back, calls = front ++ back → NamedByHolder (front.flatMap MoveCall.hops) (key front)

theorem landsEachTime_append (calls : List MoveCall) (call : MoveCall) :
    LandsEachTime (calls ++ [call]) ↔ LandsEachTime calls ∧
      (call.hops ≠ [] → Lands (calls.flatMap MoveCall.hops) call.toUserId) := by
  constructor
  · intro lands
    constructor
    · rintro front first back rfl
      exact lands front first (back ++ [call]) (by simp)
    · exact lands calls call [] rfl
  · rintro ⟨before, last⟩ front first back eq
    rcases List.eq_nil_or_concat back with rfl | ⟨init, final, rfl⟩
    · obtain ⟨rfl, same⟩ := List.append_inj' eq rfl
      cases same
      exact last
    · rw [List.concat_eq_append, ← List.cons_append, ← List.append_assoc] at eq
      exact before front first init (List.append_inj' eq rfl).1

theorem namedEachTime_append (calls : List MoveCall) (call : MoveCall)
    (key : List MoveCall → PyStr → PyStr) :
    NamedEachTime (calls ++ [call]) key ↔ NamedEachTime calls key ∧
      NamedByHolder ((calls ++ [call]).flatMap MoveCall.hops) (key (calls ++ [call])) := by
  constructor
  · intro named
    constructor
    · rintro front back rfl
      exact named front (back ++ [call]) (by simp)
    · exact named _ [] (by simp)
  · rintro ⟨before, last⟩ front back eq
    rcases List.eq_nil_or_concat back with rfl | ⟨init, final, rfl⟩
    · rw [List.append_nil] at eq
      exact eq ▸ last
    · rw [List.concat_eq_append, ← List.append_assoc] at eq
      exact before front init (List.append_inj' eq rfl).1

theorem namedEachTime_iff (calls : List MoveCall) :
    (NamedEachTime calls fun front => leaders (front.flatMap MoveCall.hops)) ↔
      LandsEachTime calls := by
  induction calls using List.reverseRecOn with
  | nil =>
      constructor
      · intro _ front call back eq
        simp at eq
      · rintro _ front back eq x home ⟨front', a, back', eq', _⟩
        simp [(List.append_eq_nil_iff.mp eq.symm).1] at eq'
  | append_singleton calls call ih =>
      rw [namedEachTime_append, landsEachTime_append, ih, List.flatMap_append,
        List.flatMap_singleton]
      refine and_congr_right fun lands => ?_
      have named := ih.mpr lands calls [] (by simp)
      by_cases idle : call.hops = []
      · rw [idle, List.append_nil]
        exact ⟨fun _ moves => absurd rfl moves, fun _ => named⟩
      · rw [named_append_iff named idle call.hops_into]
        exact ⟨fun leads _ => lands_of_leads leads named, fun lands => (lands idle).leads named⟩

/-- The keys of the groups after some calls. -/
def keysAfter (tiers : TierConfig) (db : Db) (calls : List MoveCall) (userId : PyStr) : PyStr :=
  ((groups (runMoves tiers calls db).linkRows).map fun g => groupKey g userId).getD []

theorem keysAfter_eq (tiers : TierConfig) {db : Db} (start : db.links = [])
    (calls : List MoveCall) : keysAfter tiers db calls = leaders (calls.flatMap MoveCall.hops) := by
  obtain ⟨g, run, _, key⟩ := groups_spec (runMoves tiers calls db).linkRows
  funext userId
  rw [keysAfter, run, Option.map_some, Option.getD_some, key, leaders_runMoves tiers calls db start]

/-- In every run of plan moves, the groups are named by the accounts their plans moved to last
exactly as long as each move lands on an account that is new or already names its group. -/
theorem group_named_by_holder_iff (tiers : TierConfig) (db : Db) (start : db.links = [])
    (calls : List MoveCall) :
    NamedEachTime calls (keysAfter tiers db) ↔ LandsEachTime calls := by
  rw [← namedEachTime_iff]
  unfold NamedEachTime
  simp only [keysAfter_eq tiers start]

/-- A move of the plan of a Pro subscription. -/
def proMove (fromUserId toUserId : PyStr) : MoveCall where
  heldBy := [(fromUserId, { Account.signUp with tier := py "pro" })]
  toUserId := toUserId
  verified := true
  otid := some (py "2000000001")

/-- A plan that moves on twice. -/
def twoDevices : List MoveCall :=
  [proMove (py "phone") (py "tablet"), proMove (py "tablet") (py "laptop")]

theorem group_named_by_holder_iff_twoDevices :
    NamedEachTime twoDevices (keysAfter tiersYml (.single (py "phone") .signUp)) := by
  rw [group_named_by_holder_iff tiersYml (.single (py "phone") .signUp) rfl twoDevices]
  have none : LandsEachTime [] := by
    intro front call back eq
    simp at eq
  have first : LandsEachTime ([] ++ [proMove (py "phone") (py "tablet")]) :=
    (landsEachTime_append _ _).mpr ⟨none, fun _ => .inl (by decide)⟩
  exact (landsEachTime_append _ (proMove (py "tablet") (py "laptop"))).mpr
    ⟨first, fun _ => .inl (by decide +kernel)⟩

/-- A plan that moves to a second device and back names the group by the device it left. -/
theorem group_named_by_old_holder :
    ¬ ∀ tiers db calls, db.links = [] → NamedEachTime calls (keysAfter tiers db) := by
  intro named
  let back : List MoveCall :=
    [proMove (py "phone") (py "tablet"), proMove (py "tablet") (py "phone")]
  have last : LastMove (back.flatMap MoveCall.hops) (py "phone") (py "phone") :=
    ⟨[(py "phone", py "tablet")], py "tablet", [], by decide, .refl _, fun _ member => by cases member⟩
  have key := named tiersYml (.single (py "phone") .signUp) back rfl back [] (by simp) _ _ last
  revert key
  decide +kernel

end GhostPour.Billing
