/-
Module: GhostPour.Library.UnionFind
Layer: Library
Purpose: Union-find over a mapping from elements to parents, with path halving and no ranks: the
  left root of a link is always pointed at the right one. What a forest stands for is a leader of
  each element; links join the classes of two leaders, so that the classes are the connected
  components of the links, whatever their order.
Trusted boundary: none
Main exports: UnionFind.find, UnionFind.union, UnionFind.unionAll, UnionFind.findAll,
  UnionFind.Connected, UnionFind.leaders, UnionFind.Represents, UnionFind.leaders_eq_iff
-/
import GhostPour.Library.Table

namespace GhostPour.UnionFind

/-! ### Leaders -/

section
variable {κ : Type}

/-- Two elements are joined by a chain of links, followed either way. -/
def Connected (links : List (κ × κ)) : κ → κ → Prop :=
  Relation.EqvGen fun a b => (a, b) ∈ links

variable [DecidableEq κ]

/-- The class of `a` is led by the leader of `b`. -/
def joined (leader : κ → κ) (a b x : κ) : κ :=
  if leader x = leader a then leader b else leader x

/-- The leader of each element after the links, one after the other. -/
def leaders (links : List (κ × κ)) : κ → κ :=
  links.foldl (fun leader link => joined leader link.1 link.2) id

theorem leaders_nil (x : κ) : leaders [] x = x := rfl

theorem leaders_append_singleton (links : List (κ × κ)) (a b x : κ) :
    leaders (links ++ [(a, b)]) x = joined (leaders links) a b x := by
  unfold leaders
  rw [List.foldl_append]
  rfl

theorem leaders_append (links more : List (κ × κ)) :
    leaders (links ++ more) =
      more.foldl (fun leader link => joined leader link.1 link.2) (leaders links) := by
  unfold leaders
  exact List.foldl_append

omit [DecidableEq κ] in
theorem Connected.mono {links more : List (κ × κ)} (sub : ∀ link ∈ links, link ∈ more) {x y : κ}
    (chain : Connected links x y) : Connected more x y := by
  induction chain with
  | rel a b here => exact .rel a b (sub _ here)
  | refl x => exact .refl x
  | symm x y _ ih => exact .symm x y ih
  | trans x y z _ _ ihl ihr => exact .trans x y z ihl ihr

/-- Every element is connected to its leader. -/
theorem connected_leaders (links : List (κ × κ)) (x : κ) : Connected links x (leaders links x) := by
  induction links using List.reverseRecOn generalizing x with
  | nil => exact .refl x
  | append_singleton links link ih =>
      obtain ⟨a, b⟩ := link
      have old {x y : κ} (chain : Connected links x y) : Connected (links ++ [(a, b)]) x y :=
        chain.mono fun link here => List.mem_append_left _ here
      rw [leaders_append_singleton, joined]
      split
      · next same =>
        -- From `x` to the leader it shares with `a`, over the new link, to the leader of `b`.
        have toA : Connected links x a :=
          .trans _ _ _ (ih x) (same ▸ .symm _ _ (ih a))
        have across : Connected (links ++ [(a, b)]) a b :=
          .rel a b (List.mem_append_right _ (List.mem_singleton_self _))
        exact .trans _ _ _ (old toA) (.trans _ _ _ across (old (ih b)))
      · exact old (ih x)

/-- The ends of a link have one leader, and no later link parts them. -/
theorem leaders_eq_of_mem {links : List (κ × κ)} {a b : κ} (here : (a, b) ∈ links) :
    leaders links a = leaders links b := by
  induction links using List.reverseRecOn with
  | nil => cases here
  | append_singleton links link ih =>
      obtain ⟨c, d⟩ := link
      simp only [leaders_append_singleton, joined]
      rcases List.mem_append.mp here with old | new
      · rw [ih old]
      · cases List.mem_singleton.mp new
        rw [if_pos rfl]
        split <;> rfl

/-- The classes are the connected components. -/
theorem leaders_eq_iff (links : List (κ × κ)) (x y : κ) :
    leaders links x = leaders links y ↔ Connected links x y := by
  constructor
  · intro same
    exact .trans _ _ _ (connected_leaders links x) (same ▸ .symm _ _ (connected_leaders links y))
  · intro chain
    induction chain with
    | rel a b here => exact leaders_eq_of_mem here
    | refl x => rfl
    | symm x y _ ih => exact ih.symm
    | trans x y z _ _ ihl ihr => exact ihl.trans ihr

/-- A link between two elements of one class changes nothing. -/
theorem joined_eq_self {leader : κ → κ} {a b : κ} (same : leader a = leader b) :
    joined leader a b = leader := by
  funext x
  rw [joined]
  split
  · next eq => rw [eq, same]
  · rfl

/-- Links into `b` move no class but those of their other ends, and keep the leader of `b`. -/
theorem leaders_append_into {links more : List (κ × κ)} {b : κ} (into : ∀ link ∈ more, link.2 = b) :
    leaders (links ++ more) b = leaders links b ∧
      ∀ x, leaders (links ++ more) x = leaders (links ++ more) b ∨
        leaders (links ++ more) x = leaders links x := by
  induction more using List.reverseRecOn with
  | nil =>
      rw [List.append_nil]
      exact ⟨rfl, fun x => .inr rfl⟩
  | append_singleton more link ih =>
      obtain ⟨keeps, others⟩ := ih fun link here => into link (List.mem_append_left _ here)
      obtain ⟨a, b'⟩ := link
      obtain rfl : b' = b := into (a, b') (List.mem_append_right _ (List.mem_singleton_self _))
      rw [← List.append_assoc]
      simp only [leaders_append_singleton, joined]
      have here : (if leaders (links ++ more) b' = leaders (links ++ more) a then
          leaders (links ++ more) b' else leaders (links ++ more) b') = leaders (links ++ more) b' :=
        ite_self _
      rw [here]
      refine ⟨keeps, fun x => ?_⟩
      split
      · exact .inl rfl
      · exact others x

/-- An element no link names leads itself alone. -/
theorem leaders_of_unlinked {links : List (κ × κ)} {x : κ}
    (unlinked : ∀ link ∈ links, link.1 ≠ x ∧ link.2 ≠ x) (y : κ) :
    leaders links y = x ↔ y = x := by
  induction links using List.reverseRecOn generalizing y with
  | nil => exact Iff.rfl
  | append_singleton links link ih =>
      obtain ⟨a, b⟩ := link
      have rest := ih fun link here => unlinked link (List.mem_append_left _ here)
      have apart := unlinked (a, b) (List.mem_append_right _ (List.mem_singleton_self _))
      rw [leaders_append_singleton, joined]
      split
      · next same =>
        rw [rest]
        constructor
        · intro eq
          exact absurd eq apart.2
        · rintro rfl
          rw [(rest y).mpr rfl] at same
          exact absurd ((rest a).mp same.symm) apart.1
      · exact rest y

end

/-! ### The forest -/

section
variable {κ : Type} [DecidableEq κ]

/-- `while parent[x] != x: parent[x] = parent[parent[x]]; x = parent[x]`. -/
def findLoop : Nat → Table κ κ → κ → Option (Table κ κ × κ)
  | 0, _, _ => none
  | fuel + 1, parent, x =>
      match parent.get x with
      | none => none
      | some p =>
          if p = x then some (parent, x)
          else
            match parent.get p with
            | none => none
            | some g => findLoop fuel (parent.update x fun _ => g) g

/-- The root above an element, which is its own parent if it had none. -/
def find (parent : Table κ κ) (x : κ) : Option (Table κ κ × κ) :=
  let parent := parent.upsert x x id
  findLoop parent.rows.length parent x

/-- Point the root of `a` at the root of `b`. -/
def union (parent : Table κ κ) (a b : κ) : Option (Table κ κ) := do
  let (parent, ra) ← find parent a
  let (parent, rb) ← find parent b
  return if ra ≠ rb then parent.update ra fun _ => rb else parent

/-- Join the ends of every link. -/
def unionAll (links : List (κ × κ)) : Option (Table κ κ) :=
  links.foldlM (fun parent link => union parent link.1 link.2) .empty

/-- The roots above some elements, in order. -/
def findAll : List κ → Table κ κ → Option (List (κ × κ))
  | [], _ => some []
  | x :: xs, parent => do
      let (parent, r) ← find parent x
      let rest ← findAll xs parent
      return (x, r) :: rest

/-- A way to count the steps up. -/
def Climbs (parent : Table κ κ) (height : κ → Nat) : Prop :=
  ∀ x p, parent.get x = some p → p ≠ x → height p < height x

/-- The forest stands for a leader of each element. -/
structure Represents (parent : Table κ κ) (leader : κ → κ) : Prop where
  /-- An element without a parent leads itself. -/
  absent : ∀ x, parent.get x = none → leader x = x
  /-- A parent has a parent. -/
  closed : ∀ x p, parent.get x = some p → parent.get p ≠ none
  /-- A parent has the leader of its child. -/
  parent_leader : ∀ x p, parent.get x = some p → leader p = leader x
  /-- Its own parent is its own leader. -/
  root_leader : ∀ x, parent.get x = some x → leader x = x
  /-- The way up ends. -/
  ends : ∃ height, Climbs parent height

variable {parent : Table κ κ} {leader : κ → κ}

theorem Represents.empty : Represents (Table.empty : Table κ κ) id where
  absent _ _ := rfl
  closed _ _ stored := nomatch stored
  parent_leader _ _ stored := nomatch stored
  root_leader _ _ := rfl
  ends := ⟨fun _ => 0, fun _ _ stored => nomatch stored⟩

/-- The number of elements that are lower counts the steps up, and is below the number of rows. -/
theorem Represents.exists_height (rep : Represents parent leader) :
    ∃ height, Climbs parent height ∧ ∀ x, parent.get x ≠ none → height x < parent.rows.length := by
  obtain ⟨height, climbs⟩ := rep.ends
  let keys := (parent.rows.map Prod.fst).toFinset
  have key {x : κ} (stored : parent.get x ≠ none) : x ∈ keys := by
    rw [List.mem_toFinset]
    by_contra absent
    exact stored ((parent.get_eq_none_iff x).mpr absent)
  refine ⟨fun x => (keys.filter fun y => height y < height x).card, ?_, ?_⟩
  · intro x p stored other
    have lower := climbs x p stored other
    apply Finset.card_lt_card
    rw [Finset.ssubset_iff_of_subset]
    · exact ⟨p, Finset.mem_filter.mpr ⟨key (rep.closed x p stored), lower⟩, by simp⟩
    · intro y member
      rw [Finset.mem_filter] at member ⊢
      exact ⟨member.1, member.2.trans lower⟩
  · intro x stored
    calc (keys.filter fun y => height y < height x).card
        < keys.card := by
          apply Finset.card_lt_card
          rw [Finset.ssubset_iff_of_subset (Finset.filter_subset _ _)]
          exact ⟨x, key stored, by simp⟩
      _ ≤ (parent.rows.map Prod.fst).length := List.toFinset_card_le _
      _ = parent.rows.length := List.length_map _

/-- Above every element there is a root. -/
theorem Represents.exists_root (rep : Represents parent leader) {height : κ → Nat}
    (climbs : Climbs parent height) (x : κ) (stored : parent.get x ≠ none) :
    ∃ r, parent.get r = some r ∧ leader r = leader x ∧ height r ≤ height x := by
  induction lower : height x using Nat.strong_induction_on generalizing x with
  | _ n ih =>
      obtain ⟨p, here⟩ := Option.ne_none_iff_exists'.mp stored
      by_cases root : p = x
      · subst root
        exact ⟨p, here, rfl, lower.le⟩
      · have below := climbs x p here root
        obtain ⟨r, isRoot, same, le⟩ :=
          ih (height p) (lower ▸ below) p (rep.closed x p here) rfl
        exact ⟨r, isRoot, same.trans (rep.parent_leader x p here), by omega⟩

/-- The leader of an element of the forest is in the forest. -/
theorem Represents.leader_stored (rep : Represents parent leader) {x : κ}
    (stored : parent.get x ≠ none) : parent.get (leader x) = some (leader x) := by
  obtain ⟨height, climbs⟩ := rep.ends
  obtain ⟨r, root, same, _⟩ := rep.exists_root climbs x stored
  rw [rep.root_leader r root] at same
  exact same ▸ root

theorem Climbs.halve {height : κ → Nat} (climbs : Climbs parent height) {x p g : κ}
    (here : parent.get x = some p) (up : parent.get p = some g) (notRoot : p ≠ x) :
    height g < height x ∧ Climbs (parent.update x fun _ => g) height := by
  have lower : height g < height x := by
    have below := climbs x p here notRoot
    by_cases root : g = p
    · rw [root]
      exact below
    · exact (climbs p g up root).trans below
  refine ⟨lower, fun y q stored other => ?_⟩
  rw [Table.get_update] at stored
  split at stored
  · next same =>
    rw [same, here] at stored
    cases stored
    exact same ▸ lower
  · exact climbs y q stored other

/-- Pointing an element at its grandparent changes no leader. -/
theorem Represents.halve (rep : Represents parent leader) {x p g : κ} (here : parent.get x = some p)
    (up : parent.get p = some g) (notRoot : p ≠ x) :
    Represents (parent.update x fun _ => g) leader where
  absent y none := by
    rw [Table.get_update] at none
    split at none
    · next same =>
      rw [same, here] at none
      cases none
    · exact rep.absent y none
  closed y q stored := by
    rw [Table.get_update] at stored ⊢
    have old : parent.get q ≠ none := by
      split at stored
      · next same =>
        rw [same, here] at stored
        cases stored
        exact rep.closed p g up
      · exact rep.closed y q stored
    split
    · rw [Option.ne_none_iff_isSome, Option.isSome_map, ← Option.ne_none_iff_isSome]
      exact old
    · exact old
  parent_leader y q stored := by
    rw [Table.get_update] at stored
    split at stored
    · next same =>
      rw [same, here] at stored
      cases stored
      rw [same, rep.parent_leader p g up, rep.parent_leader x p here]
    · exact rep.parent_leader y q stored
  root_leader y stored := by
    rw [Table.get_update] at stored
    split at stored
    · next same =>
      rw [same, here] at stored
      cases stored
      -- An element that is its own grandparent is its own parent.
      obtain ⟨height, climbs⟩ := rep.ends
      exact absurd (climbs.halve here up notRoot).1 (lt_irrefl _)
    · exact rep.root_leader y stored
  ends := by
    obtain ⟨height, climbs⟩ := rep.ends
    exact ⟨height, (climbs.halve here up notRoot).2⟩

/-- The loop finds the leader, and leaves a forest that stands for the same leaders. -/
theorem findLoop_spec (fuel : Nat) (parent : Table κ κ) (rep : Represents parent leader)
    (height : κ → Nat) (climbs : Climbs parent height) (x : κ) (stored : parent.get x ≠ none)
    (enough : height x < fuel) :
    ∃ after, findLoop fuel parent x = some (after, leader x) ∧ Represents after leader ∧
      ∀ y, after.get y = none ↔ parent.get y = none := by
  induction fuel generalizing parent x with
  | zero => exact absurd enough (Nat.not_lt_zero _)
  | succ fuel ih =>
      obtain ⟨p, here⟩ := Option.ne_none_iff_exists'.mp stored
      rw [findLoop, here]
      by_cases root : p = x
      · subst root
        simp only [if_true]
        exact ⟨parent, by rw [rep.root_leader p here], rep, fun y => Iff.rfl⟩
      · simp only [if_neg root]
        obtain ⟨g, up⟩ := Option.ne_none_iff_exists'.mp (rep.closed x p here)
        have halved := climbs.halve here up root
        have keys (y : κ) : (parent.update x fun _ => g).get y = none ↔ parent.get y = none := by
          rw [Table.get_update]
          split <;> simp
        obtain ⟨after, found, rep', same⟩ := ih (parent.update x fun _ => g)
          (rep.halve here up root) halved.2 g
          (fun none => rep.closed p g up ((keys g).mp none)) (by omega)
        have leads : leader g = leader x :=
          (rep.parent_leader p g up).trans (rep.parent_leader x p here)
        simp only [up]
        exact ⟨after, by rw [found, leads], rep', fun y => (same y).trans (keys y)⟩

/-- An element that is added is its own leader. -/
theorem Represents.add (rep : Represents parent leader) (x : κ) :
    Represents (parent.upsert x x id) leader ∧
      ∀ y, (parent.upsert x x id).get y = none ↔ y ≠ x ∧ parent.get y = none := by
  have get (y : κ) : (parent.upsert x x id).get y =
      if y = x then some ((parent.get x).getD x) else parent.get y := by
    split
    · next same =>
      rw [same, Table.get_upsert_self, Option.map_id]
      rfl
    · next other => exact Table.get_upsert_of_ne parent x id other
  -- Only an absent element gets a new parent, itself.
  have old {y p : κ} (stored : (parent.upsert x x id).get y = some p) :
      parent.get y = some p ∨ parent.get x = none ∧ y = x ∧ p = x := by
    rw [get] at stored
    split at stored
    · next same =>
      rcases before : parent.get x with _ | q
      · rw [before] at stored
        cases stored
        exact .inr ⟨rfl, same, rfl⟩
      · rw [before] at stored
        cases stored
        exact .inl (same ▸ before)
    · exact .inl stored
  have keys (y : κ) : (parent.upsert x x id).get y = none ↔ y ≠ x ∧ parent.get y = none := by
    rw [get]
    split
    · next same => simp [same]
    · next other => simp [other]
  refine ⟨⟨fun y none => rep.absent y ((keys y).mp none).2, ?_, ?_, ?_, ?_⟩, keys⟩
  · intro y p stored none
    rcases old stored with before | ⟨_, _, rfl⟩
    · exact rep.closed y p before ((keys p).mp none).2
    · exact ((keys p).mp none).1 rfl
  · intro y p stored
    rcases old stored with before | ⟨_, rfl, rfl⟩
    · exact rep.parent_leader y p before
    · rfl
  · intro y stored
    rcases old stored with before | ⟨absent, same, _⟩
    · exact rep.root_leader y before
    · exact rep.absent y (same ▸ absent)
  · obtain ⟨height, climbs⟩ := rep.ends
    refine ⟨height, fun y p stored other => ?_⟩
    rcases old stored with before | ⟨_, rfl, rfl⟩
    · exact climbs y p before other
    · exact absurd rfl other

/-- `find` returns the leader, and changes no leader. -/
theorem find_spec (rep : Represents parent leader) (x : κ) :
    ∃ after, find parent x = some (after, leader x) ∧ Represents after leader ∧
      ∀ y, after.get y = none ↔ y ≠ x ∧ parent.get y = none := by
  obtain ⟨added, keys⟩ := rep.add x
  obtain ⟨height, climbs, bound⟩ := added.exists_height
  have stored : (parent.upsert x x id).get x ≠ none := fun none => ((keys x).mp none).1 rfl
  obtain ⟨after, found, rep', same⟩ :=
    findLoop_spec _ _ added height climbs x stored (bound x stored)
  exact ⟨after, found, rep', fun y => (same y).trans (keys y)⟩

/-- Pointing a root at another one hands its class over. -/
theorem Represents.point (rep : Represents parent leader) {ra rb : κ}
    (storedA : parent.get ra = some ra) (storedB : parent.get rb = some rb) (apart : ra ≠ rb) :
    Represents (parent.update ra fun _ => rb)
      fun x => if leader x = ra then rb else leader x := by
  have leadsA := rep.root_leader ra storedA
  have leadsB := rep.root_leader rb storedB
  have keys (y : κ) : (parent.update ra fun _ => rb).get y = none ↔ parent.get y = none := by
    rw [Table.get_update]
    split <;> simp
  have old {y p : κ} (stored : (parent.update ra fun _ => rb).get y = some p) :
      y = ra ∧ p = rb ∨ y ≠ ra ∧ parent.get y = some p := by
    rw [Table.get_update] at stored
    split at stored
    · next same =>
      rw [same, storedA] at stored
      cases stored
      exact .inl ⟨same, rfl⟩
    · next other => exact .inr ⟨other, stored⟩
  refine ⟨?_, ?_, ?_, ?_, ?_⟩
  · intro x none
    have absent := (keys x).mp none
    have other : leader x ≠ ra := by
      rw [rep.absent x absent]
      rintro rfl
      rw [storedA] at absent
      cases absent
    rw [if_neg other]
    exact rep.absent x absent
  · intro x p stored none
    have absent := (keys p).mp none
    rcases old stored with ⟨_, rfl⟩ | ⟨_, before⟩
    · rw [storedB] at absent
      cases absent
    · exact rep.closed x p before absent
  · intro x p stored
    rcases old stored with ⟨rfl, rfl⟩ | ⟨_, before⟩
    · simp [leadsA, leadsB]
    · simp only [rep.parent_leader x p before]
  · intro x stored
    rcases old stored with ⟨rfl, same⟩ | ⟨other, before⟩
    · exact absurd same apart
    · have leads := rep.root_leader x before
      simp only [leads, if_neg other]
  · obtain ⟨height, climbs⟩ := rep.ends
    -- The whole class handed over is lifted above its new root.
    refine ⟨fun x => if leader x = ra then height x + height rb + 1 else height x, ?_⟩
    intro x p stored other
    rcases old stored with ⟨rfl, rfl⟩ | ⟨_, before⟩
    · simp only [leadsA, leadsB, if_true, if_neg (Ne.symm apart)]
      omega
    · have below := climbs x p before other
      simp only [rep.parent_leader x p before]
      split <;> omega

/-- `union` joins the classes of its arguments. -/
theorem union_spec (rep : Represents parent leader) (a b : κ) :
    ∃ after, union parent a b = some after ∧ Represents after (joined leader a b) ∧
      ∀ y, after.get y = none ↔ y ≠ a ∧ y ≠ b ∧ parent.get y = none := by
  obtain ⟨first, foundA, rep₁, keys₁⟩ := find_spec rep a
  obtain ⟨second, foundB, rep₂, keys₂⟩ := find_spec rep₁ b
  have keys (y : κ) : second.get y = none ↔ y ≠ a ∧ y ≠ b ∧ parent.get y = none := by
    rw [keys₂, keys₁]
    tauto
  have run : union parent a b =
      some (if leader a ≠ leader b then second.update (leader a) fun _ => leader b else second) := by
    simp [union, foundA, foundB]
  by_cases same : leader a = leader b
  · refine ⟨second, by rw [run, if_neg (not_not_intro same)], ?_, keys⟩
    rw [joined_eq_self same]
    exact rep₂
  · refine ⟨_, by rw [run, if_pos same], ?_, fun y => ?_⟩
    · have storedA : second.get a ≠ none := fun none => ((keys a).mp none).1 rfl
      have storedB : second.get b ≠ none := fun none => ((keys b).mp none).2.1 rfl
      exact rep₂.point (rep₂.leader_stored storedA) (rep₂.leader_stored storedB) same
    · rw [← keys, Table.get_update]
      split <;> simp

/-- An element that some link names. -/
def Linked (links : List (κ × κ)) (x : κ) : Prop := ∃ link ∈ links, link.1 = x ∨ link.2 = x

instance (links : List (κ × κ)) (x : κ) : Decidable (Linked links x) :=
  inferInstanceAs (Decidable (∃ link ∈ links, link.1 = x ∨ link.2 = x))

/-- The forest of all links stands for their leaders, and holds what they name. -/
theorem unionAll_spec (links : List (κ × κ)) :
    ∃ parent, unionAll links = some parent ∧ Represents parent (leaders links) ∧
      ∀ y, parent.get y = none ↔ ¬ Linked links y := by
  induction links using List.reverseRecOn with
  | nil => exact ⟨.empty, rfl, .empty, fun y => by simp [Linked, Table.empty, Table.get]⟩
  | append_singleton links link ih =>
      obtain ⟨a, b⟩ := link
      obtain ⟨parent, run, rep, keys⟩ := ih
      obtain ⟨after, joins, rep', keys'⟩ := union_spec rep a b
      refine ⟨after, ?_, ?_, fun y => ?_⟩
      · rw [unionAll] at run ⊢
        rw [List.foldlM_append, run]
        simpa using joins
      · rw [show leaders (links ++ [(a, b)]) = joined (leaders links) a b from
          funext (leaders_append_singleton links a b)]
        exact rep'
      · rw [keys', keys]
        simp only [Linked, List.mem_append, List.mem_singleton, not_exists, not_and, not_or]
        constructor
        · rintro ⟨notA, notB, rest⟩ link (here | rfl)
          · exact rest link here
          · exact ⟨Ne.symm notA, Ne.symm notB⟩
        · intro all
          have last := all (a, b) (.inr rfl)
          exact ⟨Ne.symm last.1, Ne.symm last.2, fun link here => all link (.inl here)⟩

/-- The roots found are the leaders. -/
theorem findAll_spec (xs : List κ) (parent : Table κ κ) (rep : Represents parent leader) :
    findAll xs parent = some (xs.map fun x => (x, leader x)) := by
  induction xs generalizing parent with
  | nil => rfl
  | cons x xs ih =>
      obtain ⟨after, found, rep', _⟩ := find_spec rep x
      simp [findAll, found, ih after rep']
end

end GhostPour.UnionFind
