/-
Module: GhostPour.Library.Chains
Layer: Library
Purpose: Chains of marked elements in a list: two neighbours are linked when at most so many separators,
  and nothing else, stand between them. A list that is cut in parts has the chains of the whole list
  cut where a cut lies between two of their elements.
Trusted boundary: none
Main exports: Chains.next, Chains.blocks, Chains.refill, Chains.parts, Chains.parts_map_flatten,
  Chains.parts_flatten, Chains.refill_append, Chains.refill_inj, Chains.flatMap_flatten_iff
-/
import Mathlib.Data.List.Basic
import Mathlib.Tactic.Common

namespace GhostPour

namespace Chains

variable {α : Type} (mark sep : α → Bool) (n : Nat)

/-- What follows the next marked element, when at most so many separators stand before it. -/
def next : Nat → List α → Option (List α)
  | _, [] => none
  | 0, x :: rest => if mark x then some rest else none
  | k + 1, x :: rest =>
      if mark x then some rest else if sep x then next k rest else none

/-- Whether an element before the list would be linked to one in it. -/
def linked (s : List α) : Bool := (next mark sep n s).isSome

/-- Put an element at the front of the first list. -/
def joinHead (x : α) : List (List α) → List (List α)
  | [] => [[x]]
  | b :: bs => (x :: b) :: bs

/-- The marked elements, chain after chain. -/
def blocks : List α → List (List α)
  | [] => []
  | x :: rest =>
      if mark x then
        if linked mark sep n rest then joinHead x (blocks rest) else [x] :: blocks rest
      else blocks rest

/-- Put elements in the places of the marked ones. -/
def refill : List α → List α → List α
  | _, [] => []
  | [], layout => layout
  | d :: ds, x :: layout => if mark x then d :: refill ds layout else x :: refill (d :: ds) layout

/-! ### Cut lists -/

/-- Put an element into the first part of the first chain. -/
def joinFirst (x : α) : List (List (List α)) → List (List (List α))
  | [] => [[[x]]]
  | g :: gs => joinHead x g :: gs

/-- Put an element as a part of its own before the first chain. -/
def newPart (x : α) : List (List (List α)) → List (List (List α))
  | [] => [[[x]]]
  | g :: gs => ([x] :: g) :: gs

/-- The chains of a part and of what comes after it, whose chains are known. -/
def chunkParts (later : List α) (groups : List (List (List α))) :
    List α → List (List (List α))
  | [] => groups
  | x :: rest =>
      if mark x then
        if linked mark sep n rest then joinFirst x (chunkParts later groups rest)
        else if linked mark sep n (rest ++ later) then newPart x (chunkParts later groups rest)
        else [[x]] :: chunkParts later groups rest
      else chunkParts later groups rest

/-- The chains of a list that is cut, each in the parts that the cuts make of it. -/
def parts : List (List α) → List (List (List α))
  | [] => []
  | chunk :: chunks => chunkParts mark sep n chunks.flatten (parts chunks) chunk

variable {mark sep n}

/-! ### Blocks -/

theorem joinHead_flatten (x : α) (bs : List (List α)) :
    (joinHead x bs).flatten = x :: bs.flatten := by
  cases bs <;> rfl

theorem joinHead_ne_nil (x : α) (bs : List (List α)) : joinHead x bs ≠ [] := by
  cases bs <;> exact List.cons_ne_nil _ _

theorem joinHead_append {x : α} {bs : List (List α)} (some_ : bs ≠ []) (cs : List (List α)) :
    joinHead x (bs ++ cs) = joinHead x bs ++ cs := by
  obtain ⟨b, bs, rfl⟩ := List.exists_cons_of_ne_nil some_
  rfl

/-- The blocks have the marked elements in their order. -/
theorem blocks_flatten (s : List α) : (blocks mark sep n s).flatten = s.filter mark := by
  induction s with
  | nil => rfl
  | cons x rest ih =>
      rw [blocks]
      split
      · next marked =>
        rw [List.filter_cons_of_pos marked, ← ih]
        split
        · exact joinHead_flatten x _
        · rfl
      · next unmarked => rw [List.filter_cons_of_neg unmarked, ih]

theorem next_append {k : Nat} {s r : List α} (found : next mark sep k s = some r) (t : List α) :
    next mark sep k (s ++ t) = some (r ++ t) := by
  induction s generalizing k with
  | nil =>
      rw [next] at found
      cases found
  | cons x rest ih =>
      rw [List.cons_append]
      cases k with
      | zero =>
          rw [next] at found ⊢
          split at found
          · next marked =>
            cases found
            rw [if_pos marked]
          · cases found
      | succ k =>
          rw [next] at found ⊢
          split at found
          · next marked =>
            cases found
            rw [if_pos marked]
          · next unmarked =>
            rw [if_neg unmarked]
            split at found
            · next separates =>
              rw [if_pos separates]
              exact ih found
            · cases found

theorem linked_append {s : List α} (link : linked mark sep n s = true) (t : List α) :
    linked mark sep n (s ++ t) = true := by
  obtain ⟨r, found⟩ := Option.isSome_iff_exists.mp link
  rw [linked, next_append found]
  rfl

/-- The next marked element, the separators before it and what follows it. -/
theorem next_split {k : Nat} {s r : List α} (found : next mark sep k s = some r) :
    ∃ gap x, s = gap ++ x :: r ∧ (∀ y ∈ gap, mark y = false ∧ sep y = true) ∧ mark x = true := by
  induction s generalizing k with
  | nil =>
      rw [next] at found
      cases found
  | cons x rest ih =>
      by_cases marked : mark x = true
      · have here : rest = r := by
          cases k <;> rw [next, if_pos marked] at found <;> exact Option.some.inj found
        exact ⟨[], x, by rw [here]; rfl, nofun, marked⟩
      · cases k with
        | zero =>
            rw [next, if_neg marked] at found
            cases found
        | succ k =>
            rw [next, if_neg marked] at found
            split at found
            · next separates =>
              obtain ⟨gap, y, rfl, between, marked'⟩ := ih found
              refine ⟨x :: gap, y, rfl, ?_, marked'⟩
              exact List.forall_mem_cons.mpr ⟨⟨by simpa using marked, separates⟩, between⟩
            · cases found

theorem next_length_lt {k : Nat} {s r : List α} (found : next mark sep k s = some r) :
    r.length < s.length := by
  obtain ⟨gap, x, rfl, _, _⟩ := next_split found
  rw [List.length_append, List.length_cons]
  omega

/-- An element with no link to the next is a chain. -/
theorem blocks_alone {x : α} {s : List α} (marked : mark x = true)
    (ends : next mark sep n s = none) :
    blocks mark sep n (x :: s) = [x] :: blocks mark sep n s := by
  rw [blocks, if_pos marked, linked, ends, if_neg (by simp)]

/-- An element with a link to the next joins its chain. -/
theorem blocks_linked {x : α} {s r : List α} (marked : mark x = true)
    (found : next mark sep n s = some r) :
    blocks mark sep n (x :: s) = joinHead x (blocks mark sep n s) := by
  rw [blocks, if_pos marked, linked, found]
  rfl

theorem blocks_gap {gap : List α} (bare : ∀ y ∈ gap, mark y = false) (s : List α) :
    blocks mark sep n (gap ++ s) = blocks mark sep n s := by
  induction gap with
  | nil => rfl
  | cons x gap ih =>
      rw [List.forall_mem_cons] at bare
      rw [List.cons_append, blocks, if_neg (by simp [bare.1]), ih bare.2]

theorem blocks_ne_nil_of_mem {s : List α} {x : α} (member : x ∈ s) (marked : mark x = true) :
    blocks mark sep n s ≠ [] := by
  intro none_
  have kept : x ∈ s.filter mark := List.mem_filter.mpr ⟨member, marked⟩
  have flat : (blocks mark sep n s).flatten = s.filter mark := blocks_flatten s
  rw [← flat, none_] at kept
  cases kept

theorem blocks_ne_nil_of_linked {s : List α} (link : linked mark sep n s = true) :
    blocks mark sep n s ≠ [] := by
  obtain ⟨r, found⟩ := Option.isSome_iff_exists.mp link
  obtain ⟨gap, x, rfl, _, marked⟩ := next_split found
  exact blocks_ne_nil_of_mem (by simp) marked

/-! ### Parts -/

theorem joinFirst_map_flatten (x : α) (groups : List (List (List α))) :
    (joinFirst x groups).map List.flatten = joinHead x (groups.map List.flatten) := by
  cases groups with
  | nil => rfl
  | cons g groups => rw [joinFirst, List.map_cons, joinHead_flatten]; rfl

theorem newPart_map_flatten (x : α) (groups : List (List (List α))) :
    (newPart x groups).map List.flatten = joinHead x (groups.map List.flatten) := by
  cases groups <;> rfl

theorem chunkParts_map_flatten {later : List α} {groups : List (List (List α))}
    (same : groups.map List.flatten = blocks mark sep n later) (s : List α) :
    (chunkParts mark sep n later groups s).map List.flatten = blocks mark sep n (s ++ later) := by
  induction s with
  | nil => exact same
  | cons x rest ih =>
      rw [chunkParts, List.cons_append, blocks]
      split
      · split
        · next link => rw [if_pos (linked_append link later), joinFirst_map_flatten, ih]
        · split
          · rw [newPart_map_flatten, ih]
          · rw [List.map_cons, ih]
            rfl
      · exact ih

/-- Put together, the parts of the chains are the chains of the whole list. -/
theorem parts_map_flatten (chunks : List (List α)) :
    (parts mark sep n chunks).map List.flatten = blocks mark sep n chunks.flatten := by
  induction chunks with
  | nil => rfl
  | cons chunk chunks ih =>
      rw [parts, List.flatten_cons]
      exact chunkParts_map_flatten ih chunk

theorem chunkParts_nonempty {later : List α} {groups : List (List (List α))}
    (nonempty : ∀ g ∈ groups, g ≠ []) (s : List α) :
    ∀ g ∈ chunkParts mark sep n later groups s, g ≠ [] := by
  induction s with
  | nil => exact nonempty
  | cons x rest ih =>
      rw [chunkParts]
      split
      · split
        · intro g member
          cases old : chunkParts mark sep n later groups rest with
          | nil =>
              rw [old, joinFirst, List.mem_singleton] at member
              exact member ▸ List.cons_ne_nil _ _
          | cons h gs =>
              rw [old] at ih
              rw [old, joinFirst, List.mem_cons] at member
              rcases member with rfl | member
              · exact joinHead_ne_nil x h
              · exact ih g (List.mem_cons_of_mem _ member)
        · split
          · intro g member
            cases old : chunkParts mark sep n later groups rest with
            | nil =>
                rw [old, newPart, List.mem_singleton] at member
                exact member ▸ List.cons_ne_nil _ _
            | cons h gs =>
                rw [old] at ih
                rw [old, newPart, List.mem_cons] at member
                rcases member with rfl | member
                · exact List.cons_ne_nil _ _
                · exact ih g (List.mem_cons_of_mem _ member)
          · exact List.forall_mem_cons.mpr ⟨List.cons_ne_nil _ _, ih⟩
      · exact ih

theorem parts_nonempty (chunks : List (List α)) : ∀ g ∈ parts mark sep n chunks, g ≠ [] := by
  induction chunks with
  | nil => nofun
  | cons chunk chunks ih => exact chunkParts_nonempty ih chunk

theorem chunkParts_flatten {later : List α} {groups : List (List (List α))}
    (nonempty : ∀ g ∈ groups, g ≠ []) (s : List α) :
    (chunkParts mark sep n later groups s).flatten =
      blocks mark sep n s ++ groups.flatten := by
  induction s with
  | nil => rfl
  | cons x rest ih =>
      rw [chunkParts, blocks]
      split
      · split
        · next link =>
          have some_ := blocks_ne_nil_of_linked link
          rw [← joinHead_append some_, ← ih]
          cases old : chunkParts mark sep n later groups rest with
          | nil => rfl
          | cons g gs =>
              have full : g ≠ [] := by
                have each : ∀ h ∈ chunkParts mark sep n later groups rest, h ≠ [] :=
                  chunkParts_nonempty nonempty rest
                exact each g (by simp [old])
              rw [joinFirst, List.flatten_cons, List.flatten_cons, joinHead_append full]
        · rw [List.cons_append, ← ih]
          split
          · cases chunkParts mark sep n later groups rest <;> rfl
          · rfl
      · exact ih

/-- One after the other, the parts of the chains are the chains of the parts of the list. -/
theorem parts_flatten (chunks : List (List α)) :
    (parts mark sep n chunks).flatten = chunks.flatMap (blocks mark sep n) := by
  induction chunks with
  | nil => rfl
  | cons chunk chunks ih =>
      rw [parts, chunkParts_flatten (parts_nonempty chunks), ih, List.flatMap_cons]

/-! ### Refilling -/

theorem refill_nil (layout : List α) : refill mark [] layout = layout := by
  cases layout <;> rfl

theorem refill_append {ds front : List α} (fits : ds.length = front.countP mark)
    (es back : List α) :
    refill mark (ds ++ es) (front ++ back) = refill mark ds front ++ refill mark es back := by
  induction front generalizing ds with
  | nil =>
      rw [List.countP_nil, List.length_eq_zero_iff] at fits
      rw [fits]
      rfl
  | cons x front ih =>
      by_cases marked : mark x = true
      · rw [List.countP_cons_of_pos marked] at fits
        cases ds with
        | nil => cases fits
        | cons d ds =>
            rw [List.cons_append, List.cons_append, refill, refill, if_pos marked, if_pos marked,
              ih (Nat.succ.inj fits), List.cons_append]
      · rw [List.countP_cons_of_neg marked] at fits
        cases ds with
        | nil =>
            have rest := ih fits
            rw [List.nil_append, refill_nil] at rest ⊢
            cases es with
            | nil => rw [refill_nil, refill_nil]
            | cons e es => rw [List.cons_append, refill, if_neg marked, rest, List.cons_append]
        | cons d ds =>
            rw [List.cons_append, List.cons_append, refill, refill, if_neg marked, if_neg marked,
              ← List.cons_append, ih fits, List.cons_append]

/-- Elements that are not marked are skipped. -/
theorem refill_gap {gap : List α} (bare : ∀ y ∈ gap, mark y = false) (ds layout : List α) :
    refill mark ds (gap ++ layout) = gap ++ refill mark ds layout := by
  have fits : ([] : List α).length = gap.countP mark := by
    rw [eq_comm, List.length_nil, List.countP_eq_zero]
    intro y member
    rw [bare y member]
    exact Bool.false_ne_true
  have split := refill_append fits ds layout
  rwa [List.nil_append, refill_nil] at split

/-- A layout shows what it was filled with. -/
theorem refill_inj {ds es layout : List α} (fits : ds.length = layout.countP mark)
    (fits' : es.length = layout.countP mark) :
    refill mark ds layout = refill mark es layout ↔ ds = es := by
  refine ⟨fun same => ?_, fun same => same ▸ rfl⟩
  induction layout generalizing ds es with
  | nil =>
      rw [List.countP_nil, List.length_eq_zero_iff] at fits fits'
      rw [fits, fits']
  | cons x layout ih =>
      by_cases marked : mark x = true
      · rw [List.countP_cons_of_pos marked] at fits fits'
        cases ds with
        | nil => cases fits
        | cons d ds =>
            cases es with
            | nil => cases fits'
            | cons e es =>
                rw [refill, refill, if_pos marked, if_pos marked] at same
                obtain ⟨rfl, rest⟩ := List.cons.inj same
                rw [ih (Nat.succ.inj fits) (Nat.succ.inj fits') rest]
      · rw [List.countP_cons_of_neg marked] at fits fits'
        cases ds with
        | nil =>
            have none_ : es.length = 0 := fits'.trans fits.symm
            exact (List.length_eq_zero_iff.mp none_).symm
        | cons d ds =>
            cases es with
            | nil => cases fits.trans fits'.symm
            | cons e es =>
                rw [refill, refill, if_neg marked, if_neg marked] at same
                exact ih fits fits' (List.cons.inj same).2

/-- A layout that keeps its own elements is as it was. -/
theorem refill_filter (layout : List α) : refill mark (layout.filter mark) layout = layout := by
  induction layout with
  | nil => cases List.filter mark [] <;> rfl
  | cons x layout ih =>
      by_cases marked : mark x = true
      · rw [List.filter_cons_of_pos marked, refill, if_pos marked, ih]
      · rw [List.filter_cons_of_neg marked]
        cases kept : layout.filter mark with
        | nil => exact refill_nil _
        | cons d ds =>
            rw [kept] at ih
            rw [refill, if_neg marked, ih]

/-! ### Chains that are rewritten -/

theorem length_flatMap_keeps {f : List α → List α} (keeps : ∀ b, (f b).length = b.length)
    (bs : List (List α)) : (bs.flatMap f).length = bs.flatten.length := by
  rw [List.length_flatMap, List.length_flatten]
  simp only [keeps]

theorem length_flatMap_blocks {f : List α → List α} (keeps : ∀ b, (f b).length = b.length)
    (s : List α) : ((blocks mark sep n s).flatMap f).length = s.countP mark := by
  rw [length_flatMap_keeps keeps, blocks_flatten, List.countP_eq_length_filter]

/-- Parts that are refilled for themselves make up the whole refilled with what they got. -/
theorem flatMap_refill {f : List α → List α} (keeps : ∀ b, (f b).length = b.length)
    (chunks : List (List α)) :
    chunks.flatMap (fun c => refill mark ((blocks mark sep n c).flatMap f) c) =
      refill mark ((chunks.flatMap (blocks mark sep n)).flatMap f) chunks.flatten := by
  induction chunks with
  | nil => rfl
  | cons chunk chunks ih =>
      rw [List.flatMap_cons, ih, List.flatMap_cons, List.flatMap_append, List.flatten_cons,
        refill_append (length_flatMap_blocks keeps chunk)]

/-- A function that keeps lengths does the same on whole chains and on their parts exactly when it does so
on each chain. -/
theorem flatMap_flatten_iff {f : List α → List α} (keeps : ∀ b, (f b).length = b.length)
    (groups : List (List (List α))) :
    groups.flatMap (fun g => f g.flatten) = groups.flatten.flatMap f ↔
      ∀ g ∈ groups, f g.flatten = g.flatMap f := by
  induction groups with
  | nil => exact iff_of_true rfl nofun
  | cons g groups ih =>
      rw [List.flatMap_cons, List.flatten_cons, List.flatMap_append, List.forall_mem_cons, ← ih]
      have fits : (f g.flatten).length = (g.flatMap f).length := by
        rw [keeps, length_flatMap_keeps keeps]
      constructor
      · exact fun same => List.append_inj same fits
      · rintro ⟨first, later⟩
        rw [first, later]

/-- To refill the chains of each part or those of the whole makes no difference exactly when the function
does the same on every chain and on its parts. -/
theorem flatMap_refill_eq_iff {f : List α → List α} (keeps : ∀ b, (f b).length = b.length)
    (chunks : List (List α)) :
    chunks.flatMap (fun c => refill mark ((blocks mark sep n c).flatMap f) c) =
        refill mark ((blocks mark sep n chunks.flatten).flatMap f) chunks.flatten ↔
      ∀ g ∈ parts mark sep n chunks, f g.flatten = g.flatMap f := by
  have mapped : (parts mark sep n chunks).map List.flatten = blocks mark sep n chunks.flatten :=
    parts_map_flatten chunks
  have flat : (parts mark sep n chunks).flatten = chunks.flatMap (blocks mark sep n) :=
    parts_flatten chunks
  have whole : ((blocks mark sep n chunks.flatten).flatMap f).length = chunks.flatten.countP mark :=
    length_flatMap_blocks keeps chunks.flatten
  have cut : ((parts mark sep n chunks).flatten.flatMap f).length = chunks.flatten.countP mark := by
    rw [length_flatMap_keeps keeps, List.flatten_flatten, mapped, blocks_flatten,
      List.countP_eq_length_filter]
  rw [flatMap_refill keeps, ← flat, refill_inj cut whole, ← mapped, List.flatMap_map,
    ← flatMap_flatten_iff keeps]
  exact eq_comm

end Chains

end GhostPour