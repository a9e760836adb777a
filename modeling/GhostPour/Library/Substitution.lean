/-
Module: GhostPour.Library.Substitution
Layer: Library
Purpose: Putting values in the place of placeholders: one placeholder after the other by global
  replacement over the growing text, as `str.replace` does it, against all of them at once. A text is
  seen as pieces, characters of the template and inserted values, and the two agree while every
  replacement meets its placeholder only as a run of characters of the template.
Trusted boundary: human-reviewed spec
Main exports: replaceAll, Piece, OnlyLiteral, replaceAll_text, Part, parse, Separated, simultaneous,
  pieces, replaceInOrder, OnlyTemplate, onlyTemplate_iff, replaceInOrder_eq_simultaneous
-/
import Mathlib

namespace GhostPour

variable {α : Type} [DecidableEq α]

/-! ### Global replacement -/

/-- The scan of `str.replace`: so many characters are part of an occurrence already replaced. -/
def replaceFrom (p v : List α) : Nat → List α → List α
  | _, [] => []
  | 0, c :: s =>
      if p.isPrefixOf (c :: s) then v ++ replaceFrom p v (p.length - 1) s
      else c :: replaceFrom p v 0 s
  | n + 1, _ :: s => replaceFrom p v n s

/-- `s.replace(p, v)`, for a nonempty `p`. -/
def replaceAll (p v s : List α) : List α := replaceFrom p v 0 s

theorem replaceFrom_append (p v u s : List α) : replaceFrom p v u.length (u ++ s) = replaceAll p v s := by
  induction u with
  | nil => rfl
  | cons c u ih => exact ih

@[simp] theorem replaceAll_nil (p v : List α) : replaceAll p v [] = [] := rfl

/-- An occurrence is replaced, and the scan goes on after it. -/
theorem replaceAll_append {p : List α} (some_ : p ≠ []) (v s : List α) :
    replaceAll p v (p ++ s) = v ++ replaceAll p v s := by
  cases p with
  | nil => exact absurd rfl some_
  | cons c p =>
      have found : (c :: p).isPrefixOf (c :: (p ++ s)) = true :=
        List.isPrefixOf_iff_prefix.mpr (List.prefix_append (c :: p) s)
      change (if (c :: p).isPrefixOf (c :: (p ++ s)) then _ else _) = _
      rw [if_pos found]
      exact congrArg (v ++ ·) (replaceFrom_append (c :: p) v p s)

/-- A character at which no occurrence starts stays. -/
theorem replaceAll_cons {p : List α} {c : α} {s : List α} (miss : ¬p <+: c :: s) (v : List α) :
    replaceAll p v (c :: s) = c :: replaceAll p v s := by
  change (if p.isPrefixOf (c :: s) then _ else _) = _
  rw [if_neg fun found => miss (List.isPrefixOf_iff_prefix.mp found)]
  rfl

/-- A text in which no occurrence starts stays. -/
theorem replaceAll_append_of_miss {p u s : List α}
    (miss : ∀ before after, u = before ++ after → after ≠ [] → ¬p <+: after ++ s) (v : List α) :
    replaceAll p v (u ++ s) = u ++ replaceAll p v s := by
  induction u with
  | nil => rfl
  | cons c u ih =>
      have here : ¬p <+: c :: (u ++ s) := miss [] (c :: u) rfl (List.cons_ne_nil _ _)
      have later := ih fun before after split => miss (c :: before) after (by rw [split]; rfl)
      rw [List.cons_append, replaceAll_cons here, later, List.cons_append]

omit [DecidableEq α] in
/-- An occurrence in front of a character it does not have ends in front of it. -/
theorem prefix_append_cons_iff {p a b : List α} {c : α} (other : c ∉ p) :
    p <+: a ++ c :: b ↔ p <+: a := by
  constructor
  · intro here
    have upTo : a ++ [c] <+: a ++ c :: b := ⟨b, by rw [List.append_assoc]; rfl⟩
    rcases List.prefix_or_prefix_of_prefix here upTo with inside | beyond
    · rcases List.prefix_concat_iff.mp inside with rfl | short
      · exact absurd (List.mem_append_right a (List.mem_singleton_self c)) other
      · exact short
    · exact absurd (beyond.subset (List.mem_append_right a (List.mem_singleton_self c))) other
  · exact fun here => here.trans (List.prefix_append a _)

theorem replaceFrom_break {p : List α} {c : α} (some_ : p ≠ []) (other : c ∉ p) (v a b : List α) :
    ∀ n, n ≤ a.length →
      replaceFrom p v n (a ++ c :: b) = replaceFrom p v n a ++ c :: replaceAll p v b := by
  induction a with
  | nil =>
      intro n short
      obtain rfl : n = 0 := Nat.le_zero.mp short
      refine replaceAll_cons (fun here => ?_) v
      exact some_ (List.prefix_nil.mp ((prefix_append_cons_iff (a := []) other).mp here))
  | cons x a ih =>
      intro n short
      cases n with
      | succ n => exact ih n (Nat.le_of_succ_le_succ short)
      | zero =>
          by_cases found : p <+: x :: a
          · have found' := (prefix_append_cons_iff (b := b) other).mpr found
            have passed : p.length - 1 ≤ a.length := Nat.sub_le_of_le_add found.length_le
            rw [List.cons_append] at found' ⊢
            rw [replaceFrom, if_pos (List.isPrefixOf_iff_prefix.mpr found'), replaceFrom,
              if_pos (List.isPrefixOf_iff_prefix.mpr found), ih _ passed, List.append_assoc]
          · have missed := mt (prefix_append_cons_iff (b := b) other).mp found
            rw [List.cons_append] at missed ⊢
            rw [replaceFrom, if_neg (mt List.isPrefixOf_iff_prefix.mp missed), replaceFrom,
              if_neg (mt List.isPrefixOf_iff_prefix.mp found), ih 0 (Nat.zero_le _), List.cons_append]

/-- A character an occurrence does not have parts a text in two. -/
theorem replaceAll_break {p : List α} {c : α} (some_ : p ≠ []) (other : c ∉ p) (v a b : List α) :
    replaceAll p v (a ++ c :: b) = replaceAll p v a ++ c :: replaceAll p v b :=
  replaceFrom_break some_ other v a b 0 (Nat.zero_le _)

/-! ### Pieces -/

/-- A character of the template, or a value put in. -/
inductive Piece (α : Type) where
  | lit (c : α)
  | ins (v : List α)
deriving DecidableEq, Repr

/-- The text of a piece. -/
def Piece.text : Piece α → List α
  | .lit c => [c]
  | .ins v => v

/-- The text of a list of pieces. -/
def textOf (t : List (Piece α)) : List α := t.flatMap Piece.text

/-- The characters of a template. -/
def literals (s : List α) : List (Piece α) := s.map .lit

omit [DecidableEq α] in
@[simp] theorem textOf_append (t u : List (Piece α)) : textOf (t ++ u) = textOf t ++ textOf u :=
  List.flatMap_append

omit [DecidableEq α] in
@[simp] theorem textOf_literals (s : List α) : textOf (literals s) = s := by
  induction s with
  | nil => rfl
  | cons c s ih => exact congrArg (c :: ·) ih

/-- A value is put in the place of a placeholder wherever the template has it. -/
def put (p v : List α) (t : List (Piece α)) : List (Piece α) := replaceAll (literals p) [.ins v] t

theorem put_literals {p : List α} (some_ : p ≠ []) (v : List α) (t : List (Piece α)) :
    put p v (literals p ++ t) = .ins v :: put p v t :=
  replaceAll_append (fun none_ => some_ (List.map_eq_nil_iff.mp none_)) _ _

theorem put_cons {p : List α} {piece : Piece α} {t : List (Piece α)}
    (miss : ¬literals p <+: piece :: t) (v : List α) : put p v (piece :: t) = piece :: put p v t :=
  replaceAll_cons miss _

/-- A value that is in place stays. -/
theorem put_ins {p : List α} (some_ : p ≠ []) (v w : List α) (t : List (Piece α)) :
    put p v (.ins w :: t) = .ins w :: put p v t := by
  refine put_cons (fun run => ?_) v
  cases p with
  | nil => exact some_ rfl
  | cons c p => cases (List.cons_prefix_cons.mp run).1

omit [DecidableEq α] in
theorem prefix_textOf {p : List α} {t : List (Piece α)} (run : literals p <+: t) : p <+: textOf t := by
  obtain ⟨rest, rfl⟩ := run
  rw [textOf_append, textOf_literals]
  exact List.prefix_append _ _

/-- Scanning a text for a placeholder meets it only as a run of characters of the template: no
    occurrence that is replaced reaches into an inserted value, or over one. -/
inductive OnlyLiteral (p : List α) : List (Piece α) → Prop where
  | done : OnlyLiteral p []
  | found {t : List (Piece α)} (rest : OnlyLiteral p t) : OnlyLiteral p (literals p ++ t)
  | literal {c : α} {t : List (Piece α)} (miss : ¬p <+: textOf (.lit c :: t))
      (rest : OnlyLiteral p t) : OnlyLiteral p (.lit c :: t)
  | inserted {v : List α} {t : List (Piece α)}
      (miss : ∀ before after, v = before ++ after → after ≠ [] → ¬p <+: after ++ textOf t)
      (rest : OnlyLiteral p t) : OnlyLiteral p (.ins v :: t)

/-- Then replacing the placeholder in the text is putting the value in its place. -/
theorem replaceAll_text {p : List α} (some_ : p ≠ []) (v : List α) {t : List (Piece α)}
    (only : OnlyLiteral p t) : replaceAll p v (textOf t) = textOf (put p v t) := by
  induction only with
  | done => rfl
  | found rest ih =>
      rw [textOf_append, textOf_literals, replaceAll_append some_, ih, put_literals some_]
      rfl
  | @literal c t miss rest ih =>
      have away : ¬p <+: c :: textOf t := miss
      change replaceAll p v (c :: textOf t) = _
      rw [replaceAll_cons away, ih, put_cons fun run => miss (prefix_textOf run)]
      rfl
  | @inserted w t miss rest ih =>
      change replaceAll p v (w ++ textOf t) = _
      rw [replaceAll_append_of_miss miss, ih, put_ins some_]
      rfl

/-! ### All placeholders at once -/

/-- A character of a template, or a placeholder in it. -/
inductive Part (α : Type) where
  | char (c : α)
  | hole (p : List α)
deriving DecidableEq, Repr

/-- The template's own text of a part. -/
def Part.text : Part α → List α
  | .char c => [c]
  | .hole p => p

/-- The template's own text of a list of parts. -/
def templateOf (parts : List (Part α)) : List α := parts.flatMap Part.text

/-- The parts of a template, from left to right; so many characters belong to the part before. -/
def parseFrom (ps : List (List α)) : Nat → List α → List (Part α)
  | _, [] => []
  | 0, c :: s =>
      match ps.find? fun p => p.isPrefixOf (c :: s) with
      | some p => .hole p :: parseFrom ps (p.length - 1) s
      | none => .char c :: parseFrom ps 0 s
  | n + 1, _ :: s => parseFrom ps n s

/-- The parts of a template. -/
def parse (ps : List (List α)) (s : List α) : List (Part α) := parseFrom ps 0 s

/-- The value of a placeholder in a list of placeholders with their values: the first one. -/
def valueOf (ps : List (List α × List α)) (p : List α) : Option (List α) :=
  (ps.find? fun q => q.1 = p).map Prod.snd

/-- A part with the value of its placeholder. -/
def Part.filled (ps : List (List α × List α)) : Part α → List α
  | .char c => [c]
  | .hole p => (valueOf ps p).getD p

/-- The template with a value in the place of every placeholder, at once. -/
def simultaneous (ps : List (List α × List α)) (s : List α) : List α :=
  (parse (ps.map Prod.fst) s).flatMap (Part.filled ps)

/-- Every occurrence of a placeholder in a template is one of its parts: none overlap. -/
def Separated (ps : List (List α)) (s : List α) : Prop :=
  ∀ u p w, p ∈ ps → s = u ++ p ++ w → ∃ l r, parse ps s = l ++ .hole p :: r ∧ templateOf l = u

/-- One part as pieces, with the values of some placeholders in place. -/
def piecesOf (ps : List (List α × List α)) : Part α → List (Piece α)
  | .char c => [.lit c]
  | .hole p => ((valueOf ps p).map fun v => [.ins v]).getD (literals p)

/-- A template as pieces, with the values of some placeholders in place. -/
def pieces (ps : List (List α × List α)) (parts : List (Part α)) : List (Piece α) :=
  parts.flatMap (piecesOf ps)

theorem valueOf_append (ps qs : List (List α × List α)) (p : List α) :
    valueOf (ps ++ qs) p = (valueOf ps p).or (valueOf qs p) := by
  unfold valueOf
  rw [List.find?_append, Option.map_or]

theorem textOf_pieces (ps : List (List α × List α)) (parts : List (Part α)) :
    textOf (pieces ps parts) = parts.flatMap (Part.filled ps) := by
  induction parts with
  | nil => rfl
  | cons part parts ih =>
      rw [pieces, List.flatMap_cons, textOf_append, List.flatMap_cons]
      refine congrArg₂ (· ++ ·) ?_ ih
      cases part with
      | char c => rfl
      | hole p =>
          rw [piecesOf, Part.filled]
          cases valueOf ps p with
          | none => exact textOf_literals p
          | some v => exact List.append_nil v

theorem pieces_nil (parts : List (Part α)) : pieces [] parts = literals (templateOf parts) := by
  induction parts with
  | nil => rfl
  | cons part parts ih =>
      rw [pieces, List.flatMap_cons, templateOf, List.flatMap_cons, literals, List.map_append]
      refine congrArg₂ (· ++ ·) ?_ ih
      cases part <;> rfl

section Parse

variable {ps : List (List α)}

theorem parseFrom_append (u s : List α) : parseFrom ps u.length (u ++ s) = parse ps s := by
  induction u with
  | nil => rfl
  | cons c u ih => exact ih

variable (some_ : ∀ p ∈ ps, p ≠ [])

include some_

/-- The parts make up the template. -/
theorem templateOf_parse (s : List α) : templateOf (parse ps s) = s := by
  induction n : s.length using Nat.strong_induction_on generalizing s with
  | _ n ih =>
      cases s with
      | nil => rfl
      | cons c s =>
          unfold parse parseFrom
          cases found : ps.find? fun p => p.isPrefixOf (c :: s) with
          | none =>
              change c :: templateOf (parse ps s) = _
              rw [ih s.length (by rw [← n]; exact Nat.lt_succ_self _) s rfl]
          | some p =>
              have starts : p.isPrefixOf (c :: s) = true := by simpa using List.find?_some found
              obtain ⟨rest, split⟩ := List.isPrefixOf_iff_prefix.mp starts
              cases p with
              | nil => exact absurd rfl (some_ [] (List.mem_of_find?_eq_some found))
              | cons d p =>
                  cases split
                  change (c :: p) ++ templateOf (parseFrom ps p.length (p ++ rest)) = _
                  rw [parseFrom_append, ih rest.length (by rw [← n]; simp) rest rfl]
                  rfl

omit some_ in
theorem mem_of_hole {s p : List α} (hole : .hole p ∈ parse ps s) : p ∈ ps := by
  have within : ∀ (s : List α) n, .hole p ∈ parseFrom ps n s → p ∈ ps := by
    intro s
    induction s with
    | nil => intro n hole; cases hole
    | cons c s ih =>
        intro n hole
        cases n with
        | succ n => exact ih n hole
        | zero =>
            unfold parseFrom at hole
            split at hole
            · next found =>
              rcases List.mem_cons.mp hole with here | later
              · cases here
                exact List.mem_of_find?_eq_some found
              · exact ih _ later
            · rcases List.mem_cons.mp hole with here | later
              · cases here
              · exact ih _ later
  exact within s 0 hole

end Parse

/-! ### One placeholder after the other -/

omit [DecidableEq α] in
theorem literals_prefix_append {p q : List α} {t : List (Piece α)}
    (run : literals p <+: literals q ++ t) : p <+: q ∨ ∃ p', p = q ++ p' ∧ literals p' <+: t := by
  induction q generalizing p with
  | nil => exact Or.inr ⟨p, rfl, run⟩
  | cons d q ih =>
      cases p with
      | nil => exact Or.inl (List.nil_prefix)
      | cons c p =>
          obtain ⟨same, later⟩ := List.cons_prefix_cons.mp
            (run : Piece.lit c :: literals p <+: .lit d :: (literals q ++ t))
          cases same
          rcases ih later with short | ⟨p', rfl, run'⟩
          · exact Or.inl (List.cons_prefix_cons.mpr ⟨rfl, short⟩)
          · exact Or.inr ⟨p', rfl, run'⟩

/-- A run of characters of the template is one in the template. -/
theorem literals_prefix_pieces {ps : List (List α × List α)} {p : List α} {parts : List (Part α)}
    (run : literals p <+: pieces ps parts) : p <+: templateOf parts := by
  induction parts generalizing p with
  | nil =>
      have none_ : literals p = [] := List.prefix_nil.mp run
      rw [List.map_eq_nil_iff.mp none_]
      exact List.nil_prefix
  | cons part parts ih =>
      have across : ∀ q, literals p <+: literals q ++ pieces ps parts → p <+: q ++ templateOf parts := by
        intro q run
        rcases literals_prefix_append run with short | ⟨p', rfl, run'⟩
        · exact short.trans (List.prefix_append _ _)
        · exact (List.prefix_append_right_inj q).mpr (ih run')
      rw [pieces, List.flatMap_cons] at run
      cases part with
      | char c => exact across [c] run
      | hole q =>
          rw [piecesOf] at run
          cases valued : valueOf ps q with
          | none =>
              rw [valued] at run
              exact across q run
          | some v =>
              rw [valued] at run
              cases p with
              | nil => exact List.nil_prefix
              | cons c p => cases (List.cons_prefix_cons.mp run).1

section Separated

variable {ps : List (List α)} {s : List α} (some_ : ∀ p ∈ ps, p ≠ []) (separated : Separated ps s)

include some_

theorem Part.text_ne_nil {part : Part α} (member : part ∈ parse ps s) : part.text ≠ [] := by
  cases part with
  | char c => exact List.cons_ne_nil _ _
  | hole p => exact some_ p (mem_of_hole member)

include separated

/-- Where a placeholder occurs in the template, whatever part that is in, a hole for it starts. -/
theorem hole_of_occurrence {pre suf : List (Part α)} {part : Part α}
    (split : parse ps s = pre ++ part :: suf) {u w p : List α} (member : p ∈ ps)
    (inside : part.text = u ++ w) (rest_ : w ≠ []) (occurs : p <+: w ++ templateOf suf) :
    u = [] ∧ part = .hole p := by
  obtain ⟨rest, occurs⟩ := occurs
  have template : s = (templateOf pre ++ u) ++ p ++ rest := by
    have whole := templateOf_parse some_ s
    rw [split, templateOf, List.flatMap_append, List.flatMap_cons, inside] at whole
    rw [← whole, List.append_assoc, List.append_assoc, occurs, templateOf, templateOf]
    simp only [List.append_assoc]
  obtain ⟨l, r, split', text⟩ := separated _ _ _ member template
  have positive : ∀ more : List (Part α), (∀ q ∈ more, q ∈ parse ps s) → templateOf more = [] →
      more = [] := by
    intro more among empty
    cases more with
    | nil => rfl
    | cons q more =>
        rw [templateOf, List.flatMap_cons, List.append_eq_nil_iff] at empty
        exact absurd empty.1 (Part.text_ne_nil some_ (among q List.mem_cons_self))
  have both := split.symm.trans split'
  rcases List.append_eq_append_iff.mp both with ⟨more, rfl, tail⟩ | ⟨more, rfl, tail⟩
  · rw [templateOf, List.flatMap_append] at text
    have grown : templateOf more = u := List.append_cancel_left text
    cases more with
    | nil =>
        cases tail
        exact ⟨grown.symm, rfl⟩
    | cons q more =>
        cases tail
        rw [templateOf, List.flatMap_cons, inside, List.append_assoc] at grown
        have short := congrArg List.length grown
        rw [List.length_append, List.length_append] at short
        have long := List.length_pos_of_ne_nil rest_
        omega
  · rw [templateOf, templateOf, List.flatMap_append, List.append_assoc] at text
    have none_ := List.self_eq_append_right.mp text
    rw [List.append_eq_nil_iff] at none_
    have among : ∀ q ∈ more, q ∈ parse ps s := fun q member => by
      rw [split]
      exact List.mem_append_left _ (List.mem_append_right _ member)
    cases positive more among none_.1
    cases tail
    exact ⟨none_.2, rfl⟩

variable {p : List α} (member : p ∈ ps) (v : List α) (before : List (List α × List α))

include member

/-- Putting a value in the place of its placeholder adds it to those in place. -/
theorem put_pieces : put p v (pieces before (parse ps s)) =
    pieces (before ++ [(p, v)]) (parse ps s) := by
  have nonempty := some_ p member
  have valued : ∀ q, valueOf (before ++ [(p, v)]) q =
      (valueOf before q).or (if p = q then some v else none) := fun q => by
    rw [valueOf_append]
    congr 1
    by_cases same : p = q <;> simp [valueOf, same]
  -- along the parts that are left
  have along : ∀ suf pre, parse ps s = pre ++ suf →
      put p v (pieces before suf) = pieces (before ++ [(p, v)]) suf := by
    intro suf
    induction suf with
    | nil => intro pre _; rfl
    | cons part suf ih =>
        intro pre split
        have later := ih (pre ++ [part]) (by rw [split, List.append_assoc]; rfl)
        have away : ∀ u c w, part.text = u ++ c :: w → (u ≠ [] ∨ part ≠ .hole p) →
            ¬literals p <+: literals (c :: w) ++ pieces before suf := by
          intro u c w inside other run
          have occurs : p <+: (c :: w) ++ templateOf suf := by
            rcases literals_prefix_append run with short | ⟨p', rfl, run'⟩
            · exact short.trans (List.prefix_append _ _)
            · exact (List.prefix_append_right_inj (c :: w)).mpr (literals_prefix_pieces run')
          obtain ⟨start, same⟩ :=
            hole_of_occurrence some_ separated split member inside (List.cons_ne_nil _ _) occurs
          rcases other with moved | different
          · exact moved start
          · exact different same
        have kept : ∀ w u, part.text = u ++ w → part ≠ .hole p →
            put p v (literals w ++ pieces before suf) = literals w ++ put p v (pieces before suf) := by
          intro w
          induction w with
          | nil => intro u _ _; rfl
          | cons c w ihw =>
              intro u inside other
              have here : ¬literals p <+: .lit c :: (literals w ++ pieces before suf) :=
                away u c w inside (Or.inr other)
              have rest := ihw (u ++ [c]) (by rw [inside, List.append_assoc]; rfl) other
              change put p v (.lit c :: (literals w ++ pieces before suf)) = _
              rw [put_cons here, rest]
              rfl
        rw [pieces, List.flatMap_cons, pieces, List.flatMap_cons]
        change put p v (piecesOf before part ++ pieces before suf) =
          piecesOf (before ++ [(p, v)]) part ++ pieces (before ++ [(p, v)]) suf
        rw [← later]
        cases part with
        | char c => exact kept [c] [] rfl (by simp)
        | hole q =>
            rw [piecesOf, piecesOf, valued]
            cases valueOf before q with
            | some w => exact put_ins nonempty v w _
            | none =>
                by_cases same : p = q
                · subst same
                  rw [if_pos rfl]
                  exact put_literals nonempty v _
                · rw [if_neg same]
                  exact kept q [] rfl fun equal => same (Part.hole.inj equal).symm
  exact along (parse ps s) [] rfl

end Separated

/-! ### All of them, in order -/

/-- One placeholder after the other, each over the text that the last one left. -/
def replaceInOrder (ps : List (List α × List α)) (s : List α) : List α :=
  ps.foldl (fun s p => replaceAll p.1 p.2 s) s

/-- In no turn does an occurrence that is replaced reach into a value. -/
def OnlyTemplate : List (List α × List α) → List (Piece α) → Prop
  | [], _ => True
  | p :: ps, t => OnlyLiteral p.1 t ∧ OnlyTemplate ps (put p.1 p.2 t)

/-- Then the text that is left is that of the pieces. -/
theorem replaceInOrder_textOf {ps : List (List α × List α)} (some_ : ∀ p ∈ ps, p.1 ≠ [])
    {t : List (Piece α)} (only : OnlyTemplate ps t) :
    replaceInOrder ps (textOf t) = textOf (ps.foldl (fun t p => put p.1 p.2 t) t) := by
  induction ps generalizing t with
  | nil => rfl
  | cons p ps ih =>
      obtain ⟨nonempty, some_⟩ := List.forall_mem_cons.mp some_
      rw [replaceInOrder, List.foldl_cons, replaceAll_text nonempty p.2 only.1]
      exact ih some_ only.2

section InOrder

variable {qs : List (List α)} {s : List α} (some_ : ∀ q ∈ qs, q ≠ []) (separated : Separated qs s)
  {ps : List (List α × List α)} (among : ∀ p ∈ ps, p.1 ∈ qs)

include some_ separated among

theorem foldl_put_pieces (before : List (List α × List α)) :
    ps.foldl (fun t p => put p.1 p.2 t) (pieces before (parse qs s)) =
      pieces (before ++ ps) (parse qs s) := by
  induction ps generalizing before with
  | nil => rw [List.append_nil]; rfl
  | cons p ps ih =>
      obtain ⟨member, among⟩ := List.forall_mem_cons.mp among
      rw [List.foldl_cons, put_pieces some_ separated member, ih among, List.append_assoc]
      rfl

/-- A turn meets what the template has with the values of the turns before it in place. -/
theorem onlyTemplate_pieces_iff (before : List (List α × List α)) :
    OnlyTemplate ps (pieces before (parse qs s)) ↔
      ∀ done p later, ps = done ++ p :: later →
        OnlyLiteral p.1 (pieces (before ++ done) (parse qs s)) := by
  induction ps generalizing before with
  | nil =>
      refine iff_of_true trivial fun done p later split => ?_
      cases done <;> cases split
  | cons p ps ih =>
      obtain ⟨member, among⟩ := List.forall_mem_cons.mp among
      rw [OnlyTemplate, put_pieces some_ separated member, ih among]
      constructor
      · rintro ⟨first, others⟩ done q later split
        cases done with
        | nil =>
            cases split
            rw [List.append_nil]
            exact first
        | cons d done =>
            cases split
            have turn := others done q later rfl
            rwa [List.append_assoc] at turn
      · intro turns
        refine ⟨?_, fun done q later split => ?_⟩
        · have first := turns [] p ps rfl
          rwa [List.append_nil] at first
        · have turn := turns (p :: done) q later (by rw [split]; rfl)
          rwa [List.append_assoc]

theorem onlyTemplate_iff :
    OnlyTemplate ps (literals s) ↔
      ∀ done p later, ps = done ++ p :: later → OnlyLiteral p.1 (pieces done (parse qs s)) := by
  have start : literals s = pieces [] (parse qs s) := by rw [pieces_nil, templateOf_parse some_]
  rw [start]
  exact onlyTemplate_pieces_iff some_ separated among []

/-- While every turn meets its placeholder only in the template, the turns do what substituting all
    placeholders at once does. -/
theorem replaceInOrder_eq_simultaneous (only : OnlyTemplate ps (literals s)) :
    replaceInOrder ps s = (parse qs s).flatMap (Part.filled ps) := by
  have nonempty : ∀ p ∈ ps, p.1 ≠ [] := fun p member => some_ p.1 (among p member)
  have start : literals s = pieces [] (parse qs s) := by rw [pieces_nil, templateOf_parse some_]
  have run := replaceInOrder_textOf nonempty only
  rw [textOf_literals] at run
  rw [run, start, foldl_put_pieces some_ separated among, List.nil_append, textOf_pieces]

end InOrder

end GhostPour
