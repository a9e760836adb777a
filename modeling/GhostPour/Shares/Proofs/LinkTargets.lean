/-
Module: GhostPour.Shares.Proofs.LinkTargets
Layer: Proofs
Purpose: The page that `render_markdown` writes and the targets of its links. The page has its own tags only.
  The target of a link is read at the opening parenthesis that stands in the author's text where it
  stands in what the link pattern sees, and the link leads there exactly where neither an entity nor a tag
  was written in between.
Trusted boundary: none
Main exports: tagged_renderMarkdown, target, Link, links, link_spec, same_iff, Faithful, markdown_faithful_iff
-/
import GhostPour.Shares.Proofs.MarkdownLinks

namespace GhostPour.Shares

open Regex

section
variable [PyRuntime]

/-! ### The page -/

omit [PyRuntime] in
theorem tagged_element {name content : PyStr} (opening : py "<" ++ name ++ py ">" ∈ pageTags)
    (ending : py "</" ++ name ++ py ">" ∈ pageTags) (inside : Tagged content) :
    Tagged (element name content) := by
  rw [element]
  exact ((tagged_tag opening).append inside).append (tagged_tag ending)

theorem tagged_addBlock {page : PyStr × Bool} (tagged : Tagged page.1) {l : PyStr} {b : Block}
    (block : IsBlock l b) : Tagged (addBlock page b).1 := by
  have closed : Tagged (page.1 ++ if page.2 then py "</ul>" else []) := by
    refine tagged.append ?_
    split
    · exact tagged_tag (by decide)
    · exact .nil
  cases block with
  | item part =>
      have opened : Tagged (page.1 ++ if page.2 then [] else py "<ul>") := by
        refine tagged.append ?_
        split
        · exact .nil
        · exact tagged_tag (by decide)
      exact opened.append (tagged_element (by decide) (by decide) (tagged_mdInline _))
  | @heading c level part low high =>
      have known : ∀ level ∈ [3, 4, 5, 6], py "<" ++ (py "h" ++ strOfNat level) ++ py ">" ∈ pageTags ∧
          py "</" ++ (py "h" ++ strOfNat level) ++ py ">" ∈ pageTags := by decide
      have listed : level ∈ [3, 4, 5, 6] := by
        simp only [List.mem_cons, List.not_mem_nil, or_false]
        omega
      obtain ⟨opening, ending⟩ := known level listed
      exact closed.append (tagged_element opening ending (tagged_mdInline _))
  | paragraph part => exact closed.append (tagged_element (by decide) (by decide) (tagged_mdInline _))
  | blank => exact closed

/-- The page has its own tags only. -/
theorem tagged_renderMarkdown (text : PyStr) : Tagged (renderMarkdown text) := by
  have run : ∀ bs : List Block, (∀ b ∈ bs, ∃ l, IsBlock l b) → ∀ page : PyStr × Bool, Tagged page.1 →
      Tagged (bs.foldl addBlock page).1 := by
    intro bs
    induction bs with
    | nil => exact fun _ page tagged => tagged
    | cons b bs ih =>
        intro each page tagged
        rw [List.forall_mem_cons] at each
        obtain ⟨⟨l, block⟩, later⟩ := each
        exact ih later _ (tagged_addBlock tagged block)
  have each : ∀ b ∈ blocks text, ∃ l, IsBlock l b := by
    intro b member
    obtain ⟨l, _, block⟩ := mem_blocks member
    exact ⟨l, block⟩
  rw [renderMarkdown]
  refine (run _ each ([], false) .nil).append ?_
  split
  · exact tagged_tag (by decide)
  · exact .nil

/-! ### Targets -/

/-- The text behind an opening parenthesis, which is told by how many there are before it. -/
def behindOpening : Nat → PyStr → PyStr
  | _, [] => []
  | k, c :: s =>
      if c = '('.toNat then if k = 0 then s else behindOpening (k - 1) s else behindOpening k s

/-- What is between an opening parenthesis and the next closing one. -/
def target (k : Nat) (s : PyStr) : PyStr := (behindOpening k s).takeWhile (· != ')'.toNat)

/-- A link: what the author wrote as its target, and what the link pattern sees. -/
structure Link where
  url : PyStr
  seen : PyStr
  deriving DecidableEq

/-- The `href` of a link. -/
def Link.href (l : Link) : PyStr := esc l.seen

/-- The link that is made of a match: its target is at the opening parenthesis behind the label. -/
def linkOf (content seen : PyStr) (m : Match) : Option Link :=
  let label := (m.group 1).getD []
  let url := (m.group 2).getD []
  if isHttp url then
    some ⟨target ((seen.take m.start).count '('.toNat + label.count '('.toNat) content, url⟩
  else none

/-- The links that are made of a content of the author's. -/
def links (content : PyStr) : List Link :=
  let seen := emphasised (esc content)
  (finditer link seen).filterMap (linkOf content seen)

omit [PyRuntime] in
theorem behindOpening_append (a b : PyStr) : behindOpening (a.count '('.toNat) (a ++ '('.toNat :: b) = b := by
  induction a with
  | nil => rfl
  | cons c a ih =>
      rw [List.cons_append, behindOpening]
      by_cases same : c = '('.toNat
      · rw [if_pos same, same, List.count_cons_self, if_neg (Nat.succ_ne_zero _), Nat.add_sub_cancel]
        exact ih
      · rw [if_neg same, List.count_cons_of_ne (by simpa using same)]
        exact ih

omit [PyRuntime] in
/-- No piece has more of a free character than what is written for it. -/
theorem count_wrote {c : Nat} (free : Free c) (plain : isSpecial c = false) (unmarked : ∀ m ∈ marks, c ∉ m)
    (u v : PyStr) (wrote : Wrote u v) : u.count c = v.count c := by
  cases wrote with
  | char x =>
      rcases escChar_cases x with ⟨special, e, entity, rfl, written⟩ | ⟨_, written⟩
      · have other : e.1 ≠ c := by
          intro same
          rw [same, plain] at special
          cases special
        rw [written, List.count_eq_zero.mpr (free.1 e entity), List.count_eq_zero]
        simpa using Ne.symm other
      · rw [written]
  | mark mark tag =>
      rw [List.count_eq_zero.mpr (unmarked u mark), List.count_eq_zero.mpr (free.2 v tag)]

/-- What the link pattern sees of a target is written for it, piece by piece. -/
theorem link_spec {content : PyStr} {l : Link} (member : l ∈ links content) :
    Aligned Wrote l.url l.seen := by
  obtain ⟨m, found, made⟩ := List.mem_filterMap.mp member
  obtain ⟨a, d, before, split, start, reached, groups⟩ := mem_finditer found
  obtain ⟨label, url, shape, captured, open_⟩ := link_text reached
  have first : (m.group 1).getD [] = label := by
    rw [Match.group, groups, captured]
    rfl
  have second : (m.group 2).getD [] = url := by
    rw [Match.group, groups, captured]
    rfl
  have passed : (emphasised (esc content)).take m.start = a := by
    rw [start, split, List.take_left]
  have aligned := written_emphasised content
  rw [split, shape] at aligned
  obtain ⟨p, q, r, w, parts, front, inner, aimed, _⟩ := written_link aligned
  have counts : ∀ {s t : PyStr}, Aligned Wrote s t → ∀ c ∈ py "()", s.count c = t.count c := by
    intro s t aligned c member
    have each : ∀ c ∈ py "()", Free c ∧ isSpecial c = false ∧ ∀ m ∈ marks, c ∉ m := by decide
    obtain ⟨free, plain, unmarked⟩ := each c member
    exact aligned.count (count_wrote free plain unmarked)
  have closing : ')'.toNat ∉ r := by
    rw [← List.count_eq_zero, counts aimed _ (by decide), List.count_eq_zero]
    exact open_
  have opening : a.count '('.toNat + label.count '('.toNat =
      (p ++ (py "[" ++ (q ++ py "]"))).count '('.toNat := by
    have none_ : (py "[").count '('.toNat = 0 ∧ (py "]").count '('.toNat = 0 := by decide
    rw [← counts front _ (by decide), ← counts inner _ (by decide), List.count_append, List.count_append,
      List.count_append, none_.1, none_.2, Nat.zero_add, Nat.add_zero]
  have target_ : target (a.count '('.toNat + label.count '('.toNat) content = r := by
    have around : content = (p ++ (py "[" ++ (q ++ py "]"))) ++ '('.toNat :: (r ++ (py ")" ++ w)) := by
      rw [parts]
      simp only [List.append_assoc]
      rfl
    have inside : ∀ x ∈ r, (x != ')'.toNat) = true := by
      intro x member
      rw [bne_iff_ne]
      rintro rfl
      exact closing member
    rw [target, opening, around, behindOpening_append, List.takeWhile_append_of_pos inside]
    exact List.append_nil r
  simp only [linkOf, first, second, passed, target_] at made
  split at made
  · cases made
    exact aimed
  · cases made

omit [PyRuntime] in
/-- What is written for a piece is longer than the piece, but for a plain character. -/
theorem wrote_length {u v : PyStr} (wrote : Wrote u v) :
    u.length < v.length ∨ u = v ∧ (∀ c ∈ u, isSpecial c = false) := by
  cases wrote with
  | char c =>
      rcases escChar_cases c with ⟨_, e, entity, rfl, written⟩ | ⟨plain, written⟩
      · have long : ∀ e ∈ entities, 1 < e.2.length := by decide
        rw [written]
        exact .inl (long e entity)
      · rw [written]
        exact .inr ⟨rfl, by simpa using plain⟩
  | mark mark tag =>
      have short : ∀ m ∈ marks, ∀ t ∈ inlineTags, m.length < t.length := by decide
      exact .inl (short u mark v tag)

omit [PyRuntime] in
theorem written_length {s t : PyStr} (aligned : Aligned Wrote s t) :
    s.length < t.length ∨ s = t ∧ ∀ c ∈ s, isSpecial c = false := by
  induction aligned with
  | nil => exact .inr ⟨rfl, fun c member => absurd member List.not_mem_nil⟩
  | piece related later ih =>
      rw [List.length_append, List.length_append]
      rcases wrote_length related with longer | ⟨rfl, plain⟩
      · rcases ih with longer' | ⟨rfl, _⟩ <;> exact .inl (by omega)
      · rcases ih with longer' | ⟨rfl, plain'⟩
        · exact .inl (by omega)
        · exact .inr ⟨rfl, List.forall_mem_append.mpr ⟨plain, plain'⟩⟩

omit [PyRuntime] in
/-- Nothing was written for a text but the text itself, exactly where it has no special character and no
tag was put in. -/
theorem same_iff {s t : PyStr} (aligned : Aligned Wrote s t) :
    t = s ↔ (∀ c ∈ s, isSpecial c = false) ∧ '<'.toNat ∉ t := by
  constructor
  · rintro rfl
    rcases written_length aligned with longer | ⟨_, plain⟩
    · exact absurd longer (Nat.lt_irrefl _)
    · refine ⟨plain, fun member => ?_⟩
      cases plain _ member
  · rintro ⟨plain, untagged⟩
    induction aligned with
    | nil => rfl
    | piece related later ih =>
        rw [List.forall_mem_append] at plain
        rw [List.mem_append, not_or] at untagged
        rw [ih plain.2 untagged.2]
        congr 1
        cases related with
        | char c =>
            rcases escChar_cases c with ⟨special, _⟩ | ⟨_, written⟩
            · rw [plain.1 c (List.mem_singleton_self c)] at special
              cases special
            · exact written
        | mark mark tag =>
            have opened : ∀ t ∈ inlineTags, '<'.toNat ∈ t := by decide
            exact absurd (opened _ tag) untagged.1

/-! ### The result -/

/-- The markdown of a text is safe and faithful: the page has its own tags only, all of its inline markdown
is written of the author's text, and each link leads where the author said. -/
def Faithful (text : PyStr) : Prop :=
  Tagged (renderMarkdown text) ∧ (∀ e ∈ inlined text, ∃ c, c <:+: text ∧ e = esc c) ∧
    ∀ c, esc c ∈ inlined text → ∀ l ∈ links c, decode l.href = l.url

/-- The markdown of a text is faithful exactly where the author's target of no link has a special character
and no rewrite puts a tag in it. -/
theorem markdown_faithful_iff (text : PyStr) : Faithful text ↔ ∀ c, esc c ∈ inlined text → ∀ l ∈ links c,
    (∀ x ∈ l.url, isSpecial x = false) ∧ '<'.toNat ∉ l.seen := by
  have each : ∀ {c : PyStr} {l : Link}, l ∈ links c → (decode l.href = l.url ↔
      (∀ x ∈ l.url, isSpecial x = false) ∧ '<'.toNat ∉ l.seen) := by
    intro c l member
    rw [Link.href, decode_esc]
    exact same_iff (link_spec member)
  constructor
  · rintro ⟨_, _, leads⟩ c content l member
    exact (each member).mp (leads c content l member)
  · intro plain
    exact ⟨tagged_renderMarkdown text, fun e member => inlined_escaped member,
      fun c content l member => (each member).mpr (plain c content l member)⟩

end

/-- A target with an ampersand is escaped twice. -/
theorem ampersand_twice : letI := PyRuntime.ascii
    ¬Faithful (py "[x](http://a/?b&c)") := by
  let _ := PyRuntime.ascii
  rintro ⟨_, _, leads⟩
  have content : esc (py "[x](http://a/?b&c)") ∈ inlined (py "[x](http://a/?b&c)") := by decide +kernel
  have made : ⟨py "http://a/?b&c", py "http://a/?b&amp;c"⟩ ∈ links (py "[x](http://a/?b&c)") := by
    decide +kernel
  exact absurd (leads _ content _ made) (by decide +kernel)

end GhostPour.Shares
