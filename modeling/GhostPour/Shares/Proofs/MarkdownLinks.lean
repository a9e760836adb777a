/-
Module: GhostPour.Shares.Proofs.MarkdownLinks
Layer: Proofs
Purpose: The inline markdown of the share page. The first four rewrites put tags where the author put marks,
  so that their result is the author's text piece by piece; the link pattern cuts it at brackets and
  parentheses, which no piece has, and the page has its own tags only.
Trusted boundary: none
Main exports: Wrote, Wraps, written_emphasised, Tagged, link_text, written_link, tagged_mdInline
-/
import GhostPour.Library.RegexRewrite
import GhostPour.Shares.Proofs.EscapedLines

namespace GhostPour.Shares

open Regex

/-! ### What the rewrites write -/

/-- The marks that the first four rewrites take away. -/
def marks : List PyStr := [py "**", py "__", py "*", [96]]

/-- The tags that they put in. -/
def inlineTags : List PyStr :=
  [py "<strong>", py "</strong>", py "<em>", py "</em>", py "<code>", py "</code>"]

/-- A piece of the author's text, and what is written for it. -/
inductive Wrote : PyStr → PyStr → Prop
  | char (c : Nat) : Wrote [c] (escChar c)
  | mark {m t : PyStr} (mark : m ∈ marks) (tag : t ∈ inlineTags) : Wrote m t

/-- A character that is in no entity and in no tag. -/
def Free (c : Nat) : Prop := Bare c ∧ ∀ t ∈ inlineTags, c ∉ t

instance (c : Nat) : Decidable (Free c) := inferInstanceAs (Decidable (_ ∧ _))

theorem wrote_stands {c : Nat} (free : Free c) : Stands Wrote c := by
  intro u v wrote member
  cases wrote with
  | char x => exact escaped_stands free.1 _ _ (.char x) member
  | mark mark tag => exact absurd member (free.2 v tag)

theorem wrote_ne_nil (u v : PyStr) (wrote : Wrote u v) : v ≠ [] := by
  cases wrote with
  | char c =>
      rcases escChar_cases c with ⟨_, e, entity, rfl, written⟩ | ⟨_, written⟩
      · rw [written]
        exact (entityAt_entity [] e entity).2
      · rw [written]
        exact List.cons_ne_nil c []
  | mark mark tag =>
      have each : ∀ t ∈ inlineTags, t ≠ [] := by decide
      exact each v tag

/-- A pattern that matches a text between two marks, and captures it. -/
def Wraps (r : Regex) (m : PyStr) : Prop :=
  ∀ prev text d, d ∈ run r ⟨prev, text ++ d.after, []⟩ →
    ∃ g, text = m ++ (g ++ m) ∧ d.groups = [(1, g)]

theorem spells_plusLazy (p : Nat → Bool) : ∃ L, Spells (plusLazy (.set p)) L :=
  ⟨_, (spells_set p).seq (spells_manyLazy_set p)⟩

theorem wraps_between {a r : Regex} {m : PyStr} {L : PyStr → Prop} (mark : Spells a (· = m))
    (inner : Spells r L) : Wraps (seqs [a, .group 1 r, a]) m := by
  intro prev text d reached
  rw [mem_run_seqs] at reached
  obtain ⟨b, opened, reached⟩ := reached
  rw [mem_run_seqs] at reached
  obtain ⟨c, captured, closed⟩ := reached
  obtain ⟨_, rfl, split, moved⟩ := (mark _ _).mp opened
  obtain ⟨g, _, split', moved'⟩ := (mem_run_group inner 1).mp captured
  obtain ⟨_, rfl, split'', moved''⟩ := (mark _ _).mp closed
  refine ⟨g, ?_, ?_⟩
  · rw [split', split'', ← List.append_assoc, ← List.append_assoc] at split
    rw [List.append_cancel_right split, List.append_assoc]
  · rw [moved'', moved', moved]
    rfl

theorem wraps_starBold : Wraps starBold (py "**") :=
  wraps_between (spells_lit _) (spells_plusLazy _).choose_spec

theorem wraps_lineBold : Wraps lineBold (py "__") :=
  wraps_between (spells_lit _) (spells_plusLazy _).choose_spec

theorem wraps_codeSpan : Wraps codeSpan [96] :=
  wraps_between (spells_char 96) (spells_plusLazy _).choose_spec

theorem wraps_starItalic [PyRuntime] : Wraps starItalic (py "*") := by
  intro prev text d reached
  obtain ⟨L, inner⟩ := spells_plusLazy (· != 10)
  rw [starItalic, mem_run_seqs] at reached
  obtain ⟨a, free, reached⟩ := reached
  obtain ⟨_, rfl⟩ := mem_run_test.mp free
  rw [mem_run_seqs] at reached
  obtain ⟨b, opened, reached⟩ := reached
  rw [mem_run_seqs] at reached
  obtain ⟨b', ink, reached⟩ := reached
  obtain ⟨_, rfl⟩ := mem_run_test.mp ink
  rw [mem_run_seqs] at reached
  obtain ⟨c, captured, reached⟩ := reached
  rw [mem_run_seqs] at reached
  obtain ⟨c', ink', reached⟩ := reached
  obtain ⟨_, rfl⟩ := mem_run_test.mp ink'
  rw [mem_run_seqs] at reached
  obtain ⟨e, closed, free'⟩ := reached
  obtain ⟨_, rfl⟩ := mem_run_test.mp free'
  obtain ⟨_, rfl, split, moved⟩ := (spells_lit _ _ _).mp opened
  obtain ⟨g, _, split', moved'⟩ := (mem_run_group inner 1).mp captured
  obtain ⟨_, rfl, split'', moved''⟩ := (spells_lit _ _ _).mp closed
  refine ⟨g, ?_, ?_⟩
  · rw [split', split'', ← List.append_assoc, ← List.append_assoc] at split
    rw [List.append_cancel_right split, List.append_assoc]
    rfl
  · rw [moved'', moved', moved]
    rfl

/-- A rewrite puts tags where the author put marks. -/
theorem written_emphasise {r : Regex} {c : Nat} {m name s t : PyStr} (wraps : Wraps r (c :: m))
    (mark : c :: m ∈ marks) (free : ∀ d ∈ c :: m, Free d) (opening : py "<" ++ name ++ py ">" ∈ inlineTags)
    (ending : py "</" ++ name ++ py ">" ∈ inlineTags) (aligned : Aligned Wrote s t) :
    Aligned Wrote s (emphasise r name t) := by
  have stands : ∀ d ∈ c :: m, Stands Wrote d := fun d member => wrote_stands (free d member)
  refine (subWith_rewrites r _ t).preserves ?_ aligned
  rintro text _ ⟨prev, d, i, _, reached, rfl⟩ a b aligned
  obtain ⟨g, rfl, groups⟩ := wraps prev text d reached
  have captured : ((Match.mk i (c :: m ++ (g ++ (c :: m))) d.groups).group 1).getD [] = g := by
    rw [Match.group, groups]
    rfl
  beta_reduce
  rw [captured, element]
  generalize py "<" ++ name ++ py ">" = opens at opening ⊢
  generalize py "</" ++ name ++ py ">" = closes at ending ⊢
  rw [List.append_assoc, List.append_assoc] at aligned
  obtain ⟨p, q, rfl, front, back⟩ := aligned.split_run wrote_ne_nil stands
  obtain ⟨p', q', rfl, inner, back⟩ := back.split_run wrote_ne_nil stands
  rw [List.append_assoc, List.append_assoc]
  exact front.append ((Aligned.single (.mark mark opening)).append
    (inner.append ((Aligned.single (.mark mark ending)).append back)))

/-- What the link pattern sees is the author's text, piece by piece. -/
theorem written_emphasised [PyRuntime] (c : PyStr) : Aligned Wrote c (emphasised (esc c)) := by
  have escaped : Aligned Wrote c (esc c) := by
    rw [esc_eq]
    exact Aligned.flatMap (fun x => .char x) c
  rw [emphasised]
  refine written_emphasise wraps_codeSpan (by decide) (by decide) (by decide) (by decide) ?_
  refine written_emphasise wraps_starItalic (by decide) (by decide) (by decide) (by decide) ?_
  refine written_emphasise wraps_lineBold (by decide) (by decide) (by decide) (by decide) ?_
  exact written_emphasise wraps_starBold (by decide) (by decide) (by decide) (by decide) escaped

/-! ### Tags -/

/-- The tags of the page, but the one that opens a link. -/
def pageTags : List PyStr :=
  (["ul", "li", "h3", "h4", "h5", "h6", "p", "strong", "em", "code", "a"].map py).flatMap fun name =>
    [py "<" ++ name ++ py ">", py "</" ++ name ++ py ">"]

/-- The tag that opens a link. -/
def anchor (href : PyStr) : PyStr :=
  py "<a href=\"" ++ href ++ py "\" target=\"_blank\" rel=\"noopener nofollow\">"

/-- A text in which every opening bracket is one of a tag of the page, and no attribute of a link has a
bracket or a quote in it. -/
inductive Tagged : PyStr → Prop
  | nil : Tagged []
  | char {c : Nat} {s : PyStr} (plain : c ≠ '<'.toNat) (later : Tagged s) : Tagged (c :: s)
  | tag {t s : PyStr} (known : t ∈ pageTags) (later : Tagged s) : Tagged (t ++ s)
  | link {href s : PyStr} (quoted : ∀ c ∈ href, c ∉ py "<>\"'") (later : Tagged s) :
      Tagged (anchor href ++ s)

theorem Tagged.append {s t : PyStr} (front : Tagged s) (back : Tagged t) : Tagged (s ++ t) := by
  induction front with
  | nil => exact back
  | char plain later ih => exact .char plain ih
  | tag known later ih =>
      rw [List.append_assoc]
      exact .tag known ih
  | link quoted later ih =>
      rw [List.append_assoc]
      exact .link quoted ih

theorem tagged_tag {t : PyStr} (known : t ∈ pageTags) : Tagged t := by
  have alone := Tagged.tag known .nil
  rwa [List.append_nil] at alone

theorem tagged_plain {s : PyStr} (plain : ∀ c ∈ s, c ≠ '<'.toNat) : Tagged s := by
  induction s with
  | nil => exact .nil
  | cons c s ih =>
      rw [List.forall_mem_cons] at plain
      exact .char plain.1 (ih plain.2)

theorem escChar_quoted (x : Nat) : ∀ c ∈ escChar x, c ∉ py "<>\"'" := by
  intro c member
  rcases escChar_cases x with ⟨_, e, entity, rfl, written⟩ | ⟨plain, written⟩
  · have each : ∀ e ∈ entities, ∀ c ∈ e.2, c ∉ py "<>\"'" := by decide
    rw [written] at member
    exact each e entity c member
  · rw [written, List.mem_singleton] at member
    rw [member]
    intro listed
    have each : ∀ c ∈ py "<>\"'", isSpecial c = true := by decide
    rw [each x listed] at plain
    cases plain

/-- An escaped text has no bracket and no quote. -/
theorem esc_quoted (s : PyStr) : ∀ c ∈ esc s, c ∉ py "<>\"'" := by
  intro c member
  rw [esc_eq, List.mem_flatMap] at member
  obtain ⟨x, _, member⟩ := member
  exact escChar_quoted x c member

theorem tagged_written {s t : PyStr} (aligned : Aligned Wrote s t) : Tagged t := by
  induction aligned with
  | nil => exact .nil
  | piece related later ih =>
      refine Tagged.append ?_ ih
      cases related with
      | char c =>
          refine tagged_plain fun x member same => escChar_quoted c x member ?_
          rw [same]
          decide
      | mark mark tag =>
          have each : ∀ t ∈ inlineTags, t ∈ pageTags := by decide
          exact tagged_tag (each _ tag)

/-! ### The link pattern -/

/-- The text and the groups of a match of the link pattern. -/
theorem link_text {prev : Option Nat} {text : PyStr} {d : Cursor}
    (reached : d ∈ run link ⟨prev, text ++ d.after, []⟩) : ∃ label url,
      text = py "[" ++ (label ++ (py "](" ++ (url ++ py ")"))) ∧ d.groups = [(2, url), (1, label)] ∧
        ')'.toNat ∉ url := by
  rw [link, mem_run_seqs] at reached
  obtain ⟨a, opened, reached⟩ := reached
  rw [mem_run_seqs] at reached
  obtain ⟨b, labelled, reached⟩ := reached
  rw [mem_run_seqs] at reached
  obtain ⟨c, between, reached⟩ := reached
  rw [mem_run_seqs] at reached
  obtain ⟨e, aimed, closed⟩ := reached
  obtain ⟨_, rfl, split, moved⟩ := (spells_lit _ _ _).mp opened
  obtain ⟨label, _, split₁, moved₁⟩ := (mem_run_group (spells_plus_set _) 1).mp labelled
  obtain ⟨_, rfl, split₂, moved₂⟩ := (spells_lit _ _ _).mp between
  obtain ⟨url, ⟨_, each⟩, split₃, moved₃⟩ := (mem_run_group (spells_plus_set _) 2).mp aimed
  obtain ⟨_, rfl, split₄, moved₄⟩ := (spells_lit _ _ _).mp closed
  refine ⟨label, url, ?_, ?_, ?_⟩
  · rw [split₁, split₂, split₃, split₄] at split
    simp only [← List.append_assoc] at split
    rw [List.append_cancel_right split]
    simp only [List.append_assoc]
    rfl
  · rw [moved₄, moved₃, moved₂, moved₁, moved]
    rfl
  · intro member
    cases each _ member

/-- Where the link pattern matches, the author's text is cut at its brackets and parentheses. -/
theorem written_link {s a label url b : PyStr}
    (aligned : Aligned Wrote s (a ++ (py "[" ++ (label ++ (py "](" ++ (url ++ py ")"))) ++ b))) :
    ∃ p q r w, s = p ++ (py "[" ++ (q ++ (py "](" ++ (r ++ (py ")" ++ w))))) ∧ Aligned Wrote p a ∧
      Aligned Wrote q label ∧ Aligned Wrote r url ∧ Aligned Wrote w b := by
  have cut : ∀ {c : Nat} {m s x y : PyStr}, (∀ d ∈ c :: m, Free d) → Aligned Wrote s (x ++ (c :: m ++ y)) →
      ∃ p q, s = p ++ (c :: m ++ q) ∧ Aligned Wrote p x ∧ Aligned Wrote q y :=
    fun free aligned => aligned.split_run wrote_ne_nil fun d member => wrote_stands (free d member)
  simp only [List.append_assoc] at aligned
  obtain ⟨p, rest, rfl, front, aligned⟩ := cut (c := 91) (m := []) (by decide) aligned
  obtain ⟨q, rest, rfl, inner, aligned⟩ := cut (c := 93) (m := [40]) (by decide) aligned
  obtain ⟨r, w, rfl, target, back⟩ := cut (c := 41) (m := []) (by decide) aligned
  exact ⟨p, q, r, w, rfl, front, inner, target, back⟩

theorem tagged_ending : Tagged (py "</a>") := tagged_tag (by decide)

theorem linkText_http {i : Nat} {text label url : PyStr} {groups : List (Nat × PyStr)}
    (captured : groups = [(2, url), (1, label)]) (http : isHttp url = true) :
    linkText ⟨i, text, groups⟩ = anchor (esc url) ++ (label ++ py "</a>") := by
  have first : ((Match.mk i text groups).group 1).getD [] = label := by
    rw [Match.group, captured]
    rfl
  have second : ((Match.mk i text groups).group 2).getD [] = url := by
    rw [Match.group, captured]
    rfl
  simp only [linkText, first, second, if_pos http, anchor, List.append_assoc]

theorem linkText_other {i : Nat} {text label url : PyStr} {groups : List (Nat × PyStr)}
    (captured : groups = [(2, url), (1, label)]) (other : ¬isHttp url = true) :
    linkText ⟨i, text, groups⟩ = text := by
  have second : ((Match.mk i text groups).group 2).getD [] = url := by
    rw [Match.group, captured]
    rfl
  simp only [linkText, second, if_neg other]

section
variable [PyRuntime]

/-- The inline markdown of the author's text has the page's tags only. -/
theorem tagged_mdInline (c : PyStr) : Tagged (mdInline (esc c)) := by
  have carried := (subWith_rewrites link linkText (emphasised (esc c))).carries
    (P := fun a s => ∃ u v raw, a = u ++ v ∧ Tagged u ∧ Aligned Wrote raw (v ++ s)) ?_ ?_ []
    ⟨[], [], c, rfl, .nil, by rw [List.nil_append]; exact written_emphasised c⟩
  · obtain ⟨u, v, raw, written, front, aligned⟩ := carried
    rw [List.append_nil] at aligned
    rw [mdInline, ← List.nil_append (subWith _ _ _), written]
    exact front.append (tagged_written aligned)
  · rintro _ x s ⟨u, v, raw, rfl, front, aligned⟩
    refine ⟨u, v ++ [x], raw, List.append_assoc _ _ _, front, ?_⟩
    rwa [List.append_assoc]
  · rintro text _ ⟨prev, d, i, _, reached, rfl⟩ _ b ⟨u, v, raw, rfl, front, aligned⟩
    obtain ⟨label, url, rfl, groups, _⟩ := link_text reached
    by_cases http : isHttp url = true
    · obtain ⟨p, q, r, w, rfl, before, inner, _, back⟩ := written_link aligned
      rw [linkText_http groups http]
      have opening := Tagged.link (esc_quoted url) ((tagged_written inner).append tagged_ending)
      exact ⟨_, [], w, (List.append_nil _).symm, (front.append (tagged_written before)).append opening, back⟩
    · rw [linkText_other groups http]
      refine ⟨u, v ++ (py "[" ++ (label ++ (py "](" ++ (url ++ py ")")))), raw, List.append_assoc _ _ _, front, ?_⟩
      rwa [List.append_assoc]

end

end GhostPour.Shares
