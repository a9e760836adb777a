/-
Module: GhostPour.N400.Proofs.OathRules
Layer: Proofs
Purpose: White space and closing quotes around a sentence do not change what it offers. Every pattern
  of a locale's rule starts and ends with characters that are neither, and a negation is a word.
Trusted boundary: none
Main exports: isInk, offers_surrounded
-/
import GhostPour.Library.RegexSearch
import GhostPour.N400.Refusals
import GhostPour.N400.SentenceSplitter

namespace GhostPour.N400

open Regex

/-- A character that is no white space, closes no quote and ends no sentence. -/
def isInk (c : Nat) : Bool := !isSpace c && !closers.contains c && !(py ".!?").contains c

theorem isInk_eq (c : Nat) : isInk c = true ↔
    isSpace c = false ∧ c ∉ [34, 0x201D, 0x2019, 39, 41, 93, 187] ∧ c ∉ [46, 33, 63] := by
  have closing : closers = [34, 0x201D, 0x2019, 39, 41, 93, 187] := by decide +kernel
  have stops : py ".!?" = [46, 33, 63] := by decide +kernel
  rw [isInk, closing, stops]
  simp [and_assoc]

theorem isInk_of_sameLetter {c x : Nat} (letter : 97 ≤ c ∧ c ≤ 122 ∨ 0xE0 ≤ c ∧ c ≤ 0xFE)
    (same : sameLetter c x = true) : isInk x = true := by
  rw [isInk_eq]
  simp only [sameLetter, Bool.or_eq_true, Bool.and_eq_true, beq_iff_eq, decide_eq_true_eq] at same
  have range : 65 ≤ x ∧ x ≤ 90 ∨ 97 ≤ x ∧ x ≤ 122 ∨ 0xC0 ≤ x ∧ x ≤ 0xFE ∨ x = 0x17F ∨
      x = 0x212A ∨ x = 0x130 ∨ x = 0x131 := by omega
  simp only [isSpace, Bool.or_eq_false_iff, Bool.and_eq_false_iff, decide_eq_false_iff_not,
    beq_eq_false_iff_ne, List.mem_cons, List.not_mem_nil, or_false]
  omega

theorem Spaces.outside_ink {s : PyStr} (spaces : ∀ c ∈ s, isSpace c = true) : Outside isInk s := by
  intro c member
  simp [isInk, spaces c member]

section
variable [PyRuntime]

theorem isInk_of_word {c : Nat} (word : isWord c = true) : isInk c = true := by
  rw [isInk_eq]
  rw [isWord, Bool.or_eq_true, beq_iff_eq] at word
  rcases word with alnum | rfl
  · refine ⟨?_, ?_, ?_⟩
    · by_contra space
      rw [PyRuntime.isAlnum_space c (by simpa using space)] at alnum
      cases alnum
    · intro closer
      by_cases small : c < 128
      · rw [PyRuntime.isAlnum_ascii c small] at alnum
        simp only [isAsciiAlpha, isAsciiDigit, Bool.or_eq_true, Bool.and_eq_true,
          decide_eq_true_eq, List.mem_cons, List.not_mem_nil, or_false] at alnum closer
        omega
      · have mark : c ∈ [0xBB, 0x2019, 0x201D, 0x2026] := by
          simp only [List.mem_cons, List.not_mem_nil, or_false] at closer ⊢
          omega
        rw [PyRuntime.isAlnum_mark c mark] at alnum
        cases alnum
    · intro stop
      simp only [List.mem_cons, List.not_mem_nil, or_false] at stop
      rw [PyRuntime.isAlnum_ascii c (by omega)] at alnum
      simp only [isAsciiAlpha, isAsciiDigit, Bool.or_eq_true, Bool.and_eq_true,
        decide_eq_true_eq] at alnum
      omega
  · decide +kernel

theorem not_word_of_not_ink {c : Nat} (blank : isInk c = false) : isWord c = false := by
  by_contra word
  rw [isInk_of_word (by simpa using word)] at blank
  cases blank

end

/-! ### The shapes of the patterns -/

/-- A letter that a pattern matches in both cases. -/
def isLetterChar (c : Char) : Bool :=
  (97 ≤ c.toNat && c.toNat ≤ 122) || (0xE0 ≤ c.toNat && c.toNat ≤ 0xFE)

theorem isInk_of_letterChar {c : Char} (letter : isLetterChar c = true) {x : Nat}
    (same : sameLetter c.toNat x = true) : isInk x = true :=
  isInk_of_sameLetter (by simpa [isLetterChar] using letter) same

/-- A pattern that starts with ink and holds no assertion. -/
structure OpensInked (r : Regex) : Prop where
  starts : r.StartsIn isInk
  plain : r.plain = true

/-- A pattern that ends with ink and holds no assertion. -/
structure ClosesInked (r : Regex) : Prop where
  ends : r.EndsIn isInk
  plain : r.plain = true

/-- A pattern between two characters of ink. -/
structure Inked (r : Regex) : Prop where
  opens : OpensInked r
  closes : ClosesInked r

theorem plain_litI (text : List Char) : (litI text).plain = true := by
  induction text with
  | nil => rfl
  | cons c text ih =>
      cases text with
      | nil => rfl
      | cons d text => exact Bool.and_eq_true_iff.mpr ⟨rfl, ih⟩

theorem plain_alts {rs : List Regex} (each : ∀ r ∈ rs, r.plain = true) :
    (alts rs).plain = true := by
  induction rs with
  | nil => rfl
  | cons r rs ih =>
      have first := each r (List.mem_cons_self ..)
      cases rs with
      | nil => exact first
      | cons r' rs =>
          exact Bool.and_eq_true_iff.mpr ⟨first, ih fun r member =>
            each r (List.mem_cons_of_mem _ member)⟩

theorem OpensInked.litI {text : List Char} (ok : text.head?.any isLetterChar = true) :
    OpensInked (Regex.litI text) := by
  refine ⟨?_, plain_litI text⟩
  cases text with
  | nil => cases ok
  | cons c text => exact .litI text fun _ same => isInk_of_letterChar ok same

theorem ClosesInked.litI {text : List Char} (ok : text.getLast?.any isLetterChar = true) :
    ClosesInked (Regex.litI text) := by
  cases last : text.getLast? with
  | none =>
      rw [last] at ok
      cases ok
  | some c =>
      rw [last] at ok
      exact ⟨.litI last fun _ same => isInk_of_letterChar ok same, plain_litI text⟩

theorem Inked.litI {text : List Char} (opens : text.head?.any isLetterChar = true)
    (closes : text.getLast?.any isLetterChar = true) : Inked (Regex.litI text) :=
  ⟨.litI opens, .litI closes⟩

theorem OpensInked.seq {a b : Regex} (opens : OpensInked a) (plain : b.plain = true) :
    OpensInked (.seq a b) :=
  ⟨.seq opens.starts b, Bool.and_eq_true_iff.mpr ⟨opens.plain, plain⟩⟩

theorem ClosesInked.seq {a b : Regex} (plain : a.plain = true) (closes : ClosesInked b) :
    ClosesInked (.seq a b) :=
  ⟨.seq a closes.ends, Bool.and_eq_true_iff.mpr ⟨plain, closes.plain⟩⟩

theorem Inked.seq {a b : Regex} (opens : OpensInked a) (closes : ClosesInked b) :
    Inked (.seq a b) :=
  ⟨opens.seq closes.plain, closes.seq opens.plain⟩

theorem OpensInked.alts {rs : List Regex} (each : ∀ r ∈ rs, OpensInked r) :
    OpensInked (Regex.alts rs) :=
  ⟨.alts fun r member => (each r member).starts, plain_alts fun r member => (each r member).plain⟩

theorem Inked.alts {rs : List Regex} (each : ∀ r ∈ rs, Inked r) : Inked (Regex.alts rs) :=
  ⟨.alts fun r member => (each r member).opens,
    ⟨.alts fun r member => (each r member).closes.ends,
      plain_alts fun r member => (each r member).opens.plain⟩⟩

/-! ### The rules -/

theorem wniEn_inked : Inked wniEn := by
  apply Inked.alts
  simp only [List.forall_mem_cons]
  exact ⟨.litI rfl rfl, .litI rfl rfl,
    List.forall_mem_nil _⟩

theorem wniEs_inked : Inked wniEs := by
  apply Inked.alts
  simp only [List.forall_mem_cons]
  exact ⟨.litI rfl rfl, .litI rfl rfl,
    List.forall_mem_nil _⟩

theorem wniPt_inked : Inked wniPt := by
  apply Inked.alts
  simp only [List.forall_mem_cons]
  exact ⟨.seq (.litI rfl) (.seq rfl (.litI rfl)), .seq (.litI rfl) (.seq rfl (.litI rfl)),
    List.forall_mem_nil _⟩

theorem negEn_opens : OpensInked negEn := by
  apply OpensInked.alts
  simp only [List.forall_mem_cons]
  exact ⟨.litI rfl, .litI rfl, .litI rfl, .litI rfl, .litI rfl, .litI rfl, .litI rfl, .litI rfl,
    .litI rfl, .litI rfl,
    List.forall_mem_nil _⟩

section
variable [PyRuntime]

theorem ClosesInked.words : ClosesInked (plus word) :=
  ⟨.plus fun _ inWord => isInk_of_word inWord, rfl⟩

theorem offerEn_inked : Inked offerEn := by
  apply Inked.alts
  simp only [List.forall_mem_cons]
  exact ⟨.seq (.litI rfl) .words, .seq (.litI rfl) .words, .litI rfl rfl, .litI rfl rfl,
    .seq (.litI rfl) .words, .seq (.litI rfl) (.seq rfl (.litI rfl)), .litI rfl rfl, .litI rfl rfl,
    List.forall_mem_nil _⟩

theorem offerEs_inked : Inked offerEs := by
  apply Inked.alts
  simp only [List.forall_mem_cons]
  exact ⟨.seq (.litI rfl) .words, .litI rfl rfl, .seq (.litI rfl) .words,
    .seq (.litI rfl) .words, .litI rfl rfl, .litI rfl rfl, .litI rfl rfl,
    List.forall_mem_nil _⟩

theorem offerPt_inked : Inked offerPt := by
  apply Inked.alts
  simp only [List.forall_mem_cons]
  exact ⟨.seq (.litI rfl) .words, .litI rfl rfl, .seq (.litI rfl) .words, .litI rfl rfl,
    .litI rfl rfl, .litI rfl rfl,
    List.forall_mem_nil _⟩

theorem negEs_opens : OpensInked negEs := by
  apply OpensInked.alts
  simp only [List.forall_mem_cons]
  exact ⟨.litI rfl, .litI rfl, .seq (.litI rfl) rfl, .litI rfl, .litI rfl,
    List.forall_mem_nil _⟩

theorem negPt_opens : OpensInked negPt := by
  apply OpensInked.alts
  simp only [List.forall_mem_cons]
  exact ⟨.seq (.litI rfl) rfl, .litI rfl, .seq (.litI rfl) rfl, .litI rfl,
    List.forall_mem_nil _⟩

/-- Every pattern of a locale's rule is made of words. -/
theorem localeRules_inked (rule : OathRule) (member : rule ∈ localeRules) :
    Inked rule.wni ∧ Inked rule.offer ∧ OpensInked rule.neg := by
  simp only [localeRules, List.mem_cons, List.not_mem_nil, or_false] at member
  rcases member with rfl | rfl | rfl
  · exact ⟨wniEn_inked, offerEn_inked, negEn_opens⟩
  · exact ⟨wniEs_inked, offerEs_inked, negEs_opens⟩
  · exact ⟨wniPt_inked, offerPt_inked, negPt_opens⟩

end

/-! ### What stands around a sentence -/

theorem found_surrounded {r : Regex} (inked : Inked r) {pre post : PyStr}
    (before : Outside isInk pre) (after : Outside isInk post) (s : PyStr) :
    found r (pre ++ (s ++ post)) = found r s := by
  rw [found_append_left inked.opens.starts before fun x _ => .of_plain x inked.opens.plain]
  exact found_append_right inked.opens.starts inked.closes.ends after
    (.of_plain post inked.opens.plain) s

/-- The window before an offer gains at most blanks at its start. -/
theorem negationWindow_surrounded (pre s post : PyStr) {start : Nat} (within : start ≤ s.length) :
    ∃ pre', pre' <:+ pre ∧
      negationWindow (pre ++ (s ++ post)) (start + pre.length) = pre' ++ negationWindow s start := by
  have taken : (pre ++ (s ++ post)).take (start + pre.length) = pre ++ s.take start := by
    rw [Nat.add_comm, List.take_length_add_append, List.take_append_of_le_length within]
  rw [negationWindow, negationWindow, taken]
  by_cases far : negationGovernsWithin ≤ start
  · refine ⟨[], List.nil_suffix, ?_⟩
    have skip : start + pre.length - negationGovernsWithin =
        pre.length + (start - negationGovernsWithin) := by omega
    rw [skip, List.drop_length_add_append, List.nil_append]
  · refine ⟨pre.drop (start + pre.length - negationGovernsWithin), List.drop_suffix .., ?_⟩
    have short : start - negationGovernsWithin = 0 := by omega
    rw [short, List.drop_zero, List.drop_append_of_le_length (by omega)]

section
variable [PyRuntime]

theorem governed_surrounded {rule : OathRule} (opens : OpensInked rule.neg) {pre : PyStr}
    (before : Outside isInk pre) (s post : PyStr) {start : Nat} (within : start ≤ s.length) :
    rule.governed (pre ++ (s ++ post)) (start + pre.length) = rule.governed s start := by
  obtain ⟨pre', suffix, window⟩ := negationWindow_surrounded pre s post within
  rw [OathRule.governed, OathRule.governed, window]
  refine found_append_left (.assert _ (.seq opens.starts _))
    (fun x member => before x (suffix.subset member)) (fun x blank => ?_) _
  have boundary := Blind.bound (not_word_of_not_ink blank)
  exact .seq boundary (.seq (.of_plain x opens.plain) boundary)

/-- Blanks around a sentence move its offers and change nothing else about them. -/
theorem offers_surrounded {rule : OathRule} (member : rule ∈ localeRules) {pre post : PyStr}
    (before : Outside isInk pre) (after : Outside isInk post) (s : PyStr) :
    rule.offers (pre ++ (s ++ post)) = (rule.offers s).map (Match.shift pre.length) := by
  obtain ⟨wni, offer, neg⟩ := localeRules_inked rule member
  rw [OathRule.offers, OathRule.offers, found_surrounded wni before after,
    finditer_surrounded offer.opens.starts offer.closes.ends before after
      (fun x _ => .of_plain x offer.opens.plain) (.of_plain post offer.opens.plain)]
  split
  · rw [List.filter_map]
    congr 1
    refine List.filter_congr fun m found => ?_
    have within := start_lt_of_mem_finditer found
    have same := governed_surrounded neg before s post (Nat.le_of_lt within)
    simp only [Function.comp_apply, Match.shift, same]
  · rfl

/-- Blanks offer nothing. -/
theorem offers_blank {rule : OathRule} (member : rule ∈ localeRules) {s : PyStr}
    (blank : Outside isInk s) : rule.offers s = [] := by
  have none : rule.offers [] = [] := by
    rw [OathRule.offers, finditer_eq, matchesFrom_nil]
    exact ite_self _
  have around := offers_surrounded member blank (fun _ (none : _ ∈ []) => (by cases none)) []
  rwa [List.append_nil, List.append_nil, none] at around

end

end GhostPour.N400
