/-
Module: GhostPour.Documents.Proofs.TabNames
Layer: Proofs
Purpose: The tab names of a workbook are legal and no two are the same in lower case. The suffixes
  tried are all different, since the numeral behind the last blank is, so one of the first of them is
  free; and no list or set is so long that its numeral leaves no room.
Trusted boundary: none
Main exports: exists_free, lower_suffixed, freeTab_spec, tabNames_legal_distinct
-/
import GhostPour.Documents.TextHygiene
import GhostPour.Library.JsonCanonical
import GhostPour.Library.RegexRewrite

namespace GhostPour

namespace Documents.Workbook

open Regex

/-! ### Looking for a free one -/

/-- Of different candidates, one more than there are values taken, one is free. -/
theorem exists_free {α : Type} {candidate : Nat → α} (different : Function.Injective candidate)
    (taken : List α) : ∃ k ≤ taken.length, candidate k ∉ taken := by
  classical
  by_contra all
  push Not at all
  have inside : (Finset.range (taken.length + 1)).image candidate ⊆ taken.toFinset := by
    intro a member
    obtain ⟨k, inRange, rfl⟩ := Finset.mem_image.mp member
    exact List.mem_toFinset.mpr (all k (Nat.lt_succ_iff.mp (Finset.mem_range.mp inRange)))
  have count := Finset.card_le_card inside
  rw [Finset.card_image_of_injective _ different, Finset.card_range] at count
  exact absurd (count.trans (List.toFinset_card_le taken)) (Nat.not_succ_le_self _)

/-! ### The numeral -/

theorem strOfNat_digits (n : Nat) : ∀ c ∈ strOfNat n, isAsciiDigit c = true := digitsOfNat_isDigit n n

theorem strOfNat_injective : Function.Injective strOfNat := by
  intro m n same
  rw [← natOfDigits_digitsOfNat m m le_rfl, ← natOfDigits_digitsOfNat n n le_rfl]
  exact congrArg natOfDigits same

theorem digitsOfNat_length (fuel : Nat) : ∀ n k, n < 10 ^ (k + 1) → (digitsOfNat fuel n).length ≤ k + 1 := by
  induction fuel with
  | zero => exact fun n k _ => Nat.le_add_left 1 k
  | succ fuel ih =>
      intro n k small
      rw [digitsOfNat]
      split
      · exact Nat.le_add_left 1 k
      · next large =>
        cases k with
        | zero => exact absurd small large
        | succ k =>
            rw [List.length_append, List.length_singleton]
            have shorter : n / 10 < 10 ^ (k + 1) := by
              rw [Nat.div_lt_iff_lt_mul (by decide), ← pow_succ]
              exact small
            exact Nat.succ_le_succ (ih (n / 10) k shorter)

theorem digit_lt {c : Nat} (digit : isAsciiDigit c = true) : c < 128 := by
  rw [isAsciiDigit, Bool.and_eq_true, decide_eq_true_eq, decide_eq_true_eq] at digit
  omega

theorem asciiLower_digit {c : Nat} (digit : isAsciiDigit c = true) : asciiLower c = c := by
  rw [isAsciiDigit, Bool.and_eq_true, decide_eq_true_eq, decide_eq_true_eq] at digit
  rw [asciiLower, if_neg]
  rw [Bool.and_eq_true, decide_eq_true_eq]
  omega

/-- The front of a name with a suffix. -/
def frontOf (base : PyStr) (n : Nat) : PyStr := upTo base (maxTab - (py " " ++ strOfNat n).length)

theorem suffixed_eq (base : PyStr) (n : Nat) : suffixed base n = frontOf base n ++ 32 :: strOfNat n := rfl

/-- In lower case, the numeral is still behind the last blank. -/
theorem lower_suffixed [PyRuntime] (base : PyStr) (n : Nat) :
    lower (suffixed base n) = lower (frontOf base n) ++ 32 :: strOfNat n := by
  have numeral : lower (strOfNat n) = strOfNat n := by
    rw [PyRuntime.lower_ascii _ fun c member => digit_lt (strOfNat_digits n c member)]
    exact (List.map_congr_left fun c member => asciiLower_digit (strOfNat_digits n c member)).trans
      (List.map_id _)
  rw [suffixed_eq, PyRuntime.lower_break _ _ _ (.inl (by decide)), numeral]

theorem behind_last_blank (a : PyStr) {d : PyStr} (digits : ∀ c ∈ d, isAsciiDigit c = true) :
    (a ++ 32 :: d).rtakeWhile isAsciiDigit = d := by
  have digits' : ∀ c ∈ d.reverse, isAsciiDigit c = true := fun c member =>
    digits c (List.mem_reverse.mp member)
  have blank : isAsciiDigit 32 = false := by decide
  rw [List.rtakeWhile, List.reverse_append, List.reverse_cons, List.append_assoc,
    List.takeWhile_append_of_pos digits', List.singleton_append, List.takeWhile_cons, blank]
  simp

theorem lower_suffixed_injective [PyRuntime] (base : PyStr) :
    Function.Injective fun n => lower (suffixed base n) := by
  intro m n same
  have ends := congrArg (List.rtakeWhile isAsciiDigit) same
  dsimp only at ends
  rw [lower_suffixed, lower_suffixed, behind_last_blank _ (strOfNat_digits m),
    behind_last_blank _ (strOfNat_digits n)] at ends
  exact strOfNat_injective ends

/-! ### The search -/

section
variable [PyRuntime] {taken : List PyStr} {base : PyStr}

/-- With a free name so many rounds away, the search ends with a free name not further away. -/
theorem freeTab_reaches (k : Nat) : ∀ fuel name n, k < fuel →
    (lower name ∉ taken ∨ ∃ j < k, lower (suffixed base (n + j)) ∉ taken) →
    ∃ found, freeTab taken base fuel name n = some found ∧ lower found ∉ taken ∧
      (found = name ∨ ∃ j < k, found = suffixed base (n + j)) := by
  induction k with
  | zero =>
      intro fuel name n enough free
      obtain ⟨fuel, rfl⟩ := Nat.exists_eq_succ_of_ne_zero (Nat.ne_of_gt enough)
      have here : lower name ∉ taken := by
        rcases free with here | ⟨_, none_, _⟩
        · exact here
        · cases none_
      exact ⟨name, by rw [freeTab, if_neg here], here, .inl rfl⟩
  | succ k ih =>
      intro fuel name n enough free
      obtain ⟨fuel, rfl⟩ := Nat.exists_eq_succ_of_ne_zero (Nat.ne_of_gt (Nat.zero_lt_of_lt enough))
      by_cases used : lower name ∈ taken
      · have later : lower (suffixed base n) ∉ taken ∨
            ∃ j < k, lower (suffixed base (n + 1 + j)) ∉ taken := by
          rcases free with here | ⟨j, near, free⟩
          · exact absurd used here
          · cases j with
            | zero => exact .inl free
            | succ j =>
                rw [← Nat.add_assoc, Nat.add_right_comm] at free
                exact .inr ⟨j, Nat.lt_of_succ_lt_succ near, free⟩
        obtain ⟨found, reached, free, which⟩ :=
          ih fuel (suffixed base n) (n + 1) (Nat.lt_of_succ_lt_succ enough) later
        refine ⟨found, by rw [freeTab, if_pos used, reached], free, .inr ?_⟩
        rcases which with rfl | ⟨j, near, rfl⟩
        · exact ⟨0, Nat.succ_pos k, rfl⟩
        · exact ⟨j + 1, Nat.succ_lt_succ near, by rw [Nat.add_right_comm, Nat.add_assoc]⟩
      · exact ⟨name, by rw [freeTab, if_neg used], used, .inl rfl⟩

/-- The search ends with a free name: the plain one, or one with a small numeral. -/
theorem freeTab_spec (name : PyStr) {fuel : Nat} (enough : taken.length + 1 < fuel) :
    ∃ found, freeTab taken base fuel name 2 = some found ∧ lower found ∉ taken ∧
      (found = name ∨ ∃ n < taken.length + 3, found = suffixed base n) := by
  have different : Function.Injective fun j => lower (suffixed base (2 + j)) :=
    (lower_suffixed_injective base).comp (add_right_injective 2)
  obtain ⟨k, near, free⟩ := exists_free different taken
  obtain ⟨found, reached, free, which⟩ :=
    freeTab_reaches (taken.length + 1) fuel name 2 enough (.inr ⟨k, Nat.lt_succ_of_le near, free⟩)
  refine ⟨found, reached, free, which.imp_right ?_⟩
  rintro ⟨j, near, rfl⟩
  exact ⟨2 + j, by omega, rfl⟩

end

/-! ### Legal names -/

/-- A name a sheet may have. -/
structure Legal (name : PyStr) : Prop where
  some_ : 1 ≤ name.length
  short : name.length ≤ 31
  clean : ∀ c ∈ name, isIllegal c = false

theorem mem_strip {s : PyStr} {c : Nat} (member : c ∈ strip s) : c ∈ s :=
  (List.dropWhile_sublist _).subset ((List.rdropWhile_prefix isSpace _).subset member)

/-- A text that starts with ink strips to one that does. -/
theorem strip_cons {c : Nat} (ink : isSpace c = false) (rest : PyStr) :
    ∃ later, strip (c :: rest) = c :: later := by
  have front : (c :: rest).dropWhile isSpace = c :: rest := by
    rw [List.dropWhile_cons_of_neg (by simp [ink])]
  rw [strip, stripBy, front]
  obtain ⟨trail, whole⟩ := List.rdropWhile_prefix isSpace (l := c :: rest)
  cases kept : (c :: rest).rdropWhile isSpace with
  | nil =>
      have blank := List.rdropWhile_eq_nil_iff.mp kept c (List.mem_cons_self ..)
      rw [ink] at blank
      cases blank
  | cons d later =>
      rw [kept, List.cons_append, List.cons.injEq] at whole
      exact ⟨later, by rw [whole.1]⟩

/-- A stripped text is empty or starts with ink. -/
theorem strip_head (s : PyStr) : strip s = [] ∨ ∃ c rest, strip s = c :: rest ∧ isSpace c = false := by
  cases front : s.dropWhile isSpace with
  | nil => exact .inl (by rw [strip, stripBy, front]; rfl)
  | cons c rest =>
      have ink : isSpace c = false := by
        have head := List.head?_dropWhile_not isSpace s
        rw [front] at head
        simpa using head
      have same : strip s = strip (c :: rest) := by
        rw [strip, stripBy, front, strip, stripBy, List.dropWhile_cons_of_neg (by simp [ink])]
      obtain ⟨later, kept⟩ := strip_cons ink rest
      exact .inr ⟨c, later, by rw [same, kept], ink⟩

/-- No illegal character is left of a text. -/
theorem sub_illegalTab (s : PyStr) : ∀ c ∈ sub illegalTab (py " ") s, isIllegal c = false := by
  intro c member
  rcases (subWith_rewrites illegalTab (fun _ => py " ") s).mem c member with
    ⟨_, _, ⟨_, _, _, _, _, rfl⟩, inNew⟩ | ⟨_, prev, rest, missed⟩
  · rw [List.mem_singleton.mp inNew]
    decide
  · by_contra illegal
    rw [Bool.not_eq_false] at illegal
    refine (spells_set isIllegal).step_ne_none ?_ ⟨c, illegal, rfl⟩ prev rest missed
    rintro _ ⟨x, _, rfl⟩
    exact List.cons_ne_nil x []

theorem sub_spaces_clean {s : PyStr} (clean : ∀ c ∈ s, isIllegal c = false) :
    ∀ c ∈ sub (plus space) (py " ") s, isIllegal c = false := by
  intro c member
  rcases (subWith_rewrites (plus space) (fun _ => py " ") s).mem c member with
    ⟨_, _, ⟨_, _, _, _, _, rfl⟩, inNew⟩ | ⟨inText, _⟩
  · rw [List.mem_singleton.mp inNew]
    decide
  · exact clean c inText

theorem legal_plainTab [PyRuntime] (raw : Option PyStr) : Legal (plainTab raw) := by
  have clean := sub_spaces_clean (sub_illegalTab
    (sub spacedHyphen (py ", ") (TextHygiene.normalizeDashes (orSheet (raw.getD [])))))
  unfold plainTab
  extract_lets name name' name''
  change ∀ c ∈ sub (plus space) (py " ") name', isIllegal c = false at clean
  -- a text that starts with ink, and has no illegal character
  have starts : ∃ c rest, name'' = c :: rest ∧ isSpace c = false ∧
      ∀ d ∈ name'', isIllegal d = false := by
    rcases strip_head (sub (plus space) (py " ") name') with empty | ⟨c, rest, shape, ink⟩
    · have sheet : name'' = py "Sheet" := by rw [show name'' = orSheet _ from rfl, empty]; rfl
      rw [sheet]
      exact ⟨83, py "heet", rfl, by decide, by decide⟩
    · have same : name'' = strip (sub (plus space) (py " ") name') := by
        rw [show name'' = orSheet _ from rfl, shape]
        rfl
      refine ⟨c, rest, same.trans shape, ink, fun d member => clean d (mem_strip ?_)⟩
      rw [← same]
      exact member
  obtain ⟨c, rest, shape, ink, clean⟩ := starts
  have front : name''.take maxTab = c :: rest.take 30 := by rw [shape]; rfl
  have inside : ∀ d ∈ strip (name''.take maxTab), d ∈ name''.take maxTab := fun d => mem_strip
  refine ⟨?_, ?_, fun d member => clean d (List.mem_of_mem_take (inside d member))⟩
  · obtain ⟨later, kept⟩ := strip_cons ink (rest.take 30)
    rw [front, kept, List.length_cons]
    exact Nat.le_add_left 1 _
  · have shorter : (strip (name''.take maxTab)).length ≤ (name''.take maxTab).length :=
      (List.rdropWhile_prefix isSpace _).length_le.trans (List.dropWhile_sublist _).length_le
    exact shorter.trans (List.length_take_le _ _)

theorem legal_suffixed {base : PyStr} (legal : Legal base) {n : Nat} (small : n < 10 ^ 30) :
    Legal (suffixed base n) := by
  have numeral : (strOfNat n).length ≤ 30 := digitsOfNat_length n n 29 small
  have room : frontOf base n = base.take (30 - (strOfNat n).length) := by
    have stop : ((maxTab : Int) - (py " " ++ strOfNat n).length) = ((30 - (strOfNat n).length : Nat) : Int) := by
      rw [List.length_append, Nat.cast_sub numeral]
      change (31 : Int) - ((1 + (strOfNat n).length : Nat) : Int) = _
      push_cast
      ring
    rw [frontOf, stop, upTo, if_neg (by simp), Int.toNat_natCast]
  refine ⟨?_, ?_, ?_⟩
  · rw [suffixed_eq, List.length_append, List.length_cons]
    omega
  · rw [suffixed_eq, room, List.length_append, List.length_cons]
    have front := List.length_take_le (30 - (strOfNat n).length) base
    omega
  · rw [suffixed_eq, room]
    intro c member
    rcases List.mem_append.mp member with inFront | inSuffix
    · exact legal.clean c (List.mem_of_mem_take inFront)
    · rcases List.mem_cons.mp inSuffix with rfl | inNumeral
      · decide
      · have digit := strOfNat_digits n c inNumeral
        by_contra illegal
        rw [Bool.not_eq_false, isIllegal, List.contains_iff_mem] at illegal
        have none_ : ∀ x ∈ py "[]:*?/\\", isAsciiDigit x = false := by decide
        rw [none_ c illegal] at digit
        cases digit

/-! ### One name after the other -/

section
variable [PyRuntime]

theorem tabName_spec (raw : Option PyStr) {taken : List PyStr} (few : taken.length + 3 ≤ 10 ^ 30) {fuel : Nat}
    (enough : taken.length + 1 < fuel) : ∃ name, tabName fuel raw taken = some (name, lower name :: taken) ∧
      lower name ∉ taken ∧ Legal name := by
  obtain ⟨name, reached, free, which⟩ := @freeTab_spec _ _ (plainTab raw) (plainTab raw) _ enough
  have legal : Legal name := by
    rcases which with plain | ⟨n, near, numbered⟩
    · rw [plain]
      exact legal_plainTab raw
    · rw [numbered]
      exact legal_suffixed (legal_plainTab raw) (near.trans_le few)
  exact ⟨name, by rw [tabName, reached, Option.map_some], free, legal⟩

theorem tabNames_spec (raws : List (Option PyStr)) : ∀ (taken : List PyStr) (fuel : Nat),
    taken.length + raws.length + 3 ≤ 10 ^ 30 → taken.length + raws.length + 1 < fuel →
    ∃ names after, tabNames fuel raws taken = some (names, after) ∧ names.length = raws.length ∧
      names.Pairwise (fun a b => lower a ≠ lower b) ∧
      ∀ name ∈ names, lower name ∉ taken ∧ Legal name := by
  induction raws with
  | nil => exact fun taken fuel _ _ => ⟨[], taken, rfl, rfl, .nil, nofun⟩
  | cons raw raws ih =>
      intro taken fuel few enough
      rw [List.length_cons] at few enough
      have few' : taken.length + 3 ≤ 10 ^ 30 := le_trans (by omega) few
      have enough' : taken.length + 1 < fuel := by omega
      obtain ⟨name, first, free, legal⟩ := tabName_spec raw few' enough'
      have few'' : (lower name :: taken).length + raws.length + 3 ≤ 10 ^ 30 := by
        rw [List.length_cons]
        exact le_trans (by omega) few
      obtain ⟨names, after, later, length, different, each⟩ :=
        ih (lower name :: taken) fuel few'' (by rw [List.length_cons]; omega)
      refine ⟨name :: names, after, ?_, by rw [List.length_cons, length]; rfl, ?_, ?_⟩
      · rw [tabNames, first, Option.bind_some]
        dsimp only
        rw [later, Option.map_some]
      · refine List.pairwise_cons.mpr ⟨fun other member same => ?_, different⟩
        exact (each other member).1 (same ▸ List.mem_cons_self ..)
      · refine List.forall_mem_cons.mpr ⟨⟨free, legal⟩, fun other member => ?_⟩
        exact ⟨fun used => (each other member).1 (List.mem_cons_of_mem _ used), (each other member).2⟩

/-- Every search ends, and the names are legal, pairwise different ignoring case and different from
those already taken. -/
theorem tabNames_legal_distinct (raws : Sized (Option PyStr)) (taken : Sized PyStr) :
    ∃ enough, ∀ fuel ≥ enough, ∃ names after,
      tabNames fuel raws.items taken.items = some (names, after) ∧
      names.length = raws.items.length ∧
      names.Pairwise (fun a b => lower a ≠ lower b) ∧
      ∀ name ∈ names, lower name ∉ taken.items ∧ 1 ≤ name.length ∧ name.length ≤ 31 ∧
        ∀ c ∈ name, isIllegal c = false := by
  have few : taken.items.length + raws.items.length + 3 ≤ 10 ^ 30 := by
    have one := raws.bounded
    have two := taken.bounded
    norm_num at one two ⊢
    omega
  refine ⟨taken.items.length + raws.items.length + 2, fun fuel enough => ?_⟩
  obtain ⟨names, after, reached, length, different, each⟩ :=
    tabNames_spec raws.items taken.items fuel few (by omega)
  refine ⟨names, after, reached, length, different, fun name member => ?_⟩
  obtain ⟨free, legal⟩ := each name member
  exact ⟨free, legal.some_, legal.short, legal.clean⟩

end

end Documents.Workbook

end GhostPour
