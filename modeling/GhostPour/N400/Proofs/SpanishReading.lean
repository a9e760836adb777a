/-
Module: GhostPour.N400.Proofs.SpanishReading
Layer: Proofs
Purpose: Numbers said in Spanish against the digits that are read back. The words of a number are tokens, and
  a compound is one group; between two numbers nothing is read as long as no joining word falls apart into a
  token that says a number, or into a `y` between tens and a unit. Letters are counted for the converse: a
  group too many has letters that no number was said with.
Trusted boundary: none
Main exports: foldWord_said, tokens_numeral, Joiner.Keeps, readTokens_numeral, readTokens_spoken,
  weight_append, ReadsBack, readsBack_iff, decomposed_word_read_as_number, keeps_of_spanish,
  readGroups_of_spanish
-/
import GhostPour.Library.Dicts
import GhostPour.Library.JsonCanonical
import GhostPour.Library.RegexTokens
import GhostPour.N400.SpanishSpeech

namespace GhostPour.N400.SpanishNumerals

open Regex

/-! ### Letters -/

/-- The letters of a token, in lower case. -/
def spanishLower : PyStr := py "abcdefghijklmnopqrstuvwxyzáéíóúüñ"

/-- A letter of a token. -/
def spanishLetter (c : Nat) : Bool := spanishLower.any (sameLetter · c)

/-- A mark that is a token. -/
def spanishMark (c : Nat) : Bool := (py ",.;").contains c

theorem lower_range : ∀ c ∈ spanishLower,
    (97 ≤ c ∧ c ≤ 122) ∨ (0xE0 ≤ c ∧ c ≤ 0xFE ∧ c ≠ 0xF7) := by
  decide +kernel

/-- A letter of a token is one of ASCII or Latin-1, or folds to one. -/
theorem letter_cases {c : Nat} (letter : spanishLetter c = true) :
    (c < 128 ∧ isAsciiAlpha c = true) ∨ (0xC0 ≤ c ∧ c ≤ 0xFF ∧ c ≠ 0xD7 ∧ c ≠ 0xF7) ∨
      c ∈ [0x130, 0x131, 0x17F, 0x212A] := by
  obtain ⟨x, member, same⟩ := List.any_eq_true.mp letter
  have range := lower_range x member
  simp only [sameLetter, isAsciiAlpha, Bool.or_eq_true, Bool.and_eq_true, decide_eq_true_eq, beq_iff_eq,
    List.mem_cons, List.not_mem_nil, or_false] at same ⊢
  omega

/-- A letter in any case is a letter of a token. -/
theorem letter_of_sameCase {c x : Nat} (listed : c ∈ spanishLower) (same : sameCase c x) :
    spanishLetter x = true := by
  apply List.any_eq_true.mpr
  refine ⟨c, listed, ?_⟩
  have range := lower_range c listed
  simp only [sameLetter, Bool.or_eq_true, Bool.and_eq_true, decide_eq_true_eq, beq_iff_eq]
  rcases same with rfl | capital
  · simp
  · omega

section
variable [LatinRuntime]

theorem isAlpha_letter {c : Nat} (letter : spanishLetter c = true) : isAlpha c = true := by
  rcases letter_cases letter with ⟨small, ascii⟩ | ⟨low, high, cross, slash⟩ | fold
  · rw [LatinRuntime.isAlpha_ascii c small]
    exact ascii
  · exact LatinRuntime.isAlpha_latin c low high cross slash
  · exact LatinRuntime.isAlpha_fold c fold

theorem isDigit_letter {c : Nat} (letter : spanishLetter c = true) : isDigit c = false :=
  LatinRuntime.isDigit_alpha c (isAlpha_letter letter)

theorem letter_of_decimal {c : Nat} (decimal : isDecimal c = true) : spanishLetter c = false := by
  by_contra letter
  have digit := PyRuntime.isDigit_decimal c decimal
  rw [isDigit_letter (by simpa using letter)] at digit
  cases digit

omit [LatinRuntime] in
theorem mark_cases {c : Nat} (mark : spanishMark c = true) : c = 44 ∨ c = 46 ∨ c = 59 := by
  have listed : c ∈ py ",.;" := by simpa [spanishMark] using mark
  have text : py ",.;" = [44, 46, 59] := by decide
  rw [text] at listed
  simpa using listed

theorem spanishSets : TokenSets spanishLetter isDecimal spanishMark where
  second _ decimal := letter_of_decimal decimal
  mark c mark := by
    have small : c < 128 := by
      have := mark_cases mark
      omega
    rw [isDecimal, PyRuntime.decimal_ascii c small]
    rcases mark_cases mark with rfl | rfl | rfl
    · decide +kernel
    · decide +kernel
    · decide +kernel

/-- White space is in no token. -/
theorem space_gap {c : Nat} (space : isSpace c = true) :
    spanishLetter c = false ∧ isDecimal c = false ∧ spanishMark c = false := by
  refine ⟨?_, ?_, ?_⟩
  · by_contra letter
    have alnum := LatinRuntime.isAlnum_alpha c (isAlpha_letter (by simpa using letter))
    rw [PyRuntime.isAlnum_space c space] at alnum
    cases alnum
  · by_contra decimal
    have digit := PyRuntime.isDigit_decimal c (Bool.eq_true_of_not_eq_false decimal)
    rw [PyRuntime.isDigit_space c space] at digit
    cases digit
  · by_contra mark
    rcases mark_cases (by simpa using mark) with rfl | rfl | rfl
    · cases space
    · cases space
    · cases space

/-! ### Spoken words -/

/-- A letter without its accent. -/
def plainLetter (c : Nat) : Nat := (latinNfd c).headD c

/-- A run of letters is not a run of digits. -/
theorem not_digits {w : PyStr} (letters : ∀ c ∈ w, spanishLetter c = true) :
    ¬(w ≠ [] ∧ w.all PyRuntime.isDigit = true) := by
  rintro ⟨some_, digits⟩
  obtain ⟨c, w, rfl⟩ := List.exists_cons_of_ne_nil some_
  have digit := List.all_eq_true.mp digits c List.mem_cons_self
  rw [isDigit_letter (letters c List.mem_cons_self)] at digit
  cases digit

omit [LatinRuntime] in
/-- What holds of a letter in either case holds of each letter of a word. -/
theorem forall_cased {P : Nat → Prop} (each : ∀ c ∈ spanishLower, ∀ x, sameCase c x → P x)
    {form said : PyStr} (lower_ : ∀ c ∈ form, c ∈ spanishLower)
    (cased : List.Forall₂ sameCase form said) : ∀ x ∈ said, P x := by
  induction cased with
  | nil => exact fun x member => absurd member List.not_mem_nil
  | @cons c x form said same _ ih =>
      rw [List.forall_mem_cons] at lower_
      exact List.forall_mem_cons.mpr ⟨each c lower_.1 x same, ih lower_.2⟩

omit [LatinRuntime] in
theorem latinLower_cased {form said : PyStr} (lower_ : ∀ c ∈ form, c ∈ spanishLower)
    (cased : List.Forall₂ sameCase form said) : said.map latinLower = form := by
  have small : ∀ c ∈ spanishLower, latinLower c = c ∧ latinLower (c - 32) = c := by decide +kernel
  induction cased with
  | nil => rfl
  | @cons c x form said same _ ih =>
      rw [List.forall_mem_cons] at lower_
      obtain ⟨plain, capital⟩ := small c lower_.1
      rw [List.map_cons, ih lower_.2]
      rcases same with rfl | up
      · rw [plain]
      · have below : x = c - 32 := by omega
        rw [below, capital]

/-- A letter is decomposed into a letter without accent and its accent. -/
theorem unaccented {c : Nat} (listed : c ∈ spanishLower) :
    (latinNfd c).filter (fun c => !nonspacing c) = [plainLetter c] := by
  have parts : ∀ c ∈ spanishLower, (c < 128 ∧ latinNfd c = [c]) ∨
      ∃ b < 128, ∃ a ∈ [0x301, 0x303, 0x308], latinNfd c = [b, a] := by
    have table : ∀ c ∈ spanishLower, (c < 128 ∧ latinNfd c = [c]) ∨
        ((latinNfd c).headD 0 < 128 ∧ (latinNfd c).getD 1 0 ∈ [0x301, 0x303, 0x308] ∧
          latinNfd c = [(latinNfd c).headD 0, (latinNfd c).getD 1 0]) := by
      decide +kernel
    intro c listed
    exact (table c listed).imp_right fun found => ⟨_, found.1, _, found.2.1, found.2.2⟩
  unfold plainLetter
  rcases parts c listed with ⟨small, same⟩ | ⟨b, small, a, accent, same⟩
  · rw [same, List.filter_cons_of_pos (by rw [PyRuntime.nonspacing_ascii c small]; rfl)]
    rfl
  · rw [same, List.filter_cons_of_pos (by rw [PyRuntime.nonspacing_ascii b small]; rfl),
      List.filter_cons_of_neg (by rw [LatinRuntime.nonspacing_accent a accent]; decide)]
    rfl

/-- The fold of a word in letters of any case: its form without the accents. -/
theorem foldWord_cased {form said : PyStr} (lower_ : ∀ c ∈ form, c ∈ spanishLower)
    (cased : List.Forall₂ sameCase form said) : foldWord said = form.map plainLetter := by
  have small : ∀ c ∈ said, c < 256 := by
    refine forall_cased ?_ lower_ cased
    intro c listed x same
    have range := lower_range c listed
    rcases same with rfl | capital
    · omega
    · omega
  have known : ∀ c ∈ form, c < 128 ∨ c ∈ accents.map Prod.fst := by
    have table : ∀ c ∈ spanishLower, c < 128 ∨ c ∈ accents.map Prod.fst := by decide +kernel
    exact fun c member => table c (lower_ c member)
  rw [foldWord, LatinRuntime.lower_latin said small, latinLower_cased lower_ cased,
    LatinRuntime.nfd_latin form known, List.filter_flatMap]
  clear cased known
  induction form with
  | nil => rfl
  | cons c form ih =>
      rw [List.forall_mem_cons] at lower_
      rw [List.flatMap_cons, unaccented lower_.1, ih lower_.2]
      rfl

omit [LatinRuntime] in
/-- The forms are written in the letters of a token. -/
theorem forms_lower : ∀ row ∈ singleForms ++ tenForms ++ unitForms,
    row.1 ≠ [] ∧ ∀ c ∈ row.1, c ∈ spanishLower := by
  decide +kernel

/-- What a word says once it is folded. -/
structure ReadAs (said : PyStr) (whole ten unit : Option Nat) : Prop where
  letters : ∀ c ∈ said, spanishLetter c = true
  some_ : said ≠ []
  whole : wholeNumber (foldWord said) = whole
  ten : tenWords.get (foldWord said) = ten
  unit : unitWords.get (foldWord said) = unit

theorem readAs_of_table {forms : Assoc Nat} (w : SpokenWord forms) (whole ten unit : Nat → Option Nat)
    (lower_ : ∀ row ∈ forms, row.1 ≠ [] ∧ ∀ c ∈ row.1, c ∈ spanishLower)
    (table : ∀ row ∈ forms, wholeNumber (row.1.map plainLetter) = whole row.2 ∧
      tenWords.get (row.1.map plainLetter) = ten row.2 ∧
      unitWords.get (row.1.map plainLetter) = unit row.2) :
    ReadAs w.said (whole w.value) (ten w.value) (unit w.value) := by
  obtain ⟨some_, letters⟩ := lower_ _ w.listed
  obtain ⟨whole_, ten_, unit_⟩ := table _ w.listed
  refine ⟨?_, ?_, ?_, ?_, ?_⟩
  · exact forall_cased (fun c listed x same => letter_of_sameCase listed same) letters w.cased
  · intro none_
    have cased := w.cased
    rw [none_, List.forall₂_nil_right_iff] at cased
    exact some_ cased
  · rw [foldWord_cased letters w.cased, whole_]
  · rw [foldWord_cased letters w.cased, ten_]
  · rw [foldWord_cased letters w.cased, unit_]

theorem single_readAs (w : SpokenWord singleForms) :
    ReadAs w.said (some w.value) none (if w.value < 10 then some w.value else none) := by
  have table : ∀ row ∈ singleForms, wholeNumber (row.1.map plainLetter) = some row.2 ∧
      tenWords.get (row.1.map plainLetter) = none ∧
      unitWords.get (row.1.map plainLetter) = if row.2 < 10 then some row.2 else none := by
    decide +kernel
  exact readAs_of_table w some (fun _ => none) (fun n => if n < 10 then some n else none)
    (fun row member => forms_lower row (by simp [member])) table

theorem ten_readAs (w : SpokenWord tenForms) : ReadAs w.said none (some w.value) none := by
  have table : ∀ row ∈ tenForms, wholeNumber (row.1.map plainLetter) = none ∧
      tenWords.get (row.1.map plainLetter) = some row.2 ∧
      unitWords.get (row.1.map plainLetter) = none := by
    decide +kernel
  exact readAs_of_table w (fun _ => none) some (fun _ => none)
    (fun row member => forms_lower row (by simp [member])) table

theorem unit_readAs (w : SpokenWord unitForms) :
    ReadAs w.said (some w.value) none (some w.value) := by
  have table : ∀ row ∈ unitForms, wholeNumber (row.1.map plainLetter) = some row.2 ∧
      tenWords.get (row.1.map plainLetter) = none ∧
      unitWords.get (row.1.map plainLetter) = some row.2 := by
    decide +kernel
  exact readAs_of_table w some (fun _ => none) some
    (fun row member => forms_lower row (by simp [member])) table

/-- `y` in either case. -/
theorem joined_letters {said : PyStr} (cased : List.Forall₂ sameCase (py "y") said) :
    (∀ c ∈ said, spanishLetter c = true) ∧ said ≠ [] ∧ foldWord said = py "y" := by
  have lower_ : ∀ c ∈ py "y", c ∈ spanishLower := by decide +kernel
  refine ⟨?_, ?_, ?_⟩
  · exact forall_cased (fun c listed x same => letter_of_sameCase listed same) lower_ cased
  · intro none_
    rw [none_, List.forall₂_nil_right_iff] at cased
    cases cased
  · rw [foldWord_cased lower_ cased]
    decide +kernel

/-! ### Tokens -/

/-- The words of a number are its tokens. -/
theorem tokens_numeral (n : Numeral) {s : PyStr} (stop : ∀ c ∈ s.head?, spanishLetter c = false) :
    numeralTokens (n.text ++ s) = n.words ++ numeralTokens s := by
  have word : ∀ {w s : PyStr}, (∀ c ∈ w, spanishLetter c = true) → w ≠ [] →
      (∀ c ∈ s.head?, spanishLetter c = false) → numeralTokens (w ++ s) = w :: numeralTokens s :=
    fun letters some_ stop => findall_run_append spanishSets some_ letters stop
  have gap : ∀ (g : Gap) (s : PyStr), numeralTokens (g.text ++ s) = numeralTokens s :=
    fun g s => findall_gaps spanishSets (fun c member => space_gap (g.spaces c member)) s
  have before : ∀ (g : Gap) (s : PyStr), ∀ c ∈ (g.text ++ s).head?, spanishLetter c = false := by
    intro g s c first
    obtain ⟨x, rest, split⟩ := List.exists_cons_of_ne_nil g.some_
    rw [split] at first
    cases first
    exact (space_gap (g.spaces c (split ▸ List.mem_cons_self))).1
  cases n with
  | single w => exact word (single_readAs w).letters (single_readAs w).some_ stop
  | tens w => exact word (ten_readAs w).letters (ten_readAs w).some_ stop
  | compound c =>
      obtain ⟨letters, some_, _⟩ := joined_letters c.cased
      simp only [Numeral.text, Numeral.words, List.append_assoc]
      rw [word (ten_readAs c.ten).letters (ten_readAs c.ten).some_ (before _ _), gap,
        word letters some_ (before _ _), gap,
        word (unit_readAs c.unit).letters (unit_readAs c.unit).some_ stop]
      rfl

/-- A joiner has the tokens that it has alone. -/
theorem tokens_joiner (j : Joiner) (s : PyStr) :
    numeralTokens (j.text ++ s) = numeralTokens j.text ++ numeralTokens s := by
  apply findall_append spanishSets
  intro c last
  constructor
  · by_contra letter
    have out := j.ends c last
    rw [isWordChar, isAlpha_letter (Bool.eq_true_of_not_eq_false letter), Bool.true_or] at out
    cases out
  · exact j.noDigits c (List.mem_of_getLast? last)

/-- A number ends at a joiner, and at the end. -/
theorem joiner_stops (j : Joiner) (s : PyStr) :
    ∀ c ∈ (j.text ++ s).head?, spanishLetter c = false := by
  intro c first
  obtain ⟨x, rest, same⟩ := List.exists_cons_of_ne_nil j.some_
  have starts := j.starts
  rw [same] at first starts
  cases first
  by_contra letter
  have out := starts c rfl
  rw [isWordChar, isAlpha_letter (Bool.eq_true_of_not_eq_false letter), Bool.true_or] at out
  cases out

/-- The tokens of numbers and joiners. -/
theorem tokens_spokenFrom (n : Numeral) (later : List (Joiner × Numeral)) :
    numeralTokens (spokenFrom n later) = n.words ++
      later.flatMap fun p => numeralTokens p.1.text ++ p.2.words := by
  induction later generalizing n with
  | nil =>
      have here := tokens_numeral n (s := []) (fun c member => absurd member (by simp))
      rw [List.append_nil] at here
      exact here
  | cons p later ih =>
      obtain ⟨j, next⟩ := p
      rw [spokenFrom, tokens_numeral n (joiner_stops j _), tokens_joiner, ih, List.flatMap_cons,
        List.append_assoc]

omit [LatinRuntime] in
theorem join_singleton (sep w : PyStr) : join sep [w] = w := List.append_nil w

section
variable {w : PyStr} (word : ¬(w ≠ [] ∧ w.all PyRuntime.isDigit = true)) (toks : List PyStr)
include word

theorem readTokens_whole {n : Nat} (whole : wholeNumber (foldWord w) = some n) :
    readTokens 0 (w :: toks) = (w, strOfNat n) :: readTokens 0 toks := by
  rw [readTokens, if_neg word, whole]

theorem readTokens_ten {ten : Nat} (whole : wholeNumber (foldWord w) = none)
    (tens : tenWords.get (foldWord w) = some ten) (bare : unitAfterY toks = none) :
    readTokens 0 (w :: toks) = (w, strOfNat ten) :: readTokens 0 toks := by
  rw [readTokens, if_neg word, whole, tens]
  simp only [bare]

theorem readTokens_compound {ten unit : Nat} (whole : wholeNumber (foldWord w) = none)
    (tens : tenWords.get (foldWord w) = some ten) (joined : unitAfterY toks = some unit) :
    readTokens 0 (w :: toks) =
      (join (py " ") (w :: toks.take 2), strOfNat (ten + unit)) :: readTokens 2 toks := by
  rw [readTokens, if_neg word, whole, tens]
  simp only [joined]

/-- A token that says nothing is passed. -/
theorem readTokens_quiet (whole : wholeNumber (foldWord w) = none)
    (tens : tenWords.get (foldWord w) = none) : readTokens 0 (w :: toks) = readTokens 0 toks := by
  rw [readTokens, if_neg word, whole, tens]

end

/-- A number is one group, where no `y` and unit follow bare tens. -/
theorem readTokens_numeral (n : Numeral) {toks : List PyStr}
    (bare : n.isTens = true → unitAfterY toks = none) :
    readTokens 0 (n.words ++ toks) = n.pair :: readTokens 0 toks := by
  cases n with
  | single w =>
      have reads := single_readAs w
      have first := readTokens_whole (not_digits reads.letters) toks reads.whole
      rw [Numeral.pair, Numeral.words, List.singleton_append, first, join_singleton]
      rfl
  | tens w =>
      have reads := ten_readAs w
      have first := readTokens_ten (not_digits reads.letters) toks reads.whole reads.ten (bare rfl)
      rw [Numeral.pair, Numeral.words, List.singleton_append, first, join_singleton]
      rfl
  | compound c =>
      have reads := ten_readAs c.ten
      have unit : unitAfterY (c.joined :: c.unit.said :: toks) = some c.unit.value := by
        rw [unitAfterY, if_pos (joined_letters c.cased).2.2, (unit_readAs c.unit).unit]
      exact readTokens_compound (not_digits reads.letters) _ reads.whole reads.ten unit

/-! ### Joining words -/

/-- A word that says no number by itself. -/
def saysNothing (word : PyStr) : Bool := wholeNumber word = none ∧ tenWords.get word = none

/-- A joiner keeps its numbers apart: none of its tokens says a number, and it does not come down to a `y`
between bare tens and a unit. -/
structure Joiner.Keeps (before : Numeral) (j : Joiner) (after : Numeral) : Prop where
  quiet : ∀ t ∈ numeralTokens j.text, saysNothing (foldWord t) = true
  noCompound : ¬(before.isTens = true ∧ (numeralTokens j.text).map foldWord = [py "y"] ∧
    after.isUnit = true)

/-- What a token of a joiner is: letters, or a mark. -/
theorem joiner_token {j : Joiner} {t : PyStr} (member : t ∈ numeralTokens j.text) :
    (t ≠ [] ∧ ∀ c ∈ t, spanishLetter c = true) ∨ ∃ c, spanishMark c = true ∧ t = [c] := by
  rcases (spelling spanishSets j.text).mem spanishSets member with
    ⟨_, _, _, some_, letters, _⟩ | ⟨some_, decimals, inside⟩ | mark
  · exact Or.inl ⟨some_, letters⟩
  · obtain ⟨c, t, rfl⟩ := List.exists_cons_of_ne_nil some_
    have digit := decimals c List.mem_cons_self
    rw [j.noDigits c (inside c List.mem_cons_self)] at digit
    cases digit
  · exact Or.inr mark

theorem foldWord_mark {c : Nat} (mark : spanishMark c = true) : foldWord [c] = [c] := by
  have small : c < 128 := by
    have := mark_cases mark
    omega
  have lower_ : lower [c] = [c] := by
    rw [PyRuntime.lower_ascii [c] (by simpa using small)]
    rcases mark_cases mark with rfl | rfl | rfl <;> rfl
  have nfd_ : nfd [c] = [c] := by
    have parts := PyRuntime.nfd_ascii [] c [] small
    rwa [PyRuntime.nfd_nil] at parts
  rw [foldWord, lower_, nfd_, List.filter_cons_of_pos (by rw [PyRuntime.nonspacing_ascii c small]; rfl)]
  rfl

/-- A mark says nothing, and is no `y`. -/
theorem mark_quiet {c : Nat} (mark : spanishMark c = true) :
    saysNothing (foldWord [c]) = true ∧ foldWord [c] ≠ py "y" := by
  rw [foldWord_mark mark]
  rcases mark_cases mark with rfl | rfl | rfl <;> decide +kernel

theorem joiner_not_digits {j : Joiner} {t : PyStr} (member : t ∈ numeralTokens j.text) :
    ¬(t ≠ [] ∧ t.all PyRuntime.isDigit = true) := by
  rcases joiner_token member with ⟨_, letters⟩ | ⟨c, mark, rfl⟩
  · exact not_digits letters
  · rintro ⟨_, digits⟩
    have small : c < 128 := by
      have := mark_cases mark
      omega
    rw [List.all_cons, PyRuntime.isDigit_ascii c small] at digits
    rcases mark_cases mark with rfl | rfl | rfl <;> cases digits

/-- The first word of a number. -/
theorem numeral_words (n : Numeral) : ∃ w rest, n.words = w :: rest ∧ foldWord w ≠ py "y" ∧
    ((unitWords.get (foldWord w)).isSome = n.isUnit ∧ (n.isUnit = true → rest = [])) := by
  have different : ∀ {w : PyStr} {whole ten unit : Option Nat}, ReadAs w whole ten unit →
      whole ≠ none ∨ ten ≠ none → foldWord w ≠ py "y" := by
    intro w whole ten unit reads number same
    have silent : wholeNumber (py "y") = none ∧ tenWords.get (py "y") = none := by decide +kernel
    have whole_ := reads.whole
    have ten_ := reads.ten
    rw [same] at whole_ ten_
    rcases number with some_ | some_
    · exact some_ (whole_.symm.trans silent.1)
    · exact some_ (ten_.symm.trans silent.2)
  cases n with
  | single w =>
      refine ⟨w.said, [], rfl, different (single_readAs w) (Or.inl (by simp)), ?_, fun _ => rfl⟩
      rw [(single_readAs w).unit, Numeral.isUnit]
      by_cases small : w.value < 10 <;> simp [small]
  | tens w =>
      refine ⟨w.said, [], rfl, different (ten_readAs w) (Or.inr (by simp)), ?_, fun _ => rfl⟩
      rw [(ten_readAs w).unit]
      rfl
  | compound c =>
      refine ⟨c.ten.said, _, rfl, different (ten_readAs c.ten) (Or.inr (by simp)), ?_, ?_⟩
      · rw [(ten_readAs c.ten).unit]
        rfl
      · intro unit
        cases unit

/-- Behind bare tens a joiner that keeps the numbers apart makes no compound. -/
theorem unitAfterY_joiner {before after : Numeral} {j : Joiner} (keeps : j.Keeps before after)
    (tens : before.isTens = true) (toks : List PyStr) :
    unitAfterY (numeralTokens j.text ++ (after.words ++ toks)) = none := by
  obtain ⟨w, rest, split_, notY, unit, _⟩ := numeral_words after
  have quiet := keeps.quiet
  have noCompound := keeps.noCompound
  rw [split_]
  cases joiner : numeralTokens j.text with
  | nil =>
      cases back : rest ++ toks with
      | nil =>
          rw [List.nil_append, List.cons_append, back]
          rfl
      | cons second later =>
          rw [List.nil_append, List.cons_append, back, unitAfterY, if_neg notY]
  | cons t more =>
      rw [joiner] at quiet noCompound
      by_cases y : foldWord t = py "y"
      · cases more with
        | nil =>
            -- The joiner is a `y`, so that no unit comes after it.
            have other : after.isUnit = false := by
              by_contra isUnit
              exact noCompound ⟨tens, by rw [List.map_singleton, y], Bool.eq_true_of_not_eq_false isUnit⟩
            rw [other] at unit
            rw [List.singleton_append, List.cons_append, unitAfterY, if_pos y]
            simpa using unit
        | cons second more =>
            -- A second token of the joiner says nothing, and is no unit.
            have nothing := quiet second (by simp)
            rw [saysNothing, decide_eq_true_eq] at nothing
            rw [List.cons_append, List.cons_append, unitAfterY, if_pos y]
            have whole := nothing.1
            rw [wholeNumber, Option.or_eq_none_iff] at whole
            exact whole.1
      · cases more with
        | nil => rw [List.singleton_append, List.cons_append, unitAfterY, if_neg y]
        | cons second more => rw [List.cons_append, List.cons_append, unitAfterY, if_neg y]

/-- Joiners that keep their numbers apart are passed. -/
theorem readTokens_joiner {toks : List PyStr} (quiet : ∀ t ∈ toks, saysNothing (foldWord t) = true ∧
    ¬(t ≠ [] ∧ t.all PyRuntime.isDigit = true)) (rest : List PyStr) :
    readTokens 0 (toks ++ rest) = readTokens 0 rest := by
  induction toks with
  | nil => rfl
  | cons t toks ih =>
      rw [List.forall_mem_cons] at quiet
      have nothing := quiet.1.1
      rw [saysNothing, decide_eq_true_eq] at nothing
      rw [List.cons_append, readTokens_quiet quiet.1.2 _ nothing.1 nothing.2, ih quiet.2]

/-- Where every joiner keeps its numbers apart, the groups are the numbers. -/
theorem readTokens_spoken (n : Numeral) (later : List (Joiner × Numeral))
    (keeps : ∀ joint ∈ jointsFrom n later, joint.2.1.Keeps joint.1 joint.2.2) :
    readTokens 0 (numeralTokens (spokenFrom n later)) =
      n.pair :: later.map fun p => p.2.pair := by
  rw [tokens_spokenFrom]
  induction later generalizing n with
  | nil => exact readTokens_numeral n fun _ => rfl
  | cons p later ih =>
      obtain ⟨j, next⟩ := p
      rw [jointsFrom, List.forall_mem_cons] at keeps
      rw [List.flatMap_cons, List.append_assoc]
      have bare : n.isTens = true → unitAfterY (numeralTokens j.text ++ (next.words ++
          later.flatMap fun p => numeralTokens p.1.text ++ p.2.words)) = none :=
        fun tens => unitAfterY_joiner keeps.1 tens _
      have passed := readTokens_joiner
        (fun t member => ⟨keeps.1.quiet t member, joiner_not_digits member⟩)
        (next.words ++ later.flatMap fun p => numeralTokens p.1.text ++ p.2.words)
      rw [readTokens_numeral n bare, passed, ih next keeps.2]
      rfl

/-! ### Counting letters -/

/-- How many letters a text has. -/
def letterCount (s : PyStr) : Nat := s.countP spanishLetter

/-- The letters of the words of some groups. -/
def weight (groups : List (PyStr × PyStr)) : Nat := (groups.map fun g => letterCount g.1).sum

/-- The letters of a token that says a number. -/
def numberLetters (t : PyStr) : Nat := if saysNothing (foldWord t) then 0 else letterCount t

omit [LatinRuntime] in
theorem letterCount_join {sep : PyStr} (none_ : letterCount sep = 0) (parts : List PyStr) :
    letterCount (join sep parts) = (parts.map letterCount).sum := by
  induction parts with
  | nil => rfl
  | cons w parts ih =>
      cases parts with
      | nil => rw [join_singleton, List.map_singleton, List.sum_singleton]
      | cons v parts =>
          have split_ : join sep (w :: v :: parts) = w ++ (sep ++ join sep (v :: parts)) := by
            simp [join, List.intercalate, List.intersperse]
          rw [split_, List.map_cons, List.sum_cons, ← ih]
          simp only [letterCount, List.countP_append] at none_ ⊢
          omega

omit [LatinRuntime] in
theorem space_letters : letterCount (py " ") = 0 := by decide +kernel

theorem numberLetters_le (t : PyStr) : numberLetters t ≤ letterCount t := by
  unfold numberLetters
  split
  · exact Nat.zero_le _
  · exact le_refl _

theorem unitAfterY_some {toks : List PyStr} {n : Nat} (joined : unitAfterY toks = some n) :
    ∃ y u rest, toks = y :: u :: rest ∧ foldWord y = py "y" ∧
      unitWords.get (foldWord u) = some n := by
  rcases toks with _ | ⟨y, _ | ⟨u, rest⟩⟩
  · cases joined
  · cases joined
  · rw [unitAfterY] at joined
    by_cases same : foldWord y = py "y"
    · rw [if_pos same] at joined
      exact ⟨y, u, rest, rfl, same, joined⟩
    · rw [if_neg same] at joined
      cases joined

/-- The group that starts with a token, if there is one: a compound, or the token itself. -/
theorem weight_cons (w : PyStr) (toks : List PyStr) :
    (tenWords.get (foldWord w) ≠ none ∧ wholeNumber (foldWord w) = none ∧
      ∃ y u rest, toks = y :: u :: rest ∧ foldWord y = py "y" ∧ unitWords.get (foldWord u) ≠ none ∧
        weight (readTokens 0 (w :: toks)) =
          letterCount w + letterCount y + letterCount u + weight (readTokens 0 rest)) ∨
    numberLetters w + weight (readTokens 0 toks) ≤ weight (readTokens 0 (w :: toks)) ∧
      weight (readTokens 0 (w :: toks)) ≤ letterCount w + weight (readTokens 0 toks) := by
  have alone : ∀ d, readTokens 0 (w :: toks) = (w, d) :: readTokens 0 toks →
      numberLetters w + weight (readTokens 0 toks) ≤ weight (readTokens 0 (w :: toks)) ∧
        weight (readTokens 0 (w :: toks)) ≤ letterCount w + weight (readTokens 0 toks) := by
    intro d group
    have most := numberLetters_le w
    simp only [group, weight, List.map_cons, List.sum_cons]
    exact ⟨Nat.add_le_add_right most _, le_refl _⟩
  by_cases digits : w ≠ [] ∧ w.all PyRuntime.isDigit = true
  · exact Or.inr (alone w (by rw [readTokens, if_pos digits]))
  · cases whole : wholeNumber (foldWord w) with
    | some n => exact Or.inr (alone _ (readTokens_whole digits toks whole))
    | none =>
        cases tens : tenWords.get (foldWord w) with
        | none =>
            have quiet : saysNothing (foldWord w) = true := by
              rw [saysNothing, decide_eq_true_eq]
              exact ⟨whole, tens⟩
            rw [readTokens_quiet digits toks whole tens, numberLetters, if_pos quiet]
            exact Or.inr ⟨by omega, by omega⟩
        | some ten =>
            cases joined : unitAfterY toks with
            | none => exact Or.inr (alone _ (readTokens_ten digits toks whole tens joined))
            | some unit =>
                obtain ⟨y, u, rest, rfl, isY, isUnit⟩ := unitAfterY_some joined
                refine Or.inl ⟨by simp, rfl, y, u, rest, rfl, isY, by simp [isUnit], ?_⟩
                rw [readTokens_compound digits _ whole tens joined]
                simp only [weight, List.map_cons, List.sum_cons, List.take_succ_cons, List.take_zero,
                  letterCount_join space_letters, List.map_nil, List.sum_nil, readTokens]
                omega

omit [LatinRuntime] in
/-- `y` and a unit are no tens. -/
theorem y_says_nothing : tenWords.get (py "y") = none ∧ wholeNumber (py "y") = none := by
  decide +kernel

/-- A unit is a group by itself. -/
theorem weight_unit {u : PyStr} (unit : unitWords.get (foldWord u) ≠ none) (toks : List PyStr) :
    weight (readTokens 0 (u :: toks)) ≤ letterCount u + weight (readTokens 0 toks) := by
  rcases weight_cons u toks with ⟨_, whole, _⟩ | ⟨_, above⟩
  · rw [wholeNumber, Option.or_eq_none_iff] at whole
    exact absurd whole.1 unit
  · exact above

/-- In a compound the letters of `y` count too. -/
theorem weight_compound (w : SpokenWord tenForms) {y u : PyStr} (isY : foldWord y = py "y")
    (unit : unitWords.get (foldWord u) ≠ none) (toks : List PyStr) :
    letterCount w.said + letterCount y + weight (readTokens 0 (u :: toks)) ≤
      weight (readTokens 0 (w.said :: y :: u :: toks)) := by
  have reads := ten_readAs w
  obtain ⟨n, value⟩ := Option.ne_none_iff_exists'.mp unit
  have joined : unitAfterY (y :: u :: toks) = some n := by
    rw [unitAfterY, if_pos isY, value]
  have alone := weight_unit unit toks
  rw [readTokens_compound (not_digits reads.letters) _ reads.whole reads.ten joined]
  simp only [weight, List.map_cons, List.sum_cons, List.take_succ_cons, List.take_zero,
    letterCount_join space_letters, List.map_nil, List.sum_nil, readTokens] at alone ⊢
  omega

/-- What tokens in front add to the letters of the groups. -/
theorem weight_append (n : Nat) : ∀ front : List PyStr, front.length ≤ n → ∀ rest : List PyStr,
    (front.map numberLetters).sum + weight (readTokens 0 rest) ≤
      weight (readTokens 0 (front ++ rest)) := by
  induction n with
  | zero =>
      intro front short rest
      rw [List.length_eq_zero_iff.mp (Nat.le_zero.mp short)]
      simp
  | succ n ih =>
      intro front short rest
      cases front with
      | nil => simp
      | cons w front =>
          rw [List.length_cons] at short
          rw [List.cons_append, List.map_cons, List.sum_cons]
          have most := numberLetters_le w
          rcases weight_cons w (front ++ rest) with ⟨_, _, y, u, back, split_, isY, isUnit, total⟩ | ⟨least, _⟩
          · -- The letters of `y` and of the unit are in the group, wherever the tokens in front end.
            rw [total]
            have yAlone : ∀ toks, weight (readTokens 0 (y :: toks)) ≤
                letterCount y + weight (readTokens 0 toks) := by
              intro toks
              rcases weight_cons y toks with ⟨tens, _⟩ | ⟨_, above⟩
              · rw [isY] at tens
                exact absurd y_says_nothing.1 tens
              · exact above
            have unitAlone := weight_unit isUnit back
            rcases front with _ | ⟨y', _ | ⟨u', front⟩⟩
            · rw [List.nil_append] at split_
              rw [split_, List.map_nil, List.sum_nil]
              have := yAlone (u :: back)
              omega
            · rw [List.singleton_append, List.cons.injEq] at split_
              rw [split_.1, split_.2, List.map_singleton, List.sum_singleton]
              have := numberLetters_le y
              omega
            · rw [List.cons_append, List.cons_append, List.cons.injEq, List.cons.injEq] at split_
              obtain ⟨rfl, rfl, rfl⟩ := split_
              have later := ih front (by simp at short; omega) rest
              have := numberLetters_le y'
              have := numberLetters_le u'
              rw [List.map_cons, List.sum_cons, List.map_cons, List.sum_cons]
              omega
          · have later := ih front (by omega) rest
            omega

/-- The letters that a number is said with. -/
def spokenLetters (n : Numeral) : Nat := (n.words.map letterCount).sum

omit [LatinRuntime] in
theorem letterCount_pos {t : PyStr} (some_ : t ≠ []) (letters : ∀ c ∈ t, spanishLetter c = true) :
    0 < letterCount t := by
  obtain ⟨c, t, rfl⟩ := List.exists_cons_of_ne_nil some_
  exact List.countP_pos_iff.mpr ⟨c, List.mem_cons_self, letters c List.mem_cons_self⟩

/-- A token of a joiner that is not passed, or is a `y`, has letters. -/
theorem joiner_letters {j : Joiner} {t : PyStr} (member : t ∈ numeralTokens j.text)
    (spoken : saysNothing (foldWord t) = false ∨ foldWord t = py "y") : 0 < letterCount t := by
  rcases joiner_token member with ⟨some_, letters⟩ | ⟨c, mark, rfl⟩
  · exact letterCount_pos some_ letters
  · rcases spoken with number | y
    · rw [(mark_quiet mark).1] at number
      cases number
    · exact absurd y (mark_quiet mark).2

/-- The groups have at least the letters of the numbers that are joined, and no more only where every joiner
keeps its numbers apart. -/
theorem weight_spoken (n : Numeral) (later : List (Joiner × Numeral)) :
    spokenLetters n + (later.map fun p => spokenLetters p.2).sum ≤
        weight (readTokens 0 (numeralTokens (spokenFrom n later))) ∧
      (weight (readTokens 0 (numeralTokens (spokenFrom n later))) ≤
          spokenLetters n + (later.map fun p => spokenLetters p.2).sum →
        ∀ joint ∈ jointsFrom n later, joint.2.1.Keeps joint.1 joint.2.2) := by
  have pairLetters : ∀ (n : Numeral) (groups : List (PyStr × PyStr)),
      weight (n.pair :: groups) = spokenLetters n + weight groups := by
    intro n groups
    simp only [weight, List.map_cons, List.sum_cons, Numeral.pair, letterCount_join space_letters]
    rfl
  rw [tokens_spokenFrom]
  induction later generalizing n with
  | nil =>
      have group : readTokens 0 n.words = [n.pair] := by
        have alone : readTokens 0 (n.words ++ []) = _ := readTokens_numeral n fun _ => rfl
        rwa [List.append_nil] at alone
      rw [List.flatMap_nil, List.append_nil, group, pairLetters]
      exact ⟨by simp [weight], fun _ joint member => absurd member List.not_mem_nil⟩
  | cons p later ih =>
      obtain ⟨j, next⟩ := p
      obtain ⟨least, exact_⟩ := ih next
      simp only [List.flatMap_cons, List.append_assoc, List.map_cons, List.sum_cons]
      generalize same : next.words ++ later.flatMap (fun p => numeralTokens p.1.text ++ p.2.words) =
        back at least exact_ ⊢
      -- The number, then the numbers that the joiner says.
      have front : spokenLetters n + ((numeralTokens j.text).map numberLetters).sum +
          weight (readTokens 0 back) ≤ weight (readTokens 0 (n.words ++ (numeralTokens j.text ++ back))) := by
        have joined := weight_append _ (numeralTokens j.text) (le_refl _) back
        by_cases tens : n.isTens = true
        · cases n with
          | single w => cases tens
          | compound c => cases tens
          | tens w =>
              have all_ := weight_append _ (w.said :: numeralTokens j.text) (le_refl _) back
              have number : numberLetters w.said = spokenLetters (.tens w) := by
                have spoken : ¬saysNothing (foldWord w.said) = true := by
                  rw [saysNothing, decide_eq_true_eq, (ten_readAs w).ten]
                  simp
                rw [numberLetters, if_neg spoken, spokenLetters, Numeral.words, List.map_singleton,
                  List.sum_singleton]
              rw [List.map_cons, List.sum_cons, number] at all_
              exact all_
        · rw [readTokens_numeral n (fun yes => absurd yes tens), pairLetters]
          omega
      refine ⟨by omega, fun most => ?_⟩
      rw [jointsFrom, List.forall_mem_cons]
      refine ⟨⟨?_, ?_⟩, exact_ (by omega)⟩
      · intro t member
        by_contra number
        have letters := joiner_letters member (Or.inl (Bool.eq_false_of_not_eq_true number))
        have counted : numberLetters t ≤ ((numeralTokens j.text).map numberLetters).sum :=
          List.single_le_sum (fun _ _ => Nat.zero_le _) _ (List.mem_map_of_mem member)
        rw [numberLetters, if_neg number] at counted
        omega
      · rintro ⟨tens, onlyY, unit⟩
        cases n with
        | single w => cases tens
        | compound c => cases tens
        | tens w =>
            obtain ⟨t, tokens, isY⟩ := List.map_eq_singleton_iff.mp onlyY
            obtain ⟨u, rest, split_, _, isUnit, bare⟩ := numeral_words next
            have alone : rest = [] := bare unit
            rw [unit] at isUnit
            rw [split_, alone, List.singleton_append] at same
            rw [tokens, ← same] at most
            rw [← same] at least
            have letters := joiner_letters (tokens ▸ List.mem_singleton_self t) (Or.inr isY)
            have compound := weight_compound w isY (u := u) (by
              intro none_
              rw [none_] at isUnit
              cases isUnit) (later.flatMap fun p => numeralTokens p.1.text ++ p.2.words)
            have alone : spokenLetters (.tens w) = letterCount w.said := by
              rw [spokenLetters, Numeral.words, List.map_singleton, List.sum_singleton]
            rw [alone] at most
            change weight (readTokens 0 (w.said :: t :: u :: _)) ≤ _ at most
            omega

/-! ### What is read back -/

omit [LatinRuntime] in
/-- The letters of a hint are those of its words, where the values are written in digits. -/
theorem letterCount_hintLine (groups : List (PyStr × PyStr)) :
    letterCount ((hintLine groups).getD []) =
      (groups.map fun g => letterCount g.1 + letterCount g.2).sum := by
  have marks : letterCount (py "; ") = 0 ∧ letterCount (py " = ") = 0 := by decide +kernel
  rw [hintLine]
  by_cases none_ : groups = []
  · rw [if_pos none_, none_]
    rfl
  · rw [if_neg none_, Option.getD_some, letterCount_join marks.1, List.map_map]
    congr 1
    apply List.map_congr_left
    intro g _
    have middle := marks.2
    simp only [Function.comp_apply, letterCount, List.countP_append] at middle ⊢
    omega

theorem letterCount_all_digits {s : PyStr} (digits : s.all PyRuntime.isDigit = true) :
    letterCount s = 0 := by
  apply List.countP_eq_zero.mpr
  intro c member letter
  have digit := List.all_eq_true.mp digits c member
  rw [isDigit_letter letter] at digit
  cases digit

theorem letterCount_digits {s : PyStr} (digits : ∀ c ∈ s, isAsciiDigit c = true) :
    letterCount s = 0 := by
  apply letterCount_all_digits
  rw [List.all_eq_true]
  intro c member
  have small : c < 128 := by
    have digit := digits c member
    simp only [isAsciiDigit, Bool.and_eq_true, decide_eq_true_eq] at digit
    omega
  rw [PyRuntime.isDigit_ascii c small]
  exact digits c member

theorem spokenLetters_pos (n : Numeral) : 0 < spokenLetters n := by
  have first : ∀ {w : PyStr} {whole ten unit : Option Nat}, ReadAs w whole ten unit →
      ∀ rest, 0 < ((w :: rest).map letterCount).sum := by
    intro w whole ten unit reads rest
    rw [List.map_cons, List.sum_cons]
    exact Nat.add_pos_left (letterCount_pos reads.some_ reads.letters) _
  cases n with
  | single w => exact first (single_readAs w) []
  | tens w => exact first (ten_readAs w) []
  | compound c => exact first (ten_readAs c.ten) _

/-- The groups that a hint leaves out have no letters. -/
theorem weight_le_hint (groups : List (PyStr × PyStr)) :
    weight groups ≤ letterCount ((hintLine
      (groups.filter fun g => ¬(g.1 ≠ [] ∧ g.1.all PyRuntime.isDigit))).getD []) := by
  rw [letterCount_hintLine]
  induction groups with
  | nil => exact le_refl _
  | cons g groups ih =>
      rw [weight, List.map_cons, List.sum_cons]
      by_cases digits : g.1 ≠ [] ∧ g.1.all PyRuntime.isDigit = true
      · have none_ := letterCount_all_digits digits.2
        rw [List.filter_cons_of_neg (by rw [decide_eq_true_eq, not_not]; exact digits), none_,
          Nat.zero_add]
        exact ih
      · rw [List.filter_cons_of_pos (by rw [decide_eq_true_eq]; exact digits), List.map_cons,
          List.sum_cons]
        exact Nat.add_le_add (Nat.le_add_right _ _) ih

/-- What is read back of an utterance is its numbers: the digits in order, and in the hint each value beside
the words it was said with. -/
structure ReadsBack (u : Utterance) : Prop where
  digits : (readGroups u.text).map Prod.snd = u.numerals.map fun n => strOfNat n.value
  hint : numeralHint u.text = hintLine (u.numerals.map Numeral.pair)

/-- Where the joiners keep the numbers apart, the groups are the numbers. -/
theorem readGroups_spoken {u : Utterance}
    (keeps : ∀ joint ∈ u.joints, joint.2.1.Keeps joint.1 joint.2.2) :
    readGroups u.text = u.numerals.map Numeral.pair := by
  cases u with
  | nothing => rfl
  | numbers first later =>
      have groups := readTokens_spoken first later keeps
      rw [readGroups, Utterance.text, groups, Utterance.numerals, List.map_cons, List.map_map]
      rfl

omit [LatinRuntime] in
theorem pair_letters (n : Numeral) : letterCount n.pair.1 = spokenLetters n :=
  letterCount_join space_letters n.words

/-- The words of a number are no digits. -/
theorem pair_words (n : Numeral) :
    ¬(n.pair.1 ≠ [] ∧ n.pair.1.all PyRuntime.isDigit = true) := by
  rintro ⟨_, digits⟩
  have some_ := spokenLetters_pos n
  rw [← pair_letters, letterCount_all_digits digits] at some_
  exact some_.false

/-- The numbers are read back exactly when every joiner keeps its numbers apart. -/
theorem readsBack_iff (u : Utterance) :
    ReadsBack u ↔ ∀ joint ∈ u.joints, joint.2.1.Keeps joint.1 joint.2.2 := by
  constructor
  · intro reads
    cases u with
    | nothing => exact fun joint member => absurd member List.not_mem_nil
    | numbers first later =>
        apply (weight_spoken first later).2
        have above := weight_le_hint (readGroups (Utterance.numbers first later).text)
        have hint : letterCount ((numeralHint (Utterance.numbers first later).text).getD []) =
            spokenLetters first + (later.map fun p => spokenLetters p.2).sum := by
          have values : (fun g => letterCount g.1 + letterCount g.2) ∘ Numeral.pair =
              spokenLetters := by
            funext n
            have none_ : letterCount n.pair.2 = 0 := letterCount_digits (digitsOfNat_isDigit _ _)
            rw [Function.comp_apply, none_, Nat.add_zero, pair_letters]
          rw [reads.hint, letterCount_hintLine, List.map_map, values, Utterance.numerals, List.map_cons,
            List.sum_cons, List.map_map]
          rfl
        rw [← hint]
        exact above
  · intro keeps
    have groups := readGroups_spoken keeps
    refine ⟨?_, ?_⟩
    · rw [groups, List.map_map]
      rfl
    · rw [numeralHint, groups, List.filter_eq_self.mpr]
      intro g member
      obtain ⟨n, _, rfl⟩ := List.mem_map.mp member
      rw [decide_eq_true_eq]
      exact pair_words n

end

/-- A joining word with a decomposed accent. -/
def decomposedJoiner : @Joiner LatinRuntime.latin.toPyRuntime :=
  let _ := LatinRuntime.latin
  { text := py " una" ++ 0x301 :: py "nime "
    some_ := by decide
    starts := by
      intro c first
      cases first
      decide +kernel
    ends := by
      intro c last
      cases last
      decide +kernel
    noDigits := by decide +kernel
    foreign := by decide +kernel }

/-- The word falls apart at its accent: its first letters are read as a number. -/
theorem decomposed_word_read_as_number :
    letI := LatinRuntime.latin
    ∃ u : Utterance, ¬ReadsBack u := by
  let _ := LatinRuntime.latin
  refine ⟨.numbers (.single (.plain (by decide +kernel : (py "dos", 2) ∈ singleForms)))
    [(decomposedJoiner, .single (.plain (by decide +kernel : (py "tres", 3) ∈ singleForms)))], ?_⟩
  intro reads
  have digits := reads.digits
  revert digits
  decide +kernel

/-! ### Words in the letters of Spanish -/

section
variable [LatinRuntime]

omit [LatinRuntime] in
/-- What stands between characters of no word, and is made of those of words, is a word. -/
theorem mem_spokenWords [PyRuntime] {front t back : PyStr} (some_ : t ≠ [])
    (inside : ∀ c ∈ t, isWordChar c = true) (before : ∀ c ∈ front.getLast?, isWordChar c = false)
    (after : ∀ c ∈ back.head?, isWordChar c = false) : t ∈ spokenWords (front ++ (t ++ back)) := by
  have cut : ∀ {c : Nat}, isWordChar c = false → (!isWordChar c) = true := by
    intro c out
    rw [out]
    rfl
  have whole : t.splitOnP (fun c => !isWordChar c) = [t] := by
    apply List.splitOnP_eq_singleton
    intro c member
    rw [inside c member]
    rfl
  have first : t ∈ (t ++ back).splitOnP fun c => !isWordChar c := by
    cases back with
    | nil =>
        rw [List.append_nil, whole]
        exact List.mem_singleton_self t
    | cons c back =>
        rw [List.splitOnP_append_cons t back (cut (after c rfl)), whole]
        exact List.mem_cons_self
  apply List.mem_filter.mpr
  refine ⟨?_, by simpa using some_⟩
  rcases List.eq_nil_or_concat' front with rfl | ⟨front, c, rfl⟩
  · exact first
  · have out := before c (by simp)
    rw [List.append_assoc, List.singleton_append, List.splitOnP_append_cons front _ (cut out)]
    exact List.mem_append_right _ first

omit [LatinRuntime] in
/-- A word outside the vocabulary says nothing, and is no `y`. -/
theorem quiet_of_foreign {word : PyStr} (foreign : word ∉ vocabulary) :
    saysNothing word = true ∧ word ≠ py "y" := by
  have absent : ∀ {table : Assoc Nat}, (∀ row ∈ table, row.1 ∈ vocabulary) →
      table.get word = none := by
    intro table known
    by_contra found
    obtain ⟨n, value⟩ := Option.ne_none_iff_exists'.mp found
    exact foreign (known _ (Assoc.mem_of_get value))
  have tables : (∀ row ∈ unitWords, row.1 ∈ vocabulary) ∧ (∀ row ∈ teenWords, row.1 ∈ vocabulary) ∧
      (∀ row ∈ tenWords, row.1 ∈ vocabulary) ∧ (∀ row ∈ hundredWords, row.1 ∈ vocabulary) ∧
      py "y" ∈ vocabulary := by
    decide +kernel
  obtain ⟨units, teens, tens, hundreds, y⟩ := tables
  constructor
  · rw [saysNothing, decide_eq_true_eq, wholeNumber, absent units, absent teens, absent hundreds,
      absent tens]
    exact ⟨rfl, rfl⟩
  · rintro rfl
    exact foreign y

/-- Joining words in the letters that the tokens know keep the numbers apart. -/
theorem keeps_of_spanish {j : Joiner}
    (spanish : ∀ c ∈ j.text, isWordChar c = true → spanishLetter c = true) (before after : Numeral) :
    j.Keeps before after := by
  have quiet : ∀ t ∈ numeralTokens j.text,
      saysNothing (foldWord t) = true ∧ foldWord t ≠ py "y" := by
    intro t member
    have letter_out : ∀ c ∈ j.text, spanishLetter c = false → isWordChar c = false := by
      intro c listed out
      by_contra word
      rw [spanish c listed (Bool.eq_true_of_not_eq_false word)] at out
      cases out
    rcases (spelling spanishSets j.text).mem spanishSets member with
      ⟨front, back, split_, some_, letters, first, last⟩ | ⟨some_, decimals, inside⟩ | ⟨c, mark, rfl⟩
    · have listed : t ∈ spokenWords j.text := by
        rw [split_]
        apply mem_spokenWords some_
        · intro c inside
          rw [isWordChar, isAlpha_letter (letters c inside), Bool.true_or]
        · intro c ends
          apply letter_out c _ (first c ends)
          rw [split_]
          exact List.mem_append_left _ (List.mem_of_getLast? ends)
        · intro c starts
          apply letter_out c _ (last c starts)
          rw [split_]
          exact List.mem_append_right _ (List.mem_append_right _ (List.mem_of_head? starts))
      exact quiet_of_foreign (j.foreign t listed)
    · obtain ⟨c, t, rfl⟩ := List.exists_cons_of_ne_nil some_
      have digit := decimals c List.mem_cons_self
      rw [j.noDigits c (inside c List.mem_cons_self)] at digit
      cases digit
    · exact mark_quiet mark
  refine ⟨fun t member => (quiet t member).1, ?_⟩
  rintro ⟨_, onlyY, _⟩
  obtain ⟨t, tokens, isY⟩ := List.map_eq_singleton_iff.mp onlyY
  exact (quiet t (tokens ▸ List.mem_singleton_self t)).2 isY

/-- Numbers joined by words in the letters of Spanish are read back. -/
theorem readGroups_of_spanish {u : Utterance} (spanish : ∀ joint ∈ u.joints,
    ∀ c ∈ joint.2.1.text, isWordChar c = true → spanishLetter c = true) :
    readGroups u.text = u.numerals.map Numeral.pair :=
  readGroups_spoken fun joint member => keeps_of_spanish (spanish joint member) _ _

end

end GhostPour.N400.SpanishNumerals
