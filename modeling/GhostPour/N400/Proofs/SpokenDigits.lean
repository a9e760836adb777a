/-
Module: GhostPour.N400.Proofs.SpokenDigits
Layer: Proofs
Purpose: Dictated digits are written back: what is written is written again as it is, it is the utterance
  with runs of number words replaced, and digits dictated one by one in English are replaced by exactly
  these digits. All of it holds where no token that folds to nothing is in front of a number word, and
  nowhere else.
Trusted boundary: none
Main exports: Says, Dictates, Leads, Alone, Faithful, Run.leads, Scan.split, Scan.of_run, written_twice,
  written_dictated, spoken_faithful_iff
-/
import GhostPour.N400.Proofs.SpokenText

namespace GhostPour.N400.SpokenNumbers

/-! ### Dictation -/

/-- The digits in English. -/
def digitWords : List PyStr :=
  ["zero", "one", "two", "three", "four", "five", "six", "seven", "eight", "nine"].map py

/-- A digit word, in letters of either case, and its digit. -/
def Says (w : PyStr) (d : Nat) : Prop := ∃ k, digitWords[k]? = some (w.map asciiLower) ∧ d = '0'.toNat + k

/-- Digit words with spaces, commas or hyphens between them, and their digits. -/
inductive Dictates : PyStr → PyStr → Prop
  | one {w : PyStr} {d : Nat} (speaks : Says w d) : Dictates w [d]
  | more {w gap s ds : PyStr} {d : Nat} (speaks : Says w d) (some_ : gap ≠ [])
      (between : ∀ c ∈ gap, c ∈ py " ,-") (later : Dictates s ds) :
      Dictates (w ++ (gap ++ s)) (d :: ds)

/-- Some tokens lead into a number word: with separators after a number word, or with a hyphen and a
joiner after a tens word. -/
inductive Leads : List Token → Prop
  | number {c seps : List Token} {n : Token} (number : IsNumber n) (between : ∀ s ∈ seps, IsSeparator s) :
      Leads (c ++ n :: seps)
  | tens {c h j : List Token} {t : Token} (tens : IsTens t) (hyphen : Skips [py "-"] h)
      (joiner : Skips joiners j) : Leads (c ++ t :: (h ++ j))

theorem Leads.append {a : List Token} (leads : Leads a) (b : List Token) : Leads (b ++ a) := by
  cases leads with
  | number number between =>
      rw [← List.append_assoc]
      exact .number number between
  | tens tens hyphen joiner =>
      rw [← List.append_assoc]
      exact .tens tens hyphen joiner

/-! ### No run across -/

theorem Skips.not_number {kind : List PyStr} {s : List Token} (skips : Skips kind s)
    (other : ∀ w ∈ kind, isNumberWord w = false) : ∀ t ∈ s, ¬IsNumber t := by
  intro t member number
  rw [IsNumber, other _ (skips.mem member)] at number
  cases number

/-- Behind tokens that are no number words, a number word is the one at the end. -/
theorem split_at_number {pre a b : List Token} {u n : Token} (other : ∀ t ∈ pre, ¬IsNumber t)
    (number : IsNumber n) (split : pre ++ [u] = a ++ n :: b) : a = pre := by
  rcases List.append_eq_append_iff.mp split with ⟨c, rfl, last⟩ | ⟨c, rfl, last⟩
  · cases c with
    | nil => exact List.append_nil _
    | cons x c => simp at last
  · cases c with
    | nil => exact (List.append_nil _).symm
    | cons x c =>
        obtain ⟨rfl, _⟩ := List.cons.inj last
        exact absurd number (other n (by simp))

theorem Group.leads {g a b : List Token} {n : Token} {d : PyStr} (said : Group g d) (some_ : a ≠ [])
    (number : IsNumber n) (split : g = a ++ n :: b) : Leads a := by
  obtain ⟨x, a, rfl⟩ := List.exists_cons_of_ne_nil some_
  cases said with
  | single => simp at split
  | alone => simp at split
  | @joined t u h j ten unit tens hyphen joiner value =>
      obtain ⟨rfl, parts⟩ := List.cons.inj split
      rw [← List.append_assoc] at parts
      have other : ∀ t ∈ h ++ j, ¬IsNumber t := by
        intro t member
        rcases List.mem_append.mp member with member | member
        · exact hyphen.not_number (by decide +kernel) t member
        · exact joiner.not_number (by decide +kernel) t member
      rw [split_at_number other number parts]
      exact .tens (c := []) (by rw [IsTens, tens]; rfl) hyphen joiner

/-- What is in front of a number word inside a run leads into it. -/
theorem Run.leads {guarded : Bool} {r : List Token} {ds : PyStr} (run : Run guarded r ds) :
    ∀ {a b : List Token} {n : Token}, a ≠ [] → IsNumber n → r = a ++ n :: b → Leads a := by
  induction run with
  | last said => exact said.leads
  | @more g seps r d ds said between direct apart later ih =>
      intro a b n some_ number split
      rcases List.append_eq_append_iff.mp split with ⟨c, rfl, parts⟩ | ⟨c, rfl, parts⟩
      · obtain ⟨m, last, numberM⟩ := said.last
        obtain ⟨init, rfl⟩ := List.getLast?_eq_some_iff.mp last
        rcases List.append_eq_append_iff.mp parts with ⟨c', rfl, rest⟩ | ⟨c', rfl, rest⟩
        · cases c' with
          | nil =>
              rw [List.append_nil, List.append_assoc]
              exact .number numberM between
          | cons x c' =>
              rw [← List.append_assoc]
              exact (ih (List.cons_ne_nil x c') number rest).append _
        · cases c' with
          | nil =>
              rw [List.append_assoc]
              refine .number numberM ?_
              simpa using between
          | cons x c' =>
              obtain ⟨rfl, _⟩ := List.cons.inj rest
              have separator := between n (by simp)
              rw [IsSeparator, (number_plain number).2] at separator
              cases separator
      · cases c with
        | nil =>
            obtain ⟨m, last, numberM⟩ := said.last
            obtain ⟨init, shape⟩ := List.getLast?_eq_some_iff.mp last
            rw [List.append_nil] at shape
            rw [shape]
            exact @Leads.number _ [] _ numberM fun s member => absurd member List.not_mem_nil
        | cons x c =>
            obtain ⟨rfl, _⟩ := List.cons.inj parts
            exact said.leads some_ number rfl

section
variable [PyRuntime]

/-- The cut of tokens is one at a number word into which nothing leads. -/
theorem Scan.split {tr : Trace} {toks : List Token} {ps : List Part} (scan : Scan tr toks ps) :
    ∀ {a rest : List Token} {n : Token}, ¬Leads a → IsNumber n → toks = a ++ n :: rest →
      ∃ qs rs, ps = qs ++ rs ∧ Scan (tr.steps a) (n :: rest) rs := by
  have at_run : ∀ {guarded : Bool} {used left a rest : List Token} {n : Token} {ds : PyStr},
      Run guarded used ds → ¬Leads a → IsNumber n → used ++ left = a ++ n :: rest →
        a = [] ∨ ∃ c, a = used ++ c ∧ left = c ++ n :: rest := by
    intro guarded used left a rest n ds run apart number split
    rcases List.append_eq_append_iff.mp split with ⟨c, rfl, parts⟩ | ⟨c, rfl, parts⟩
    · exact .inr ⟨c, rfl, parts⟩
    · cases c with
      | nil => exact .inr ⟨[], by simp, parts.symm⟩
      | cons x c =>
          obtain ⟨rfl, _⟩ := List.cons.inj parts
          refine .inl ?_
          by_contra some_
          exact apart (run.leads some_ number rfl)
  have shorter : ∀ {c used : List Token}, ¬Leads (used ++ c) → ¬Leads c :=
    fun apart leads => apart (leads.append _)
  induction scan with
  | nil =>
      intro a rest n apart number split
      simp at split
  | @pass tr t toks ps other later ih =>
      intro a rest n apart number split
      cases a with
      | nil =>
          obtain ⟨rfl, _⟩ := List.cons.inj split
          exact absurd number other
      | cons x a =>
          obtain ⟨rfl, parts⟩ := List.cons.inj split
          obtain ⟨qs, rs, rfl, scan⟩ := ih (@shorter _ [t] apart) number parts
          exact ⟨.left t :: qs, rs, rfl, scan⟩
  | @spare tr used left ds ps legible run closed kept later ih =>
      intro a rest n apart number split
      rcases at_run run apart number split with rfl | ⟨c, rfl, parts⟩
      · rw [List.nil_append] at split
        rw [← split]
        exact ⟨[], _, rfl, .spare legible run closed kept later⟩
      · obtain ⟨qs, rs, rfl, scan⟩ := ih (shorter apart) number parts
        rw [← Trace.steps_append] at scan
        exact ⟨used.map .left ++ qs, rs, (List.append_assoc _ _ _).symm, scan⟩
  | @rewrite tr used left ds ps legible free run closed long later ih =>
      intro a rest n apart number split
      rcases at_run run apart number split with rfl | ⟨c, rfl, parts⟩
      · rw [List.nil_append] at split
        rw [← split]
        exact ⟨[], _, rfl, .rewrite legible free run closed long later⟩
      · obtain ⟨qs, rs, rfl, scan⟩ := ih (shorter apart) number parts
        rw [← Trace.steps_append] at scan
        exact ⟨.said used ds :: qs, rs, rfl, scan⟩

omit [PyRuntime] in
/-- Tokens begin with one run. -/
theorem Run.unique {guarded : Bool} {used used' rest rest' : List Token} {ds ds' : PyStr}
    (run : Run guarded used ds) (closed : Closed guarded used rest) (run' : Run guarded used' ds')
    (closed' : Closed guarded used' rest') (same : used ++ rest = used' ++ rest') :
    used = used' ∧ ds = ds' := by
  have enough : used.length ≤ (used ++ rest).length := by
    rw [List.length_append]
    omega
  have enough' : used'.length ≤ (used ++ rest).length := by
    rw [same, List.length_append]
    omega
  have read := readRun_of_run run closed _ [] 0 enough
  have read' := readRun_of_run run' closed' _ [] 0 enough'
  rw [same, ← same, read] at read'
  obtain ⟨digits, tail⟩ := Prod.mk.inj read'
  obtain ⟨_, left⟩ := Prod.mk.inj tail
  rw [left] at same
  exact ⟨List.append_cancel_right same, digits⟩

/-- A free run of enough digits is rewritten. -/
theorem Scan.of_run {tr : Trace} {used rest : List Token} {ps : List Part}
    (scan : Scan tr (used ++ rest) ps) {ds : PyStr} (run : Run false used ds)
    (closed : Closed false used rest) (free : tr.blank = false → tr.guarded = false)
    (long : minDigits ≤ ds.length) : ∃ qs, ps = .said used ds :: qs := by
  generalize split : used ++ rest = toks at scan
  cases scan with
  | nil =>
      obtain ⟨m, tail, rfl, _⟩ := run.first
      simp at split
  | pass other later =>
      obtain ⟨m, tail, rfl, number⟩ := run.first
      obtain ⟨rfl, _⟩ := List.cons.inj split
      exact absurd number other
  | @spare _ used' rest' ds' ps legible run' closed' kept later =>
      rw [free legible] at run' closed' kept
      obtain ⟨_, rfl⟩ := run.unique closed run' closed' split
      rcases kept with short | guarded
      · omega
      · cases guarded
  | @rewrite _ used' rest' ds' ps legible _ run' closed' _ later =>
      obtain ⟨rfl, rfl⟩ := run.unique closed run' closed' split
      exact ⟨ps, rfl⟩

/-! ### Digit words -/

omit [PyRuntime] in
theorem digitWords_known : ∀ e ∈ digitWords.zipIdx, unitWords.get e.1 = some e.2 ∧ teenWords.get e.1 = none ∧
    tenWords.get e.1 = none ∧ strOfNat e.2 = ['0'.toNat + e.2] ∧ e.1 ≠ [] ∧
      ∀ c ∈ e.1, isAsciiAlpha c = true := by decide +kernel

omit [PyRuntime] in
theorem alpha_of_lower {c : Nat} (alpha : isAsciiAlpha (asciiLower c) = true) :
    c < 128 ∧ isAsciiAlpha c = true := by
  simp only [asciiLower, isAsciiAlpha, Bool.and_eq_true, Bool.or_eq_true, decide_eq_true_eq] at alpha ⊢
  split at alpha <;> omega

theorem letter_of_alpha {c : Nat} (ascii : c < 128) (alpha : isAsciiAlpha c = true) :
    isLetterChar c = true := by
  have digit : isAsciiDigit c = false := by
    simp only [isAsciiAlpha, isAsciiDigit, Bool.and_eq_true, Bool.or_eq_true, decide_eq_true_eq,
      Bool.and_eq_false_iff, decide_eq_false_iff_not] at alpha ⊢
    omega
  have line : (c != '_'.toNat) = true := by
    rw [bne_iff_ne]
    rintro rfl
    cases alpha
  rw [isLetterChar, isWord, isDecimal, PyRuntime.isAlnum_ascii c ascii, PyRuntime.decimal_ascii c ascii, alpha,
    digit, line]
  rfl

theorem nfd_of_ascii {w : PyStr} (ascii : ∀ c ∈ w, c < 128) : nfd w = w := by
  induction w with
  | nil => exact PyRuntime.nfd_nil
  | cons c w ih =>
      rw [List.forall_mem_cons] at ascii
      have first := PyRuntime.nfd_ascii [] c w ascii.1
      rw [List.nil_append, PyRuntime.nfd_nil, List.nil_append] at first
      rw [first, ih ascii.2]

/-- A text of ASCII characters folds to lower case. -/
theorem fold_of_ascii {w : PyStr} (ascii : ∀ c ∈ w, c < 128) : fold w = w.map asciiLower := by
  have lowered : ∀ c ∈ w.map asciiLower, c < 128 := by
    intro c member
    obtain ⟨x, here, rfl⟩ := List.mem_map.mp member
    have small := ascii x here
    rw [asciiLower]
    split
    · next upper =>
      simp only [Bool.and_eq_true, decide_eq_true_eq] at upper
      omega
    · exact small
  rw [fold, PyRuntime.lower_ascii w ascii, nfd_of_ascii lowered, List.filter_eq_self]
  intro c member
  rw [PyRuntime.nonspacing_ascii c (lowered c member)]
  rfl

/-- A digit word is a token of letters, and a group of one digit. -/
theorem Says.token {w : PyStr} {d : Nat} (speaks : Says w d) : w ≠ [] ∧
    (∀ c ∈ w, isLetterChar c = true) ∧ ∀ i, Group [⟨i, w, fold w⟩] [d] ∧ tenWords.get (fold w) = none := by
  obtain ⟨k, found, rfl⟩ := speaks
  have member : (w.map asciiLower, k) ∈ digitWords.zipIdx := List.mk_mem_zipIdx_iff_getElem?.mpr found
  obtain ⟨unit, teen, tens, digits, some_, alpha⟩ := digitWords_known _ member
  have letters : ∀ c ∈ w, c < 128 ∧ isAsciiAlpha c = true :=
    fun c member => alpha_of_lower (alpha _ (List.mem_map_of_mem member))
  rw [fold_of_ascii fun c member => (letters c member).1]
  refine ⟨fun empty => some_ (by rw [empty]; rfl),
    fun c member => letter_of_alpha (letters c member).1 (letters c member).2, fun i => ⟨?_, tens⟩⟩
  simp only at digits
  rw [← digits]
  exact .single tens (by rw [teen]; exact unit)

/-- Spaces, commas and hyphens are separators or none. -/
theorem tokensFrom_between {gap : PyStr} (between : ∀ c ∈ gap, c ∈ py " ,-") : ∀ i, ∃ seps : List Token,
    (∀ s ∈ seps, IsSeparator s) ∧ ∀ s, tokensFrom i (gap ++ s) = seps ++ tokensFrom (i + gap.length) s := by
  have plain : ∀ c < 128, isAsciiAlpha c = false → isAsciiDigit c = false → c ≠ '_'.toNat →
      isWord c = false := by
    intro c ascii alpha digit line
    rw [isWord, PyRuntime.isAlnum_ascii c ascii, alpha, digit, Bool.false_or, Bool.false_or,
      beq_eq_false_iff_ne]
    exact line
  have space : isGapChar ' '.toNat = true := by
    have decimal : isDecimal ' '.toNat = false := by
      rw [isDecimal, PyRuntime.decimal_ascii _ (by decide)]
      rfl
    rw [isGapChar, isLetterChar, isMarkChar, decimal, plain _ (by decide) rfl rfl (by decide)]
    rfl
  have mark : ∀ c ∈ py ",-", isMarkChar c = true ∧ separators.contains (fold [c]) = true := by
    intro c member
    have each : ∀ c ∈ py ",-", c < 128 ∧ isAsciiAlpha c = false ∧ isAsciiDigit c = false ∧ c ≠ '_'.toNat ∧
        isSpace c = false ∧ separators.contains [asciiLower c] = true := by decide
    obtain ⟨ascii, alpha, digit, line, space, separator⟩ := each c member
    rw [isMarkChar, plain c ascii alpha digit line, space, fold_of_ascii (by simpa using ascii)]
    exact ⟨rfl, separator⟩
  induction gap with
  | nil => exact fun i => ⟨[], fun s member => absurd member List.not_mem_nil, fun s => rfl⟩
  | cons c gap ih =>
      intro i
      rw [List.forall_mem_cons] at between
      obtain ⟨seps, separators_, toks⟩ := ih between.2 (i + 1)
      have next : i + 1 + gap.length = i + (c :: gap).length := by
        rw [List.length_cons]
        omega
      rw [next] at toks
      rcases List.mem_cons.mp between.1 with same | other
      · refine ⟨seps, separators_, fun s => ?_⟩
        have gapChar : isGapChar c = true := by
          rw [same]
          exact space
        rw [List.cons_append, tokensFrom_gap gapChar, toks]
      · obtain ⟨isMark, separator⟩ := mark c other
        refine ⟨⟨i, [c], fold [c]⟩ :: seps, ?_, fun s => ?_⟩
        · rw [List.forall_mem_cons]
          exact ⟨separator, separators_⟩
        · rw [List.cons_append, tokensFrom_mark isMark, toks]
          rfl

theorem between_not_letter {c : Nat} (between : c ∈ py " ,-") : isLetterChar c = false := by
  have each : ∀ c ∈ py " ,-", c < 128 ∧ isAsciiAlpha c = false ∧ isAsciiDigit c = false ∧
      (c == '_'.toNat) = false := by decide
  obtain ⟨ascii, alpha, digit, line⟩ := each c between
  have word : isWord c = false := by
    rw [isWord, PyRuntime.isAlnum_ascii c ascii, alpha, digit]
    exact line
  rw [isLetterChar, word, Bool.false_and, Bool.false_and]

/-- Dictated digits are a run, and no unit can follow it. -/
theorem Dictates.run {s ds : PyStr} (dictates : Dictates s ds) :
    ∀ i, Run false (tokensFrom i s) ds ∧ ¬EndsTens (tokensFrom i s) := by
  have ends : ∀ {i : Nat} {w : PyStr}, tenWords.get (fold w) = none → ¬EndsTens [⟨i, w, fold w⟩] := by
    rintro i w other ⟨t, last, tens⟩
    have same : (⟨i, w, fold w⟩ : Token) = t := Option.some.inj last
    rw [← same, IsTens, other] at tens
    cases tens
  induction dictates with
  | @one w d speaks =>
      intro i
      obtain ⟨some_, letters, group⟩ := speaks.token
      have single := tokensFrom_letters (s := []) some_ letters (fun c head => by cases head) i
      rw [List.append_nil, tokensFrom_nil] at single
      rw [single]
      exact ⟨.last (group i).1, ends (group i).2⟩
  | @more w gap s ds d speaks some_ between later ih =>
      intro i
      obtain ⟨someW, letters, group⟩ := speaks.token
      obtain ⟨seps, separators_, toks⟩ := tokensFrom_between between (i + w.length)
      have stop : ∀ c ∈ (gap ++ s).head?, isLetterChar c = false := by
        obtain ⟨x, gap, rfl⟩ := List.exists_cons_of_ne_nil some_
        intro c head
        cases head
        exact between_not_letter (between x List.mem_cons_self)
      rw [tokensFrom_letters someW letters stop, toks]
      obtain ⟨run, other⟩ := ih (i + w.length + gap.length)
      refine ⟨.more (group i).1 separators_ (fun no => (Bool.false_ne_true no).elim)
        (fun tens => absurd tens (ends (group i).2)) run, ?_⟩
      rintro ⟨t, last, tens⟩
      obtain ⟨m, tail, shape, _⟩ := run.first
      refine other ⟨t, ?_, tens⟩
      rw [shape] at last ⊢
      rwa [← List.cons_append, List.getLast?_append, List.getLast?_cons, Option.some_or,
        ← List.getLast?_cons] at last

theorem Dictates.ends {s ds : PyStr} (dictates : Dictates s ds) :
    (∃ c, s.head? = some c ∧ isLetterChar c = true) ∧ ∃ c, s.getLast? = some c ∧ isLetterChar c = true := by
  induction dictates with
  | one speaks =>
      obtain ⟨some_, letters, _⟩ := speaks.token
      obtain ⟨c, last⟩ := Option.ne_none_iff_exists'.mp (mt List.getLast?_eq_none_iff.mp some_)
      obtain ⟨x, w, rfl⟩ := List.exists_cons_of_ne_nil some_
      exact ⟨⟨x, rfl, letters x List.mem_cons_self⟩, ⟨c, last, letters c (List.mem_of_getLast? last)⟩⟩
  | more speaks some_ between later ih =>
      obtain ⟨someW, letters, _⟩ := speaks.token
      obtain ⟨x, w, rfl⟩ := List.exists_cons_of_ne_nil someW
      obtain ⟨_, c, last, letter⟩ := ih
      refine ⟨⟨x, rfl, letters x List.mem_cons_self⟩, ⟨c, ?_, letter⟩⟩
      rw [List.getLast?_append, List.getLast?_append, last]
      rfl

/-- The tokens of dictated digits begin and end where the text does. -/
theorem Dictates.segment {s ds : PyStr} (dictates : Dictates s ds) (i : Nat) :
    (tokensFrom i s).head?.map Token.start = some i ∧ stopOf (tokensFrom i s) = i + s.length := by
  obtain ⟨m, tail, shape, _⟩ := (dictates.run i).1.first
  have some_ : tokensFrom i s ≠ [] := by
    rw [shape]
    exact List.cons_ne_nil m tail
  have spelt := spelt_tokensFrom i s
  rw [← List.append_nil (tokensFrom i s)] at spelt
  obtain ⟨gap, r, left, split, gaps, toks, starts, stops, rest⟩ := segment_exists some_ spelt
  obtain ⟨⟨c, head, letter⟩, ⟨d, last, letter'⟩⟩ := dictates.ends
  have noGap : gap = [] := by
    cases gap with
    | nil => rfl
    | cons x gap =>
        rw [split] at head
        have same : x = c := Option.some.inj head
        rw [← same, (gap_cases (gaps x List.mem_cons_self)).1] at letter
        cases letter
  have noLeft : left = [] := by
    by_contra nonempty
    cases rest with
    | done gaps =>
        rw [split, ← List.append_assoc, getLast?_append_of_nonempty nonempty] at last
        rw [(gap_cases (gaps d (List.mem_of_getLast? last))).1] at letter'
        cases letter'
  rw [noGap, noLeft, List.append_nil, List.nil_append] at split
  rw [noGap, List.length_nil, Nat.add_zero] at starts stops
  exact ⟨starts, by rw [stops, split]⟩

/-! ### The result -/

/-- Dictated digits stand alone: the words are whole, nothing before leads into them, and no number word
goes on with them. -/
structure Alone (before after : PyStr) : Prop where
  left : ∀ c ∈ before.getLast?, isLetterChar c = false
  right : ∀ c ∈ after.head?, isLetterChar c = false
  first : ¬Leads (tokens before)
  last : ∀ t ∈ ((tokens after).dropWhile fun t => separators.contains t.word).head?, ¬IsNumber t

/-- Dictated digits are written back faithfully. -/
def Faithful (text : PyStr) : Prop :=
  ∃ out, written text = some out ∧ written out = some out ∧ Spliced text out ∧
    ∀ before spoken after ds, text = before ++ (spoken ++ after) → Dictates spoken ds → minDigits ≤ ds.length →
      Alone before after → afterAMonth (tokens before) ≠ some true →
        ∃ x y, out = x ++ (ds ++ y) ∧ Spliced before x ∧ Spliced after y

theorem Alone.tokens_split {before spoken after ds : PyStr} (alone : Alone before after)
    (dictates : Dictates spoken ds) : tokens (before ++ (spoken ++ after)) = tokens before ++
      (tokensFrom before.length spoken ++ tokensFrom (before.length + spoken.length) after) := by
  obtain ⟨⟨c, head, letter⟩, ⟨d, last, letter'⟩⟩ := dictates.ends
  have right : Apart spoken after := by
    intro a lastA b headB
    rw [Option.mem_def, last] at lastA
    cases lastA
    refine ⟨fun both => ?_, fun both => ?_⟩
    · rw [alone.right b headB] at both
      cases both.2
    · rw [letter_not_decimal letter'] at both
      cases both.1
  have left : Apart before (spoken ++ after) := by
    intro a lastA b headB
    rw [Option.mem_def, List.head?_append, head] at headB
    cases headB
    refine ⟨fun both => ?_, fun both => ?_⟩
    · rw [alone.left a lastA] at both
      cases both.1
    · rw [letter_not_decimal letter] at both
      cases both.2
  rw [tokens_eq, tokens_eq, tokensFrom_append left, Nat.zero_add, tokensFrom_append right]

theorem Spliced.append_right {s o : PyStr} (spliced : Spliced s o) (b : PyStr) : Spliced (s ++ b) (o ++ b) := by
  induction spliced with
  | same s => exact .same _
  | run said long later ih =>
      rw [List.append_assoc, List.append_assoc, List.append_assoc, List.append_assoc]
      exact .run said long ih

/-- What is written is written again as it is. -/
theorem written_twice {text out : PyStr} {ps : List Part} (scan : Scan .start (tokens text) ps)
    (render : Render 0 ps text out) : written out = some out := by
  have echo := render.echoes.whole 0
  rw [← tokens_eq] at echo
  have again := Scan.echo _ (le_refl _) scan echo
  rw [← List.append_nil ((tokens out).map Part.left)] at again
  obtain ⟨o, render'⟩ := render_exists again (spelt_tokensFrom 0 out)
  have written_ := @writtenFrom_render _ _ _ _ again [] rfl _ _ [] render' _ _ (le_refl 0) (le_refl _)
  obtain ⟨a, s, o', rfl, rfl, rest⟩ := render'.lefts
  cases rest with
  | done gaps => exact written_

/-- Dictated digits that stand alone are written. -/
theorem written_dictated {before spoken after ds out : PyStr} {ps : List Part}
    (scan : Scan .start (tokens (before ++ (spoken ++ after))) ps)
    (render : Render 0 ps (before ++ (spoken ++ after)) out) (dictates : Dictates spoken ds)
    (long : minDigits ≤ ds.length) (alone : Alone before after)
    (free : afterAMonth (tokens before) ≠ some true) :
    ∃ x y, out = x ++ (ds ++ y) ∧ Spliced before x ∧ Spliced after y := by
  obtain ⟨run, other⟩ := dictates.run before.length
  obtain ⟨starts, stops⟩ := dictates.segment before.length
  have closed : Closed false (tokensFrom before.length spoken)
      (tokensFrom (before.length + spoken.length) after) := by
    have same := front_of_same (words_tokensFrom (before.length + spoken.length) 0 after)
    exact ⟨same.dropSeparators.head alone.last, fun tens => absurd tens other⟩
  rw [alone.tokens_split dictates] at scan
  obtain ⟨m, tail, shape, number⟩ := run.first
  -- the cut at the first digit word
  obtain ⟨qs, rs, rfl, here⟩ := scan.split alone.first number
    (by rw [shape, List.cons_append])
  have unguarded : (Trace.start.steps (tokens before)).blank = false →
      (Trace.start.steps (tokens before)).guarded = false := by
    intro legible
    rw [afterAMonth_of, legible] at free
    simpa using free
  rw [← List.cons_append, ← shape] at here
  obtain ⟨rs, rfl⟩ := here.of_run run closed unguarded long
  -- and where it lies in the text
  obtain ⟨a, b, s, o, split, rfl, spliced, render⟩ := render.split
  rw [Nat.zero_add] at render
  cases render with
  | @said _ gap r s _ o _ _ gaps _ _ _ starts' stops' later =>
      rw [starts] at starts'
      rw [stops, ← Option.some.inj starts'] at stops'
      have front : before.length = (a ++ gap).length := by
        rw [List.length_append]
        exact Option.some.inj starts'
      rw [← List.append_assoc a] at split
      obtain ⟨rfl, behind⟩ := List.append_inj split front
      obtain ⟨rfl, rfl⟩ := List.append_inj behind (Nat.add_left_cancel stops')
      exact ⟨b ++ gap, o, by simp, spliced.append_right gap, later.spliced⟩

/-- An utterance is written back faithfully exactly where no token that folds to nothing is in front of a
number word. -/
theorem spoken_faithful_iff (text : PyStr) : Faithful text ↔
    ∀ a n b, tokens text = a ++ n :: b → isNumberWord n.word = true → ∀ t ∈ a, t.word ≠ [] := by
  constructor
  · rintro ⟨out, reads, _⟩ a n b split number
    exact (legible_of_written text _ _ _ _ _ (le_refl _) reads a n b split number).2
  · intro legible
    obtain ⟨ps, scan⟩ := scan_exists _ .start (tokens text) (le_refl _)
      fun a n b split number => ⟨rfl, legible a n b split number⟩
    obtain ⟨out, render⟩ := render_exists scan (spelt_tokensFrom 0 text)
    refine ⟨out, @writtenFrom_render _ _ _ _ scan [] rfl _ _ [] render _ _ (le_refl 0) (le_refl _),
      written_twice scan render, render.spliced, ?_⟩
    rintro before spoken after ds rfl dictates long alone free
    exact written_dictated scan render dictates long alone free

end

theorem ascii_unmarked (c : Nat) (ascii : c < 128) : (0x300 ≤ c && c ≤ 0x36F) = false := by
  rw [Bool.and_eq_false_iff, decide_eq_false_iff_not]
  left
  omega

/-- The tables of ASCII with the combining marks. -/
@[reducible] def marked : PyRuntime :=
  { PyRuntime.ascii with
    nonspacing := fun c => 0x300 ≤ c && c ≤ 0x36F
    nonspacing_ascii := ascii_unmarked
    nonspacing_decimal := by
      intro c decimal
      rw [Bool.and_eq_false_iff, decide_eq_false_iff_not]
      left
      change (if isAsciiDigit c then some (c - 48) else none).isSome = true at decimal
      split at decimal
      · next digit =>
        simp only [isAsciiDigit, Bool.and_eq_true, decide_eq_true_eq] at digit
        omega
      · cases decimal }

/-- A combining accent in front of a number word is an error. -/
theorem accent_unread : letI := marked
    ¬Faithful (py "Jose" ++ 0x301 :: py ": one two six") := by
  let _ := marked
  rintro ⟨out, reads, _⟩
  have none_ : written (py "Jose" ++ 0x301 :: py ": one two six") = none := by decide +kernel
  rw [none_] at reads
  cases reads

end GhostPour.N400.SpokenNumbers
