/-
Module: GhostPour.Library.JsonCanonical
Layer: Library
Purpose: What `dumps` writes, `loads` reads back. A value is canonical when its objects repeat no key
  and its floats are written the way `dumps` writes a float; the values `loads` gives are canonical,
  and `loads (dumps j) = some j` for canonical `j`.
Trusted boundary: none
Main exports: Json.Canonical, dumpsStr_append_inj, loads_dumps, canonical_of_loads
-/
import GhostPour.Library.JsonText

namespace GhostPour

/-! ### Numerals -/

theorem digitsOfNat_isDigit (fuel n : Nat) : ∀ c ∈ digitsOfNat fuel n, isAsciiDigit c = true := by
  induction fuel generalizing n with
  | zero =>
      intro c member
      rw [digitsOfNat, List.mem_singleton] at member
      simp [isAsciiDigit, member]
      omega
  | succ fuel ih =>
      intro c member
      rw [digitsOfNat] at member
      split at member
      · rw [List.mem_singleton] at member
        simp [isAsciiDigit, member]
        omega
      · rcases List.mem_append.mp member with front | last
        · exact ih _ c front
        · rw [List.mem_singleton] at last
          simp [isAsciiDigit, last]
          omega

theorem natOfDigits_append (digits : PyStr) (c : Nat) :
    natOfDigits (digits ++ [c]) = 10 * natOfDigits digits + (c - 48) := by
  simp [natOfDigits]

theorem natOfDigits_digitsOfNat (fuel n : Nat) (enough : n ≤ fuel) :
    natOfDigits (digitsOfNat fuel n) = n := by
  induction fuel generalizing n with
  | zero =>
      obtain rfl : n = 0 := by omega
      rfl
  | succ fuel ih =>
      rw [digitsOfNat]
      split
      · simp [natOfDigits]
      · rw [natOfDigits_append, ih (n / 10) (by omega)]
        omega

/-- A numeral is one digit, or starts with a digit from 1 to 9. -/
theorem digitsOfNat_head (fuel n : Nat) (enough : n ≤ fuel) :
    digitsOfNat fuel n = [48] ∨
      ∃ c rest, digitsOfNat fuel n = c :: rest ∧ c ≠ 48 ∧ isAsciiDigit c = true := by
  induction fuel generalizing n with
  | zero =>
      obtain rfl : n = 0 := by omega
      exact .inl rfl
  | succ fuel ih =>
      rw [digitsOfNat]
      split
      · next small =>
        by_cases zero : n = 0
        · exact .inl (by rw [zero])
        · exact .inr ⟨48 + n, [], rfl, by omega, by simp [isAsciiDigit]; omega⟩
      · next large =>
        have front := ih (n / 10) (by omega)
        rcases front with zero | ⟨c, rest, shape, positive, digit⟩
        · have value := natOfDigits_digitsOfNat fuel (n / 10) (by omega)
          rw [zero] at value
          simp [natOfDigits] at value
          omega
        · exact .inr ⟨c, rest ++ [48 + n % 10], by rw [shape]; rfl, positive, digit⟩

theorem dropWhile_digits {s : PyStr} (digits : ∀ c ∈ s, isAsciiDigit c = true) :
    s.dropWhile isAsciiDigit = [] := by
  rw [List.dropWhile_eq_nil_iff]
  exact digits

theorem intPart_strOfNat (n : Nat) : intPart (strOfNat n) = some [] := by
  have digits := digitsOfNat_isDigit n n
  unfold strOfNat
  rcases digitsOfNat_head n n le_rfl with zero | ⟨c, rest, shape, positive, digit⟩
  · rw [zero]
    rfl
  · rw [shape] at digits ⊢
    simp only [intPart, if_neg positive, digit, if_true]
    rw [dropWhile_digits fun d member => digits d (by simp [member])]

theorem strOfNat_head (n : Nat) : ∃ c rest, strOfNat n = c :: rest ∧ c ≠ 45 := by
  unfold strOfNat
  rcases digitsOfNat_head n n le_rfl with zero | ⟨c, rest, shape, _, digit⟩
  · exact ⟨48, [], zero, by decide⟩
  · refine ⟨c, rest, shape, ?_⟩
    rintro rfl
    exact absurd digit (by decide)

/-- The text of an integer is a number token. -/
theorem numberToken_strOfInt (n : Int) : numberToken (strOfInt n) = some false := by
  cases n with
  | ofNat n =>
      obtain ⟨c, rest, shape, notMinus⟩ := strOfNat_head n
      have plain : dropOpt (· == 45) (strOfNat n) = strOfNat n := by
        rw [shape]
        simp [dropOpt, notMinus]
      simp only [strOfInt, numberToken]
      rw [plain, intPart_strOfNat]
      rfl
  | negSucc n =>
      simp only [strOfInt, numberToken]
      rw [show dropOpt (· == 45) (45 :: strOfNat (n + 1)) = strOfNat (n + 1) from rfl,
        intPart_strOfNat]
      rfl

/-- The text of an integer stands for it. -/
theorem intOfToken_strOfInt (n : Int) : intOfToken (strOfInt n) = n := by
  cases n with
  | ofNat n =>
      obtain ⟨c, rest, shape, notMinus⟩ := strOfNat_head n
      have value := natOfDigits_digitsOfNat n n le_rfl
      change natOfDigits (strOfNat n) = n at value
      rw [shape] at value
      simp only [strOfInt, shape, intOfToken, if_neg notMinus, value]
      rfl
  | negSucc n =>
      have value := natOfDigits_digitsOfNat (n + 1) (n + 1) le_rfl
      change natOfDigits (strOfNat (n + 1)) = n + 1 at value
      simp only [strOfInt, intOfToken, if_true, value]
      omega

/-! ### The characters of a number token -/

theorem isAtomChar_of_digit {c : Nat} (digit : isAsciiDigit c = true) : isAtomChar c = true := by
  simp [isAtomChar, digit]

theorem mem_of_dropWhile_digit {s : PyStr}
    (rest : ∀ c ∈ s.dropWhile isAsciiDigit, isAtomChar c = true) :
    ∀ c ∈ s, isAtomChar c = true := by
  intro c member
  rw [← List.takeWhile_append_dropWhile (p := isAsciiDigit) (l := s)] at member
  rcases List.mem_append.mp member with digit | later
  · exact isAtomChar_of_digit (List.mem_takeWhile_imp digit)
  · exact rest c later

theorem digits1_chars {s rest : PyStr} (read : digits1 s = some rest)
    (atoms : ∀ c ∈ rest, isAtomChar c = true) : ∀ c ∈ s, isAtomChar c = true := by
  cases s with
  | nil => simp
  | cons d s =>
      simp only [digits1] at read
      split at read
      · next digit =>
        cases read
        intro c member
        rcases List.mem_cons.mp member with rfl | later
        · exact isAtomChar_of_digit digit
        · exact mem_of_dropWhile_digit atoms c later
      · cases read

theorem dropOpt_chars {p : Nat → Bool} {s : PyStr} (sign : ∀ c, p c = true → isAtomChar c = true)
    (atoms : ∀ c ∈ dropOpt p s, isAtomChar c = true) : ∀ c ∈ s, isAtomChar c = true := by
  cases s with
  | nil => simp
  | cons d s =>
      simp only [dropOpt] at atoms
      split at atoms
      · next dropped =>
        intro c member
        rcases List.mem_cons.mp member with rfl | later
        · exact sign _ dropped
        · exact atoms c later
      · exact atoms

theorem exponentPart_chars {point b : Bool} {s : PyStr} (read : exponentPart point s = some b) :
    ∀ c ∈ s, isAtomChar c = true := by
  cases s with
  | nil => simp
  | cons e s =>
      rw [exponentPart] at read
      split at read
      · next exponent =>
        obtain ⟨isE, digits⟩ := exponent
        intro c member
        rcases List.mem_cons.mp member with rfl | later
        · rcases isE with rfl | rfl <;> decide
        · refine dropOpt_chars (fun d sign => ?_) (digits1_chars digits (by simp)) c later
          simp at sign
          rcases sign with rfl | rfl <;> decide
      · cases read

theorem fractionAndExponent_chars {s : PyStr} {b : Bool} (read : fractionAndExponent s = some b) :
    ∀ c ∈ s, isAtomChar c = true := by
  cases s with
  | nil => simp
  | cons d s =>
      rw [fractionAndExponent] at read
      split at read
      · next dot =>
        obtain ⟨left, digits, rest⟩ := Option.bind_eq_some_iff.mp read
        intro c member
        rcases List.mem_cons.mp member with rfl | later
        · rw [dot]
          decide
        · exact digits1_chars digits (exponentPart_chars rest) c later
      · exact exponentPart_chars read

theorem numberToken_chars {s : PyStr} {b : Bool} (read : numberToken s = some b) :
    ∀ c ∈ s, isAtomChar c = true := by
  obtain ⟨left, int, rest⟩ := Option.bind_eq_some_iff.mp read
  have minus : ∀ c, (c == 45) = true → isAtomChar c = true := by
    intro c isMinus
    obtain rfl : c = 45 := by simpa using isMinus
    decide
  refine dropOpt_chars minus ?_
  have atoms := fractionAndExponent_chars rest
  cases shape : dropOpt (· == 45) s with
  | nil => simp
  | cons d s' =>
      rw [shape] at int
      simp only [intPart] at int
      intro c member
      split at int
      · next zero =>
        cases int
        rcases List.mem_cons.mp member with rfl | later
        · rw [zero]
          decide
        · exact atoms c later
      · split at int
        · next digit =>
          cases int
          rcases List.mem_cons.mp member with rfl | later
          · exact isAtomChar_of_digit digit
          · exact mem_of_dropWhile_digit atoms c later
        · cases int

section
variable [PyRuntime]

/-- A number token is none of the literals. -/
theorem classify_numberToken {t : PyStr} {b : Bool} (number : numberToken t = some b) :
    classify t = some (if b then .float (PyRuntime.floatText t) else .int (intOfToken t)) := by
  have other : ∀ literal : PyStr, numberToken literal = none → t ≠ literal := by
    rintro literal notNumber rfl
    rw [notNumber] at number
    cases number
  unfold classify
  rw [if_neg (other _ (by decide)), if_neg (other _ (by decide)), if_neg (other _ (by decide)),
    if_neg (by
      rintro (rfl | rfl | rfl)
      · exact other _ (by decide) rfl
      · exact other _ (by decide) rfl
      · exact other _ (by decide) rfl), number]
  cases b <;> rfl

theorem classify_chars {t : PyStr} {v : Json} (ok : classify t = some v) :
    ∀ c ∈ t, isAtomChar c = true := by
  unfold classify at ok
  split at ok
  · next literal => subst literal; decide
  · split at ok
    · next literal => subst literal; decide
    · split at ok
      · next literal => subst literal; decide
      · split at ok
        · next literal => rcases literal with rfl | rfl | rfl <;> decide
        · split at ok
          · next number => exact numberToken_chars number
          · next number => exact numberToken_chars number
          · cases ok

/-! ### Canonical values -/

mutual

/-- No object repeats a key, and every float is written the way `dumps` writes it. -/
def Json.Canonical : Json → Prop
  | .null => True
  | .bool _ => True
  | .int _ => True
  | .float text => classify text = some (.float text)
  | .str _ => True
  | .arr items => CanonicalItems items
  | .obj members => (members.map Prod.fst).Nodup ∧ CanonicalMembers members

/-- Every element is canonical. -/
def CanonicalItems : List Json → Prop
  | [] => True
  | v :: items => v.Canonical ∧ CanonicalItems items

/-- The value of every member is canonical. -/
def CanonicalMembers : List (PyStr × Json) → Prop
  | [] => True
  | m :: members => CanonicalMember m ∧ CanonicalMembers members

/-- The value of a member is canonical. -/
def CanonicalMember : PyStr × Json → Prop
  | (_, v) => v.Canonical

end

theorem canonicalItems_iff (items : List Json) :
    CanonicalItems items ↔ ∀ v ∈ items, v.Canonical := by
  induction items with
  | nil => simp [CanonicalItems]
  | cons v items ih => simp [CanonicalItems, ih]

theorem canonicalMembers_iff (members : List (PyStr × Json)) :
    CanonicalMembers members ↔ ∀ m ∈ members, m.2.Canonical := by
  induction members with
  | nil => simp [CanonicalMembers]
  | cons m members ih =>
      obtain ⟨key, v⟩ := m
      simp [CanonicalMembers, CanonicalMember, ih]

end

/-! ### Strings -/

theorem hexDigit_hexChar {n : Nat} (small : n < 16) : hexDigit (hexChar n) = some n := by
  interval_cases n <;> decide

/-- Every character is written as an item that stands for it. -/
theorem escapeChar_item (c : Nat) : ∃ item : StrItem, item.text = escapeChar c ∧
    ∀ items, decodeFrom none (item :: items) = c :: decodeFrom none items := by
  have escape : ∀ e (ok : simpleEscape e = some c), escapeChar c = [backslash, e] →
      ∃ item : StrItem, item.text = escapeChar c ∧
        ∀ items, decodeFrom none (item :: items) = c :: decodeFrom none items :=
    fun e ok written => ⟨.escape e c ok, written.symm, fun items => by simp [decodeFrom]⟩
  by_cases quote : c = dquote ∨ c = backslash
  · exact escape c (by rcases quote with rfl | rfl <;> decide) (by simp [escapeChar, quote])
  by_cases control : c < 32
  · by_cases short : c = 8 ∨ c = 12 ∨ c = 10 ∨ c = 13 ∨ c = 9
    · rcases short with rfl | rfl | rfl | rfl | rfl
      · exact escape 98 (by decide) (by decide)
      · exact escape 102 (by decide) (by decide)
      · exact escape 110 (by decide) (by decide)
      · exact escape 114 (by decide) (by decide)
      · exact escape 116 (by decide) (by decide)
    · push Not at short
      have value : hex4 48 48 (hexChar (c / 16)) (hexChar (c % 16)) = some c := by
        have zero : hexDigit 48 = some 0 := by decide
        have high := hexDigit_hexChar (show c / 16 < 16 by omega)
        have low := hexDigit_hexChar (show c % 16 < 16 by omega)
        simp only [hex4, zero, high, low, Option.bind_eq_bind, Option.bind_some, Option.pure_def]
        congr 1
        omega
      refine ⟨.unicode 48 48 (hexChar (c / 16)) (hexChar (c % 16)) c value, ?_, fun items => ?_⟩
      · simp [escapeChar, quote, short, control, StrItem.text, py]
      · have notHigh : isHighSurrogate c = false := by
          simp [isHighSurrogate]
          omega
        simp [decodeFrom, notHigh]
  · push Not at quote
    have plain : isPlain c = true := by simp [isPlain, quote]; omega
    refine ⟨.plain c plain, ?_, fun items => by simp [decodeFrom]⟩
    have other : c ≠ 8 ∧ c ≠ 12 ∧ c ≠ 10 ∧ c ≠ 13 ∧ c ≠ 9 := by omega
    simp [escapeChar, quote.1, quote.2, other, control, StrItem.text]

/-- Every string is the value of the body it is written as. -/
theorem exists_items (s : PyStr) : ∃ items, itemsText items = s.flatMap escapeChar ∧
    decodeItems items = s := by
  induction s with
  | nil => exact ⟨[], rfl, rfl⟩
  | cons c s ih =>
      obtain ⟨items, text, value⟩ := ih
      obtain ⟨item, written, stands⟩ := escapeChar_item c
      refine ⟨item :: items, ?_, ?_⟩
      · simp [itemsText, written, ← text]
      · rw [decodeItems, stands]
        exact congrArg (c :: ·) value

theorem exists_quoted (s : PyStr) : ∃ items, quotedText items = dumpsStr s ∧
    decodeItems items = s := by
  obtain ⟨items, text, value⟩ := exists_items s
  exact ⟨items, by rw [quotedText, text, dumpsStr], value⟩

/-! ### Writing and reading back -/

/-- Where a written string ends can be seen in the text, and the text tells strings apart. -/
theorem dumpsStr_append_inj {s t rest rest' : PyStr}
    (same : dumpsStr s ++ rest = dumpsStr t ++ rest') : s = t ∧ rest = rest' := by
  obtain ⟨items, text, value⟩ := exists_quoted s
  obtain ⟨items', text', value'⟩ := exists_quoted t
  rw [← text, ← text', quotedText, quotedText, List.cons_append, List.cons_append, List.cons.injEq,
    List.append_assoc, List.append_assoc] at same
  have read := scanItems_complete items rest
  have read' := scanItems_complete items' rest'
  rw [List.singleton_append, List.singleton_append] at same
  rw [same.2, read', Option.some.injEq, Prod.mk.injEq] at read
  rw [← value, ← value', read.1]
  exact ⟨rfl, read.2.symm⟩

theorem join_eq_flatMap (sep part : PyStr) (parts : List PyStr) :
    join sep (part :: parts) = part ++ parts.flatMap (sep ++ ·) := by
  induction parts generalizing part with
  | nil => simp [join]
  | cons next parts ih =>
      have step : join sep (part :: next :: parts) = part ++ (sep ++ join sep (next :: parts)) := by
        simp [join, List.intercalate, List.intersperse]
      rw [step, ih, List.flatMap_cons, List.append_assoc]

/-- No white space. -/
def Ws.empty : Ws := ⟨[], by simp⟩

/-- One space. -/
def Ws.space : Ws := ⟨[32], by simp [isJsonSpace]⟩

theorem set_of_not_mem (d : Dict) (key : PyStr) (v : Json) (fresh : key ∉ d.map Prod.fst) :
    Dict.set d key v = d ++ [(key, v)] := by
  induction d with
  | nil => rfl
  | cons m d ih =>
      rw [List.map_cons, List.mem_cons, not_or] at fresh
      simp [Dict.set, Ne.symm fresh.1, ih fresh.2]

/-- Members without repeated keys are a dict as they stand. -/
theorem ofMembers_of_nodup (members : List (PyStr × Json)) (distinct : (members.map Prod.fst).Nodup) :
    Dict.ofMembers members = members := by
  suffices ∀ d : Dict, ((d ++ members).map Prod.fst).Nodup →
      members.foldl (fun d m => Dict.set d m.1 m.2) d = d ++ members by
    simpa [Dict.ofMembers] using this [] (by simpa using distinct)
  clear distinct
  intro d distinct
  induction members generalizing d with
  | nil => simp
  | cons m members ih =>
      have fresh : m.1 ∉ d.map Prod.fst := by
        rw [List.map_append, List.nodup_append] at distinct
        exact fun member => distinct.2.2 _ member _ (by simp) rfl
      rw [List.foldl_cons, set_of_not_mem d m.1 m.2 fresh, ih _ (by simpa using distinct)]
      simp

section
variable [PyRuntime]

/-- The elements after the first are written with a comma and a space before each. -/
def joinRest (parts : List PyStr) : PyStr := parts.flatMap fun part => comma :: 32 :: part

omit [PyRuntime] in
theorem join_cons (part : PyStr) (parts : List PyStr) :
    join (py ", ") (part :: parts) = part ++ joinRest parts := join_eq_flatMap (py ", ") part parts

mutual

/-- Every canonical value has a text in the concrete syntax that is what `dumps` writes. -/
theorem exists_text : ∀ (j : Json), j.Canonical → ∃ v : JsonText, v.text = dumps j ∧ v.value = j
  | .null, _ => ⟨.atom ⟨py "null", .null, by decide, rfl⟩, rfl, rfl⟩
  | .bool b, _ => by
      cases b with
      | false => exact ⟨.atom ⟨py "false", .bool false, by decide, rfl⟩, rfl, rfl⟩
      | true => exact ⟨.atom ⟨py "true", .bool true, by decide, rfl⟩, rfl, rfl⟩
  | .int n, _ => by
      have number := numberToken_strOfInt n
      have value := classify_numberToken number
      rw [intOfToken_strOfInt] at value
      exact ⟨.atom ⟨strOfInt n, .int n, numberToken_chars number, value⟩, rfl, rfl⟩
  | .float t, canonical => by
      rw [Json.Canonical] at canonical
      exact ⟨.atom ⟨t, .float t, classify_chars canonical, canonical⟩, rfl, rfl⟩
  | .str s, _ => by
      obtain ⟨items, text, value⟩ := exists_quoted s
      exact ⟨.str items, by rw [JsonText.text, text, dumps], by rw [JsonText.value, value]⟩
  | .arr [], _ => ⟨.arrEmpty .empty, by simp [JsonText.text, Ws.empty, dumps, dumpsItems, join],
      by rw [JsonText.value]⟩
  | .arr (v :: items), canonical => by
      rw [Json.Canonical, CanonicalItems] at canonical
      obtain ⟨vt, vText, vValue⟩ := exists_text v canonical.1
      obtain ⟨es, text, values⟩ := exists_elems items canonical.2 .empty vt
      refine ⟨.arr es, ?_, ?_⟩
      · rw [JsonText.text, text, vText, dumps, dumpsItems, join_cons]
        simp [Ws.empty]
      · rw [JsonText.value, values, vValue]
  | .obj [], _ => ⟨.objEmpty .empty, by simp [JsonText.text, Ws.empty, dumps, dumpsMembers, join],
      by rw [JsonText.value]⟩
  | .obj (m :: members), canonical => by
      rw [Json.Canonical, CanonicalMembers] at canonical
      obtain ⟨distinct, first, rest⟩ := canonical
      obtain ⟨vt, key, mText, mValue⟩ := exists_member m first
      obtain ⟨ms, text, values⟩ := exists_members members rest .empty key vt
      refine ⟨.obj ms, ?_, ?_⟩
      · rw [JsonText.text, text, mText, dumps, dumpsMembers, join_cons]
        simp [Ws.empty]
      · rw [JsonText.value, values, mValue, ofMembers_of_nodup _ distinct]

/-- The same for the elements of an array, after the text of the first. -/
theorem exists_elems : ∀ (items : List Json), CanonicalItems items → ∀ (w : Ws) (vt : JsonText),
    ∃ es : ElemsText, es.text = w.text ++ (vt.text ++ joinRest (dumpsItems items) ++ [rbracket]) ∧
      es.values = vt.value :: items
  | [], _, w, vt => ⟨.last w vt .empty, by simp [ElemsText.text, Ws.empty, dumpsItems, joinRest],
      by rw [ElemsText.values]⟩
  | v :: items, canonical, w, vt => by
      rw [CanonicalItems] at canonical
      obtain ⟨vt', vText, vValue⟩ := exists_text v canonical.1
      obtain ⟨es, text, values⟩ := exists_elems items canonical.2 .space vt'
      refine ⟨.cons w vt .empty es, ?_, ?_⟩
      · rw [ElemsText.text, text, vText, dumpsItems]
        simp [Ws.empty, Ws.space, joinRest]
      · rw [ElemsText.values, values, vValue]

/-- The same for a member of an object. -/
theorem exists_member : ∀ (m : PyStr × Json), CanonicalMember m →
    ∃ (vt : JsonText) (key : List StrItem),
      quotedText key ++ (colon :: 32 :: vt.text) = dumpsMember m ∧ (decodeItems key, vt.value) = m
  | (k, v), canonical => by
      rw [CanonicalMember] at canonical
      obtain ⟨vt, vText, vValue⟩ := exists_text v canonical
      obtain ⟨key, kText, kValue⟩ := exists_quoted k
      exact ⟨vt, key, by rw [kText, vText, dumpsMember], by rw [kValue, vValue]⟩

/-- The same for the members of an object, after the text of the first. -/
theorem exists_members : ∀ (members : List (PyStr × Json)), CanonicalMembers members →
    ∀ (w : Ws) (key : List StrItem) (vt : JsonText), ∃ ms : MembersText,
      ms.text = w.text ++ ((quotedText key ++ (colon :: 32 :: vt.text)) ++
        joinRest (dumpsMembers members) ++ [rbrace]) ∧
      ms.values = (decodeItems key, vt.value) :: members
  | [], _, w, key, vt => ⟨.last w key .empty .space vt .empty,
      by simp [MembersText.text, Ws.empty, Ws.space, dumpsMembers, joinRest],
      by rw [MembersText.values]⟩
  | m :: members, canonical, w, key, vt => by
      rw [CanonicalMembers] at canonical
      obtain ⟨vt', key', mText, mValue⟩ := exists_member m canonical.1
      obtain ⟨ms, text, values⟩ := exists_members members canonical.2 .space key' vt'
      refine ⟨.cons w key .empty .space vt .empty ms, ?_, ?_⟩
      · rw [MembersText.text, text, mText, dumpsMembers]
        simp [Ws.empty, Ws.space, joinRest]
      · rw [MembersText.values, values, mValue]

end

/-- What `dumps` writes, `loads` reads back. -/
theorem loads_dumps {j : Json} (canonical : j.Canonical) : loads (dumps j) = some j := by
  obtain ⟨v, text, value⟩ := exists_text j canonical
  have read := loads_document ⟨.empty, v, .empty⟩
  simpa [Document.text, Ws.empty, text, value] using read

/-! ### The values that are read -/

/-- The value of a token is canonical. -/
theorem canonical_of_classify {t : PyStr} {v : Json} (ok : classify t = some v) : v.Canonical := by
  unfold classify at ok
  split at ok
  · cases ok
    rw [Json.Canonical]
    trivial
  · split at ok
    · cases ok
      rw [Json.Canonical]
      trivial
    · split at ok
      · cases ok
        rw [Json.Canonical]
        trivial
      · split at ok
        · next literal =>
          cases ok
          rw [Json.Canonical]
          rcases literal with rfl | rfl | rfl <;> rfl
        · split at ok
          · next number =>
            cases ok
            rw [Json.Canonical]
            rcases PyRuntime.floatText_spec t number with inf | negInf | ⟨again, same⟩
            · rw [inf]
              rfl
            · rw [negInf]
              rfl
            · rw [classify_numberToken again, same]
              rfl
          · cases ok
            rw [Json.Canonical]
            trivial
          · cases ok

omit [PyRuntime] in
theorem keys_set (d : Dict) (key : PyStr) (v : Json) :
    (Dict.set d key v).map Prod.fst =
      if key ∈ d.map Prod.fst then d.map Prod.fst else d.map Prod.fst ++ [key] := by
  induction d with
  | nil => rfl
  | cons m d ih =>
      by_cases here : m.1 = key
      · simp [Dict.set, here]
      · simp only [Dict.set, here, if_false, List.map_cons, ih, List.mem_cons, Ne.symm here,
          false_or]
        split <;> rfl

omit [PyRuntime] in
theorem nodup_set {d : Dict} (distinct : (d.map Prod.fst).Nodup) (key : PyStr) (v : Json) :
    ((Dict.set d key v).map Prod.fst).Nodup := by
  rw [keys_set]
  split
  · exact distinct
  · next fresh =>
    rw [List.nodup_append]
    refine ⟨distinct, by simp, ?_⟩
    rintro a member b last rfl
    rw [List.mem_singleton] at last
    exact fresh (last ▸ member)

omit [PyRuntime] in
theorem mem_set {d : Dict} {key : PyStr} {v : Json} {m : PyStr × Json}
    (member : m ∈ Dict.set d key v) : m ∈ d ∨ m = (key, v) := by
  induction d with
  | nil => exact .inr (by simpa [Dict.set] using member)
  | cons m' d ih =>
      simp only [Dict.set] at member
      split at member
      · next here =>
        rcases List.mem_cons.mp member with same | later
        · exact .inr (by rw [same, here])
        · exact .inl (List.mem_cons_of_mem _ later)
      · rcases List.mem_cons.mp member with same | later
        · exact .inl (by simp [same])
        · rcases ih later with old | new
          · exact .inl (List.mem_cons_of_mem _ old)
          · exact .inr new

/-- An object is canonical when its keys are distinct and its values canonical. -/
theorem canonical_obj_iff (d : Dict) :
    (Json.obj d).Canonical ↔ (d.map Prod.fst).Nodup ∧ ∀ m ∈ d, m.2.Canonical := by
  rw [Json.Canonical, canonicalMembers_iff]

theorem canonical_arr_iff (items : List Json) :
    (Json.arr items).Canonical ↔ ∀ v ∈ items, v.Canonical := by
  rw [Json.Canonical, canonicalItems_iff]

/-- Assigning a canonical value keeps an object canonical. -/
theorem canonical_set {d : Dict} (canonical : (Json.obj d).Canonical) (key : PyStr) {v : Json}
    (value : v.Canonical) : (Json.obj (Dict.set d key v)).Canonical := by
  rw [canonical_obj_iff] at canonical ⊢
  refine ⟨nodup_set canonical.1 key v, fun m member => ?_⟩
  rcases mem_set member with old | rfl
  · exact canonical.2 m old
  · exact value

/-- What an object holds under a key is canonical. -/
theorem canonical_get {d : Dict} (canonical : (Json.obj d).Canonical) (key : PyStr) :
    (Dict.get d key).Canonical := by
  rw [canonical_obj_iff] at canonical
  replace canonical := canonical.2
  induction d with
  | nil =>
      rw [Dict.get, Json.Canonical]
      trivial
  | cons m d ih =>
      rw [Dict.get]
      split
      · exact canonical m (by simp)
      · exact ih fun m' member => canonical m' (by simp [member])

theorem canonical_ofMembers (members : List (PyStr × Json))
    (values : ∀ m ∈ members, m.2.Canonical) : (Json.obj (Dict.ofMembers members)).Canonical := by
  suffices ∀ d : Dict, (Json.obj d).Canonical →
      (Json.obj (members.foldl (fun d m => Dict.set d m.1 m.2) d)).Canonical from
    this [] (by simp [canonical_obj_iff])
  induction members with
  | nil => exact fun d canonical => canonical
  | cons m members ih =>
      intro d canonical
      exact ih (fun m' member => values m' (by simp [member])) _
        (canonical_set canonical m.1 (values m (by simp)))

mutual

/-- The value of a text is canonical. -/
theorem JsonText.canonical : ∀ v : JsonText, v.value.Canonical
  | .atom a => by
      rw [JsonText.value]
      exact canonical_of_classify a.ok
  | .str items => by
      rw [JsonText.value, Json.Canonical]
      trivial
  | .arrEmpty w => by
      rw [JsonText.value, canonical_arr_iff]
      simp
  | .arr es => by
      rw [JsonText.value, canonical_arr_iff]
      exact es.canonical
  | .objEmpty w => by
      rw [JsonText.value, canonical_obj_iff]
      simp
  | .obj ms => by
      rw [JsonText.value]
      exact canonical_ofMembers _ ms.canonical

theorem ElemsText.canonical : ∀ es : ElemsText, ∀ v ∈ es.values, v.Canonical
  | .last w₁ v w₂ => by
      rw [ElemsText.values]
      simpa using v.canonical
  | .cons w₁ v w₂ es => by
      rw [ElemsText.values]
      intro v' member
      rcases List.mem_cons.mp member with rfl | later
      · exact v.canonical
      · exact es.canonical v' later

theorem MembersText.canonical : ∀ ms : MembersText, ∀ m ∈ ms.values, m.2.Canonical
  | .last w₁ key w₂ w₃ v w₄ => by
      rw [MembersText.values]
      simpa using v.canonical
  | .cons w₁ key w₂ w₃ v w₄ ms => by
      rw [MembersText.values]
      intro m member
      rcases List.mem_cons.mp member with rfl | later
      · exact v.canonical
      · exact ms.canonical m later

end

/-- What `loads` reads is canonical, so `dumps` and `loads` keep it. -/
theorem canonical_of_loads {s : PyStr} {j : Json} (read : loads s = some j) : j.Canonical := by
  obtain ⟨d, _, rfl⟩ := (loads_eq_some_iff s j).mp read
  exact d.body.canonical

end

end GhostPour
