/-
Module: GhostPour.N400.Proofs.StreamStrings
Layer: Proofs
Purpose: How the reply reader reads a string. A body that pairs its surrogates is read as
  `json.loads` reads it; a high surrogate without a second escape after it ends the run.
Trusted boundary: none
Main exports: Reads, Silent, Passes, streamItems, string_passes, streamItems_of_paired
-/
import GhostPour.Library.JsonText
import GhostPour.N400.Proofs.StreamRuns

namespace GhostPour.N400

/-! ### Escapes -/

section
variable [PyRuntime]

theorem base16Digit_of_hexDigit {c v : Nat} (digit : hexDigit c = some v) :
    base16Digit c = some v := by
  have small : c < 128 := by
    unfold hexDigit isAsciiDigit at digit
    split at digit
    · next h => simp at h; omega
    · split at digit
      · next h => simp at h; omega
      · split at digit
        · next h => simp at h; omega
        · cases digit
  rw [base16Digit, PyRuntime.decimal_ascii c small]
  rw [hexDigit] at digit
  split at digit
  · next h => rw [if_pos h]; exact digit
  · next h => rw [if_neg h]; exact digit

omit [PyRuntime] in
/-- A hexadecimal digit is no sign, space, underscore or `x`. -/
theorem hexDigit_char {c v : Nat} (digit : hexDigit c = some v) :
    v < 16 ∧ isSpace c = false ∧ c ≠ 43 ∧ c ≠ 45 ∧ c ≠ 95 ∧ c ≠ 120 ∧ c ≠ 88 := by
  unfold hexDigit isAsciiDigit at digit
  simp only [Bool.and_eq_true, decide_eq_true_eq] at digit
  simp only [isSpace, Bool.or_eq_false_iff, Bool.and_eq_false_iff, decide_eq_false_iff_not,
    beq_eq_false_iff_ne]
  split at digit
  · cases digit; omega
  · split at digit
    · cases digit; omega
    · split at digit
      · cases digit; omega
      · cases digit

omit [PyRuntime] in
theorem strip_eq_self {a d : Nat} {mid : PyStr} (front : isSpace a = false)
    (back : isSpace d = false) : strip (a :: (mid ++ [d])) = a :: (mid ++ [d]) := by
  rw [strip, stripBy, List.dropWhile_cons_of_neg (by simp [front]), ← List.cons_append,
    List.rdropWhile_concat_neg _ _ _ (by simp [back])]

/-- `int` reads four hexadecimal digits as the escape means them. -/
theorem intBase16_of_hex4 {a b c d cp : Nat} (ok : hex4 a b c d = some cp) :
    intBase16 [a, b, c, d] = some (cp : Int) ∧ cp < 0x10000 := by
  obtain ⟨va, da, vb, db, vc, dc, vd, dd, rfl⟩ : ∃ va, hexDigit a = some va ∧ ∃ vb,
      hexDigit b = some vb ∧ ∃ vc, hexDigit c = some vc ∧ ∃ vd, hexDigit d = some vd ∧
      (va * 16 + vb) * 256 + (vc * 16 + vd) = cp := by
    simp only [hex4, Option.bind_eq_bind, Option.bind_eq_some_iff, Option.pure_def,
      Option.some.injEq] at ok
    exact ok
  obtain ⟨la, sa, pa, ma, ua, xa, Xa⟩ := hexDigit_char da
  obtain ⟨lb, sb, pb, mb, ub, xb, Xb⟩ := hexDigit_char db
  obtain ⟨lc, sc, pc, mc, uc, xc, Xc⟩ := hexDigit_char dc
  obtain ⟨ld, sd, pd, md, ud, xd, Xd⟩ := hexDigit_char dd
  have digits : base16Magnitude [a, b, c, d] =
      some ((va * 16 + vb) * 256 + (vc * 16 + vd)) := by
    rw [base16Magnitude, if_neg (by simp [ord, xb, Xb]), if_neg (show ¬ a = ord '_' from ua)]
    simp only [base16Digits, show ord '_' = 95 from rfl, if_neg ua, if_neg ub, if_neg uc,
      if_neg ud, base16Digit_of_hexDigit da, base16Digit_of_hexDigit db,
      base16Digit_of_hexDigit dc, base16Digit_of_hexDigit dd, Option.bind_some, Option.some.injEq]
    omega
  refine ⟨?_, by omega⟩
  rw [intBase16, show strip [a, b, c, d] = [a, b, c, d] from @strip_eq_self a d [b, c] sa sd]
  split
  · next same => cases same; exact absurd rfl ma
  · next same => cases same; exact absurd rfl pa
  · rw [digits]
    rfl

omit [PyRuntime] in
/-- The high surrogates of an escape, as the reader tests them. -/
theorem isHighSurrogate_iff (cp : Nat) :
    isHighSurrogate cp = true ↔ (0xD800 : Int) ≤ cp ∧ (cp : Int) ≤ 0xDBFF := by
  simp only [isHighSurrogate, Bool.and_eq_true, decide_eq_true_eq]
  omega

theorem decode_short {x : PyStr} (short : x.length < 4) :
    decodeEscape (letterU :: x) = .pending := by
  rw [decodeEscape]
  simp only [show simpleEscape letterU = none by decide, if_true]
  rw [decodeUnicode, if_pos (by simp only [List.length_cons]; omega)]

theorem decode_simple {e c : Nat} (ok : simpleEscape e = some c) :
    decodeEscape [e] = .done c := by
  rw [decodeEscape]
  simp only [ok]

/-- Four digits that are no high surrogate are the character. -/
theorem decode_unicode {a b c d cp : Nat} (ok : hex4 a b c d = some cp)
    (low : isHighSurrogate cp = false) : decodeEscape [letterU, a, b, c, d] = .done cp := by
  obtain ⟨digits, small⟩ := intBase16_of_hex4 ok
  have notHigh : ¬ ((0xD800 : Int) ≤ cp ∧ (cp : Int) ≤ 0xDBFF) := by
    rw [← isHighSurrogate_iff, low]
    decide
  rw [decodeEscape]
  simp only [show simpleEscape letterU = none by decide, if_true]
  rw [decodeUnicode, if_neg (by simp)]
  simp only [List.drop_succ_cons, List.drop_zero, List.take_succ_cons, List.take_zero, digits,
    if_neg notHigh]
  rw [chrEscape, chr, if_pos (by omega)]
  rfl

/-- After a high surrogate the reader goes on. -/
theorem decode_high {a b c d cp : Nat} (ok : hex4 a b c d = some cp)
    (high : isHighSurrogate cp = true) (x : PyStr) :
    decodeEscape (letterU :: a :: b :: c :: d :: x) =
      if x.length < 6 then .pending
      else if x.take 2 ≠ py "\\u" then .fault (.malformed (py "lone high surrogate"))
      else match intBase16 ((x.drop 2).take 4) with
        | none => .fault .raised
        | some lo => chrEscape (0x10000 + (cp - 0xD800) * 1024 + (lo - 0xDC00)) := by
  obtain ⟨digits, _⟩ := intBase16_of_hex4 ok
  rw [decodeEscape]
  simp only [show simpleEscape letterU = none by decide, if_true]
  rw [decodeUnicode, if_neg (by simp)]
  simp only [List.drop_succ_cons, List.drop_zero, List.take_succ_cons, List.take_zero, digits,
    if_pos ((isHighSurrogate_iff cp).mp high), List.length_cons]
  by_cases short : x.length < 6
  · rw [if_pos short, if_pos (by omega)]
  · rw [if_neg short, if_neg (by omega)] <;> rfl

/-- The character the reader makes of a high surrogate and the escape after it. -/
def joined (high low : Nat) : Py Nat :=
  chr (0x10000 + ((high : Int) - 0xD800) * 1024 + ((low : Int) - 0xDC00))

/-- The string the reader takes from a body, if it gets to its end. -/
def streamItems : List StrItem → Option PyStr
  | [] => some []
  | .plain c _ :: items => (streamItems items).map (c :: ·)
  | .escape _ c _ :: items => (streamItems items).map (c :: ·)
  | .unicode _ _ _ _ cp _ :: items =>
      if isHighSurrogate cp then
        match items with
        | .unicode _ _ _ _ low _ :: rest =>
            (joined cp low).bind fun c => (streamItems rest).map (c :: ·)
        | _ => none
      else (streamItems items).map (cp :: ·)

/-- Every high surrogate of a body is followed by a low one. -/
def paired : List StrItem → Bool
  | [] => true
  | .plain _ _ :: items => paired items
  | .escape _ _ _ :: items => paired items
  | .unicode _ _ _ _ cp _ :: items =>
      if isHighSurrogate cp then
        match items with
        | .unicode _ _ _ _ low _ :: rest => isLowSurrogate low && paired rest
        | _ => false
      else paired items

omit [PyRuntime] in
theorem joined_of_low {high low : Nat} (isHigh : isHighSurrogate high = true)
    (isLow : isLowSurrogate low = true) : joined high low = some (joinSurrogates high low) := by
  simp only [isHighSurrogate, isLowSurrogate, Bool.and_eq_true, decide_eq_true_eq] at isHigh isLow
  have value : (0x10000 + ((high : Int) - 0xD800) * 1024 + ((low : Int) - 0xDC00)) =
      (joinSurrogates high low : Int) := by
    unfold joinSurrogates
    omega
  have bound : joinSurrogates high low < 0x110000 := by
    unfold joinSurrogates
    omega
  rw [joined, value, chr, if_pos (by omega), Int.toNat_natCast]

omit [PyRuntime] in
/-- A body whose surrogates are paired is read as the document reader reads it. -/
theorem streamItems_of_paired (items : List StrItem) (pairs : paired items = true) :
    streamItems items = some (decodeItems items) := by
  induction items using streamItems.induct with
  | case1 => rfl
  | case2 c ok items ih =>
      rw [streamItems, ih pairs]
      rfl
  | case3 e c ok items ih =>
      rw [streamItems, ih pairs]
      rfl
  | case4 a b c d cp ok high a' b' c' d' low ok' rest ih =>
      simp only [paired, if_pos high, Bool.and_eq_true] at pairs
      have whole : decodeItems (.unicode a b c d cp ok :: .unicode a' b' c' d' low ok' :: rest) =
          joinSurrogates cp low :: decodeItems rest := by
        simp [decodeItems, decodeFrom, high, pairs.1]
      simp only [streamItems, if_pos high, joined_of_low high pairs.1, Option.bind_some, ih pairs.2,
        Option.map_some, whole]
  | case5 a b c d cp ok items high other =>
      rw [paired, if_pos high] at pairs
      · cases pairs
      · exact other
  | case6 a b c d cp ok items low ih =>
      have whole : decodeItems (.unicode a b c d cp ok :: items) = cp :: decodeItems items := by
        simp [decodeItems, decodeFrom, low]
      unfold paired at pairs
      rw [if_neg low] at pairs
      unfold streamItems
      rw [if_neg low, ih pairs, whole]
      rfl

end

/-! ### Names in ASCII -/

/-- What the reader makes of two escapes is no ASCII character. -/
theorem joined_large {high low x : Nat} (isHigh : isHighSurrogate high = true)
    (one : joined high low = some x) : 128 ≤ x := by
  rw [joined, chr] at one
  split at one
  · cases one
    simp only [isHighSurrogate, Bool.and_eq_true, decide_eq_true_eq] at isHigh
    omega
  · cases one

theorem cons_eq_iff {c : Nat} {a b name : PyStr} (ascii : ∀ d ∈ name, d < 128)
    (rest : ∀ name : PyStr, (∀ d ∈ name, d < 128) → (a = name ↔ b = name)) :
    c :: a = name ↔ c :: b = name := by
  cases name with
  | nil => simp
  | cons n name =>
      have rest := rest name fun d member => ascii d (List.mem_cons_of_mem n member)
      simp [rest]

theorem cons_ne_of_large {c : Nat} {name : PyStr} (ascii : ∀ d ∈ name, d < 128) (large : 128 ≤ c)
    (a : PyStr) : c :: a ≠ name := by
  rintro rfl
  have := ascii c List.mem_cons_self
  omega

/-- An ASCII name is read from a body by both readers, or by neither. -/
theorem streamItems_ascii (items : List StrItem) {decoded : PyStr}
    (whole : streamItems items = some decoded) (name : PyStr) (ascii : ∀ c ∈ name, c < 128) :
    decoded = name ↔ decodeItems items = name := by
  induction items using streamItems.induct generalizing decoded name with
  | case1 =>
      cases whole
      rfl
  | case2 c ok items ih =>
      obtain ⟨rest, inner, rfl⟩ := Option.map_eq_some_iff.mp whole
      exact cons_eq_iff ascii (ih inner)
  | case3 e c ok items ih =>
      obtain ⟨rest, inner, rfl⟩ := Option.map_eq_some_iff.mp whole
      exact cons_eq_iff ascii (ih inner)
  | case4 a b c d cp ok high a' b' c' d' low ok' items ih =>
      simp only [streamItems, if_pos high] at whole
      obtain ⟨x, one, rest⟩ := Option.bind_eq_some_iff.mp whole
      obtain ⟨rest', inner, rfl⟩ := Option.map_eq_some_iff.mp rest
      cases isLow : isLowSurrogate low with
      | true =>
          obtain rfl : joinSurrogates cp low = x := by
            rw [joined_of_low high isLow] at one
            exact Option.some.inj one
          have split : decodeItems (.unicode a b c d cp ok :: .unicode a' b' c' d' low ok' :: items) =
              joinSurrogates cp low :: decodeItems items := by
            simp [decodeItems, decodeFrom, high, isLow]
          rw [split]
          exact cons_eq_iff ascii (ih inner)
      | false =>
          -- the document keeps the two apart, the reader joins them: neither is ASCII
          have split : ∃ tail, decodeItems (.unicode a b c d cp ok ::
              .unicode a' b' c' d' low ok' :: items) = cp :: tail := by
            simp [decodeItems, decodeFrom, high, isLow]
          obtain ⟨tail, split⟩ := split
          have large : 128 ≤ cp := by
            simp only [isHighSurrogate, Bool.and_eq_true, decide_eq_true_eq] at high
            omega
          rw [split]
          exact iff_of_false (cons_ne_of_large ascii (joined_large high one) _)
            (cons_ne_of_large ascii large tail)
  | case5 a b c d cp ok items high other =>
      rw [streamItems, if_pos high] at whole
      · cases whole
      · exact other
  | case6 a b c d cp ok items low ih =>
      unfold streamItems at whole
      rw [if_neg low] at whole
      obtain ⟨rest, inner, rfl⟩ := Option.map_eq_some_iff.mp whole
      have split : decodeItems (.unicode a b c d cp ok :: items) = cp :: decodeItems items := by
        simp [decodeItems, decodeFrom, low]
      rw [split]
      exact cons_eq_iff ascii (ih inner)

/-! ### Parts of a run -/

namespace ReplyStreamParser

variable [PyRuntime]

/-- A text takes the reader to `next` with these events, whatever comes after it. -/
def Reads (st : ReplyStreamParser) (text : PyStr) (next : ReplyStreamParser)
    (events : List StreamEvent) : Prop :=
  ∀ rest, st.feed (text ++ rest) = (next.feed rest).map (before events)

theorem Reads.nil (st : ReplyStreamParser) : Reads st [] st [] := by
  intro rest
  cases run : st.feed rest <;> simp [run, before]

theorem Reads.append {st mid next : ReplyStreamParser} {a b : PyStr} {one two : List StreamEvent}
    (first : Reads st a mid one) (second : Reads mid b next two) :
    Reads st (a ++ b) next (one ++ two) := by
  intro rest
  rw [List.append_assoc, first, second, Option.map_map]
  congr 1
  funext r
  simp [before]

theorem Reads.char {st next : ReplyStreamParser} {ch : Nat} {events : List StreamEvent}
    (live : st.malformed = none) (step : st.char ch = .ok (next, events)) :
    Reads st [ch] next events :=
  fun rest => feed_cons_ok live step rest

theorem Reads.cons {st mid next : ReplyStreamParser} {ch : Nat} {text : PyStr}
    {one two : List StreamEvent} (live : st.malformed = none)
    (step : st.char ch = .ok (mid, one)) (rest : Reads mid text next two) :
    Reads st (ch :: text) next (one ++ two) :=
  (Reads.char live step).append rest

theorem Reads.feed {st next : ReplyStreamParser} {text : PyStr} {events : List StreamEvent}
    (reads : Reads st text next events) : st.feed text = some (next, events) := by
  have := reads []
  rw [List.append_nil] at this
  rw [this, ReplyStreamParser.feed, Option.map_some, before, List.append_nil]

/-- No front of the text says anything about the reply. -/
def Silent (st : ReplyStreamParser) (text : PyStr) : Prop :=
  ∀ front back last events, text = front ++ back → st.feed front = some (last, events) →
    NoReply events

/-- Nothing is said about the reply, whatever comes after the text. -/
def Doomed (st : ReplyStreamParser) (text : PyStr) : Prop := ∀ rest, Silent st (text ++ rest)

omit [PyRuntime] in
theorem NoReply.front {one two : List StreamEvent} (quiet : NoReply (one ++ two)) : NoReply one :=
  fun e member => quiet e (List.mem_append_left _ member)

theorem Silent.after {st mid : ReplyStreamParser} {a b : PyStr} {one : List StreamEvent}
    (first : Reads st a mid one) (quiet : NoReply one) (second : Silent mid b) :
    Silent st (a ++ b) := by
  intro front back last events split run
  rcases List.append_eq_append_iff.mp split with ⟨more, rfl, rest⟩ | ⟨more, rfl, rest⟩
  · -- the front goes on after `a`
    rw [first] at run
    obtain ⟨⟨last', two⟩, second', same⟩ := Option.map_eq_some_iff.mp run
    rw [before, Prod.mk.injEq] at same
    obtain ⟨rfl, rfl⟩ := same
    exact quiet.append (second more back last' two rest second')
  · obtain ⟨mid', one', two, front', _, rfl⟩ := exists_feed_front first.feed
    rw [run] at front'
    cases front'
    exact NoReply.front quiet

theorem Doomed.after {st mid : ReplyStreamParser} {a b : PyStr} {one : List StreamEvent}
    (first : Reads st a mid one) (quiet : NoReply one) (second : Doomed mid b) :
    Doomed st (a ++ b) := by
  intro rest
  rw [List.append_assoc]
  exact .after first quiet (second rest)

theorem Doomed.append {st : ReplyStreamParser} {a : PyStr} (doomed : Doomed st a) (b : PyStr) :
    Doomed st (a ++ b) := by
  intro rest
  rw [List.append_assoc]
  exact doomed _

/-- A text that is read, or that ends the run, as `good` says. -/
def Passes (good : Bool) (st : ReplyStreamParser) (text : PyStr) (next : ReplyStreamParser)
    (events : List StreamEvent) : Prop :=
  match good with
  | true => Reads st text next events
  | false => Doomed st text

theorem Reads.passes {st next : ReplyStreamParser} {text : PyStr} {events : List StreamEvent}
    (reads : Reads st text next events) : Passes true st text next events := reads

theorem Passes.append {good good' : Bool} {st mid next : ReplyStreamParser} {a b : PyStr}
    {one two : List StreamEvent} (first : Passes good st a mid one) (quiet : NoReply one)
    (second : Passes good' mid b next two) :
    Passes (good && good') st (a ++ b) next (one ++ two) := by
  cases good with
  | false => exact Doomed.append first b
  | true =>
      cases good' with
      | false => exact Doomed.after first quiet second
      | true => exact Reads.append first second

/-! ### Escapes in a string -/

/-- What a token holds after more characters: the reply's are handed out. -/
def taken (s : StrToken) (chars : PyStr) : StrToken :=
  if s.role = .replyText then s else { s with chars := s.chars ++ chars }

/-- The events of the characters of a string. -/
def textEvents (s : StrToken) (chars : PyStr) : List StreamEvent :=
  if s.role = .replyText then chars.map fun c => .replyText [c] else []

/-- The raw text of a string, when it is kept. -/
def keeping (st : ReplyStreamParser) (s : StrToken) (raw : PyStr) : ReplyStreamParser :=
  if s.role = .capture then { st with capture := st.capture.map (· ++ raw) } else st

/-- In a string, with an escape that is being read or none. -/
def inString (st : ReplyStreamParser) (s : StrToken) (esc : Option PyStr) : ReplyStreamParser :=
  { st with str := some { s with esc := esc } }

omit [PyRuntime] in
@[simp] theorem keeping_malformed (st : ReplyStreamParser) (s : StrToken) (raw : PyStr) :
    (st.keeping s raw).malformed = st.malformed := by
  unfold keeping
  split <;> rfl

omit [PyRuntime] in
@[simp] theorem inString_malformed (st : ReplyStreamParser) (s : StrToken) (esc : Option PyStr) :
    (st.inString s esc).malformed = st.malformed := rfl

omit [PyRuntime] in
theorem keeping_append (st : ReplyStreamParser) (s : StrToken) (one two : PyStr) :
    (st.keeping s one).keeping s two = st.keeping s (one ++ two) := by
  unfold keeping
  split
  · simp [Function.comp_def]
  · rfl

omit [PyRuntime] in
@[simp] theorem taken_role (s : StrToken) (chars : PyStr) : (taken s chars).role = s.role := by
  unfold taken
  split <;> rfl

omit [PyRuntime] in
theorem taken_append (s : StrToken) (one two : PyStr) :
    taken (taken s one) two = taken s (one ++ two) := by
  unfold taken
  split
  · rfl
  · simp

omit [PyRuntime] in
theorem textEvents_append (s : StrToken) (one two : PyStr) :
    textEvents s one ++ textEvents (taken s one) two = textEvents s (one ++ two) := by
  unfold textEvents
  rw [taken_role]
  split
  · rw [List.map_append]
  · rfl

/-- A character of an escape that goes on. -/
theorem char_pending {st : ReplyStreamParser} {s : StrToken} {e : PyStr} {ch : Nat}
    (pending : decodeEscape (e ++ [ch]) = .pending) :
    (st.inString s (some e)).char ch =
      .ok ((st.keeping s [ch]).inString s (some (e ++ [ch])), []) := by
  rw [char, inString]
  simp only [stringChar, pending]
  unfold keeping inString
  split <;> rfl

omit [PyRuntime] in
/-- A character that is handed on. -/
theorem emitStr_inString (st : ReplyStreamParser) (s : StrToken) (c : Nat) :
    st.emitStr { s with esc := none } c =
      .ok (st.inString (taken s [c]) none, textEvents s [c]) := by
  unfold emitStr taken textEvents inString
  split
  · rfl
  · rfl

/-- The last character of an escape. -/
theorem char_done {st : ReplyStreamParser} {s : StrToken} {e : PyStr} {ch c : Nat}
    (done : decodeEscape (e ++ [ch]) = .done c) :
    (st.inString s (some e)).char ch =
      .ok ((st.keeping s [ch]).inString (taken s [c]) none, textEvents s [c]) := by
  rw [← emitStr_inString, char, inString]
  simp only [stringChar, done]
  unfold keeping emitStr
  split
  · split <;> rfl
  · split <;> rfl

/-- The last character of an escape that cannot be read. -/
theorem char_fault {st : ReplyStreamParser} {s : StrToken} {e : PyStr} {ch : Nat} {f : Fault}
    (fault : decodeEscape (e ++ [ch]) = .fault f) :
    (st.inString s (some e)).char ch = .error f := by
  rw [char, inString]
  simp only [stringChar, fault]

/-- A character as itself. -/
theorem char_plain {st : ReplyStreamParser} {s : StrToken} {ch : Nat} (plain : isPlain ch = true) :
    (st.inString s none).char ch =
      .ok ((st.keeping s [ch]).inString (taken s [ch]) none, textEvents s [ch]) := by
  have other : ch ≠ backslash ∧ ch ≠ dquote := by
    simp [isPlain] at plain
    exact ⟨plain.2, plain.1.2⟩
  rw [← emitStr_inString, char, inString]
  simp only [stringChar, if_neg other.1, if_neg other.2]
  unfold keeping emitStr
  split
  · split <;> rfl
  · split <;> rfl

/-- The start of an escape. -/
theorem char_backslash (st : ReplyStreamParser) (s : StrToken) :
    (st.inString s none).char backslash =
      .ok ((st.keeping s [backslash]).inString s (some []), []) := by
  rw [char, inString]
  simp only [stringChar, if_true]
  unfold keeping inString
  split <;> rfl

/-- The quote that ends a string. -/
theorem char_quote (st : ReplyStreamParser) (s : StrToken) :
    (st.inString s none).char dquote =
      ((st.keeping s [dquote]).inString s none).endString { s with esc := none } := by
  rw [char, inString]
  simp only [stringChar, if_neg (show dquote ≠ backslash by decide), if_true]
  unfold keeping inString endString
  split <;> rfl

/-- An escape that goes on. -/
theorem pending_reads {st : ReplyStreamParser} {s : StrToken} {e tail : PyStr}
    (live : st.malformed = none)
    (pending : ∀ front, front <+: tail → front ≠ [] → decodeEscape (e ++ front) = .pending) :
    Reads (st.inString s (some e)) tail ((st.keeping s tail).inString s (some (e ++ tail))) [] := by
  induction tail generalizing st e with
  | nil =>
      have same : st.keeping s [] = st := by
        unfold keeping
        split
        · simp
        · rfl
      rw [same, List.append_nil]
      exact .nil _
  | cons ch tail ih =>
      have first := pending [ch] (by simp) (by simp)
      have rest : Reads ((st.keeping s [ch]).inString s (some (e ++ [ch]))) tail
          (((st.keeping s [ch]).keeping s tail).inString s (some (e ++ [ch] ++ tail))) [] := by
        apply ih (by simpa using live)
        intro front sub some
        rw [List.append_assoc]
        exact pending ([ch] ++ front) (by simpa using sub) (by simp)
      have step := Reads.cons (show (st.inString s (some e)).malformed = none from live)
        (char_pending first) rest
      simpa [keeping_append] using step

/-! ### Bodies -/

omit [PyRuntime] in
@[simp] theorem keeping_nil (st : ReplyStreamParser) (s : StrToken) : st.keeping s [] = st := by
  unfold keeping
  split
  · simp
  · rfl

omit [PyRuntime] in
@[simp] theorem taken_nil (s : StrToken) : taken s [] = s := by
  unfold taken
  split
  · rfl
  · simp

omit [PyRuntime] in
@[simp] theorem textEvents_nil (s : StrToken) : textEvents s [] = [] := by
  unfold textEvents
  split <;> rfl

omit [PyRuntime] in
theorem keeping_taken (st : ReplyStreamParser) (s : StrToken) (chars raw : PyStr) :
    st.keeping (taken s chars) raw = st.keeping s raw := by
  unfold keeping
  rw [taken_role]

/-- An escape, from its backslash on, that is not at its end. -/
theorem escape_opens (tail : PyStr) {st : ReplyStreamParser} (live : st.malformed = none)
    (s : StrToken)
    (pending : ∀ front, front <+: tail → front ≠ [] → decodeEscape front = .pending) :
    Reads (st.inString s none) (backslash :: tail)
      ((st.keeping s (backslash :: tail)).inString s (some tail)) [] := by
  have opened : Reads (st.inString s none) [backslash]
      ((st.keeping s [backslash]).inString s (some [])) [] :=
    Reads.char live (char_backslash st s)
  have goes : Reads ((st.keeping s [backslash]).inString s (some [])) tail
      (((st.keeping s [backslash]).keeping s tail).inString s (some ([] ++ tail))) [] :=
    pending_reads (by simpa using live) pending
  simpa [keeping_append] using opened.append goes

/-- An escape, from its backslash to its last character. -/
theorem escape_reads (tail : PyStr) {st : ReplyStreamParser} (live : st.malformed = none)
    (s : StrToken) {ch c : Nat}
    (pending : ∀ front, front <+: tail → front ≠ [] → decodeEscape front = .pending)
    (done : decodeEscape (tail ++ [ch]) = .done c) :
    Reads (st.inString s none) (backslash :: (tail ++ [ch]))
      ((st.keeping s (backslash :: (tail ++ [ch]))).inString (taken s [c]) none)
      (textEvents s [c]) := by
  have ends : Reads ((st.keeping s (backslash :: tail)).inString s (some tail)) [ch]
      (((st.keeping s (backslash :: tail)).keeping s [ch]).inString (taken s [c]) none)
      (textEvents s [c]) :=
    Reads.char (by simpa using live) (char_done done)
  simpa [keeping_append] using (escape_opens tail live s pending).append ends

/-- Fewer than four characters after the `u` are not enough. -/
theorem unicode_pending {a b c : Nat} :
    ∀ front, front <+: [letterU, a, b, c] → front ≠ [] → decodeEscape front = .pending := by
  intro front sub some
  cases front with
  | nil => exact absurd rfl some
  | cons u x =>
      obtain ⟨rfl, sub⟩ := List.cons_prefix_cons.mp sub
      apply decode_short
      have := sub.length_le
      simp only [List.length_cons, List.length_nil] at this
      omega

/-- After a high surrogate fewer than six characters are not enough. -/
theorem pair_pending {a b c d cp : Nat} (ok : hex4 a b c d = some cp)
    (high : isHighSurrogate cp = true) {x : PyStr} (short : x.length < 6) :
    ∀ front, front <+: letterU :: a :: b :: c :: d :: x → front ≠ [] →
      decodeEscape front = .pending := by
  intro front sub some
  rcases Nat.lt_or_ge front.length 5 with few | many
  · cases front with
    | nil => exact absurd rfl some
    | cons u y =>
        obtain ⟨rfl, _⟩ := List.cons_prefix_cons.mp sub
        apply decode_short
        simp only [List.length_cons] at few
        omega
  · obtain ⟨more, split⟩ := sub
    match front, many with
    | u :: a' :: b' :: c' :: d' :: y, _ =>
        simp only [List.cons_append, List.cons.injEq] at split
        obtain ⟨rfl, rfl, rfl, rfl, rfl, rfl⟩ := split
        rw [decode_high ok high, if_pos]
        rw [List.length_append] at short
        omega

/-- What reads a text as characters of a string. -/
def ReadsAs (text chars : PyStr) : Prop :=
  ∀ st : ReplyStreamParser, st.malformed = none → ∀ s : StrToken,
    Reads (st.inString s none) text ((st.keeping s text).inString (taken s chars) none)
      (textEvents s chars)

theorem ReadsAs.nil : ReadsAs [] [] := by
  intro st live s
  simpa using Reads.nil (st.inString s none)

theorem ReadsAs.append {a b one two : PyStr} (first : ReadsAs a one) (second : ReadsAs b two) :
    ReadsAs (a ++ b) (one ++ two) := by
  intro st live s
  have both := (first st live s).append
    (second (st.keeping s a) (by simpa using live) (taken s one))
  rw [textEvents_append, taken_append, keeping_taken, keeping_append] at both
  exact both

theorem ReadsAs.plain {c : Nat} (ok : isPlain c = true) : ReadsAs [c] [c] :=
  fun _ live _ => Reads.char live (char_plain ok)

theorem ReadsAs.simple {e c : Nat} (ok : simpleEscape e = some c) : ReadsAs [backslash, e] [c] :=
  fun _ live s => escape_reads [] live s
    (fun _ sub some => absurd (List.prefix_nil.mp sub) some) (decode_simple ok)

theorem ReadsAs.unicode {a b c d cp : Nat} (ok : hex4 a b c d = some cp)
    (low : isHighSurrogate cp = false) : ReadsAs [backslash, letterU, a, b, c, d] [cp] :=
  fun _ live s => escape_reads [letterU, a, b, c] live s unicode_pending
    (decode_unicode ok low)

/-- What the reader makes of a high surrogate and an escape of the same kind after it. -/
theorem decode_pair {a b c d high a' b' c' d' low : Nat} (ok : hex4 a b c d = some high)
    (isHigh : isHighSurrogate high = true) (ok' : hex4 a' b' c' d' = some low) :
    decodeEscape [letterU, a, b, c, d, backslash, letterU, a', b', c', d'] =
      match joined high low with
      | some x => .done x
      | none => .fault .raised := by
  rw [decode_high ok isHigh, if_neg (by simp), if_neg (by simp; decide)]
  simp only [List.drop_succ_cons, List.drop_zero, List.take_succ_cons, List.take_zero,
    (intBase16_of_hex4 ok').1]
  rfl

theorem ReadsAs.pair {a b c d high a' b' c' d' low x : Nat} (ok : hex4 a b c d = some high)
    (isHigh : isHighSurrogate high = true) (ok' : hex4 a' b' c' d' = some low)
    (one : joined high low = some x) :
    ReadsAs [backslash, letterU, a, b, c, d, backslash, letterU, a', b', c', d'] [x] :=
  fun _ live s => escape_reads [letterU, a, b, c, d, backslash, letterU, a', b', c'] live s
    (pair_pending ok isHigh (by simp)) (by
      show decodeEscape [letterU, a, b, c, d, backslash, letterU, a', b', c', d'] = .done x
      rw [decode_pair ok isHigh ok', one])

/-- A body the reader gets to the end of. -/
theorem body_reads (items : List StrItem) {decoded : PyStr} (whole : streamItems items = some decoded) :
    ReadsAs (itemsText items) decoded := by
  induction items using streamItems.induct generalizing decoded with
  | case1 =>
      cases whole
      exact .nil
  | case2 c ok items ih =>
      obtain ⟨rest, inner, rfl⟩ := Option.map_eq_some_iff.mp whole
      exact (ReadsAs.plain ok).append (ih inner)
  | case3 e c ok items ih =>
      obtain ⟨rest, inner, rfl⟩ := Option.map_eq_some_iff.mp whole
      exact (ReadsAs.simple ok).append (ih inner)
  | case4 a b c d cp ok high a' b' c' d' low ok' items ih =>
      simp only [streamItems, if_pos high] at whole
      obtain ⟨x, one, rest⟩ := Option.bind_eq_some_iff.mp whole
      obtain ⟨rest', inner, rfl⟩ := Option.map_eq_some_iff.mp rest
      exact (ReadsAs.pair ok high ok' one).append (ih inner)
  | case5 a b c d cp ok items high other =>
      rw [streamItems, if_pos high] at whole
      · cases whole
      · exact other
  | case6 a b c d cp ok items low ih =>
      unfold streamItems at whole
      rw [if_neg low] at whole
      obtain ⟨rest, inner, rfl⟩ := Option.map_eq_some_iff.mp whole
      exact (ReadsAs.unicode ok (by simpa using low)).append (ih inner)

/-! ### Bodies that end the run -/

/-- A run that ends at the next character says nothing about the reply. -/
theorem Silent.of_fault {st : ReplyStreamParser} {ch : Nat} {f : Fault} (live : st.malformed = none)
    (fault : st.char ch = .error f) (text : PyStr) : Silent st (ch :: text) := by
  intro front back last events split run
  cases front with
  | nil =>
      cases run
      exact .nil
  | cons ch' front =>
      obtain ⟨rfl, rfl⟩ := List.cons.inj split
      cases f with
      | malformed reason =>
          rw [feed_cons_malformed live fault] at run
          cases run
          intro e member
          rw [List.mem_singleton.mp member]
          rfl
      | raised =>
          rw [feed_cons_raised live fault] at run
          cases run

theorem Silent.nil (st : ReplyStreamParser) : Silent st [] := by
  intro front back last events split run
  obtain ⟨rfl, rfl⟩ := List.append_eq_nil_iff.mp split.symm
  cases run
  exact .nil

/-- After a high surrogate, what is no escape of the same kind ends the run. -/
theorem lone_silent {a b c d cp : Nat} (ok : hex4 a b c d = some cp)
    (high : isHighSurrogate cp = true) {s : StrToken} {text : PyStr} :
    ∀ {st : ReplyStreamParser} {more : PyStr}, st.malformed = none → more.length < 6 →
      (more ++ text).take 2 ≠ [backslash, letterU] →
      Silent (st.inString s (some (letterU :: a :: b :: c :: d :: more))) text := by
  induction text with
  | nil =>
      intro st more _ _ _
      exact .nil _
  | cons ch text ih =>
      intro st more live short differs
      have decoded := decode_high ok high (more ++ [ch])
      by_cases last : (more ++ [ch]).length < 6
      · rw [if_pos last] at decoded
        have step : Reads (st.inString s (some (letterU :: a :: b :: c :: d :: more))) [ch]
            ((st.keeping s [ch]).inString s (some (letterU :: a :: b :: c :: d :: (more ++ [ch])))) [] :=
          Reads.char live (char_pending decoded)
        exact Silent.after step .nil (ih (by simpa using live) last (by simpa using differs))
      · rw [if_neg last, if_pos] at decoded
        · have fault : (st.inString s (some (letterU :: a :: b :: c :: d :: more))).char ch =
              .error (.malformed (py "lone high surrogate")) := char_fault decoded
          exact .of_fault (by simpa using live) fault text
        · intro same
          apply differs
          rw [List.length_append, List.length_singleton] at last
          rw [List.take_append_of_le_length (by omega)] at same ⊢
          exact same

/-- The text of a body is read as far as the item that ends the run. -/
theorem Silent.body {a b chars : PyStr} {st : ReplyStreamParser} {s : StrToken}
    (first : ReadsAs a chars) (live : st.malformed = none) (other : s.role ≠ .replyText)
    (second : ∀ (st' : ReplyStreamParser) (s' : StrToken), st'.malformed = none →
      s'.role = s.role → Silent (st'.inString s' none) b) :
    Silent (st.inString s none) (a ++ b) := by
  have quiet : textEvents s chars = [] := if_neg other
  have reads := first st live s
  rw [quiet] at reads
  exact Silent.after reads .nil (second _ _ (by simpa using live) (taken_role s chars))

omit [PyRuntime] in
/-- What follows an escape, when it is no second one of the same kind. -/
theorem unpaired_next {items : List StrItem}
    (unpaired : ∀ (a b c d low : Nat) (ok : hex4 a b c d = some low) (rest : List StrItem),
      items = .unicode a b c d low ok :: rest → False) (rest : PyStr) :
    ([] ++ (itemsText items ++ dquote :: rest)).take 2 ≠ [backslash, letterU] := by
  rw [List.nil_append]
  intro same
  cases items with
  | nil => cases (List.cons.inj same).1
  | cons item items =>
      cases item with
      | plain c ok =>
          simp only [isPlain, Bool.and_eq_true, bne_iff_ne] at ok
          exact ok.2 (List.cons.inj same).1
      | escape e c ok =>
          obtain rfl : e = letterU := (List.cons.inj (List.cons.inj same).2).1
          simp [simpleEscape] at ok
      | unicode a b c d low ok => exact unpaired a b c d low ok items rfl

/-- A body the reader does not get to the end of ends the run. -/
theorem body_silent (items : List StrItem) (broken : streamItems items = none) (rest : PyStr) :
    ∀ (st : ReplyStreamParser) (s : StrToken), st.malformed = none → s.role ≠ .replyText →
      Silent (st.inString s none) (itemsText items ++ dquote :: rest) := by
  induction items using streamItems.induct with
  | case1 => cases broken
  | case2 c ok items ih =>
      intro st s live other
      have split : itemsText (.plain c ok :: items) ++ dquote :: rest =
          [c] ++ (itemsText items ++ dquote :: rest) := by simp [itemsText, StrItem.text]
      rw [split]
      exact Silent.body (ReadsAs.plain ok) live other fun st' s' live' role =>
        ih (Option.map_eq_none_iff.mp broken) st' s' live' (role ▸ other)
  | case3 e c ok items ih =>
      intro st s live other
      have split : itemsText (.escape e c ok :: items) ++ dquote :: rest =
          [backslash, e] ++ (itemsText items ++ dquote :: rest) := by simp [itemsText, StrItem.text]
      rw [split]
      exact Silent.body (ReadsAs.simple ok) live other fun st' s' live' role =>
        ih (Option.map_eq_none_iff.mp broken) st' s' live' (role ▸ other)
  | case4 a b c d cp ok high a' b' c' d' low ok' items ih =>
      intro st s live other
      simp only [streamItems, if_pos high] at broken
      cases one : joined cp low with
      | some x =>
          have split : itemsText (.unicode a b c d cp ok :: .unicode a' b' c' d' low ok' :: items) ++
              dquote :: rest = [backslash, letterU, a, b, c, d, backslash, letterU, a', b', c', d'] ++
                (itemsText items ++ dquote :: rest) := by simp [itemsText, StrItem.text]
          rw [split]
          rw [one, Option.bind_some, Option.map_eq_none_iff] at broken
          exact Silent.body (ReadsAs.pair ok high ok' one) live other fun st' s' live' role =>
            ih broken st' s' live' (role ▸ other)
      | none =>
          have split : itemsText (.unicode a b c d cp ok :: .unicode a' b' c' d' low ok' :: items) ++
              dquote :: rest = (backslash :: [letterU, a, b, c, d, backslash, letterU, a', b', c']) ++
                d' :: (itemsText items ++ dquote :: rest) := by simp [itemsText, StrItem.text]
          rw [split]
          have decoded : decodeEscape ([letterU, a, b, c, d, backslash, letterU, a', b', c'] ++ [d']) =
              .fault .raised := by
            show decodeEscape [letterU, a, b, c, d, backslash, letterU, a', b', c', d'] = _
            rw [decode_pair ok high ok', one]
          have opens := escape_opens [letterU, a, b, c, d, backslash, letterU, a', b', c'] live s
            (pair_pending ok high (by simp))
          exact Silent.after opens .nil (.of_fault (by simpa using live) (char_fault decoded) _)
  | case5 a b c d cp ok items high unpaired =>
      intro st s live _
      have split : itemsText (.unicode a b c d cp ok :: items) ++ dquote :: rest =
          (backslash :: [letterU, a, b, c, d]) ++ (itemsText items ++ dquote :: rest) := by
        simp [itemsText, StrItem.text]
      rw [split]
      have opens := escape_opens [letterU, a, b, c, d] live s (pair_pending ok high (by simp))
      refine Silent.after opens .nil (lone_silent ok high (by simpa using live) (by simp) ?_)
      exact unpaired_next unpaired rest
  | case6 a b c d cp ok items low ih =>
      intro st s live other
      have split : itemsText (.unicode a b c d cp ok :: items) ++ dquote :: rest =
          [backslash, letterU, a, b, c, d] ++ (itemsText items ++ dquote :: rest) := by
        simp [itemsText, StrItem.text]
      rw [split]
      unfold streamItems at broken
      rw [if_neg low, Option.map_eq_none_iff] at broken
      exact Silent.body (ReadsAs.unicode ok (by simpa using low)) live other fun st' s' live' role =>
        ih broken st' s' live' (role ▸ other)

end ReplyStreamParser

end GhostPour.N400
