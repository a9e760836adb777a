/-
Module: GhostPour.N400.Proofs.StreamReply
Layer: Proofs
Purpose: How the reply reader reads the reply: a string is handed out, a literal is passed over, and
  of an object the first string whose key is the locale is handed out.
Trusted boundary: none
Main exports: spokenText, localeText, replyText, Speaks, InReply, replyMembers_read, reply_reads
-/
import GhostPour.N400.Proofs.StreamValues

namespace GhostPour.N400

/-! ### What is spoken -/

/-- The reply text of events, joined. -/
def spokenText : List StreamEvent → PyStr
  | [] => []
  | .replyText chunk :: events => chunk ++ spokenText events
  | _ :: events => spokenText events

/-- What events hand out, with no report of a malformed text. -/
structure Speaks (events : List StreamEvent) (text : PyStr) : Prop where
  text : spokenText events = text
  sound : ∀ reason, .malformed reason ∉ events

theorem spokenText_append (front back : List StreamEvent) :
    spokenText (front ++ back) = spokenText front ++ spokenText back := by
  induction front with
  | nil => rfl
  | cons e front ih => cases e <;> simp [spokenText, ih]

theorem Speaks.append {front back : List StreamEvent} {one two : PyStr} (first : Speaks front one)
    (second : Speaks back two) : Speaks (front ++ back) (one ++ two) := by
  constructor
  · rw [spokenText_append, first.text, second.text]
  · intro reason member
    rcases List.mem_append.mp member with here | there
    · exact first.sound reason here
    · exact second.sound reason there

theorem Speaks.nil : Speaks [] [] := ⟨rfl, fun _ none => by cases none⟩

theorem Speaks.start : Speaks [.replyStart] [] := ⟨rfl, fun _ => by simp⟩

theorem Speaks.finish : Speaks [.replyEnd] [] := ⟨rfl, fun _ => by simp⟩

theorem Speaks.chars (text : PyStr) : Speaks (text.map fun c => .replyText [c]) text := by
  constructor
  · induction text with
    | nil => rfl
    | cons c text ih =>
        rw [List.map_cons, spokenText, ih]
        rfl
  · intro reason member
    obtain ⟨c, _, none⟩ := List.mem_map.mp member
    cases none

theorem OnlyKeys.speaks {events : List StreamEvent} (only : OnlyKeys events) : Speaks events [] := by
  constructor
  · induction events with
    | nil => rfl
    | cons e events ih =>
        have rest := ih fun e member => only e (List.mem_cons_of_mem _ member)
        have key := only e List.mem_cons_self
        cases e <;> first | exact rest | cases key
  · intro reason member
    cases only _ member

/-! ### The text of a reply -/

section
variable [PyRuntime]

/-- The first string of a reply object whose key is the locale in lower case. -/
def localeText (locale : PyStr) : Dict → PyStr
  | [] => []
  | (key, .str s) :: members => if lower key = locale then s else localeText locale members
  | _ :: members => localeText locale members

/-- What is handed out of a reply. -/
def replyText (locale : PyStr) : Json → PyStr
  | .str s => s
  | .obj members => localeText locale members
  | _ => []

/-- No array and no object. -/
def scalar : Json → Bool
  | .arr _ => false
  | .obj _ => false
  | _ => true

/-- The forms of a reply the reader knows. -/
def plainReply : Json → Bool
  | .arr _ => false
  | .obj members => members.all fun m => scalar m.2
  | _ => true

/-- A literal is no string, no array and no object. -/
theorem atom_value (a : Atom) : a.value = .null ∨ (∃ b, a.value = .bool b) ∨
    (∃ n, a.value = .int n) ∨ ∃ t, a.value = .float t := by
  have ok := a.ok
  unfold classify at ok
  split at ok
  · exact .inl (Option.some.inj ok).symm
  · split at ok
    · exact .inr (.inl ⟨true, (Option.some.inj ok).symm⟩)
    · split at ok
      · exact .inr (.inl ⟨false, (Option.some.inj ok).symm⟩)
      · split at ok
        · exact .inr (.inr (.inr ⟨_, (Option.some.inj ok).symm⟩))
        · split at ok
          · exact .inr (.inr (.inr ⟨_, (Option.some.inj ok).symm⟩))
          · exact .inr (.inr (.inl ⟨_, (Option.some.inj ok).symm⟩))
          · cases ok

theorem localeText_atom (locale key : PyStr) (a : Atom) (members : Dict) :
    localeText locale ((key, a.value) :: members) = localeText locale members := by
  rcases atom_value a with value | ⟨b, value⟩ | ⟨n, value⟩ | ⟨t, value⟩ <;> rw [value] <;> rfl

theorem replyText_atom (locale : PyStr) (a : Atom) : replyText locale a.value = [] := by
  rcases atom_value a with value | ⟨b, value⟩ | ⟨n, value⟩ | ⟨t, value⟩ <;> rw [value] <;> rfl

namespace ReplyStreamParser

/-! ### Inside the reply object -/

/-- In the reply object, between the parts of its members. -/
structure InReply (st : ReplyStreamParser) : Prop where
  live : st.malformed = none
  closed : st.str = none
  inside : st.inObject = true
  replying : st.inReply = true
  object : st.replyKind = .object
  flat : st.stack = []
  uncaptured : st.capture = none
  reply : st.curKey = py "reply"

omit [PyRuntime] in
theorem InReply.expecting {st : ReplyStreamParser} (inReply : InReply st) (e : Expect) :
    InReply { st with expect := e } :=
  ⟨inReply.live, inReply.closed, inReply.inside, inReply.replying, inReply.object, inReply.flat,
    inReply.uncaptured, inReply.reply⟩

theorem InReply.char {st : ReplyStreamParser} (inReply : InReply st) (ch : Nat) :
    st.char ch = st.replyChar ch := by
  rw [ReplyStreamParser.char, inReply.closed]
  simp only [inReply.inside, Bool.true_eq_false, if_false, inReply.replying, if_true]

/-- White space in the reply object. -/
theorem InReply.ws_reads {st : ReplyStreamParser} (inReply : InReply st) (w : Ws) :
    Reads st w.text st [] := by
  obtain ⟨text, ok⟩ := w
  induction text with
  | nil => exact Reads.nil st
  | cons c text ih =>
      have step : st.char c = .ok (st, []) := by
        rw [inReply.char, replyChar, if_neg (by rw [inReply.object]; decide),
          if_pos (isSpace_of_jsonSpace (ok c List.mem_cons_self))]
      exact Reads.cons inReply.live step (ih fun d member => ok d (List.mem_cons_of_mem c member))

/-- A key of the reply object has been read. -/
def rkeyed (st : ReplyStreamParser) (key : PyStr) : ReplyStreamParser :=
  { st with replyLocaleKey := key, expect := .rvalue }

omit [PyRuntime] in
theorem InReply.rkeyed {st : ReplyStreamParser} (inReply : InReply st) (key : PyStr) :
    InReply (st.rkeyed key) :=
  ⟨inReply.live, inReply.closed, inReply.inside, inReply.replying, inReply.object, inReply.flat,
    inReply.uncaptured, inReply.reply⟩

/-- A character of the reply object that is no white space. -/
theorem InReply.char_solid {st : ReplyStreamParser} (inReply : InReply st) {ch : Nat}
    (solid : isSpace ch = false) :
    st.char ch = match st.expect with
      | .rkey =>
          if ch = dquote then .ok (st.openString .rkey, [])
          else if ch = rbrace then { st with inReply := false }.finishTopValue
          else .error (gotChar "expected reply locale key, got " ch)
      | .rcolon =>
          if ch = colon then .ok ({ st with expect := .rvalue }, [])
          else .error (.malformed (py "expected ':' in reply object"))
      | .rvalue =>
          if ch = dquote then
            .ok (st.openString
              (if lower st.replyLocaleKey = st.locale ∧ st.replyLocaleDone = false then .replyText
                else .skipReply), [])
          else if ch = lbrace ∨ ch = lbracket then .ok ({ st with stack := st.stack ++ [ch] }, [])
          else .ok ({ st with expect := .rlit }, [])
      | .rlit => if ch = comma ∨ ch = rbrace then st.afterReplyMember ch else .ok (st, [])
      | .rcommaOrEnd => st.afterReplyMember ch
      | _ => .ok (st, []) := by
  rw [inReply.char, replyChar, if_neg (by rw [inReply.object]; decide),
    if_neg (by simp [solid])] <;> rfl

/-- A key of the reply object, up to its value. -/
theorem rkey_reads {st : ReplyStreamParser} (inReply : InReply st) (expects : st.expect = .rkey)
    (w₁ : Ws) {key : List StrItem} (w₂ w₃ : Ws) {decoded : PyStr}
    (whole : streamItems key = some decoded) :
    Reads st (w₁.text ++ (quotedText key ++ (w₂.text ++ (colon :: w₃.text)))) (st.rkeyed decoded)
      [] := by
  let s : StrToken := ⟨.rkey, [], none⟩
  let mid : ReplyStreamParser := { st with replyLocaleKey := decoded, expect := .rcolon }
  have atColon : InReply mid :=
    ⟨inReply.live, inReply.closed, inReply.inside, inReply.replying, inReply.object, inReply.flat,
      inReply.uncaptured, inReply.reply⟩
  have opens : Reads st (w₁.text ++ [dquote]) (st.inString s none) [] := by
    have step : st.char dquote = .ok (st.inString s none, []) := by
      rw [inReply.char_solid (by decide), expects]
      rfl
    exact (inReply.ws_reads w₁).append (Reads.char inReply.live step)
  have body := body_reads key whole st inReply.live s
  have kept : ∀ s' : StrToken, s'.role = .rkey → ∀ raw, st.keeping s' raw = st := by
    intro s' role raw
    rw [keeping, if_neg (by rw [role]; decide)]
  rw [textEvents, if_neg (by decide), kept s rfl] at body
  have ends : Reads (st.inString (taken s decoded) none) [dquote] mid [] := by
    refine Reads.char inReply.live ?_
    have taken' : taken s decoded = ⟨.rkey, decoded, none⟩ := rfl
    rw [taken', char_quote, kept _ rfl, endString]
    show Except.ok ({ mid with str := none }, []) = _
    rw [show { mid with str := none } = mid from inString_closed atColon.closed s none]
  have sep : Reads mid (w₂.text ++ [colon]) (st.rkeyed decoded) [] := by
    have step : mid.char colon = .ok (st.rkeyed decoded, []) := by
      rw [atColon.char_solid (by decide)]
      rfl
    exact (atColon.ws_reads w₂).append (Reads.char atColon.live step)
  have all := opens.append (body.append (ends.append (sep.append
    ((inReply.rkeyed decoded).ws_reads w₃))))
  have split : w₁.text ++ (quotedText key ++ (w₂.text ++ (colon :: w₃.text))) =
      (w₁.text ++ [dquote]) ++ (itemsText key ++ ([dquote] ++ ((w₂.text ++ [colon]) ++ w₃.text))) :=
    by simp [quotedText]
  rw [split]
  exact all

/-! ### A value of the reply object -/

/-- Whether a string that is the value of the key is handed out. -/
def spoken (st : ReplyStreamParser) : Prop :=
  lower st.replyLocaleKey = st.locale ∧ st.replyLocaleDone = false

instance (st : ReplyStreamParser) : Decidable st.spoken := by
  unfold spoken
  infer_instance

/-- A value of the reply object has been read. -/
def rvalued (st : ReplyStreamParser) (done : Bool) (e : Expect) : ReplyStreamParser :=
  { st with replyLocaleDone := st.replyLocaleDone || done, expect := e }

omit [PyRuntime] in
theorem InReply.rvalued {st : ReplyStreamParser} (inReply : InReply st) (done : Bool) (e : Expect) :
    InReply (st.rvalued done e) :=
  ⟨inReply.live, inReply.closed, inReply.inside, inReply.replying, inReply.object, inReply.flat,
    inReply.uncaptured, inReply.reply⟩

/-- A string that is handed out. -/
theorem spoken_reads {st : ReplyStreamParser} (inReply : InReply st) (expects : st.expect = .rvalue)
    (speaks : st.spoken) {items : List StrItem} {decoded : PyStr}
    (whole : streamItems items = some decoded) :
    Reads st (quotedText items) (st.rvalued true .rcommaOrEnd)
      (decoded.map (fun c => .replyText [c]) ++ [.replyEnd]) := by
  let s : StrToken := ⟨.replyText, [], none⟩
  have opens : Reads st [dquote] (st.inString s none) [] := by
    refine Reads.char inReply.live ?_
    rw [inReply.char_solid (by decide), expects]
    simp only [if_true, if_pos (show lower st.replyLocaleKey = st.locale ∧ st.replyLocaleDone = false
      from speaks)]
    rfl
  have body := body_reads items whole st inReply.live s
  have kept : ∀ raw, st.keeping s raw = st := fun raw => if_neg (by decide)
  rw [textEvents, if_pos rfl, kept, show taken s decoded = s from if_pos rfl] at body
  have ends : Reads (st.inString s none) [dquote] (st.rvalued true .rcommaOrEnd) [.replyEnd] := by
    refine Reads.char inReply.live ?_
    rw [char_quote, kept, endString]
    simp only [s]
    rw [if_neg (show (st.inString s none).replyKind ≠ .string from by
      rw [show (st.inString s none).replyKind = .object from inReply.object]; decide)]
    simp only [rvalued, Bool.or_true, inString]
    rw [← inReply.closed]
  exact opens.append (body.append ends)

/-- A string that is not handed out. -/
theorem unspoken_reads {st : ReplyStreamParser} (inReply : InReply st)
    (expects : st.expect = .rvalue) (silent : ¬ st.spoken) {items : List StrItem} {decoded : PyStr}
    (whole : streamItems items = some decoded) :
    Reads st (quotedText items) (st.rvalued false .rcommaOrEnd) [] := by
  let s : StrToken := ⟨.skipReply, [], none⟩
  have opens : Reads st [dquote] (st.inString s none) [] := by
    refine Reads.char inReply.live ?_
    rw [inReply.char_solid (by decide), expects]
    simp only [if_true, if_neg (show ¬ (lower st.replyLocaleKey = st.locale ∧
      st.replyLocaleDone = false) from silent)]
    rfl
  have body := body_reads items whole st inReply.live s
  have kept : ∀ s' : StrToken, s'.role = .skipReply → ∀ raw, st.keeping s' raw = st := by
    intro s' role raw
    rw [keeping, if_neg (by rw [role]; decide)]
  rw [textEvents, if_neg (by decide), kept s rfl] at body
  have ends : Reads (st.inString (taken s decoded) none) [dquote] (st.rvalued false .rcommaOrEnd)
      [] := by
    refine Reads.char inReply.live ?_
    have taken' : taken s decoded = ⟨.skipReply, decoded, none⟩ := rfl
    rw [taken', char_quote, kept _ rfl, endString]
    simp only [rvalued, Bool.or_false, inString]
    rw [← inReply.closed]
  exact opens.append (body.append ends)

/-- A literal of the reply object. -/
theorem rlit_reads {st : ReplyStreamParser} (inReply : InReply st) (expects : st.expect = .rvalue)
    (a : Atom) : Reads st a.text (st.rvalued false .rlit) [] := by
  have goes : ∀ text : PyStr, (∀ c ∈ text, isAtomChar c = true) →
      Reads (st.rvalued false .rlit) text (st.rvalued false .rlit) [] := by
    intro text chars
    induction text with
    | nil => exact Reads.nil _
    | cons c text ih =>
        have atom := chars c List.mem_cons_self
        have inLit := inReply.rvalued false .rlit
        have step : (st.rvalued false .rlit).char c = .ok (st.rvalued false .rlit, []) := by
          rw [inLit.char_solid (isSpace_of_atom atom)]
          refine if_neg ?_
          rintro (rfl | rfl)
          · cases atom
          · cases atom
        exact Reads.cons inLit.live step (ih fun d member => chars d (List.mem_cons_of_mem c member))
  cases shape : a.text with
  | nil => exact absurd shape a.text_ne_nil
  | cons c text =>
      have chars := a.chars
      rw [shape] at chars
      have atom := chars c List.mem_cons_self
      have step : st.char c = .ok (st.rvalued false .rlit, []) := by
        rw [inReply.char_solid (isSpace_of_atom atom), expects]
        simp only
        rw [if_neg, if_neg, rvalued, Bool.or_false]
        · rintro (rfl | rfl) <;> cases atom
        · rintro rfl
          cases atom
      exact Reads.cons inReply.live step (goes text fun d member =>
        chars d (List.mem_cons_of_mem c member))

/-! ### The end of the reply -/

/-- The reply has been read: the reader is after a value of the object. -/
structure Replied (st next : ReplyStreamParser) : Prop where
  top : AtTop next
  expects : next.expect = .commaOrEnd
  values : next.values = st.values
  locale : next.locale = st.locale

/-- The reply is over. -/
def closeReply (st : ReplyStreamParser) : ReplyStreamParser :=
  { st with inReply := false, capture := none, curKey := [], expect := .commaOrEnd }

theorem finish_reply {st : ReplyStreamParser} (uncaptured : st.capture = none)
    (reply : st.curKey = py "reply") :
    { st with inReply := false }.finishTopValue = .ok (st.closeReply, []) := by
  unfold finishTopValue
  simp only [uncaptured, reply, ne_eq, not_true_eq_false, and_false, if_false]
  rfl

omit [PyRuntime] in
theorem InReply.replied {st : ReplyStreamParser} (inReply : InReply st) :
    Replied st st.closeReply :=
  ⟨⟨⟨inReply.live, inReply.closed, inReply.inside, rfl, inReply.flat⟩, rfl⟩, rfl, rfl, rfl⟩

/-- After a value of the reply object. -/
structure AfterValue (st : ReplyStreamParser) : Prop extends InReply st where
  expects : st.expect = .rcommaOrEnd ∨ st.expect = .rlit

theorem AfterValue.sep_char {st : ReplyStreamParser} (after : AfterValue st) {sep : Nat}
    (ends : sep = comma ∨ sep = rbrace) : st.char sep = st.afterReplyMember sep := by
  rw [after.char_solid (by rcases ends with rfl | rfl <;> decide)]
  rcases after.expects with expects | expects
  · rw [expects]
  · rw [expects]
    exact if_pos ends

/-- What follows a value of the reply object that is not the last. -/
theorem AfterValue.comma_reads {st : ReplyStreamParser} (after : AfterValue st) (w : Ws) :
    Reads st (w.text ++ [comma]) { st with expect := .rkey } [] := by
  have step : st.char comma = .ok ({ st with expect := .rkey }, []) := by
    rw [after.sep_char (.inl rfl)]
    rfl
  exact (after.ws_reads w).append (Reads.char after.live step)

/-- What follows the last value of the reply object. -/
theorem AfterValue.brace_reads {st : ReplyStreamParser} (after : AfterValue st) (w : Ws) :
    Reads st (w.text ++ [rbrace]) st.closeReply [] := by
  have step : st.char rbrace = .ok (st.closeReply, []) := by
    rw [after.sep_char (.inr rfl), ← finish_reply after.uncaptured after.reply]
    rfl
  exact (after.ws_reads w).append (Reads.char after.live step)

/-- What is still to be handed out of the members of the reply object. -/
def handsOut (st : ReplyStreamParser) (members : Dict) : PyStr :=
  if st.replyLocaleDone then [] else localeText st.locale members

/-- A value of the reply object that is no array and no object. -/
theorem rvalue_reads {st : ReplyStreamParser} (inReply : InReply st) (expects : st.expect = .rvalue)
    {v : JsonText} (pairs : v.allStrings paired = true) (plain : scalar v.value = true) :
    ∃ next events text, Reads st v.text next events ∧ AfterValue next ∧ next.values = st.values ∧
      next.locale = st.locale ∧ Speaks events text ∧ ∀ members,
        handsOut st ((st.replyLocaleKey, v.value) :: members) = text ++ handsOut next members := by
  cases v with
  | atom a =>
      refine ⟨_, [], [], rlit_reads inReply expects a, ⟨inReply.rvalued false .rlit, .inr rfl⟩, rfl,
        rfl, .nil, fun members => ?_⟩
      simp only [handsOut, rvalued, Bool.or_false, List.nil_append]
      rw [JsonText.value, localeText_atom]
  | str items =>
      have whole := streamItems_of_paired items pairs
      by_cases speaks : st.spoken
      · refine ⟨_, _, decodeItems items ++ [], spoken_reads inReply expects speaks whole,
          ⟨inReply.rvalued true .rcommaOrEnd, .inl rfl⟩, rfl, rfl, (Speaks.chars _).append .finish,
          fun members => ?_⟩
        simp only [handsOut, rvalued, Bool.or_true, if_true, List.append_nil]
        rw [speaks.2, JsonText.value, localeText, if_pos speaks.1]
        rfl
      · refine ⟨_, [], [], unspoken_reads inReply expects speaks whole,
          ⟨inReply.rvalued false .rcommaOrEnd, .inl rfl⟩, rfl, rfl, .nil, fun members => ?_⟩
        simp only [handsOut, rvalued, Bool.or_false, List.nil_append]
        cases done : st.replyLocaleDone with
        | true => rfl
        | false =>
            have other : lower st.replyLocaleKey ≠ st.locale := fun same => speaks ⟨same, done⟩
            rw [JsonText.value, localeText, if_neg other]
  | arrEmpty w =>
      rw [JsonText.value] at plain
      cases plain
  | arr elems =>
      rw [JsonText.value] at plain
      cases plain
  | objEmpty w =>
      rw [JsonText.value] at plain
      cases plain
  | obj members =>
      rw [JsonText.value] at plain
      cases plain

omit [PyRuntime] in
theorem Replied.of_eq {one two next : ReplyStreamParser} (replied : Replied one next)
    (values : one.values = two.values) (locale : one.locale = two.locale) : Replied two next :=
  ⟨replied.top, replied.expects, replied.values.trans values, replied.locale.trans locale⟩

/-- The members of the reply object: the first string under the locale is handed out. -/
theorem replyMembers_read : ∀ (ms : MembersText) {st : ReplyStreamParser}, InReply st →
    st.expect = .rkey → ms.allStrings paired = true → (∀ m ∈ ms.values, scalar m.2 = true) →
    ∃ next events, Reads st ms.text next events ∧ Replied st next ∧
      Speaks events (handsOut st ms.values)
  | .last w₁ key w₂ w₃ v w₄, st, inReply, expects, pairs, plain => by
      rw [MembersText.allStrings, Bool.and_eq_true] at pairs
      have reads := rkey_reads inReply expects w₁ w₂ w₃ (streamItems_of_paired key pairs.1)
      obtain ⟨next, events, text, value, after, values, locale, speaks, rest⟩ :=
        rvalue_reads (inReply.rkeyed (decodeItems key)) rfl pairs.2
          (plain (decodeItems key, v.value) (by simp [MembersText.values]))
      have all := reads.append (value.append (after.brace_reads w₄))
      refine ⟨next.closeReply, events, ?_, after.toInReply.replied.of_eq values locale, ?_⟩
      · have split : (MembersText.last w₁ key w₂ w₃ v w₄).text =
            (w₁.text ++ (quotedText key ++ (w₂.text ++ (colon :: w₃.text)))) ++ (v.text ++
              (w₄.text ++ [rbrace])) := by
          simp [MembersText.text]
        rw [split]
        simpa using all
      · have done : handsOut next [] = [] := by
          unfold handsOut
          split <;> rfl
        have spoken := rest []
        rw [done, List.append_nil] at spoken
        rw [MembersText.values]
        exact spoken ▸ speaks
  | .cons w₁ key w₂ w₃ v w₄ ms, st, inReply, expects, pairs, plain => by
      rw [MembersText.allStrings, Bool.and_eq_true, Bool.and_eq_true] at pairs
      have reads := rkey_reads inReply expects w₁ w₂ w₃ (streamItems_of_paired key pairs.1)
      obtain ⟨next, events, text, value, after, values, locale, speaks, rest⟩ :=
        rvalue_reads (inReply.rkeyed (decodeItems key)) rfl pairs.2.1
          (plain (decodeItems key, v.value) (by simp [MembersText.values]))
      obtain ⟨last, later, others, replied, speaks'⟩ := replyMembers_read ms
        (after.toInReply.expecting .rkey) rfl pairs.2.2
        (fun m member => plain m (by simp [MembersText.values, member]))
      have all := reads.append (value.append ((after.comma_reads w₄).append others))
      refine ⟨last, events ++ later, ?_, replied.of_eq values locale, ?_⟩
      · have split : (MembersText.cons w₁ key w₂ w₃ v w₄ ms).text =
            (w₁.text ++ (quotedText key ++ (w₂.text ++ (colon :: w₃.text)))) ++ (v.text ++
              ((w₄.text ++ [comma]) ++ ms.text)) := by
          simp [MembersText.text]
        rw [split]
        simpa using all
      · rw [MembersText.values]
        exact rest ms.values ▸ speaks.append speaks'

/-! ### The reply -/

/-- Before the reply. -/
structure AtReply (st : ReplyStreamParser) : Prop extends AtTop st where
  expects : st.expect = .value
  reply : st.curKey = py "reply"

/-- The reply has begun. -/
def begun (st : ReplyStreamParser) (kind : ReplyKind) (e : Expect) : ReplyStreamParser :=
  { st with inReply := true, replyKind := kind, expect := e }

omit [PyRuntime] in
theorem AtReply.replied {st : ReplyStreamParser} (at_ : AtReply st) (kind : ReplyKind) (e : Expect)
    (done : Bool) : Replied st { st.begun kind e with replyLocaleDone := done }.closeReply :=
  ⟨⟨⟨at_.live, at_.closed, at_.inside, rfl, at_.flat⟩, rfl⟩, rfl, rfl, rfl⟩

/-- The first character of the reply. -/
theorem AtReply.char {st : ReplyStreamParser} (at_ : AtReply st) {ch : Nat}
    (solid : isSpace ch = false) : st.char ch =
      if ch = dquote then .ok ((st.begun .string .value).openString .replyText, [.replyStart])
      else if ch = lbrace then .ok (st.begun .object .rkey, [.replyStart])
      else .ok (st.begun .literal .value, [.replyStart]) := by
  rw [char_top at_.toAtLevel, topChar, if_neg (by simp [solid]), at_.expects]
  simp only [topValueStart, if_pos at_.reply, begun, ← at_.expects]

/-- A string is handed out. -/
theorem replyString_reads {st : ReplyStreamParser} (at_ : AtReply st) {items : List StrItem}
    {decoded : PyStr} (whole : streamItems items = some decoded) :
    Reads st (quotedText items) { st.begun .string .value with replyLocaleDone := true }.closeReply
      ([.replyStart] ++ (decoded.map (fun c => .replyText [c]) ++ [.replyEnd])) := by
  let s : StrToken := ⟨.replyText, [], none⟩
  let st' := st.begun .string .value
  have opens : Reads st [dquote] (st'.inString s none) [.replyStart] := by
    refine Reads.char at_.live ?_
    rw [at_.char (by decide)]
    rfl
  have body := body_reads items whole st' at_.live s
  have kept : ∀ raw, st'.keeping s raw = st' := fun raw => if_neg (by decide)
  rw [textEvents, if_pos rfl, kept, show taken s decoded = s from if_pos rfl] at body
  have ends : Reads (st'.inString s none) [dquote] { st' with replyLocaleDone := true }.closeReply
      [.replyEnd] := by
    refine Reads.char at_.live ?_
    rw [char_quote, kept, endString]
    simp only [s]
    rw [if_pos (show (st'.inString s none).replyKind = .string from rfl)]
    have finish := @finish_reply _ { st'.inString s none with str := none, replyLocaleDone := true }
      at_.uncaptured at_.reply
    simp only at finish
    rw [finish]
    simp only [Except.map, closeReply, inString, st', begun]
    rw [← at_.closed]
  exact opens.append (body.append ends)

/-- A literal is passed over, with what follows it. -/
theorem replyLiteral_reads {st : ReplyStreamParser} (at_ : AtReply st) (a : Atom) (w : Ws) {sep : Nat}
    (ends : sep = comma ∨ sep = rbrace) :
    Reads st (a.text ++ (w.text ++ [sep])) ((st.begun .literal .value).closeReply.afterSeparator sep)
      [.replyStart] := by
  let st' := st.begun .literal .value
  have kind : st'.replyKind = .literal := rfl
  have steps : ∀ ch, st'.char ch = st'.replyChar ch := by
    intro ch
    rw [ReplyStreamParser.char, show st'.str = none from at_.closed]
    simp only [show st'.inObject = true from at_.inside, Bool.true_eq_false, if_false,
      show st'.inReply = true from rfl, if_true]
  have goes : ∀ text : PyStr, (∀ c ∈ text, isAtomChar c = true ∨ isJsonSpace c = true) →
      Reads st' text st' [] := by
    intro text chars
    induction text with
    | nil => exact Reads.nil _
    | cons c text ih =>
        have here := chars c List.mem_cons_self
        have step : st'.char c = .ok (st', []) := by
          rw [steps, replyChar, if_pos kind, if_neg]
          rintro (rfl | rfl) <;> rcases here with here | here <;> cases here
        exact Reads.cons (show st'.malformed = none from at_.live) step (ih fun d member => chars d (List.mem_cons_of_mem c member))
  have last : Reads st' [sep] (st'.closeReply.afterSeparator sep) [] := by
    refine Reads.char at_.live ?_
    rw [steps, replyChar, if_pos kind, if_pos ends]
    simp only [@finish_reply _ st' at_.uncaptured at_.reply]
    rfl
  cases shape : a.text with
  | nil => exact absurd shape a.text_ne_nil
  | cons c text =>
      have chars := a.chars
      rw [shape] at chars
      have atom := chars c List.mem_cons_self
      have first : Reads st [c] st' [.replyStart] := by
        refine Reads.char at_.live ?_
        rw [at_.char (isSpace_of_atom atom), if_neg, if_neg]
        · rintro rfl
          cases atom
        · rintro rfl
          cases atom
      have rest := goes (text ++ w.text) fun d member => by
        rcases List.mem_append.mp member with here | there
        · exact .inl (chars d (List.mem_cons_of_mem c here))
        · exact .inr (w.ok d there)
      simpa using first.append (rest.append last)

/-- The reply of a turn, and what follows it. -/
theorem reply_reads {st : ReplyStreamParser} (at_ : AtReply st) (fresh : st.replyLocaleDone = false)
    {v : JsonText} (pairs : v.allStrings paired = true) (distinct : v.distinct = true)
    (plain : plainReply v.value = true) (w : Ws) {sep : Nat} (ends : sep = comma ∨ sep = rbrace) :
    ∃ next events, Reads st (v.text ++ (w.text ++ [sep])) (next.afterSeparator sep) events ∧
      Replied st next ∧ Speaks events (replyText st.locale v.value) := by
  have then_ : ∀ {v : JsonText} {next : ReplyStreamParser} {events : List StreamEvent},
      Reads st v.text next events → Replied st next →
      Speaks events (replyText st.locale v.value) →
      ∃ next events, Reads st (v.text ++ (w.text ++ [sep])) (next.afterSeparator sep) events ∧
        Replied st next ∧ Speaks events (replyText st.locale v.value) := by
    intro v next events reads replied speaks
    have all := reads.append (separator_reads replied.top replied.expects w ends)
    rw [List.append_nil] at all
    exact ⟨next, events, all, replied, speaks⟩
  have brace : Reads st [lbrace] (st.begun .object .rkey) [.replyStart] := by
    refine Reads.char at_.live ?_
    rw [at_.char (by decide)]
    rfl
  have inReply : InReply (st.begun .object .rkey) :=
    ⟨at_.live, at_.closed, at_.inside, rfl, rfl, at_.flat, at_.uncaptured, at_.reply⟩
  cases v with
  | atom a =>
      refine ⟨_, _, replyLiteral_reads at_ a w ends, at_.replied .literal .value st.replyLocaleDone, ?_⟩
      have silent : replyText st.locale (JsonText.atom a).value = [] := by
        rw [JsonText.value]
        exact replyText_atom st.locale a
      exact silent ▸ Speaks.start
  | str items =>
      have reads := replyString_reads at_ (streamItems_of_paired items pairs)
      refine then_ (v := .str items) reads (at_.replied .string .value true) ?_
      have speaks := Speaks.start.append ((Speaks.chars (decodeItems items)).append .finish)
      rw [List.nil_append, List.append_nil] at speaks
      rw [JsonText.value]
      exact speaks
  | arrEmpty w' =>
      rw [JsonText.value] at plain
      cases plain
  | arr elems =>
      rw [JsonText.value] at plain
      cases plain
  | objEmpty w' =>
      have close : Reads (st.begun .object .rkey) [rbrace] (st.begun .object .rkey).closeReply [] := by
        refine Reads.char at_.live ?_
        rw [inReply.char_solid (by decide), ← finish_reply inReply.uncaptured inReply.reply]
        rfl
      have reads := brace.append ((inReply.ws_reads w').append close)
      refine then_ (v := .objEmpty w') reads (at_.replied .object .rkey st.replyLocaleDone) ?_
      rw [JsonText.value]
      exact Speaks.start
  | obj ms =>
      rw [JsonText.distinct, Bool.and_eq_true, decide_eq_true_eq] at distinct
      rw [JsonText.value, ofMembers_of_nodup _ distinct.1, plainReply, List.all_eq_true] at plain
      obtain ⟨next, events, members, replied, speaks⟩ := replyMembers_read ms inReply rfl pairs plain
      refine then_ (v := .obj ms) (brace.append members) ⟨replied.top, replied.expects, replied.values,
        replied.locale⟩ ?_
      rw [JsonText.value, ofMembers_of_nodup _ distinct.1]
      have begins := Speaks.start.append speaks
      rw [handsOut, show (st.begun .object .rkey).replyLocaleDone = false from fresh] at begins
      exact begins

end ReplyStreamParser

end

end GhostPour.N400
