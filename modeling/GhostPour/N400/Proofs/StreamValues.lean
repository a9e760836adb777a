/-
Module: GhostPour.N400.Proofs.StreamValues
Layer: Proofs
Purpose: How the reply reader reads the members of the object before and after the reply: a value is
  skipped or kept with its raw text, and filed under its key.
Trusted boundary: none
Main exports: JsonText.allStrings, streamable, Grows, value_grows, filed, value_passes, member_passes
-/
import GhostPour.Library.JsonCanonical
import GhostPour.N400.Proofs.StreamStrings

namespace GhostPour

mutual

/-- Every string of a value, keys included, has a body that passes the test. -/
def JsonText.allStrings [PyRuntime] (p : List StrItem → Bool) : JsonText → Bool
  | .atom _ => true
  | .str items => p items
  | .arrEmpty _ => true
  | .arr elems => elems.allStrings p
  | .objEmpty _ => true
  | .obj members => members.allStrings p

/-- The strings of the elements of an array. -/
def ElemsText.allStrings [PyRuntime] (p : List StrItem → Bool) : ElemsText → Bool
  | .last _ v _ => v.allStrings p
  | .cons _ v _ rest => v.allStrings p && rest.allStrings p

/-- The strings of the members of an object, with their keys. -/
def MembersText.allStrings [PyRuntime] (p : List StrItem → Bool) : MembersText → Bool
  | .last _ key _ _ v _ => p key && v.allStrings p
  | .cons _ key _ _ v _ rest => p key && (v.allStrings p && rest.allStrings p)

end

mutual

/-- No object of a value repeats a key. -/
def JsonText.distinct [PyRuntime] : JsonText → Bool
  | .atom _ => true
  | .str _ => true
  | .arrEmpty _ => true
  | .arr elems => elems.distinct
  | .objEmpty _ => true
  | .obj members => decide (members.values.map Prod.fst).Nodup && members.distinct

/-- The objects in the elements of an array. -/
def ElemsText.distinct [PyRuntime] : ElemsText → Bool
  | .last _ v _ => v.distinct
  | .cons _ v _ rest => v.distinct && rest.distinct

/-- The objects in the members of an object. -/
def MembersText.distinct [PyRuntime] : MembersText → Bool
  | .last _ _ _ _ v _ => v.distinct
  | .cons _ _ _ _ v _ rest => v.distinct && rest.distinct

end

namespace N400

/-- The reader gets to the end of a string. -/
def streams (items : List StrItem) : Bool := (streamItems items).isSome

/-- The reader gets to the end of every string of a value. -/
abbrev streamable [PyRuntime] (v : JsonText) : Bool := v.allStrings streams

/-- The members a value writes, when it is an object. -/
def membersOf [PyRuntime] : JsonText → Option (List (PyStr × Json))
  | .objEmpty _ => some []
  | .obj members => some members.values
  | _ => none

namespace ReplyStreamParser

variable [PyRuntime]

/-! ### Inside a value -/

/-- Inside a value that is skipped or kept. -/
structure InNested (st : ReplyStreamParser) : Prop where
  live : st.malformed = none
  closed : st.str = none
  inside : st.inObject = true
  outside : st.inReply = false
  deep : st.stack ≠ []

/-- More of the raw text, when it is kept. -/
def grown (st : ReplyStreamParser) (raw : PyStr) : ReplyStreamParser :=
  { st with capture := st.capture.map (· ++ raw) }

/-- The role of a string inside a value. -/
def nestedRole (st : ReplyStreamParser) : StrRole :=
  if st.capture.isSome then .capture else .skip

omit [PyRuntime] in
@[simp] theorem grown_nil (st : ReplyStreamParser) : st.grown [] = st := by
  simp [grown]

omit [PyRuntime] in
@[simp] theorem grown_grown (st : ReplyStreamParser) (a b : PyStr) :
    (st.grown a).grown b = st.grown (a ++ b) := by
  simp [grown, Function.comp_def]

omit [PyRuntime] in
theorem InNested.grown {st : ReplyStreamParser} (nested : InNested st) (raw : PyStr) :
    InNested (st.grown raw) :=
  ⟨nested.live, nested.closed, nested.inside, nested.outside, nested.deep⟩

omit [PyRuntime] in
/-- A string inside a value is kept with it. -/
theorem keeping_nested {st : ReplyStreamParser} {s : StrToken} (role : s.role = st.nestedRole)
    (raw : PyStr) : st.keeping s raw = st.grown raw := by
  unfold keeping ReplyStreamParser.grown
  rw [role, nestedRole]
  cases captured : st.capture with
  | none =>
      simp only [Option.isSome_none, Bool.false_eq_true, if_false, Option.map_none]
      rw [if_neg (by decide), ← captured]
  | some text => simp

theorem char_nested {st : ReplyStreamParser} (nested : InNested st) (ch : Nat) :
    st.char ch = st.nestedChar ch := by
  rw [char, nested.closed]
  simp only [nested.inside, Bool.true_eq_false, if_false, nested.outside, Bool.false_eq_true,
    if_pos nested.deep]

/-- A text that is skipped or kept inside a value, or that ends the run. -/
def Grows (good : Bool) (text : PyStr) : Prop :=
  ∀ st : ReplyStreamParser, InNested st → Passes good st text (st.grown text) []

theorem Grows.nil : Grows true [] := by
  intro st _
  rw [grown_nil]
  exact Reads.nil st

theorem Grows.append {good good' : Bool} {a b : PyStr} (first : Grows good a)
    (second : Grows good' b) : Grows (good && good') (a ++ b) := by
  intro st nested
  have both := (first st nested).append .nil (second (st.grown a) (nested.grown a))
  rwa [grown_grown] at both

/-- A character that is no quote and no bracket. -/
def isFlat (c : Nat) : Bool :=
  c != dquote && c != lbrace && c != lbracket && c != rbrace && c != rbracket

theorem Grows.flat {text : PyStr} (flat : ∀ c ∈ text, isFlat c = true) : Grows true text := by
  induction text with
  | nil => exact .nil
  | cons c text ih =>
      have here := flat c List.mem_cons_self
      simp only [isFlat, Bool.and_eq_true, bne_iff_ne] at here
      obtain ⟨⟨⟨⟨quote, brace⟩, bracket⟩, brace'⟩, bracket'⟩ := here
      have one : Grows true [c] := by
        intro st nested
        refine Reads.char nested.live ?_
        rw [char_nested nested, nestedChar]
        simp only [if_neg quote, brace, bracket, brace', bracket', or_self, if_false]
        rfl
      exact one.append (ih fun d member => flat d (List.mem_cons_of_mem c member))

omit [PyRuntime] in
theorem nestedRole_other (st : ReplyStreamParser) : st.nestedRole ≠ .replyText := by
  unfold nestedRole
  split <;> decide

omit [PyRuntime] in
/-- A string is left as it was entered. -/
theorem inString_closed {st : ReplyStreamParser} (closed : st.str = none) (s : StrToken)
    (esc : Option PyStr) : { st.inString s esc with str := none } = st := by
  cases st
  cases closed
  rfl

/-- The quote that ends a string inside a value. -/
theorem char_quote_nested {st : ReplyStreamParser} (nested : InNested st) {s : StrToken}
    (role : s.role = st.nestedRole) :
    (st.inString s none).char dquote = .ok (st.grown [dquote], []) := by
  rw [char_quote, keeping_nested role, endString]
  have other : ∀ r, r = st.nestedRole → r ≠ .key ∧ r ≠ .rkey ∧ r ≠ .replyText ∧ r ≠ .skipReply := by
    intro r eq
    rw [eq, nestedRole]
    split <;> decide
  obtain ⟨key, rkey, reply, skip⟩ := other s.role role
  have closed := inString_closed (nested.grown [dquote]).closed s none
  split
  · next eq => exact absurd eq key
  · next eq => exact absurd eq rkey
  · next eq => exact absurd eq reply
  · next eq => exact absurd eq skip
  · rw [if_neg (show ((st.grown [dquote]).inString s none).stack ≠ [] from nested.deep), closed]

theorem Grows.quoted (items : List StrItem) : Grows (streams items) (quotedText items) := by
  intro st nested
  rw [streams]
  let s : StrToken := ⟨st.nestedRole, [], none⟩
  have opens : Reads st [dquote] ((st.grown [dquote]).inString s none) [] := by
    refine Reads.char nested.live ?_
    rw [char_nested nested, nestedChar, if_pos rfl]
    rfl
  cases whole : streamItems items with
  | none =>
      intro rest
      have broken := body_silent items whole rest (st.grown [dquote]) s nested.live
        (nestedRole_other st)
      have split : quotedText items ++ rest = [dquote] ++ (itemsText items ++ dquote :: rest) := by
        simp [quotedText]
      rw [split]
      exact Silent.after opens .nil broken
  | some decoded =>
      have role : s.role = (st.grown [dquote]).nestedRole := by
        simp [s, nestedRole, ReplyStreamParser.grown]
      have body := body_reads items whole (st.grown [dquote]) nested.live s
      rw [textEvents, if_neg (nestedRole_other st), keeping_nested role, grown_grown] at body
      have role' : (taken s decoded).role = (st.grown ([dquote] ++ itemsText items)).nestedRole := by
        rw [taken_role]
        simp [s, nestedRole, ReplyStreamParser.grown]
      have ends := Reads.char (by exact nested.live)
        (char_quote_nested (nested.grown ([dquote] ++ itemsText items)) role')
      have all := opens.append (body.append ends)
      rw [grown_grown] at all
      exact all

/-- A pair of brackets. -/
def Brackets (o c : Nat) : Prop := o = lbrace ∧ c = rbrace ∨ o = lbracket ∧ c = rbracket

/-- After an opening bracket. -/
def opened (st : ReplyStreamParser) (o : Nat) : ReplyStreamParser :=
  { st.grown [o] with stack := st.stack ++ [o] }

omit [PyRuntime] in
theorem InNested.opened {st : ReplyStreamParser} (nested : InNested st) (o : Nat) :
    InNested (st.opened o) :=
  ⟨nested.live, nested.closed, nested.inside, nested.outside, by simp [ReplyStreamParser.opened]⟩

theorem char_open {st : ReplyStreamParser} (nested : InNested st) {o c : Nat}
    (pair : Brackets o c) : st.char o = .ok (st.opened o, []) := by
  rw [char_nested nested, nestedChar]
  rcases pair with ⟨rfl, _⟩ | ⟨rfl, _⟩ <;> rfl

/-- The bracket that closes a value whose opening bracket is the innermost one. -/
theorem char_close {st : ReplyStreamParser} (nested : InNested st) {o c : Nat} (pair : Brackets o c)
    {rest : PyStr} (stack : st.stack = rest ++ [o]) :
    st.char c = if rest = [] then { st.grown [c] with stack := [] }.finishTopValue
      else .ok ({ st.grown [c] with stack := rest }, []) := by
  rw [char_nested nested, nestedChar, stack]
  rcases pair with ⟨rfl, rfl⟩ | ⟨rfl, rfl⟩ <;> simp [ReplyStreamParser.grown]

theorem Grows.bracket {good : Bool} {inner : PyStr} {o c : Nat} (pair : Brackets o c)
    (inside : Grows good inner) : Grows good (o :: (inner ++ [c])) := by
  intro st nested
  have opens : Reads st [o] (st.opened o) [] := Reads.char nested.live (char_open nested pair)
  have within := inside (st.opened o) (nested.opened o)
  have ends : Reads ((st.opened o).grown inner) [c] (st.grown (o :: (inner ++ [c]))) [] := by
    refine Reads.char nested.live ?_
    rw [char_close ((nested.opened o).grown inner) pair rfl, if_neg nested.deep]
    simp [ReplyStreamParser.opened, ReplyStreamParser.grown, Function.comp_def]
  have all := (Reads.passes opens).append .nil (within.append .nil (Reads.passes ends))
  rw [Bool.and_true, Bool.true_and] at all
  exact all

omit [PyRuntime] in
theorem isFlat_of_space {c : Nat} (space : isJsonSpace c = true) : isFlat c = true := by
  simp only [isJsonSpace, Bool.or_eq_true, beq_iff_eq] at space
  rcases space with ((rfl | rfl) | rfl) | rfl <;> rfl

omit [PyRuntime] in
theorem isFlat_of_atom {c : Nat} (atom : isAtomChar c = true) : isFlat c = true := by
  simp [isAtomChar, isAsciiAlpha, isAsciiDigit] at atom
  simp [isFlat]
  omega

theorem Grows.ws (w : Ws) : Grows true w.text :=
  .flat fun c member => isFlat_of_space (w.ok c member)

theorem Grows.comma : Grows true [comma] :=
  .flat fun d member => by rw [List.mem_singleton.mp member]; rfl

theorem Grows.colon : Grows true [colon] :=
  .flat fun d member => by rw [List.mem_singleton.mp member]; rfl

mutual

/-- A value inside a value is skipped or kept whole. -/
theorem value_grows : ∀ v : JsonText, Grows (streamable v) v.text
  | .atom a => by
      rw [JsonText.text, streamable, JsonText.allStrings]
      exact .flat fun c member => isFlat_of_atom (a.chars c member)
  | .str items => by
      rw [JsonText.text, streamable, JsonText.allStrings]
      exact .quoted items
  | .arrEmpty w => by
      rw [JsonText.text, streamable, JsonText.allStrings]
      exact .bracket (.inr ⟨rfl, rfl⟩) (.ws w)
  | .arr elems => by
      rw [JsonText.text, streamable, JsonText.allStrings]
      obtain ⟨inner, split, grows⟩ := elems_grow elems
      rw [split]
      exact .bracket (.inr ⟨rfl, rfl⟩) grows
  | .objEmpty w => by
      rw [JsonText.text, streamable, JsonText.allStrings]
      exact .bracket (.inl ⟨rfl, rfl⟩) (.ws w)
  | .obj members => by
      rw [JsonText.text, streamable, JsonText.allStrings]
      obtain ⟨inner, split, grows⟩ := members_grow members
      rw [split]
      exact .bracket (.inl ⟨rfl, rfl⟩) grows

/-- The elements of an array, up to its closing bracket. -/
theorem elems_grow : ∀ es : ElemsText,
    ∃ inner, es.text = inner ++ [rbracket] ∧ Grows (es.allStrings streams) inner
  | .last w₁ v w₂ => by
      refine ⟨w₁.text ++ (v.text ++ w₂.text), by simp [ElemsText.text], ?_⟩
      rw [ElemsText.allStrings]
      have all := (Grows.ws w₁).append ((value_grows v).append (.ws w₂))
      rwa [Bool.and_true, Bool.true_and] at all
  | .cons w₁ v w₂ rest => by
      obtain ⟨inner, split, grows⟩ := elems_grow rest
      refine ⟨w₁.text ++ (v.text ++ (w₂.text ++ ([comma] ++ inner))),
        by simp [ElemsText.text, split], ?_⟩
      rw [ElemsText.allStrings]
      have all := (Grows.ws w₁).append ((value_grows v).append
        ((Grows.ws w₂).append (Grows.comma.append grows)))
      simpa only [Bool.true_and] using all

/-- The members of an object, up to its closing brace. -/
theorem members_grow : ∀ ms : MembersText,
    ∃ inner, ms.text = inner ++ [rbrace] ∧ Grows (ms.allStrings streams) inner
  | .last w₁ key w₂ w₃ v w₄ => by
      refine ⟨w₁.text ++ (quotedText key ++ (w₂.text ++ ([colon] ++ (w₃.text ++
        (v.text ++ w₄.text))))), by simp [MembersText.text], ?_⟩
      rw [MembersText.allStrings]
      have all := (Grows.ws w₁).append ((Grows.quoted key).append ((Grows.ws w₂).append
        (Grows.colon.append ((Grows.ws w₃).append ((value_grows v).append (.ws w₄))))))
      simpa only [Bool.true_and, Bool.and_true] using all
  | .cons w₁ key w₂ w₃ v w₄ rest => by
      obtain ⟨inner, split, grows⟩ := members_grow rest
      refine ⟨w₁.text ++ (quotedText key ++ (w₂.text ++ ([colon] ++ (w₃.text ++
        (v.text ++ (w₄.text ++ ([comma] ++ inner))))))), by simp [MembersText.text, split], ?_⟩
      rw [MembersText.allStrings]
      have all := (Grows.ws w₁).append ((Grows.quoted key).append ((Grows.ws w₂).append
        (Grows.colon.append ((Grows.ws w₃).append ((value_grows v).append
          ((Grows.ws w₄).append (Grows.comma.append grows)))))))
      simpa only [Bool.true_and] using all

end

/-! ### A value of the object -/

/-- At the top level of the object. -/
structure AtLevel (st : ReplyStreamParser) : Prop where
  live : st.malformed = none
  closed : st.str = none
  inside : st.inObject = true
  outside : st.inReply = false
  flat : st.stack = []

/-- At the top level of the object, between the parts of its members. -/
structure AtTop (st : ReplyStreamParser) : Prop extends AtLevel st where
  uncaptured : st.capture = none

/-- Before the value of a key other than the reply's. -/
structure AtValue (st : ReplyStreamParser) : Prop extends AtTop st where
  expects : st.expect = .value
  other : st.curKey ≠ py "reply"

/-- The raw text of the value so far, when it is kept. -/
def holding (st : ReplyStreamParser) (raw : PyStr) : ReplyStreamParser :=
  { st with capture := if st.curKey ∈ keysBeforeReply then some raw else none }

/-- The value is filed under its key, when it is kept. -/
def filed (st : ReplyStreamParser) (v : JsonText) : ReplyStreamParser :=
  { st with
    values := if st.curKey ∈ keysBeforeReply then st.values.set st.curKey v.value else st.values
    curKey := []
    expect := .commaOrEnd }

/-- The report of a value. -/
def report (st : ReplyStreamParser) (v : JsonText) : List StreamEvent :=
  if st.curKey ∈ keysBeforeReply then [.keyDone st.curKey v.value]
  else if st.curKey = [] then [] else [.keyDone st.curKey .null]

theorem report_onlyKeys (st : ReplyStreamParser) (v : JsonText) : OnlyKeys (report st v) := by
  unfold report
  split
  · exact .keyDone _ _
  · split
    · exact .nil
    · exact .keyDone _ _

omit [PyRuntime] in
theorem holding_grown (st : ReplyStreamParser) (a b : PyStr) :
    (st.holding a).grown b = st.holding (a ++ b) := by
  unfold holding ReplyStreamParser.grown
  split <;> rfl

/-- A value is finished: its raw text is read as the value. -/
theorem finish_holding {st : ReplyStreamParser} (at_ : AtValue st) (v : JsonText) (e : Expect) :
    { st.holding v.text with expect := e }.finishTopValue = .ok (filed st v, report st v) := by
  have read : loads v.text = some v.value := by
    have whole := loads_document ⟨.empty, v, .empty⟩
    simpa [Document.text, Ws.empty] using whole
  unfold finishTopValue holding filed report
  by_cases guarded : st.curKey ∈ keysBeforeReply
  · simp only [if_pos guarded, read]
    rw [at_.uncaptured]
  · simp only [if_neg guarded]
    by_cases empty : st.curKey = []
    · rw [if_neg (by simp [empty]), if_pos empty, at_.uncaptured]
    · rw [if_pos ⟨empty, at_.other⟩, if_neg empty, at_.uncaptured]

theorem char_top {st : ReplyStreamParser} (top : AtLevel st) (ch : Nat) :
    st.char ch = st.topChar ch := by
  rw [char, top.closed]
  simp only [top.inside, Bool.true_eq_false, if_false, top.outside, Bool.false_eq_true, top.flat,
    ne_eq, not_true_eq_false]

/-- The first character of a value. -/
theorem char_atValue {st : ReplyStreamParser} (at_ : AtValue st) {ch : Nat}
    (space : isSpace ch = false) :
    st.char ch =
      if ch = dquote then
        .ok ((st.holding [ch]).openString
          (if st.curKey ∈ keysBeforeReply then .capture else .skip), [])
      else if ch = lbrace ∨ ch = lbracket then .ok ({ st.holding [ch] with stack := [ch] }, [])
      else if ch = rbrace ∨ ch = rbracket then
        .error (.malformed (py "unexpected " ++ PyRuntime.quote [ch] ++ py " at value start"))
      else .ok ({ st.holding [ch] with expect := .literal }, []) := by
  have held : (if st.curKey ∈ keysBeforeReply then { st with capture := some [ch] } else st) =
      st.holding [ch] := by
    unfold holding
    split
    · rfl
    · rw [← at_.uncaptured]
  have start : st.topValueStart ch = (if ch = dquote then
        .ok ((st.holding [ch]).openString
          (if st.curKey ∈ keysBeforeReply then .capture else .skip), [])
      else if ch = lbrace ∨ ch = lbracket then .ok ({ st.holding [ch] with stack := [ch] }, [])
      else if ch = rbrace ∨ ch = rbracket then
        .error (.malformed (py "unexpected " ++ PyRuntime.quote [ch] ++ py " at value start"))
      else .ok ({ st.holding [ch] with expect := .literal }, [])) := by
    have stack : (st.holding [ch]).stack ++ [ch] = [ch] := by
      rw [show (st.holding [ch]).stack = [] from at_.flat, List.nil_append]
    unfold topValueStart
    rw [if_neg at_.other]
    simp only [held, stack]
  rw [char_top at_.toAtLevel, topChar, if_neg (by simp [space]), at_.expects]
  exact start

/-- The role of a string that is a value. -/
def valueRole (st : ReplyStreamParser) : StrRole :=
  if st.curKey ∈ keysBeforeReply then .capture else .skip

omit [PyRuntime] in
theorem valueRole_other (st : ReplyStreamParser) :
    st.valueRole ≠ .key ∧ st.valueRole ≠ .rkey ∧ st.valueRole ≠ .replyText ∧
      st.valueRole ≠ .skipReply := by
  unfold valueRole
  split <;> decide

omit [PyRuntime] in
theorem keeping_holding {st : ReplyStreamParser} {s : StrToken} (role : s.role = st.valueRole)
    (a b : PyStr) : (st.holding a).keeping s b = st.holding (a ++ b) := by
  unfold keeping holding
  rw [role, valueRole]
  split
  · simp
  · rw [if_neg (by decide)]

/-- A string that is a value is filed. -/
theorem str_filed {st : ReplyStreamParser} (at_ : AtValue st) (items : List StrItem) :
    Passes (streams items) st (quotedText items) (filed st (.str items))
      (report st (.str items)) := by
  rw [streams]
  let s : StrToken := ⟨st.valueRole, [], none⟩
  obtain ⟨key, rkey, reply, skip⟩ := st.valueRole_other
  have opens : Reads st [dquote] ((st.holding [dquote]).inString s none) [] := by
    refine Reads.char at_.live ?_
    rw [char_atValue at_ (by decide), if_pos rfl]
    rfl
  cases whole : streamItems items with
  | none =>
      intro rest
      have broken := body_silent items whole rest (st.holding [dquote]) s at_.live reply
      have split : quotedText items ++ rest = [dquote] ++ (itemsText items ++ dquote :: rest) := by
        simp [quotedText]
      rw [split]
      exact Silent.after opens .nil broken
  | some decoded =>
      have body := body_reads items whole (st.holding [dquote]) at_.live s
      rw [textEvents, if_neg reply, keeping_holding rfl] at body
      have ends : Reads ((st.holding ([dquote] ++ itemsText items)).inString (taken s decoded) none)
          [dquote] (filed st (.str items)) (report st (.str items)) := by
        refine Reads.char at_.live ?_
        have role : (taken s decoded).role = st.valueRole := taken_role s decoded
        rw [char_quote, keeping_holding role, endString]
        have closed : { (st.holding ([dquote] ++ itemsText items ++ [dquote])).inString
            (taken s decoded) none with str := none } =
              st.holding ([dquote] ++ itemsText items ++ [dquote]) :=
          inString_closed (show (st.holding ([dquote] ++ itemsText items ++ [dquote])).str = none
            from at_.closed) _ _
        split
        · next eq => exact absurd (role.symm.trans eq) key
        · next eq => exact absurd (role.symm.trans eq) rkey
        · next eq => exact absurd (role.symm.trans eq) reply
        · next eq => exact absurd (role.symm.trans eq) skip
        · rw [closed]
          have flat : ((st.holding ([dquote] ++ itemsText items ++ [dquote])).inString
              (taken s decoded) none).stack = [] := at_.flat
          rw [if_pos flat]
          exact finish_holding at_ (.str items) st.expect
      exact opens.append (body.append ends)

omit [PyRuntime] in
theorem flat_eq {st : ReplyStreamParser} (flat : st.stack = []) : { st with stack := [] } = st := by
  cases st
  cases flat
  rfl

/-- A value in brackets is filed. -/
theorem bracket_filed {st : ReplyStreamParser} (at_ : AtValue st) {v : JsonText} {good : Bool}
    {inner : PyStr} {o c : Nat} (pair : Brackets o c) (text : v.text = o :: (inner ++ [c]))
    (inside : Grows good inner) : Passes good st v.text (filed st v) (report st v) := by
  let deep : ReplyStreamParser := { st.holding [o] with stack := [o] }
  have nested : InNested deep := ⟨at_.live, at_.closed, at_.inside, at_.outside, by simp [deep]⟩
  have opens : Reads st [o] deep [] := by
    refine Reads.char at_.live ?_
    rw [char_atValue at_ (by rcases pair with ⟨rfl, _⟩ | ⟨rfl, _⟩ <;> decide)]
    rcases pair with ⟨rfl, _⟩ | ⟨rfl, _⟩ <;> rfl
  have within := inside deep nested
  have ends : Reads (deep.grown inner) [c] (filed st v) (report st v) := by
    refine Reads.char at_.live ?_
    have raw : { (deep.grown inner).grown [c] with stack := [] } = st.holding v.text := by
      have grown : (st.holding [o]).grown (inner ++ [c]) = st.holding (o :: (inner ++ [c])) :=
        holding_grown st [o] (inner ++ [c])
      rw [grown_grown, text, ← grown]
      exact flat_eq (show ((st.holding [o]).grown (inner ++ [c])).stack = [] from at_.flat)
    rw [char_close (nested.grown inner) pair (show (deep.grown inner).stack = [] ++ [o] from rfl),
      if_pos rfl, raw]
    exact finish_holding at_ v st.expect
  have all := (Reads.passes opens).append .nil (within.append .nil (Reads.passes ends))
  rw [Bool.and_true, Bool.true_and] at all
  rw [text]
  exact all

omit [PyRuntime] in
theorem isSpace_of_jsonSpace {c : Nat} (space : isJsonSpace c = true) : isSpace c = true := by
  simp only [isJsonSpace, Bool.or_eq_true, beq_iff_eq] at space
  rcases space with ((rfl | rfl) | rfl) | rfl <;> rfl

omit [PyRuntime] in
theorem isSpace_of_atom {c : Nat} (atom : isAtomChar c = true) : isSpace c = false := by
  simp [isAtomChar, isAsciiAlpha, isAsciiDigit] at atom
  simp [isSpace]
  omega

/-- White space between the parts of a member. -/
theorem ws_reads {st : ReplyStreamParser} (top : AtTop st) (between : st.expect ≠ .literal) (w : Ws) :
    Reads st w.text st [] := by
  obtain ⟨text, ok⟩ := w
  induction text with
  | nil => exact Reads.nil st
  | cons c text ih =>
      have step : st.char c = .ok (st, []) := by
        rw [char_top top.toAtLevel, topChar,
          if_pos ⟨isSpace_of_jsonSpace (ok c List.mem_cons_self), between⟩]
      exact Reads.cons top.live step (ih fun d member => ok d (List.mem_cons_of_mem c member))

omit [PyRuntime] in
theorem AtTop.filed [PyRuntime] {st : ReplyStreamParser} (top : AtTop st) (v : JsonText) :
    AtTop (filed st v) :=
  ⟨⟨top.live, top.closed, top.inside, top.outside, top.flat⟩, top.uncaptured⟩

/-- What follows a value that is filed. -/
theorem separator_reads {st : ReplyStreamParser} (top : AtTop st) (expects : st.expect = .commaOrEnd)
    (w : Ws) {sep : Nat} (ends : sep = comma ∨ sep = rbrace) :
    Reads st (w.text ++ [sep]) (st.afterSeparator sep) [] := by
  have step : st.char sep = .ok (st.afterSeparator sep, []) := by
    rw [char_top top.toAtLevel, topChar, if_neg (by rcases ends with rfl | rfl <;> simp [isSpace]), expects]
    rcases ends with rfl | rfl
    · rfl
    · rfl
  exact (ws_reads top (by rw [expects]; decide) w).append (Reads.char top.live step)

/-- In a literal that is a value. -/
def inLiteral (st : ReplyStreamParser) (raw : PyStr) : ReplyStreamParser :=
  { st.holding raw with expect := .literal }

omit [PyRuntime] in
theorem AtLevel.inLiteral {st : ReplyStreamParser} (level : AtLevel st) (raw : PyStr) :
    AtLevel (st.inLiteral raw) :=
  ⟨level.live, level.closed, level.inside, level.outside, level.flat⟩

/-- More of a literal. -/
theorem literal_reads {st : ReplyStreamParser} (level : AtLevel st) {text : PyStr}
    (chars : ∀ c ∈ text, isAtomChar c = true) : ∀ raw : PyStr,
    Reads (st.inLiteral raw) text (st.inLiteral (raw ++ text)) [] := by
  induction text with
  | nil =>
      intro raw
      rw [List.append_nil]
      exact Reads.nil _
  | cons c text ih =>
      intro raw
      have atom := chars c List.mem_cons_self
      have goes : ¬ (c = comma ∨ c = rbrace ∨ isSpace c = true) := by
        rintro (rfl | rfl | space)
        · simp [isAtomChar, isAsciiAlpha, isAsciiDigit] at atom
        · simp [isAtomChar, isAsciiAlpha, isAsciiDigit] at atom
        · rw [isSpace_of_atom atom] at space
          cases space
      have step : (st.inLiteral raw).char c = .ok (st.inLiteral (raw ++ [c]), []) := by
        rw [char_top (level.inLiteral raw), topChar, if_neg (by simp [inLiteral])]
        simp only [inLiteral, if_neg goes]
        rw [← holding_grown]
        rfl
      have rest := ih (fun d member => chars d (List.mem_cons_of_mem c member)) (raw ++ [c])
      rw [List.append_assoc] at rest
      exact Reads.cons (level.inLiteral raw).live step rest

/-- The character after a literal ends it. -/
theorem char_afterLiteral {st : ReplyStreamParser} (at_ : AtValue st) (a : Atom) {c : Nat}
    (ends : c = comma ∨ c = rbrace ∨ isSpace c = true) :
    (st.inLiteral a.text).char c =
      .ok ((filed st (.atom a)).afterSeparator c, report st (.atom a)) := by
  have done := finish_holding at_ (.atom a) .literal
  rw [JsonText.text] at done
  rw [char_top (at_.toAtLevel.inLiteral a.text), topChar, if_neg (by simp [inLiteral])]
  simp only [inLiteral, if_pos ends]
  rw [done]
  rfl

/-- A literal, and what follows it. -/
theorem atom_passes {st : ReplyStreamParser} (at_ : AtValue st) (a : Atom) (w : Ws) {sep : Nat}
    (ends : sep = comma ∨ sep = rbrace) :
    Reads st (a.text ++ (w.text ++ [sep])) ((filed st (.atom a)).afterSeparator sep)
      (report st (.atom a)) := by
  have whole : Reads st a.text (st.inLiteral a.text) [] := by
    cases shape : a.text with
    | nil => exact absurd shape a.text_ne_nil
    | cons c t =>
        have chars := a.chars
        rw [shape] at chars
        have atom := chars c List.mem_cons_self
        have first : st.char c = .ok (st.inLiteral [c], []) := by
          rw [char_atValue at_ (isSpace_of_atom atom)]
          simp [isAtomChar, isAsciiAlpha, isAsciiDigit] at atom
          rw [if_neg (by simp; omega), if_neg (by simp; omega), if_neg (by simp; omega)]
          rfl
        exact Reads.cons at_.live first (literal_reads at_.toAtLevel
          (fun d member => chars d (List.mem_cons_of_mem c member)) [c])
  have live : (st.inLiteral a.text).malformed = none := at_.live
  have after : Reads (st.inLiteral a.text) (w.text ++ [sep])
      ((filed st (.atom a)).afterSeparator sep) (report st (.atom a)) := by
    obtain ⟨text, ok⟩ := w
    cases text with
    | nil => exact Reads.char live (char_afterLiteral at_ a (by tauto))
    | cons c text =>
        have space := isSpace_of_jsonSpace (ok c List.mem_cons_self)
        have first := char_afterLiteral at_ a (.inr (.inr space))
        have same : (filed st (.atom a)).afterSeparator c = filed st (.atom a) := by
          unfold afterSeparator
          rw [if_neg (by rintro rfl; simp [isSpace] at space),
            if_neg (by rintro rfl; simp [isSpace] at space)]
        rw [same] at first
        have rest := separator_reads (at_.toAtTop.filed (.atom a)) rfl
          ⟨text, fun d member => ok d (List.mem_cons_of_mem c member)⟩ ends
        have all := Reads.cons live first rest
        rwa [List.append_nil] at all
  exact whole.append after

/-- A value of the object, and what follows it. -/
theorem value_passes {st : ReplyStreamParser} (at_ : AtValue st) (v : JsonText) (w : Ws) {sep : Nat}
    (ends : sep = comma ∨ sep = rbrace) :
    Passes (streamable v) st (v.text ++ (w.text ++ [sep])) ((filed st v).afterSeparator sep)
      (report st v) := by
  have then_ : ∀ {v : JsonText} {good : Bool}, Passes good st v.text (filed st v) (report st v) →
      Passes good st (v.text ++ (w.text ++ [sep])) ((filed st v).afterSeparator sep)
        (report st v) := by
    intro v good first
    have all := first.append (report_onlyKeys st v).noReply
      (Reads.passes (separator_reads (at_.toAtTop.filed v) rfl w ends))
    rwa [Bool.and_true, List.append_nil] at all
  cases v with
  | atom a => exact atom_passes at_ a w ends
  | str items => exact then_ (str_filed at_ items)
  | arrEmpty w' => exact then_ (bracket_filed at_ (.inr ⟨rfl, rfl⟩) rfl (.ws w'))
  | arr elems =>
      obtain ⟨inner, split, grows⟩ := elems_grow elems
      exact then_ (bracket_filed at_ (.inr ⟨rfl, rfl⟩) (by rw [JsonText.text, split]) grows)
  | objEmpty w' => exact then_ (bracket_filed at_ (.inl ⟨rfl, rfl⟩) rfl (.ws w'))
  | obj members =>
      obtain ⟨inner, split, grows⟩ := members_grow members
      exact then_ (bracket_filed at_ (.inl ⟨rfl, rfl⟩) (by rw [JsonText.text, split]) grows)

/-- A value starts with no white space. -/
theorem head_not_space (v : JsonText) : ∃ c t, v.text = c :: t ∧ isSpace c = false := by
  cases v with
  | atom a =>
      cases shape : a.text with
      | nil => exact absurd shape a.text_ne_nil
      | cons c t =>
          have atom := a.chars c (by rw [shape]; exact List.mem_cons_self)
          exact ⟨c, t, by rw [JsonText.text, shape], isSpace_of_atom atom⟩
  | str items => exact ⟨dquote, _, rfl, by decide⟩
  | arrEmpty w => exact ⟨lbracket, _, rfl, by decide⟩
  | arr elems => exact ⟨lbracket, _, rfl, by decide⟩
  | objEmpty w => exact ⟨lbrace, _, rfl, by decide⟩
  | obj members => exact ⟨lbrace, _, rfl, by decide⟩

/-! ### A member -/

/-- Before a key of the object. -/
structure AtKey (st : ReplyStreamParser) : Prop extends AtTop st where
  expects : st.expect = .key

/-- The key has been read. -/
def keyed (st : ReplyStreamParser) (key : PyStr) : ReplyStreamParser :=
  { st with curKey := key, expect := .value }

omit [PyRuntime] in
theorem AtTop.keyed {st : ReplyStreamParser} (top : AtTop st) (key : PyStr) : AtTop (keyed st key) :=
  ⟨⟨top.live, top.closed, top.inside, top.outside, top.flat⟩, top.uncaptured⟩

/-- The key the reader takes from its string. -/
def streamKey (key : List StrItem) : PyStr := (streamItems key).getD []

/-- A key, up to its value. -/
theorem key_passes {st : ReplyStreamParser} (at_ : AtKey st) (w₁ : Ws) (key : List StrItem)
    (w₂ w₃ : Ws) :
    Passes (streams key) st
      (w₁.text ++ (quotedText key ++ (w₂.text ++ (colon :: w₃.text)))) (keyed st (streamKey key))
      [] := by
  rw [streams]
  let s : StrToken := ⟨.key, [], none⟩
  have opens : Reads st (w₁.text ++ [dquote]) (st.inString s none) [] := by
    have step : st.char dquote = .ok (st.inString s none, []) := by
      rw [char_top at_.toAtLevel, topChar, if_neg (by simp [isSpace]), at_.expects]
      rfl
    exact (ws_reads at_.toAtTop (by rw [at_.expects]; decide) w₁).append (Reads.char at_.live step)
  cases whole : streamItems key with
  | none =>
      intro rest
      have broken := body_silent key whole (w₂.text ++ (colon :: w₃.text) ++ rest) st s at_.live
        (by decide)
      have split : w₁.text ++ (quotedText key ++ (w₂.text ++ (colon :: w₃.text))) ++ rest =
          (w₁.text ++ [dquote]) ++ (itemsText key ++ dquote :: (w₂.text ++ (colon :: w₃.text) ++ rest))
          := by simp [quotedText]
      rw [split]
      exact Silent.after opens .nil broken
  | some decoded =>
      let mid : ReplyStreamParser := { st with curKey := decoded, expect := .colon }
      have top : AtTop mid :=
        ⟨⟨at_.live, at_.closed, at_.inside, at_.outside, at_.flat⟩, at_.uncaptured⟩
      have body := body_reads key whole st at_.live s
      have kept : st.keeping s (itemsText key) = st := if_neg (by decide)
      rw [textEvents, if_neg (by decide), kept] at body
      have ends : Reads (st.inString (taken s decoded) none) [dquote] mid [] := by
        refine Reads.char at_.live ?_
        have taken' : taken s decoded = ⟨.key, decoded, none⟩ := rfl
        have kept' : st.keeping ⟨.key, decoded, none⟩ [dquote] = st :=
          if_neg (show StrRole.key ≠ .capture by decide)
        rw [taken', char_quote, kept', endString]
        show Except.ok ({ mid with str := none }, []) = _
        rw [show { mid with str := none } = mid from inString_closed top.closed s none]
      have sep : Reads mid (w₂.text ++ [colon]) (keyed st decoded) [] := by
        have step : mid.char colon = .ok (keyed st decoded, []) := by
          rw [char_top top.toAtLevel, topChar, if_neg (by simp [isSpace])]
          rfl
        have between : mid.expect ≠ .literal := show Expect.colon ≠ .literal by decide
        exact (ws_reads top between w₂).append (Reads.char top.live step)
      have spaces := ws_reads (at_.toAtTop.keyed decoded) (by simp [keyed]) w₃
      have all := opens.append (body.append (ends.append (sep.append spaces)))
      rw [streamKey, whole, Option.getD_some]
      have split : w₁.text ++ (quotedText key ++ (w₂.text ++ (colon :: w₃.text))) =
          (w₁.text ++ [dquote]) ++ (itemsText key ++ ([dquote] ++ ((w₂.text ++ [colon]) ++ w₃.text)))
          := by simp [quotedText]
      rw [split]
      exact all

/-- A member of the object that is not the reply, and what follows it. -/
theorem member_passes {st : ReplyStreamParser} (at_ : AtKey st) (w₁ : Ws) (key : List StrItem)
    (w₂ w₃ : Ws) (v : JsonText) (w₄ : Ws) {sep : Nat} (ends : sep = comma ∨ sep = rbrace)
    (other : streamKey key ≠ py "reply") :
    Passes (streams key && streamable v) st
      (w₁.text ++ (quotedText key ++ (w₂.text ++ (colon :: (w₃.text ++ (v.text ++
        (w₄.text ++ [sep])))))))
      ((filed (keyed st (streamKey key)) v).afterSeparator sep)
      (report (keyed st (streamKey key)) v) := by
  have value : AtValue (keyed st (streamKey key)) := ⟨at_.toAtTop.keyed _, rfl, other⟩
  have all := (key_passes at_ w₁ key w₂ w₃).append .nil (value_passes value v w₄ ends)
  have split : w₁.text ++ (quotedText key ++ (w₂.text ++ (colon :: (w₃.text ++ (v.text ++
      (w₄.text ++ [sep])))))) = w₁.text ++ (quotedText key ++ (w₂.text ++ (colon :: w₃.text))) ++
        (v.text ++ (w₄.text ++ [sep])) := by simp
  rw [split]
  exact all

/-! ### Around the object -/

/-- Before and after the object. -/
structure Away (st : ReplyStreamParser) : Prop where
  live : st.malformed = none
  closed : st.str = none
  outside : st.inObject = false

theorem Away.init (locale : PyStr) : Away (init locale) := ⟨rfl, rfl, rfl⟩

/-- Outside the object a text without a brace is passed over. -/
theorem Away.reads {st : ReplyStreamParser} (away : Away st) {text : PyStr} (none : lbrace ∉ text) :
    Reads st text st [] := by
  induction text with
  | nil => exact Reads.nil st
  | cons c text ih =>
      rw [List.mem_cons, not_or] at none
      have step : st.char c = .ok (st, []) := by
        rw [char, away.closed]
        simp only [away.outside, if_true]
        rw [if_neg (Ne.symm none.1)]
      exact Reads.cons away.live step (ih none.2)

omit [PyRuntime] in
theorem lbrace_not_space (w : Ws) : lbrace ∉ w.text := by
  intro member
  have space := w.ok lbrace member
  cases space

theorem Away.silent {st : ReplyStreamParser} (away : Away st) (w : Ws) : Silent st w.text := by
  have silent := Silent.after (away.reads (lbrace_not_space w)) .nil (Silent.nil st)
  rwa [List.append_nil] at silent

/-- The object is entered. -/
def entered (st : ReplyStreamParser) : ReplyStreamParser :=
  { st with inObject := true, expect := .key }

theorem Away.enters {st : ReplyStreamParser} (away : Away st) {text : PyStr} (none : lbrace ∉ text) :
    Reads st (text ++ [lbrace]) st.entered [] := by
  have step : st.char lbrace = .ok (st.entered, []) := by
    rw [char, away.closed]
    simp [away.outside, entered, away.closed]
  exact (away.reads none).append (Reads.char away.live step)

theorem entered_atKey (locale : PyStr) : AtKey (init locale).entered :=
  ⟨⟨⟨rfl, rfl, rfl, rfl, rfl⟩, rfl⟩, rfl⟩

omit [PyRuntime] in
theorem AtTop.left {st : ReplyStreamParser} (top : AtTop st) : Away (st.afterSeparator rbrace) :=
  ⟨top.live, top.closed, rfl⟩

omit [PyRuntime] in
theorem AtTop.next {st : ReplyStreamParser} (top : AtTop st) : AtKey (st.afterSeparator comma) :=
  ⟨⟨⟨top.live, top.closed, top.inside, top.outside, top.flat⟩, top.uncaptured⟩, rfl⟩

/-- An object without members. -/
theorem AtKey.leaves {st : ReplyStreamParser} (at_ : AtKey st) (w : Ws) :
    Reads st (w.text ++ [rbrace]) (st.afterSeparator rbrace) [] := by
  have step : st.char rbrace = .ok (st.afterSeparator rbrace, []) := by
    rw [char_top at_.toAtLevel, topChar, if_neg (by simp [isSpace]), at_.expects]
    rfl
  exact (ws_reads at_.toAtTop (by rw [at_.expects]; decide) w).append (Reads.char at_.live step)

end ReplyStreamParser
end N400

end GhostPour
