/-
Module: GhostPour.N400.ReplyStreamParser
Layer: Model
Purpose: `ReplyStreamParser` of `app/services/n400_sentence_stream.py`: a JSON reader that takes the
  model's text one character at a time, keeps the three keys the checkpoint refusal reads and hands
  out the decoded text of the reply in one locale. `_Malformed` ends the stream; any other exception
  escapes.
Trusted boundary: human-reviewed spec
Main exports: StreamEvent, ReplyStreamParser, ReplyStreamParser.char, ReplyStreamParser.feed
-/
import GhostPour.Library.PyValue

namespace GhostPour.N400

/-- `KEYS_BEFORE_REPLY`. -/
def keysBeforeReply : List PyStr := [py "section_checkpoint", py "facts", py "deferred"]

/-- What the reader reports. -/
inductive StreamEvent where
  | keyDone (name : PyStr) (value : Json)
  | replyStart
  | replyText (chunk : PyStr)
  | replyEnd
  | malformed (reason : PyStr)

/-- What a string is read for. -/
inductive StrRole where
  | key
  | capture
  | skip
  | replyText
  | rkey
  | skipReply
deriving DecidableEq

/-- What the reader expects next. -/
inductive Expect where
  | start
  | key
  | colon
  | value
  | literal
  | commaOrEnd
  | finish
  | rkey
  | rcolon
  | rvalue
  | rlit
  | rcommaOrEnd
deriving DecidableEq

/-- The form of the reply value. -/
inductive ReplyKind where
  | string
  | object
  | literal
deriving DecidableEq

/-- A string that is being read: its role, what it holds so far, the escape that is being read. -/
structure StrToken where
  role : StrRole
  chars : PyStr
  esc : Option PyStr

/-- The state of the reader. -/
structure ReplyStreamParser where
  locale : PyStr
  /-- Inside the top object. -/
  inObject : Bool
  values : Dict
  malformed : Option PyStr
  replyLocaleDone : Bool
  str : Option StrToken
  expect : Expect
  curKey : PyStr
  /-- The raw text of the value that is kept. -/
  capture : Option PyStr
  inReply : Bool
  replyKind : ReplyKind
  replyLocaleKey : PyStr
  /-- The brackets open in a value that is skipped or kept, the innermost last. -/
  stack : PyStr

/-- How reading a character can go wrong. -/
inductive Fault where
  | malformed (reason : PyStr)
  | raised

/-- One character of the reader. -/
abbrev Reading := Except Fault (ReplyStreamParser × List StreamEvent)

section
variable [PyRuntime]

/-- `(locale or "en").lower()`. -/
def streamLocale (locale : PyStr) : PyStr := lower (if locale = [] then py "en" else locale)

/-- The reader before any text. -/
def ReplyStreamParser.init (locale : PyStr) : ReplyStreamParser where
  locale := streamLocale locale
  inObject := false
  values := []
  malformed := none
  replyLocaleDone := false
  str := none
  expect := .start
  curKey := []
  capture := none
  inReply := false
  replyKind := .literal
  replyLocaleKey := []
  stack := []

/-! ### Escapes -/

/-- What an escape amounts to so far. -/
inductive Escape where
  | pending
  | done (c : Nat)
  | fault (f : Fault)

/-- The text of a `_Malformed` that quotes a character. -/
def gotChar (front : String) (ch : Nat) : Fault :=
  .malformed (py front ++ PyRuntime.quote [ch])

/-- `chr(n)`, whose error is not a `_Malformed`. -/
def chrEscape (n : Int) : Escape :=
  match chr n with
  | some c => .done c
  | none => .fault .raised

/-- `_decode_escape` after `u`. -/
def decodeUnicode (esc : PyStr) : Escape :=
  if esc.length < 5 then .pending
  else match intBase16 ((esc.drop 1).take 4) with
    | none => .fault (.malformed (py "bad \\u escape " ++ PyRuntime.quote esc))
    | some cp =>
        if 0xD800 ≤ cp ∧ cp ≤ 0xDBFF then
          -- a surrogate pair waits for its low half
          if esc.length < 11 then .pending
          else if (esc.drop 5).take 2 ≠ py "\\u" then .fault (.malformed (py "lone high surrogate"))
          else match intBase16 ((esc.drop 7).take 4) with
            | none => .fault .raised
            | some lo => chrEscape (0x10000 + (cp - 0xD800) * 1024 + (lo - 0xDC00))
        else chrEscape cp

/-- `_decode_escape`. -/
def decodeEscape (esc : PyStr) : Escape :=
  match esc with
  | [] => .pending
  | c :: _ =>
      match simpleEscape c with
      | some x => .done x
      | none =>
          if c = letterU then decodeUnicode esc
          else .fault (.malformed (py "bad escape \\" ++ [c]))

namespace ReplyStreamParser

/-! ### One character -/

/-- `_finish_top_value`. -/
def finishTopValue (st : ReplyStreamParser) : Reading :=
  let rest : ReplyStreamParser := { st with capture := none, curKey := [], expect := .commaOrEnd }
  match st.capture with
  | some raw =>
      match loads raw with
      | some v => .ok ({ rest with values := st.values.set st.curKey v }, [.keyDone st.curKey v])
      | none => .error (.malformed
          (py "could not parse " ++ st.curKey ++ py ": " ++ PyRuntime.jsonError raw))
  | none =>
      if st.curKey ≠ [] ∧ st.curKey ≠ py "reply" then .ok (rest, [.keyDone st.curKey .null])
      else .ok (rest, [])

/-- Begin a string. -/
def openString (st : ReplyStreamParser) (role : StrRole) : ReplyStreamParser :=
  { st with str := some ⟨role, [], none⟩ }

/-- The state after the end of the object. -/
def leaveObject (st : ReplyStreamParser) : ReplyStreamParser :=
  { st with inObject := false, expect := .finish }

/-- Go on after a value that a `,` or a `}` ends. -/
def afterSeparator (ch : Nat) (st : ReplyStreamParser) : ReplyStreamParser :=
  if ch = comma then { st with expect := .key }
  else if ch = rbrace then st.leaveObject
  else st

/-- `_top_value_start`. -/
def topValueStart (st : ReplyStreamParser) (ch : Nat) : Reading :=
  if st.curKey = py "reply" then
    if ch = dquote then
      .ok ({ st with inReply := true, replyKind := .string }.openString .replyText, [.replyStart])
    else if ch = lbrace then
      .ok ({ st with inReply := true, replyKind := .object, expect := .rkey }, [.replyStart])
    else .ok ({ st with inReply := true, replyKind := .literal }, [.replyStart])
  else
    let kept := if st.curKey ∈ keysBeforeReply then { st with capture := some [ch] } else st
    if ch = dquote then
      .ok (kept.openString (if st.curKey ∈ keysBeforeReply then .capture else .skip), [])
    else if ch = lbrace ∨ ch = lbracket then .ok ({ kept with stack := kept.stack ++ [ch] }, [])
    else if ch = rbrace ∨ ch = rbracket then
      .error (.malformed (py "unexpected " ++ PyRuntime.quote [ch] ++ py " at value start"))
    else .ok ({ kept with expect := .literal }, [])

/-- `_char` at the top level of the object. -/
def topChar (st : ReplyStreamParser) (ch : Nat) : Reading :=
  if isSpace ch ∧ st.expect ≠ .literal then .ok (st, [])
  else match st.expect with
    | .key =>
        if ch = dquote then .ok (st.openString .key, [])
        else if ch = rbrace then .ok (st.leaveObject, [])
        else .error (gotChar "expected key, got " ch)
    | .colon =>
        if ch = colon then .ok ({ st with expect := .value }, [])
        else .error (gotChar "expected ':', got " ch)
    | .value => st.topValueStart ch
    | .literal =>
        if ch = comma ∨ ch = rbrace ∨ isSpace ch then
          st.finishTopValue.map fun r => (r.1.afterSeparator ch, r.2)
        else .ok ({ st with capture := st.capture.map (· ++ [ch]) }, [])
    | .commaOrEnd =>
        if ch = comma then .ok ({ st with expect := .key }, [])
        else if ch = rbrace then .ok (st.leaveObject, [])
        else .error (gotChar "expected ',' or '\x7d', got " ch)
    | _ => .ok (st, [])

/-- `_nested_char`. -/
def nestedChar (st : ReplyStreamParser) (ch : Nat) : Reading :=
  let kept := { st with capture := st.capture.map (· ++ [ch]) }
  if ch = dquote then
    .ok (kept.openString (if st.capture.isSome then .capture else .skip), [])
  else if ch = lbrace ∨ ch = lbracket then .ok ({ kept with stack := st.stack ++ [ch] }, [])
  else if ch = rbrace ∨ ch = rbracket then
    if st.stack.getLast? = none ∨ (st.stack.getLast? = some lbrace) ≠ (ch = rbrace) then
      .error (.malformed (py "mismatched bracket in nested value"))
    else if st.stack.dropLast = [] then { kept with stack := [] }.finishTopValue
    else .ok ({ kept with stack := st.stack.dropLast }, [])
  else .ok (kept, [])

/-- `_after_reply_member`. -/
def afterReplyMember (st : ReplyStreamParser) (ch : Nat) : Reading :=
  if ch = comma then .ok ({ st with expect := .rkey }, [])
  else if ch = rbrace then { st with inReply := false }.finishTopValue
  else .error (gotChar "expected ',' or '\x7d' in reply object, got " ch)

/-- `_reply_char`. -/
def replyChar (st : ReplyStreamParser) (ch : Nat) : Reading :=
  if st.replyKind = .literal then
    if ch = comma ∨ ch = rbrace then
      let done := { st with inReply := false }
      done.finishTopValue.map fun r => (r.1.afterSeparator ch, r.2)
    else .ok (st, [])
  else if isSpace ch then .ok (st, [])
  else match st.expect with
    | .rkey =>
        if ch = dquote then .ok (st.openString .rkey, [])
        else if ch = rbrace then { st with inReply := false }.finishTopValue
        else .error (gotChar "expected reply locale key, got " ch)
    | .rcolon =>
        if ch = colon then .ok ({ st with expect := .rvalue }, [])
        else .error (.malformed (py "expected ':' in reply object"))
    | .rvalue =>
        if ch = dquote then
          .ok (st.openString
            (if lower st.replyLocaleKey = st.locale ∧ st.replyLocaleDone = false then .replyText
              else .skipReply), [])
        -- the value is not skipped: the state still expects one
        else if ch = lbrace ∨ ch = lbracket then .ok ({ st with stack := st.stack ++ [ch] }, [])
        else .ok ({ st with expect := .rlit }, [])
    | .rlit => if ch = comma ∨ ch = rbrace then st.afterReplyMember ch else .ok (st, [])
    | .rcommaOrEnd => st.afterReplyMember ch
    | _ => .ok (st, [])

/-- `_emit_str`. -/
def emitStr (st : ReplyStreamParser) (s : StrToken) (c : Nat) : Reading :=
  if s.role = .replyText then .ok ({ st with str := some s }, [.replyText [c]])
  else .ok ({ st with str := some { s with chars := s.chars ++ [c] } }, [])

/-- `_end_string`. -/
def endString (st : ReplyStreamParser) (s : StrToken) : Reading :=
  let closed := { st with str := none }
  match s.role with
  | .key => .ok ({ closed with curKey := s.chars, expect := .colon }, [])
  | .rkey => .ok ({ closed with replyLocaleKey := s.chars, expect := .rcolon }, [])
  | .replyText =>
      if st.replyKind = .string then
        let done := { closed with replyLocaleDone := true, inReply := false }
        done.finishTopValue.map fun r => (r.1, .replyEnd :: r.2)
      else .ok ({ closed with replyLocaleDone := true, expect := .rcommaOrEnd }, [.replyEnd])
  | .skipReply => .ok ({ closed with expect := .rcommaOrEnd }, [])
  | _ => if st.stack = [] then closed.finishTopValue else .ok (closed, [])

/-- `_string_char`. -/
def stringChar (st : ReplyStreamParser) (s : StrToken) (ch : Nat) : Reading :=
  let kept := if s.role = .capture then { st with capture := st.capture.map (· ++ [ch]) } else st
  match s.esc with
  | some esc =>
      match decodeEscape (esc ++ [ch]) with
      | .pending => .ok ({ kept with str := some { s with esc := some (esc ++ [ch]) } }, [])
      | .done c => kept.emitStr { s with esc := none } c
      | .fault f => .error f
  | none =>
      if ch = backslash then .ok ({ kept with str := some { s with esc := some [] } }, [])
      else if ch = dquote then kept.endString s
      else kept.emitStr s ch

/-- `_char`. -/
def char (st : ReplyStreamParser) (ch : Nat) : Reading :=
  match st.str with
  | some s => st.stringChar s ch
  | none =>
      if st.inObject = false then
        if ch = lbrace then .ok ({ st with inObject := true, expect := .key }, []) else .ok (st, [])
      else if st.inReply then st.replyChar ch
      else if st.stack ≠ [] then st.nestedChar ch
      else st.topChar ch

/-- `feed`; `none` is the exception that escapes. -/
@[grind =] def feed : ReplyStreamParser → PyStr → Py (ReplyStreamParser × List StreamEvent)
  | st, [] => some (st, [])
  | st, ch :: delta =>
      if st.malformed.isSome then some (st, [])
      else match st.char ch with
        | .ok (next, events) => (feed next delta).map fun r => (r.1, events ++ r.2)
        | .error (.malformed reason) =>
            some ({ st with malformed := some reason }, [.malformed reason])
        | .error .raised => none

/-- `partial_object`. -/
def partialObject (st : ReplyStreamParser) : Dict :=
  st.values.filter fun m => m.1 ∈ keysBeforeReply

end ReplyStreamParser

end

end GhostPour.N400
