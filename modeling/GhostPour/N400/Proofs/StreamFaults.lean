/-
Module: GhostPour.N400.Proofs.StreamFaults
Layer: Proofs
Purpose: When the reply reader raises nothing. Every fault of a character is a `_Malformed` but those of
  an escape whose number `int` reads and `chr` refuses, or whose low half `int` refuses.
Trusted boundary: none
Main exports: BadEscape, decodeEscape_raised_iff, char_orderly, feed_reports, feedParts_reports_iff,
  half_pair_escapes
-/
import GhostPour.Library.Machine
import GhostPour.N400.Proofs.StreamKeys

namespace GhostPour.N400

section
variable [PyRuntime]

/-! ### The escapes that raise -/

/-- No character has the number. -/
def NoCharacter (n : Int) : Prop := n < 0 ∨ 0x10FFFF < n

/-- A number that waits for the low half of a pair. -/
def HighSurrogate (n : Int) : Prop := 0xD800 ≤ n ∧ n ≤ 0xDBFF

/-- The number of a pair. -/
def pairNumber (high low : Int) : Int := 0x10000 + (high - 0xD800) * 1024 + (low - 0xDC00)

/-- An escape that begins with four digits whose number no character has, or with a high surrogate and
four characters that are no number or put the pair where no character is. -/
inductive BadEscape : PyStr → Prop
  | number {digits rest : PyStr} {cp : Int} : digits.length = 4 → intBase16 digits = some cp →
      ¬HighSurrogate cp → NoCharacter cp → BadEscape (letterU :: (digits ++ rest))
  | pair {high low rest : PyStr} {cp : Int} : high.length = 4 → low.length = 4 →
      intBase16 high = some cp → HighSurrogate cp →
      (∀ lo, intBase16 low = some lo → NoCharacter (pairNumber cp lo)) →
      BadEscape (letterU :: (high ++ backslash :: letterU :: (low ++ rest)))

omit [PyRuntime] in
theorem chrEscape_raised_iff (n : Int) : chrEscape n = .fault .raised ↔ NoCharacter n := by
  rw [chrEscape, NoCharacter, chr]
  split
  · next c read =>
    split at read
    · exact iff_of_false nofun (by omega)
    · cases read
  · next read =>
    split at read
    · cases read
    · exact iff_of_true rfl (by omega)

/-- The bad escapes, place by place. -/
theorem badEscape_cons_iff (rest : PyStr) : BadEscape (letterU :: rest) ↔
    4 ≤ rest.length ∧ ∃ cp, intBase16 (rest.take 4) = some cp ∧
      (¬HighSurrogate cp ∧ NoCharacter cp ∨
        HighSurrogate cp ∧ 10 ≤ rest.length ∧ (rest.drop 4).take 2 = [backslash, letterU] ∧
          ∀ lo, intBase16 ((rest.drop 6).take 4) = some lo → NoCharacter (pairNumber cp lo)) := by
  constructor
  · intro bad
    generalize whole : letterU :: rest = esc at bad
    cases bad with
    | @number digits back cp four read single none_ =>
        obtain rfl := (List.cons.inj whole).2
        refine ⟨by simp [four], cp, ?_, .inl ⟨single, none_⟩⟩
        rw [← four, List.take_left]
        exact read
    | @pair high low back cp four four' read high_ none_ =>
        obtain rfl := (List.cons.inj whole).2
        have second : (high ++ backslash :: letterU :: (low ++ back)).drop 4 =
            backslash :: letterU :: (low ++ back) := by
          rw [← four, List.drop_left]
        have third : (high ++ backslash :: letterU :: (low ++ back)).drop 6 = low ++ back := by
          calc (high ++ backslash :: letterU :: (low ++ back)).drop 6
              = ((high ++ backslash :: letterU :: (low ++ back)).drop 4).drop 2 := by
                rw [List.drop_drop]
            _ = low ++ back := by rw [second]; rfl
        refine ⟨by simp [four], cp, ?_, .inr ⟨high_, ?_, ?_, ?_⟩⟩
        · rw [← four, List.take_left]
          exact read
        · simp [four, four']
          omega
        · rw [second]
          rfl
        · rw [third, ← four', List.take_left]
          exact none_
  · rintro ⟨long, cp, read, ⟨single, none_⟩ | ⟨high, longer, second, none_⟩⟩
    · rw [← List.take_append_drop 4 rest]
      exact .number (List.length_take_of_le long) read single none_
    · have parts : rest = rest.take 4 ++
          backslash :: letterU :: ((rest.drop 6).take 4 ++ rest.drop 10) := by
        have tail : (rest.drop 6).take 4 ++ rest.drop 10 = rest.drop 6 := by
          calc (rest.drop 6).take 4 ++ rest.drop 10
              = (rest.drop 6).take 4 ++ (rest.drop 6).drop 4 := by rw [List.drop_drop]
            _ = rest.drop 6 := List.take_append_drop 4 _
        have middle : backslash :: letterU :: rest.drop 6 = rest.drop 4 := by
          calc backslash :: letterU :: rest.drop 6
              = (rest.drop 4).take 2 ++ (rest.drop 4).drop 2 := by
                rw [second, List.drop_drop]
                rfl
            _ = rest.drop 4 := List.take_append_drop 2 _
        rw [tail, middle, List.take_append_drop]
      rw [parts]
      refine .pair (List.length_take_of_le long) ?_ read high none_
      rw [List.length_take, List.length_drop]
      omega

/-- The number after `u` raises where it is no character's, a pair also where its low half is none. -/
theorem decodeUnicode_raised_iff (rest : PyStr) :
    decodeUnicode (letterU :: rest) = .fault .raised ↔ BadEscape (letterU :: rest) := by
  rw [badEscape_cons_iff, decodeUnicode]
  split
  · next short =>
    rw [List.length_cons] at short
    exact iff_of_false nofun fun bad => absurd bad.1 (by omega)
  · next long =>
    rw [List.length_cons] at long
    rw [and_iff_right (by omega)]
    split
    · next unread =>
      refine iff_of_false nofun ?_
      rintro ⟨cp, read, _⟩
      cases unread.symm.trans read
    · next cp read =>
      have only : (∃ n, intBase16 (rest.take 4) = some n ∧
          (¬HighSurrogate n ∧ NoCharacter n ∨
            HighSurrogate n ∧ 10 ≤ rest.length ∧ (rest.drop 4).take 2 = [backslash, letterU] ∧
              ∀ lo, intBase16 ((rest.drop 6).take 4) = some lo → NoCharacter (pairNumber n lo))) ↔
          (¬HighSurrogate cp ∧ NoCharacter cp ∨
            HighSurrogate cp ∧ 10 ≤ rest.length ∧ (rest.drop 4).take 2 = [backslash, letterU] ∧
              ∀ lo, intBase16 ((rest.drop 6).take 4) = some lo →
                NoCharacter (pairNumber cp lo)) := by
        constructor
        · rintro ⟨n, read', holds⟩
          rw [Option.some.inj (read.symm.trans read')]
          exact holds
        · exact fun holds => ⟨cp, read, holds⟩
      rw [only]
      split
      · next high =>
        rw [or_iff_right fun single => single.1 high, and_iff_right (show HighSurrogate cp from high)]
        split
        · next short =>
          rw [List.length_cons] at short
          exact iff_of_false nofun fun bad => absurd bad.1 (by omega)
        · next longer =>
          rw [List.length_cons] at longer
          rw [and_iff_right (by omega)]
          split
          · next other => exact iff_of_false nofun fun bad => other bad.1
          · next second =>
            rw [and_iff_right (show (rest.drop 4).take 2 = [backslash, letterU] from
              not_not.mp second)]
            split
            · next unread =>
              refine iff_of_true rfl fun lo low => ?_
              cases unread.symm.trans low
            · next lo low =>
              rw [chrEscape_raised_iff]
              constructor
              · intro none_ lo' low'
                rw [← Option.some.inj (low.symm.trans low')]
                exact none_
              · exact fun all => all lo low
      · next single =>
        rw [chrEscape_raised_iff, or_iff_left fun high => single high.1]
        exact (and_iff_right (show ¬HighSurrogate cp from single)).symm

theorem decodeEscape_raised_iff (esc : PyStr) :
    decodeEscape esc = .fault .raised ↔ BadEscape esc := by
  cases esc with
  | nil =>
      constructor
      · intro raised
        cases raised
      · intro bad
        cases bad
  | cons c rest =>
      rw [decodeEscape]
      split
      · next x simple =>
        have letter : simpleEscape letterU = none := by decide
        constructor
        · intro raised
          cases raised
        · intro bad
          cases bad <;> exact absurd (letter.symm.trans simple) (Option.some_ne_none x).symm
      · split
        · next letter =>
          rw [letter]
          exact decodeUnicode_raised_iff rest
        · next other =>
          constructor
          · intro raised
            cases raised
          · intro bad
            cases bad <;> exact absurd rfl other

namespace ReplyStreamParser

/-! ### One character -/

/-- No report of a malformed text. -/
def Clean (events : List StreamEvent) : Prop := ∀ reason, .malformed reason ∉ events

omit [PyRuntime] in
theorem Clean.nil : Clean [] := fun _ => List.not_mem_nil

omit [PyRuntime] in
theorem Clean.cons {e : StreamEvent} {events : List StreamEvent}
    (other : ∀ reason, e ≠ .malformed reason) (clean : Clean events) : Clean (e :: events) := by
  intro reason member
  rcases List.mem_cons.mp member with same | later
  · exact other reason same.symm
  · exact clean reason later

/-- A character whose fault, if it has one, is a `_Malformed`, and that reports none itself. -/
inductive Orderly (m : Option PyStr) : Reading → Prop
  | ok {next : ReplyStreamParser} {events : List StreamEvent} : next.malformed = m →
      Clean events → Orderly m (.ok (next, events))
  | malformed (reason : PyStr) : Orderly m (.error (.malformed reason))

omit [PyRuntime] in
theorem Orderly.quiet {m : Option PyStr} {next : ReplyStreamParser} (same : next.malformed = m) :
    Orderly m (.ok (next, [])) := .ok same .nil

omit [PyRuntime] in
/-- A step that goes on by what changes neither the reader's verdict nor its silence. -/
theorem Orderly.map {m : Option PyStr} {step : Reading} (orderly : Orderly m step)
    {f : ReplyStreamParser × List StreamEvent → ReplyStreamParser × List StreamEvent}
    (same : ∀ r, (f r).1.malformed = r.1.malformed) (clean : ∀ r, Clean r.2 → Clean (f r).2) :
    Orderly m (step.map f) := by
  cases orderly with
  | ok here quiet => exact .ok ((same _).trans here) (clean _ quiet)
  | malformed reason => exact .malformed reason

theorem finishTopValue_orderly (st : ReplyStreamParser) :
    Orderly st.malformed st.finishTopValue := by
  unfold finishTopValue
  dsimp only
  split
  · split
    · exact .ok rfl (.cons nofun .nil)
    · exact .malformed _
  · split
    · exact .ok rfl (.cons nofun .nil)
    · exact .quiet rfl

omit [PyRuntime] in
theorem afterSeparator_malformed (ch : Nat) (st : ReplyStreamParser) :
    (st.afterSeparator ch).malformed = st.malformed := by
  unfold afterSeparator
  split
  · rfl
  · split <;> rfl

theorem topValueStart_orderly (st : ReplyStreamParser) (ch : Nat) :
    Orderly st.malformed (st.topValueStart ch) := by
  unfold topValueStart
  dsimp only
  split
  · split
    · exact .ok rfl (.cons nofun .nil)
    · split <;> exact .ok rfl (.cons nofun .nil)
  · split
    · refine .quiet ?_
      split <;> rfl
    · split
      · refine .quiet ?_
        split <;> rfl
      · split
        · exact .malformed _
        · refine .quiet ?_
          split <;> rfl

theorem topChar_orderly (st : ReplyStreamParser) (ch : Nat) :
    Orderly st.malformed (st.topChar ch) := by
  unfold topChar
  split
  · exact .quiet rfl
  · split
    · split
      · exact .quiet rfl
      · split
        · exact .quiet rfl
        · exact .malformed _
    · split
      · exact .quiet rfl
      · exact .malformed _
    · exact topValueStart_orderly st ch
    · split
      · exact (finishTopValue_orderly st).map (fun r => afterSeparator_malformed ch r.1)
          fun _ quiet => quiet
      · exact .quiet rfl
    · split
      · exact .quiet rfl
      · split
        · exact .quiet rfl
        · exact .malformed _
    · exact .quiet rfl

theorem nestedChar_orderly (st : ReplyStreamParser) (ch : Nat) :
    Orderly st.malformed (st.nestedChar ch) := by
  unfold nestedChar
  dsimp only
  split
  · exact .quiet rfl
  · split
    · exact .quiet rfl
    · split
      · split
        · exact .malformed _
        · split
          · exact finishTopValue_orderly
              { st with capture := st.capture.map (· ++ [ch]), stack := [] }
          · exact .quiet rfl
      · exact .quiet rfl

theorem afterReplyMember_orderly (st : ReplyStreamParser) (ch : Nat) :
    Orderly st.malformed (st.afterReplyMember ch) := by
  unfold afterReplyMember
  split
  · exact .quiet rfl
  · split
    · exact finishTopValue_orderly { st with inReply := false }
    · exact .malformed _

theorem replyChar_orderly (st : ReplyStreamParser) (ch : Nat) :
    Orderly st.malformed (st.replyChar ch) := by
  unfold replyChar
  split
  · split
    · exact (finishTopValue_orderly { st with inReply := false }).map
        (fun r => afterSeparator_malformed ch r.1) fun _ quiet => quiet
    · exact .quiet rfl
  · split
    · exact .quiet rfl
    · split
      · split
        · exact .quiet rfl
        · split
          · exact finishTopValue_orderly { st with inReply := false }
          · exact .malformed _
      · split
        · exact .quiet rfl
        · exact .malformed _
      · split
        · exact .quiet rfl
        · split <;> exact .quiet rfl
      · split
        · exact afterReplyMember_orderly st ch
        · exact .quiet rfl
      · exact afterReplyMember_orderly st ch
      · exact .quiet rfl

omit [PyRuntime] in
theorem emitStr_orderly (st : ReplyStreamParser) (s : StrToken) (c : Nat) :
    Orderly st.malformed (st.emitStr s c) := by
  unfold emitStr
  split
  · exact .ok rfl (.cons nofun .nil)
  · exact .quiet rfl

theorem endString_orderly (st : ReplyStreamParser) (s : StrToken) :
    Orderly st.malformed (st.endString s) := by
  unfold endString
  dsimp only
  split
  · exact .quiet rfl
  · exact .quiet rfl
  · split
    · exact (finishTopValue_orderly { st with str := none, replyLocaleDone := true, inReply := false }).map
        (fun _ => rfl) fun _ quiet => .cons nofun quiet
    · exact .ok rfl (.cons nofun .nil)
  · exact .quiet rfl
  · split
    · exact finishTopValue_orderly { st with str := none }
    · exact .quiet rfl

/-- The step of a string: an escape that raises, or a step like the others. -/
theorem stringChar_cases (st : ReplyStreamParser) (s : StrToken) (ch : Nat) :
    (∃ esc, s.esc = some esc ∧ BadEscape (esc ++ [ch])) ∧ st.stringChar s ch = .error .raised ∨
      (∀ esc, s.esc = some esc → ¬BadEscape (esc ++ [ch])) ∧
        Orderly st.malformed (st.stringChar s ch) := by
  have kept : (if s.role = .capture then { st with capture := st.capture.map (· ++ [ch]) }
      else st).malformed = st.malformed := by
    split <;> rfl
  unfold stringChar
  dsimp only
  generalize (if s.role = .capture then { st with capture := st.capture.map (· ++ [ch]) }
    else st) = next at kept ⊢
  rw [← kept]
  cases pending : s.esc with
  | none =>
      refine .inr ⟨nofun, ?_⟩
      dsimp only
      split
      · exact .quiet rfl
      · split
        · exact endString_orderly next s
        · exact emitStr_orderly next s ch
  | some esc =>
      dsimp only
      cases decoded : decodeEscape (esc ++ [ch]) with
      | pending =>
          refine .inr ⟨?_, .quiet rfl⟩
          intro other same bad
          cases same
          cases decoded.symm.trans ((decodeEscape_raised_iff _).mpr bad)
      | done c =>
          refine .inr ⟨?_, emitStr_orderly next _ c⟩
          intro other same bad
          cases same
          cases decoded.symm.trans ((decodeEscape_raised_iff _).mpr bad)
      | fault f =>
          cases f with
          | raised => exact .inl ⟨⟨esc, rfl, (decodeEscape_raised_iff _).mp decoded⟩, rfl⟩
          | malformed reason =>
              refine .inr ⟨?_, .malformed reason⟩
              intro other same bad
              cases same
              cases decoded.symm.trans ((decodeEscape_raised_iff _).mpr bad)

/-- A character that an open escape can go on with: the escape raises nothing. -/
def Readable (ch : Nat) (st : ReplyStreamParser) : Prop :=
  ∀ s esc, st.str = some s → s.esc = some esc → ¬BadEscape (esc ++ [ch])

/-- A character raises where it completes an escape that does, and nowhere else. -/
theorem char_cases (st : ReplyStreamParser) (ch : Nat) :
    ¬Readable ch st ∧ st.char ch = .error .raised ∨
      Readable ch st ∧ Orderly st.malformed (st.char ch) := by
  unfold char Readable
  cases open_ : st.str with
  | some s =>
      dsimp only
      rcases stringChar_cases st s ch with ⟨⟨esc, pending, bad⟩, raised⟩ | ⟨fine, orderly⟩
      · exact .inl ⟨fun readable => readable s esc rfl pending bad, raised⟩
      · refine .inr ⟨?_, orderly⟩
        rintro _ esc ⟨⟩ pending
        exact fine esc pending
  | none =>
      refine .inr ⟨nofun, ?_⟩
      dsimp only
      split
      · split <;> exact .quiet rfl
      · split
        · exact replyChar_orderly st ch
        · split
          · exact nestedChar_orderly st ch
          · exact topChar_orderly st ch

/-! ### Runs -/

/-- What a reader has reported: nothing malformed, or a malformed text last and once. -/
def Reported (last : ReplyStreamParser) (events : List StreamEvent) : Prop :=
  last.malformed = none ∧ Clean events ∨
    ∃ reason front, last.malformed = some reason ∧ events = front ++ [.malformed reason] ∧
      Clean front

omit [PyRuntime] in
theorem Reported.before {front : List StreamEvent} (clean : Clean front)
    {last : ReplyStreamParser} {events : List StreamEvent} (reported : Reported last events) :
    Reported last (front ++ events) := by
  have joins : ∀ {back : List StreamEvent}, Clean back → Clean (front ++ back) := by
    intro back quiet reason member
    rcases List.mem_append.mp member with member | member
    · exact clean reason member
    · exact quiet reason member
  rcases reported with ⟨live, quiet⟩ | ⟨reason, middle, stopped, rfl, quiet⟩
  · exact .inl ⟨live, joins quiet⟩
  · exact .inr ⟨reason, front ++ middle, stopped, (List.append_assoc ..).symm, joins quiet⟩

/-- A text that is read is reported. -/
theorem feed_reported {st last : ReplyStreamParser} {text : PyStr} {events : List StreamEvent}
    (run : st.feed text = some (last, events)) : st.malformed = none → Reported last events := by
  apply feed_induction (P := fun st last events => st.malformed = none → Reported last events)
    ?_ ?_ run
  · intro st reason
    constructor
    · exact fun live => .inl ⟨live, .nil⟩
    · exact fun _ => .inr ⟨reason, [], rfl, rfl, .nil⟩
  · intro st next last ch one two step later live
    rcases char_cases st ch with ⟨_, raised⟩ | ⟨_, orderly⟩
    · rw [raised] at step
      cases step
    · rw [step] at orderly
      cases orderly with
      | ok same clean => exact (later (same.trans live)).before clean

/-- The reader as a machine over characters; a text that it cannot read leaves it where it is. -/
def reader : Machine ReplyStreamParser Nat where
  step ch st := (st.feed [ch]).map Prod.fst

theorem reader_run (st : ReplyStreamParser) (text : PyStr) :
    reader.run text st = (st.feed text).map Prod.fst := by
  induction text generalizing st with
  | nil => rfl
  | cons ch text ih =>
      rw [Machine.run_cons, ← List.singleton_append, feed_append, Option.map_bind]
      show ((st.feed [ch]).map Prod.fst).bind (reader.run text) = _
      rw [Option.bind_map]
      congr 1
      funext r
      rw [Function.comp_apply, ih, Function.comp_apply, Option.map_map]
      rfl

/-- A character is read when the text is already refused, or when it completes no bad escape. -/
theorem reader_step_isSome_iff (ch : Nat) (st : ReplyStreamParser) :
    (reader.step ch st).isSome = true ↔ (st.malformed = none → Readable ch st) := by
  show ((st.feed [ch]).map Prod.fst).isSome = true ↔ _
  rw [Option.isSome_map]
  rcases feed_cons_cases st ch with stopped | ⟨live, cases_⟩
  · rw [feed_of_malformed stopped]
    refine iff_of_true rfl fun live => ?_
    rw [live] at stopped
    cases stopped
  · rcases char_cases st ch with ⟨unreadable, raised⟩ | ⟨readable, orderly⟩
    · rw [feed_cons_raised live raised]
      exact iff_of_false nofun fun all => unreadable (all live)
    · refine iff_of_true ?_ fun _ => readable
      rcases cases_ with ⟨next, events, step⟩ | ⟨reason, step⟩ | step
      · rw [feed_cons_ok live step]
        rfl
      · rw [feed_cons_malformed live step]
        rfl
      · rw [step] at orderly
        cases orderly

/-! ### Deltas -/

/-- `feed` on each delta, with what each call returns. -/
def feedParts : ReplyStreamParser → List PyStr →
    Py (ReplyStreamParser × List (List StreamEvent))
  | st, [] => some (st, [])
  | st, delta :: deltas => (st.feed delta).bind fun r =>
      (feedParts r.1 deltas).map fun s => (s.1, r.2 :: s.2)

/-- The calls return what one call on the whole text returns, in parts. -/
theorem feedParts_flatten (st : ReplyStreamParser) (deltas : List PyStr) :
    (st.feedParts deltas).map (fun s => (s.1, s.2.flatten)) = st.feed deltas.flatten := by
  induction deltas generalizing st with
  | nil => rfl
  | cons delta deltas ih =>
      rw [List.flatten_cons, feed_append, feedParts, Option.map_bind]
      congr 1
      funext r
      rw [Function.comp_apply, ← ih, Option.map_map, Option.map_map]
      rfl

/-- Every call returns, and what they report is clean or ends with the one report of a malformed text. -/
def Reports (st : ReplyStreamParser) (deltas : List PyStr) : Prop :=
  ∃ last events, st.feedParts deltas = some (last, events) ∧ Reported last events.flatten

end ReplyStreamParser

end

end GhostPour.N400
