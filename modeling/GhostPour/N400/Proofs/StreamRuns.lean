/-
Module: GhostPour.N400.Proofs.StreamRuns
Layer: Proofs
Purpose: Runs of the reply reader. Feeding a text in parts is feeding it whole, and no event of the
  reply comes before the reply begins.
Trusted boundary: none
Main exports: ReplyStreamParser.feed_append, ReplyStreamParser.feed_before
-/
import GhostPour.N400.ReplyStreamParser

namespace GhostPour.N400

/-- The report of a key. -/
def StreamEvent.ofKey : StreamEvent → Bool
  | .keyDone _ _ => true
  | _ => false

/-- An event about the reply. -/
def StreamEvent.ofReply : StreamEvent → Bool
  | .replyStart | .replyText _ | .replyEnd => true
  | _ => false

/-- No event about the reply. -/
abbrev NoReply (events : List StreamEvent) : Prop := ∀ e ∈ events, e.ofReply = false

theorem NoReply.append {front back : List StreamEvent} (one : NoReply front) (two : NoReply back) :
    NoReply (front ++ back) := by
  intro e member
  rcases List.mem_append.mp member with member | member
  · exact one e member
  · exact two e member

theorem NoReply.nil : NoReply [] := fun _ none => (by cases none)

/-- Only reports of keys. -/
abbrev OnlyKeys (events : List StreamEvent) : Prop := ∀ e ∈ events, e.ofKey = true

theorem OnlyKeys.nil : OnlyKeys [] := fun _ none => (by cases none)

theorem OnlyKeys.keyDone (name : PyStr) (value : Json) : OnlyKeys [.keyDone name value] := by
  intro e member
  rw [List.mem_singleton.mp member]
  rfl

theorem OnlyKeys.append {front back : List StreamEvent} (one : OnlyKeys front)
    (two : OnlyKeys back) : OnlyKeys (front ++ back) := by
  intro e member
  rcases List.mem_append.mp member with member | member
  · exact one e member
  · exact two e member

theorem OnlyKeys.noReply {events : List StreamEvent} (only : OnlyKeys events) :
    NoReply events := by
  intro e member
  have key := only e member
  cases e <;> first | rfl | cases key

/-- A result that passes a test. -/
theorem exists_of_check {α : Type} {x : Option α} {p : α → Bool} (holds : x.any p = true) :
    ∃ r, x = some r ∧ p r = true := by
  cases x with
  | none => cases holds
  | some r => exact ⟨r, rfl, holds⟩

namespace ReplyStreamParser

variable [PyRuntime]

/-! ### Feeding in parts -/

theorem feed_of_malformed {st : ReplyStreamParser} (stopped : st.malformed.isSome = true)
    (text : PyStr) : st.feed text = some (st, []) := by
  cases text with
  | nil => rfl
  | cons ch text => rw [feed, if_pos stopped]

/-- Put events before those of a run. -/
def before (events : List StreamEvent) (r : ReplyStreamParser × List StreamEvent) :
    ReplyStreamParser × List StreamEvent := (r.1, events ++ r.2)

theorem feed_cons_ok {st next : ReplyStreamParser} {ch : Nat} {events : List StreamEvent}
    (live : st.malformed = none) (step : st.char ch = .ok (next, events)) (text : PyStr) :
    st.feed (ch :: text) = (next.feed text).map (before events) := by
  rw [feed, live, step]
  rfl

theorem feed_cons_malformed {st : ReplyStreamParser} {ch : Nat} {reason : PyStr}
    (live : st.malformed = none) (step : st.char ch = .error (.malformed reason)) (text : PyStr) :
    st.feed (ch :: text) = some ({ st with malformed := some reason }, [.malformed reason]) := by
  rw [feed, live, step]
  rfl

theorem feed_cons_raised {st : ReplyStreamParser} {ch : Nat} (live : st.malformed = none)
    (step : st.char ch = .error .raised) (text : PyStr) : st.feed (ch :: text) = none := by
  rw [feed, live, step]
  rfl

/-- What a character can do to a run. -/
theorem feed_cons_cases (st : ReplyStreamParser) (ch : Nat) :
    st.malformed.isSome = true ∨ st.malformed = none ∧
      ((∃ next events, st.char ch = .ok (next, events)) ∨
        (∃ reason, st.char ch = .error (.malformed reason)) ∨ st.char ch = .error .raised) := by
  cases malformed : st.malformed with
  | some reason => exact .inl rfl
  | none =>
      refine .inr ⟨rfl, ?_⟩
      cases step : st.char ch with
      | ok r => exact .inl ⟨r.1, r.2, rfl⟩
      | error fault =>
          cases fault with
          | malformed reason => exact .inr (.inl ⟨reason, rfl⟩)
          | raised => exact .inr (.inr rfl)

theorem feed_append (st : ReplyStreamParser) (front back : PyStr) :
    st.feed (front ++ back) =
      (st.feed front).bind fun r => (r.1.feed back).map (before r.2) := by
  induction front generalizing st with
  | nil =>
      rw [List.nil_append, feed, Option.bind_some]
      cases st.feed back <;> rfl
  | cons ch front ih =>
      rw [List.cons_append]
      rcases feed_cons_cases st ch with
        stopped | ⟨live, ⟨next, events, step⟩ | ⟨reason, step⟩ | step⟩
      · simp only [feed_of_malformed stopped, Option.bind_some, Option.map_some]
        rfl
      · rw [feed_cons_ok live step, feed_cons_ok live step, ih, Option.map_bind, Option.bind_map]
        congr 1
        funext r
        simp only [Function.comp_apply, Option.map_map]
        congr 1
        funext s
        simp [before]
      · rw [feed_cons_malformed live step, feed_cons_malformed live step, Option.bind_some,
          feed_of_malformed rfl]
        rfl
      · rw [feed_cons_raised live step, feed_cons_raised live step]
        rfl

/-- A run over a whole text runs over its front. -/
theorem exists_feed_front {st last : ReplyStreamParser} {front back : PyStr}
    {events : List StreamEvent} (run : st.feed (front ++ back) = some (last, events)) :
    ∃ mid one two, st.feed front = some (mid, one) ∧ mid.feed back = some (last, two) ∧
      events = one ++ two := by
  rw [feed_append, Option.bind_eq_some_iff] at run
  obtain ⟨⟨mid, one⟩, first, rest⟩ := run
  obtain ⟨⟨last', two⟩, second, same⟩ := Option.map_eq_some_iff.mp rest
  rw [before, Prod.mk.injEq] at same
  obtain ⟨rfl, rfl⟩ := same
  exact ⟨mid, one, two, first, second, rfl⟩

/-! ### Before the reply -/

/-- The reply has not begun: no value of it is read. -/
structure BeforeReply (st : ReplyStreamParser) : Prop where
  outside : st.inReply = false
  silent : ∀ s, st.str = some s → s.role ≠ .replyText

theorem BeforeReply.init (locale : PyStr) : BeforeReply (init locale) :=
  ⟨rfl, fun _ none => (by cases none)⟩

/-- Finishing a value at the top changes nothing about strings and the reply, and no key is read
after it. -/
theorem finishTopValue_ok {st next : ReplyStreamParser} {events : List StreamEvent}
    (done : st.finishTopValue = .ok (next, events)) :
    next.inReply = st.inReply ∧ next.str = st.str ∧ OnlyKeys events ∧ next.curKey = [] := by
  unfold finishTopValue at done
  cases captured : st.capture with
  | some raw =>
      simp only [captured] at done
      split at done
      · cases done
        exact ⟨rfl, rfl, .keyDone _ _, rfl⟩
      · cases done
  | none =>
      simp only [captured] at done
      split at done
      · cases done
        exact ⟨rfl, rfl, .keyDone _ _, rfl⟩
      · cases done
        exact ⟨rfl, rfl, .nil, rfl⟩

/-- What a character may do before the reply: leave it unbegun, or begin it. -/
def KeepsQuiet (step : Reading) : Prop :=
  ∀ next events, step = .ok (next, events) →
    BeforeReply next ∧ OnlyKeys events ∨ events = [.replyStart]

omit [PyRuntime] in
theorem KeepsQuiet.same {st : ReplyStreamParser} (quiet : BeforeReply st) :
    KeepsQuiet (.ok (st, [])) := by
  intro next events step
  cases step
  exact .inl ⟨quiet, .nil⟩

omit [PyRuntime] in
theorem KeepsQuiet.error (fault : Fault) : KeepsQuiet (.error fault) := by
  intro next events step
  cases step

theorem BeforeReply.finish {st : ReplyStreamParser} (quiet : BeforeReply st) :
    KeepsQuiet st.finishTopValue := by
  intro next events done
  obtain ⟨inReply, str, none, _⟩ := finishTopValue_ok done
  exact .inl ⟨⟨inReply.trans quiet.outside, fun s token => quiet.silent s (str ▸ token)⟩, none⟩

omit [PyRuntime] in
theorem BeforeReply.separator {st : ReplyStreamParser} (quiet : BeforeReply st) (ch : Nat) :
    BeforeReply (st.afterSeparator ch) := by
  unfold afterSeparator
  split
  · exact ⟨quiet.outside, quiet.silent⟩
  · split
    · exact ⟨quiet.outside, quiet.silent⟩
    · exact quiet

omit [PyRuntime] in
theorem BeforeReply.token {st : ReplyStreamParser} (quiet : BeforeReply st) {s : StrToken}
    (other : s.role ≠ .replyText) : BeforeReply { st with str := some s } :=
  ⟨quiet.outside, fun s' token => by cases token; exact other⟩

omit [PyRuntime] in
theorem BeforeReply.closed {st : ReplyStreamParser} (quiet : BeforeReply st) :
    BeforeReply { st with str := none } :=
  ⟨quiet.outside, fun _ token => (by cases token)⟩

omit [PyRuntime] in
theorem emitStr_quiet {st : ReplyStreamParser} (quiet : BeforeReply st) (s : StrToken)
    (other : s.role ≠ .replyText) (c : Nat) : KeepsQuiet (st.emitStr s c) := by
  unfold emitStr
  rw [if_neg other]
  exact .same (quiet.token other)

theorem endString_quiet {st : ReplyStreamParser} (quiet : BeforeReply st) {s : StrToken}
    (other : s.role ≠ .replyText) : KeepsQuiet (st.endString s) := by
  have closed := quiet.closed
  unfold endString
  split
  · exact .same ⟨closed.outside, closed.silent⟩
  · exact .same ⟨closed.outside, closed.silent⟩
  · next role => exact absurd role other
  · exact .same ⟨closed.outside, closed.silent⟩
  · split
    · exact closed.finish
    · exact .same closed

theorem stringChar_quiet {st : ReplyStreamParser} (quiet : BeforeReply st) {s : StrToken}
    (other : s.role ≠ .replyText) (ch : Nat) : KeepsQuiet (st.stringChar s ch) := by
  have kept : BeforeReply
      (if s.role = .capture then { st with capture := st.capture.map (· ++ [ch]) } else st) := by
    split
    · exact ⟨quiet.outside, quiet.silent⟩
    · exact quiet
  unfold stringChar
  simp only
  split
  · split
    · exact .same (kept.token other)
    · exact emitStr_quiet kept { s with esc := none } other _
    · exact .error _
  · split
    · exact .same (kept.token other)
    · split
      · exact endString_quiet kept other
      · exact emitStr_quiet kept s other _

theorem topValueStart_quiet {st : ReplyStreamParser} (quiet : BeforeReply st) (ch : Nat) :
    KeepsQuiet (st.topValueStart ch) := by
  have kept : BeforeReply
      (if st.curKey ∈ keysBeforeReply then { st with capture := some [ch] } else st) := by
    split
    · exact ⟨quiet.outside, quiet.silent⟩
    · exact quiet
  unfold topValueStart
  split
  · -- the reply begins
    intro next events step
    refine .inr ?_
    split at step
    · cases step
      rfl
    · split at step <;> cases step <;> rfl
  · simp only
    split
    · refine .same (kept.token ?_)
      split <;> decide
    · split
      · exact .same ⟨kept.outside, kept.silent⟩
      · split
        · exact .error _
        · exact .same ⟨kept.outside, kept.silent⟩

theorem topChar_quiet {st : ReplyStreamParser} (quiet : BeforeReply st) (ch : Nat) :
    KeepsQuiet (st.topChar ch) := by
  have left : BeforeReply st.leaveObject := ⟨quiet.outside, quiet.silent⟩
  have next : ∀ e, BeforeReply { st with expect := e } := fun e => ⟨quiet.outside, quiet.silent⟩
  unfold topChar
  split
  · exact .same quiet
  · split
    · split
      · exact .same (quiet.token (by decide))
      · split
        · exact .same left
        · exact .error _
    · split
      · exact .same (next _)
      · exact .error _
    · exact topValueStart_quiet quiet ch
    · split
      · intro after events step
        cases done : st.finishTopValue with
        | error fault =>
            rw [done] at step
            cases step
        | ok r =>
            rw [done] at step
            cases step
            rcases quiet.finish r.1 r.2 done with ⟨still, none⟩ | began
            · exact .inl ⟨still.separator ch, none⟩
            · exact .inr began
      · exact .same ⟨quiet.outside, quiet.silent⟩
    · split
      · exact .same (next _)
      · split
        · exact .same left
        · exact .error _
    · exact .same quiet

theorem nestedChar_quiet {st : ReplyStreamParser} (quiet : BeforeReply st) (ch : Nat) :
    KeepsQuiet (st.nestedChar ch) := by
  have kept : BeforeReply { st with capture := st.capture.map (· ++ [ch]) } :=
    ⟨quiet.outside, quiet.silent⟩
  unfold nestedChar
  simp only
  split
  · refine .same (kept.token ?_)
    split <;> decide
  · split
    · exact .same ⟨quiet.outside, quiet.silent⟩
    · split
      · split
        · exact .error _
        · split
          · exact BeforeReply.finish ⟨quiet.outside, quiet.silent⟩
          · exact .same ⟨quiet.outside, quiet.silent⟩
      · exact .same kept

/-- A character before the reply leaves it unbegun, or begins it. -/
theorem char_quiet {st : ReplyStreamParser} (quiet : BeforeReply st) (ch : Nat) :
    KeepsQuiet (st.char ch) := by
  unfold char
  split
  · next s token => exact stringChar_quiet quiet (quiet.silent s token) ch
  · split
    · split
      · exact .same ⟨quiet.outside, quiet.silent⟩
      · exact .same quiet
    · rw [quiet.outside]
      simp only [Bool.false_eq_true, if_false]
      split
      · exact nestedChar_quiet quiet ch
      · exact topChar_quiet quiet ch

/-- The first event about the reply is its beginning. -/
theorem feed_quiet {st last : ReplyStreamParser} {text : PyStr} {events : List StreamEvent}
    (quiet : BeforeReply st) (run : st.feed text = some (last, events)) :
    BeforeReply last ∧ NoReply events ∨
      ∃ front back, events = front ++ .replyStart :: back ∧ NoReply front := by
  induction text generalizing st events with
  | nil =>
      cases run
      exact .inl ⟨quiet, .nil⟩
  | cons ch text ih =>
      rcases feed_cons_cases st ch with
        stopped | ⟨live, ⟨next, here, step⟩ | ⟨reason, step⟩ | step⟩
      · rw [feed_of_malformed stopped] at run
        cases run
        exact .inl ⟨quiet, .nil⟩
      · rw [feed_cons_ok live step] at run
        obtain ⟨⟨last', later⟩, rest, same⟩ := Option.map_eq_some_iff.mp run
        rw [before, Prod.mk.injEq] at same
        obtain ⟨rfl, rfl⟩ := same
        rcases char_quiet quiet ch next here step with ⟨still, none⟩ | rfl
        · rcases ih still rest with ⟨ended, none'⟩ | ⟨front, back, rfl, none'⟩
          · exact .inl ⟨ended, none.noReply.append none'⟩
          · exact .inr ⟨here ++ front, back, by simp, none.noReply.append none'⟩
        · exact .inr ⟨[], later, rfl, .nil⟩
      · rw [feed_cons_malformed live step] at run
        cases run
        refine .inl ⟨⟨quiet.outside, quiet.silent⟩, ?_⟩
        intro e member
        rw [List.mem_singleton.mp member]
        rfl
      · rw [feed_cons_raised live step] at run
        cases run

/-- Where the reply begins: a front in which only keys are reported, and the character after it. -/
theorem exists_begin {st last : ReplyStreamParser} {text : PyStr} {events : List StreamEvent}
    (quiet : BeforeReply st) (run : st.feed text = some (last, events))
    (begun : .replyStart ∈ events) :
    ∃ front ch back mid one next, text = front ++ ch :: back ∧ st.feed front = some (mid, one) ∧
      OnlyKeys one ∧ mid.malformed = none ∧ mid.char ch = .ok (next, [.replyStart]) := by
  induction text generalizing st events with
  | nil =>
      cases run
      cases begun
  | cons ch text ih =>
      rcases feed_cons_cases st ch with
        stopped | ⟨live, ⟨next, here, step⟩ | ⟨reason, step⟩ | step⟩
      · rw [feed_of_malformed stopped] at run
        cases run
        cases begun
      · rcases char_quiet quiet ch next here step with ⟨still, only⟩ | rfl
        · rw [feed_cons_ok live step] at run
          obtain ⟨⟨last', later⟩, rest, same⟩ := Option.map_eq_some_iff.mp run
          rw [before, Prod.mk.injEq] at same
          obtain ⟨rfl, rfl⟩ := same
          have begun' : .replyStart ∈ later := by
            rcases List.mem_append.mp begun with now | later
            · cases only _ now
            · exact later
          obtain ⟨front, ch', back, mid, one, next', rfl, first, keys, live', begins⟩ :=
            ih still rest begun'
          refine ⟨ch :: front, ch', back, mid, here ++ one, next', rfl, ?_, only.append keys,
            live', begins⟩
          rw [feed_cons_ok live step, first]
          rfl
        · exact ⟨[], ch, text, st, [], next, rfl, rfl, .nil, live, step⟩
      · rw [feed_cons_malformed live step] at run
        cases run
        cases List.mem_singleton.mp begun
      · rw [feed_cons_raised live step] at run
        cases run

end ReplyStreamParser

end GhostPour.N400
