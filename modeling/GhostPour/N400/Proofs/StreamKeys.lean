/-
Module: GhostPour.N400.Proofs.StreamKeys
Layer: Proofs
Purpose: Which top-level values the reply reader keeps. A value changes only when its key is reported
  as done, and a key of the checkpoint refusal that is reported is kept.
Trusted boundary: none
Main exports: keyNames, ReplyStreamParser.char_files, ReplyStreamParser.feed_partialObject,
  ReplyStreamParser.feed_keeps
-/
import GhostPour.Library.JsonCanonical
import GhostPour.N400.Proofs.StreamRuns

namespace GhostPour.N400

/-- The names of the keys reported as done. -/
def keyNames : List StreamEvent → List PyStr
  | [] => []
  | .keyDone name _ :: events => name :: keyNames events
  | _ :: events => keyNames events

@[simp] theorem keyNames_append (front back : List StreamEvent) :
    keyNames (front ++ back) = keyNames front ++ keyNames back := by
  induction front with
  | nil => rfl
  | cons e front ih => cases e <;> simp [keyNames, ih]

/-- The keys reported as done after the reply began. -/
def lateKeys : List StreamEvent → List PyStr
  | [] => []
  | .replyStart :: events => keyNames events
  | _ :: events => lateKeys events

namespace ReplyStreamParser

variable [PyRuntime]

/-! ### What a character files -/

/-- Nothing is filed, or the key that is read is reported, with a value if one was captured. -/
inductive Files (st next : ReplyStreamParser) (events : List StreamEvent) : Prop where
  | nothing (values : next.values = st.values) (names : keyNames events = [])
  | skipped (values : next.values = st.values) (names : keyNames events = [st.curKey])
      (uncaptured : st.capture = none)
  | kept (raw : PyStr) (v : Json) (read : loads raw = some v)
      (values : next.values = st.values.set st.curKey v) (names : keyNames events = [st.curKey])

/-- What a character may file. -/
def MayFile (st : ReplyStreamParser) (step : Reading) : Prop :=
  ∀ next events, step = .ok (next, events) → Files st next events

theorem MayFile.nothing {st next : ReplyStreamParser} {events : List StreamEvent}
    (values : next.values = st.values) (names : keyNames events = []) :
    MayFile st (.ok (next, events)) := by
  intro next' events' step
  cases step
  exact .nothing values names

theorem MayFile.error (st : ReplyStreamParser) (fault : Fault) : MayFile st (.error fault) := by
  intro next events step
  cases step

theorem MayFile.finish {st st' : ReplyStreamParser} (values : st'.values = st.values)
    (curKey : st'.curKey = st.curKey) (capture : st'.capture = none → st.capture = none) :
    MayFile st st'.finishTopValue := by
  intro next events done
  unfold finishTopValue at done
  cases captured : st'.capture with
  | some raw =>
      simp only [captured] at done
      split at done
      · next v read =>
        cases done
        exact .kept raw v read (by rw [values, curKey]) (by rw [keyNames, curKey, keyNames])
      · cases done
  | none =>
      simp only [captured] at done
      split at done
      · cases done
        exact .skipped values (by rw [keyNames, curKey, keyNames]) (capture captured)
      · cases done
        exact .nothing values rfl

/-- What is put after or before the report changes nothing about it. -/
theorem MayFile.map {st : ReplyStreamParser} {step : Reading} (files : MayFile st step)
    {f : ReplyStreamParser × List StreamEvent → ReplyStreamParser × List StreamEvent}
    (values : ∀ r, (f r).1.values = r.1.values) (names : ∀ r, keyNames (f r).2 = keyNames r.2) :
    MayFile st (step.map f) := by
  intro next events done
  cases step with
  | error fault => cases done
  | ok r =>
      have same : f r = (next, events) := Except.ok.inj done
      obtain rfl : (f r).1 = next := by rw [same]
      obtain rfl : (f r).2 = events := by rw [same]
      cases files r.1 r.2 rfl with
      | nothing same none => exact .nothing ((values r).trans same) ((names r).trans none)
      | skipped same one un => exact .skipped ((values r).trans same) ((names r).trans one) un
      | kept raw v read set one => exact .kept raw v read ((values r).trans set) ((names r).trans one)

omit [PyRuntime] in
theorem afterSeparator_values (st : ReplyStreamParser) (ch : Nat) :
    (st.afterSeparator ch).values = st.values := by
  unfold afterSeparator
  split
  · rfl
  · split <;> rfl

theorem emitStr_files {st st' : ReplyStreamParser} (values : st'.values = st.values)
    (s : StrToken) (c : Nat) : MayFile st (st'.emitStr s c) := by
  unfold emitStr
  split
  · exact .nothing values rfl
  · exact .nothing values rfl

theorem endString_files {st st' : ReplyStreamParser} (values : st'.values = st.values)
    (curKey : st'.curKey = st.curKey) (capture : st'.capture = none → st.capture = none)
    (s : StrToken) : MayFile st (st'.endString s) := by
  unfold endString
  simp only
  split
  · exact .nothing values rfl
  · exact .nothing values rfl
  · split
    · apply MayFile.map
      · exact .finish values curKey capture
      · exact fun _ => rfl
      · exact fun _ => rfl
    · exact .nothing values rfl
  · exact .nothing values rfl
  · split
    · exact .finish values curKey capture
    · exact .nothing values rfl

theorem stringChar_files (st : ReplyStreamParser) (s : StrToken) (ch : Nat) :
    MayFile st (st.stringChar s ch) := by
  have values : (if s.role = .capture then { st with capture := st.capture.map (· ++ [ch]) }
      else st).values = st.values := by
    split <;> rfl
  have curKey : (if s.role = .capture then { st with capture := st.capture.map (· ++ [ch]) }
      else st).curKey = st.curKey := by
    split <;> rfl
  have capture : (if s.role = .capture then { st with capture := st.capture.map (· ++ [ch]) }
      else st).capture = none → st.capture = none := by
    split
    · exact Option.map_eq_none_iff.mp
    · exact id
  unfold stringChar
  simp only
  split
  · split
    · exact .nothing values rfl
    · exact emitStr_files values _ _
    · exact .error _ _
  · split
    · exact .nothing values rfl
    · split
      · exact endString_files values curKey capture s
      · exact emitStr_files values _ _

theorem topValueStart_files (st : ReplyStreamParser) (ch : Nat) :
    MayFile st (st.topValueStart ch) := by
  have values : (if st.curKey ∈ keysBeforeReply then { st with capture := some [ch] }
      else st).values = st.values := by
    split <;> rfl
  unfold topValueStart
  split
  · split
    · exact .nothing rfl rfl
    · split <;> exact .nothing rfl rfl
  · simp only
    split
    · exact .nothing values rfl
    · split
      · exact .nothing values rfl
      · split
        · exact .error _ _
        · exact .nothing values rfl

theorem topChar_files (st : ReplyStreamParser) (ch : Nat) : MayFile st (st.topChar ch) := by
  unfold topChar
  split
  · exact .nothing rfl rfl
  · split
    · split
      · exact .nothing rfl rfl
      · split
        · exact .nothing rfl rfl
        · exact .error _ _
    · split
      · exact .nothing rfl rfl
      · exact .error _ _
    · exact topValueStart_files st ch
    · split
      · apply MayFile.map
        · exact .finish rfl rfl id
        · exact fun r => afterSeparator_values r.1 ch
        · exact fun _ => rfl
      · exact .nothing rfl rfl
    · split
      · exact .nothing rfl rfl
      · split
        · exact .nothing rfl rfl
        · exact .error _ _
    · exact .nothing rfl rfl

theorem nestedChar_files (st : ReplyStreamParser) (ch : Nat) : MayFile st (st.nestedChar ch) := by
  unfold nestedChar
  simp only
  split
  · exact .nothing rfl rfl
  · split
    · exact .nothing rfl rfl
    · split
      · split
        · exact .error _ _
        · split
          · exact .finish rfl rfl Option.map_eq_none_iff.mp
          · exact .nothing rfl rfl
      · exact .nothing rfl rfl

theorem afterReplyMember_files (st : ReplyStreamParser) (ch : Nat) :
    MayFile st (st.afterReplyMember ch) := by
  unfold afterReplyMember
  split
  · exact .nothing rfl rfl
  · split
    · exact .finish rfl rfl id
    · exact .error _ _

theorem replyChar_files (st : ReplyStreamParser) (ch : Nat) : MayFile st (st.replyChar ch) := by
  unfold replyChar
  split
  · split
    · apply MayFile.map
      · exact .finish rfl rfl id
      · exact fun r => afterSeparator_values r.1 ch
      · exact fun _ => rfl
    · exact .nothing rfl rfl
  · split
    · exact .nothing rfl rfl
    · split
      · split
        · exact .nothing rfl rfl
        · split
          · exact .finish rfl rfl id
          · exact .error _ _
      · split
        · exact .nothing rfl rfl
        · exact .error _ _
      · split
        · exact .nothing rfl rfl
        · split <;> exact .nothing rfl rfl
      · split
        · exact afterReplyMember_files st ch
        · exact .nothing rfl rfl
      · exact afterReplyMember_files st ch
      · exact .nothing rfl rfl

/-- What a character files. -/
theorem char_files (st : ReplyStreamParser) (ch : Nat) : MayFile st (st.char ch) := by
  unfold char
  split
  · exact stringChar_files st _ ch
  · split
    · split <;> exact .nothing rfl rfl
    · split
      · exact replyChar_files st ch
      · split
        · exact nestedChar_files st ch
        · exact topChar_files st ch

/-! ### A key of the refusal is captured -/

/-- Between the name of a key and its value. -/
def BetweenKeyAndValue (st : ReplyStreamParser) : Prop :=
  (st.expect = .colon ∨ st.expect = .value) ∧ st.str = none ∧ st.stack = [] ∧
    st.inReply = false ∧ st.inObject = true

/-- The value of a key of the refusal is captured while it is read. -/
structure Captures (st : ReplyStreamParser) : Prop where
  keyString : ∀ s, st.str = some s → s.role = .key →
    st.stack = [] ∧ st.inReply = false ∧ st.inObject = true
  guarded : st.curKey ∈ keysBeforeReply → st.capture.isSome = true ∨ st.BetweenKeyAndValue

/-- What a step keeps captured. -/
def KeepsCaptures (step : Reading) : Prop :=
  ∀ next events, step = .ok (next, events) → Captures next

omit [PyRuntime] in
theorem KeepsCaptures.ok {next : ReplyStreamParser} (events : List StreamEvent)
    (captures : Captures next) : KeepsCaptures (.ok (next, events)) := by
  intro next' events' step
  cases step
  exact captures

omit [PyRuntime] in
theorem KeepsCaptures.error (fault : Fault) : KeepsCaptures (.error fault) := by
  intro next events step
  cases step

omit [PyRuntime] in
theorem nil_not_guarded : ([] : PyStr) ∉ keysBeforeReply := by decide

omit [PyRuntime] in
/-- A state in which no key is read. -/
theorem Captures.of_curKey {st : ReplyStreamParser} (noKey : st.curKey = [])
    (closed : st.str = none) : Captures st where
  keyString s token := by
    rw [closed] at token
    cases token
  guarded member := absurd (noKey ▸ member) nil_not_guarded

theorem Captures.init (locale : PyStr) : Captures (init locale) := .of_curKey rfl rfl

omit [PyRuntime] in
/-- A state in which the value is captured and no key's name is read. -/
theorem Captures.of_capture {st : ReplyStreamParser}
    (captured : st.curKey ∈ keysBeforeReply → st.capture.isSome = true)
    (noKey : ∀ s, st.str = some s → s.role ≠ .key) : Captures st where
  keyString s token key := absurd key (noKey s token)
  guarded member := .inl (captured member)

theorem KeepsCaptures.finish_map {st : ReplyStreamParser} (closed : st.str = none)
    {f : ReplyStreamParser × List StreamEvent → ReplyStreamParser × List StreamEvent}
    (curKey : ∀ r, (f r).1.curKey = r.1.curKey) (str : ∀ r, (f r).1.str = r.1.str) :
    KeepsCaptures (st.finishTopValue.map f) := by
  intro next events step
  cases done : st.finishTopValue with
  | error fault =>
      rw [done] at step
      cases step
  | ok r =>
      rw [done] at step
      have same : f r = (next, events) := Except.ok.inj step
      obtain rfl : (f r).1 = next := by rw [same]
      obtain ⟨_, strSame, _, none⟩ := finishTopValue_ok done
      exact .of_curKey ((curKey r).trans none) ((str r).trans (strSame.trans closed))

theorem KeepsCaptures.finish {st : ReplyStreamParser} (closed : st.str = none) :
    KeepsCaptures st.finishTopValue := by
  have whole : KeepsCaptures (st.finishTopValue.map id) :=
    .finish_map closed (fun _ => rfl) (fun _ => rfl)
  cases done : st.finishTopValue with
  | error fault => exact .error fault
  | ok r =>
      rw [done] at whole
      exact whole

omit [PyRuntime] in
theorem afterSeparator_curKey (st : ReplyStreamParser) (ch : Nat) :
    (st.afterSeparator ch).curKey = st.curKey := by
  unfold afterSeparator
  split
  · rfl
  · split <;> rfl

omit [PyRuntime] in
theorem afterSeparator_str (st : ReplyStreamParser) (ch : Nat) :
    (st.afterSeparator ch).str = st.str := by
  unfold afterSeparator
  split
  · rfl
  · split <;> rfl

omit [PyRuntime] in
/-- While a string is read, the value it belongs to is captured already. -/
theorem Captures.captured {st : ReplyStreamParser} (captures : Captures st) {s : StrToken}
    (token : st.str = some s) (member : st.curKey ∈ keysBeforeReply) :
    st.capture.isSome = true := by
  rcases captures.guarded member with captured | between
  · exact captured
  · rw [between.2.1] at token
    cases token

theorem stringChar_captures {st : ReplyStreamParser} (captures : Captures st) {s : StrToken}
    (token : st.str = some s) (ch : Nat) : KeepsCaptures (st.stringChar s ch) := by
  obtain ⟨kept, shape⟩ : ∃ kept, kept = (if s.role = .capture then
      { st with capture := st.capture.map (· ++ [ch]) } else st) := ⟨_, rfl⟩
  have stack : kept.stack = st.stack := by rw [shape]; split <;> rfl
  have inReply : kept.inReply = st.inReply := by rw [shape]; split <;> rfl
  have inObject : kept.inObject = st.inObject := by rw [shape]; split <;> rfl
  have curKey : kept.curKey = st.curKey := by rw [shape]; split <;> rfl
  have captured : kept.curKey ∈ keysBeforeReply → kept.capture.isSome = true := by
    intro member
    have := captures.captured token (curKey ▸ member)
    rw [shape]
    split
    · simpa using this
    · exact this
  have goes : ∀ s' : StrToken, s'.role = s.role → Captures { kept with str := some s' } := by
    intro s' role
    refine ⟨fun s'' token' key => ?_, fun member => .inl (captured member)⟩
    cases token'
    have := captures.keyString s token (role ▸ key)
    exact ⟨stack.trans this.1, inReply.trans this.2.1, inObject.trans this.2.2⟩
  have emits : ∀ s' : StrToken, s'.role = s.role → ∀ c, KeepsCaptures (kept.emitStr s' c) := by
    intro s' role c
    unfold emitStr
    split
    · exact .ok _ (goes s' role)
    · exact .ok _ (goes _ role)
  unfold stringChar
  simp only [← shape]
  split
  · split
    · exact .ok _ (goes _ rfl)
    · exact emits { s with esc := none } rfl _
    · exact .error _
  · split
    · exact .ok _ (goes _ rfl)
    · split
      · unfold endString
        simp only
        split
        · next role =>
          have idle := captures.keyString s token role
          refine .ok _ ⟨fun _ none => (by cases none), fun _ => .inr ⟨.inl rfl, rfl, ?_, ?_, ?_⟩⟩
          · exact stack.trans idle.1
          · exact inReply.trans idle.2.1
          · exact inObject.trans idle.2.2
        · exact .ok _ (.of_capture captured fun _ none => (by cases none))
        · split
          · apply KeepsCaptures.finish_map
            · rfl
            · exact fun _ => rfl
            · exact fun _ => rfl
          · exact .ok _ (.of_capture captured fun _ none => (by cases none))
        · exact .ok _ (.of_capture captured fun _ none => (by cases none))
        · split
          · exact .finish rfl
          · exact .ok _ (.of_capture captured fun _ none => (by cases none))
      · exact emits s rfl ch

theorem topValueStart_captures {st : ReplyStreamParser} (closed : st.str = none) (ch : Nat) :
    KeepsCaptures (st.topValueStart ch) := by
  unfold topValueStart
  split
  · next reply =>
    have other : st.curKey ∉ keysBeforeReply := by
      rw [reply]
      decide
    have starts : ∀ next : ReplyStreamParser, next.curKey = st.curKey →
        (∀ s, next.str = some s → s.role ≠ .key) → Captures next := fun next same noKey =>
      .of_capture (fun member => absurd (same ▸ member) other) noKey
    split
    · exact .ok _ (starts _ rfl fun s token => by cases token; decide)
    · split
      · exact .ok _ (starts _ rfl fun s token => by rw [closed] at token; cases token)
      · exact .ok _ (starts _ rfl fun s token => by rw [closed] at token; cases token)
  · obtain ⟨kept, shape⟩ : ∃ kept, kept = (if st.curKey ∈ keysBeforeReply then
        { st with capture := some [ch] } else st) := ⟨_, rfl⟩
    have closed' : kept.str = none := by rw [shape]; split <;> exact closed
    have captured : kept.curKey ∈ keysBeforeReply → kept.capture.isSome = true := by
      rw [shape]
      split
      · exact fun _ => rfl
      · next other => exact fun member => absurd member other
    simp only [← shape]
    split
    · refine .ok _ (.of_capture captured fun s token => ?_)
      cases token
      simp only
      split <;> decide
    · split
      · exact .ok _ (.of_capture captured fun s token => by rw [closed'] at token; cases token)
      · split
        · exact .error _
        · exact .ok _ (.of_capture captured fun s token => by rw [closed'] at token; cases token)

theorem topChar_captures {st : ReplyStreamParser} (captures : Captures st) (closed : st.str = none)
    (flat : st.stack = []) (outside : st.inReply = false) (inside : st.inObject = true) (ch : Nat) :
    KeepsCaptures (st.topChar ch) := by
  -- where no value is about to start, a guarded value is captured
  have captured : st.expect ≠ .colon → st.expect ≠ .value → st.curKey ∈ keysBeforeReply →
      st.capture.isSome = true := by
    intro notColon notValue member
    rcases captures.guarded member with captured | between
    · exact captured
    · rcases between.1 with colon | value
      · exact absurd colon notColon
      · exact absurd value notValue
  have noKey : ∀ s, st.str = some s → s.role ≠ .key := by
    intro s token
    rw [closed] at token
    cases token
  unfold topChar
  split
  · exact .ok _ captures
  · split
    · next expects =>
      have here := captured (by rw [expects]; decide) (by rw [expects]; decide)
      split
      · refine .ok _ ⟨fun s token _ => ⟨flat, outside, inside⟩, fun member => .inl (here member)⟩
      · split
        · exact .ok _ (.of_capture here noKey)
        · exact .error _
    · split
      · exact .ok _ ⟨fun s token => absurd token (by simp [closed]),
          fun _ => .inr ⟨.inr rfl, closed, flat, outside, inside⟩⟩
      · exact .error _
    · exact topValueStart_captures closed ch
    · next expects =>
      have here := captured (by rw [expects]; decide) (by rw [expects]; decide)
      split
      · apply KeepsCaptures.finish_map
        · exact closed
        · exact fun r => afterSeparator_curKey r.1 ch
        · exact fun r => afterSeparator_str r.1 ch
      · exact .ok _ (.of_capture (fun member => by simpa using here member) noKey)
    · next expects =>
      have here := captured (by rw [expects]; decide) (by rw [expects]; decide)
      split
      · exact .ok _ (.of_capture here noKey)
      · split
        · exact .ok _ (.of_capture here noKey)
        · exact .error _
    · exact .ok _ captures

theorem nestedChar_captures {st : ReplyStreamParser} (captures : Captures st)
    (closed : st.str = none) (deep : st.stack ≠ []) (ch : Nat) :
    KeepsCaptures (st.nestedChar ch) := by
  have captured : st.curKey ∈ keysBeforeReply →
      (st.capture.map (· ++ [ch])).isSome = true := by
    intro member
    rcases captures.guarded member with captured | between
    · simpa using captured
    · exact absurd between.2.2.1 deep
  have noKey : ∀ s, st.str = some s → s.role ≠ .key := by
    intro s token
    rw [closed] at token
    cases token
  unfold nestedChar
  simp only
  split
  · refine .ok _ (.of_capture captured fun s token => ?_)
    cases token
    simp only
    split <;> decide
  · split
    · exact .ok _ (.of_capture captured noKey)
    · split
      · split
        · exact .error _
        · split
          · exact .finish closed
          · exact .ok _ (.of_capture captured noKey)
      · exact .ok _ (.of_capture captured noKey)

theorem afterReplyMember_captures {st : ReplyStreamParser} (closed : st.str = none)
    (captured : st.curKey ∈ keysBeforeReply → st.capture.isSome = true) (ch : Nat) :
    KeepsCaptures (st.afterReplyMember ch) := by
  unfold afterReplyMember
  split
  · exact .ok _ (.of_capture captured fun s token => by rw [closed] at token; cases token)
  · split
    · exact .finish closed
    · exact .error _

theorem replyChar_captures {st : ReplyStreamParser} (captures : Captures st)
    (closed : st.str = none) (inside : st.inReply = true) (ch : Nat) :
    KeepsCaptures (st.replyChar ch) := by
  have captured : st.curKey ∈ keysBeforeReply → st.capture.isSome = true := by
    intro member
    rcases captures.guarded member with captured | between
    · exact captured
    · rw [between.2.2.2.1] at inside
      cases inside
  have noKey : ∀ s, st.str = some s → s.role ≠ .key := by
    intro s token
    rw [closed] at token
    cases token
  unfold replyChar
  split
  · split
    · apply KeepsCaptures.finish_map
      · exact closed
      · exact fun r => afterSeparator_curKey r.1 ch
      · exact fun r => afterSeparator_str r.1 ch
    · exact .ok _ captures
  · split
    · exact .ok _ captures
    · split
      · split
        · exact .ok _ (.of_capture captured fun s token => by cases token; decide)
        · split
          · exact .finish closed
          · exact .error _
      · split
        · exact .ok _ (.of_capture captured noKey)
        · exact .error _
      · split
        · refine .ok _ (.of_capture captured fun s token => ?_)
          cases token
          simp only
          split <;> decide
        · split <;> exact .ok _ (.of_capture captured noKey)
      · split
        · exact afterReplyMember_captures closed captured ch
        · exact .ok _ captures
      · exact afterReplyMember_captures closed captured ch
      · exact .ok _ captures

theorem char_captures {st : ReplyStreamParser} (captures : Captures st) (ch : Nat) :
    KeepsCaptures (st.char ch) := by
  unfold char
  split
  · next s token => exact stringChar_captures captures token ch
  · next closed =>
    split
    · next away =>
      split
      · refine .ok _ ⟨fun s token => (by rw [closed] at token; cases token), fun member => ?_⟩
        rcases captures.guarded member with captured | between
        · exact .inl captured
        · rw [between.2.2.2.2] at away
          cases away
      · exact .ok _ captures
    · next here =>
      split
      · next inside => exact replyChar_captures captures closed inside ch
      · next outside =>
        split
        · next deep => exact nestedChar_captures captures closed deep ch
        · next flat =>
          exact topChar_captures captures closed (not_not.mp flat) (by simpa using outside)
            (by simpa using here) ch

/-- Before the value nothing is filed. -/
theorem keyNames_between {st next : ReplyStreamParser} {ch : Nat} {events : List StreamEvent}
    (between : st.BetweenKeyAndValue) (step : st.char ch = .ok (next, events)) :
    keyNames events = [] := by
  obtain ⟨expects, closed, flat, outside, inside⟩ := between
  have top : st.char ch = st.topChar ch := by
    simp only [char, closed, flat, outside, inside, ne_eq, not_true_eq_false, if_false,
      Bool.false_eq_true, Bool.true_eq_false]
  rw [top, topChar] at step
  split at step
  · cases step
    rfl
  · rcases expects with expects | expects <;> rw [expects] at step <;> simp only at step
    · split at step <;> cases step
      rfl
    · unfold topValueStart at step
      split at step
      · split at step
        · cases step
          rfl
        · split at step <;> cases step <;> rfl
      · simp only at step
        split at step
        · cases step
          rfl
        · split at step
          · cases step
            rfl
          · split at step <;> cases step
            rfl

/-! ### Runs -/

/-- Induction over a run: a property of the start, the end and the events between. -/
theorem feed_induction {P : ReplyStreamParser → ReplyStreamParser → List StreamEvent → Prop}
    (stop : ∀ st reason, P st st [] ∧
      P st { st with malformed := some reason } [.malformed reason])
    (go : ∀ st next last ch one two, st.char ch = .ok (next, one) → P next last two →
      P st last (one ++ two))
    {st last : ReplyStreamParser} {text : PyStr} {events : List StreamEvent}
    (run : st.feed text = some (last, events)) : P st last events := by
  induction text generalizing st events with
  | nil =>
      cases run
      exact (stop _ []).1
  | cons ch text ih =>
      rcases feed_cons_cases st ch with
        stopped | ⟨live, ⟨next, here, step⟩ | ⟨reason, step⟩ | step⟩
      · rw [feed_of_malformed stopped] at run
        cases run
        exact (stop _ []).1
      · rw [feed_cons_ok live step] at run
        obtain ⟨⟨last', later⟩, rest, same⟩ := Option.map_eq_some_iff.mp run
        rw [before, Prod.mk.injEq] at same
        obtain ⟨rfl, rfl⟩ := same
        exact go st next last' ch here later step (ih rest)
      · rw [feed_cons_malformed live step] at run
        cases run
        exact (stop st reason).2
      · rw [feed_cons_raised live step] at run
        cases run

omit [PyRuntime] in
theorem filter_set_of_not_guarded (d : Dict) {key : PyStr} (other : key ∉ keysBeforeReply)
    (v : Json) : (d.set key v).filter (fun m => decide (m.1 ∈ keysBeforeReply)) =
      d.filter fun m => decide (m.1 ∈ keysBeforeReply) := by
  induction d with
  | nil => simp [Dict.set, other]
  | cons m d ih =>
      obtain ⟨k, w⟩ := m
      rw [Dict.set]
      split
      · next same => simp [same, other]
      · rw [List.filter_cons, List.filter_cons, ih]

omit [PyRuntime] in
theorem has_set (d : Dict) (key : PyStr) (v : Json) (k : PyStr) :
    (d.set key v).has k = (key == k || d.has k) := by
  induction d with
  | nil => simp [Dict.set, Dict.has]
  | cons m d ih =>
      obtain ⟨k', w⟩ := m
      rw [Dict.set]
      split
      · next same => simp [Dict.has, same]
      · simp only [Dict.has, ih]
        cases k' == k <;> cases key == k <;> rfl

/-- Only a report of one of its keys changes what the refusal reads. -/
theorem feed_partialObject {st last : ReplyStreamParser} {text : PyStr} {events : List StreamEvent}
    (run : st.feed text = some (last, events)) :
    (∀ name ∈ keyNames events, name ∉ keysBeforeReply) → last.partialObject = st.partialObject := by
  refine feed_induction (P := fun st last events =>
    (∀ name ∈ keyNames events, name ∉ keysBeforeReply) → last.partialObject = st.partialObject)
    (fun st reason => ⟨fun _ => rfl, fun _ => rfl⟩) ?_ run
  intro st next last ch one two step rest others
  rw [keyNames_append] at others
  have later := rest fun name member => others name (List.mem_append_right _ member)
  rw [later]
  cases char_files st ch next one step with
  | nothing values _ => rw [partialObject, partialObject, values]
  | skipped values _ _ => rw [partialObject, partialObject, values]
  | kept raw v _ values names =>
      rw [partialObject, partialObject, values]
      exact filter_set_of_not_guarded _ (others _ (by simp [names])) v

/-- A value that is kept stays. -/
theorem feed_has_mono {st last : ReplyStreamParser} {text : PyStr} {events : List StreamEvent}
    (run : st.feed text = some (last, events)) (key : PyStr) :
    st.values.has key = true → last.values.has key = true := by
  refine feed_induction (P := fun st last _ =>
    st.values.has key = true → last.values.has key = true)
    (fun st reason => ⟨id, id⟩) ?_ run
  intro st next last ch one two step rest here
  refine rest ?_
  cases char_files st ch next one step with
  | nothing values _ => rw [values, here]
  | skipped values _ _ => rw [values, here]
  | kept raw v _ values _ => rw [values, has_set, here, Bool.or_true]

/-- A value is kept only when its key is reported. -/
theorem feed_has_reported {st last : ReplyStreamParser} {text : PyStr} {events : List StreamEvent}
    (run : st.feed text = some (last, events)) (key : PyStr) :
    last.values.has key = true → st.values.has key = true ∨ key ∈ keyNames events := by
  refine feed_induction (P := fun st last events =>
    last.values.has key = true → st.values.has key = true ∨ key ∈ keyNames events)
    (fun st reason => ⟨.inl, .inl⟩) ?_ run
  intro st next last ch one two step rest here
  rw [keyNames_append]
  rcases rest here with before | later
  · cases char_files st ch next one step with
    | nothing values _ => exact .inl (values ▸ before)
    | skipped values _ _ => exact .inl (values ▸ before)
    | kept raw v _ values names =>
        rw [values, has_set, Bool.or_eq_true, beq_iff_eq] at before
        rcases before with same | before
        · exact .inr (List.mem_append_left _ (by simp [names, same]))
        · exact .inl before
  · exact .inr (List.mem_append_right _ later)

/-- A key of the refusal that is reported is kept. -/
theorem feed_keeps {st last : ReplyStreamParser} {text : PyStr} {events : List StreamEvent}
    (run : st.feed text = some (last, events)) : Captures st →
    Captures last ∧ ∀ name ∈ keyNames events, name ∈ keysBeforeReply →
      last.values.has name = true := by
  induction text generalizing st events with
  | nil =>
      cases run
      exact fun captures => ⟨captures, fun _ none => (by cases none)⟩
  | cons ch text ih =>
      intro captures
      rcases feed_cons_cases st ch with
        stopped | ⟨live, ⟨next, here, step⟩ | ⟨reason, step⟩ | step⟩
      · rw [feed_of_malformed stopped] at run
        cases run
        exact ⟨captures, fun _ none => (by cases none)⟩
      · rw [feed_cons_ok live step] at run
        obtain ⟨⟨last', later⟩, rest, same⟩ := Option.map_eq_some_iff.mp run
        rw [before, Prod.mk.injEq] at same
        obtain ⟨rfl, rfl⟩ := same
        obtain ⟨captures', kept⟩ := ih rest (char_captures captures ch next here step)
        refine ⟨captures', fun name member guarded => ?_⟩
        rw [keyNames_append] at member
        rcases List.mem_append.mp member with now | later
        · refine feed_has_mono rest name ?_
          cases char_files st ch next here step with
          | nothing _ names => rw [names] at now; cases now
          | skipped _ names uncaptured =>
              rw [names, List.mem_singleton] at now
              rcases captures.guarded (now ▸ guarded) with captured | between
              · rw [uncaptured] at captured
                cases captured
              · rw [keyNames_between between step] at names
                cases names
          | kept raw v _ values names =>
              rw [names, List.mem_singleton] at now
              rw [values, has_set, now]
              simp
        · exact kept name later guarded
      · rw [feed_cons_malformed live step] at run
        cases run
        exact ⟨⟨captures.keyString, captures.guarded⟩, fun _ none => (by cases none)⟩
      · rw [feed_cons_raised live step] at run
        cases run

end ReplyStreamParser

end GhostPour.N400
