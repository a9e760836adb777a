/-
Module: GhostPour.N400.Proofs.Chunking
Layer: Proofs
Purpose: When a turn does not depend on where the network cut its text. The policy looks at the
  reader's values after a whole delta, so it matters whether a key of the checkpoint refusal is still
  read after the reply began.
Trusted boundary: none
Main exports: ChunkSafe, KeptOnce, release_chunking
-/
import GhostPour.N400.Proofs.StreamKeys
import GhostPour.N400.ReleaseController

namespace GhostPour.N400

/-! ### Late keys -/

theorem lateKeys_append_of_begun {front : List StreamEvent} (begun : .replyStart ∈ front)
    (back : List StreamEvent) : lateKeys (front ++ back) = lateKeys front ++ keyNames back := by
  induction front with
  | nil => cases begun
  | cons e front ih =>
      cases e with
      | replyStart => simp only [List.cons_append, lateKeys, keyNames_append]
      | keyDone name v => simpa [lateKeys] using ih (by simpa using begun)
      | replyText chunk => simpa [lateKeys] using ih (by simpa using begun)
      | replyEnd => simpa [lateKeys] using ih (by simpa using begun)
      | malformed reason => simpa [lateKeys] using ih (by simpa using begun)

theorem lateKeys_begin {front : List StreamEvent} (quiet : NoReply front)
    (back : List StreamEvent) : lateKeys (front ++ .replyStart :: back) = keyNames back := by
  induction front with
  | nil => rfl
  | cons e front ih =>
      have rest := ih fun e member => quiet e (List.mem_cons_of_mem _ member)
      cases e with
      | replyStart => cases quiet .replyStart (List.mem_cons_self ..)
      | keyDone name v => exact rest
      | replyText chunk => exact rest
      | replyEnd => exact rest
      | malformed reason => exact rest

/-! ### The policy and the reader -/

section
variable [PyRuntime]

/-- Put releases before those of a run. -/
def beforeReleases (out : List Release) (r : ReleaseState × List Release) :
    ReleaseState × List Release := (r.1, out ++ r.2)

theorem handleEvents_cons (locale : PyStr) (agenda knownFacts : Option PyStr)
    (parser : ReplyStreamParser) (st : ReleaseState) (e : StreamEvent) (events : List StreamEvent) :
    handleEvents locale agenda knownFacts parser st (e :: events) =
      (handleEvent locale agenda knownFacts parser st e).bind fun r =>
        if r.1.bufferedReason.isSome then some r
        else (handleEvents locale agenda knownFacts parser r.1 events).map (beforeReleases r.2) := by
  rw [handleEvents]
  cases handleEvent locale agenda knownFacts parser st e with
  | none => rfl
  | some r =>
      simp only [Option.bind_eq_bind, Option.bind_some]
      split
      · rfl
      · cases handleEvents locale agenda knownFacts parser r.1 events <;> rfl

/-- The events of a text are the events of its parts. -/
theorem handleEvents_append (locale : PyStr) (agenda knownFacts : Option PyStr)
    (parser : ReplyStreamParser) (front back : List StreamEvent) {st : ReleaseState}
    (live : st.bufferedReason = none) :
    handleEvents locale agenda knownFacts parser st (front ++ back) =
      (handleEvents locale agenda knownFacts parser st front).bind fun r =>
        if r.1.bufferedReason.isSome then some r
        else (handleEvents locale agenda knownFacts parser r.1 back).map (beforeReleases r.2) := by
  induction front generalizing st with
  | nil =>
      rw [List.nil_append, handleEvents, Option.bind_some, live]
      cases handleEvents locale agenda knownFacts parser st back <;> rfl
  | cons e front ih =>
      rw [List.cons_append, handleEvents_cons, handleEvents_cons]
      cases handleEvent locale agenda knownFacts parser st e with
      | none => rfl
      | some r =>
          rw [Option.bind_some, Option.bind_some]
          cases reason : r.1.bufferedReason with
          | some text => simp [reason]
          | none =>
              simp only [Option.isSome_none, Bool.false_eq_true, if_false]
              rw [ih reason, Option.map_bind, Option.bind_map]
              congr 1
              funext s
              cases reason' : s.1.bufferedReason with
              | some text => simp [beforeReleases, reason']
              | none =>
                  simp only [Function.comp_apply, beforeReleases, reason', Option.isSome_none,
                    Bool.false_eq_true, if_false, Option.map_map]
                  congr 1
                  funext t
                  simp [beforeReleases]

omit [PyRuntime] in
theorem get_partialObject (parser : ReplyStreamParser) {key : PyStr}
    (guarded : key ∈ keysBeforeReply) : parser.values.get key = parser.partialObject.get key := by
  rw [ReplyStreamParser.partialObject]
  induction parser.values with
  | nil => rfl
  | cons m d ih =>
      obtain ⟨k, v⟩ := m
      rw [List.filter_cons]
      by_cases same : k = key
      · rw [if_pos (by simpa [same] using guarded), Dict.get, Dict.get, if_pos same, if_pos same]
      · rw [Dict.get, if_neg same, ih]
        split
        · rw [Dict.get, if_neg same]
        · rfl

omit [PyRuntime] in
theorem has_partialObject (parser : ReplyStreamParser) {key : PyStr}
    (guarded : key ∈ keysBeforeReply) : parser.values.has key = parser.partialObject.has key := by
  rw [ReplyStreamParser.partialObject]
  induction parser.values with
  | nil => rfl
  | cons m d ih =>
      obtain ⟨k, v⟩ := m
      rw [List.filter_cons, Dict.has, ih]
      by_cases same : k = key
      · rw [if_pos (by simpa [same] using guarded), Dict.has]
      · split
        · rw [Dict.has]
        · simp [same]

omit [PyRuntime] in
theorem missingKeys_partialObject (parser : ReplyStreamParser) :
    missingKeys parser.values = missingKeys parser.partialObject :=
  List.filter_congr fun _ guarded => by rw [has_partialObject parser guarded]

/-- The policy sees of the reader only the values of the keys the refusal reads. -/
theorem handleEvent_congr (locale : PyStr) (agenda knownFacts : Option PyStr)
    {parser parser' : ReplyStreamParser} (same : parser.partialObject = parser'.partialObject) :
    handleEvent locale agenda knownFacts parser = handleEvent locale agenda knownFacts parser' := by
  have facts : parser.values.get (py "facts") = parser'.values.get (py "facts") := by
    rw [get_partialObject parser (by decide), get_partialObject parser' (by decide), same]
  funext st e
  cases e with
  | malformed reason => rfl
  | keyDone name v => rfl
  | replyStart =>
      rw [handleEvent, handleEvent, missingKeys_partialObject parser,
        missingKeys_partialObject parser', checkpointRefused, checkpointRefused, same]
  | replyText chunk => simp only [handleEvent, facts]
  | replyEnd => simp only [handleEvent, facts]

theorem handleEvents_congr (locale : PyStr) (agenda knownFacts : Option PyStr)
    {parser parser' : ReplyStreamParser} (same : parser.partialObject = parser'.partialObject)
    (st : ReleaseState) (events : List StreamEvent) :
    handleEvents locale agenda knownFacts parser st events =
      handleEvents locale agenda knownFacts parser' st events := by
  induction events generalizing st with
  | nil => rfl
  | cons e events ih => simp only [handleEvents_cons, handleEvent_congr _ _ _ same, ih]

/-- Before the reply the policy sees nothing of the reader. -/
theorem handleEvents_quiet (locale : PyStr) (agenda knownFacts : Option PyStr)
    (parser parser' : ReplyStreamParser) {events : List StreamEvent} (quiet : NoReply events)
    (st : ReleaseState) :
    handleEvents locale agenda knownFacts parser st events =
      handleEvents locale agenda knownFacts parser' st events := by
  induction events generalizing st with
  | nil => rfl
  | cons e events ih =>
      have rest := ih fun e member => quiet e (List.mem_cons_of_mem _ member)
      have here : handleEvent locale agenda knownFacts parser st e =
          handleEvent locale agenda knownFacts parser' st e := by
        cases e with
        | malformed reason => rfl
        | keyDone name v => rfl
        | replyStart => cases quiet .replyStart (List.mem_cons_self ..)
        | replyText chunk => cases quiet (.replyText chunk) (List.mem_cons_self ..)
        | replyEnd => cases quiet .replyEnd (List.mem_cons_self ..)
      simp only [handleEvents_cons, here, rest]

/-! ### Cuts -/

/-- The reader's run over a text. -/
def readText (locale text : PyStr) : Py (ReplyStreamParser × List StreamEvent) :=
  (ReplyStreamParser.init (streamLocale locale)).feed text

/-- A text that is buffered from the start, or that the reader reads without an exception and in
which no key of the checkpoint refusal is finished after the reply began. -/
def ChunkSafe (locale : PyStr) (agenda : Option PyStr) (text : PyStr) : Prop :=
  agendaCarriesOath agenda = true ∨
    ∃ r, readText locale text = some r ∧ ∀ name ∈ lateKeys r.2, name ∉ keysBeforeReply

/-- The state a run of the policy ends in, and what it released. -/
def stateOf (r : ReleaseController × List Release) : ReleaseState × List Release := (r.1.state, r.2)

theorem feedAll_cons (c : ReleaseController) (delta : PyStr) (deltas : List PyStr) :
    c.feedAll (delta :: deltas) = (c.feed delta).bind fun r =>
      (r.1.feedAll deltas).map fun s => (s.1, r.2 ++ s.2) := by
  rw [ReleaseController.feedAll]
  cases c.feed delta with
  | none => rfl
  | some r =>
      simp only [Option.bind_eq_bind, Option.bind_some]
      cases r.1.feedAll deltas <;> rfl

theorem feed_of_live {c : ReleaseController} (live : c.state.bufferedReason = none)
    (delta : PyStr) : c.feed delta = (c.parser.feed delta).bind fun p =>
      (handleEvents c.locale c.agenda c.knownFacts p.1 c.state p.2).map fun r =>
        ({ c with parser := p.1, state := r.1 }, r.2) := by
  rw [ReleaseController.feed, live]
  cases c.parser.feed delta with
  | none => rfl
  | some p =>
      simp only [Option.bind_eq_bind, Option.bind_some, Option.isSome_none, Bool.false_eq_true,
        if_false]
      cases handleEvents c.locale c.agenda c.knownFacts p.1 c.state p.2 <;> rfl

theorem feedAll_buffered {c : ReleaseController} (stopped : c.state.bufferedReason.isSome = true)
    (deltas : List PyStr) : c.feedAll deltas = some (c, []) := by
  induction deltas with
  | nil => rfl
  | cons delta deltas ih =>
      rw [feedAll_cons, ReleaseController.feed, if_pos stopped, Option.bind_some, ih]
      rfl

/-- In a safe text every cut is the policy on the whole text's events. -/
theorem feedAll_eq (start : ReplyStreamParser) (quiet : start.BeforeReply) (deltas : List PyStr) :
    ∀ (c : ReleaseController) (past : PyStr) (earlier later : List StreamEvent)
      (last : ReplyStreamParser), c.state.bufferedReason = none →
      start.feed past = some (c.parser, earlier) →
      c.parser.feed deltas.flatten = some (last, later) →
      (∀ name ∈ lateKeys (earlier ++ later), name ∉ keysBeforeReply) →
      (c.feedAll deltas).map stateOf =
        handleEvents c.locale c.agenda c.knownFacts last c.state later := by
  induction deltas with
  | nil =>
      intro c past earlier later last live begun rest safe
      cases rest
      rfl
  | cons delta deltas ih =>
      intro c past earlier later last live begun rest safe
      rw [List.flatten_cons] at rest
      obtain ⟨mid, one, two, first, second, rfl⟩ := ReplyStreamParser.exists_feed_front rest
      have sofar : start.feed (past ++ delta) = some (mid, earlier ++ one) := by
        rw [ReplyStreamParser.feed_append, begun, Option.bind_some, first]
        rfl
      -- what the policy sees after this delta is what it would see at the end
      have seen : handleEvents c.locale c.agenda c.knownFacts mid c.state one =
          handleEvents c.locale c.agenda c.knownFacts last c.state one := by
        by_cases replied : StreamEvent.replyStart ∈ earlier ++ one
        · refine handleEvents_congr _ _ _ (Eq.symm ?_) _ _
          refine ReplyStreamParser.feed_partialObject second fun name member => safe name ?_
          rw [← List.append_assoc, lateKeys_append_of_begun replied]
          exact List.mem_append_right _ member
        · refine handleEvents_quiet _ _ _ _ _ (fun e member => ?_) _
          rcases ReplyStreamParser.feed_quiet quiet sofar with ⟨_, none⟩ | ⟨front, back, split, _⟩
          · exact none e (List.mem_append_right _ member)
          · exact absurd (by simp [split]) replied
      rw [handleEvents_append _ _ _ _ _ _ live, ← seen, feedAll_cons, feed_of_live live, first,
        Option.bind_some, Option.bind_map, Option.map_bind]
      congr 1
      funext r
      simp only [Function.comp_apply]
      cases reason : r.1.bufferedReason with
      | some text =>
          have stopped : ({ c with parser := mid, state := r.1 } :
              ReleaseController).state.bufferedReason.isSome = true := by simp [reason]
          rw [feedAll_buffered stopped, if_pos Option.isSome_some]
          simp [stateOf]
      | none =>
          have rest' := ih { c with parser := mid, state := r.1 } (past ++ delta)
            (earlier ++ one) two last reason sofar second (by rwa [List.append_assoc])
          rw [if_neg (by simp), ← rest', Option.map_map, Option.map_map]
          rfl

/-- A turn whose policy starts live is the policy on the whole text's events. -/
theorem releaseRun_of_events {locale : PyStr} {agenda : Option PyStr} (knownFacts : Option PyStr)
    {text : PyStr} {r : ReplyStreamParser × List StreamEvent}
    (noOath : agendaCarriesOath agenda = false) (read : readText locale text = some r)
    (safe : ∀ name ∈ lateKeys r.2, name ∉ keysBeforeReply) {deltas : List PyStr}
    (whole : deltas.flatten = text) :
    releaseRun locale agenda knownFacts deltas =
      (handleEvents (streamLocale locale) agenda knownFacts r.1
        (ReleaseController.init locale agenda knownFacts).state r.2).map
        fun s => (s.2, s.1.close) := by
  have run := feedAll_eq (.init (streamLocale locale)) (.init _) deltas
    (.init locale agenda knownFacts) [] [] r.2 r.1 (by simp [ReleaseController.init, noOath]) rfl
    (by rw [whole]; exact read) safe
  rw [releaseRun, ← show (ReleaseController.init locale agenda knownFacts).locale =
    streamLocale locale from rfl]
  rw [show handleEvents (ReleaseController.init locale agenda knownFacts).locale agenda knownFacts
    r.1 (ReleaseController.init locale agenda knownFacts).state r.2 = _ from run.symm, Option.map_map]
  rfl

/-- Every cut of a safe text gives what the uncut text gives. -/
theorem releaseRun_of_safe {locale : PyStr} {agenda : Option PyStr} (knownFacts : Option PyStr)
    {text : PyStr} (safe : ChunkSafe locale agenda text) {deltas : List PyStr}
    (whole : deltas.flatten = text) :
    releaseRun locale agenda knownFacts deltas = releaseRun locale agenda knownFacts [text] := by
  cases oath : agendaCarriesOath agenda with
  | true =>
      have stopped : (ReleaseController.init locale agenda knownFacts).state.bufferedReason.isSome =
          true := by simp [ReleaseController.init, oath]
      rw [releaseRun, releaseRun, feedAll_buffered stopped, feedAll_buffered stopped]
  | false =>
      rcases safe with carries | ⟨r, read, safe⟩
      · rw [oath] at carries
        cases carries
      · rw [releaseRun_of_events knownFacts oath read safe whole,
          releaseRun_of_events knownFacts oath read safe (List.flatten_singleton ..)]

/-! ### Why a turn was buffered -/

/-- The turn was not buffered because the reply came before a key. -/
def NotEarly (st : ReleaseState) : Prop :=
  ∀ reason, st.bufferedReason = some reason → reason.head? ≠ (py "r").head?

omit [PyRuntime] in
theorem NotEarly.buffer {st : ReleaseState} (before : NotEarly st) {reason : PyStr}
    (other : reason.head? ≠ (py "r").head?) : NotEarly (st.buffer reason) := by
  unfold ReleaseState.buffer
  split
  · exact before
  · intro given same
    cases same
    exact other

omit [PyRuntime] in
theorem NotEarly.releasePending {st : ReleaseState} (before : NotEarly st) (locale : PyStr) :
    NotEarly (st.releasePending locale).1 := by
  unfold ReleaseState.releasePending
  split
  · exact before
  · exact before

/-- What a stretch of events may do to the reason. -/
def StaysNotEarly (step : Releasing) : Prop := ∀ r, step = some r → NotEarly r.1

omit [PyRuntime] in
theorem StaysNotEarly.same {st : ReleaseState} (before : NotEarly st) (out : List Release) :
    StaysNotEarly (some (st, out)) := by
  intro r same
  cases same
  exact before

theorem splitEvents_started (locale : PyStr) (facts : Json) (st : ReleaseState)
    (events : List SplitEvent) : splitEvents locale facts st (.started :: events) =
      (splitEvents locale facts (st.releasePending locale).1 events).map
        (beforeReleases (st.releasePending locale).2) := by
  rw [splitEvents]
  obtain ⟨next, out⟩ := st.releasePending locale
  simp only
  cases splitEvents locale facts next events <;> rfl

theorem splitEvents_sentence (locale : PyStr) (facts : Json) (st : ReleaseState) (text : PyStr)
    (events : List SplitEvent) : splitEvents locale facts st (.sentence text :: events) =
      (admitSentence locale facts st text).bind fun next =>
        if next.bufferedReason.isSome then some (next, [])
        else splitEvents locale facts next events := rfl

theorem closeEvents_sentence (locale : PyStr) (facts : Json) (st : ReleaseState) (text : PyStr)
    (events : List SplitEvent) : closeEvents locale facts st (.sentence text :: events) =
      if admits locale text then
        (correctSentence facts text).bind fun fixed =>
          (closeEvents locale facts { (st.releasePending locale).1 with pending := some fixed }
            events).map (beforeReleases (st.releasePending locale).2)
      else some (st.buffer (py "oath_modification"), []) := by
  rw [closeEvents]
  split
  · obtain ⟨next, out⟩ := st.releasePending locale
    cases correctSentence facts text with
    | none => rfl
    | some fixed =>
        simp only [Option.bind_eq_bind, Option.bind_some]
        cases closeEvents locale facts { next with pending := some fixed } events <;> rfl
  · rfl

theorem admitSentence_notEarly {locale : PyStr} {facts : Json} {st next : ReleaseState}
    {sentence : PyStr} (before : NotEarly st)
    (step : admitSentence locale facts st sentence = some next) : NotEarly next := by
  unfold admitSentence at step
  split at step
  · obtain ⟨text, _, rfl⟩ := Option.map_eq_some_iff.mp step
    exact before
  · cases step
    exact before.buffer (by decide)

theorem splitEvents_notEarly (locale : PyStr) (facts : Json) (events : List SplitEvent) :
    ∀ st, NotEarly st → StaysNotEarly (splitEvents locale facts st events) := by
  induction events with
  | nil => exact fun st before => .same before []
  | cons e events ih =>
      intro st before r run
      cases e with
      | started =>
          rw [splitEvents_started] at run
          obtain ⟨last, rest, rfl⟩ := Option.map_eq_some_iff.mp run
          exact ih _ (before.releasePending locale) last rest
      | sentence text =>
          rw [splitEvents_sentence] at run
          obtain ⟨next, admitted, rest⟩ := Option.bind_eq_some_iff.mp run
          have here := admitSentence_notEarly before admitted
          split at rest
          · cases rest
            exact here
          · exact ih _ here _ rest

theorem closeEvents_notEarly (locale : PyStr) (facts : Json) (events : List SplitEvent) :
    ∀ st, NotEarly st → StaysNotEarly (closeEvents locale facts st events) := by
  induction events with
  | nil => exact fun st before => .same before []
  | cons e events ih =>
      intro st before r run
      cases e with
      | started => exact ih st before r run
      | sentence text =>
          rw [closeEvents_sentence] at run
          split at run
          · obtain ⟨fixed, _, rest⟩ := Option.bind_eq_some_iff.mp run
            obtain ⟨last, closed, rfl⟩ := Option.map_eq_some_iff.mp rest
            exact ih { (st.releasePending locale).1 with pending := some fixed }
              (before.releasePending locale) last closed
          · cases run
            exact before.buffer (by decide)

/-- When no key is missing, no event buffers the turn for coming too early. -/
theorem handleEvent_notEarly (locale : PyStr) (agenda knownFacts : Option PyStr)
    {parser : ReplyStreamParser} (complete : missingKeys parser.values = []) {st : ReleaseState}
    (before : NotEarly st) (e : StreamEvent) :
    StaysNotEarly (handleEvent locale agenda knownFacts parser st e) := by
  cases e with
  | keyDone name v => exact .same before []
  | malformed reason => exact .same (before.buffer (by simp [py])) []
  | replyStart =>
      rw [handleEvent, if_neg (not_not.mpr complete)]
      intro r run
      obtain ⟨refused, _, rfl⟩ := Option.map_eq_some_iff.mp run
      cases refused with
      | true => exact before.buffer (by decide)
      | false => exact before
  | replyText chunk => exact splitEvents_notEarly _ _ _ _ before
  | replyEnd => exact closeEvents_notEarly _ _ _ _ before

theorem handleEvents_notEarly (locale : PyStr) (agenda knownFacts : Option PyStr)
    {parser : ReplyStreamParser} (complete : missingKeys parser.values = [])
    (events : List StreamEvent) : ∀ st, NotEarly st →
      StaysNotEarly (handleEvents locale agenda knownFacts parser st events) := by
  induction events with
  | nil => exact fun st before => .same before []
  | cons e events ih =>
      intro st before r run
      rw [handleEvents_cons] at run
      obtain ⟨next, step, rest⟩ := Option.bind_eq_some_iff.mp run
      have here := handleEvent_notEarly locale agenda knownFacts complete before e next step
      split at rest
      · cases rest
        exact here
      · obtain ⟨later, after, rfl⟩ := Option.map_eq_some_iff.mp rest
        exact ih _ here later after

/-- Reports of keys do nothing. -/
theorem handleEvents_onlyKeys (locale : PyStr) (agenda knownFacts : Option PyStr)
    (parser : ReplyStreamParser) {events : List StreamEvent} (only : OnlyKeys events)
    {st : ReleaseState} (live : st.bufferedReason = none) :
    handleEvents locale agenda knownFacts parser st events = some (st, []) := by
  induction events with
  | nil => rfl
  | cons e events ih =>
      rw [handleEvents_cons]
      cases e with
      | keyDone name v =>
          rw [handleEvent, Option.bind_some, if_neg (by simp [live]),
            ih fun e member => only e (List.mem_cons_of_mem _ member)]
          rfl
      | malformed reason => cases only _ (List.mem_cons_self ..)
      | replyStart => cases only _ (List.mem_cons_self ..)
      | replyText chunk => cases only _ (List.mem_cons_self ..)
      | replyEnd => cases only _ (List.mem_cons_self ..)

/-- The reason of a reply that comes before `keys`. -/
def earlyReason (keys : List PyStr) : PyStr := py "reply_before_" ++ join (py ",") keys

/-- What a policy sees when the reply begins before a key. -/
theorem handleEvents_early (locale : PyStr) (agenda knownFacts : Option PyStr)
    {parser : ReplyStreamParser} (missing : missingKeys parser.values ≠ [])
    {one : List StreamEvent} (only : OnlyKeys one) (later : List StreamEvent) {st : ReleaseState}
    (live : st.bufferedReason = none) :
    handleEvents locale agenda knownFacts parser st (one ++ .replyStart :: later) =
      some (st.buffer (earlyReason (missingKeys parser.values)), []) := by
  rw [handleEvents_append _ _ _ _ _ _ live, handleEvents_onlyKeys _ _ _ _ only live,
    Option.bind_some, if_neg (by simp [live]), handleEvents_cons, handleEvent, if_pos missing,
    Option.bind_some, if_pos (by simp [ReleaseState.buffer, live])]
  rfl

/-- A delta at whose end the reply begins before a key. -/
theorem feed_early {c : ReleaseController} (live : c.state.bufferedReason = none) {delta : PyStr}
    {next : ReplyStreamParser} {one : List StreamEvent} (only : OnlyKeys one)
    (read : c.parser.feed delta = some (next, one ++ [.replyStart]))
    (missing : missingKeys next.values ≠ []) :
    ∃ c', c.feed delta = some (c', []) ∧
      c'.state = c.state.buffer (earlyReason (missingKeys next.values)) := by
  rw [feed_of_live live, read, Option.bind_some, handleEvents_early _ _ _ missing only [] live]
  exact ⟨_, rfl, rfl⟩

omit [PyRuntime] in
theorem buffer_reason {st : ReleaseState} (live : st.bufferedReason = none) (reason : PyStr) :
    (st.buffer reason).bufferedReason = some reason := by
  simp [ReleaseState.buffer, live]

omit [PyRuntime] in
theorem mem_missingKeys {values : Dict} {key : PyStr} :
    key ∈ missingKeys values ↔ key ∈ keysBeforeReply ∧ values.has key = false := by
  simp [missingKeys]

omit [PyRuntime] in
/-- Different missing keys give different reasons. -/
theorem earlyReason_inj {one two : Dict}
    (same : earlyReason (missingKeys one) = earlyReason (missingKeys two)) :
    missingKeys one = missingKeys two := by
  have table : ∀ a ∈ keysBeforeReply.sublists, ∀ b ∈ keysBeforeReply.sublists,
      earlyReason a = earlyReason b → a = b := by
    decide +kernel
  exact table _ (List.mem_sublists.mpr List.filter_sublist) _
    (List.mem_sublists.mpr List.filter_sublist) same

/-! ### Texts that depend on the cut -/

/-- Every way of cutting the text gives the same turn. -/
def CutsAgree (locale : PyStr) (agenda knownFacts : Option PyStr) (text : PyStr) : Prop :=
  ∀ one two : List PyStr, one.flatten = text → two.flatten = text →
    releaseRun locale agenda knownFacts one = releaseRun locale agenda knownFacts two

/-- Each key of the checkpoint refusal is finished at most once. -/
def KeptOnce (events : List StreamEvent) : Prop :=
  ∀ name ∈ keysBeforeReply, (keyNames events).count name ≤ 1

omit [PyRuntime] in
theorem mem_of_lateKeys {events : List StreamEvent} {name : PyStr}
    (late : name ∈ lateKeys events) : .replyStart ∈ events := by
  induction events with
  | nil => cases late
  | cons e events ih =>
      cases e with
      | replyStart => exact List.mem_cons_self ..
      | keyDone name v => exact List.mem_cons_of_mem _ (ih late)
      | replyText chunk => exact List.mem_cons_of_mem _ (ih late)
      | replyEnd => exact List.mem_cons_of_mem _ (ih late)
      | malformed reason => exact List.mem_cons_of_mem _ (ih late)

/-- The uncut text. -/
theorem releaseRun_whole {locale : PyStr} {agenda : Option PyStr} (knownFacts : Option PyStr)
    {text : PyStr} {r : ReplyStreamParser × List StreamEvent}
    (noOath : agendaCarriesOath agenda = false) (read : readText locale text = some r) :
    releaseRun locale agenda knownFacts [text] =
      (handleEvents (streamLocale locale) agenda knownFacts r.1
        (ReleaseController.init locale agenda knownFacts).state r.2).map
        fun s => (s.2, s.1.close) := by
  have live : (ReleaseController.init locale agenda knownFacts).state.bufferedReason = none := by
    simp [ReleaseController.init, noOath]
  rw [releaseRun, feedAll_cons, feed_of_live live, show (ReleaseController.init locale agenda
    knownFacts).parser.feed text = some r from read]
  simp only [Option.bind_some, Option.bind_map, ReleaseController.feedAll, Option.map_some,
    Function.comp_def, Option.map_bind, List.append_nil, ReleaseController.close,
    ReleaseController.init]
  cases handleEvents (streamLocale locale) agenda knownFacts r.1 _ r.2 <;> rfl

/-- A cut right after the reply began shows the policy the values of that moment. -/
theorem exists_early_cut {locale : PyStr} {agenda : Option PyStr} (knownFacts : Option PyStr)
    {text : PyStr} {r : ReplyStreamParser × List StreamEvent}
    (noOath : agendaCarriesOath agenda = false) (read : readText locale text = some r)
    (once : KeptOnce r.2) {name : PyStr} (late : name ∈ lateKeys r.2)
    (guarded : name ∈ keysBeforeReply) :
    ∃ (cut : List PyStr) (values : Dict) (one later : List StreamEvent), cut.flatten = text ∧
      name ∈ missingKeys values ∧ OnlyKeys one ∧ r.2 = one ++ .replyStart :: later ∧
      releaseRun locale agenda knownFacts cut =
        some ([], ⟨[], none, some (earlyReason (missingKeys values))⟩) := by
  obtain ⟨front, ch, back, mid, one, next, rfl, first, only, live, begins⟩ :=
    ReplyStreamParser.exists_begin (.init _) read (mem_of_lateKeys late)
  have upto : (ReplyStreamParser.init (streamLocale locale)).feed (front ++ [ch]) =
      some (next, one ++ [.replyStart]) := by
    rw [ReplyStreamParser.feed_append, first, Option.bind_some,
      ReplyStreamParser.feed_cons_ok live begins]
    rfl
  rw [readText, ← List.singleton_append, ← List.append_assoc] at read
  obtain ⟨mid', one', later, first', second, events⟩ := ReplyStreamParser.exists_feed_front read
  rw [upto] at first'
  cases first'
  rw [List.append_assoc, List.singleton_append] at events
  -- the key is reported after the reply began, so not before, so its value is not there yet
  have after : name ∈ keyNames later := by
    rw [events, lateKeys_begin only.noReply] at late
    exact late
  have notBefore : name ∉ keyNames one := by
    intro before
    have counted := once name guarded
    rw [events, keyNames_append, show keyNames (.replyStart :: later) = keyNames later from rfl,
      List.count_append] at counted
    have := List.count_pos_iff.mpr before
    have := List.count_pos_iff.mpr after
    omega
  have absent : next.values.has name = false := by
    cases here : next.values.has name with
    | false => rfl
    | true =>
        rcases ReplyStreamParser.feed_has_reported upto name here with start | reported
        · cases start
        · rw [keyNames_append] at reported
          exact absurd (by simpa [keyNames] using reported) notBefore
  have missing : name ∈ missingKeys next.values := mem_missingKeys.mpr ⟨guarded, absent⟩
  refine ⟨[front ++ [ch], back], next.values, one, later, by simp, missing, only, events, ?_⟩
  have start : (ReleaseController.init locale agenda knownFacts).state.bufferedReason = none := by
    simp [ReleaseController.init, noOath]
  obtain ⟨c', fed, stopped⟩ := feed_early start only upto (List.ne_nil_of_mem missing)
  rw [releaseRun, feedAll_cons, fed, Option.bind_some, feedAll_buffered]
  · simp [ReleaseController.close, ReleaseState.close, stopped, ReleaseState.buffer,
      ReleaseController.init, noOath]
  · rw [stopped, buffer_reason start]
    rfl

/-- A turn does not depend on the cut when no key of the refusal is finished after the reply began;
where each is finished at most once, only then. -/
theorem release_chunking (locale : PyStr) (agenda knownFacts : Option PyStr) (text : PyStr) :
    (ChunkSafe locale agenda text → CutsAgree locale agenda knownFacts text) ∧
      ∀ r, readText locale text = some r → KeptOnce r.2 →
        CutsAgree locale agenda knownFacts text → ChunkSafe locale agenda text := by
  constructor
  · intro safe one two whole whole'
    rw [releaseRun_of_safe knownFacts safe whole, releaseRun_of_safe knownFacts safe whole']
  · intro r read once agree
    cases oath : agendaCarriesOath agenda with
    | true => exact .inl oath
    | false =>
        refine .inr ⟨r, read, fun name late guarded => ?_⟩
        obtain ⟨cut, values, one, later, whole, missing, only, events, early⟩ :=
          exists_early_cut knownFacts oath read once late guarded
        have live : (ReleaseController.init locale agenda knownFacts).state.bufferedReason = none :=
          by simp [ReleaseController.init, oath]
        have uncut := agree cut [text] whole (List.flatten_singleton ..)
        rw [early, releaseRun_whole knownFacts oath read] at uncut
        obtain ⟨s, policy, ended⟩ := Option.map_eq_some_iff.mp uncut.symm
        have reason : s.1.bufferedReason = some (earlyReason (missingKeys values)) := by
          rw [Prod.mk.injEq, ReleaseState.close, ReleaseResult.mk.injEq] at ended
          exact ended.2.2.2
        have kept : r.1.values.has name = true := by
          refine (ReplyStreamParser.feed_keeps read (.init _)).2 name ?_ guarded
          rw [events, lateKeys_begin only.noReply] at late
          rw [events, keyNames_append]
          exact List.mem_append_right _ late
        by_cases complete : missingKeys r.1.values = []
        · have other := handleEvents_notEarly (streamLocale locale) agenda knownFacts complete r.2 _
            (fun given none => by rw [live] at none; cases none) s policy _ reason
          exact other rfl
        · rw [events, handleEvents_early _ _ _ complete only _ live] at policy
          cases policy
          rw [buffer_reason live, Option.some.injEq] at reason
          have here := earlyReason_inj reason ▸ missing
          rw [mem_missingKeys, kept] at here
          cases here.2

end

/-! ### Two turns -/

/-- A turn in the order the prompt asks for. -/
def keysFirst : PyStr :=
  py "\x7b\"section_checkpoint\": null, \"facts\": [], \"deferred\": [], " ++
    py "\"reply\": \x7b\"en\": \"Hi there. Ready?\"\x7d\x7d"

/-- The same turn with the reply first. -/
def replyFirst : PyStr :=
  py "\x7b\"reply\": \x7b\"en\": \"Hi there. Ready?\"\x7d, " ++
    py "\"section_checkpoint\": null, \"facts\": [], \"deferred\": []\x7d"

/-- The theorem at a turn that is safe, and at one whose keys are finished once. -/
theorem release_chunking_turns :
    letI := PyRuntime.ascii
    releaseRun (py "en") none none [keysFirst] =
        releaseRun (py "en") none none (oneByOne keysFirst) ∧
      (CutsAgree (py "en") none none replyFirst → ChunkSafe (py "en") none replyFirst) := by
  let _ := PyRuntime.ascii
  constructor
  · have safe : ∃ r, readText (py "en") keysFirst = some r ∧
        (lateKeys r.2).all (fun name => decide (name ∉ keysBeforeReply)) = true :=
      exists_of_check (by decide +kernel)
    obtain ⟨r, read, all⟩ := safe
    apply (release_chunking (py "en") none none keysFirst).1
    · refine .inr ⟨r, read, fun name member => ?_⟩
      exact of_decide_eq_true (List.all_eq_true.mp all name member)
    · decide +kernel
    · decide +kernel
  · have once : ∃ r, readText (py "en") replyFirst = some r ∧
        keysBeforeReply.all (fun name => decide ((keyNames r.2).count name ≤ 1)) = true :=
      exists_of_check (by decide +kernel)
    obtain ⟨r, read, all⟩ := once
    refine (release_chunking (py "en") none none replyFirst).2 r read fun name member => ?_
    exact of_decide_eq_true (List.all_eq_true.mp all name member)

/-- With the reply first the uncut turn is spoken, and the one cut after the reply is buffered. -/
theorem release_depends_on_cut :
    letI := PyRuntime.ascii
    ¬ ∀ (locale : PyStr) (agenda knownFacts : Option PyStr) (text : PyStr) (one two : List PyStr),
      one.flatten = text → two.flatten = text →
      releaseRun locale agenda knownFacts one = releaseRun locale agenda knownFacts two := by
  intro agree
  have same := agree (py "en") none none replyFirst [replyFirst]
    [replyFirst.take 40, replyFirst.drop 40] (by decide +kernel) (by decide +kernel)
  exact absurd same (by decide +kernel)

end GhostPour.N400
