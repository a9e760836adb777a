/-
Module: GhostPour.N400.Proofs.ReleaseRefusal
Layer: Proofs
Purpose: The checkpoint is tested on the object the reader has so far, and the test is the one on the
  whole response: when the reply begins, the values the refusal reads are those of the response. So no
  sentence of a response with a refused checkpoint is released.
Trusted boundary: none
Main exports: checkpointIsRefused_congr, begins_kept, exists_release_begin,
  release_only_when_not_refused
-/
import GhostPour.N400.Proofs.Chunking
import GhostPour.N400.Proofs.StreamValues
import GhostPour.N400.Proofs.TurnText

namespace GhostPour.N400

section

variable [PyRuntime]

/-! ### What the refusal reads -/

/-- The refusal reads three values of the response. -/
theorem checkpointIsRefused_congr {a b : PyStr} {one two : Dict} (agenda knownFacts : Option PyStr)
    (here : turnOf a = some one) (there : turnOf b = some two)
    (same : ∀ key ∈ keysBeforeReply, one.get key = two.get key) :
    checkpointIsRefused a agenda knownFacts = checkpointIsRefused b agenda knownFacts := by
  have checkpoint := same (py "section_checkpoint") (by decide)
  have facts := same (py "facts") (by decide)
  have deferred := same (py "deferred") (by decide)
  have claimed : claimedPart one = claimedPart two := by
    rw [claimedPart, claimedPart, checkpoint]
  have settled : idsSettled one = idsSettled two := by
    rw [idsSettled, idsSettled, facts, deferred]
  have moot : mootNodes one agenda = mootNodes two agenda := by
    rw [mootNodes, mootNodes, facts]
  rw [checkpointIsRefused, checkpointIsRefused, checkpointContradictsAgenda,
    checkpointContradictsAgenda, checkpointReadsBackNothing, checkpointReadsBackNothing, here, there]
  simp only [claimed, settled, moot]

omit [PyRuntime] in
theorem keysBeforeReply_ascii {key : PyStr} (guarded : key ∈ keysBeforeReply) :
    ∀ c ∈ key, c < 128 := by
  have table : ∀ key ∈ keysBeforeReply, ∀ c ∈ key, c < 128 := by decide
  exact table key guarded

namespace ReplyStreamParser

/-! ### Where the reply begins -/

/-- What reads its text without a word about the reply is over before the reply begins. -/
theorem Reads.cut {st mid last next : ReplyStreamParser} {a b front back : PyStr} {ch : Nat}
    {one two : List StreamEvent} (reads : Reads st a mid one) (quiet : NoReply one)
    (split : a ++ b = front ++ ch :: back) (run : st.feed front = some (last, two))
    (live : last.malformed = none) (begins : last.char ch = .ok (next, [.replyStart])) :
    ∃ more later, front = a ++ more ∧ b = more ++ ch :: back ∧
      mid.feed more = some (last, later) ∧ two = one ++ later := by
  rcases List.append_eq_append_iff.mp split with ⟨more, rfl, rest⟩ | ⟨more, rfl, rest⟩
  · rw [reads] at run
    obtain ⟨⟨last', later⟩, second, same⟩ := Option.map_eq_some_iff.mp run
    rw [before, Prod.mk.injEq] at same
    obtain ⟨rfl, rfl⟩ := same
    exact ⟨more, later, rfl, rest, second, rfl⟩
  · cases more with
    | nil =>
        rw [List.append_nil] at reads
        rw [reads.feed] at run
        cases run
        exact ⟨[], [], by simp, by simpa using rest.symm, rfl, by simp⟩
    | cons c more =>
        obtain ⟨rfl, _⟩ := List.cons.inj rest
        have whole := reads.feed
        rw [feed_append, run, Option.bind_some, feed_cons_ok live begins] at whole
        obtain ⟨r, second, same⟩ := Option.map_eq_some_iff.mp whole
        rw [before, Prod.mk.injEq] at same
        obtain ⟨r', _, rfl⟩ := Option.map_eq_some_iff.mp second
        have begun := quiet .replyStart (by rw [← same.2]; simp [before])
        cases begun

/-- The reply does not begin in a text that says nothing about it. -/
theorem Silent.not_begins {st last next : ReplyStreamParser} {text front back : PyStr} {ch : Nat}
    {two : List StreamEvent} (silent : Silent st text) (split : text = front ++ ch :: back)
    (run : st.feed front = some (last, two)) (live : last.malformed = none)
    (begins : last.char ch = .ok (next, [.replyStart])) : False := by
  have longer : st.feed (front ++ [ch]) = some (next, two ++ [.replyStart]) := by
    rw [feed_append, run, Option.bind_some, feed_cons_ok live begins]
    rfl
  have quiet := silent (front ++ [ch]) back next _ (by rw [split]; simp) longer
  cases quiet .replyStart (by simp)

/-- The reply does not begin in a text that ends the run, and not before the end of one that is read
without a word about it. -/
theorem Passes.cut {good : Bool} {st mid last next : ReplyStreamParser} {a b front back : PyStr}
    {ch : Nat} {one two : List StreamEvent} (passes : Passes good st a mid one) (quiet : NoReply one)
    (split : a ++ b = front ++ ch :: back) (run : st.feed front = some (last, two))
    (live : last.malformed = none) (begins : last.char ch = .ok (next, [.replyStart])) :
    good = true ∧ ∃ more later, b = more ++ ch :: back ∧ mid.feed more = some (last, later) ∧
      two = one ++ later := by
  cases good with
  | false => exact (Silent.not_begins (passes b) split run live begins).elim
  | true =>
      obtain ⟨more, later, _, rest, second, events⟩ := Reads.cut passes quiet split run live begins
      exact ⟨rfl, more, later, rest, second, events⟩

/-! ### The values at the beginning of the reply -/

/-- What is kept are members of the object, no key twice. -/
structure KeptFrom (members : List (PyStr × Json)) (values : Dict) : Prop where
  distinct : (values.map Prod.fst).Nodup
  members : ∀ m ∈ values, m ∈ members

/-- A member that is filed is kept under the key of the document. -/
theorem KeptFrom.filed {members : List (PyStr × Json)} {st : ReplyStreamParser}
    (kept : KeptFrom members st.values) {key : List StrItem} (read : (streamItems key).isSome = true)
    {v : JsonText} (member : (decodeItems key, v.value) ∈ members) :
    KeptFrom members (filed (keyed st (streamKey key)) v).values := by
  unfold ReplyStreamParser.filed keyed
  simp only
  split
  · next guarded =>
    obtain ⟨decoded, whole⟩ := Option.isSome_iff_exists.mp read
    rw [streamKey, whole, Option.getD_some] at guarded ⊢
    have same := (streamItems_ascii key whole decoded (keysBeforeReply_ascii guarded)).mp rfl
    refine ⟨nodup_set kept.distinct decoded v.value, fun m here => ?_⟩
    rcases mem_set here with old | rfl
    · exact kept.members m old
    · exact same ▸ member
  · exact kept

/-- The first character of the reply. -/
theorem char_atReply {st : ReplyStreamParser} (top : AtTop st) (expects : st.expect = .value)
    (reply : st.curKey = py "reply") {c : Nat} (space : isSpace c = false) :
    ∃ begun, st.char c = .ok (begun, [.replyStart]) ∧ begun.values = st.values := by
  rw [char_top top.toAtLevel, topChar, if_neg (by simp [space]), expects]
  simp only
  rw [topValueStart, if_pos reply]
  split
  · exact ⟨_, rfl, rfl⟩
  · split
    · exact ⟨_, rfl, rfl⟩
    · exact ⟨_, rfl, rfl⟩

/-- The reply begins at its first character. -/
theorem begins_at_reply {st last next : ReplyStreamParser} (at_ : AtKey st) (w₁ : Ws)
    {key : List StrItem} (w₂ w₃ : Ws) (v : JsonText) {tail front back : PyStr} {ch : Nat}
    {two : List StreamEvent} (reply : streamKey key = py "reply")
    (split : w₁.text ++ (quotedText key ++ (w₂.text ++ (colon :: (w₃.text ++ (v.text ++ tail))))) =
      front ++ ch :: back)
    (run : st.feed front = some (last, two)) (only : OnlyKeys two) (live : last.malformed = none)
    (begins : last.char ch = .ok (next, [.replyStart])) : next.values = st.values := by
  have apart : (w₁.text ++ (quotedText key ++ (w₂.text ++ (colon :: w₃.text)))) ++ (v.text ++ tail) =
      front ++ ch :: back := by
    rw [← split]
    simp
  obtain ⟨_, more, later, rest, second, events⟩ :=
    (key_passes at_ w₁ key w₂ w₃).cut .nil apart run live begins
  obtain ⟨c, t, head, space⟩ := head_not_space v
  obtain ⟨begun, step, values⟩ := char_atReply (at_.toAtTop.keyed (streamKey key)) rfl reply space
  rw [head] at rest
  cases more with
  | nil =>
      obtain ⟨rfl, _⟩ := List.cons.inj rest
      cases second
      rw [step] at begins
      cases begins
      exact values
  | cons c' more =>
      obtain ⟨rfl, _⟩ := List.cons.inj rest
      have top : (keyed st (streamKey key)).malformed = none := at_.live
      rw [feed_cons_ok top step] at second
      obtain ⟨r, _, same⟩ := Option.map_eq_some_iff.mp second
      rw [before, Prod.mk.injEq] at same
      have begun' := only .replyStart (by rw [events, ← same.2]; simp)
      cases begun'

/-- When the reply of an object begins, what is kept are members of it. -/
theorem begins_kept (members : List (PyStr × Json)) (after : Ws) : ∀ (ms : MembersText)
    {st last next : ReplyStreamParser} {front back : PyStr} {ch : Nat} {two : List StreamEvent},
    AtKey st → KeptFrom members st.values → (∀ m ∈ ms.values, m ∈ members) →
    ms.text ++ after.text = front ++ ch :: back → st.feed front = some (last, two) →
    OnlyKeys two → last.malformed = none → last.char ch = .ok (next, [.replyStart]) →
    KeptFrom members next.values
  | .last w₁ key w₂ w₃ v w₄, st, last, next, front, back, ch, two, at_, kept, listed, split, run,
    only, live, begins => by
      rw [MembersText.text] at split
      by_cases reply : streamKey key = py "reply"
      · have apart : w₁.text ++ (quotedText key ++ (w₂.text ++ (colon :: (w₃.text ++ (v.text ++
            (w₄.text ++ ([rbrace] ++ after.text))))))) = front ++ ch :: back := by
          rw [← split]
          simp
        rw [begins_at_reply at_ w₁ w₂ w₃ v reply apart run only live begins]
        exact kept
      · -- nothing is left after the object but white space
        obtain ⟨_, more, later, rest, second, _⟩ :=
          (member_passes at_ w₁ key w₂ w₃ v w₄ (.inr rfl) reply).cut (report_onlyKeys _ v).noReply
            split run live begins
        have left := ((at_.toAtTop.keyed (streamKey key)).filed v).left
        exact ((left.silent after).not_begins rest second live begins).elim
  | .cons w₁ key w₂ w₃ v w₄ ms, st, last, next, front, back, ch, two, at_, kept, listed, split, run,
    only, live, begins => by
      rw [MembersText.text] at split
      by_cases reply : streamKey key = py "reply"
      · have apart : w₁.text ++ (quotedText key ++ (w₂.text ++ (colon :: (w₃.text ++ (v.text ++
            (w₄.text ++ (comma :: (ms.text ++ after.text)))))))) = front ++ ch :: back := by
          rw [← split]
          simp
        rw [begins_at_reply at_ w₁ w₂ w₃ v reply apart run only live begins]
        exact kept
      · obtain ⟨good, more, later, rest, second, events⟩ :=
          (member_passes at_ w₁ key w₂ w₃ v w₄ (.inl rfl) reply).cut (report_onlyKeys _ v).noReply
            (b := ms.text ++ after.text) (by rw [← split]; simp) run live begins
        have top := (at_.toAtTop.keyed (streamKey key)).filed v
        rw [Bool.and_eq_true] at good
        have here : (decodeItems key, v.value) ∈ members := listed _ (by simp [MembersText.values])
        have kept' : KeptFrom members
            ((filed (keyed st (streamKey key)) v).afterSeparator comma).values := by
          rw [afterSeparator_values]
          exact kept.filed good.1 here
        refine begins_kept members after ms top.next kept' (fun m member => listed m ?_) rest second
          (fun e member => only e ?_) live begins
        · simp [MembersText.values, member]
        · rw [events]
          exact List.mem_append_right _ member

/-- The reader comes to the first character of the reply after a front of the text. -/
def BeginsAt (st : ReplyStreamParser) (front : PyStr) (ch : Nat) (next : ReplyStreamParser) : Prop :=
  ∃ mid one, st.feed front = some (mid, one) ∧ OnlyKeys one ∧ mid.malformed = none ∧
    mid.char ch = .ok (next, [.replyStart])

theorem BeginsAt.cons {st mid next : ReplyStreamParser} {ch ch' : Nat} {front : PyStr}
    {events : List StreamEvent} (live : st.malformed = none) (step : st.char ch = .ok (mid, events))
    (only : OnlyKeys events) (begins : BeginsAt mid front ch' next) :
    BeginsAt st (ch :: front) ch' next := by
  obtain ⟨last, one, run, keys, live', first⟩ := begins
  refine ⟨last, events ++ one, ?_, only.append keys, live', first⟩
  rw [feed_cons_ok live step, run]
  rfl

end ReplyStreamParser

/-! ### What a release says about the reader -/

/-- What one character does to a turn before the reply: it stays before it, it is buffered, or the
reply begins with every key in place and no refusal. -/
theorem feed_char_before {c c' : ReleaseController} {ch : Nat} {out : List Release}
    (live : c.state.bufferedReason = none) (quiet : c.parser.BeforeReply)
    (fed : c.feed [ch] = some (c', out)) : out = [] ∧
      (c'.state.bufferedReason.isSome = true ∨
        (∃ next, c' = { c with parser := next } ∧ next.BeforeReply ∧ ∀ front ch' begun,
          next.BeginsAt front ch' begun → c.parser.BeginsAt (ch :: front) ch' begun) ∨
        ∃ next, c.parser.BeginsAt [] ch next ∧ missingKeys next.values = [] ∧
          checkpointRefused c.agenda c.knownFacts next = some false) := by
  rw [feed_of_live live] at fed
  obtain ⟨⟨next, events⟩, read, handled⟩ := Option.bind_eq_some_iff.mp fed
  obtain ⟨⟨state, out'⟩, policy, same⟩ := Option.map_eq_some_iff.mp handled
  simp only [Prod.mk.injEq] at same
  obtain ⟨rfl, rfl⟩ := same
  simp only at policy
  rcases ReplyStreamParser.feed_cons_cases c.parser ch with
    stopped | ⟨going, ⟨next', here, step⟩ | ⟨text, step⟩ | step⟩
  · rw [ReplyStreamParser.feed_of_malformed stopped] at read
    cases read
    cases policy
    refine ⟨rfl, .inr (.inl ⟨c.parser, rfl, quiet, ?_⟩)⟩
    rintro front ch' begun ⟨mid, one, run, _, going, _⟩
    rw [ReplyStreamParser.feed_of_malformed stopped] at run
    cases run
    rw [going] at stopped
    cases stopped
  · rw [ReplyStreamParser.feed_cons_ok going step] at read
    cases read
    rw [List.append_nil] at policy
    rcases ReplyStreamParser.char_quiet quiet ch next' here step with ⟨still, only⟩ | rfl
    · rw [handleEvents_onlyKeys _ _ _ _ only live] at policy
      cases policy
      exact ⟨rfl, .inr (.inl ⟨next', rfl, still, fun front ch' begun => .cons going step only⟩)⟩
    · rw [handleEvents_cons] at policy
      obtain ⟨⟨after, front⟩, first, rest⟩ := Option.bind_eq_some_iff.mp policy
      rw [handleEvent] at first
      split at first
      · cases first
        have buffered : (c.state.buffer (py "reply_before_" ++
            join (py ",") (missingKeys next'.values))).bufferedReason.isSome = true := by
          rw [buffer_reason live]
          rfl
        rw [if_pos buffered] at rest
        cases rest
        exact ⟨rfl, .inl buffered⟩
      · next complete =>
        obtain ⟨refused, test, same⟩ := Option.map_eq_some_iff.mp first
        cases refused with
        | true =>
            cases same
            have buffered : (c.state.buffer (py "checkpoint_refused")).bufferedReason.isSome = true :=
              by rw [buffer_reason live]; rfl
            rw [if_pos rfl, if_pos buffered] at rest
            cases rest
            exact ⟨rfl, .inl buffered⟩
        | false =>
            cases same
            simp only [Bool.false_eq_true, if_false] at rest
            rw [if_neg (by simp [live])] at rest
            cases rest
            exact ⟨rfl, .inr (.inr ⟨next', ⟨c.parser, [], rfl, .nil, going, step⟩,
              not_not.mp complete, test⟩)⟩
  · rw [ReplyStreamParser.feed_cons_malformed going step] at read
    cases read
    rw [handleEvents_cons, handleEvent, Option.bind_some, if_pos] at policy
    · cases policy
      exact ⟨rfl, .inl (by rw [buffer_reason live]; rfl)⟩
    · rw [buffer_reason live]
      rfl
  · rw [ReplyStreamParser.feed_cons_raised going step] at read
    cases read

/-- A sentence is released only after the reply began with every key in place and no refusal. -/
theorem exists_release_begin (text : PyStr) : ∀ {c last : ReleaseController} {out : List Release},
    c.parser.BeforeReply → c.feedAll (oneByOne text) = some (last, out) → out ≠ [] →
    ∃ front ch back next, text = front ++ ch :: back ∧ c.parser.BeginsAt front ch next ∧
      missingKeys next.values = [] ∧ checkpointRefused c.agenda c.knownFacts next = some false := by
  induction text with
  | nil =>
      intro c last out _ run released
      cases run
      exact absurd rfl released
  | cons ch text ih =>
      intro c last out quiet run released
      cases reason : c.state.bufferedReason with
      | some reason' =>
          rw [feedAll_buffered (by rw [reason]; rfl)] at run
          cases run
          exact absurd rfl released
      | none =>
          rw [show oneByOne (ch :: text) = [ch] :: oneByOne text from rfl, feedAll_cons] at run
          obtain ⟨⟨c', now⟩, fed, rest⟩ := Option.bind_eq_some_iff.mp run
          obtain ⟨⟨last', later⟩, goes, same⟩ := Option.map_eq_some_iff.mp rest
          simp only [Prod.mk.injEq] at same
          obtain ⟨rfl, rfl⟩ := same
          obtain ⟨rfl, buffered | ⟨next, rfl, still, after⟩ | ⟨next, begins, complete, passed⟩⟩ :=
            feed_char_before reason quiet fed
          · simp only at goes
            rw [feedAll_buffered buffered] at goes
            cases goes
            exact absurd rfl released
          · obtain ⟨front, ch', back, begun, rfl, begins, complete, passed⟩ := ih still goes released
            exact ⟨ch :: front, ch', back, begun, rfl, after front ch' begun begins, complete, passed⟩
          · exact ⟨[], ch, text, next, rfl, begins, complete, passed⟩

/-! ### A text that is one object -/

/-- A text is one object that writes these members, no key twice. -/
structure OneObject (text : PyStr) (members : List (PyStr × Json)) : Prop where
  distinct : (members.map Prod.fst).Nodup
  written : ∃ doc : Document, doc.text = text ∧ membersOf doc.body = some members

theorem OneObject.turn {text : PyStr} {members : List (PyStr × Json)}
    (object : OneObject text members) : turnOf text = some members := by
  obtain ⟨⟨w, body, w'⟩, rfl, written⟩ := object.written
  rw [turnOf, loads_document]
  cases body with
  | objEmpty _ =>
      cases written
      rw [JsonText.value]
  | obj ms =>
      cases written
      simp only [JsonText.value, ofMembers_of_nodup _ object.distinct]
  | atom a => cases written
  | str items => cases written
  | arrEmpty _ => cases written
  | arr elems => cases written

theorem OneObject.canonical {text : PyStr} {members : List (PyStr × Json)}
    (object : OneObject text members) : (Json.obj members).Canonical := by
  have turn := object.turn
  rw [turnOf] at turn
  split at turn
  · next read =>
    cases turn
    exact canonical_of_loads read
  · cases turn

/-- When the reply begins, what is kept are members of the object. -/
theorem OneObject.kept {text : PyStr} {members : List (PyStr × Json)}
    (object : OneObject text members) {locale front back : PyStr} {ch : Nat}
    {next : ReplyStreamParser} (split : text = front ++ ch :: back)
    (begins : (ReplyStreamParser.init locale).BeginsAt front ch next) :
    ReplyStreamParser.KeptFrom members next.values := by
  obtain ⟨⟨w, body, after⟩, rfl, written⟩ := object.written
  obtain ⟨mid, one, run, only, live, first⟩ := begins
  have enters := (ReplyStreamParser.Away.init locale).enters
    (ReplyStreamParser.lbrace_not_space w)
  have start := ReplyStreamParser.entered_atKey locale
  cases body with
  | objEmpty w' =>
      have leaves := enters.append (start.leaves w')
      obtain ⟨more, later, _, rest, second, _⟩ := leaves.cut .nil (b := after.text)
        (by rw [← split]; simp [Document.text, JsonText.text]) run live first
      exact ((start.toAtTop.left.silent after).not_begins rest second live first).elim
  | obj ms =>
      cases written
      obtain ⟨more, later, _, rest, second, rfl⟩ := enters.cut .nil (b := ms.text ++ after.text)
        (by rw [← split]; simp [Document.text, JsonText.text]) run live first
      exact ReplyStreamParser.begins_kept ms.values after ms start ⟨List.nodup_nil, fun m none =>
        (by cases none)⟩ (fun m member => member) rest second only live first
  | atom a => cases written
  | str items => cases written
  | arrEmpty _ => cases written
  | arr elems => cases written

/-- The test on what is kept is the test on the whole text. -/
theorem OneObject.refused_eq {text : PyStr} {members : List (PyStr × Json)}
    (object : OneObject text members) (agenda knownFacts : Option PyStr) {next : ReplyStreamParser}
    (kept : ReplyStreamParser.KeptFrom members next.values) (complete : missingKeys next.values = []) :
    checkpointRefused agenda knownFacts next =
      (checkpointIsRefused text agenda knownFacts).map Option.isSome := by
  have canonical : (Json.obj next.partialObject).Canonical := by
    rw [canonical_obj_iff]
    constructor
    · exact kept.distinct.sublist (List.filter_sublist.map Prod.fst)
    · intro m member
      exact ((canonical_obj_iff members).mp object.canonical).2 m
        (kept.members m (List.mem_of_mem_filter member))
  rw [checkpointRefused, checkpointIsRefused_congr agenda knownFacts (turnOf_dumps canonical)
    object.turn]
  intro key guarded
  have here : next.values.has key = true := by
    by_contra absent
    have missing := mem_missingKeys.mpr ⟨guarded, Bool.eq_false_of_not_eq_true absent⟩
    rw [complete] at missing
    cases missing
  rw [← get_partialObject next guarded]
  exact (Dict.get_of_mem object.distinct (kept.members _ (Dict.mem_of_has here))).symm

/-- A sentence of one object with distinct keys is released only when the checkpoint of the whole
object is not refused, and the test made when the reply begins is the test on the whole object. -/
theorem release_only_when_not_refused (locale : PyStr) (agenda knownFacts : Option PyStr)
    {text : PyStr} {members : List (PyStr × Json)} (object : OneObject text members) :
    (∀ front back last out, text = front ++ back →
      (ReleaseController.init locale agenda knownFacts).feedAll (oneByOne front) = some (last, out) →
      out ≠ [] → checkpointIsRefused text agenda knownFacts = some none) ∧
    ∀ front ch back next, text = front ++ ch :: back →
      (ReplyStreamParser.init (streamLocale locale)).BeginsAt front ch next →
      missingKeys next.values = [] →
      checkpointRefused agenda knownFacts next =
        (checkpointIsRefused text agenda knownFacts).map Option.isSome := by
  have same : ∀ front ch back next, text = front ++ ch :: back →
      (ReplyStreamParser.init (streamLocale locale)).BeginsAt front ch next →
      missingKeys next.values = [] → checkpointRefused agenda knownFacts next =
        (checkpointIsRefused text agenda knownFacts).map Option.isSome :=
    fun front ch back next split begins complete =>
      object.refused_eq agenda knownFacts (object.kept split begins) complete
  refine ⟨fun front back last out split run released => ?_, same⟩
  obtain ⟨front', ch, back', next, rfl, begins, complete, passed⟩ :=
    exists_release_begin front (.init _) run released
  have test := same front' ch (back' ++ back) next (by rw [split]; simp) begins complete
  rw [show checkpointRefused agenda knownFacts next = some false from passed] at test
  obtain ⟨refusal, full, none⟩ := Option.map_eq_some_iff.mp test.symm
  rw [full, Option.isSome_eq_false_iff.mp none |> Option.isNone_iff_eq_none.mp]

end

/-- A turn that claims a part whose one node it answers itself. -/
def partAnswered : PyStr :=
  py "\x7b\"section_checkpoint\": \x7b\"part\": 3\x7d, \"facts\": " ++
    py "[\x7b\"field_id\": \"p3.hair\", \"value\": \"black\"\x7d], \"deferred\": [], " ++
    py "\"reply\": \x7b\"en\": \"Black hair. Is that right?\"\x7d\x7d"

/-- The agenda before that turn. -/
def hairOpen : PyStr := py "hair | Part 3: Body | p3.hair | What color is your hair?"

/-- The theorem at that turn. -/
theorem release_only_when_not_refused_partAnswered :
    letI := PyRuntime.ascii
    checkpointIsRefused partAnswered (some hairOpen) none = some none ∧
      ∃ front ch back next, partAnswered = front ++ ch :: back ∧
        (ReplyStreamParser.init (streamLocale (py "en"))).BeginsAt front ch next ∧
        checkpointRefused (some hairOpen) none next =
          (checkpointIsRefused partAnswered (some hairOpen) none).map Option.isSome := by
  let _ := PyRuntime.ascii
  have parsed : ∃ doc, parseDocument partAnswered = some doc ∧ (membersOf doc.body).any
      (fun members => decide (members.map Prod.fst).Nodup) = true :=
    exists_of_check (by decide +kernel)
  obtain ⟨doc, read, checked⟩ := parsed
  obtain ⟨members, written, distinct⟩ := exists_of_check checked
  have object : OneObject partAnswered members :=
    ⟨of_decide_eq_true distinct, doc, parseDocument_sound read, written⟩
  have turn : ∃ r, (ReleaseController.init (py "en") (some hairOpen) none).feedAll
      (oneByOne partAnswered) = some r ∧ decide (r.2 ≠ []) = true :=
    exists_of_check (by decide +kernel)
  obtain ⟨⟨last, out⟩, run, released⟩ := turn
  have sound := release_only_when_not_refused (py "en") (some hairOpen) none object
  constructor
  · exact sound.1 partAnswered [] last out (List.append_nil _).symm run (of_decide_eq_true released)
  · obtain ⟨front, ch, back, next, split, begins, complete, _⟩ :=
      exists_release_begin partAnswered (.init _) run (of_decide_eq_true released)
    exact ⟨front, ch, back, next, split, begins, sound.2 front ch back next split begins complete⟩

end GhostPour.N400
