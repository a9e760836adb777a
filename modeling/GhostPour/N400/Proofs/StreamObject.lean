/-
Module: GhostPour.N400.Proofs.StreamObject
Layer: Proofs
Purpose: The reply reader against `json.loads`: on prose and one object, where every high surrogate is
  followed by a low one and the reply has a form the reader knows, it keeps the object's values of
  the checkpoint refusal and hands out the reply.
Trusted boundary: none
Main exports: member_reads, members_read, reader_agrees, readers_part, readers_do_not_agree
-/
import GhostPour.N400.Proofs.StreamKeys
import GhostPour.N400.Proofs.StreamReply

namespace GhostPour.N400

/-- The members the reader keeps. -/
def keptMembers (members : Dict) : Dict := members.filter fun m => decide (m.1 ∈ keysBeforeReply)

theorem keptMembers_append (front back : Dict) :
    keptMembers (front ++ back) = keptMembers front ++ keptMembers back := List.filter_append ..

theorem get_of_not_mem {d : Dict} {key : PyStr} (absent : key ∉ d.map Prod.fst) :
    d.get key = .null := by
  induction d with
  | nil => rfl
  | cons m d ih =>
      rw [List.map_cons, List.mem_cons, not_or] at absent
      rw [Dict.get, if_neg (Ne.symm absent.1), ih absent.2]

section
variable [PyRuntime]

mutual

/-- A test that follows from another on every string of a value. -/
theorem allStrings_mono {p q : List StrItem → Bool} (mono : ∀ items, p items = true → q items = true) :
    ∀ v : JsonText, v.allStrings p = true → v.allStrings q = true
  | .atom _, _ => rfl
  | .str items, all => mono items all
  | .arrEmpty _, _ => rfl
  | .arr elems, all => elems_mono mono elems all
  | .objEmpty _, _ => rfl
  | .obj members, all => members_mono mono members all

theorem elems_mono {p q : List StrItem → Bool} (mono : ∀ items, p items = true → q items = true) :
    ∀ es : ElemsText, es.allStrings p = true → es.allStrings q = true
  | .last _ v _, all => allStrings_mono mono v all
  | .cons _ v _ rest, all => by
      rw [ElemsText.allStrings, Bool.and_eq_true] at all ⊢
      exact ⟨allStrings_mono mono v all.1, elems_mono mono rest all.2⟩

theorem members_mono {p q : List StrItem → Bool} (mono : ∀ items, p items = true → q items = true) :
    ∀ ms : MembersText, ms.allStrings p = true → ms.allStrings q = true
  | .last _ key _ _ v _, all => by
      rw [MembersText.allStrings, Bool.and_eq_true] at all ⊢
      exact ⟨mono key all.1, allStrings_mono mono v all.2⟩
  | .cons _ key _ _ v _ rest, all => by
      rw [MembersText.allStrings, Bool.and_eq_true, Bool.and_eq_true] at all ⊢
      exact ⟨mono key all.1, allStrings_mono mono v all.2.1, members_mono mono rest all.2.2⟩

end

omit [PyRuntime] in
theorem streams_of_paired (items : List StrItem) (pairs : paired items = true) :
    streams items = true := by
  rw [streams, streamItems_of_paired items pairs]
  rfl

namespace ReplyStreamParser

/-! ### The members of the object -/

/-- What a member of the object leaves behind. -/
structure MemberRead (st next : ReplyStreamParser) (key : PyStr) (v : Json) : Prop where
  top : AtTop next
  values : next.values = st.values ++ keptMembers [(key, v)]
  locale : next.locale = st.locale
  unspoken : key ≠ py "reply" → next.replyLocaleDone = st.replyLocaleDone

/-- What a member of the object hands out. -/
def memberText (locale key : PyStr) (v : Json) : PyStr :=
  if key = py "reply" then replyText locale v else []

/-- A member of the object, and what follows it. -/
theorem member_reads {st : ReplyStreamParser} (at_ : AtKey st) (w₁ : Ws) {key : List StrItem}
    (w₂ w₃ : Ws) {v : JsonText} (w₄ : Ws) {sep : Nat} (ends : sep = comma ∨ sep = rbrace)
    (pairsKey : paired key = true) (pairs : v.allStrings paired = true)
    (distinct : v.distinct = true) (apart : decodeItems key ∉ st.values.map Prod.fst)
    (reply : decodeItems key = py "reply" →
      plainReply v.value = true ∧ st.replyLocaleDone = false) :
    ∃ next events,
      Reads st (w₁.text ++ (quotedText key ++ (w₂.text ++ (colon :: (w₃.text ++ (v.text ++
        (w₄.text ++ [sep]))))))) (next.afterSeparator sep) events ∧
      MemberRead st next (decodeItems key) v.value ∧
      Speaks events (memberText st.locale (decodeItems key) v.value) := by
  have name : streamKey key = decodeItems key := by
    rw [streamKey, streamItems_of_paired key pairsKey, Option.getD_some]
  by_cases same : decodeItems key = py "reply"
  · -- the reply
    obtain ⟨plain, fresh⟩ := reply same
    have value : AtReply (keyed st (decodeItems key)) := ⟨at_.toAtTop.keyed _, rfl, same⟩
    obtain ⟨next, events, reads, replied, speaks⟩ :=
      reply_reads value fresh pairs distinct plain w₄ ends
    have key_reads := key_passes at_ w₁ key w₂ w₃
    rw [streams_of_paired key pairsKey, name] at key_reads
    have all := Reads.append key_reads reads
    refine ⟨next, events, ?_, ⟨replied.top, ?_, replied.locale, fun other => absurd same other⟩, ?_⟩
    · simpa using all
    · rw [replied.values, same]
      exact (List.append_nil _).symm
    · rw [memberText, if_pos same]
      exact speaks
  · have reads := member_passes at_ w₁ key w₂ w₃ v w₄ ends (by rw [name]; exact same)
    rw [streams_of_paired key pairsKey, streamable, allStrings_mono streams_of_paired v pairs, name]
      at reads
    refine ⟨_, _, reads, ⟨(at_.toAtTop.keyed _).filed v, ?_, rfl, fun _ => rfl⟩, ?_⟩
    · rw [filed, keptMembers, List.filter_cons]
      show (if decodeItems key ∈ keysBeforeReply then
        Dict.set st.values (decodeItems key) v.value else st.values) = _
      by_cases guarded : decodeItems key ∈ keysBeforeReply
      · rw [if_pos guarded, if_pos (by simpa using guarded), set_of_not_mem _ _ _ apart]
        rfl
      · rw [if_neg guarded, if_neg (by simpa using guarded)]
        exact (List.append_nil _).symm
    · rw [memberText, if_neg same]
      exact (report_onlyKeys _ v).speaks

/-- A reply is handed out once. -/
theorem memberText_append (locale : PyStr) {key : PyStr} (v : Json) {members : Dict}
    (fresh : key ∉ members.map Prod.fst) :
    memberText locale key v ++ replyText locale (Dict.get members (py "reply")) =
      replyText locale (Dict.get ((key, v) :: members) (py "reply")) := by
  unfold memberText
  by_cases same : key = py "reply"
  · rw [if_pos same, Dict.get, if_pos same, get_of_not_mem (same ▸ fresh)]
    exact List.append_nil _
  · rw [if_neg same, Dict.get, if_neg same]
    exact List.nil_append _

/-- The members of the object. -/
theorem members_read : ∀ (ms : MembersText) {st : ReplyStreamParser}, AtKey st →
    ms.allStrings paired = true → ms.distinct = true → (ms.values.map Prod.fst).Nodup →
    (∀ m ∈ ms.values, m.1 ∉ st.values.map Prod.fst) →
    plainReply (Dict.get ms.values (py "reply")) = true →
    (py "reply" ∈ ms.values.map Prod.fst → st.replyLocaleDone = false) →
    ∃ next events, Reads st ms.text next events ∧ Away next ∧
      next.values = st.values ++ keptMembers ms.values ∧
      Speaks events (replyText st.locale (Dict.get ms.values (py "reply")))
  | .last w₁ key w₂ w₃ v w₄, st, at_, pairs, distinct, keys, apart, plain, fresh => by
      rw [MembersText.allStrings, Bool.and_eq_true] at pairs
      rw [MembersText.distinct] at distinct
      simp only [MembersText.values] at keys apart plain fresh ⊢
      obtain ⟨next, events, reads, read, speaks⟩ := member_reads at_ w₁ w₂ w₃ w₄ (.inr rfl) pairs.1
        pairs.2 distinct (apart _ List.mem_cons_self) fun same =>
          ⟨by rwa [Dict.get, if_pos same] at plain, fresh (by simp [same])⟩
      refine ⟨next.afterSeparator rbrace, events, reads, read.top.left, ?_, ?_⟩
      · rw [afterSeparator_values, read.values]
      · have text := memberText_append st.locale v.value
          (show decodeItems key ∉ ([] : Dict).map Prod.fst from List.not_mem_nil)
        rw [← text]
        exact (List.append_nil _).symm ▸ speaks
  | .cons w₁ key w₂ w₃ v w₄ ms, st, at_, pairs, distinct, keys, apart, plain, fresh => by
      rw [MembersText.allStrings, Bool.and_eq_true, Bool.and_eq_true] at pairs
      rw [MembersText.distinct, Bool.and_eq_true] at distinct
      simp only [MembersText.values] at keys apart plain fresh ⊢
      rw [List.map_cons, List.nodup_cons] at keys
      obtain ⟨next, events, reads, read, speaks⟩ := member_reads at_ w₁ w₂ w₃ w₄ (.inl rfl) pairs.1
        pairs.2.1 distinct.1 (apart _ List.mem_cons_self) fun same =>
          ⟨by rwa [Dict.get, if_pos same] at plain, fresh (by simp [same])⟩
      have plain' : plainReply (Dict.get ms.values (py "reply")) = true := by
        by_cases same : decodeItems key = py "reply"
        · rw [get_of_not_mem (same ▸ keys.1)]
          rfl
        · rwa [Dict.get, if_neg same] at plain
      have apart' : ∀ m ∈ ms.values, m.1 ∉ (next.afterSeparator comma).values.map Prod.fst := by
        intro m member here
        rw [afterSeparator_values, read.values, List.map_append, List.mem_append] at here
        rcases here with old | new
        · exact apart m (List.mem_cons_of_mem _ member) old
        · obtain ⟨m', kept, same⟩ := List.mem_map.mp new
          rw [List.mem_singleton.mp (List.mem_of_mem_filter kept)] at same
          exact keys.1 (List.mem_map.mpr ⟨m, member, same.symm⟩)
      have fresh' : py "reply" ∈ ms.values.map Prod.fst →
          (next.afterSeparator comma).replyLocaleDone = false := by
        intro later
        have other : decodeItems key ≠ py "reply" := fun same => keys.1 (same ▸ later)
        exact (read.unspoken other).trans (fresh (List.mem_cons_of_mem _ later))
      obtain ⟨last, later, reads', away, values, speaks'⟩ := members_read ms read.top.next pairs.2.2
        distinct.2 keys.2 apart' plain' fresh'
      refine ⟨last, events ++ later, ?_, away, ?_, ?_⟩
      · have split : (MembersText.cons w₁ key w₂ w₃ v w₄ ms).text =
            (w₁.text ++ (quotedText key ++ (w₂.text ++ (colon :: (w₃.text ++ (v.text ++
              (w₄.text ++ [comma]))))))) ++ ms.text := by
          simp [MembersText.text]
        rw [split]
        exact reads.append reads'
      · rw [values, afterSeparator_values, read.values, List.append_assoc, ← keptMembers_append]
        rfl
      · have locale : (next.afterSeparator comma).locale = st.locale := read.locale
        rw [locale] at speaks'
        rw [← memberText_append st.locale v.value keys.1]
        exact speaks.append speaks'

end ReplyStreamParser

/-! ### The reader and the document reader -/

/-- On prose and one object the reader keeps the values of the refusal's keys and hands out the
reply, without a report of a malformed text. -/
theorem reader_agrees (locale : PyStr) {prose : PyStr} (noBrace : lbrace ∉ prose) {doc : Document}
    {members : Dict} (object : membersOf doc.body = some members)
    (distinct : doc.body.distinct = true) (pairs : doc.body.allStrings paired = true)
    (plain : plainReply (members.get (py "reply")) = true) :
    loads doc.text = some (.obj members) ∧
    ∃ last events, (ReplyStreamParser.init locale).feed (prose ++ doc.text) = some (last, events) ∧
      (∀ reason, .malformed reason ∉ events) ∧ last.values = keptMembers members ∧
      spokenText events = replyText (streamLocale locale) (members.get (py "reply")) := by
  obtain ⟨w, body, w'⟩ := doc
  have brace : lbrace ∉ prose ++ w.text := by
    rw [List.mem_append, not_or]
    exact ⟨noBrace, ReplyStreamParser.lbrace_not_space w⟩
  have enters := (ReplyStreamParser.Away.init locale).enters brace
  have start := ReplyStreamParser.entered_atKey locale
  cases body with
  | objEmpty w₁ =>
      cases object
      have reads := enters.append ((start.leaves w₁).append (start.toAtTop.left.reads
        (ReplyStreamParser.lbrace_not_space w')))
      refine ⟨by rw [loads_document, JsonText.value],
        (ReplyStreamParser.init locale).entered.afterSeparator rbrace, [], ?_,
        fun _ => List.not_mem_nil, rfl, rfl⟩
      have run := reads.feed
      simpa [Document.text, JsonText.text] using run
  | obj ms =>
      cases object
      rw [JsonText.distinct, Bool.and_eq_true, decide_eq_true_eq] at distinct
      obtain ⟨last, events, members, away, values, speaks⟩ := ReplyStreamParser.members_read ms start
        pairs distinct.2 distinct.1 (fun m _ none => by cases none) plain (fun _ => rfl)
      have reads := enters.append (members.append (away.reads
        (ReplyStreamParser.lbrace_not_space w')))
      refine ⟨?_, last, events, ?_, speaks.sound, values, speaks.text⟩
      · rw [loads_document, JsonText.value, ofMembers_of_nodup _ distinct.1]
      · have run := reads.feed
        simpa [Document.text, JsonText.text] using run
  | atom a => cases object
  | str items => cases object
  | arrEmpty _ => cases object
  | arr elems => cases object

end

/-! ### Two replies -/

/-- A reply in two locales after some prose. -/
def twoLocales : PyStr :=
  py "Here it is: \x7b\"facts\": [], \"note\": \"\\ud83d\\ude00\", " ++
    py "\"reply\": \x7b\"es\": \"Hola\", \"EN\": \"Hi\"\x7d\x7d"

/-- The theorem at that reply. -/
theorem reader_agrees_twoLocales :
    letI := PyRuntime.ascii
    ∃ last events, (ReplyStreamParser.init (py "en")).feed twoLocales = some (last, events) ∧
      (∀ reason, .malformed reason ∉ events) ∧ spokenText events = py "Hi" := by
  let _ := PyRuntime.ascii
  have parsed : ∃ doc, parseDocument (twoLocales.drop 12) = some doc ∧
      (doc.body.distinct && doc.body.allStrings paired && (membersOf doc.body).any fun members =>
        plainReply (Dict.get members (py "reply")) &&
          replyText (py "en") (Dict.get members (py "reply")) == py "Hi") = true :=
    exists_of_check (by decide +kernel)
  obtain ⟨doc, read, checked⟩ := parsed
  simp only [Bool.and_eq_true] at checked
  obtain ⟨⟨distinct, pairs⟩, rest⟩ := checked
  obtain ⟨members, object, shape⟩ := exists_of_check rest
  simp only [Bool.and_eq_true, beq_iff_eq] at shape
  have noBrace : lbrace ∉ twoLocales.take 12 := by decide +kernel
  obtain ⟨_, last, events, run, sound, _, text⟩ :=
    reader_agrees (py "en") noBrace object distinct pairs shape.1
  rw [parseDocument_sound read, List.take_append_drop] at run
  exact ⟨last, events, run, sound, text.trans shape.2⟩

/-! ### Where the two readers part -/

/-- The text of a reply, or of the only string of it whose key is the locale. -/
def soleText [PyRuntime] (locale : PyStr) : Json → PyStr
  | .str s => s
  | .obj members =>
      match members.filterMap fun m => match m.2 with
        | .str s => if lower m.1 = lower locale then some s else none
        | _ => none with
      | [s] => s
      | _ => []
  | _ => []

/-- A report of a malformed text. -/
def isMalformed : StreamEvent → Bool
  | .malformed _ => true
  | _ => false

/-- The reader keeps what the document says and hands out the only text for the locale. -/
def AgreesAt [PyRuntime] (locale text : PyStr) (members : Dict) : Prop :=
  ∃ last events, (ReplyStreamParser.init locale).feed text = some (last, events) ∧
    (∀ reason, .malformed reason ∉ events) ∧
    (∀ key ∈ keysBeforeReply, members.has key = true → last.values.get key = members.get key) ∧
    spokenText events = soleText locale (members.get (py "reply"))

/-- A run that reports a fault or hands out another text. -/
def disagrees [PyRuntime] (locale text : PyStr) (members : Dict) : Bool :=
  ((ReplyStreamParser.init locale).feed text).any fun r =>
    r.2.any isMalformed || spokenText r.2 != soleText locale (members.get (py "reply"))

theorem not_agreesAt [PyRuntime] {locale text : PyStr} {members : Dict}
    (differs : disagrees locale text members = true) : ¬ AgreesAt locale text members := by
  rintro ⟨last, events, run, sound, _, spoken⟩
  rw [disagrees, run, Option.any_some, Bool.or_eq_true] at differs
  rcases differs with fault | other
  · obtain ⟨e, member, malformed⟩ := List.any_eq_true.mp fault
    cases e with
    | malformed reason => exact sound reason member
    | _ => cases malformed
  · rw [spoken] at other
    simp at other

/-- One object on which the two readers part. -/
def Parts [PyRuntime] (locale text : PyStr) : Prop :=
  ∃ doc members, Document.text doc = text ∧ membersOf doc.body = some members ∧
    doc.body.distinct = true ∧ ¬ AgreesAt locale text members

theorem parts_of_check [PyRuntime] {locale text : PyStr}
    (check : ((parseDocument text).any fun doc => doc.body.distinct &&
      (membersOf doc.body).any (disagrees locale text)) = true) : Parts locale text := by
  obtain ⟨doc, read, checked⟩ := exists_of_check check
  rw [Bool.and_eq_true] at checked
  obtain ⟨members, object, differs⟩ := exists_of_check checked.2
  exact ⟨doc, members, parseDocument_sound read, object, checked.1, not_agreesAt differs⟩

/-- Two keys for one locale: the first is handed out. -/
def sameLocale : PyStr := py "\x7b\"reply\": \x7b\"en\": \"Hi\", \"EN\": \"Hello\"\x7d\x7d"

/-- A high surrogate alone: the text is reported as malformed. -/
def loneHigh : PyStr := py "\x7b\"note\": \"\\ud83d\", \"reply\": \"Hi\"\x7d"

/-- A reply in an array: its comma ends it. -/
def arrayReply : PyStr := py "\x7b\"reply\": [\"Hi\", \"Hello\"]\x7d"

/-- An object under the locale: its first string is handed out. -/
def nestedReply : PyStr := py "\x7b\"reply\": \x7b\"en\": \x7b\"a\": \"b\"\x7d\x7d\x7d"

/-- The readers part on two keys for one locale, on a lone high surrogate, and on values nested in
the reply. -/
theorem readers_part :
    letI := PyRuntime.ascii
    ∀ text ∈ [sameLocale, loneHigh, arrayReply, nestedReply], Parts (py "en") text := by
  let _ := PyRuntime.ascii
  intro text member
  simp only [List.mem_cons, List.not_mem_nil, or_false] at member
  rcases member with rfl | rfl | rfl | rfl
  · exact parts_of_check (by decide +kernel)
  · exact parts_of_check (by decide +kernel)
  · exact parts_of_check (by decide +kernel)
  · exact parts_of_check (by decide +kernel)

/-- The readers do not agree on every object. -/
theorem readers_do_not_agree :
    letI := PyRuntime.ascii
    ¬ ∀ (locale prose : PyStr) (doc : Document) (members : Dict), lbrace ∉ prose →
      membersOf doc.body = some members → doc.body.distinct = true →
      AgreesAt locale (prose ++ doc.text) members := by
  let _ := PyRuntime.ascii
  intro agree
  obtain ⟨doc, members, text, object, distinct, parts⟩ := readers_part sameLocale List.mem_cons_self
  have agrees := agree (py "en") [] doc members List.not_mem_nil object distinct
  rw [List.nil_append, text] at agrees
  exact parts agrees

end GhostPour.N400
