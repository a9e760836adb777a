/-
Module: GhostPour.N400.Proofs.OathUnits
Layer: Proofs
Purpose: The oath refusal of a whole reply against the refusal of each unit the splitter emits. A
  sentence of the refusal lies inside one unit, up to blanks, unless an ellipsis before white space
  cuts it: there the splitter ends a unit and the refusal does not end a sentence.
Trusted boundary: none
Main exports: EllipsisCut, sentence_in_unit, oath_units_decide_iff
-/
import GhostPour.Library.JsonCanonical
import GhostPour.N400.Proofs.OathRules
import GhostPour.N400.Proofs.OathSentences
import GhostPour.N400.Proofs.Segments

namespace GhostPour.N400

open Regex

/-- An ellipsis, its closers and white space inside a sentence. -/
def EllipsisCut (g : PyStr) : Prop :=
  ∃ front cl w back, g = front ++ ord '…' :: (cl ++ w :: back) ∧ (∀ c ∈ cl, c ∈ closers) ∧
    isSpace w = true

/-- Something in a sentence that a pattern can start with. -/
def HasInk (g : PyStr) : Prop := ∃ c ∈ g, isInk c = true

theorem not_hasInk {g : PyStr} (blank : ¬ HasInk g) : Outside isInk g := by
  intro c member
  by_contra ink
  exact blank ⟨c, member, by simpa using ink⟩

theorem inBody_of_space {c : Nat} (space : isSpace c = true) : inBody c = true := by
  have stops : py ".!?¡¿" = [46, 33, 63, 161, 191] := by decide +kernel
  by_contra stop
  rw [inBody, stops, Bool.not_eq_true', Bool.not_eq_false, List.contains_iff_mem] at stop
  simp only [List.mem_cons, List.not_mem_nil, or_false] at stop
  rcases stop with rfl | rfl | rfl | rfl | rfl <;> cases space

theorem outside_closers {cl : PyStr} (closing : ∀ c ∈ cl, c ∈ closers) : Outside isInk cl := by
  intro c member
  simp [isInk, closing c member]

theorem outside_append {q : Nat → Bool} {front back : PyStr} (one : Outside q front)
    (two : Outside q back) : Outside q (front ++ back) := by
  intro c member
  rcases List.mem_append.mp member with member | member
  · exact one c member
  · exact two c member

/-- A sentence found in a unit, up to blanks around it. -/
def InUnit (units : List PyStr) (g : PyStr) : Prop :=
  ∃ unit ∈ units, ∃ g' ∈ sentences unit, ∃ pre post,
    g = pre ++ (g' ++ post) ∧ Outside isInk pre ∧ Outside isInk post

theorem InUnit.after {units : List PyStr} {g pre : PyStr} (inUnit : InUnit units g)
    (blank : Outside isInk pre) : InUnit units (pre ++ g) := by
  obtain ⟨unit, member, g', here, before, after, rfl, left, right⟩ := inUnit
  exact ⟨unit, member, g', here, pre ++ before, after, by simp, outside_append blank left, right⟩

theorem InUnit.mono {units units' : List PyStr} {g : PyStr} (inUnit : InUnit units g)
    (sub : ∀ u ∈ units, u ∈ units') : InUnit units' g := by
  obtain ⟨unit, member, rest⟩ := inUnit
  exact ⟨unit, sub unit member, rest⟩

/-! ### Sentences across a boundary -/

/-- Stops are no ink. -/
theorem not_hasInk_stops {g : PyStr} (stops : ∀ c ∈ g, isStop c = true) : ¬ HasInk g := by
  rintro ⟨c, member, ink⟩
  have stop := List.contains_iff_mem.mp (stops c member)
  simp [isInk, stop] at ink

/-- What is left of a sentence after blanks is a sentence. -/
theorem SentenceAt.tail {a front back b : PyStr} (here : SentenceAt a (front ++ back) b)
    (ink : HasInk back) (body : ∀ c ∈ front, inBody c = true) : SentenceAt [] back b := by
  obtain ⟨x, y, split, nonempty, inX, inY, ended⟩ := here.shape
  refine ⟨?_, fun _ none => (by cases none), here.after⟩
  rcases List.append_eq_append_iff.mp split with ⟨x', rfl, rfl⟩ | ⟨y', rfl, rfl⟩
  · refine ⟨x', y, rfl, ?_, fun c member => inX c (List.mem_append_right _ member), inY, ended⟩
    rintro rfl
    exact not_hasInk_stops inY ink
  · cases y' with
    | nil => exact absurd ink (not_hasInk_stops inY)
    | cons c y' =>
        -- the stops do not reach into the body
        have notBody := inBody_of_stop (inY c (by simp))
        rw [body c (by simp)] at notBody
        cases notBody

/-- A sentence does not go on after its stops. -/
theorem SentenceAt.no_stop_before {a front back b : PyStr} {t : Nat}
    (here : SentenceAt a (front ++ t :: back) b) (w : Nat) (later : w ∈ back) (body : inBody w = true)
    (stop : isStop t = true) : False := by
  obtain ⟨x, y, split, _, inX, inY, _⟩ := here.shape
  have notBody := inBody_of_stop stop
  rcases List.append_eq_append_iff.mp split with ⟨x', rfl, right⟩ | ⟨y', rfl, rfl⟩
  · cases x' with
    | cons c x' =>
        obtain rfl : t = c := by simpa using congrArg List.head? right
        rw [inX t (by simp)] at notBody
        cases notBody
    | nil =>
        rw [List.nil_append] at right
        have inStops := inBody_of_stop (inY w (by rw [← right]; simp [later]))
        rw [body] at inStops
        cases inStops
  · have inStops := inBody_of_stop (inY w (by simp [later]))
    rw [body] at inStops
    cases inStops

/-- What stands after matters only by its first character. -/
theorem SentenceAt.cut_after {a g b later : PyStr} (here : SentenceAt a g (b ++ later)) :
    SentenceAt a g b := by
  have same : ∀ c ∈ b.head?, c ∈ (b ++ later).head? := by
    intro c head
    rw [List.head?_append, Option.mem_def.mp head]
    rfl
  obtain ⟨x, y, split, nonempty, inX, inY, ended⟩ := here.shape
  exact ⟨⟨x, y, split, nonempty, inX, inY, fun none c head => ended none c (same c head)⟩,
    here.before, fun c head => here.after c (same c head)⟩

/-- Without the white space at its end, a sentence ends its text. -/
theorem SentenceAt.trim {a front back b : PyStr} (here : SentenceAt a (front ++ back) b)
    (ink : HasInk front) : SentenceAt a front [] := by
  obtain ⟨x, y, split, nonempty, inX, inY, ended⟩ := here.shape
  refine ⟨?_, here.before, fun _ none => (by cases none)⟩
  have ended' : ∀ y' : PyStr, y' = [] → ∀ c ∈ ([] : PyStr).head?, inBody c = false :=
    fun _ _ _ none => (by cases none)
  rcases List.append_eq_append_iff.mp split with ⟨x', rfl, _⟩ | ⟨y', rfl, rfl⟩
  · refine ⟨front, [], by rw [List.append_nil], ?_, fun c member => inX c (by simp [member]),
      fun c none => (by cases none), ended' _⟩
    rintro rfl
    obtain ⟨c, none, _⟩ := ink
    cases none
  · exact ⟨x, y', rfl, nonempty, inX, fun c member => inY c (by simp [member]), ended' _⟩

/-! ### Sentences and units -/

/-- A sentence that lies in a unit and the white space before it. -/
theorem inUnit_of_inside {lead unit a g b : PyStr} (spaces : Spaces lead)
    (split : lead ++ unit = a ++ (g ++ b)) (here : SentenceAt a g b) (ink : HasInk g) :
    InUnit [unit] g := by
  have blank := Spaces.outside_ink spaces
  have member : ∀ g', g' ∈ sentences unit → InUnit [unit] g' := fun g' member =>
    ⟨unit, by simp, g', member, [], [], by simp, fun _ none => (by cases none),
      fun _ none => (by cases none)⟩
  rcases List.append_eq_append_iff.mp split with ⟨a', rfl, inside⟩ | ⟨lead', rfl, right⟩
  · refine member g ((mem_sentences_iff unit g).mpr ⟨a', b, inside, here.move fun c last => ?_⟩)
    refine here.before c ?_
    rw [List.getLast?_append, Option.mem_def.mp last]
    rfl
  · -- nothing but the start of the text can stand before the white space
    have first : a = [] := by
      cases last : a.getLast? with
      | none => exact List.getLast?_eq_none_iff.mp last
      | some c =>
          have notBody := here.before c last
          rw [inBody_of_space (spaces c (by simp [List.mem_of_getLast? last]))] at notBody
          cases notBody
    subst first
    rcases List.append_eq_append_iff.mp right with ⟨rest, rfl, _⟩ | ⟨g', rfl, rfl⟩
    · obtain ⟨c, member, isInk⟩ := ink
      rw [blank c (by simp [member])] at isInk
      cases isInk
    · have ink' : HasInk g' := by
        obtain ⟨c, inG, isInk⟩ := ink
        rcases List.mem_append.mp inG with inLead | inG
        · rw [blank c (by simpa using inLead)] at isInk
          cases isInk
        · exact ⟨c, inG, isInk⟩
      have rest := here.tail ink' fun c inLead =>
        inBody_of_space (spaces c (by simpa using inLead))
      exact (member g' ((mem_sentences_iff _ g').mpr ⟨[], b, rfl, rest⟩)).after
        fun c inLead => blank c (by simpa using inLead)

/-- A sentence that goes over the end of a unit, with no ellipsis there, starts with blanks. -/
theorem starts_blank_of_crosses {lead unit a front back b : PyStr} {w : Nat}
    (ends : EndsSentence unit) (space : isSpace w = true) (split : lead ++ unit = a ++ front)
    (here : SentenceAt a (front ++ w :: back) b) (uncut : ¬ EllipsisCut (front ++ w :: back)) :
    ∀ c ∈ front, c ∈ closers := by
  obtain ⟨start, t, cl, rfl, terminal, closing⟩ := ends
  have whole : ∀ front', front = front' ++ t :: cl → False := by
    rintro front' rfl
    by_cases dots : t = ord '…'
    · exact uncut ⟨front', cl, w, back, by simp [dots], closing, space⟩
    · have stop : isStop t = true := by
        have all : ∀ d ∈ terminals, d ≠ ord '…' → isStop d = true := by decide +kernel
        exact all t terminal dots
      rw [List.append_assoc, List.cons_append] at here
      exact here.no_stop_before w (by simp) (inBody_of_space space) stop
  rw [← List.append_assoc] at split
  rcases List.append_eq_append_iff.mp split with ⟨a', _, inside⟩ | ⟨front', _, inside⟩
  · cases a' with
    | nil => exact (whole [] inside.symm).elim
    | cons c a' =>
        have inCl : cl = a' ++ front := (List.cons.inj inside).2
        exact fun d member => closing d (by simp [inCl, member])
  · exact (whole front' inside).elim

theorem HasInk.of_append_left {front back : PyStr} (ink : HasInk (front ++ back))
    (blank : Outside isInk front) : HasInk back := by
  obtain ⟨c, member, isInk⟩ := ink
  rcases List.mem_append.mp member with inFront | inBack
  · rw [blank c inFront] at isInk
    cases isInk
  · exact ⟨c, inBack, isInk⟩

theorem HasInk.of_append_right {front back : PyStr} (ink : HasInk (front ++ back))
    (blank : Outside isInk back) : HasInk front := by
  obtain ⟨c, member, isInk⟩ := ink
  rcases List.mem_append.mp member with inFront | inBack
  · exact ⟨c, inFront, isInk⟩
  · rw [blank c inBack] at isInk
    cases isInk

/-- A sentence of the refusal that no ellipsis cuts lies in one unit, up to blanks. -/
theorem sentence_in_unit {text : PyStr} {units : List PyStr} (seg : Segmented text units) :
    ∀ a g b, text = a ++ (g ++ b) → SentenceAt a g b → HasInk g → ¬ EllipsisCut g →
      InUnit units g := by
  induction seg with
  | empty spaces =>
      intro a g b split here ink uncut
      obtain ⟨c, member, isInk⟩ := ink
      rw [Spaces.outside_ink spaces c (by simp [split, member])] at isInk
      cases isInk
  | @last lead body trail spaces spaces' =>
      intro a g b split here ink uncut
      rw [← List.append_assoc, ← List.append_assoc] at split
      rcases List.append_eq_append_iff.mp split with ⟨past, right, rfl⟩ | ⟨b', inside, rfl⟩
      · -- the sentence ends in the white space after the unit
        have blank : Outside isInk past :=
          Spaces.outside_ink fun c member => spaces' c (by simp [member])
        rcases List.append_eq_append_iff.mp right with ⟨front, inside, rfl⟩ | ⟨_, _, rfl⟩
        · have ink' := ink.of_append_right blank
          have inUnit := inUnit_of_inside spaces (by rw [inside, List.append_nil]) (here.trim ink')
            ink'
          obtain ⟨unit, member, g', inUnit, pre, post, rfl, before, after⟩ := inUnit
          exact ⟨unit, member, g', inUnit, pre, post ++ past, by simp, before,
            outside_append after blank⟩
        · obtain ⟨c, member, isInk⟩ := ink
          rw [blank c (by simp [member])] at isInk
          cases isInk
      · rw [List.append_assoc] at inside
        exact inUnit_of_inside spaces inside here.cut_after ink
  | @cut lead unit w rest units spaces ends space later ih =>
      intro a g b split here ink uncut
      have inLater : ∀ u ∈ units, u ∈ unit :: units := fun u member => List.mem_cons_of_mem _ member
      have inFirst : ∀ u ∈ [unit], u ∈ unit :: units := by simp
      -- a sentence that starts before the white space ends in the unit or crosses its end
      have starts : ∀ front, lead ++ unit = a ++ front → front ++ w :: rest = g ++ b →
          InUnit (unit :: units) g := by
        intro front whole right
        rcases List.append_eq_append_iff.mp right with ⟨_ | ⟨c, back⟩, rfl, rest'⟩ | ⟨b', rfl, rfl⟩
        · rw [List.append_nil] at here ink ⊢
          have here' : SentenceAt a front ([] ++ b) := here
          exact (inUnit_of_inside spaces (by rw [whole, List.append_nil]) here'.cut_after ink).mono
            inFirst
        · obtain ⟨rfl, rfl⟩ := List.cons.inj rest'
          have closing := starts_blank_of_crosses ends space whole here uncut
          have blank : Outside isInk (front ++ [w]) :=
            outside_append (outside_closers closing) (Spaces.outside_ink (by simpa using space))
          rw [List.append_cons] at here ink ⊢
          have ink' := ink.of_append_left blank
          have body : ∀ c ∈ front ++ [w], inBody c = true := by
            have all : ∀ d ∈ closers, inBody d = true := by decide +kernel
            intro c member
            rcases List.mem_append.mp member with inFront | inW
            · exact all c (closing c inFront)
            · exact inBody_of_space (List.mem_singleton.mp inW ▸ space)
          have uncut' : ¬ EllipsisCut back := by
            rintro ⟨front', cl, w', back', rfl, closing', space'⟩
            exact uncut ⟨front ++ w :: front', cl, w', back', by simp, closing', space'⟩
          exact ((ih [] back b rfl (here.tail ink' body) ink' uncut').mono inLater).after blank
        · exact (inUnit_of_inside spaces whole here.cut_after ink).mono inFirst
      rw [← List.append_assoc] at split
      rcases List.append_eq_append_iff.mp split with ⟨_ | ⟨c, a'⟩, rfl, right⟩ | ⟨front, whole, right⟩
      · exact starts [] (by simp) right
      · refine (ih a' g b (List.cons.inj right).2 (here.move fun d last => ?_) ink uncut).mono
          inLater
        refine here.before d ?_
        rw [List.getLast?_append, List.getLast?_cons, Option.mem_def.mp last]
        rfl
      · exact starts front whole right.symm

/-! ### The refusal -/

section
variable [PyRuntime]

/-- `{"reply": {locale: text}}`, as the release rule writes it. -/
def replyProbe (locale text : PyStr) : PyStr :=
  dumps (.obj [(py "reply", .obj [(locale, .str text)])])

/-- A sentence that offers nothing: where a locale's clause is named, a negation governs every
offer. -/
def Innocent (g : PyStr) : Prop :=
  ∀ rule ∈ localeRules, found rule.wni g = true →
    ∀ m ∈ finditer rule.offer g, rule.governed g m.start = true

theorem innocent_iff (g : PyStr) : Innocent g ↔ ∀ rule ∈ localeRules, rule.offers g = [] := by
  refine forall₂_congr fun rule _ => ?_
  rw [OathRule.offers]
  cases found rule.wni g with
  | false => simp
  | true => simp [List.filter_eq_nil_iff]

theorem offerIn_eq_none_iff (g : PyStr) : offerIn g = none ↔ Innocent g := by
  rw [innocent_iff, offerIn, List.findSome?_eq_none_iff]
  simp only [Option.map_eq_none_iff, List.head?_eq_none_iff]

theorem loads_replyProbe (locale text : PyStr) :
    loads (replyProbe locale text) = some (.obj [(py "reply", .obj [(locale, .str text)])]) := by
  apply loads_dumps
  simp [Json.Canonical, CanonicalMembers, CanonicalMember]

/-- The check passes a reply exactly when every sentence of it is innocent. -/
theorem oath_check_none_iff (locale text : PyStr) :
    offersImpossibleOathModification (replyProbe locale text) = none ↔
      ∀ g ∈ sentences text, Innocent g := by
  have strings : replyStrings [(py "reply", .obj [(locale, .str text)])] = [text] := by
    simp [replyStrings, Dict.get]
  rw [offersImpossibleOathModification, loads_replyProbe]
  simp only [strings, List.findSome?_singleton, List.findSome?_eq_none_iff, offerIn_eq_none_iff]

/-- A sentence that no ellipsis cuts is innocent if every unit passes. -/
theorem innocent_of_uncut {locale reply : PyStr}
    (admitted : ∀ unit ∈ splitSentences reply,
      offersImpossibleOathModification (replyProbe locale unit) = none)
    {g : PyStr} (member : g ∈ sentences reply) (uncut : ¬ EllipsisCut g) : Innocent g := by
  rw [innocent_iff]
  intro rule inRules
  by_cases ink : HasInk g
  · obtain ⟨a, b, split, here⟩ := (mem_sentences_iff reply g).mp member
    obtain ⟨unit, inUnits, g', inUnit, pre, post, rfl, before, after⟩ :=
      sentence_in_unit (splitSentences_segmented reply) a g b split here ink uncut
    have innocent := (oath_check_none_iff locale unit).mp (admitted unit inUnits) g' inUnit
    rw [offers_surrounded inRules before after, (innocent_iff g').mp innocent rule inRules,
      List.map_nil]
  · exact offers_blank inRules (not_hasInk ink)

/-- Where every unit of a reply passes the check, the whole reply passes it exactly when every
sentence that an ellipsis before white space cuts is innocent. -/
theorem oath_units_decide_iff (locale reply : PyStr)
    (admitted : ∀ unit ∈ splitSentences reply,
      offersImpossibleOathModification (replyProbe locale unit) = none) :
    offersImpossibleOathModification (replyProbe locale reply) = none ↔
      ∀ g ∈ sentences reply, EllipsisCut g → ∀ rule ∈ localeRules, found rule.wni g = true →
        ∀ m ∈ finditer rule.offer g, rule.governed g m.start = true := by
  rw [oath_check_none_iff]
  constructor
  · exact fun innocent g member _ => innocent g member
  · intro cutInnocent g member
    by_cases cut : EllipsisCut g
    · exact cutInnocent g member cut
    · exact innocent_of_uncut admitted member cut

end

/-- The theorem at a reply whose ellipsis stands before a harmless sentence. -/
theorem oath_units_decide_iff_harmless :
    letI := PyRuntime.ascii
    offersImpossibleOathModification (replyProbe (py "en") (py "Let me see… it is Part 9.")) = none ↔
      ∀ g ∈ sentences (py "Let me see… it is Part 9."), EllipsisCut g →
        ∀ rule ∈ localeRules, found rule.wni g = true →
          ∀ m ∈ finditer rule.offer g, rule.governed g m.start = true :=
  letI := PyRuntime.ascii
  oath_units_decide_iff (py "en") (py "Let me see… it is Part 9.") (by decide +kernel)

/-- An offer made across an ellipsis: both units pass and the reply does not. -/
theorem oath_offer_crosses_units :
    letI := PyRuntime.ascii
    ¬ ∀ locale reply, (∀ unit ∈ splitSentences reply,
        offersImpossibleOathModification (replyProbe locale unit) = none) →
      offersImpossibleOathModification (replyProbe locale reply) = none := by
  intro all
  have passes := all (py "en") (py "You can skip that part… work of national importance.")
    (by decide +kernel)
  exact absurd passes (by decide +kernel)

end GhostPour.N400
