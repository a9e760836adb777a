/-
Module: GhostPour.N400.Proofs.ReadbackSplit
Layer: Proofs
Purpose: Whether the stream, which corrects identifiers in each sentence, says what the tail, which
  corrects them in the whole reply, writes. It does unless a sentence break cuts a run of digits that
  nearly misses a filed identifier, as a whole or in a part.
Trusted boundary: none
Main exports: nearMiss, spokenDigits, placed, correctSentence_eq, correctInPlace, CutAlike,
  correction_commutes_iff, number_across_break
-/
import GhostPour.Library.RegexChains
import GhostPour.N400.Proofs.Segments
import GhostPour.N400.ReleaseController

namespace GhostPour.N400

open Regex Chains

/-! ### Sentences in place -/

/-- A text cut at its sentences: the white space before each, and what is left at the end. -/
def placed : PyStr → List PyStr → List (PyStr × PyStr) × PyStr
  | text, [] => ([], text)
  | text, s :: sentences =>
      let later := placed ((text.dropWhile isSpace).drop s.length) sentences
      ((text.takeWhile isSpace, s) :: later.1, later.2)

/-- The parts of a cut text, one after the other. -/
def chunksOf (cut : List (PyStr × PyStr) × PyStr) : List PyStr :=
  cut.1.map (fun piece => piece.1 ++ piece.2) ++ [cut.2]

theorem Trimmed.head {s : PyStr} (trimmed : Trimmed s) : ∃ c rest, s = c :: rest ∧ isSpace c = false := by
  obtain ⟨c, rest, rfl⟩ := List.exists_cons_of_ne_nil trimmed.nonempty
  refine ⟨c, rest, rfl, ?_⟩
  rw [← Bool.not_eq_true]
  intro space
  have shorter : (strip (c :: rest)).length ≤ rest.length := by
    have front : ((c :: rest).dropWhile isSpace).length ≤ rest.length := by
      rw [List.dropWhile_cons_of_pos space]
      exact (List.dropWhile_suffix isSpace).length_le
    exact le_trans (List.rdropWhile_prefix isSpace _).length_le front
  rw [trimmed.bare, List.length_cons] at shorter
  omega

/-- Sentences that cover a text are found in it again. -/
theorem placed_of_covers {text : PyStr} {sentences : List PyStr} (covers : Covers text sentences) :
    (chunksOf (placed text sentences)).flatten = text ∧
      (∀ piece ∈ (placed text sentences).1, Spaces piece.1) ∧ Spaces (placed text sentences).2 := by
  induction covers with
  | @spaces lead spaces => exact ⟨List.append_nil lead, nofun, spaces⟩
  | @sentence lead s rest sentences spaces trimmed apart later ih =>
      obtain ⟨c, tail, rfl, ink⟩ := trimmed.head
      have gap : (lead ++ (c :: tail ++ rest)).takeWhile isSpace = lead := by
        rw [List.takeWhile_append_of_pos spaces, List.cons_append,
          List.takeWhile_cons_of_neg (by simp [ink]), List.append_nil]
      have inked : (lead ++ (c :: tail ++ rest)).dropWhile isSpace = c :: tail ++ rest := by
        rw [List.dropWhile_append_of_pos spaces, List.cons_append,
          List.dropWhile_cons_of_neg (by simp [ink])]
      rw [placed, gap, inked, List.drop_left]
      obtain ⟨whole, gaps, last⟩ := ih
      refine ⟨?_, List.forall_mem_cons.mpr ⟨spaces, gaps⟩, last⟩
      rw [chunksOf, List.map_cons, List.cons_append, List.flatten_cons]
      change lead ++ (c :: tail) ++ (chunksOf (placed rest sentences)).flatten = _
      rw [whole, List.append_assoc]

theorem sentencesOf_announced (sentences : List PyStr) :
    sentencesOf (announced sentences) = sentences := by
  induction sentences with
  | nil => rfl
  | cons s sentences ih =>
      change s :: sentencesOf (announced sentences) = _
      rw [ih]

/-! ### The digits of a run -/

/-- The filed value that digits are corrected to. -/
def nearMiss (filed : Assoc PyStr) (digits : PyStr) : Option PyStr :=
  if digits.length < minIdentifierDigits ∨ digits ∈ filed.values then none
  else (nearestFiled filed digits).map fun best => best.2.2

/-- The digits as they are spoken after the correction. -/
def spokenDigits (filed : Assoc PyStr) (digits : PyStr) : PyStr := (nearMiss filed digits).getD digits

theorem nearestFiled_mem {filed : Assoc PyStr} {digits : PyStr} {best : PyStr × Nat × PyStr}
    (found : nearestFiled filed digits = some best) :
    best.2.2 ∈ filed.values ∧ best.2.2.length = digits.length := by
  have keeps : ∀ b ∈ nearestFiled filed digits,
      b.2.2 ∈ filed.values ∧ b.2.2.length = digits.length := by
    refine List.foldlRecOn (motive := fun best : Option (PyStr × Nat × PyStr) =>
      ∀ b ∈ best, b.2.2 ∈ filed.values ∧ b.2.2.length = digits.length) filed _ nofun ?_
    rintro best holds ⟨id, value⟩ member
    dsimp only
    split
    · next nearer =>
      intro b same
      cases same
      exact ⟨List.mem_map_of_mem member, nearer.1⟩
    · exact holds
  exact keeps best found

/-- A near miss is a filed value of as many digits, and not what was said. -/
theorem nearMiss_spec {filed : Assoc PyStr} {digits value : PyStr}
    (found : nearMiss filed digits = some value) :
    value.length = digits.length ∧ value ≠ digits := by
  unfold nearMiss at found
  split at found
  · cases found
  · next other =>
    obtain ⟨best, nearest, rfl⟩ := Option.map_eq_some_iff.mp found
    obtain ⟨isFiled, length⟩ := nearestFiled_mem nearest
    refine ⟨length, fun same => other (.inr ?_)⟩
    rwa [← same]

/-- What is spoken has as many digits. -/
theorem spokenDigits_length (filed : Assoc PyStr) (digits : PyStr) :
    (spokenDigits filed digits).length = digits.length := by
  unfold spokenDigits
  cases found : nearMiss filed digits with
  | none => rfl
  | some value => exact (nearMiss_spec found).1

/-- One digit is no identifier. -/
theorem spokenDigits_singleton (filed : Assoc PyStr) (x : Nat) : spokenDigits filed [x] = [x] := by
  have short : [x].length < minIdentifierDigits := by
    rw [List.length_singleton]
    decide
  rw [spokenDigits, nearMiss, if_pos (.inl short)]
  rfl

/-- A run of digits that is cut in parts is spoken in its parts as it is as a whole: nothing of it is a near
miss, or what the parts come to is what the whole nearly misses. -/
def CutAlike (filed : Assoc PyStr) (run : List PyStr) : Prop :=
  (nearMiss filed run.flatten = none ∧ ∀ part ∈ run, nearMiss filed part = none) ∨
    nearMiss filed run.flatten = some (run.flatMap (spokenDigits filed))

theorem flatMap_spokenDigits_eq_iff (filed : Assoc PyStr) (run : List PyStr) :
    run.flatMap (spokenDigits filed) = run.flatten ↔ ∀ part ∈ run, nearMiss filed part = none := by
  induction run with
  | nil => exact iff_of_true rfl nofun
  | cons part run ih =>
      rw [List.flatMap_cons, List.flatten_cons, List.forall_mem_cons, ← ih]
      have alone : spokenDigits filed part = part ↔ nearMiss filed part = none := by
        unfold spokenDigits
        cases found : nearMiss filed part with
        | none => exact iff_of_true rfl rfl
        | some value => exact iff_of_false (nearMiss_spec found).2 nofun
      rw [← alone]
      constructor
      · exact fun same => List.append_inj same (spokenDigits_length filed part)
      · rintro ⟨first, later⟩
        rw [first, later]

theorem cutAlike_iff {filed : Assoc PyStr} {run : List PyStr} :
    spokenDigits filed run.flatten = run.flatMap (spokenDigits filed) ↔ CutAlike filed run := by
  unfold CutAlike
  rw [← flatMap_spokenDigits_eq_iff]
  unfold spokenDigits
  cases nearMiss filed run.flatten with
  | none => simp [eq_comm]
  | some value => simp

section
variable [PyRuntime]

/-! ### A corrected text -/

/-- A separator within a run of digits. -/
def isSeparator (x : Nat) : Bool := isSpace x || (py "-.,()").contains x

theorem digitRun_eq : digitRun = chain isDecimal isSeparator 2 := rfl

theorem isDigit_separator {x : Nat} (separates : isSeparator x = true) :
    PyRuntime.isDigit x = false := by
  rw [isSeparator, Bool.or_eq_true] at separates
  rcases separates with space | mark
  · exact PyRuntime.isDigit_space x space
  · have ascii : ∀ y ∈ py "-.,()", y < 128 ∧ isAsciiDigit y = false := by decide
    obtain ⟨small, other⟩ := ascii x (by simpa using mark)
    rw [PyRuntime.isDigit_ascii x small, other]

theorem isDecimal_separator (x : Nat) (separates : isSeparator x = true) : isDecimal x = false := by
  rw [← Bool.not_eq_true]
  intro decimal
  have digit := PyRuntime.isDigit_decimal x decimal
  rw [isDigit_separator separates] at digit
  cases digit

/-- In a run of digits and separators the places to fill are those of the decimal digits. -/
theorem fillDigits_eq_refill {run : PyStr}
    (inside : ∀ y ∈ run, isDecimal y = true ∨ isSeparator y = true) (value : PyStr) :
    fillDigits value run = refill isDecimal value run := by
  induction run generalizing value with
  | nil => cases value <;> rfl
  | cons y run ih =>
      rw [List.forall_mem_cons] at inside
      cases value with
      | nil => rfl
      | cons d value =>
          rw [fillDigits, refill, ih inside.2, ih inside.2]
          rcases inside.1 with decimal | separates
          · rw [if_pos (PyRuntime.isDigit_decimal y decimal), if_pos decimal]
          · rw [if_neg (by simp [isDigit_separator separates]),
              if_neg (by simp [isDecimal_separator y separates])]

/-- The correction of one run fills it with the digits as they are spoken. -/
theorem correctRun_eq_refill (filed : Assoc PyStr) {run : PyStr}
    (inside : ∀ y ∈ run, isDecimal y = true ∨ isSeparator y = true) :
    ((correctRun filed run).map fun c => c.2.2).getD run =
      refill isDecimal (spokenDigits filed (run.filter isDecimal)) run := by
  have whole : refill isDecimal (run.filter isDecimal) run = run := refill_filter run
  have digits : onlyDigits run = run.filter isDecimal := rfl
  rw [correctRun, spokenDigits, nearMiss, digits]
  split
  · exact whole.symm
  · cases nearestFiled filed (run.filter isDecimal) with
    | none => exact whole.symm
    | some best => exact fillDigits_eq_refill inside best.2.2

/-- A text with its runs corrected is the text with its runs of digits as they are spoken. -/
theorem correctRuns_eq (filed : Assoc PyStr) (text : PyStr) :
    correctRuns filed text =
      refill isDecimal ((blocks isDecimal isSeparator 2 text).flatMap (spokenDigits filed)) text := by
  rw [correctRuns, digitRun_eq]
  exact subWith_chain isDecimal_separator (spokenDigits_length filed) (spokenDigits_singleton filed)
    (fun _ inside => correctRun_eq_refill filed inside) text

/-- `_identifier_digits` of a list of facts. -/
def filedDigitsOf (facts : List Json) : Assoc PyStr :=
  facts.foldl (fun out f => match identifierOf f with
    | some (id, digits) => out.set id digits
    | none => out) []

/-- The text that `correct_identifier_readback` returns, for a list of facts. -/
theorem correctSentence_eq (facts : List Json) (text : PyStr) :
    correctSentence (.arr facts) text = some (refill isDecimal
      ((blocks isDecimal isSeparator 2 text).flatMap (spokenDigits (filedDigitsOf facts))) text) := by
  have filed : identifierDigits (.arr facts) = some (filedDigitsOf facts) := by
    unfold identifierDigits Json.iterateOrEmpty filedDigitsOf
    cases facts <;> rfl
  rw [correctSentence, correctIdentifierReadback, filed, Option.map_some, Option.map_some]
  split
  · next none_ =>
    have same : ∀ digits, spokenDigits (filedDigitsOf facts) digits = digits := by
      intro digits
      rw [none_, spokenDigits, nearMiss]
      split <;> rfl
    have whole : refill isDecimal (text.filter isDecimal) text = text := refill_filter text
    have kept : (blocks isDecimal isSeparator 2 text).flatMap (spokenDigits (filedDigitsOf facts)) =
        text.filter isDecimal := by
      have flat : (blocks isDecimal isSeparator 2 text).flatten = text.filter isDecimal :=
        blocks_flatten text
      rw [← flat, List.flatMap_def]
      simp only [funext same, List.map_id']
    rw [kept, whole]
  · rw [correctRuns_eq]

/-! ### In place -/

/-- The reply with each sentence corrected by itself, where it stands. -/
def correctInPlace (facts : Json) (text : PyStr) (sentences : List PyStr) : Py PyStr := do
  let pieces ← (placed text sentences).1.mapM fun piece =>
    (correctSentence facts piece.2).map fun fixed => piece.1 ++ fixed
  return pieces.flatten ++ (placed text sentences).2

open SentenceSplitter

/-- The sentences of a reply that comes in chunks. -/
def sentencesIn (chunks : List PyStr) : List PyStr := sentencesOf (splitterEvents chunks)

theorem sentencesIn_cover (chunks : List PyStr) : Covers chunks.flatten (sentencesIn chunks) := by
  obtain ⟨sentences, events, covers, _⟩ := feed_covers chunks.flatten SentenceSplitter.Holds.init
  have reported : splitterEvents chunks = announced sentences := by
    rw [splitterEvents, feedChunks_eq_feed]
    exact events
  rwa [sentencesIn, reported, sentencesOf_announced]

theorem isDecimal_spaces {gap : PyStr} (spaces : Spaces gap) : ∀ y ∈ gap, isDecimal y = false := by
  intro y member
  apply isDecimal_separator
  rw [isSeparator, spaces y member]
  rfl

/-- The sentences corrected in place are the parts of the text refilled for themselves. -/
theorem correctInPlace_eq (facts : List Json) {text : PyStr} {sentences : List PyStr}
    (covers : Covers text sentences) :
    correctInPlace (.arr facts) text sentences =
      some ((chunksOf (placed text sentences)).flatMap fun chunk => refill isDecimal
        ((blocks isDecimal isSeparator 2 chunk).flatMap (spokenDigits (filedDigitsOf facts))) chunk) := by
  obtain ⟨-, gaps, last⟩ := placed_of_covers covers
  have pieces : ∀ pieces : List (PyStr × PyStr), (∀ piece ∈ pieces, Spaces piece.1) →
      pieces.mapM (fun piece =>
        (correctSentence (.arr facts) piece.2).map fun fixed => piece.1 ++ fixed) =
      some ((pieces.map fun piece => piece.1 ++ piece.2).map fun chunk => refill isDecimal
        ((blocks isDecimal isSeparator 2 chunk).flatMap (spokenDigits (filedDigitsOf facts))) chunk) := by
    intro pieces
    induction pieces with
    | nil => exact fun _ => rfl
    | cons piece pieces ih =>
        intro spaces
        rw [List.forall_mem_cons] at spaces
        have bare := isDecimal_spaces spaces.1
        rw [List.mapM_cons, ih spaces.2, correctSentence_eq, List.map_cons, List.map_cons,
          blocks_gap bare, refill_gap bare]
        rfl
  have tail : refill isDecimal ((blocks isDecimal isSeparator 2 (placed text sentences).2).flatMap
      (spokenDigits (filedDigitsOf facts))) (placed text sentences).2 = (placed text sentences).2 := by
    have none_ : blocks isDecimal isSeparator 2 ((placed text sentences).2 ++ []) = [] :=
      blocks_gap (isDecimal_spaces last) []
    rw [List.append_nil] at none_
    rw [none_]
    exact refill_nil _
  rw [correctInPlace, pieces _ gaps, chunksOf, List.flatMap_append, List.flatMap_singleton, tail,
    List.flatMap_def]
  rfl

/-- For every reply, however it comes, and every list of facts: the sentences, each corrected by itself and
joined in place, are the corrected reply if and only if each run of digits, cut where the sentence breaks
cut it, is spoken in its parts as it is as a whole. -/
theorem correction_commutes_iff (chunks : List PyStr) (facts : List Json) :
    correctInPlace (.arr facts) chunks.flatten (sentencesIn chunks) =
        correctSentence (.arr facts) chunks.flatten ↔
      ∀ run ∈ parts isDecimal isSeparator 2 (chunksOf (placed chunks.flatten (sentencesIn chunks))),
        CutAlike (filedDigitsOf facts) run := by
  have covers := sentencesIn_cover chunks
  obtain ⟨whole, -, -⟩ := placed_of_covers covers
  rw [correctInPlace_eq facts covers, correctSentence_eq, Option.some_inj]
  conv => lhs; rhs; rw [← whole]
  rw [flatMap_refill_eq_iff (spokenDigits_length (filedDigitsOf facts))]
  exact forall₂_congr fun run _ => cutAlike_iff

end

/-! ### A number across a break -/

/-- A fact that files a social security number. -/
def ssnFiled : Json :=
  .obj [(py "field_id", .str (py "p2.ssn")), (py "value", .str (py "123456780"))]

/-- A reply that reads it back with another last digit, and with a full stop inside. -/
def readbackReply : PyStr := py "Your number is 123. 456789 ok."

/-- The tail corrects the digit, the sentences leave it. -/
theorem number_across_break :
    letI := PyRuntime.ascii
    correctSentence (.arr [ssnFiled]) readbackReply = some (py "Your number is 123. 456780 ok.") ∧
      correctInPlace (.arr [ssnFiled]) readbackReply (sentencesIn [readbackReply]) =
        some readbackReply ∧
      readbackReply ≠ py "Your number is 123. 456780 ok." := by
  let _ := PyRuntime.ascii
  decide +kernel

end GhostPour.N400
