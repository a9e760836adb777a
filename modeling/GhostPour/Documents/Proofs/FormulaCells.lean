/-
Module: GhostPour.Documents.Proofs.FormulaCells
Layer: Proofs
Purpose: Which cells of a rendered workbook hold formulas. Cleaning neither puts an equals sign in front of a
  text nor takes one away, so the formulas are the renderer's own exactly when no text that reaches a cell
  opens with one.
Trusted boundary: none
Main exports: Composes, firstInk, clean_opens, Plan.supplied, Item.openings, composes_renderWorkbook,
  composes_ganttView, formulas_composed_iff
-/
import GhostPour.Documents.GanttWorkbook
import GhostPour.Documents.Proofs.DashHygiene
import GhostPour.Documents.Proofs.GanttRows
import GhostPour.Documents.Proofs.TabNames
import GhostPour.Library.Words

namespace GhostPour.Documents

open Regex

/-! ### Formulas of the renderer's own -/

/-- A cell that holds a formula is one the renderer composed. -/
def Content.Sound (c : Content) : Prop := c.isFormula = true → c.isComposed = true

/-- Every cell of a page that holds a formula is one the renderer composed. -/
def PageComposes (page : Page) : Prop := ∀ e ∈ page, e.content.Sound

/-- Every cell of a workbook that holds a formula is one the renderer composed. -/
def Composes (pages : List Page) : Prop := ∀ page ∈ pages, PageComposes page

@[simp] theorem sound_text (s : PyStr) : (Content.text s).Sound ↔ s.head? ≠ some equals := by
  simp [Content.Sound, Content.isFormula, Content.isComposed]

@[simp] theorem sound_composed (f : Composed) : (Content.composed f).Sound := fun _ => rfl

@[simp] theorem sound_date (d : Int) : (Content.date d).Sound := by simp [Content.Sound, Content.isFormula]

@[simp] theorem sound_number (q : ℚ) : (Content.number q).Sound := by
  simp [Content.Sound, Content.isFormula]

@[simp] theorem sound_value (v : Json) : (Content.value v).Sound := by
  simp [Content.Sound, Content.isFormula]

@[simp] theorem composes_nil : PageComposes [] := fun _ member => absurd member List.not_mem_nil

@[simp] theorem composes_cons {e : Entry} {page : Page} :
    PageComposes (e :: page) ↔ e.content.Sound ∧ PageComposes page :=
  List.forall_mem_cons

@[simp] theorem composes_append {page more : Page} :
    PageComposes (page ++ more) ↔ PageComposes page ∧ PageComposes more :=
  List.forall_mem_append

@[simp] theorem composes_flatMap {α : Type} {items : List α} {f : α → Page} :
    PageComposes (items.flatMap f) ↔ ∀ a ∈ items, PageComposes (f a) := by
  simp only [PageComposes, List.mem_flatMap]
  exact ⟨fun all a member e here => all e ⟨a, member, here⟩,
    fun each e ⟨a, member, here⟩ => each a member e here⟩

@[simp] theorem composes_map {α : Type} {items : List α} {f : α → Entry} :
    PageComposes (items.map f) ↔ ∀ a ∈ items, (f a).content.Sound :=
  List.forall_mem_map

@[simp] theorem composes_toList {o : Option Entry} :
    PageComposes o.toList ↔ ∀ e ∈ o, e.content.Sound := by
  simp [PageComposes]

/-- What is numbered is what was there. -/
theorem forall_zipIdx {α : Type} {items : List α} (k : Nat) {P : α → Prop} :
    (∀ t ∈ items.zipIdx k, P t.1) ↔ ∀ a ∈ items, P a := by
  conv_rhs => rw [← List.zipIdx_map_fst k items]
  rw [List.forall_mem_map]

/-- A text that starts with something of the renderer's. -/
theorem head_prefixed {front : PyStr} {c : Nat} (head : front.head? = some c) (other : c ≠ equals)
    (rest : PyStr) : (front ++ rest).head? ≠ some equals := by
  rw [List.head?_append, head, Option.some_or, Ne, Option.some.injEq]
  exact other

theorem composes_textColumn (texts : List PyStr) :
    PageComposes (textColumn texts) ↔ ∀ s ∈ texts, s.head? ≠ some equals := by
  rw [textColumn, composes_map]
  simp only [sound_text]
  exact forall_zipIdx (P := fun s : PyStr => s.head? ≠ some equals) 1

theorem composes_textRow (row : Nat) (texts : List PyStr) :
    PageComposes (textRow row texts) ↔ ∀ s ∈ texts, s.head? ≠ some equals := by
  rw [textRow, composes_map]
  simp only [sound_text]
  exact forall_zipIdx (P := fun s : PyStr => s.head? ≠ some equals) 1

/-! ### The first character -/

/-- The first character that is not white space. -/
def firstInk (s : PyStr) : Option Nat := s.find? (!isSpace ·)

theorem firstInk_append (a b : PyStr) : firstInk (a ++ b) = (firstInk a).or (firstInk b) :=
  List.find?_append

theorem firstInk_cons {c : Nat} (ink : isSpace c = false) (rest : PyStr) : firstInk (c :: rest) = some c :=
  List.find?_cons_of_pos (by simp [ink])

/-- A stripped text starts with the first character of the text that is not white space. -/
theorem head_strip (s : PyStr) : (strip s).head? = firstInk s := by
  induction s with
  | nil => rfl
  | cons c s ih =>
      cases ink : isSpace c with
      | false =>
          obtain ⟨later, kept⟩ := Workbook.strip_cons ink s
          rw [kept, firstInk_cons ink]
          rfl
      | true =>
          have passed : strip (c :: s) = strip s := by
            rw [strip, stripBy, List.dropWhile_cons_of_pos ink]
            rfl
          rw [passed, ih, firstInk, firstInk, List.find?_cons_of_neg (by simp [ink])]

/-- There is ink in the text, and the first is no equals sign. -/
def Blunt (s : PyStr) : Prop := ∃ c, firstInk s = some c ∧ c ≠ equals

theorem blunt_of_mem {s : PyStr} (none_ : ∀ c ∈ s, (c != equals) = true)
    (ink : ∃ c ∈ s, (!isSpace c) = true) : Blunt s := by
  obtain ⟨c, first⟩ := Option.isSome_iff_exists.mp (List.find?_isSome.mpr ink)
  exact ⟨c, first, bne_iff_ne.mp (none_ c (List.mem_of_find?_eq_some first))⟩

/-- A rewriting that puts one such text in another's place does not change whether the text opens with an
equals sign. -/
theorem opens_subWith {r : Regex} {f : Match → PyStr} (out : ∀ text new, Replaces r f text new → Blunt text)
    (put : ∀ text new, Replaces r f text new → Blunt new) (s : PyStr) :
    firstInk (subWith r f s) = some equals ↔ firstInk s = some equals := by
  have same : decide (firstInk (subWith r f s) = some equals) = decide (firstInk s = some equals) := by
    refine (subWith_rewrites r f s).same (g := fun s => decide (firstInk s = some equals))
      (fun text new replaces a b => ?_) []
    obtain ⟨c, first, other⟩ := out text new replaces
    obtain ⟨d, first', other'⟩ := put text new replaces
    simp only [firstInk_append, first, first', Option.some_or]
    cases firstInk a with
    | none => simp [other, other']
    | some e => rfl
  simpa using same

/-- The pattern has no equals sign and needs ink; it gives way to one text. -/
theorem opens_sub {r : Regex} {new : PyStr} (sets : r.SetsIn (· != equals)) (needs : r.Needs (!isSpace ·))
    (put : Blunt new) (s : PyStr) : firstInk (sub r new s) = some equals ↔ firstInk s = some equals := by
  apply opens_subWith
  · intro text _ replaces
    exact blunt_of_mem (replaces.chars sets) (replaces.has needs)
  · rintro text _ ⟨_, _, _, _, _, rfl⟩
    exact put

theorem set_avoids {p : Nat → Bool} (out : p equals = false) : ∀ c, p c = true → (c != equals) = true := by
  intro c holds
  rw [bne_iff_ne]
  rintro rfl
  rw [out] at holds
  cases holds

/-! ### Cleaning -/

section
variable [PyRuntime]

open TextHygiene

omit [PyRuntime] in
theorem dash_ink (c : Nat) (dash : isDash c = true) : (!isSpace c) = true := by
  have each : ∀ c ∈ emEn, (!isSpace c) = true := by decide
  exact each c (List.contains_iff_mem.mp dash)

omit [PyRuntime] in
theorem opens_bullet (s : PyStr) :
    firstInk (subWith bullet (fun m => (m.group 1).getD [] ++ py "- ") s) = some equals ↔
      firstInk s = some equals := by
  have avoids : bullet.SetsIn (· != equals) :=
    ⟨trivial, set_avoids (by decide), set_avoids (by decide), set_avoids (by decide), trivial⟩
  have needs : bullet.Needs (!isSpace ·) := .inr (.inr (.inl dash_ink))
  apply opens_subWith
  · intro text _ replaces
    exact blunt_of_mem (replaces.chars avoids) (replaces.has needs)
  · rintro text _ ⟨prev, d, i, _, reached, rfl⟩
    obtain ⟨t, blank, groups⟩ := bullet_group reached
    have gone : firstInk t = none := by
      rw [firstInk, List.find?_eq_none]
      intro c member
      have either := blank c member
      rw [isBlank, Bool.or_eq_true, beq_iff_eq, beq_iff_eq] at either
      rcases either with rfl | rfl <;> decide
    refine ⟨45, ?_, by decide⟩
    rw [groups]
    change firstInk (t ++ py "- ") = some 45
    rw [firstInk_append, gone]
    decide

/-- No pass puts an equals sign in front or takes one away. -/
theorem opens_normalizeDashes (s : PyStr) :
    firstInk (normalizeDashes s) = some equals ↔ firstInk s = some equals := by
  unfold normalizeDashes
  split
  · rfl
  · have arrowInk : ∀ c, isArrow c = true → (!isSpace c) = true := by
      intro c arrow
      have each : ∀ c ∈ [0x2192, 0x2190, 0x21D2, 0x2794, 0x279C], (!isSpace c) = true := by decide
      exact each c (List.contains_iff_mem.mp arrow)
    have blunt : Blunt (py " to ") := ⟨116, by decide, by decide⟩
    have comma_ : Blunt (py ", ") := ⟨44, by decide, by decide⟩
    rw [opens_sub (r := trailing) ⟨set_avoids (by decide), ⟨set_avoids (by decide), set_avoids (by decide)⟩,
        trivial⟩ (.inl fun c is => by rw [beq_iff_eq.mp is]; decide) ⟨44, by decide, by decide⟩,
      opens_sub (r := aside) ⟨set_avoids (by decide), ⟨set_avoids (by decide), set_avoids (by decide)⟩,
        set_avoids (by decide)⟩ (.inr (.inl (.inl dash_ink))) comma_,
      opens_bullet,
      opens_sub (r := wordRange) ⟨trivial, set_avoids (by decide), trivial⟩
        (.inr (.inl fun c is => by rw [beq_iff_eq.mp is]; decide)) blunt,
      opens_sub (r := range) ⟨trivial, set_avoids (by decide), set_avoids (by decide), set_avoids (by decide),
        trivial⟩ (.inr (.inr (.inl dash_ink))) ⟨45, by decide, by decide⟩,
      opens_sub (r := arrows) ⟨set_avoids (by decide), set_avoids (by decide), set_avoids (by decide)⟩
        (.inr (.inl arrowInk)) blunt]

/-- A cleaned text starts with an equals sign exactly when that is the first ink of the text. -/
theorem clean_opens (s : PyStr) :
    (Workbook.clean s).head? = some equals ↔ firstInk s = some equals := by
  rw [Workbook.clean, head_strip,
    opens_sub (r := Workbook.spacedHyphen)
      ⟨⟨set_avoids (by decide), set_avoids (by decide)⟩, set_avoids (by decide), set_avoids (by decide),
        set_avoids (by decide)⟩
      (.inr (.inl fun c is => by rw [beq_iff_eq.mp is]; decide)) ⟨44, by decide, by decide⟩,
    opens_normalizeDashes]

/-! ### Workbooks from a sheet plan -/

open Workbook Artifacts

/-- The first ink of a value, if the value is a text. -/
def opening : Json → Option Nat
  | .str s => firstInk s
  | _ => none

@[simp] theorem composes_cleaned (row col : Nat) (v : Json) :
    PageComposes (cleaned row col v) ↔ opening v ≠ some equals := by
  cases v with
  | str s => simp [cleaned, opening, clean_opens]
  | null | bool | int | float | arr | obj => simp [cleaned, opening]

/-- What fills a sheet: its heading, its labels and the columns that are not computed. -/
def suppliedBy (spec : SheetSpec) : List Json :=
  heading spec :: (spec.columns.map fun c => Json.str (columnHead c)) ++
    spec.rows.flatMap fun row =>
      (spec.columns.filter fun c => c.computed.isNone).map fun c => row.get c.key

/-- What fills the cells of a plan's workbook. -/
def supplied (plan : Plan) : List Json :=
  (if plan.readme.truthy then
    either plan.title (.str (py "Workbook")) :: (readmeEntries plan.readme).map fun f => joined f.2
  else []) ++ (plan.sheets.filter fun spec => !spec.columns.isEmpty).flatMap suppliedBy

theorem composes_readmePage (plan : Plan) : PageComposes (readmePage plan) ↔
    ∀ v ∈ either plan.title (.str (py "Workbook")) :: (readmeEntries plan.readme).map (fun f => joined f.2),
      opening v ≠ some equals := by
  have labels : ∀ f ∈ readmeEntries plan.readme, f.1.head? ≠ some equals := by
    intro f member
    obtain ⟨label, known, rfl⟩ := List.mem_map.mp (List.mem_of_mem_filter member)
    have all : ∀ label ∈ readmeLabels, label.1.head? ≠ some equals := by decide
    exact all label known
  rw [readmePage, composes_append, composes_cleaned, composes_flatMap, List.forall_mem_cons,
    List.forall_mem_map]
  refine and_congr_right' ?_
  simp only [composes_cons, composes_cleaned, sound_text]
  rw [forall_zipIdx (P := fun f : PyStr × Json => f.1.head? ≠ some equals ∧ opening (joined f.2) ≠ some equals)]
  exact forall₂_congr fun f member => and_iff_right (labels f member)

theorem composes_rowCell (cols : List Artifacts.Column) (row : Nat) (values : Dict)
    (c : Artifacts.Column × Nat) : PageComposes (rowCell cols row values c) ↔
      (c.1.computed.isNone = true → opening (values.get c.1.key) ≠ some equals) := by
  unfold rowCell
  cases c.1.computed with
  | none => simp
  | some intent =>
      simp only [composes_toList, Option.isNone_some, Bool.false_eq_true, false_implies, iff_true]
      intro e member
      obtain ⟨t, _, rfl⟩ := Option.map_eq_some_iff.mp member
      exact sound_composed _

omit [PyRuntime] in
theorem composes_totalsRow (spec : SheetSpec) : PageComposes (totalsRow spec) := by
  simp only [totalsRow]
  split
  · exact composes_nil
  · rw [composes_cons]
    refine ⟨by rw [sound_text]; decide, ?_⟩
    intro e member
    obtain ⟨c, _, written⟩ := List.mem_filterMap.mp member
    obtain ⟨_, total⟩ := Option.ite_none_right_eq_some.mp written
    obtain ⟨letter, _, rfl⟩ := Option.map_eq_some_iff.mp total
    exact sound_composed _

theorem composes_sheetPage (spec : SheetSpec) : PageComposes (sheetPage spec) ↔
    ∀ v ∈ suppliedBy spec, opening v ≠ some equals := by
  have labels : (∀ c ∈ spec.columns.zipIdx 1, PageComposes (cleaned 2 c.2 (.str (columnHead c.1)))) ↔
      ∀ c ∈ spec.columns, opening (.str (columnHead c)) ≠ some equals := by
    simp only [composes_cleaned]
    exact forall_zipIdx (P := fun c : Artifacts.Column => opening (.str (columnHead c)) ≠ some equals) 1
  have rows : (∀ r ∈ spec.rows.zipIdx 3, PageComposes
        ((spec.columns.zipIdx 1).flatMap (rowCell spec.columns r.2 r.1))) ↔
      ∀ row ∈ spec.rows, ∀ c ∈ spec.columns, c.computed.isNone = true →
        opening (row.get c.key) ≠ some equals := by
    simp only [composes_flatMap, composes_rowCell]
    rw [forall_zipIdx (P := fun row : Dict => ∀ c ∈ spec.columns.zipIdx 1, c.1.computed.isNone = true →
      opening (row.get c.1.key) ≠ some equals)]
    refine forall₂_congr fun row _ => ?_
    exact forall_zipIdx (P := fun c : Artifacts.Column => c.computed.isNone = true →
      opening (row.get c.key) ≠ some equals) 1
  rw [sheetPage, composes_append, composes_cleaned, composes_append, composes_flatMap, labels,
    composes_append, composes_flatMap, rows, suppliedBy, List.cons_append, List.forall_mem_cons,
    List.forall_mem_append, List.forall_mem_map]
  simp only [composes_totalsRow, and_true, List.mem_flatMap, List.mem_map, List.mem_filter,
    forall_exists_index, and_imp]
  refine and_congr_right' (and_congr_right' ?_)
  constructor
  · rintro each _ row inRows c inCols plain rfl
    exact each row inRows c inCols plain
  · intro each row inRows c inCols plain
    exact each _ row inRows c inCols plain rfl

omit [PyRuntime] in
theorem eq_of_saved {takes : Content → Bool} {pages book : List Page} (done : saved takes pages = some book) :
    book = pages := by
  obtain ⟨_, same⟩ := Option.ite_none_right_eq_some.mp done
  exact (Option.some.inj same).symm

/-- The formulas of a rendered plan are the renderer's own exactly when nothing that fills a cell opens with an
equals sign. -/
theorem composes_renderWorkbook {takes : Content → Bool} {plan : Plan} {book : List Page}
    (done : renderWorkbook takes plan = some book) :
    Composes book ↔ ∀ v ∈ supplied plan, opening v ≠ some equals := by
  unfold renderWorkbook at done
  split at done
  · cases done
  · rw [eq_of_saved done, supplied, List.forall_mem_append, Composes, List.forall_mem_append,
      List.forall_mem_map]
    simp only [composes_sheetPage]
    apply and_congr
    · split
      · rw [List.forall_mem_singleton]
        exact composes_readmePage plan
      · simp
    · simp only [List.mem_flatMap, forall_exists_index, and_imp]
      exact ⟨fun each v spec kept inSpec => each spec kept v inSpec,
        fun each spec kept v inSpec => each v spec kept inSpec⟩

end

/-! ### Texts of the Gantt renderers -/

theorem head_numeral (n : Nat) (rest : PyStr) : (strOfNat n ++ rest).head? ≠ some equals := by
  rcases digitsOfNat_head n n le_rfl with zero | ⟨c, digits, shape, _, digit⟩
  · rw [strOfNat, zero]
    exact head_prefixed (c := 48) rfl (by decide) rest
  · rw [strOfNat, shape]
    refine head_prefixed (c := c) rfl ?_ rest
    rintro rfl
    exact absurd digit (by decide)

theorem mem_digits {width n c : Nat} (member : c ∈ digits width n) : 48 ≤ c ∧ c < 58 := by
  induction width generalizing n with
  | zero => exact absurd member List.not_mem_nil
  | succ width ih =>
      rcases List.mem_append.mp member with front | last
      · exact ih front
      · rw [List.mem_singleton.mp last]
        omega

/-- A date starts with a digit of its year. -/
theorem isoDay_head (d : Int) : ∃ c rest, isoDay d = c :: rest ∧ 48 ≤ c ∧ c < 58 := by
  unfold isoDay DateTime.dayText DateTime.dateText
  generalize (DateTime.ofInstant (d.toNat * microsPerDay)).month / 12 + 1 = year
  cases shape : digits 4 year with
  | nil => exact absurd (congrArg List.length shape) (by simp)
  | cons c more => exact ⟨c, _, rfl, mem_digits (shape ▸ List.mem_cons_self ..)⟩

theorem head_isoDay (d : Int) : (isoDay d).head? ≠ some equals := by
  obtain ⟨c, rest, shape, low, high⟩ := isoDay_head d
  rw [shape, List.head?_cons, Ne, Option.some.injEq]
  change ¬c = 61
  omega

theorem firstInk_isoDay (d : Int) : firstInk (isoDay d) ≠ some equals := by
  obtain ⟨c, rest, shape, low, high⟩ := isoDay_head d
  have ink : isSpace c = false := by
    have each : ∀ c < 58, 48 ≤ c → isSpace c = false := by decide
    exact each c high low
  rw [shape, firstInk_cons ink, Ne, Option.some.injEq]
  change ¬c = 61
  omega

/-- A month starts with its letter. -/
theorem head_dayOfMonth (d : Int) (rest : PyStr) :
    ∃ c, ((dayOfMonth d).1 ++ rest).head? = some c ∧ c ≠ equals := by
  have names : ∀ name ∈ "Jan" :: monthNames, ∃ c ∈ (py name).head?, c ≠ equals := by decide
  have known : monthNames.getD ((DateTime.ofInstant (d.toNat * microsPerDay)).month % 12) "Jan" ∈
      "Jan" :: monthNames := by
    rw [List.getD_eq_getElem?_getD]
    cases found : monthNames[(DateTime.ofInstant (d.toNat * microsPerDay)).month % 12]? with
    | none => exact List.mem_cons_self ..
    | some name => exact List.mem_cons_of_mem _ (List.mem_of_getElem? found)
  obtain ⟨c, head, other⟩ := names _ known
  refine ⟨c, ?_, other⟩
  rw [dayOfMonth, List.head?_append, Option.mem_def.mp head, Option.some_or]

/-- Texts that are joined start as the first of them. -/
theorem head_join {parts : List PyStr} (plain : ∀ p ∈ parts, ∃ c, p.head? = some c ∧ c ≠ equals)
    (sep : PyStr) : (join sep parts).head? ≠ some equals := by
  cases parts with
  | nil => simp [join]
  | cons p parts =>
      obtain ⟨c, head, other⟩ := plain p (List.mem_cons_self ..)
      cases parts with
      | nil =>
          rw [join, List.intercalate_singleton, head, Ne, Option.some.injEq]
          exact other
      | cons q parts =>
          rw [join, List.intercalate_cons_of_ne_nil (List.cons_ne_nil q parts), List.append_assoc]
          exact head_prefixed head other _

/-! ### The Gantt View -/

section
variable [CaseRuntime]

omit [CaseRuntime] in
/-- The first letters of the first words start as the text does. -/
theorem head_initialLetters (s : PyStr) :
    (((words s).take 2).flatMap fun w => w.take 1).head? = firstInk s := by
  induction s with
  | nil => rfl
  | cons c s ih =>
      cases ink : isSpace c with
      | true =>
          rw [words_space_cons ink, ih, firstInk, firstInk, List.find?_cons_of_neg (by simp [ink])]
      | false =>
          obtain ⟨w, ws, first⟩ := words_ink_cons ink s
          rw [first, firstInk_cons ink]
          rfl

theorem initials_opens (owner : PyStr) :
    (initials (strip owner)).head? = some equals ↔ firstInk owner = some equals := by
  rw [initials, CaseRuntime.upper_equals, words_strip, head_initialLetters]

/-- What is stripped and not left empty. -/
theorem composes_stripped (s : PyStr) (row col col' : Nat) :
    PageComposes (if strip s = [] then [] else [⟨row, col, .text (initials (strip s))⟩,
      ⟨row, col', .text (strip s)⟩]) ↔ firstInk s ≠ some equals := by
  split
  · next blank =>
    rw [← head_strip, blank]
    simp
  · simp [initials_opens, head_strip]

omit [CaseRuntime] in
theorem composes_effort (effort : Option PyStr) (row col : Nat) :
    PageComposes (((effort.map strip).filter (· ≠ [])).toList.map fun e => ⟨row, col, .text e⟩) ↔
      firstInk (effort.getD []) ≠ some equals := by
  cases effort with
  | none => simp [firstInk]
  | some e =>
      rw [Option.getD_some, ← head_strip, Option.map_some]
      by_cases blank : strip e = []
      · simp [blank]
      · simp [Option.filter, blank]

omit [CaseRuntime] in
@[simp] theorem composes_barPage (mark : String) (row first days : Nat) :
    PageComposes (barPage mark row first days) := by
  simp [barPage]

omit [CaseRuntime] in
theorem head_statusLabel (s : Status) : (statusLabel s).head? ≠ some equals := by
  cases s <;> decide

theorem composes_taskPage (detailCols : Bool) (today : Int) (first days row : Nat) (t : Dated) :
    PageComposes (taskPage detailCols today first days row t) ↔
      firstInk (t.owner.getD []) ≠ some equals ∧
        (detailCols = true → firstInk (t.effort.getD []) ≠ some equals) := by
  have dot : (if t.kind = .milestone then [] else py "●").head? ≠ some equals := by split <;> decide
  have name : ((if t.kind = .milestone then py "          🏁 " else py "          ") ++ t.name).head? ≠
      some equals := by
    refine head_prefixed (c := 32) ?_ (by decide) t.name
    split <;> decide
  have flag : (if atRisk today t then py "⚑" else py "⚐").head? ≠ some equals := by split <;> decide
  have percent : PageComposes ((t.percentComplete.filter fun p => 0 ≤ p ∧ p ≤ 100).map fun p : Int =>
      (⟨row, 10, .number (p / 100)⟩ : Entry)).toList := by
    rw [composes_toList]
    intro e member
    obtain ⟨_, _, rfl⟩ := Option.map_eq_some_iff.mp member
    exact sound_number _
  have effort : PageComposes (if detailCols then
      ((t.effort.map strip).filter (· ≠ [])).toList.map fun effort => ⟨row, 11, .text effort⟩ else []) ↔
      (detailCols = true → firstInk (t.effort.getD []) ≠ some equals) := by
    cases detailCols with
    | false => simp
    | true => simpa using composes_effort t.effort row 11
  have owner : PageComposes (if t.ownerText = [] then []
      else [⟨row, 8, .text (initials t.ownerText)⟩, ⟨row, 9, .text t.ownerText⟩]) ↔
      firstInk (t.owner.getD []) ≠ some equals := by
    unfold Item.ownerText
    convert composes_stripped (t.owner.getD []) row 8 9 using 2
  simp only [taskPage, composes_append, composes_cons, composes_nil, sound_text, dot, name,
    flag, head_statusLabel, percent, effort, owner, composes_barPage, ne_eq, not_false_eq_true,
    true_and, and_true]

omit [CaseRuntime] in
theorem composes_phasePage (tasks : List Dated) (first days row : Nat) (t : Dated) :
    PageComposes (phasePage tasks first days row t) := by
  have name : (py "  −  " ++ t.name).head? ≠ some equals := head_prefixed (c := 32) (by decide) (by decide) _
  have dot : (py "●").head? ≠ some equals := by decide
  have percent : PageComposes (if (children tasks t.id).any fun k => k.start < k.finish then
      [⟨row, 10, .composed (.text (phaseFormula (row + 1) (row + (children tasks t.id).length)))⟩] else []) := by
    split
    · simp
    · exact composes_nil
  simp only [phasePage, composes_append, composes_cons, composes_nil, sound_text, dot, name, head_statusLabel,
    percent, composes_barPage, ne_eq, not_false_eq_true, and_self]

omit [CaseRuntime] in
theorem composes_axisPage (first : Nat) (days : List Int) : PageComposes (axisPage first days) := by
  rw [axisPage, composes_flatMap]
  intro d _
  have week : PageComposes (if weekday d.1 = 0 then
      [(⟨2, d.2, .text (py "Week of " ++ monthDay d.1)⟩ : Entry)] else []) := by
    split
    · simpa using head_prefixed (c := 87) (by decide) (by decide) (monthDay d.1)
    · exact composes_nil
  have letter : (py "MTWTFSS").getD (weekday d.1).toNat 0 ≠ equals := by
    have all : ∀ c ∈ 0 :: py "MTWTFSS", c ≠ equals := by decide
    apply all
    rw [List.getD_eq_getElem?_getD]
    cases found : (py "MTWTFSS")[(weekday d.1).toNat]? with
    | none => exact List.mem_cons_self ..
    | some c => exact List.mem_cons_of_mem _ (List.mem_of_getElem? found)
  simp only [composes_cons, composes_append, sound_date, week, sound_text, List.head?_cons, ne_eq,
    Option.some.injEq, letter, not_false_eq_true, composes_nil, and_self]

omit [CaseRuntime] in
theorem head_headTexts (detailCols : Bool) :
    ∀ h ∈ (headTexts detailCols).zipIdx 1, h.1.head? ≠ some equals := by
  have plain : ∀ s ∈ headTexts detailCols, s.head? ≠ some equals := by cases detailCols <;> decide
  exact (forall_zipIdx (P := fun s : PyStr => s.head? ≠ some equals) 1).mpr plain

omit [CaseRuntime] in
theorem composes_keyPage (detailCols : Bool) : PageComposes (keyPage detailCols) := by
  have plain : ∀ line ∈ keyLines detailCols, line.2.head? ≠ some equals := by
    cases detailCols <;> decide
  have dot : (py "●").head? ≠ some equals := by decide
  rw [keyPage, composes_flatMap]
  intro line member
  have here := (forall_zipIdx (P := fun l : Bool × PyStr => l.2.head? ≠ some equals) 4).mpr plain line member
  rw [composes_append]
  constructor
  · split
    · simpa using dot
    · exact composes_nil
  · simpa using here

omit [CaseRuntime] in
theorem sound_predecessorEntry (p : Nat × List (Nat × DepCode)) : (predecessorEntry p).content.Sound := by
  rw [predecessorEntry, sound_text]
  apply head_join
  intro text member
  obtain ⟨c, _, rfl⟩ := List.mem_map.mp member
  have numeral := head_numeral c.1 (codeText c.2)
  cases shape : strOfNat c.1 ++ codeText c.2 with
  | nil =>
      have code := (List.append_eq_nil_iff.mp shape).2
      cases kind : c.2 <;> rw [kind] at code <;> cases code
  | cons d rest =>
      rw [shape] at numeral
      exact ⟨d, rfl, fun same => numeral (by rw [same]; rfl)⟩

omit [CaseRuntime] in
theorem sound_dateEntry (last : Nat) (c : Cell × Formula Cell) : (dateEntry last c).content.Sound := by
  rw [dateEntry]
  cases c.2 <;> first | exact sound_date _ | exact sound_composed _

omit [CaseRuntime] in
/-- What is drawn is the items of the plan. -/
theorem drawn_of_build {detailCols : Bool} {tasks : List Dated} {ws : Worksheet}
    (built : buildGanttWb detailCols tasks = .ok ws) : (ws.rows.map Prod.snd).Perm tasks := by
  by_cases none_ : tasks = []
  · rw [none_] at built
    cases built
  · rw [buildGanttWb_eq detailCols none_] at built
    split at built
    · next placed =>
      cases built
      exact (drawnSheet_oneRowEach detailCols ((placed_iff _).mp placed)).drawn
    · cases built

/-- On the Gantt View, the owners and the efforts decide. -/
theorem composes_ganttView {detailCols : Bool} {today : Int} {x : Extraction} {tasks : List Dated}
    {ws : Worksheet} (built : buildGanttWb detailCols tasks = .ok ws) :
    PageComposes (ganttView detailCols today x tasks ws) ↔ ∀ t ∈ realTasks tasks,
      firstInk (t.owner.getD []) ≠ some equals ∧
        (detailCols = true → firstInk (t.effort.getD []) ≠ some equals) := by
  have strip_ : (py "  " ++ join (py "  ·  ") (stripBits tasks today x)).head? ≠ some equals :=
    head_prefixed (c := 32) (by decide) (by decide) _
  have project : (py "  " ++ orText x.project (py "Project")).head? ≠ some equals :=
    head_prefixed (c := 32) (by decide) (by decide) _
  have rows : PageComposes (ws.rows.flatMap fun r =>
      if r.2.kind = .phase then
        phasePage tasks (firstDayCol detailCols) (gridDays tasks).length r.1 r.2
      else taskPage detailCols today (firstDayCol detailCols) (gridDays tasks).length r.1 r.2) ↔
      ∀ t ∈ realTasks tasks, firstInk (t.owner.getD []) ≠ some equals ∧
        (detailCols = true → firstInk (t.effort.getD []) ≠ some equals) := by
    have one : ∀ r : Nat × Dated, PageComposes (if r.2.kind = .phase then
          phasePage tasks (firstDayCol detailCols) (gridDays tasks).length r.1 r.2
        else taskPage detailCols today (firstDayCol detailCols) (gridDays tasks).length r.1 r.2) ↔
        (r.2.kind ≠ .phase → firstInk (r.2.owner.getD []) ≠ some equals ∧
          (detailCols = true → firstInk (r.2.effort.getD []) ≠ some equals)) := by
      intro r
      split
      · next phase => simp [phase, composes_phasePage]
      · next real => rw [composes_taskPage, imp_iff_right real]
    rw [composes_flatMap]
    simp only [one, realTasks, List.mem_filter, decide_eq_true_eq, and_imp]
    have drawn := drawn_of_build built
    constructor
    · intro each t member real
      obtain ⟨r, inRows, rfl⟩ := List.mem_map.mp (drawn.mem_iff.mpr member)
      exact each r inRows real
    · intro each r inRows real
      exact each r.2 (drawn.mem_iff.mp (List.mem_map_of_mem inRows)) real
  have heads := head_headTexts detailCols
  simp only [ganttView, composes_cons, composes_append, sound_text, strip_, project, composes_axisPage,
    iff_true_intro heads, composes_keyPage, composes_barPage, rows, composes_map, sound_predecessorEntry,
    sound_dateEntry, implies_true, ne_eq, not_false_eq_true, true_and, and_true]

/-! ### Slip -/

omit [CaseRuntime] in
theorem head_trailText (e : SlipEntry) : ∃ c, (trailText e).head? = some c ∧ c ≠ equals := by
  simp only [trailText, monthDay, List.append_assoc]
  exact head_dayOfMonth e.date _

omit [CaseRuntime] in
theorem composes_slipEntries (row : Nat) (s : SlipRow) : PageComposes (slipEntries row s) ↔
    s.task.name.head? ≠ some equals ∧ firstInk (s.task.owner.getD []) ≠ some equals := by
  have since : (if s.firstTracked then py "first tracked now"
      else (s.baselineAsOf.map isoDay).getD (py "stated")).head? ≠ some equals := by
    split
    · decide
    · cases s.baselineAsOf with
      | none => decide
      | some day => exact head_isoDay day
  have trail : (if s.moves = 0 then [] else join (py " → ") (s.trail.map trailText)).head? ≠
      some equals := by
    split
    · simp
    · apply head_join
      intro text member
      obtain ⟨e, _, rfl⟩ := List.mem_map.mp member
      exact head_trailText e
  simp only [slipEntries, composes_cons, composes_nil, sound_text, sound_date, sound_number, sound_composed,
    since, trail, Item.ownerText, head_strip, ne_eq, not_false_eq_true, and_true]

omit [CaseRuntime] in
theorem composes_slipPage (rows : List SlipRow) (history : List Version) :
    PageComposes (slipPage rows history) ↔ ∀ s ∈ rows,
      s.task.name.head? ≠ some equals ∧ firstInk (s.task.owner.getD []) ≠ some equals := by
  have intro_ : ∀ s ∈ slipIntro, s.head? ≠ some equals := by decide
  have heads : ∀ s ∈ slipHeads, s.head? ≠ some equals := by decide
  have note : ∀ note ∈ (slipNote rows history).toList, note.head? ≠ some equals := by
    intro text member
    rw [Option.mem_toList, slipNote] at member
    obtain ⟨_, written⟩ := Option.ite_none_right_eq_some.mp member
    rw [← Option.some.inj written]
    split
    · exact head_prefixed (c := 84) (by decide) (by decide) _
    · exact head_prefixed (c := 78) (by decide) (by decide) _
  rw [slipPage, composes_append, composes_append, composes_append, composes_textColumn, composes_textRow,
    composes_flatMap, composes_map]
  simp only [composes_slipEntries, sound_text, iff_true_intro intro_, iff_true_intro heads,
    iff_true_intro note, true_and, and_true]
  exact forall_zipIdx (P := fun s : SlipRow => s.task.name.head? ≠ some equals ∧
    firstInk (s.task.owner.getD []) ≠ some equals) 5

/-! ### Receipts -/

theorem fieldLabel_opens (field : PyStr) :
    (fieldLabel field).head? = some equals ↔ firstInk field = some equals := by
  simp only [fieldLabel]
  cases known : fieldLabels.lookup (lower (strip field)) with
  | none =>
      rw [Option.getD_none, CaseRuntime.capitalize_equals, ← head_strip]
      cases strip field with
      | nil => rfl
      | cons c rest =>
          by_cases bar : c = 95
          · simp only [replaceChar, bar, List.flatMap_cons, if_pos, List.head?_cons, Option.some.injEq]
            exact iff_of_false (head_prefixed (c := 32) (by decide) (by decide) _) (by decide)
          · simp [replaceChar, bar]
  | some label =>
      have entries : ∀ f ∈ fieldLabels, f.1.head? ≠ some equals ∧ f.2.head? ≠ some equals := by decide
      obtain ⟨front, back, split, _⟩ := List.lookup_eq_some_iff.mp known
      have entry := entries (lower (strip field), label) (by rw [split]; simp)
      rw [Option.getD_some, ← head_strip]
      exact iff_of_false entry.2 fun head => entry.1 ((CaseRuntime.lower_equals _).mpr head)

/-- The first characters of the texts of a receipt. -/
def Evidence.openings (ev : Evidence) : List (Option Nat) :=
  [firstInk ev.field, firstInk ev.meetingDate, ev.standing.head?, ev.speaker.head?]

theorem composes_receiptEntries (row number : Nat) (r : Receipt) :
    PageComposes (receiptEntries row number r) ↔
      r.task.name.head? ≠ some equals ∧ some equals ∉ r.source.openings := by
  have ref : (py "R" ++ strOfNat number).head? ≠ some equals :=
    head_prefixed (c := 82) (by decide) (by decide) _
  have quoted : (dquote :: (strip r.source.quote ++ [dquote])).head? ≠ some equals := by simp
  rw [receiptEntries, composes_textRow]
  simp only [List.forall_mem_cons]
  simp only [ref, quoted, fieldLabel_opens, head_strip, List.not_mem_nil, false_implies, implies_true,
    Evidence.openings, List.mem_cons, not_or, @eq_comm _ (some equals), ne_eq, not_false_eq_true, true_and,
    and_true]

theorem composes_receiptsPage (receipts : List Receipt) : PageComposes (receiptsPage receipts) ↔
    ∀ r ∈ receipts, r.task.name.head? ≠ some equals ∧ some equals ∉ r.source.openings := by
  have intro_ : ∀ s ∈ receiptsIntro, s.head? ≠ some equals := by decide
  have heads : ∀ s ∈ receiptsHeads, s.head? ≠ some equals := by decide
  rw [receiptsPage, composes_append, composes_append, composes_textColumn, composes_textRow, composes_flatMap]
  simp only [composes_receiptEntries, iff_true_intro intro_, iff_true_intro heads, true_and]
  exact forall_zipIdx (P := fun r : Receipt => r.task.name.head? ≠ some equals ∧
    some equals ∉ r.source.openings) 5

/-! ### Progress -/

omit [CaseRuntime] in
theorem composes_weekEntries (row : Nat) (w : WeekRow) : PageComposes (weekEntries row w) := by
  obtain ⟨c, head, other⟩ := head_dayOfMonth w.week (32 :: strOfNat (dayOfMonth w.week).2)
  have label : (shortMonthDay w.week).head? ≠ some equals := by
    rw [shortMonthDay, head, Ne, Option.some.injEq]
    exact other
  have written : ∀ {α : Type} (o : Option α) {f : α → Entry}, (∀ a, (f a).content.Sound) →
      PageComposes (o.map f).toList := by
    intro α o f sound
    rw [composes_toList]
    intro e member
    obtain ⟨a, _, rfl⟩ := Option.map_eq_some_iff.mp member
    exact sound a
  have mark : PageComposes (if w.dataDate then [(⟨row, 7, .number 1⟩ : Entry)] else []) := by
    split
    · simp
    · exact composes_nil
  simp only [weekEntries, composes_append, composes_cons, sound_text, label, sound_date, composes_nil, written,
    sound_number, sound_composed, implies_true, mark, ne_eq, not_false_eq_true, and_self]

omit [CaseRuntime] in
theorem composes_progressPage (x : Extraction) (tasks : List Dated) (history : List Version)
    (sheet : ProgressSheet) : PageComposes (progressPage x tasks history sheet) := by
  have notes : ∀ s ∈ progressNotes (chartedTasks tasks) (dateCoverage x.tasks), s.head? ≠ some equals := by
    simp only [progressNotes, List.append_assoc, List.forall_mem_cons]
    refine ⟨by decide, ?_, ?_, ?_, by simp⟩
    · exact head_prefixed (c := 66) (by decide) (by decide) _
    · exact head_prefixed (c := 87) (by decide) (by decide) _
    · exact head_prefixed (c := 68) (by decide) (by decide) _
  have heads : ∀ s ∈ progressHeads, s.head? ≠ some equals := by decide
  have later : PageComposes (if baseTasks history = [] then
      [(⟨5 + sheet.rows.length + 2, 1, .text baselineNote⟩ : Entry)] else []) := by
    split
    · rw [composes_cons, sound_text]
      exact ⟨by decide, composes_nil⟩
    · exact composes_nil
  rw [progressPage, composes_append, composes_textColumn, composes_cons, composes_append, composes_append,
    composes_textRow, composes_flatMap]
  exact ⟨notes, sound_composed _, ⟨heads, fun w _ => composes_weekEntries w.1 w.2⟩, later⟩

/-! ### What the extraction gives -/

/-- The items that are drawn as tasks or milestones. -/
def shownItems (items : List Item) : List Item := items.filter fun t => t.kind ≠ .phase ∧ t.hasDates = true

omit [CaseRuntime] in
/-- The passes change the kind and the dates of an item and nothing else. -/
theorem forall_realTasks {P : Item → Prop} (blind : ∀ t kind, P { t with kind := kind } ↔ P t)
    (items : List Item) : (∀ t ∈ realTasks (scheduled items), P t.toItem) ↔ ∀ t ∈ shownItems items, P t := by
  have kinds : ∀ t : Item, t.retyped.kind = .phase ↔ t.kind = .phase := by
    intro t
    unfold Item.retyped
    split
    · next task _ _ =>
      split
      · simp [task]
      · rfl
    · rfl
  have keeps : ∀ t : Item, P t.retyped ↔ P t := by
    intro t
    unfold Item.retyped
    split
    · split
      · exact blind t .milestone
      · rfl
    · rfl
  rw [scheduled_eq]
  simp only [realTasks, shownItems, List.mem_filter, List.mem_filterMap, decide_eq_true_eq, ne_eq]
  constructor
  · rintro each t ⟨member, real, dated⟩
    rw [← t.snapped_isSome] at dated
    obtain ⟨span, snapped⟩ := Option.isSome_iff_exists.mp dated
    rw [← keeps]
    exact each { t.retyped, span with } ⟨⟨t, member, by rw [snapped]; rfl⟩, fun phase => real ((kinds t).mp phase)⟩
  · rintro each d ⟨⟨t, member, made⟩, real⟩
    obtain ⟨span, snapped, rfl⟩ := Option.map_eq_some_iff.mp made
    have dated : t.hasDates = true := by rw [← t.snapped_isSome, snapped]; rfl
    exact (keeps t).mpr (each t ⟨member, fun phase => real ((kinds t).mpr phase), dated⟩)

/-- A commitment with a date and a quote. -/
def Commitment.cited (c : Commitment) : Bool := c.date.read.isSome && (firstInk c.quote).isSome

/-- Evidence with a quote that no commitment has. -/
def Item.otherEvidence (t : Item) : List Evidence :=
  t.evidence.filter fun ev => (firstInk ev.quote).isSome ∧
    ∀ c ∈ t.commitments.filter Commitment.cited, normQuote ev.quote ≠ normQuote (strip c.quote)

/-- The first characters of what the receipts of an item show. -/
def Item.receiptOpenings (t : Item) : List (Option Nat) :=
  ((t.commitments.filter Commitment.cited).map fun c => firstInk c.speaker) ++
    t.otherEvidence.flatMap Evidence.openings

/-- The first characters of what the detailed workbook shows of an item: its owner, effort and name, and what
its receipts say. -/
def Item.openings (t : Item) : List (Option Nat) :=
  [firstInk (t.owner.getD []), firstInk (t.effort.getD []), t.name.head?] ++ t.receiptOpenings

omit [CaseRuntime] in
theorem mem_commitments {t : Item} {c : Spoken} :
    c ∈ commitments t ↔ c ∈ t.commitments.filterMap Commitment.spoken := by
  rw [commitments, List.mem_append, (List.mergeSort_perm _ _).mem_iff, List.mem_filter, List.mem_filter,
    ← and_or_left]
  cases c.asOf <;> simp

omit [CaseRuntime] in
theorem strip_ne_nil_iff (s : PyStr) : strip s ≠ [] ↔ (firstInk s).isSome = true := by
  rw [← head_strip]
  cases strip s <;> simp

omit [CaseRuntime] in
/-- The spoken dates that are quoted, by what they quote and who is quoted. -/
theorem forall_quoted {P : PyStr → PyStr → Prop} (t : Item) :
    (∀ c ∈ (commitments t).filter fun c => c.quote ≠ [], P c.quote c.speaker) ↔
      ∀ c ∈ t.commitments.filter Commitment.cited, P (strip c.quote) (strip c.speaker) := by
  simp only [List.mem_filter, mem_commitments, List.mem_filterMap, decide_eq_true_eq, Commitment.cited,
    Bool.and_eq_true, ← strip_ne_nil_iff]
  constructor
  · rintro each c ⟨member, read, quoted⟩
    obtain ⟨day, read⟩ := Option.isSome_iff_exists.mp read
    exact each ⟨day, c.asOf.read, strip c.quote, strip c.speaker, strip c.reason⟩
      ⟨⟨c, member, by rw [Commitment.spoken, read]; rfl⟩, quoted⟩
  · rintro each s ⟨⟨c, member, made⟩, quoted⟩
    obtain ⟨day, read, rfl⟩ := Option.map_eq_some_iff.mp made
    exact each c ⟨member, by rw [read]; rfl, quoted⟩

omit [CaseRuntime] in
theorem Spoken.receipt_openings (c : Spoken) (t : Dated) :
    some equals ∉ (c.receipt t).source.openings ↔ c.speaker.head? ≠ some equals := by
  have due : firstInk (py "end") ≠ some equals := by decide
  have day : firstInk ((c.asOf.map isoDay).getD []) ≠ some equals := by
    cases c.asOf with
    | none => decide
    | some d => exact firstInk_isoDay d
  have standing : (if c.date = t.finish then py "current" else py "superseded").head? ≠ some equals := by
    split <;> decide
  simp only [Spoken.receipt, Evidence.openings, List.mem_cons, List.not_mem_nil, or_false, not_or,
    @eq_comm _ (some equals), due, day, standing, not_false_eq_true, true_and, ne_eq]

theorem otherEvidence_eq (t : Item) : (t.evidence.filter fun ev => strip ev.quote ≠ [] ∧
      normQuote ev.quote ∉ ((commitments t).filter fun c => c.quote ≠ []).map fun c => normQuote c.quote) =
    t.otherEvidence := by
  refine List.filter_congr fun ev _ => ?_
  have seen := forall_quoted (P := fun quote _ => normQuote ev.quote ≠ normQuote quote) t
  rw [decide_eq_decide, strip_ne_nil_iff, List.mem_map, ← seen]
  refine and_congr_right' ?_
  constructor
  · intro none_ c member same
    exact none_ ⟨c, member, same.symm⟩
  · rintro each ⟨c, member, same⟩
    exact each c member same.symm

/-- What the receipts of a task say. -/
theorem receiptsOf_openings (t : Dated) :
    (∀ r ∈ receiptsOf t, some equals ∉ r.source.openings) ↔ some equals ∉ t.receiptOpenings := by
  have speakers := forall_quoted (P := fun _ speaker => speaker.head? ≠ some equals) t.toItem
  simp only [head_strip] at speakers
  rw [receiptsOf, List.forall_mem_append, List.forall_mem_map, List.forall_mem_map, otherEvidence_eq,
    Item.receiptOpenings, List.mem_append, not_or, List.mem_map, List.mem_flatMap]
  simp only [Spoken.receipt_openings]
  rw [speakers]
  simp only [not_exists, not_and, ne_eq]

/-! ### The workbooks -/

/-- What fills the cells of the workbook of a contract. -/
def contractSupplied (c : Artifacts.Contract) (e : Artifacts.Emission) : List Json :=
  ((Artifacts.planFromContract c e).map supplied).getD []

theorem not_mem_openings (t : Item) : some equals ∉ t.openings ↔
    firstInk (t.owner.getD []) ≠ some equals ∧ firstInk (t.effort.getD []) ≠ some equals ∧
      t.name.head? ≠ some equals ∧ some equals ∉ t.receiptOpenings := by
  simp only [Item.openings, List.mem_append, List.mem_cons, List.not_mem_nil, or_false, not_or,
    @eq_comm _ (some equals), and_assoc, ne_eq]

/-- The receipts are of the tasks that are drawn. -/
theorem receipt_task {t : Dated} {r : Receipt} (member : r ∈ receiptsOf t) : r.task = t := by
  rcases List.mem_append.mp member with spoken | other
  · obtain ⟨c, _, rfl⟩ := List.mem_map.mp spoken
    rfl
  · obtain ⟨ev, _, rfl⟩ := List.mem_map.mp other
    rfl

theorem composes_renderGantt {takes : Content → Bool} {today : Int} {x : Extraction} {book : List Page}
    (done : renderGantt takes today x = some book) :
    Composes book ↔ ∀ t ∈ shownItems x.tasks, firstInk (t.owner.getD []) ≠ some equals := by
  obtain ⟨view, built, done⟩ := Option.bind_eq_some_iff.mp done
  unfold buildGanttView at built
  split at built
  · next ws drawn =>
    rw [eq_of_saved done, Composes, List.forall_mem_singleton, ← Option.some.inj built,
      composes_ganttView drawn,
      ← forall_realTasks (P := fun t => firstInk (t.owner.getD []) ≠ some equals) (fun _ _ => Iff.rfl)]
    simp
  · cases built

theorem composes_renderGanttDetailed {takes : Content → Bool} {today : Int} {x : Extraction}
    {history : List Version} {book : List Page}
    (done : renderGanttDetailed takes today x history = some book) :
    Composes book ↔ ∀ t ∈ shownItems x.tasks, some equals ∉ t.openings := by
  obtain ⟨view, built, done⟩ := Option.bind_eq_some_iff.mp done
  obtain ⟨progress, _, done⟩ := Option.bind_eq_some_iff.mp done
  unfold buildGanttView at built
  split at built
  · next ws drawn =>
    have slip : (∀ s ∈ computeSlip (scheduled x.tasks) history x.meetingDate,
        s.task.name.head? ≠ some equals ∧ firstInk (s.task.owner.getD []) ≠ some equals) ↔
        ∀ t ∈ realTasks (scheduled x.tasks),
          t.name.head? ≠ some equals ∧ firstInk (t.owner.getD []) ≠ some equals := by
      rw [computeSlip, List.forall_mem_map]
      rfl
    have receipts : (∀ r ∈ (realTasks (scheduled x.tasks)).flatMap receiptsOf,
        r.task.name.head? ≠ some equals ∧ some equals ∉ r.source.openings) ↔
        ∀ t ∈ realTasks (scheduled x.tasks), ∀ r ∈ receiptsOf t,
          t.name.head? ≠ some equals ∧ some equals ∉ r.source.openings := by
      simp only [List.mem_flatMap, forall_exists_index, and_imp]
      exact ⟨fun each t member r here => receipt_task here ▸ each r t member here,
        fun each r t member here => receipt_task here ▸ each t member r here⟩
    rw [eq_of_saved done, Composes, List.forall_mem_append, List.forall_mem_map,
      ← Option.some.inj built, List.forall_mem_cons, List.forall_mem_cons, List.forall_mem_singleton,
      composes_ganttView drawn, composes_slipPage, composes_receiptsPage, slip, receipts,
      ← forall_realTasks (P := fun t => some equals ∉ t.openings) (fun _ _ => Iff.rfl)]
    simp only [composes_progressPage, implies_true, and_true, true_imp_iff, not_mem_openings,
      ← receiptsOf_openings]
    constructor
    · rintro ⟨drawn, slipped, received⟩ t member
      exact ⟨(drawn t member).1, (drawn t member).2, (slipped t member).1,
        fun r here => (received t member r here).2⟩
    · intro each
      refine ⟨fun t member => ?_, fun t member => ?_, fun t member r here => ?_⟩
      · exact ⟨(each t member).1, (each t member).2.1⟩
      · exact ⟨(each t member).2.2.1, (each t member).1⟩
      · exact ⟨(each t member).2.2.1, (each t member).2.2.2 r here⟩
  · cases built

/-- The formulas of a workbook are the renderer's own exactly when no text that the model supplies opens with an
equals sign: in a contract's workbook and a sheet plan's, behind any white space; in the Gantt View the owners;
in the detailed workbook also the efforts, the names, and what the receipts say. -/
theorem formulas_composed_iff (takes : Content → Bool) :
    (∀ plan book, Workbook.renderWorkbook takes plan = some book →
      (Composes book ↔ ∀ v ∈ supplied plan, opening v ≠ some equals)) ∧
    (∀ c e book, Workbook.renderContract takes c e = some book →
      (Composes book ↔ ∀ v ∈ contractSupplied c e, opening v ≠ some equals)) ∧
    (∀ today x book, renderGantt takes today x = some book →
      (Composes book ↔ ∀ t ∈ shownItems x.tasks, firstInk (t.owner.getD []) ≠ some equals)) ∧
    ∀ today x history book, renderGanttDetailed takes today x history = some book →
      (Composes book ↔ ∀ t ∈ shownItems x.tasks, some equals ∉ t.openings) := by
  refine ⟨fun plan book done => composes_renderWorkbook done, fun c e book done => ?_,
    fun today x book done => composes_renderGantt done,
    fun today x history book done => composes_renderGanttDetailed done⟩
  obtain ⟨plan, planned, rendered⟩ := Option.bind_eq_some_iff.mp done
  rw [composes_renderWorkbook rendered, contractSupplied, planned]
  rfl

end

/-- A plan of one task, with an owner. -/
def ownedPlan (owner : String) : Extraction where
  tasks := [{ Item.sketch 1 .task none 0 4 [] with name := py "Launch", owner := some (py owner) }]
  project := py "Launch"
  meetingDate := .absent
  meetingText := []

/-- An action register of one row. -/
def oneAction (item : String) : Artifacts.Emission where
  title := .null
  readme := .null
  options := []
  sheets := [{ name := .str (py "Actions"), subtitle := .null, rows := [[(py "item", .str (py item))]] }]

/-- The four kinds of workbook, built from texts that open with letters. -/
theorem formulas_composed_plain :
    letI := CaseRuntime.ascii
    (∃ book, Workbook.renderContract (fun _ => true) Artifacts.actionRegister (oneAction "Call Ana") = some book ∧
      Composes book) ∧
    (∃ book, Workbook.renderWorkbook (fun _ => true)
        ⟨.null, .str (py "Notes"), [⟨.str (py "Log"), .null, [⟨py "id", py "ID", none⟩], [], []⟩]⟩ = some book ∧
      Composes book) ∧
    (∃ book, renderGantt (fun _ => true) 2 (ownedPlan "Ana") = some book ∧ Composes book) ∧
    ∃ book, renderGanttDetailed (fun _ => true) 2 (ownedPlan "Ana") [] = some book ∧ Composes book := by
  let _ := CaseRuntime.ascii
  refine ⟨?_, ?_, ?_, ?_⟩
  · obtain ⟨book, done⟩ := Option.isSome_iff_exists.mp (show (Workbook.renderContract (fun _ => true)
      Artifacts.actionRegister (oneAction "Call Ana")).isSome = true by decide +kernel)
    exact ⟨book, done, ((formulas_composed_iff _).2.1 _ _ book done).mpr (by decide +kernel)⟩
  · obtain ⟨book, done⟩ := Option.isSome_iff_exists.mp (show (Workbook.renderWorkbook (fun _ => true)
      ⟨.null, .str (py "Notes"), [⟨.str (py "Log"), .null, [⟨py "id", py "ID", none⟩], [], []⟩]⟩).isSome =
        true by decide +kernel)
    exact ⟨book, done, ((formulas_composed_iff _).1 _ book done).mpr (by decide +kernel)⟩
  · obtain ⟨book, done⟩ := Option.isSome_iff_exists.mp
      (show (renderGantt (fun _ => true) 2 (ownedPlan "Ana")).isSome = true by decide +kernel)
    exact ⟨book, done, ((formulas_composed_iff _).2.2.1 _ _ book done).mpr (by decide +kernel)⟩
  · obtain ⟨book, done⟩ := Option.isSome_iff_exists.mp
      (show (renderGanttDetailed (fun _ => true) 2 (ownedPlan "Ana") []).isSome = true by decide +kernel)
    exact ⟨book, done, ((formulas_composed_iff _).2.2.2 _ _ _ book done).mpr (by decide +kernel)⟩

/-- An action of a register and an owner of a task that are stored as formulas. -/
theorem supplied_text_stored_as_formula :
    letI := CaseRuntime.ascii
    (∃ book, Workbook.renderContract (fun _ => true) Artifacts.actionRegister (oneAction " =1+1") = some book ∧
      ¬Composes book) ∧
    ∃ book, renderGantt (fun _ => true) 2 (ownedPlan "=A1") = some book ∧ ¬Composes book := by
  let _ := CaseRuntime.ascii
  constructor
  · obtain ⟨book, done⟩ := Option.isSome_iff_exists.mp (show (Workbook.renderContract (fun _ => true)
      Artifacts.actionRegister (oneAction " =1+1")).isSome = true by decide +kernel)
    obtain ⟨plan, planned, rendered⟩ := Option.bind_eq_some_iff.mp done
    refine ⟨book, done, fun sound => ?_⟩
    have opens : ∃ v ∈ contractSupplied Artifacts.actionRegister (oneAction " =1+1"),
        opening v = some equals := by decide +kernel
    obtain ⟨v, member, equals_⟩ := opens
    rw [contractSupplied, planned] at member
    exact (composes_renderWorkbook rendered).mp sound v member equals_
  · obtain ⟨book, done⟩ := Option.isSome_iff_exists.mp
      (show (renderGantt (fun _ => true) 2 (ownedPlan "=A1")).isSome = true by decide +kernel)
    refine ⟨book, done, fun sound => ?_⟩
    have opens : ∃ t ∈ shownItems (ownedPlan "=A1").tasks, firstInk (t.owner.getD []) = some equals := by
      decide +kernel
    obtain ⟨t, member, equals_⟩ := opens
    exact (composes_renderGantt done).mp sound t member equals_

end GhostPour.Documents
