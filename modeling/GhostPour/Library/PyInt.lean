/-
Module: GhostPour.Library.PyInt
Layer: Library
Purpose: `int(s)` of a string in base 10, and that it reads what `str` writes of an integer.
Trusted boundary: human-reviewed spec
Main exports: maxStrDigits, intBase10, intBase10_strOfInt, strip_of_ink
-/
import GhostPour.Library.JsonCanonical
import GhostPour.Library.PyValue

namespace GhostPour

/-- The digits `int` and `str` convert at most. -/
def maxStrDigits : Nat := 4300

/-! ### Texts without white space -/

theorem strip_of_ink {text : PyStr} (ink : ∀ c ∈ text, isSpace c = false) : strip text = text := by
  have front : text.dropWhile isSpace = text := by
    apply List.dropWhile_eq_self_iff.mpr
    intro nonempty
    rw [ink _ (List.getElem_mem nonempty)]
    decide
  rw [strip, stripBy, front, List.rdropWhile_eq_self_iff]
  intro nonempty
  rw [ink _ (List.getLast_mem nonempty)]
  decide

theorem isSpace_of_digit {c : Nat} (digit : isAsciiDigit c = true) : isSpace c = false := by
  have bounds : 48 ≤ c ∧ c ≤ 57 := by simpa [isAsciiDigit] using digit
  obtain ⟨low, high⟩ := bounds
  interval_cases c <;> rfl

section
variable [PyRuntime]

/-! ### Reading -/

/-- The values of decimal digits with single underscores between them. -/
def digitValues : PyStr → Option (List Nat)
  | [] => some []
  | c :: rest =>
      if c = ord '_' then
        match rest with
        | d :: rest' => (decimal d).bind fun v => (digitValues rest').map (v :: ·)
        | [] => none
      else (decimal c).bind fun v => (digitValues rest).map (v :: ·)

/-- A magnitude in base 10. -/
def base10Magnitude : PyStr → Option Nat
  | [] => none
  | c :: rest =>
      if c = ord '_' then none
      else
        (digitValues (c :: rest)).bind fun digits =>
          if maxStrDigits < digits.length then none
          else some (digits.foldl (fun n d => 10 * n + d) 0)

/-- `int(s)`. -/
def intBase10 (s : PyStr) : Option Int :=
  match strip s with
  | 45 :: rest => (base10Magnitude rest).map fun n => -(n : Int)
  | 43 :: rest => (base10Magnitude rest).map Int.ofNat
  | t => (base10Magnitude t).map Int.ofNat

/-! ### Round trips -/

theorem digitValues_of_digits {text : PyStr} (digits : ∀ c ∈ text, isAsciiDigit c = true) :
    digitValues text = some (text.map fun c => c - 48) := by
  induction text with
  | nil => rfl
  | cons c rest ih =>
      have digit := digits c (List.mem_cons_self ..)
      have small : c < 128 := by
        simp only [isAsciiDigit, Bool.and_eq_true, decide_eq_true_eq] at digit
        omega
      have plain : c ≠ ord '_' := by
        intro same
        rw [same] at digit
        exact absurd digit (by decide)
      rw [digitValues.eq_def]
      dsimp only
      rw [if_neg plain, PyRuntime.decimal_ascii c small, if_pos digit,
        ih fun c' later => digits c' (List.mem_cons_of_mem _ later)]
      rfl

theorem base10Magnitude_strOfNat {n : Nat} (short : (strOfNat n).length ≤ maxStrDigits) :
    base10Magnitude (strOfNat n) = some n := by
  have digits := digitsOfNat_isDigit n n
  have value := natOfDigits_digitsOfNat n n le_rfl
  change ∀ c ∈ strOfNat n, isAsciiDigit c = true at digits
  change natOfDigits (strOfNat n) = n at value
  cases text : strOfNat n with
  | nil =>
      rcases digitsOfNat_head n n le_rfl with zero | ⟨c, rest, shape, -⟩
      · exact absurd (text.symm.trans zero) (by simp)
      · exact absurd (text.symm.trans shape) (by simp)
  | cons c rest =>
      have values := digitValues_of_digits digits
      rw [text] at values value digits short
      have plain : c ≠ ord '_' := by
        intro same
        have digit := digits c (List.mem_cons_self ..)
        rw [same] at digit
        exact absurd digit (by decide)
      rw [base10Magnitude, if_neg plain, values]
      simp only [Option.bind_some, List.length_map, if_neg (Nat.not_lt.mpr short), List.foldl_map]
      exact congrArg some value

/-- What `str` writes of an integer, `int` reads back. -/
theorem intBase10_strOfInt {v : Int} (short : (strOfNat v.natAbs).length ≤ maxStrDigits) :
    intBase10 (strOfInt v) = some v := by
  have ink (n : Nat) : ∀ c ∈ strOfNat n, isSpace c = false := fun c member =>
    isSpace_of_digit (digitsOfNat_isDigit n n c member)
  cases v with
  | ofNat n =>
      have magnitude : base10Magnitude (strOfNat n) = some n := base10Magnitude_strOfNat short
      have unsigned : ∀ c rest, isAsciiDigit c = false → strOfNat n ≠ c :: rest := by
        intro c rest sign shape
        have digit : isAsciiDigit c = true := by
          apply digitsOfNat_isDigit n n
          rw [← strOfNat, shape]
          exact List.mem_cons_self ..
        rw [digit] at sign
        cases sign
      unfold intBase10
      rw [strOfInt, strip_of_ink (ink n)]
      split
      · next rest shape => exact absurd shape (unsigned 45 rest rfl)
      · next rest shape => exact absurd shape (unsigned 43 rest rfl)
      · rw [magnitude]
        rfl
  | negSucc n =>
      have magnitude : base10Magnitude (strOfNat (n + 1)) = some (n + 1) :=
        base10Magnitude_strOfNat short
      have inked : ∀ c ∈ strOfInt (.negSucc n), isSpace c = false := by
        intro c member
        rcases List.mem_cons.mp member with sign | digit
        · rw [sign]
          rfl
        · exact ink (n + 1) c digit
      unfold intBase10
      rw [strip_of_ink inked, strOfInt]
      simp only [magnitude]
      rfl

end

end GhostPour
