/-
Module: GhostPour.Configs.Proofs.FailOpen
Layer: Proofs
Purpose: When the version gate fails open. What it blocks is blocklisted or below an enforced floor, on
  every row and for every header; that it returns at all needs a row that can be read and, where versions
  are compared, digits that `int` converts: a superscript is a digit to `isdigit` and none to `int`.
Trusted boundary: none
Main exports: intBase10_digits, semver_isSome_iff, Convertible, Blocklisted, BelowFloor, gate_blocks,
  FailsOpen, Answers, evaluate_failsOpen_iff, superscript_raises
-/
import GhostPour.Configs.VersionGate

namespace GhostPour

namespace Configs.VersionGate

section
variable [PyRuntime]

/-! ### Numerals -/

/-- Digits without a sign, a blank or an underscore are converted when they are decimal and few. -/
theorem intBase10_digits {d : PyStr} (some_ : d ≠ []) (digits : ∀ c ∈ d, isDigit c = true) :
    (intBase10 d).isSome = true ↔ (∀ c ∈ d, isDecimal c = true) ∧ d.length ≤ maxStrDigits := by
  have ink : ∀ c ∈ d, isSpace c = false := by
    intro c member
    by_contra space
    rw [Bool.not_eq_false] at space
    have digit := digits c member
    rw [PyRuntime.isDigit_space c space] at digit
    cases digit
  have other : ∀ x < 128, isAsciiDigit x = false → ∀ c ∈ d, c ≠ x := by
    rintro x small notDigit c member rfl
    have digit := digits c member
    rw [PyRuntime.isDigit_ascii c small, notDigit] at digit
    cases digit
  have values : ∀ t : PyStr, (∀ c ∈ t, c ≠ ord '_') →
      ((∀ c ∈ t, isDecimal c = true) ∧ ∃ values, digitValues t = some values ∧ values.length = t.length) ∨
        (¬(∀ c ∈ t, isDecimal c = true) ∧ digitValues t = none) := by
    intro t plain
    induction t with
    | nil => exact .inl ⟨nofun, [], rfl, rfl⟩
    | cons c t ih =>
        rw [List.forall_mem_cons] at plain
        rw [digitValues.eq_def]
        dsimp only
        rw [if_neg plain.1, List.forall_mem_cons, isDecimal]
        cases value : decimal c with
        | none => exact .inr ⟨fun all => Bool.false_ne_true all.1, rfl⟩
        | some v =>
            rcases ih plain.2 with ⟨all, values, read, length⟩ | ⟨notAll, none_⟩
            · refine .inl ⟨⟨rfl, all⟩, v :: values, by rw [read]; rfl, ?_⟩
              rw [List.length_cons, List.length_cons, length]
            · exact .inr ⟨fun all => notAll all.2, by rw [none_]; rfl⟩
  have magnitude : (base10Magnitude d).isSome = true ↔
      (∀ c ∈ d, isDecimal c = true) ∧ d.length ≤ maxStrDigits := by
    cases d with
    | nil => exact absurd rfl some_
    | cons c rest =>
        have plain := other (ord '_') (by decide) (by decide)
        rw [base10Magnitude, if_neg (plain c (List.mem_cons_self ..))]
        rcases values (c :: rest) plain with ⟨all, values, read, length⟩ | ⟨notAll, none_⟩
        · rw [read, Option.bind_some, length]
          split
          · next long => exact iff_of_false Bool.false_ne_true fun both => Nat.not_le.mpr long both.2
          · next short => exact iff_of_true rfl ⟨all, Nat.not_lt.mp short⟩
        · rw [none_]
          exact iff_of_false Bool.false_ne_true fun both => notAll both.1
  rw [← magnitude, intBase10, strip_of_ink ink]
  split
  · next rest => exact absurd rfl (other 45 (by decide) (by decide) 45 (List.mem_cons_self ..))
  · next rest => exact absurd rfl (other 43 (by decide) (by decide) 43 (List.mem_cons_self ..))
  · rw [Option.isSome_map]

/-- The digits of the components that are converted: those in front of one without a digit. -/
def converted (v : PyStr) : List PyStr :=
  match partsOf v with
  | [] :: _ => []
  | parts => ((parts.take 3).map digitsOf).takeWhile (· ≠ [])

/-- `int` converts the digits of a version. -/
def Convertible (v : PyStr) : Prop :=
  ∀ d ∈ converted v, (∀ c ∈ d, isDecimal c = true) ∧ d.length ≤ maxStrDigits

theorem numbersOf_isSome_iff (parts : List PyStr) : (numbersOf parts).isSome = true ↔
    ∀ d ∈ (parts.map digitsOf).takeWhile (· ≠ []),
      (∀ c ∈ d, isDecimal c = true) ∧ d.length ≤ maxStrDigits := by
  induction parts with
  | nil => exact iff_of_true rfl nofun
  | cons p parts ih =>
      rw [numbersOf, List.map_cons, List.takeWhile_cons]
      by_cases none_ : digitsOf p = []
      · rw [if_pos none_, if_neg (by simp [none_])]
        exact iff_of_true rfl nofun
      · have digits : ∀ c ∈ digitsOf p, isDigit c = true := fun c member => (List.mem_filter.mp member).2
        rw [if_neg none_, if_pos (by simp [none_]), List.forall_mem_cons, ← intBase10_digits none_ digits, ← ih]
        cases intBase10 (digitsOf p) with
        | none => exact iff_of_false Bool.false_ne_true fun both => Bool.false_ne_true both.1
        | some n =>
            rw [Option.bind_some, Option.isSome_map]
            exact ⟨fun rest => ⟨rfl, rest⟩, fun both => both.2⟩

/-- A version is parsed, or found unreadable, when its digits can be converted. -/
theorem semver_isSome_iff (v : PyStr) : (semver v).isSome = true ↔ Convertible v := by
  rw [semver, Convertible, converted]
  split
  · next empty => rw [empty]; exact iff_of_true rfl nofun
  · next empty => rw [empty]; exact iff_of_true rfl nofun
  · next some_ =>
    rw [Option.isSome_map, numbersOf_isSome_iff]
    split
    · next rest same => exact absurd same (some_ rest)
    · rfl

/-! ### What a row says -/

/-- A header is an entry of the row's blocklist. -/
def Blocklisted (plat : Dict) (header : Option PyStr) : Prop :=
  ∃ text entries, header = some text ∧ text ≠ [] ∧
    (plat.get (py "blocked_versions")).iterateOrEmpty = some entries ∧ ∃ e ∈ entries, e.str' = text

/-- The row enforces a floor, and the version is below it. -/
def BelowFloor (plat : Dict) (appVersion : Option PyStr) : Prop :=
  (plat.get (py "min_supported_blocking")).truthy = true ∧ ∃ have_ floor,
    semver (appVersion.getD []) = some (some have_) ∧
    semver (plat.get (py "min_supported_version")).strOrEmpty = some (some floor) ∧ have_.lt floor = true

theorem isBlocked_iff {plat : Dict} {entries : List Json}
    (iterates : (plat.get (py "blocked_versions")).iterateOrEmpty = some entries) (header : Option PyStr) :
    isBlocked (entries.map Json.str') header = true ↔ Blocklisted plat header := by
  cases header with
  | none =>
      refine iff_of_false Bool.false_ne_true ?_
      rintro ⟨_, _, none_, _⟩
      cases none_
  | some text =>
      unfold isBlocked
      dsimp only [Option.getD_some]
      rw [Bool.and_eq_true, Bool.not_eq_true', List.isEmpty_eq_false_iff, List.contains_iff_mem,
        List.mem_map]
      constructor
      · exact fun ⟨some_, listed⟩ => ⟨text, entries, rfl, some_, iterates, listed⟩
      · rintro ⟨_, entries', same, some_, iterates', listed⟩
        obtain rfl := Option.some.inj same
        rw [iterates] at iterates'
        obtain rfl := Option.some.inj iterates'
        exact ⟨some_, listed⟩

/-- The row has an answer: its blocklist can be gone over, and where versions are compared their digits
can be converted. -/
def GateAnswers (plat : Dict) (appVersion appBuild : Option PyStr) : Prop :=
  (plat.get (py "blocked_versions")).iterateOrEmpty.isSome = true ∧
    (¬Blocklisted plat appVersion → ¬Blocklisted plat appBuild →
      (plat.get (py "min_supported_blocking")).truthy = true →
      Convertible (plat.get (py "min_supported_version")).strOrEmpty ∧ Convertible (appVersion.getD []))

theorem gate_isSome_iff (plat : Dict) (appVersion appBuild : Option PyStr) :
    (gate plat appVersion appBuild).isSome = true ↔ GateAnswers plat appVersion appBuild := by
  rw [gate, GateAnswers]
  cases iterates : (plat.get (py "blocked_versions")).iterateOrEmpty with
  | none => exact iff_of_false Bool.false_ne_true fun both => Bool.false_ne_true both.1
  | some entries =>
      rw [Option.bind_some, Option.isSome_some, ← isBlocked_iff iterates appVersion,
        ← isBlocked_iff iterates appBuild]
      dsimp only
      split
      · next blocked =>
        rw [Bool.or_eq_true] at blocked
        exact iff_of_true rfl ⟨rfl, fun one two => absurd blocked (not_or.mpr ⟨one, two⟩)⟩
      · next free =>
        rw [Bool.or_eq_true, not_or] at free
        split
        · next off =>
          rw [Bool.not_eq_true'] at off
          rw [off]
          exact iff_of_true rfl ⟨rfl, fun _ _ on => absurd on Bool.false_ne_true⟩
        · next on =>
          rw [Bool.not_eq_true', Bool.not_eq_false] at on
          rw [← semver_isSome_iff, ← semver_isSome_iff]
          cases semver (plat.get (py "min_supported_version")).strOrEmpty with
          | none =>
              exact iff_of_false Bool.false_ne_true fun both =>
                Bool.false_ne_true (both.2 free.1 free.2 on).1
          | some floor =>
              rw [Option.bind_some, Option.isSome_map]
              exact ⟨fun some_ => ⟨rfl, fun _ _ _ => ⟨rfl, some_⟩⟩, fun both => (both.2 free.1 free.2 on).2⟩

/-- What a row blocks is blocklisted or below the floor. -/
theorem gate_blocks {plat : Dict} {appVersion appBuild : Option PyStr} {refusal : Refusal}
    (blocks : gate plat appVersion appBuild = some (some refusal)) :
    Blocklisted plat appVersion ∨ Blocklisted plat appBuild ∨ BelowFloor plat appVersion := by
  rw [gate, Option.bind_eq_some_iff] at blocks
  obtain ⟨entries, iterates, blocks⟩ := blocks
  dsimp only at blocks
  split at blocks
  · next blocked =>
    rw [Bool.or_eq_true, isBlocked_iff iterates, isBlocked_iff iterates] at blocked
    exact blocked.elim .inl fun build => .inr (.inl build)
  · split at blocks
    · cases blocks
    · next on =>
      rw [Bool.not_eq_true', Bool.not_eq_false] at on
      rw [Option.bind_eq_some_iff] at blocks
      obtain ⟨floor, readFloor, blocks⟩ := blocks
      rw [Option.map_eq_some_iff] at blocks
      obtain ⟨have_, readVersion, blocks⟩ := blocks
      split at blocks
      · next floor have_ =>
        split at blocks
        · next below => exact .inr (.inr ⟨on, have_, floor, readVersion, readFloor, below⟩)
        · cases blocks
      · cases blocks

/-! ### The whole gate -/

/-- The row of the app's platform. -/
def IsRow (versionRegistry apps : Dict) (appId : Option PyStr) (platform : PyStr) (plat : Dict) : Prop :=
  ∃ bundle entry platforms, bundleForApp apps appId = some bundle ∧
    versionRegistry.get bundle = .obj entry ∧
    asMapping (Dict.get entry (py "platforms")) = some platforms ∧ platforms.get platform = .obj plat

/-- The gate returns, and blocks only what the row of the app's platform has in its blocklist or keeps
below an enforced floor. -/
def FailsOpen (versionRegistry apps : Dict) (appId appVersion appBuild : Option PyStr) (platform : PyStr) :
    Prop :=
  ∃ verdict, evaluate versionRegistry apps appId appVersion appBuild platform = some verdict ∧
    ∀ refusal, verdict = some refusal → ∃ plat, IsRow versionRegistry apps appId platform plat ∧
      (Blocklisted plat appVersion ∨ Blocklisted plat appBuild ∨ BelowFloor plat appVersion)

/-- The app's platforms are a mapping or missing, and the row of the platform has an answer. -/
def Answers (versionRegistry apps : Dict) (appId appVersion appBuild : Option PyStr) (platform : PyStr) :
    Prop :=
  (∀ bundle entry, bundleForApp apps appId = some bundle → versionRegistry.get bundle = .obj entry →
      (asMapping (Dict.get entry (py "platforms"))).isSome = true) ∧
    ∀ plat, IsRow versionRegistry apps appId platform plat → GateAnswers plat appVersion appBuild

/-- The ways through the registry to the row, and where there is none. -/
theorem evaluate_cases (versionRegistry apps : Dict) (appId appVersion appBuild : Option PyStr)
    (platform : PyStr) :
    (∃ plat, IsRow versionRegistry apps appId platform plat ∧
        evaluate versionRegistry apps appId appVersion appBuild platform = gate plat appVersion appBuild) ∨
      ((∀ plat, ¬IsRow versionRegistry apps appId platform plat) ∧
        ((evaluate versionRegistry apps appId appVersion appBuild platform = some none ∧
            ∀ bundle entry, bundleForApp apps appId = some bundle → versionRegistry.get bundle = .obj entry →
              (asMapping (Dict.get entry (py "platforms"))).isSome = true) ∨
          (evaluate versionRegistry apps appId appVersion appBuild platform = none ∧
            ∃ bundle entry, bundleForApp apps appId = some bundle ∧ versionRegistry.get bundle = .obj entry ∧
              asMapping (Dict.get entry (py "platforms")) = none))) := by
  rw [evaluate]
  cases app : bundleForApp apps appId with
  | none =>
      refine .inr ⟨?_, .inl ⟨rfl, nofun⟩⟩
      rintro plat ⟨_, _, _, known, _⟩
      rw [app] at known
      cases known
  | some bundle =>
      dsimp only
      split
      · next entry row =>
        cases mapping : asMapping (Dict.get entry (py "platforms")) with
        | none =>
            refine .inr ⟨?_, .inr ⟨rfl, bundle, entry, rfl, row, mapping⟩⟩
            rintro plat ⟨_, _, _, known, row', mapping', _⟩
            obtain rfl := Option.some.inj (app.symm.trans known)
            obtain rfl := Json.obj.inj (row.symm.trans row')
            cases mapping.symm.trans mapping'
        | some platforms =>
            have same : ∀ {plat platforms'} {entry' : Dict}, versionRegistry.get bundle = .obj entry' →
                asMapping (Dict.get entry' (py "platforms")) = some platforms' →
                Dict.get platforms' platform = .obj plat → platforms.get platform = .obj plat := by
              intro plat platforms' entry' row' mapping' found
              obtain rfl := Json.obj.inj (row.symm.trans row')
              obtain rfl := Option.some.inj (mapping.symm.trans mapping')
              exact found
            rw [Option.bind_some]
            split
            · next plat found => exact .inl ⟨plat, ⟨bundle, entry, platforms, app, row, mapping, found⟩, rfl⟩
            · next missing =>
              refine .inr ⟨?_, .inl ⟨rfl, ?_⟩⟩
              · rintro plat ⟨_, _, _, known, row', mapping', found⟩
                obtain rfl := Option.some.inj (app.symm.trans known)
                exact missing plat (same row' mapping' found)
              · rintro _ entry' known row'
                obtain rfl := Option.some.inj known
                obtain rfl := Json.obj.inj (row.symm.trans row')
                rw [mapping]
                rfl
      · next missing =>
        refine .inr ⟨?_, .inl ⟨rfl, ?_⟩⟩
        · rintro plat ⟨_, entry, _, known, row, _⟩
          obtain rfl := Option.some.inj (app.symm.trans known)
          exact missing entry row
        · rintro _ entry known row
          obtain rfl := Option.some.inj known
          exact absurd row (missing entry)

/-- The gate fails open if and only if the row can be read and the versions it compares can be
converted. -/
theorem evaluate_failsOpen_iff (versionRegistry apps : Dict) (appId appVersion appBuild : Option PyStr)
    (platform : PyStr) : FailsOpen versionRegistry apps appId appVersion appBuild platform ↔
      Answers versionRegistry apps appId appVersion appBuild platform := by
  rw [FailsOpen, Answers]
  rcases evaluate_cases versionRegistry apps appId appVersion appBuild platform with
    ⟨plat, row, verdict⟩ | ⟨noRow, ⟨verdict, mappings⟩ | ⟨verdict, bundle, entry, known, found, broken⟩⟩
  · obtain ⟨bundle, entry, platforms, known, found, mapping, here⟩ := row
    have only : ∀ plat', IsRow versionRegistry apps appId platform plat' → plat' = plat := by
      rintro plat' ⟨_, _, _, known', found', mapping', here'⟩
      obtain rfl := Option.some.inj (known.symm.trans known')
      obtain rfl := Json.obj.inj (found.symm.trans found')
      obtain rfl := Option.some.inj (mapping.symm.trans mapping')
      exact Json.obj.inj (here'.symm.trans here)
    rw [verdict]
    constructor
    · rintro ⟨v, returns, _⟩
      refine ⟨fun bundle' entry' known' found' => ?_, fun plat' row' => ?_⟩
      · obtain rfl := Option.some.inj (known.symm.trans known')
        obtain rfl := Json.obj.inj (found.symm.trans found')
        rw [mapping]
        rfl
      · rw [only plat' row', ← gate_isSome_iff, returns]
        rfl
    · rintro ⟨_, rows⟩
      have row : IsRow versionRegistry apps appId platform plat :=
        ⟨bundle, entry, platforms, known, found, mapping, here⟩
      obtain ⟨v, returns⟩ := Option.isSome_iff_exists.mp ((gate_isSome_iff _ _ _).mpr (rows plat row))
      refine ⟨v, returns, fun refusal blocks => ⟨plat, row, ?_⟩⟩
      rw [blocks] at returns
      exact gate_blocks returns
  · rw [verdict]
    refine iff_of_true ⟨none, rfl, nofun⟩ ⟨mappings, fun plat row => absurd row (noRow plat)⟩
  · rw [verdict]
    refine iff_of_false ?_ fun both => ?_
    · rintro ⟨_, none_, _⟩
      cases none_
    · have mapping := both.1 bundle entry known found
      rw [broken] at mapping
      cases mapping

end

/-- The runtime with the superscript two, which is a digit and no decimal digit. -/
@[reducible] def withSuperscript : PyRuntime :=
  { PyRuntime.ascii with
    isDigit := fun c => isAsciiDigit c || c == 0xB2
    isDigit_decimal := fun c decimal => by
      have digit := PyRuntime.ascii.isDigit_decimal c decimal
      rw [show isAsciiDigit c = true from digit]
      rfl
    isDigit_space := fun c space => by
      rw [Bool.or_eq_false_iff]
      refine ⟨PyRuntime.ascii.isDigit_space c space, ?_⟩
      rw [beq_eq_false_iff_ne]
      rintro rfl
      cases space
    isDigit_ascii := fun c small => by
      have other : (c == 0xB2) = false := beq_eq_false_iff_ne.mpr (by omega)
      rw [other, Bool.or_false] }

/-- A version of `1.²` raises when the floor is enforced. -/
theorem superscript_raises : letI := withSuperscript
    ¬FailsOpen
      [(py "com.x", .obj [(py "platforms", .obj [(py "ios", .obj
        [(py "min_supported_version", .str (py "1.5")), (py "min_supported_blocking", .bool true)])])])]
      [(py "app", .obj [(py "bundle_id", .str (py "com.x"))])]
      (some (py "app")) (some (py "1.²")) none (py "ios") := by
  let _ := withSuperscript
  rintro ⟨verdict, returns, _⟩
  have raises : evaluate
      [(py "com.x", .obj [(py "platforms", .obj [(py "ios", .obj
        [(py "min_supported_version", .str (py "1.5")), (py "min_supported_blocking", .bool true)])])])]
      [(py "app", .obj [(py "bundle_id", .str (py "com.x"))])]
      (some (py "app")) (some (py "1.²")) none (py "ios") = none := by rfl
  rw [raises] at returns
  cases returns

end Configs.VersionGate

end GhostPour
