/-
Module: GhostPour.Prompts.Proofs.PlaceholderInjection
Layer: Proofs
Purpose: When the passes over the growing text do what substituting every placeholder of the template
  at once does, whatever the order of the variables: exactly when, at the turn of each placeholder,
  the template with the values of the earlier turns has it only where the template itself does.
Trusted boundary: none
Main exports: passes, assembleUser_eq, InjectionFree, injectionFree_iff
-/
import GhostPour.Prompts.PromptAssembly

namespace GhostPour.Prompts

/-! ### The passes -/

/-- The turn of a variable that has a value. -/
def sentPass (r : PyStr × Option PyStr) : Option (PyStr × PyStr) :=
  r.2.map fun value => (placeholder r.1, value)

/-- The placeholders in the order of their turns, with their values. -/
def passes (config : PromptConfig) (userContent : PyStr) (supplied : Table PyStr (Option PyStr)) :
    List (PyStr × PyStr) :=
  legacyNames.map (fun name => (placeholder name, userContent)) ++
    supplied.rows.filterMap sentPass ++
      (config.optionalVariables.filter (isUnsent supplied)).map fun name => (placeholder name, [])

theorem placeholder_ne_nil (name : PyStr) : placeholder name ≠ [] := fun none_ => by
  rw [placeholder, List.append_assoc] at none_
  exact absurd (List.append_eq_nil_iff.mp none_).1 (by decide)

theorem placeholder_injective : Function.Injective placeholder := fun _ _ same =>
  List.append_cancel_left (List.append_cancel_right same)

theorem passes_ne_nil {config : PromptConfig} {userContent : PyStr}
    {supplied : Table PyStr (Option PyStr)} :
    ∀ p ∈ passes config userContent supplied, p.1 ≠ [] := by
  intro p member
  rw [passes, List.mem_append, List.mem_append] at member
  rcases member with (legacy | sent) | optional
  · obtain ⟨name, _, rfl⟩ := List.mem_map.mp legacy
    exact placeholder_ne_nil name
  · obtain ⟨r, _, sent⟩ := List.mem_filterMap.mp sent
    obtain ⟨value, _, rfl⟩ := Option.map_eq_some_iff.mp sent
    exact placeholder_ne_nil r.1
  · obtain ⟨name, _, rfl⟩ := List.mem_map.mp optional
    exact placeholder_ne_nil name

theorem foldl_substituteSent (rows : List (PyStr × Option PyStr)) (text : PyStr) :
    rows.foldl substituteSent text =
      replaceInOrder (rows.filterMap sentPass) text := by
  induction rows generalizing text with
  | nil => rfl
  | cons r rows ih =>
      obtain ⟨name, value⟩ := r
      cases value with
      | none => exact ih text
      | some value => exact ih _

theorem foldl_blankUnsent (supplied : Table PyStr (Option PyStr)) (names : List PyStr) (text : PyStr) :
    names.foldl (blankUnsent supplied) text =
      replaceInOrder ((names.filter (isUnsent supplied)).map fun name => (placeholder name, [])) text := by
  induction names generalizing text with
  | nil => rfl
  | cons name names ih =>
      rw [List.foldl_cons, ih, blankUnsent]
      by_cases unsent : isUnsent supplied name = true
      · rw [if_pos unsent, List.filter_cons_of_pos unsent]
        rfl
      · rw [if_neg unsent, List.filter_cons_of_neg unsent]

/-- With a template and without missing variables, the prompt is the template after the passes. -/
theorem assembleUser_eq {config : PromptConfig} {supplied : Table PyStr (Option PyStr)}
    (templated : isIn (py "\x7b\x7b") config.userPromptTemplate = true)
    (complete : missingVariables config supplied = []) (userContent : PyStr) :
    assembleUser config userContent supplied =
      .ok (replaceInOrder (passes config userContent supplied) config.userPromptTemplate) := by
  have legacy : legacyNames.foldl (substituteLegacy userContent) config.userPromptTemplate =
      replaceInOrder (legacyNames.map fun name => (placeholder name, userContent))
        config.userPromptTemplate := List.foldl_map.symm
  unfold assembleUser
  rw [if_pos templated]
  dsimp only
  rw [if_neg (not_not.mpr complete), legacy, foldl_substituteSent, foldl_blankUnsent, passes,
    replaceInOrder, replaceInOrder, replaceInOrder, replaceInOrder, List.foldl_append,
    List.foldl_append]

/-! ### The order of the variables -/

variable {config : PromptConfig} {userContent : PyStr} {supplied supplied' : Table PyStr (Option PyStr)}

theorem get_perm (perm : supplied'.rows.Perm supplied.rows) (name : PyStr) :
    supplied'.get name = supplied.get name :=
  Option.ext fun _ =>
    ⟨fun stored => Table.get_of_mem (perm.mem_iff.mp (Table.mem_of_get stored)),
      fun stored => Table.get_of_mem (perm.mem_iff.mpr (Table.mem_of_get stored))⟩

theorem isUnsent_perm (perm : supplied'.rows.Perm supplied.rows) :
    isUnsent supplied' = isUnsent supplied := funext fun name => by
  unfold isUnsent
  rw [get_perm perm]

theorem missingVariables_perm (perm : supplied'.rows.Perm supplied.rows) :
    missingVariables config supplied' = missingVariables config supplied := by
  have absent : isAbsent supplied' = isAbsent supplied := funext fun name => by
    unfold isAbsent
    rw [get_perm perm]
  unfold missingVariables
  rw [absent]

/-- In another order of the variables the placeholders are the same. -/
theorem passes_perm (perm : supplied'.rows.Perm supplied.rows) :
    (passes config userContent supplied').Perm (passes config userContent supplied) := by
  unfold passes
  rw [isUnsent_perm perm]
  exact ((perm.filterMap _).append_left _).append_right _

/-- Among variables with distinct names, the value of a placeholder is that of its name. -/
theorem valueOf_sent {rows : List (PyStr × Option PyStr)} (distinct : (rows.map Prod.fst).Nodup)
    {p v : PyStr} :
    valueOf (rows.filterMap sentPass) p = some v ↔
      ∃ name, placeholder name = p ∧ (name, some v) ∈ rows := by
  induction rows with
  | nil => simp [valueOf]
  | cons r rows ih =>
      obtain ⟨name, value⟩ := r
      rw [List.map_cons, List.nodup_cons] at distinct
      have others := ih distinct.2
      cases value with
      | none =>
          have skipped : sentPass (name, none) = none := rfl
          rw [List.filterMap_cons_none skipped, others]
          refine exists_congr fun other => and_congr_right fun _ => ?_
          rw [List.mem_cons]
          exact (or_iff_right fun same => by cases same).symm
      | some value =>
          have turn : sentPass (name, some value) = some (placeholder name, value) := rfl
          rw [List.filterMap_cons_some turn]
          by_cases here : placeholder name = p
          · have first : valueOf ((placeholder name, value) ::
                rows.filterMap sentPass) p =
                some value := by
              rw [valueOf, List.find?_cons_of_pos (by exact decide_eq_true here)]
              rfl
            rw [first]
            constructor
            · intro same
              cases same
              exact ⟨name, here, List.mem_cons_self⟩
            · rintro ⟨other, same, member⟩
              cases placeholder_injective (same.trans here.symm)
              rcases List.mem_cons.mp member with equal | later
              · cases equal
                rfl
              · exact absurd (List.mem_map.mpr ⟨_, later, rfl⟩) distinct.1
          · have rest : valueOf ((placeholder name, value) ::
                rows.filterMap sentPass) p =
                valueOf (rows.filterMap sentPass) p := by
              rw [valueOf, List.find?_cons_of_neg (by simpa using here), valueOf]
            rw [rest, others]
            refine exists_congr fun other => and_congr_right fun same => ?_
            rw [List.mem_cons]
            exact (or_iff_right fun equal => here (by cases equal; exact same)).symm

/-- The value of a placeholder does not depend on the order. -/
theorem valueOf_passes_perm (perm : supplied'.rows.Perm supplied.rows) (p : PyStr) :
    valueOf (passes config userContent supplied') p = valueOf (passes config userContent supplied) p := by
  unfold passes
  rw [isUnsent_perm perm, valueOf_append, valueOf_append, valueOf_append, valueOf_append]
  congr 2
  refine Option.ext fun v => ?_
  rw [valueOf_sent supplied'.nodup, valueOf_sent supplied.nodup]
  exact exists_congr fun name => by rw [perm.mem_iff]

/-! ### Free of injection -/

/-- The user prompt is free of injection: in every order of the variables it is the template with
    every placeholder occurrence replaced by its value at once, and no occurrence that is replaced
    reaches into the user's words or a value. -/
def InjectionFree (config : PromptConfig) (userContent : PyStr)
    (supplied : Table PyStr (Option PyStr)) : Prop :=
  ∀ supplied' : Table PyStr (Option PyStr), supplied'.rows.Perm supplied.rows →
    ∀ text, assembleUser config userContent supplied' = .ok text →
      Separated ((passes config userContent supplied).map Prod.fst) config.userPromptTemplate ∧
      text = simultaneous (passes config userContent supplied) config.userPromptTemplate ∧
      OnlyTemplate (passes config userContent supplied') (literals config.userPromptTemplate)

/-- What a placeholder meets at its turn: the template with the values of the earlier turns. -/
def atTurn (config : PromptConfig) (userContent : PyStr) (supplied : Table PyStr (Option PyStr))
    (earlier : List (PyStr × PyStr)) : List (Piece Nat) :=
  pieces earlier
    (parse ((passes config userContent supplied).map Prod.fst) config.userPromptTemplate)

/-- A prompt with a template is free of injection exactly when a required variable is missing, or no
    placeholders overlap in the template and, in every order of the variables, each meets at its turn
    only what the template has. -/
theorem injectionFree_iff (config : PromptConfig) (userContent : PyStr)
    (supplied : Table PyStr (Option PyStr))
    (templated : isIn (py "\x7b\x7b") config.userPromptTemplate = true) :
    InjectionFree config userContent supplied ↔ missingVariables config supplied ≠ [] ∨
      Separated ((passes config userContent supplied).map Prod.fst) config.userPromptTemplate ∧
      ∀ supplied' : Table PyStr (Option PyStr), supplied'.rows.Perm supplied.rows →
        ∀ earlier p later, passes config userContent supplied' = earlier ++ p :: later →
          OnlyLiteral p.1 (atTurn config userContent supplied earlier) := by
  by_cases complete : missingVariables config supplied = []
  · rw [or_iff_right (not_not.mpr complete)]
    have assembled : ∀ supplied' : Table PyStr (Option PyStr),
        supplied'.rows.Perm supplied.rows → assembleUser config userContent supplied' =
          .ok (replaceInOrder (passes config userContent supplied') config.userPromptTemplate) :=
      fun supplied' perm =>
        assembleUser_eq templated (by rw [missingVariables_perm perm, complete]) userContent
    have some_ : ∀ q ∈ (passes config userContent supplied).map Prod.fst, q ≠ [] := fun q member => by
      obtain ⟨p, among, rfl⟩ := List.mem_map.mp member
      exact passes_ne_nil p among
    have among : ∀ supplied' : Table PyStr (Option PyStr), supplied'.rows.Perm supplied.rows →
        ∀ p ∈ passes config userContent supplied',
          p.1 ∈ (passes config userContent supplied).map Prod.fst := fun supplied' perm p member =>
      List.mem_map.mpr ⟨p, (passes_perm perm).mem_iff.mp member, rfl⟩
    constructor
    · intro free
      have separated := (free supplied (List.Perm.refl _) _ (assembled supplied (List.Perm.refl _))).1
      refine ⟨separated, fun supplied' perm => ?_⟩
      exact (onlyTemplate_iff some_ separated (among supplied' perm)).mp
        (free supplied' perm _ (assembled supplied' perm)).2.2
    · rintro ⟨separated, turns⟩ supplied' perm text prompt
      have only := (onlyTemplate_iff some_ separated (among supplied' perm)).mpr (turns supplied' perm)
      have filled : Part.filled (passes config userContent supplied') =
          Part.filled (passes config userContent supplied) := funext fun part => by
        cases part with
        | char c => rfl
        | hole p => rw [Part.filled, Part.filled, valueOf_passes_perm perm]
      rw [assembled supplied' perm] at prompt
      cases prompt
      refine ⟨separated, ?_, only⟩
      rw [replaceInOrder_eq_simultaneous some_ separated (among supplied' perm) only, filled]
      rfl
  · refine iff_of_true (fun supplied' perm text prompt => ?_) (Or.inl complete)
    have missing : missingVariables config supplied' ≠ [] := by
      rw [missingVariables_perm perm]
      exact complete
    unfold assembleUser at prompt
    rw [if_pos templated] at prompt
    dsimp only at prompt
    rw [if_pos missing] at prompt
    cases prompt

/-- The config of a prompt that is the user's words alone. -/
def onlyUserInput : PromptConfig := ⟨py "\x7b\x7buser_input\x7d\x7d", [], []⟩

theorem injectionFree_iff_greeting :
    InjectionFree onlyUserInput (py "hola") (.single (py "locale") (some (py "es"))) ↔
      missingVariables onlyUserInput (.single (py "locale") (some (py "es"))) ≠ [] ∨
      Separated ((passes onlyUserInput (py "hola") (.single (py "locale") (some (py "es")))).map
          Prod.fst) onlyUserInput.userPromptTemplate ∧
      ∀ supplied' : Table PyStr (Option PyStr),
        supplied'.rows.Perm (Table.single (py "locale") (some (py "es"))).rows →
        ∀ earlier p later, passes onlyUserInput (py "hola") supplied' = earlier ++ p :: later →
          OnlyLiteral p.1 (atTurn onlyUserInput (py "hola") (.single (py "locale") (some (py "es")))
            earlier) :=
  injectionFree_iff _ _ _ (by decide +kernel)

/-- A user writes the name of a variable in braces, and the value of the variable comes out: the
    template does not name it. -/
theorem users_words_are_expanded :
    ¬InjectionFree onlyUserInput (py "\x7b\x7blocale\x7d\x7d")
      (.single (py "locale") (some (py "es"))) := by
  intro free
  have prompt : assembleUser onlyUserInput (py "\x7b\x7blocale\x7d\x7d")
      (.single (py "locale") (some (py "es"))) = .ok (py "es") := by
    decide +kernel
  have same := (free _ (List.Perm.refl _) _ prompt).2.1
  revert same
  decide +kernel

end GhostPour.Prompts
