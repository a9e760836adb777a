/-
Module: GhostPour.Library.JsonText
Layer: Library
Purpose: `loads` reads exactly the texts of the concrete syntax: what it accepts is the text of a
  `Document` (soundness) and every document's text is read back to that document (completeness).
Trusted boundary: none
Main exports: parseValue_sound, parseValue_complete, loads_eq_some_iff, loads_document
-/
import GhostPour.Library.Json

namespace GhostPour

/-! ### Strings -/

theorem scanItems_quote (rest : PyStr) : scanItems (dquote :: rest) = some ([], rest) := by
  unfold scanItems
  simp

theorem scanItems_plain (c : Nat) (ok : isPlain c = true) (rest : PyStr) :
    scanItems (c :: rest) = (scanItems rest).map fun r => (.plain c ok :: r.1, r.2) := by
  have unquoted : c ≠ dquote ∧ c ≠ backslash := by
    simp [isPlain] at ok
    exact ⟨ok.1.2, ok.2⟩
  conv => lhs; unfold scanItems
  rw [if_neg unquoted.1, if_neg unquoted.2, dif_pos ok]

theorem scanItems_escape (e c : Nat) (ok : simpleEscape e = some c) (rest : PyStr) :
    scanItems (backslash :: e :: rest) =
      (scanItems rest).map fun r => (.escape e c ok :: r.1, r.2) := by
  have notU : e ≠ letterU := by
    rintro rfl
    simp [simpleEscape] at ok
  conv => lhs; unfold scanItems
  rw [if_neg (by decide), if_pos rfl]
  simp only [if_neg notU]
  split
  · next x eq => cases ok.symm.trans eq; rfl
  · next eq => rw [ok] at eq; cases eq

theorem scanItems_unicode (a b c d cp : Nat) (ok : hex4 a b c d = some cp) (rest : PyStr) :
    scanItems (backslash :: letterU :: a :: b :: c :: d :: rest) =
      (scanItems rest).map fun r => (.unicode a b c d cp ok :: r.1, r.2) := by
  conv => lhs; unfold scanItems
  rw [if_neg (by decide), if_pos rfl]
  simp only [if_true]
  split
  · next x eq => cases ok.symm.trans eq; rfl
  · next eq => rw [ok] at eq; cases eq

/-- Every body followed by the closing quote is read back. -/
theorem scanItems_complete (items : List StrItem) (rest : PyStr) :
    scanItems (itemsText items ++ dquote :: rest) = some (items, rest) := by
  induction items with
  | nil => simp [itemsText, scanItems_quote]
  | cons item items ih =>
      cases item with
      | plain c ok =>
          simp only [itemsText, List.flatMap_cons, StrItem.text] at ih ⊢
          simpa [scanItems_plain c ok] using ih
      | escape e c ok =>
          simp only [itemsText, List.flatMap_cons, StrItem.text] at ih ⊢
          simpa [scanItems_escape e c ok] using ih
      | unicode a b c d cp ok =>
          simp only [itemsText, List.flatMap_cons, StrItem.text] at ih ⊢
          simpa [scanItems_unicode a b c d cp ok] using ih

/-- What is read as a body is its text and the closing quote. -/
theorem scanItems_sound {s rest : PyStr} {items : List StrItem}
    (read : scanItems s = some (items, rest)) : s = itemsText items ++ dquote :: rest := by
  induction s using scanItems.induct generalizing items rest with
  | case1 => cases read
  | case2 rest' =>
      rw [scanItems_quote] at read
      cases read
      simp [itemsText]
  | case4 a b c d tail cp ok _ ih =>
      rw [scanItems_unicode a b c d cp ok] at read
      obtain ⟨⟨items', rest'⟩, inner, same⟩ := Option.map_eq_some_iff.mp read
      cases same
      rw [ih inner]
      simp [itemsText, StrItem.text]
  | case7 e rest' notU cp ok _ ih =>
      rw [scanItems_escape e cp ok] at read
      obtain ⟨⟨items', rest'⟩, inner, same⟩ := Option.map_eq_some_iff.mp read
      cases same
      rw [ih inner]
      simp [itemsText, StrItem.text]
  | case9 c rest' _ _ ok ih =>
      rw [scanItems_plain c ok] at read
      obtain ⟨⟨items', rest'⟩, inner, same⟩ := Option.map_eq_some_iff.mp read
      cases same
      rw [ih inner]
      simp [itemsText, StrItem.text]
  | case3 | case6 | case10 =>
      unfold scanItems at read
      simp_all
  | case5 | case8 =>
      unfold scanItems at read
      simp_all
      split at read <;> simp_all

/-! ### White space and atoms -/

theorem isAtomChar_not_space {c : Nat} (atom : isAtomChar c = true) :
    isJsonSpace c = false := by
  simp [isAtomChar, isAsciiAlpha, isAsciiDigit] at atom
  simp [isJsonSpace]
  omega

theorem parseWs_sound (s : PyStr) : s = (parseWs s).1.text ++ (parseWs s).2 :=
  (List.takeWhile_append_dropWhile).symm

/-- White space is read up to the first character that is not white space. -/
theorem parseWs_complete (w : Ws) (s : PyStr) (stop : ∀ c ∈ s.head?, isJsonSpace c = false) :
    parseWs (w.text ++ s) = (w, s) := by
  have noMore : s.takeWhile isJsonSpace = [] ∧ s.dropWhile isJsonSpace = s := by
    cases s with
    | nil => simp
    | cons c s => simp [stop c (by simp)]
  obtain ⟨text, ok⟩ := w
  simp [parseWs, List.takeWhile_append_of_pos ok, List.dropWhile_append_of_pos ok, noMore]

/-- White space before a character that is not white space is read up to it. -/
theorem parseWs_char (w : Ws) (c : Nat) (rest : PyStr) (space : isJsonSpace c = false) :
    parseWs (w.text ++ (c :: rest)) = (w, c :: rest) :=
  parseWs_complete w _ (by simp [space])

/-- Nothing that would lengthen an atom stands at the front. -/
def Delimited (s : PyStr) : Prop := ∀ c ∈ s.head?, isAtomChar c = false

theorem delimited_char (c : Nat) (rest : PyStr) (stop : isAtomChar c = false) :
    Delimited (c :: rest) := by
  simp [Delimited, stop]

theorem delimited_ws_append (w : Ws) {s : PyStr} (stop : Delimited s) :
    Delimited (w.text ++ s) := by
  obtain ⟨text, ok⟩ := w
  cases text with
  | nil => exact stop
  | cons c text =>
      intro d member
      simp at member
      subst member
      by_contra isAtom
      have space := ok c (by simp)
      simp [isAtomChar_not_space (by simpa using isAtom)] at space

section
variable [PyRuntime]

theorem parseAtom_sound {s rest : PyStr} {a : Atom} (read : parseAtom s = some (a, rest)) :
    s = a.text ++ rest := by
  unfold parseAtom at read
  split at read
  · cases read
    exact (List.takeWhile_append_dropWhile).symm
  · cases read

theorem Atom.text_ne_nil (a : Atom) : a.text ≠ [] := by
  intro empty
  have ok := a.ok
  rw [empty] at ok
  simp [classify, py, numberToken, dropOpt, intPart] at ok

theorem parseAtom_complete (a : Atom) (rest : PyStr) (stop : Delimited rest) :
    parseAtom (a.text ++ rest) = some (a, rest) := by
  obtain ⟨text, value, chars, ok⟩ := a
  have noMore : rest.takeWhile isAtomChar = [] ∧ rest.dropWhile isAtomChar = rest := by
    cases rest with
    | nil => simp
    | cons c rest => simp [stop c (by simp)]
  have taken : (text ++ rest).takeWhile isAtomChar = text := by
    simp [List.takeWhile_append_of_pos chars, noMore]
  have dropped : (text ++ rest).dropWhile isAtomChar = rest := by
    simp [List.dropWhile_append_of_pos chars, noMore]
  unfold parseAtom
  split
  · next v eq =>
    simp only [taken] at eq
    cases ok.symm.trans eq
    simp [taken, dropped]
  · next eq =>
    simp only [taken] at eq
    rw [ok] at eq
    cases eq

/-! ### Soundness -/

/-- Whatever is read is the text of what was read, followed by what is left. -/
theorem parse_sound (fuel : Nat) :
    (∀ s v rest, parseValue fuel s = some (v, rest) → s = v.text ++ rest) ∧
    (∀ s es rest, parseElems fuel s = some (es, rest) → s = es.text ++ rest) ∧
    (∀ s ms rest, parseMembers fuel s = some (ms, rest) → s = ms.text ++ rest) := by
  induction fuel with
  | zero => simp [parseValue, parseElems, parseMembers]
  | succ fuel ih =>
      obtain ⟨ihValue, ihElems, ihMembers⟩ := ih
      refine ⟨?value, ?elems, ?members⟩
      case value =>
        intro s v rest read
        cases s with
        | nil => simp [parseValue] at read
        | cons c s =>
            unfold parseValue at read
            split at read
            · next isQuote =>
              obtain ⟨⟨items, rest'⟩, inner, same⟩ := Option.map_eq_some_iff.mp read
              cases same
              simp [JsonText.text, quotedText, isQuote, scanItems_sound inner]
            · split at read
              · next isBracket =>
                split at read
                · next d tail after =>
                  split at read
                  · next closes =>
                    cases read
                    have whole := parseWs_sound s
                    rw [after] at whole
                    simp [JsonText.text, isBracket, ← closes, ← whole]
                  · obtain ⟨⟨es, rest'⟩, inner, same⟩ := Option.map_eq_some_iff.mp read
                    cases same
                    simp [JsonText.text, isBracket, ihElems _ _ _ inner]
                · cases read
              · split at read
                · next isBrace =>
                  split at read
                  · next d tail after =>
                    split at read
                    · next closes =>
                      cases read
                      have whole := parseWs_sound s
                      rw [after] at whole
                      simp [JsonText.text, isBrace, ← closes, ← whole]
                    · obtain ⟨⟨ms, rest'⟩, inner, same⟩ := Option.map_eq_some_iff.mp read
                      cases same
                      simp [JsonText.text, isBrace, ihMembers _ _ _ inner]
                  · cases read
                · obtain ⟨⟨a, rest'⟩, inner, same⟩ := Option.map_eq_some_iff.mp read
                  cases same
                  simpa [JsonText.text] using parseAtom_sound inner
      case elems =>
        intro s es rest read
        unfold parseElems at read
        split at read
        · cases read
        · next v s₂ readValue =>
          split at read
          · cases read
          · next c tail after =>
            have front := parseWs_sound s
            have back := parseWs_sound s₂
            rw [ihValue _ _ _ readValue] at front
            rw [after] at back
            split at read
            · next closes =>
              cases read
              subst closes
              exact front.trans (by simp [ElemsText.text, ← back])
            · split at read
              · next separates =>
                obtain ⟨⟨es', rest'⟩, inner, same⟩ := Option.map_eq_some_iff.mp read
                cases same
                subst separates
                exact front.trans (by simp [ElemsText.text, ← ihElems _ _ _ inner, ← back])
              · cases read
      case members =>
        intro s ms rest read
        unfold parseMembers at read
        split at read
        · cases read
        · next q s₁ afterWs =>
          split at read
          · next isQuote =>
            split at read
            · cases read
            · next key s₂ readKey =>
              split at read
              · cases read
              · next sep s₃ afterKey =>
                split at read
                · next isColon =>
                  split at read
                  · cases read
                  · next v s₄ readValue =>
                    split at read
                    · cases read
                    · next c tail afterValue =>
                      have w₁ := parseWs_sound s
                      have w₂ := parseWs_sound s₂
                      have w₃ := parseWs_sound s₃
                      have w₄ := parseWs_sound s₄
                      subst isQuote isColon
                      rw [afterWs, scanItems_sound readKey] at w₁
                      rw [afterKey] at w₂
                      rw [ihValue _ _ _ readValue] at w₃
                      rw [afterValue] at w₄
                      split at read
                      · next closes =>
                        cases read
                        subst closes
                        exact w₁.trans (by simp [MembersText.text, quotedText, ← w₄, ← w₃, ← w₂])
                      · split at read
                        · next separates =>
                          obtain ⟨⟨ms', rest'⟩, inner, same⟩ := Option.map_eq_some_iff.mp read
                          cases same
                          subst separates
                          exact w₁.trans (by
                            simp [MembersText.text, quotedText, ← ihMembers _ _ _ inner, ← w₄,
                              ← w₃, ← w₂])
                        · cases read
                · cases read
          · cases read

/-! ### Completeness -/

/-- A value starts with a character that no white space, comma or closing bracket can be. -/
theorem JsonText.text_head (v : JsonText) :
    ∃ c t, v.text = c :: t ∧ isJsonSpace c = false ∧ c ≠ rbracket ∧ c ≠ rbrace := by
  cases v with
  | atom a =>
      cases shape : a.text with
      | nil => exact absurd shape a.text_ne_nil
      | cons c t =>
          have atom := a.chars c (by simp [shape])
          refine ⟨c, t, by simp [JsonText.text, shape], isAtomChar_not_space atom, ?_, ?_⟩ <;>
            rintro rfl <;> exact absurd atom (by decide)
  | str items => exact ⟨dquote, _, rfl, by decide, by decide, by decide⟩
  | arrEmpty w => exact ⟨lbracket, _, rfl, by decide, by decide, by decide⟩
  | arr es => exact ⟨lbracket, _, rfl, by decide, by decide, by decide⟩
  | objEmpty w => exact ⟨lbrace, _, rfl, by decide, by decide, by decide⟩
  | obj ms => exact ⟨lbrace, _, rfl, by decide, by decide, by decide⟩

theorem JsonText.text_ne_nil (v : JsonText) : 1 ≤ v.text.length := by
  obtain ⟨c, t, shape, _⟩ := v.text_head
  simp [shape]

/-- White space before a value is read up to the value. -/
theorem parseWs_value (w : Ws) (v : JsonText) (rest : PyStr) :
    parseWs (w.text ++ (v.text ++ rest)) = (w, v.text ++ rest) := by
  obtain ⟨c, t, shape, space, _⟩ := v.text_head
  exact parseWs_complete w _ (by simp [shape, space])

/-- After the opening bracket, elements are told from the closing bracket. -/
theorem ElemsText.front (es : ElemsText) (rest : PyStr) :
    ∃ w c t, parseWs (es.text ++ rest) = (w, c :: t) ∧ c ≠ rbracket := by
  cases es with
  | last w₁ v w₂ =>
      obtain ⟨c, t, shape, _, notClose, _⟩ := v.text_head
      refine ⟨w₁, c, t ++ (w₂.text ++ [rbracket] ++ rest), ?_, notClose⟩
      simpa [ElemsText.text, shape] using parseWs_value w₁ v (w₂.text ++ [rbracket] ++ rest)
  | cons w₁ v w₂ es =>
      obtain ⟨c, t, shape, _, notClose, _⟩ := v.text_head
      refine ⟨w₁, c, t ++ (w₂.text ++ (comma :: es.text) ++ rest), ?_, notClose⟩
      simpa [ElemsText.text, shape] using parseWs_value w₁ v (w₂.text ++ (comma :: es.text) ++ rest)

/-- After the opening brace, members start at a quote. -/
theorem MembersText.front (ms : MembersText) (rest : PyStr) :
    ∃ w t, parseWs (ms.text ++ rest) = (w, dquote :: t) := by
  cases ms with
  | last w₁ key w₂ w₃ v w₄ =>
      exact ⟨w₁, _, by simpa [MembersText.text, quotedText] using parseWs_char w₁ dquote _ (by decide)⟩
  | cons w₁ key w₂ w₃ v w₄ ms =>
      exact ⟨w₁, _, by simpa [MembersText.text, quotedText] using parseWs_char w₁ dquote _ (by decide)⟩

mutual

/-- Every value followed by a delimiter is read back. -/
theorem parseValue_complete : ∀ (v : JsonText) (rest : PyStr) (fuel : Nat), Delimited rest →
    2 * v.text.length ≤ fuel → parseValue fuel (v.text ++ rest) = some (v, rest)
  | .atom a, rest, fuel, stop, enough => by
      have long := (JsonText.atom a).text_ne_nil
      obtain ⟨fuel, rfl⟩ : ∃ n, fuel = n + 1 := ⟨fuel - 1, by omega⟩
      have read := parseAtom_complete a rest stop
      cases shape : a.text with
      | nil => exact absurd shape a.text_ne_nil
      | cons c t =>
          have atom := a.chars c (by simp [shape])
          have other : c ≠ dquote ∧ c ≠ lbracket ∧ c ≠ lbrace := by
            refine ⟨?_, ?_, ?_⟩ <;> rintro rfl <;> exact absurd atom (by decide)
          rw [shape] at read
          simp only [JsonText.text, shape, List.cons_append] at read ⊢
          rw [parseValue, if_neg other.1, if_neg other.2.1, if_neg other.2.2, read]
          rfl
  | .str items, rest, fuel, stop, enough => by
      have long := (JsonText.str items).text_ne_nil
      obtain ⟨fuel, rfl⟩ : ∃ n, fuel = n + 1 := ⟨fuel - 1, by omega⟩
      simp only [JsonText.text, quotedText, List.cons_append, List.append_assoc, List.nil_append]
      rw [parseValue, if_pos rfl, scanItems_complete]
      rfl
  | .arrEmpty w, rest, fuel, stop, enough => by
      have long := (JsonText.arrEmpty w).text_ne_nil
      obtain ⟨fuel, rfl⟩ : ∃ n, fuel = n + 1 := ⟨fuel - 1, by omega⟩
      simp only [JsonText.text, List.cons_append, List.append_assoc, List.nil_append]
      rw [parseValue, if_neg (by decide), if_pos rfl, parseWs_char w rbracket rest (by decide)]
      simp
  | .objEmpty w, rest, fuel, stop, enough => by
      have long := (JsonText.objEmpty w).text_ne_nil
      obtain ⟨fuel, rfl⟩ : ∃ n, fuel = n + 1 := ⟨fuel - 1, by omega⟩
      simp only [JsonText.text, List.cons_append, List.append_assoc, List.nil_append]
      rw [parseValue, if_neg (by decide), if_neg (by decide), if_pos rfl,
        parseWs_char w rbrace rest (by decide)]
      simp
  | .arr es, rest, fuel, stop, enough => by
      simp only [JsonText.text, List.length_cons] at enough
      obtain ⟨fuel, rfl⟩ : ∃ n, fuel = n + 1 := ⟨fuel - 1, by omega⟩
      obtain ⟨w, c, t, front, notClose⟩ := es.front rest
      simp only [JsonText.text, List.cons_append]
      rw [parseValue, if_neg (by decide), if_pos rfl, front]
      simp only [if_neg notClose]
      rw [parseElems_complete es rest fuel (by omega)]
      rfl
  | .obj ms, rest, fuel, stop, enough => by
      simp only [JsonText.text, List.length_cons] at enough
      obtain ⟨fuel, rfl⟩ : ∃ n, fuel = n + 1 := ⟨fuel - 1, by omega⟩
      obtain ⟨w, t, front⟩ := ms.front rest
      simp only [JsonText.text, List.cons_append]
      rw [parseValue, if_neg (by decide), if_neg (by decide), if_pos rfl, front]
      simp only [if_neg (show ¬ dquote = rbrace by decide)]
      rw [parseMembers_complete ms rest fuel (by omega)]
      rfl

/-- Elements and their closing bracket are read back. -/
theorem parseElems_complete : ∀ (es : ElemsText) (rest : PyStr) (fuel : Nat),
    2 * es.text.length + 1 ≤ fuel → parseElems fuel (es.text ++ rest) = some (es, rest)
  | .last w₁ v w₂, rest, fuel, enough => by
      simp only [ElemsText.text, List.length_append] at enough
      obtain ⟨fuel, rfl⟩ : ∃ n, fuel = n + 1 := ⟨fuel - 1, by omega⟩
      have stop : Delimited (w₂.text ++ rbracket :: rest) :=
        delimited_ws_append w₂ (delimited_char _ _ (by decide))
      simp only [ElemsText.text, List.append_assoc, List.cons_append, List.nil_append]
      rw [parseElems, parseWs_value, parseValue_complete v _ fuel stop (by omega)]
      simp only [parseWs_char w₂ rbracket rest (by decide), if_true]
  | .cons w₁ v w₂ es, rest, fuel, enough => by
      simp only [ElemsText.text, List.length_append, List.length_cons] at enough
      obtain ⟨fuel, rfl⟩ : ∃ n, fuel = n + 1 := ⟨fuel - 1, by omega⟩
      have stop : Delimited (w₂.text ++ comma :: (es.text ++ rest)) :=
        delimited_ws_append w₂ (delimited_char _ _ (by decide))
      simp only [ElemsText.text, List.append_assoc, List.cons_append]
      rw [parseElems, parseWs_value, parseValue_complete v _ fuel stop (by omega)]
      simp only [parseWs_char w₂ comma (es.text ++ rest) (by decide),
        if_neg (show ¬ comma = rbracket by decide), if_true]
      rw [parseElems_complete es rest fuel (by omega)]
      rfl

/-- Members and their closing brace are read back. -/
theorem parseMembers_complete : ∀ (ms : MembersText) (rest : PyStr) (fuel : Nat),
    2 * ms.text.length + 1 ≤ fuel → parseMembers fuel (ms.text ++ rest) = some (ms, rest)
  | .last w₁ key w₂ w₃ v w₄, rest, fuel, enough => by
      simp only [MembersText.text, List.length_append, List.length_cons] at enough
      obtain ⟨fuel, rfl⟩ : ∃ n, fuel = n + 1 := ⟨fuel - 1, by omega⟩
      have stop : Delimited (w₄.text ++ rbrace :: rest) :=
        delimited_ws_append w₄ (delimited_char _ _ (by decide))
      simp only [MembersText.text, quotedText, List.append_assoc, List.cons_append,
        List.nil_append]
      rw [parseMembers, parseWs_char w₁ dquote _ (by decide)]
      simp only [if_true]
      rw [scanItems_complete]
      simp only [parseWs_char w₂ colon _ (by decide), if_true]
      rw [parseWs_value, parseValue_complete v _ fuel stop (by omega)]
      simp only [parseWs_char w₄ rbrace rest (by decide), if_true]
  | .cons w₁ key w₂ w₃ v w₄ ms, rest, fuel, enough => by
      simp only [MembersText.text, List.length_append, List.length_cons] at enough
      obtain ⟨fuel, rfl⟩ : ∃ n, fuel = n + 1 := ⟨fuel - 1, by omega⟩
      have stop : Delimited (w₄.text ++ comma :: (ms.text ++ rest)) :=
        delimited_ws_append w₄ (delimited_char _ _ (by decide))
      simp only [MembersText.text, quotedText, List.append_assoc, List.cons_append,
        List.nil_append]
      rw [parseMembers, parseWs_char w₁ dquote _ (by decide)]
      simp only [if_true]
      rw [scanItems_complete]
      simp only [parseWs_char w₂ colon _ (by decide), if_true]
      rw [parseWs_value, parseValue_complete v _ fuel stop (by omega)]
      simp only [parseWs_char w₄ comma _ (by decide), if_neg (show ¬ comma = rbrace by decide),
        if_true]
      rw [parseMembers_complete ms rest fuel (by omega)]
      rfl

end

/-- An array ends at its bracket, whatever follows. -/
theorem parseValue_array {v : JsonText} {items : List Json} (array : v.value = .arr items)
    (rest : PyStr) {fuel : Nat} (enough : 2 * v.text.length ≤ fuel) :
    parseValue fuel (v.text ++ rest) = some (v, rest) := by
  have long := v.text_ne_nil
  obtain ⟨fuel, rfl⟩ : ∃ n, fuel = n + 1 := ⟨fuel - 1, by omega⟩
  cases v with
  | arrEmpty w =>
      simp only [JsonText.text, List.cons_append, List.append_assoc, List.nil_append]
      rw [parseValue, if_neg (by decide), if_pos rfl, parseWs_char w rbracket rest (by decide)]
      simp
  | arr es =>
      simp only [JsonText.text, List.length_cons] at enough
      obtain ⟨w, c, t, front, notClose⟩ := es.front rest
      simp only [JsonText.text, List.cons_append]
      rw [parseValue, if_neg (by decide), if_pos rfl, front]
      simp only [if_neg notClose]
      rw [parseElems_complete es rest fuel (by omega)]
      rfl
  | atom a =>
      have ok := a.ok
      rw [show a.value = .arr items from array] at ok
      unfold classify at ok
      repeat' split at ok
      all_goals cases ok
  | str items => simp [JsonText.value] at array
  | objEmpty w => simp [JsonText.value] at array
  | obj ms => simp [JsonText.value] at array

/-! ### Documents -/

/-- A document's text is read back to that document. -/
theorem parseDocument_complete (d : Document) : parseDocument d.text = some d := by
  obtain ⟨w₁, v, w₂⟩ := d
  have empty : parseWs w₂.text = (w₂, []) := by
    simpa using parseWs_complete w₂ [] (by simp)
  have stop : Delimited w₂.text := by
    simpa using delimited_ws_append w₂ (s := []) (by simp [Delimited])
  have read := parseValue_complete v w₂.text
    (2 * (w₁.text ++ (v.text ++ w₂.text)).length + 2) stop (by simp; omega)
  unfold parseDocument Document.text
  simp only [parseWs_value, read, empty, if_true]

/-- What is read as a document has the text it was read from. -/
theorem parseDocument_sound {s : PyStr} {d : Document} (read : parseDocument s = some d) :
    d.text = s := by
  unfold parseDocument at read
  split at read
  · cases read
  · next v rest readValue =>
    split at read
    · next atEnd =>
      cases read
      have front := parseWs_sound s
      have back := parseWs_sound rest
      rw [(parse_sound _).1 _ _ _ readValue] at front
      rw [atEnd, List.append_nil] at back
      exact (front.trans (by simp [Document.text, ← back])).symm
    · cases read

theorem loads_document (d : Document) : loads d.text = some d.body.value := by
  simp [loads, parseDocument_complete]

/-- `json.loads` accepts the texts of documents, and gives the value the document stands for. -/
theorem loads_eq_some_iff (s : PyStr) (j : Json) :
    loads s = some j ↔ ∃ d : Document, d.text = s ∧ d.body.value = j := by
  constructor
  · intro read
    obtain ⟨d, doc, value⟩ := Option.map_eq_some_iff.mp read
    exact ⟨d, parseDocument_sound doc, value⟩
  · rintro ⟨d, rfl, rfl⟩
    exact loads_document d

/-- After an array, nothing but white space can follow in a document. -/
theorem space_of_loads_append {s rest : PyStr} {items : List Json} (array : loads s = some (.arr items))
    (more : (loads (s ++ rest)).isSome = true) : ∀ c ∈ rest, isJsonSpace c = true := by
  obtain ⟨⟨w₁, v, w₂⟩, rfl, value⟩ := (loads_eq_some_iff s _).mp array
  obtain ⟨j, whole⟩ := Option.isSome_iff_exists.mp more
  obtain ⟨⟨u₁, u, u₂⟩, text, _⟩ := (loads_eq_some_iff _ _).mp whole
  simp only [Document.text, List.append_assoc] at text
  -- both documents are read off the same text
  have front := parseWs_value u₁ u u₂.text
  rw [text, parseWs_value, Prod.mk.injEq] at front
  have stop : Delimited u₂.text := by
    simpa using delimited_ws_append u₂ (s := []) (by simp [Delimited])
  have here := parseValue_array value (w₂.text ++ rest) (Nat.le_add_right _ (2 * u.text.length))
  rw [front.2, parseValue_complete u u₂.text _ stop (Nat.le_add_left _ _), Option.some.injEq,
    Prod.mk.injEq] at here
  intro c member
  exact u₂.ok c (here.2 ▸ List.mem_append_right _ member)

end

end GhostPour
