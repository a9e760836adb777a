/-
Module: GhostPour.N400.MarkGuards
Layer: Model
Purpose: The guards of `app/services/n400_interviewer_guard.py` that mark or repair the envelope and
  take no fact away: facts on a turn its own intent calls no answer, values outside the declared
  options, a battery that was not spoken, and a reply that the client cannot read.
Trusted boundary: human-reviewed spec
Main exports: markFactsMintedOnANonAnswer, normalizeReplyShape, markValuesOutsideDeclaredOptions,
  markBatteryShortfall, dropUnusableReply
-/
import GhostPour.N400.Guard

namespace GhostPour.N400

section
variable [PyRuntime]

/-! ### Facts on a turn that was no answer -/

/-- `NOT_AN_ANSWER_INTENTS`. -/
def notAnAnswerIntents : List PyStr :=
  ["help_explain", "dont_know", "repeat", "question_back", "legal_question", "off_topic", "small_talk",
    "noise"].map py

/-- `NOT_AN_ANSWER_REASON`. -/
def notAnAnswerReason : PyStr :=
  py "the response's own intent says this was not an answer, yet it minted"

/-- `intent_label`. -/
def intentLabel (intent : Json) : Option PyStr :=
  match intent with
  | .str label => some label
  | .obj d =>
      match Dict.get d (py "type") with
      | .str declared => some declared
      | _ => none
  | _ => none

/-- `mark_facts_minted_on_a_non_answer`. -/
def markFactsMintedOnANonAnswer : Guard Json := fun turn =>
  match intentLabel (turn.get (py "intent")), turn.get (py "facts") with
  | some label, .arr (fact :: facts) =>
      if label ∉ notAnAnswerIntents then some none
      else
        let minted := sortStrs (((fact :: facts).filter isDict).map fun f => (f.field "field_id").str')
        let info : Json := .obj [(py "intent", .str label), (py "minted", .arr (minted.map .str)),
          (py "reason", .str notAnAnswerReason)]
        some (some (turn.set (py "minted_on_non_answer") info, info))
  | _, _ => some none

/-! ### The shape of the reply -/

/-- `REPLY_SHAPE_REASON`. -/
def replyShapeReason : PyStr :=
  py "reply arrived as a bare string; wrapped under 'en', which every locale falls back to"

/-- `normalize_reply_shape`. -/
def normalizeReplyShape : Guard Json := fun turn =>
  match turn.get (py "reply") with
  | .str reply =>
      let info : Json := .obj [(py "chars", .int reply.length), (py "reason", .str replyShapeReason)]
      some (some ((turn.set (py "reply") (.obj [(py "en", .str reply)])).set
        (py "reply_shape_normalized") info, info))
  | _ => some none

/-- `CLIENT_READABLE_REPLY_LOCALES`. -/
def clientReadableReplyLocales : List PyStr := [py "en", py "es", py "pt"]

/-- `REPLY_DROPPED_REASON`. -/
def replyDroppedReason : PyStr :=
  py "the reply was present but could not be decoded by the client, and an unusable reply " ++
    py "kills the turn while an absent one only makes it silent"

/-- `usable_reply_locales`. -/
def usableReplyLocales (reply : Json) : List PyStr :=
  match reply with
  | .obj members => clientReadableReplyLocales.filter fun loc => match Dict.get members loc with
      | .str text => strip text != []
      | _ => false
  | _ => []

/-- `type(v).__name__`. -/
def typeName : Json → PyStr
  | .null => py "NoneType"
  | .bool _ => py "bool"
  | .int _ => py "int"
  | .float _ => py "float"
  | .str _ => py "str"
  | .arr _ => py "list"
  | .obj _ => py "dict"

/-- The kind of an unusable reply, and the locales it had. -/
def unusableKind (reply : Json) : PyStr × List PyStr :=
  match reply with
  | .obj [] => (py "empty_map", [])
  | .obj members => (py "no_readable_locale", sortStrs (members.map Prod.fst))
  | reply => (typeName reply, [])

/-- `drop_unusable_reply`. -/
def dropUnusableReply : Guard Json := fun turn =>
  let reply := turn.get (py "reply")
  -- a reply that is null is absent already
  if !turn.has (py "reply") || reply matches .null || usableReplyLocales reply != [] then some none
  else
    let info : Json := .obj [(py "kind", .str (unusableKind reply).1),
      (py "locales_present", .arr ((unusableKind reply).2.map .str)),
      (py "reason", .str replyDroppedReason)]
    some (some ((turn.del (py "reply")).set (py "reply_dropped") info, info))

/-! ### Values outside the declared options -/

/-- `OPTION_SHAPE_REASON`. -/
def optionShapeReason : PyStr :=
  py "value is not one of the options the agenda declared for this node"

/-- `CATALOGUE_SHAPE_REASON`. -/
def catalogueShapeReason : PyStr :=
  py "value is not one of the options the form declares for this field"

/-- `CONFIRMED_EMPTY_ALLOWED`. -/
def confirmedEmptyAllowed : List PyStr := [py "p9.probation_completed"]

/-- Options as they are compared: stripped, in lower case, without the empty ones. -/
def optionSet (options : List PyStr) : List PyStr :=
  ((options.filter fun o => strip o != []).map fun o => lower (strip o)).dedup

/-- `agenda_options`. -/
def agendaOptions (agenda : Option PyStr) : Assoc (List PyStr) :=
  (agendaColumns agenda).foldl (fun out cols =>
    let options := optionSet (splitAt ',' (partition ':' (column cols 4)).2.2)
    if cols.length < 5 ∨ !startsWith (py "options:") (lower (column cols 4)) ∨ options = [] then out
    else out.set (column cols 0) options) []

/-- `catalogue_field_options`. -/
def catalogueFieldOptions (choiceFields : Json) : Assoc (List PyStr) :=
  match choiceFields with
  | .obj members => members.foldl (fun out m =>
      match m.2 with
      | .arr options =>
          let clean := optionSet (options.filterMap fun o => match o with
            | .str s => some s
            | _ => none)
          if clean = [] then out else out.set m.1 clean
      | _ => out) []
  | _ => []

/-- The fields of the agenda whose declared options are a yes or a no, and nothing else. -/
def booleanFields (agenda : Option PyStr) : Assoc (List PyStr) :=
  (agendaOptions agenda).foldl (fun out (node, options) =>
    match (agendaFieldIds agenda).get node with
    | some [fid] =>
        if options.length = 2 ∧ py "yes" ∈ options ∧ py "no" ∈ options then out.set fid options
        else out
    | _ => out) []

/-- One fact of `_mark_outside`. -/
def outsideEntry (fieldOptions : Assoc (List PyStr)) (reason : PyStr) (f : Json) : Py (Option Json) :=
  let fid := f.field "field_id"
  let value := f.field "value"
  match isDict f, fieldOptions.get fid.strOrEmpty with
  | true, some options =>
      let entry := Json.obj [(py "field_id", fid), (py "value", value),
        (py "declared", .arr ((sortStrs options).map .str)), (py "reason", .str reason)]
      match value with
      | .str [] =>
          if lower (strip []) ∈ options then some none
          else (keyIn fid (confirmedEmptyAllowed.map .str)).map fun allowed =>
            if allowed then none else some entry
      | .str s => if lower (strip s) ∈ options then some none else some (some entry)
      | _ => some (some entry)
  | _, _ => some none

/-- `_mark_outside`. -/
def markOutside (fieldOptions : Assoc (List PyStr)) (reason : PyStr) : Guard (List Json) := fun turn =>
  match turn.get (py "facts") with
  | .arr facts => do
      let entries ← facts.mapM (outsideEntry fieldOptions reason)
      let off := entries.filterMap id
      if off.isEmpty then return none
      return some (turn.set (py "values_outside_declared_options") (.arr off), off)
  | _ => return none

/-- `mark_values_outside_declared_options`: the client's catalogue, or the agenda without one. -/
def markValuesOutsideDeclaredOptions (agenda : Option PyStr) (choiceFields : Json) :
    Guard (List Json) := fun turn =>
  if catalogueFieldOptions choiceFields ≠ [] then
    markOutside (catalogueFieldOptions choiceFields) catalogueShapeReason turn
  else if booleanFields agenda = [] then some none
  else markOutside (booleanFields agenda) optionShapeReason turn

/-! ### Batteries -/

/-- `BATTERY_MIN_FIELDS`. -/
def batteryMinFields : Nat := 3

/-- `n` rounded to a multiple of `2 ^ bits`, ties to even. -/
def roundTiesEven (n bits : Nat) : Nat :=
  let unit := 2 ^ bits
  let low := n / unit * unit
  if n % unit * 2 < unit ∨ (n % unit * 2 = unit ∧ n / unit % 2 = 0) then low else low + unit

/-- `spoken >= BATTERY_SPOKEN_RATIO * chars`: 0.55 is the double `4953959590107546 / 2 ^ 53`, and the
product is rounded to 53 bits. -/
def spokenEnough (spoken chars : Nat) : Bool :=
  let product := 4953959590107546 * chars
  decide (roundTiesEven product (Nat.log2 product + 1 - 53) ≤ spoken * 2 ^ 53)

/-- The length of the reply as it was spoken, the longest of its locales. -/
def spokenLength (reply : Json) : Nat :=
  match reply with
  | .str text => text.length
  | .obj members => (members.filterMap fun m => match m.2 with
      | .str text => some text.length
      | _ => none).foldl max 0
  | _ => 0

/-- What is said of a node whose battery was not spoken. -/
def batteryInfo (agenda : Option PyStr) (facts minted : List Json) (spoken : Nat)
    (entry : PyStr × List PyStr) : Option Json :=
  let hit := entry.2.filter fun fid => minted.any (Json.sameKey (.str fid))
  let question := ((agendaQuestions agenda).get entry.1).getD []
  let values := ((facts.filter fun f => isDict f &&
    hit.any fun fid => (Json.str fid).same (f.field "field_id")).map
      fun f => (f.field "value").str').dedup
  if entry.2.length < batteryMinFields ∨ hit.length < batteryMinFields ∨ values.length ≠ 1 ∨
      question = [] ∨ spokenEnough spoken question.length then none
  else some (.obj [(py "node_id", .str entry.1), (py "minted", .arr ((sortStrs hit).map .str)),
    (py "question_chars", .int question.length), (py "spoken_chars", .int spoken),
    (py "reason", .str
      (py "the spoken question was far shorter than the line these fields came from"))])

/-- `mark_battery_shortfall`. -/
def markBatteryShortfall (agenda : Option PyStr) : Guard Json := fun turn =>
  match turn.get (py "facts") with
  | .arr facts => do
      let minted ← fieldIdSet facts
      let info := (agendaFieldIds agenda).findSome?
        (batteryInfo agenda facts minted (spokenLength (turn.get (py "reply"))))
      return info.map fun info => (turn.set (py "battery_unspoken") info, info)
  | _ => return none

end

end GhostPour.N400
