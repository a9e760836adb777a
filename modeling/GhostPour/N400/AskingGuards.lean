/-
Module: GhostPour.N400.AskingGuards
Layer: Model
Purpose: The guards of `app/services/n400_interviewer_guard.py` on what a response asks next: an
  `asking` that names a settled node or one that is not on the agenda is dropped, a settled question
  that is still spoken is replaced by the next open one, and a checkpoint or the end of the interview
  does not stand beside an open question.
Trusted boundary: human-reviewed spec
Main exports: dropStaleAsking, splitTrailingQuestion, replaceSettledQuestion,
  dropCheckpointWhenAskingSet, clearInterviewOverWhileAgendaOpen
-/
import GhostPour.N400.Guard

namespace GhostPour.N400

open Regex

/-- `DROP_REASON`. -/
def dropReason : PyStr := py "every field of this node was filled by a fact in this response"

/-- `OFF_AGENDA_REASON`. -/
def offAgendaReason : PyStr := py "this node is not on the agenda"

/-- The closers after the last mark of a sentence. -/
def quoteClosers : PyStr := py "\"'”’)»"

/-- Whether a text ends on a question. -/
def endsOnQuestion (text : PyStr) : Bool := endsWith (py "?") (rstripChars quoteClosers (rstrip text))

/-- `_reply_ends_on_question`. -/
def replyEndsOnQuestion (reply : Json) : Bool :=
  match reply with
  | .obj members => members.any fun m => match m.2 with
      | .str text => endsOnQuestion text
      | _ => false
  | .str text => endsOnQuestion text
  | _ => false

section
variable [PyRuntime]

/-! ### A settled question is not asked -/

/-- The node that an `asking` of the agreed shape names. -/
def askedNode (asking : Json) : Option PyStr :=
  match asking with
  | .obj d =>
      let node := Dict.get d (py "node_id")
      if node.truthy then some node.str' else none
  | _ => none

/-- Drop the `asking` of a response, with the reason. -/
def dropAsking (turn : Dict) (info : Dict) : Option (Dict × Json) :=
  some ((turn.set (py "asking") .null).set (py "asking_dropped") (.obj info), .obj info)

/-- `drop_stale_asking`. -/
def dropStaleAsking (agenda : Option PyStr) : Guard Json := fun turn =>
  match askedNode (turn.get (py "asking")) with
  | none => some none
  | some node =>
      let byNode := agendaFieldIds agenda
      match byNode.get node with
      | none =>
          if byNode = [] then some none
          else some (dropAsking turn [(py "node_id", .str node), (py "field_ids", .arr []),
            (py "reason", .str offAgendaReason)])
      | some ids => do
          let facts ← (turn.get (py "facts")).iterateOrEmpty
          let filled ← fieldIdSet facts
          if allFilled ids filled then
            return dropAsking turn [(py "node_id", .str node),
              (py "field_ids", .arr ((sortStrs ids).map .str)), (py "reason", .str dropReason),
              (py "question_still_spoken", .bool (replyEndsOnQuestion (turn.get (py "reply"))))]
          else return none

/-! ### The next question is spoken instead -/

/-- `_SENTENCE_END`. -/
def sentenceEnd : Regex := seqs [oneOf ".!?…", many (oneOf "\"'”’)»"), plus space]

/-- `_ABBREVIATIONS` of the guard. -/
def questionAbbreviations : List PyStr :=
  [py "u.s", py "u.s.a", py "ee", py "mr", py "mrs", py "ms", py "dr", py "sr", py "sra", py "srta",
    py "st", py "jr"]

/-- The word at the end of a text, `re.search(r"(\S+)$", text)`. -/
def endingWord (text : PyStr) : PyStr :=
  match search (.seq (group 1 (plus nonSpace)) stop) text with
  | some m => groupText m 1
  | none => []

/-- Where the last sentence starts, after one more match of `_SENTENCE_END`. -/
def sentenceStart (s : PyStr) (start : Nat) (m : Match) : Nat :=
  if (s.drop m.stop).head?.all PyRuntime.isLower then start
  else if lstripChars (py "¿¡(\"'“") (lower (endingWord (s.take m.start))) ∈ questionAbbreviations then
    start
  else m.stop

/-- `_split_trailing_question`. -/
def splitTrailingQuestion (spoken : PyStr) : Option (PyStr × PyStr) :=
  let s := rstrip spoken
  if !endsWith (py "?") (rstripChars quoteClosers s) then none
  else
    let start := (finditer sentenceEnd s).foldl (sentenceStart s) 0
    if strip (s.drop start) = [] then none else some (s.take start, s.drop start)

/-- The locale whose text is spoken. -/
def spokenLocale (reply : Json) (locale : Option PyStr) : Option PyStr :=
  match reply with
  | .obj members =>
      match locale with
      | some loc =>
          if Dict.has members loc then some loc
          else if members.length = 1 then members.head?.map Prod.fst else none
      | none => if members.length = 1 then members.head?.map Prod.fst else none
  | _ => none

/-- The text that is spoken: `reply[key]`, a reply that is a text, or none; any other value that is not
empty has no `rstrip`. -/
def shownText (reply : Json) (locale : Option PyStr) : Py PyStr :=
  let spoken : Json := match reply, spokenLocale reply locale with
    | .obj members, some key => if key = [] then .null else Dict.get members key
    | .str text, _ => .str text
    | _, _ => .null
  if spoken.truthy then
    match spoken with
    | .str text => some text
    | _ => none
  else some []

/-- The first line of the agenda that is open: not the settled node, no field filled, not moot, with a
question. -/
def nextOpenLine (agenda : Option PyStr) (settled : Json) (filled : List Json) (moot : List PyStr) :
    Option (PyStr × List PyStr × PyStr) :=
  (agendaLines agenda).find? fun (node, ids, question) =>
    !(Json.str node).same settled && !ids.any (fun id => filled.any (Json.sameKey (.str id))) &&
      decide (node ∉ moot) && question != []

/-- The reply with the new text. -/
def speakInstead (reply : Json) (locale : Option PyStr) (text : PyStr) : Json :=
  match reply with
  | .obj members => .obj (Dict.set members ((spokenLocale reply locale).getD []) (.str text))
  | _ => .str text

/-- `replace_settled_question`. -/
def replaceSettledQuestion (agenda locale : Option PyStr) : Guard Json := fun turn =>
  match turn.get (py "asking_dropped") with
  | .obj info =>
      if !(Dict.get info (py "question_still_spoken")).truthy ||
          !(Dict.get info (py "reason")).same (.str dropReason) then some none
      else do
        let facts ← (turn.get (py "facts")).iterateOrEmpty
        let filled ← fieldIdSet facts
        let settled ← (Dict.get info (py "field_ids")).iterateOrEmpty
        let ids ← settled.mapM fun v => if v.hashable then some v else none
        if !ids.all (fun id => filled.any (Json.sameKey id)) then return none
        let moot ← mootNodes turn agenda
        match nextOpenLine agenda (Dict.get info (py "node_id")) filled moot with
        | none => return none
        | some (node, fieldIds, question) =>
            let reply := turn.get (py "reply")
            let spoken ← shownText reply locale
            match splitTrailingQuestion spoken with
            | none => return none
            | some (front, _) =>
                let said := turn.set (py "reply") (speakInstead reply locale (strip (front ++ question)))
                let asked := said.set (py "asking") (.obj [(py "node_id", .str node),
                  (py "field_ids", .arr ((sortStrs fieldIds).map .str))])
                return some (asked.set (py "asking_dropped")
                    (.obj (Dict.set info (py "question_replaced_with") (.str node))),
                  .obj [(py "node_id", .str node), (py "replaced_node", Dict.get info (py "node_id"))])
  | _ => some none

/-! ### Beside an open question -/

/-- `_asking_is_set`. -/
def askingIsSet (asking : Json) : Bool :=
  match asking with
  | .obj d => (Dict.get d (py "node_id")).truthy
  | .str s => strip s != []
  | _ => false

/-- `CONFIRMATION_ASKS`. -/
def confirmationAsks : List PyStr :=
  ["complete and correct", "all correct", "is that correct", "is everything correct", "is that right",
    "is that all right", "did i get that right", "add or change", "anything to change",
    "anything wrong", "completo y correcto", "todo correcto", "es correcto", "está correcto",
    "está bien así", "completo e correto", "tudo certo", "está correto", "está certo"].map py

/-- `asks_for_confirmation`. -/
def asksForConfirmation (text : PyStr) : Bool :=
  let folded := strip (lower text)
  if !endsWith (py "?") folded then false
  else
    let tail := (((split (oneOf ".!?") folded).filter (· != [])).getLast?).getD folded
    confirmationAsks.any (isIn · tail)

/-- `_reply_texts`. -/
def replyTexts (reply : Json) : List PyStr :=
  match reply with
  | .str text => [text]
  | .obj members => members.filterMap fun m => match m.2 with
      | .str text => some text
      | _ => none
  | _ => []

/-- `CHECKPOINT_WITH_ASKING_REASON`. -/
def checkpointWithAskingReason : PyStr :=
  py "section_checkpoint on a response that already asks the next question"

/-- `v is False`. -/
def isFalse (v : Json) : Bool :=
  match v with
  | .bool false => true
  | _ => false

/-- `v is True`. -/
def isTrue (v : Json) : Bool :=
  match v with
  | .bool true => true
  | _ => false

/-- `drop_checkpoint_when_asking_set`. -/
def dropCheckpointWhenAskingSet : Guard Json := fun turn =>
  let checkpoint := turn.get (py "section_checkpoint")
  let asking := turn.get (py "asking")
  if !checkpoint.truthy || !askingIsSet asking then some none
  -- a card of the one optional review stands beside the next question
  else if isFalse (checkpoint.field "awaiting_confirmation") then some none
  else if (replyTexts (turn.get (py "reply"))).any asksForConfirmation then some none
  else
    let info : Json := .obj [(py "part", checkpoint.field "part"),
      (py "asking", if isDict asking then asking.field "node_id" else asking),
      (py "code", .str (py "asking_set")), (py "reason", .str checkpointWithAskingReason)]
    some (some ((turn.set (py "section_checkpoint") .null).set (py "checkpoint_dropped") info, info))

/-- `INTERVIEW_OVER_REASON`. -/
def interviewOverReason : PyStr :=
  py "interview_over was set while the agenda still had open nodes"

/-- `clear_interview_over_while_agenda_open`. -/
def clearInterviewOverWhileAgendaOpen (agenda : Option PyStr) : Guard Json := fun turn =>
  let openNodes := sortStrs (agendaFieldIds agenda).keys
  if !isTrue (turn.get (py "interview_over")) || openNodes.isEmpty then some none
  else
    let info : Json := .obj [(py "open_nodes", .arr (openNodes.map .str)),
      (py "reason", .str interviewOverReason)]
    some (some ((turn.set (py "interview_over") (.bool false)).set (py "interview_over_cleared") info,
      info))

end

end GhostPour.N400
