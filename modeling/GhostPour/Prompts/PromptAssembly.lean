/-
Module: GhostPour.Prompts.PromptAssembly
Layer: Model
Purpose: How `assemble_prompt` makes the user prompt of a call: the client's own words, then each
  variable of the request, then blanks for the optional names that were not sent, each put in by a
  global replacement over the text so far. The system prompt and the sampling options are left out.
Trusted boundary: the config is the one in force, its overrides applied; a value is its `str`
Main exports: PromptConfig, placeholder, legacyNames, missingVariables, substituteLegacy,
  substituteSent, blankUnsent, assembleUser
-/
import GhostPour.Library.PyText
import GhostPour.Library.Substitution
import GhostPour.Library.Table

namespace GhostPour.Prompts

/-- What the user prompt takes from a prompt config. -/
structure PromptConfig where
  userPromptTemplate : PyStr
  requiredVariables : List PyStr
  optionalVariables : List PyStr
deriving DecidableEq, Repr

/-- `"{{%s}}" % name`. -/
def placeholder (name : PyStr) : PyStr := py "\x7b\x7b" ++ name ++ py "\x7d\x7d"

/-- The three names of the single payload of the client. -/
def legacyNames : List PyStr := [py "job_description", py "resume_text", py "user_input"]

/-- `_absent`: no value, or a blank one. -/
def isAbsent (supplied : Table PyStr (Option PyStr)) (name : PyStr) : Bool :=
  match supplied.get name with
  | some (some value) => strip value = []
  | _ => true

/-- `missing`. -/
def missingVariables (config : PromptConfig) (supplied : Table PyStr (Option PyStr)) : List PyStr :=
  config.requiredVariables.filter (isAbsent supplied)

/-- `name not in supplied or supplied.get(name) is None`. -/
def isUnsent (supplied : Table PyStr (Option PyStr)) (name : PyStr) : Bool :=
  match supplied.get name with
  | some (some _) => false
  | _ => true

/-- The pass of one of the legacy names. -/
def substituteLegacy (userContent text name : PyStr) : PyStr :=
  replaceAll (placeholder name) userContent text

/-- The pass of one variable of the request; one without a value is skipped. -/
def substituteSent (text : PyStr) (r : PyStr × Option PyStr) : PyStr :=
  match r.2 with
  | none => text
  | some value => replaceAll (placeholder r.1) value text

/-- The pass of one optional name: blank unless it was sent. -/
def blankUnsent (supplied : Table PyStr (Option PyStr)) (text name : PyStr) : PyStr :=
  if isUnsent supplied name then replaceAll (placeholder name) [] text else text

/-- The user prompt of `assemble_prompt`; the names of the missing variables where it raises. -/
def assembleUser (config : PromptConfig) (userContent : PyStr)
    (supplied : Table PyStr (Option PyStr)) : Except (List PyStr) PyStr :=
  if isIn (py "\x7b\x7b") config.userPromptTemplate then
    let assembled := legacyNames.foldl (substituteLegacy userContent) config.userPromptTemplate
    let missing := missingVariables config supplied
    if missing ≠ [] then .error missing
    else
      let assembled := supplied.rows.foldl substituteSent assembled
      .ok (config.optionalVariables.foldl (blankUnsent supplied) assembled)
  else .ok userContent

end GhostPour.Prompts
