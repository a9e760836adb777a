/-
Module: GhostPour.Providers.Proofs.SystemLayout
Layer: Proofs
Purpose: What the layout of a request keeps: the text of the prompt, with the recall where it was, and the rules
  for cache breakpoints. A recall that moves behind the references always carries its label, also where
  the prompt has none.
Trusted boundary: none
Main exports: find?_split, restored, LosesNothing, KeepsPrompt, layout_keeps_prompt, label_and_steering_added
-/
import GhostPour.Providers.Anthropic

namespace GhostPour

/-! ### Finding a text -/

/-- Where a text is found, the whole is what comes before, the text and what comes after. -/
theorem find?_split {needle s : PyStr} {idx : Nat} (found : find? needle s = some idx) :
    s = s.take idx ++ (needle ++ s.drop (idx + needle.length)) := by
  induction s generalizing idx with
  | nil =>
      rw [find?] at found
      split at found
      · next empty =>
        cases found
        rw [empty]
        rfl
      · cases found
  | cons c s ih =>
      rw [find?] at found
      split at found
      · next here =>
        cases found
        obtain ⟨rest, whole⟩ := List.isPrefixOf_iff_prefix.mp here
        rw [List.take_zero, List.nil_append, Nat.zero_add, ← whole, List.drop_left]
      · obtain ⟨i, found', rfl⟩ := Option.map_eq_some_iff.mp found
        rw [show i + 1 + needle.length = i + needle.length + 1 by omega, List.take_succ_cons,
          List.drop_succ_cons, List.cons_append, ← ih found']

namespace Providers

/-! ### The text -/

/-- The text of some system blocks. -/
def joined (blocks : List (Marked PyStr)) : PyStr := blocks.flatMap Marked.value

/-- A text with a part put at a place. -/
def insertAt (place : Nat) (part text : PyStr) : PyStr := text.take place ++ (part ++ text.drop place)

theorem insertAt_nil (place : Nat) (text : PyStr) : insertAt place [] text = text := by
  rw [insertAt, List.nil_append, List.take_append_drop]

theorem insertAt_length (head part tail : PyStr) :
    insertAt head.length part (head ++ tail) = head ++ (part ++ tail) := by
  rw [insertAt, List.take_left, List.drop_left]

/-- Where the recall was cut out of the prompt, with the label in front of it. -/
def recallPlace (request : PromptRequest) : Nat :=
  (withoutLabel (request.systemPrompt.take (request.recallIndex.getD 0))).length

/-- The system blocks' text with a part put back where the recall was. -/
def restored (request : PromptRequest) (system : List (Marked PyStr)) (part : Option PyStr) : PyStr :=
  insertAt (recallPlace request) (part.getD []) (joined system)

/-- The recall as the prompt has it: with the label if that is in front of it. -/
def promptRecall (request : PromptRequest) : PyStr :=
  (if endsWith recallLabel (request.systemPrompt.take (request.recallIndex.getD 0)) then recallLabel
   else []) ++ request.recallBlock

theorem withoutLabel_append (head : PyStr) :
    withoutLabel head ++ (if endsWith recallLabel head then recallLabel else []) = head := by
  unfold withoutLabel
  split
  · next labelled =>
    obtain ⟨rest, rfl⟩ := List.isSuffixOf_iff_suffix.mp labelled
    rw [List.length_append, Nat.add_sub_cancel, List.take_left]
  · exact List.append_nil head

/-- The prompt around its recall. -/
theorem PromptRequest.prompt_split {request : PromptRequest} {idx : Nat}
    (found : request.recallIndex = some idx) :
    request.systemPrompt = request.systemPrompt.take idx ++
      (request.recallBlock ++ request.systemPrompt.drop (idx + request.recallBlock.length)) := by
  unfold recallIndex at found
  split at found
  · cases found
  · exact find?_split found

/-- `_build_system_blocks` cuts the prompt and adds nothing. -/
theorem joined_buildSystemBlocks (request : PromptRequest) :
    joined (buildSystemBlocks request) = request.systemPrompt := by
  unfold buildSystemBlocks
  split
  · exact List.append_nil request.systemPrompt
  · next idx found =>
    have whole := PromptRequest.prompt_split found
    simp only
    generalize request.systemPrompt.take idx = before at whole ⊢
    generalize request.systemPrompt.drop (idx + request.recallBlock.length) = suffix at whole ⊢
    rw [whole]
    by_cases start : before = [] <;> by_cases ends : suffix = [] <;> simp [joined, start, ends]

/-- The text of the prompt is kept: the recall goes back where it was, with the label the prompt had. -/
theorem restored_layout (request : PromptRequest) :
    restored request (layoutForReferences request).1
      ((layoutForReferences request).2.map fun _ => promptRecall request) = request.systemPrompt := by
  unfold layoutForReferences
  split
  · rw [restored, Option.map_none, Option.getD_none, insertAt_nil, joined_buildSystemBlocks]
  · split
    · rw [restored, Option.map_none, Option.getD_none, insertAt_nil, joined_buildSystemBlocks]
    · next idx found =>
      have whole := PromptRequest.prompt_split found
      have head := withoutLabel_append (request.systemPrompt.take idx)
      simp only [restored, recallPlace, promptRecall, found, Option.getD_some, Option.map_some, joined,
        List.flatMap_cons, List.flatMap_nil, List.append_nil]
      rw [insertAt_length, List.append_assoc, ← List.append_assoc, head]
      exact whole.symm

/-! ### The breakpoints -/

/-- The breakpoints on some blocks, in their order. -/
def breakpoints {α : Type} (blocks : List (Marked α)) : List CacheControl :=
  blocks.filterMap Marked.cacheControl

/-- The breakpoints of a request, in the order the cache reads it. -/
def Body.breakpoints (body : Body) : List CacheControl :=
  Providers.breakpoints body.tools ++ (Providers.breakpoints body.system ++
    Providers.breakpoints body.content)

/-- No five minutes before an hour. -/
def Ordered (controls : List CacheControl) : Prop :=
  controls.Pairwise fun earlier later => earlier = .fiveMinutes → later ≠ .oneHour

@[simp] theorem breakpoints_append {α : Type} (some_ others : List (Marked α)) :
    breakpoints (some_ ++ others) = breakpoints some_ ++ breakpoints others :=
  List.filterMap_append

/-- Blocks that are not marked. -/
theorem breakpoints_map_none {α β : Type} (make : β → α) (items : List β) :
    breakpoints (items.map fun item => ⟨make item, none⟩) = [] := by
  induction items with
  | nil => rfl
  | cons item items ih => exact ih

/-- At most one breakpoint of any life, and after it only five minutes. -/
theorem ordered_of_five {first rest : List CacheControl} (one : first.length ≤ 1)
    (five : ∀ control ∈ rest, control = .fiveMinutes) : Ordered (first ++ rest) := by
  have short : ∀ control ∈ rest, control ≠ .oneHour := by
    intro control member hour
    rw [five control member] at hour
    cases hour
  unfold Ordered
  rw [List.pairwise_append]
  refine ⟨?_, ?_, ?_⟩
  · rcases first with _ | ⟨control, _ | ⟨next, first⟩⟩
    · exact .nil
    · exact List.pairwise_singleton _ _
    · simp at one
  · exact List.pairwise_of_forall_mem_list fun _ _ later member _ => short later member
  · exact fun _ _ later member _ => short later member

/-- The last of some blocks is marked. -/
theorem breakpoints_markLast {α β : Type} (make : β → α) (items : List β) :
    breakpoints (markLast (items.map fun item => ⟨make item, none⟩)) =
      if items.isEmpty then [] else [.fiveMinutes] := by
  induction items with
  | nil => rfl
  | cons item items ih =>
      cases items with
      | nil => rfl
      | cons next items => exact ih

/-- The system blocks: a breakpoint of the lane, and at most one after the recall. -/
theorem breakpoints_system (request : PromptRequest) :
    ∃ first rest, breakpoints (layoutForReferences request).1 = first ++ rest ∧ first.length ≤ 1 ∧
      rest.length ≤ 1 ∧ ∀ control ∈ rest, control = .fiveMinutes := by
  have single : ∀ text : PyStr, ∃ first rest,
      breakpoints [⟨text, some (systemCacheControl request)⟩] = first ++ rest ∧ first.length ≤ 1 ∧
        rest.length ≤ 1 ∧ ∀ control ∈ rest, control = .fiveMinutes := by
    intro text
    exact ⟨[_], [], rfl, le_refl 1, Nat.zero_le 1, by simp⟩
  have blocks : ∃ first rest, breakpoints (buildSystemBlocks request) = first ++ rest ∧
      first.length ≤ 1 ∧ rest.length ≤ 1 ∧ ∀ control ∈ rest, control = .fiveMinutes := by
    unfold buildSystemBlocks
    split
    · exact single _
    · refine ⟨_, _, breakpoints_append _ _, ?_, ?_, ?_⟩
      · split <;> simp [breakpoints]
      · split <;> simp [breakpoints]
      · split <;> simp [breakpoints]
  unfold layoutForReferences
  split
  · exact blocks
  · split
    · exact blocks
    · exact single _

/-- The parts of the message: the last document, the reference text, and for a generation the question in
place of the reference text. -/
theorem breakpoints_content (request : PromptRequest) (stamp : PyStr) :
    breakpoints (buildBody request stamp).content =
      (if request.documents.isEmpty then [] else [.fiveMinutes]) ++
        (if request.generation then [.fiveMinutes]
         else if request.referenceText = [] then [] else [.fiveMinutes]) := by
  obtain ⟨init, parts, marked⟩ : ∃ init, contentParts request (layoutForReferences request).2 =
      init ++ [⟨.text request.userContent, none⟩] ∧ breakpoints init =
        (if request.documents.isEmpty then [] else [.fiveMinutes]) ++
          (if request.referenceText = [] ∨ request.generation then [] else [.fiveMinutes]) := by
    refine ⟨_, rfl, ?_⟩
    rw [breakpoints_append, breakpoints_append, breakpoints_append, breakpoints_map_none,
      breakpoints_map_none, List.append_nil, List.append_nil, documentParts, breakpoints_markLast]
    congr 1
    by_cases text : request.referenceText = []
    · rw [if_neg (not_not.mpr text), if_pos (.inl text)]
      rfl
    · rw [if_pos text]
      cases generation : request.generation <;> simp [breakpoints, text]
  unfold buildBody
  cases generation : request.generation with
  | true =>
      rw [if_pos rfl, parts, List.reverse_append, List.reverse_singleton, List.singleton_append,
        markFirstText, List.reverse_cons, List.reverse_reverse, breakpoints_append, marked]
      simp [generation, breakpoints]
  | false =>
      simp only [Bool.false_eq_true, if_false]
      rw [parts, breakpoints_append, marked, generation]
      simp [breakpoints]

/-- So there are at most two of them, of five minutes. -/
theorem breakpoints_content_few (request : PromptRequest) (stamp : PyStr) :
    (breakpoints (buildBody request stamp).content).length ≤ 2 ∧
      ∀ control ∈ breakpoints (buildBody request stamp).content, control = .fiveMinutes := by
  have both : ∀ {documents question : List CacheControl},
      documents = [] ∨ documents = [.fiveMinutes] → question = [] ∨ question = [.fiveMinutes] →
      (documents ++ question).length ≤ 2 ∧
        ∀ control ∈ documents ++ question, control = .fiveMinutes := by
    rintro _ _ (rfl | rfl) (rfl | rfl) <;> simp
  rw [breakpoints_content]
  apply both
  · split
    · exact .inl rfl
    · exact .inr rfl
  · split
    · exact .inr rfl
    · split
      · exact .inl rfl
      · exact .inr rfl

/-! ### A request -/

/-- What the layout would lose nothing by: the part goes back where it was and the prompt is there again. -/
structure LosesNothing (request : PromptRequest) (stamp : PyStr) : Prop where
  text : restored request (buildBody request stamp).system (layoutForReferences request).2 =
    request.systemPrompt
  limit : (buildBody request stamp).breakpoints.length ≤ 4
  ordered : Ordered (buildBody request stamp).breakpoints

/-- What the layout keeps. -/
structure KeepsPrompt (request : PromptRequest) (stamp : PyStr) : Prop where
  /-- The system of the body is that of the layout; a generation request has its steering after it. -/
  system : (buildBody request stamp).system = (layoutForReferences request).1 ++
    if request.generation then [⟨generationSteering stamp, none⟩] else []
  text : restored request (layoutForReferences request).1
    ((layoutForReferences request).2.map fun _ => promptRecall request) = request.systemPrompt
  /-- The part has the recall with its label, whether the prompt had that or not, and is sent. -/
  part : ∀ part ∈ (layoutForReferences request).2, part = recallLabel ++ request.recallBlock ∧
    ⟨.text part, none⟩ ∈ (buildBody request stamp).content
  limit : (buildBody request stamp).breakpoints.length ≤ 4
  ordered : Ordered (buildBody request stamp).breakpoints

theorem buildBody_system (request : PromptRequest) (stamp : PyStr) :
    (buildBody request stamp).system = (layoutForReferences request).1 ++
      if request.generation then [⟨generationSteering stamp, none⟩] else [] := by
  unfold buildBody
  cases request.generation with
  | true => rfl
  | false => exact (List.append_nil _).symm

/-- The tools of the adapter have no breakpoints. -/
theorem breakpoints_tools (request : PromptRequest) (stamp : PyStr) :
    breakpoints (buildBody request stamp).tools = breakpoints request.tools := by
  have supplied : breakpoints (request.tools.map fun tool =>
      (⟨.supplied tool.value, tool.cacheControl⟩ : Marked Tool)) = breakpoints request.tools := by
    rw [breakpoints, List.filterMap_map]
    rfl
  have search : breakpoints (if request.searchEnabled then
      [(⟨.webSearch, none⟩ : Marked Tool)] else []) = [] := by
    split <;> rfl
  have code : breakpoints [(⟨.codeExecution, none⟩ : Marked Tool)] = [] := rfl
  unfold buildBody
  cases request.generation with
  | true =>
      simp only [if_true, breakpoints_append, search, supplied, code, List.nil_append, List.append_nil]
  | false =>
      simp only [Bool.false_eq_true, if_false, breakpoints_append, search, supplied, List.nil_append]

/-- The recall part is no reference and not the question: it is sent without a breakpoint. -/
theorem recallPart_sent {request : PromptRequest} (stamp : PyStr) {part : PyStr}
    (isPart : part ∈ (layoutForReferences request).2) :
    ⟨.text part, none⟩ ∈ (buildBody request stamp).content := by
  obtain ⟨init, parts, member⟩ : ∃ init, contentParts request (layoutForReferences request).2 =
      init ++ [⟨.text request.userContent, none⟩] ∧ ⟨.text part, none⟩ ∈ init := by
    refine ⟨_, rfl, ?_⟩
    have moved : part ∈ (layoutForReferences request).2.toList := Option.mem_toList.mpr isPart
    simp only [List.mem_append, List.mem_map]
    exact .inl (.inr ⟨part, moved, rfl⟩)
  unfold buildBody
  cases request.generation with
  | true =>
      rw [if_pos rfl, parts, List.reverse_append, List.reverse_singleton, List.singleton_append,
        markFirstText, List.reverse_cons, List.reverse_reverse]
      exact List.mem_append_left _ member
  | false =>
      simp only [Bool.false_eq_true, if_false, parts]
      exact List.mem_append_left _ member

theorem recallPart_eq {request : PromptRequest} {part : PyStr}
    (isPart : part ∈ (layoutForReferences request).2) : part = recallLabel ++ request.recallBlock := by
  unfold layoutForReferences at isPart
  split at isPart
  · cases isPart
  · split at isPart
    · cases isPart
    · cases isPart
      rfl

/-- For every request whose given tools set no breakpoint: the system blocks, a generation's steering aside, are
the prompt with the recall put back as the prompt has it, and the breakpoints keep to the rules. -/
theorem layout_keeps_prompt {request : PromptRequest} (plain : breakpoints request.tools = [])
    (stamp : PyStr) : KeepsPrompt request stamp := by
  obtain ⟨first, rest, system, one, one', five⟩ := breakpoints_system request
  have systemMarks : breakpoints (buildBody request stamp).system = first ++ rest := by
    rw [buildBody_system, breakpoints_append, system]
    split <;> simp [breakpoints]
  have marks : (buildBody request stamp).breakpoints =
      first ++ (rest ++ breakpoints (buildBody request stamp).content) := by
    rw [Body.breakpoints, breakpoints_tools, plain, List.nil_append, systemMarks, List.append_assoc]
  obtain ⟨few, contentFive⟩ := breakpoints_content_few request stamp
  refine ⟨buildBody_system request stamp, restored_layout request, ?_, ?_, ?_⟩
  · intro part isPart
    exact ⟨recallPart_eq isPart, recallPart_sent stamp isPart⟩
  · rw [marks, List.length_append, List.length_append]
    omega
  · rw [marks]
    apply ordered_of_five one
    intro control member
    rcases List.mem_append.mp member with inSystem | inContent
    · exact five control inSystem
    · exact contentFive control inContent

/-! ### Three requests -/

/-- A request of a chat. -/
def chatRequest : PromptRequest where
  provider := py "anthropic"
  model := py "claude-sonnet-5"
  generation := false
  systemPrompt := py "Rules. Met Sandra on Tuesday. Be brief."
  userContent := py "How?"
  images := []
  documents := []
  referenceText := []
  tools := []
  metadata := [(py "cq_recall_block", .str (py "Met Sandra on Tuesday."))]
  callType := none
  searchEnabled := false

/-- The tool of the contract lane. -/
def emitArtifact : Marked Dict := ⟨[(py "name", .str (py "emit_artifact"))], none⟩

theorem layout_keeps_prompt_contract :
    KeepsPrompt { chatRequest with tools := [emitArtifact] } (py "101426") :=
  layout_keeps_prompt rfl (py "101426")

/-- A generation request has more than its prompt in the system. -/
theorem not_losesNothing_of_generation {request : PromptRequest} (generation : request.generation = true)
    (alone : (layoutForReferences request).2 = none) (stamp : PyStr) :
    ¬LosesNothing request stamp := by
  intro keeps
  have kept := restored_layout request
  have text := keeps.text
  have steering : generationSteering stamp ≠ [] := by
    unfold generationSteering
    simp only [List.append_assoc]
    exact List.append_ne_nil_of_left_ne_nil (by decide) _
  rw [alone, restored, Option.map_none, Option.getD_none, insertAt_nil] at kept
  rw [alone, restored, Option.getD_none, insertAt_nil, buildBody_system, if_pos generation, joined,
    List.flatMap_append, ← joined, kept] at text
  exact steering (by simpa using text)

/-- With a reference the recall comes back with a label that the prompt did not have; a generation request has
more than the prompt in its system; and given tools may break the rules by breakpoints of their own. -/
theorem label_and_steering_added :
    let deck : DocumentAttachment := ⟨py "deck.pdf", py "application/pdf", py "QQ=="⟩
    let marked : Marked Dict := ⟨[], some .fiveMinutes⟩
    let interview := { chatRequest with
      metadata := [(py "call_type", .str (py "n400_interviewer_turn"))], tools := [marked] }
    ¬LosesNothing { chatRequest with documents := [deck] } [] ∧
      ¬LosesNothing { chatRequest with generation := true } [] ∧
      ¬LosesNothing { chatRequest with tools := List.replicate 5 marked } [] ∧
      ¬LosesNothing interview [] := by
  intro deck marked interview
  refine ⟨?_, ?_, ?_, ?_⟩
  · intro keeps
    have lengths : (restored { chatRequest with documents := [deck] }
        (buildBody { chatRequest with documents := [deck] } []).system
        (layoutForReferences { chatRequest with documents := [deck] }).2).length ≠
        chatRequest.systemPrompt.length := by
      decide +kernel
    exact lengths (congrArg List.length keeps.text)
  · exact not_losesNothing_of_generation rfl rfl []
  · intro keeps
    exact absurd keeps.limit (by decide +kernel)
  · intro keeps
    have early := keeps.ordered
    have marks : (buildBody interview []).breakpoints = [.fiveMinutes, .oneHour] := by decide +kernel
    rw [marks, Ordered, List.pairwise_pair] at early
    exact early rfl rfl

end Providers
end GhostPour
