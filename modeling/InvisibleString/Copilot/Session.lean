import InvisibleString.Copilot.Agreement

/- # `Copilot.Session` — a turn of proposals over one draft

The server holds the draft of the turn, the editor its own.  Each proposal is prepared (the
ids of new steps are minted), checked against the server's draft by carrying it out on a copy,
and shown; what the user takes is applied by the server to its draft and dispatched by the
editor to its reducer.  The schemas of the tool calls and the publish problems of a pipeline
are parameters: they decide which proposals pass, not what one does.

**Proved here.**

    the two trees are equal after every run of proposals, and no id stands twice in them;
      a move keeps the steps; what is turned down or does not resolve changes nothing
                                                              (`drafts_in_step`)
-/

namespace InvisibleString.Copilot

open Json Pipeline

/-! ## Ids -/

/-- The draws of random ids: none was seen before. -/
structure IdSource where
  newStepId : List JsString → JsString
  fresh : ∀ seen, newStepId seen ∉ seen

def setBaseId (base : PipelineStepBase) (id : JsString) : PipelineStepBase := { base with id := id }

def setLeafId : LeafStep → JsString → LeafStep
  | .tool step, id => .tool { step with id := id }
  | .infer step, id => .infer { step with id := id }
  | .agent step, id => .agent { step with id := id }

def setId : PipelineStep → JsString → PipelineStep
  | .leaf step, id => .leaf (setLeafId step id)
  | .forEach head steps, id => .forEach { head with id := id } steps
  | .branch base branches otherwise, id => .branch (setBaseId base id) branches otherwise
  | .filter step, id => .filter { step with id := id }
  | .state step, id => .state { step with id := id }

section

variable (ids : IdSource)

/-- The id a node keeps or gets. -/
def mintId (seen : List JsString) (id : JsString) : JsString :=
  if isStepId id && id ∉ seen then id else ids.newStepId seen

mutual

/-- `mintStepIds`, a node before those below it, `seen` the ids so far.  A node without an id
has the empty one here. -/
def mintStep (seen : List JsString) : PipelineStep → PipelineStep × List JsString
  | .leaf step =>
    let id := mintId ids seen step.base.id
    (.leaf (setLeafId step id), id :: seen)
  | .forEach head steps =>
    let id := mintId ids seen head.id
    let (steps', seen') := mintSteps (id :: seen) steps
    (.forEach { head with id := id } steps', seen')
  | .branch base branches otherwise =>
    let id := mintId ids seen base.id
    let (branches', seen') := mintBranches (id :: seen) branches
    let (otherwise', seen'') := mintElse seen' otherwise
    (.branch (setBaseId base id) branches' otherwise', seen'')
  | .filter step =>
    let id := mintId ids seen step.id
    (.filter { step with id := id }, id :: seen)
  | .state step =>
    let id := mintId ids seen step.id
    (.state { step with id := id }, id :: seen)

def mintSteps (seen : List JsString) : List PipelineStep → List PipelineStep × List JsString
  | [] => ([], seen)
  | step :: steps =>
    let (step', seen') := mintStep seen step
    let (steps', seen'') := mintSteps seen' steps
    (step' :: steps', seen'')

def mintBranches (seen : List JsString) : List (PipelineCondition × List PipelineStep) →
    List (PipelineCondition × List PipelineStep) × List JsString
  | [] => ([], seen)
  | (condition, steps) :: branches =>
    let (steps', seen') := mintSteps seen steps
    let (branches', seen'') := mintBranches seen' branches
    ((condition, steps') :: branches', seen'')

def mintElse (seen : List JsString) :
    Option (List PipelineStep) → Option (List PipelineStep) × List JsString
  | none => (none, seen)
  | some steps =>
    let (steps', seen') := mintSteps seen steps
    (some steps', seen')

end

mutual

/-- `stripStepIds`: every node without its id. -/
def stripStep : PipelineStep → PipelineStep
  | .leaf step => .leaf (setLeafId step [])
  | .forEach head steps => .forEach { head with id := [] } (stripSteps steps)
  | .branch base branches otherwise =>
    .branch (setBaseId base []) (stripBranches branches) (stripElse otherwise)
  | .filter step => .filter { step with id := [] }
  | .state step => .state { step with id := [] }

def stripSteps : List PipelineStep → List PipelineStep
  | [] => []
  | step :: steps => stripStep step :: stripSteps steps

def stripBranches : List (PipelineCondition × List PipelineStep) →
    List (PipelineCondition × List PipelineStep)
  | [] => []
  | (condition, steps) :: branches => (condition, stripSteps steps) :: stripBranches branches

def stripElse : Option (List PipelineStep) → Option (List PipelineStep)
  | none => none
  | some steps => some (stripSteps steps)

end

end

/-! ## Mutations -/

inductive TriggerType where
  | manual
  | form
  | webhook
  | slack
  | schedule
  deriving DecidableEq

/-- The parameters of a tool call; trigger configs are a parameter. -/
inductive Mutation (T : Type) where
  | setTrigger (trigger : T)
  | addStep (step : PipelineStep) (position : StepPosition)
  | updateStep (stepId : JsString) (step : PipelineStep)
  | removeStep (stepId : JsString)
  | moveStep (stepId : JsString) (position : StepPosition)

/-- The server's draft; a trigger that does not parse is missing. -/
structure WorkflowDraftState (T : Type) where
  trigger : Option T
  steps : List PipelineStep

inductive Severity where
  | error
  | warning
  deriving DecidableEq

structure PipelineProblem where
  stepId : JsString
  severity : Severity
  message : JsString

def severityName : Severity → JsString
  | .error => ascii "error"
  | .warning => ascii "warning"

def problemKey (p : PipelineProblem) : JsString :=
  severityName p.severity ++ ascii "|" ++ p.stepId ++ ascii "|" ++ p.message

/-- What decides over proposals besides the tree. -/
structure Checks (T : Type) where
  /-- what the schemas of the tool calls find wrong -/
  issues : Mutation T → Option JsString
  collectPipelineProblems : List PipelineStep → Option T → List PipelineProblem
  triggerType : T → TriggerType

variable {T : Type}

/-- The ids of an added step are all minted; a replacement keeps what ids it may, and takes
the id of the step it replaces. -/
def prepareWorkflowInput (ids : IdSource) (state : WorkflowDraftState T) : Mutation T → Mutation T
  | .addStep step position =>
    .addStep (mintStep ids (allStepIds state.steps) (stripStep step)).1 position
  | .updateStep stepId step =>
    let seen :=
      match findStep state.steps stepId with
      | none => allStepIds state.steps
      | some target =>
        (allStepIds state.steps).filter fun id => id ∉ subtreeStepIds target || id = stepId
    .updateStep stepId (setId (mintStep ids seen step).1 stepId)
  | mutation => mutation

def unknownStepMessage (stepId : JsString) (steps : List PipelineStep) : JsString :=
  ascii "stepId \"" ++ stepId ++ ascii "\" does not exist in the draft — known steps: " ++
    describeKnownSteps steps ++
    ascii ". Never invent step ids; use the ids from the current draft."

/-- The draft a mutation would give, and the ids whose new problems count. -/
def simulate (state : WorkflowDraftState T) :
    Mutation T → Except JsString (WorkflowDraftState T × List JsString)
  | .setTrigger trigger => .ok ({ state with trigger := some trigger }, [])
  | .addStep step position =>
    match insertStep state.steps step position with
    | (_, some error) => .error error
    | (steps, none) => .ok ({ state with steps := steps }, subtreeStepIds step)
  | .updateStep stepId step =>
    if (findStep state.steps stepId).isNone then .error (unknownStepMessage stepId state.steps)
    else .ok ({ state with steps := replaceStepById state.steps stepId step }, subtreeStepIds step)
  | .removeStep stepId =>
    match findStep state.steps stepId, removeStepById state.steps stepId with
    | none, _ => .error (unknownStepMessage stepId state.steps)
    | _, none => .ok (state, [])
    | some _, some (steps, _) => .ok ({ state with steps := steps }, [])
  | .moveStep stepId position =>
    match findStep state.steps stepId with
    | none => .error (unknownStepMessage stepId state.steps)
    | some moving =>
      let subtree := subtreeStepIds moving
      let anchored := position.after.filter (· ∈ subtree)
      let parented := (position.parent.map PositionParent.stepId).filter (· ∈ subtree)
      match anchored, parented, removeStepById state.steps stepId with
      | some after, _, _ =>
        .error (ascii "cannot move step \"" ++ stepId ++
          ascii "\" relative to itself or into its own subtree (\"" ++ after ++
          ascii "\" is inside it)")
      | none, some parentId, _ =>
        .error (ascii "cannot move step \"" ++ stepId ++ ascii "\" into its own subtree (\"" ++
          parentId ++ ascii "\" is inside it)")
      | none, none, none => .error (unknownStepMessage stepId state.steps)
      | none, none, some (steps, removed) =>
        match insertStep steps removed position with
        | (_, some error) => .error error
        | (steps', none) => .ok ({ state with steps := steps' }, subtree)

/-- The name of the tool of a call. -/
def toolName : Mutation T → JsString
  | .setTrigger _ => ascii "setTrigger"
  | .addStep _ _ => ascii "addStep"
  | .updateStep _ _ => ascii "updateStep"
  | .removeStep _ => ascii "removeStep"
  | .moveStep _ _ => ascii "moveStep"

/-- The warnings of a mutation that passes. -/
def workflowMutationValidation (checks : Checks T) (params : Mutation T)
    (state : WorkflowDraftState T) : Except JsString (List JsString) :=
  match simulate state params with
  | .error error => .error error
  | .ok (simulated, affected) =>
    let before := (checks.collectPipelineProblems state.steps state.trigger).map problemKey
    let fresh := (checks.collectPipelineProblems simulated.steps simulated.trigger).filter fun p =>
      problemKey p ∉ before
    let rejects := fresh.filter fun p => p.severity = .error && p.stepId ∈ affected
    if rejects ≠ [] then
      .error (toolName params ++ ascii " would produce steps that fail to publish: " ++
        join (ascii "; ") (rejects.map PipelineProblem.message))
    else .ok (fresh.map PipelineProblem.message)

/-- The parameters that go to the client, and the warnings. -/
def validateMutation (checks : Checks T) (ids : IdSource) (input : Mutation T)
    (state : WorkflowDraftState T) : Except JsString (Mutation T × List JsString) :=
  let params := prepareWorkflowInput ids state input
  match checks.issues params with
  | some issues => .error (ascii "invalid " ++ toolName params ++ ascii " params — " ++ issues)
  | none =>
    match workflowMutationValidation checks params state with
    | .error error => .error error
    | .ok warnings => .ok (params, warnings)

/-- The server's bookkeeping for what was accepted. -/
def applyAcceptedMutation (state : WorkflowDraftState T) : Mutation T → WorkflowDraftState T
  | .setTrigger trigger => { state with trigger := some trigger }
  | .addStep step position => { state with steps := (insertStep state.steps step position).1 }
  | .updateStep stepId step => { state with steps := replaceStepById state.steps stepId step }
  | .removeStep stepId =>
    match removeStepById state.steps stepId with
    | none => state
    | some (steps, _) => { state with steps := steps }
  | .moveStep stepId position =>
    match removeStepById state.steps stepId with
    | none => state
    | some (steps, removed) =>
      match insertStep steps removed position with
      | (steps', none) => { state with steps := steps' }
      | (steps', some _) => { state with steps := steps' ++ [removed] }

/-! ## The editor -/

/-- The editor's state: the config's trigger and steps, and a draft for each trigger type. -/
structure BuilderState (T : Type) where
  trigger : T
  steps : List PipelineStep
  triggerDrafts : TriggerType → T

def withTrigger (checks : Checks T) (state : BuilderState T) (trigger : T) : BuilderState T :=
  { state with
    trigger := trigger
    triggerDrafts := fun type =>
      if type = checks.triggerType trigger then trigger else state.triggerDrafts type }

def withSteps (state : BuilderState T) : Option (List PipelineStep) → BuilderState T
  | none => state
  | some steps => { state with steps := steps }

/-- The reducer, on the actions that proposals are mapped to. -/
def builderReducer (checks : Checks T) (state : BuilderState T) : Mutation T → BuilderState T
  | .setTrigger trigger => withTrigger checks state trigger
  | .addStep step position => withSteps state (insertStepAt state.steps step position)
  | .updateStep stepId step =>
    withSteps state (replaceStepInTree state.steps stepId (setId step stepId))
  | .removeStep stepId =>
    match removeStepFromTree state.steps stepId with
    | (_, none) => state
    | (steps, some _) => withSteps state (some steps)
  | .moveStep stepId position =>
    match removeStepFromTree state.steps stepId with
    | (_, none) => state
    | (steps, some removed) => withSteps state (insertStepAt steps removed position)

/-! ## The turn -/

structure Drafts (T : Type) where
  server : WorkflowDraftState T
  client : BuilderState T

/-- A tool call, the ids minted for it, and the user's answer should it pass. -/
structure Proposal (T : Type) where
  input : Mutation T
  ids : IdSource
  accepted : Bool

def propose (checks : Checks T) (drafts : Drafts T) (proposal : Proposal T) : Drafts T :=
  match validateMutation checks proposal.ids proposal.input drafts.server with
  | .error _ => drafts
  | .ok (params, _) =>
    if proposal.accepted then
      ⟨applyAcceptedMutation drafts.server params, builderReducer checks drafts.client params⟩
    else drafts

/-! ## Minted ids -/

/-- The ids `got` are new to `seen` and to one another, and are added to it. -/
structure Minted (seen seen' got : List JsString) : Prop where
  nodup : got.Nodup
  fresh : ∀ id ∈ got, id ∉ seen
  seen' : ∀ id, id ∈ seen' ↔ id ∈ seen ∨ id ∈ got

section

variable {seen seen' seen'' got got' : List JsString}

theorem Minted.nil : Minted seen seen [] where
  nodup := .nil
  fresh := nofun
  seen' _ := ⟨.inl, fun h => h.resolve_right nofun⟩

theorem Minted.append (h : Minted seen seen' got) (h' : Minted seen' seen'' got') :
    Minted seen seen'' (got ++ got') where
  nodup := List.nodup_append.mpr ⟨h.nodup, h'.nodup, fun id hid id' hid' heq =>
    h'.fresh id' hid' ((h.seen' id').mpr (.inr (heq ▸ hid)))⟩
  fresh id hid := by
    rcases List.mem_append.mp hid with hid | hid
    · exact h.fresh id hid
    · exact fun hseen => h'.fresh id hid ((h.seen' id).mpr (.inl hseen))
  seen' id := by rw [h'.seen', h.seen', List.mem_append, or_assoc]

theorem mintId_fresh (ids : IdSource) (id : JsString) : mintId ids seen id ∉ seen := by
  rw [mintId]
  split
  next h =>
    simp only [Bool.and_eq_true, decide_eq_true_eq] at h
    exact h.2
  · exact ids.fresh seen

theorem Minted.one (ids : IdSource) (id : JsString) :
    Minted seen (mintId ids seen id :: seen) [mintId ids seen id] where
  nodup := List.nodup_singleton _
  fresh id' h := List.mem_singleton.mp h ▸ mintId_fresh ids id
  seen' id' := by rw [List.mem_cons, List.mem_singleton, or_comm]

end

mutual

theorem minted_mintStep (ids : IdSource) (step : PipelineStep) (seen : List JsString) :
    Minted seen (mintStep ids seen step).2
      ((mintStep ids seen step).1.walk.map PipelineStep.id) := by
  cases step with
  | leaf step => cases step <;> exact Minted.one ids _
  | filter step => exact Minted.one ids _
  | state step => exact Minted.one ids _
  | forEach head steps =>
    rw [mintStep, PipelineStep.walk, List.map_cons]
    exact (Minted.one ids head.id).append (minted_mintSteps ids steps _)
  | branch base branches otherwise =>
    rw [mintStep, PipelineStep.walk, List.map_cons, List.map_append]
    exact (Minted.one ids base.id).append
      ((minted_mintBranches ids branches _).append (minted_mintElse ids otherwise _))

theorem minted_mintSteps (ids : IdSource) (steps : List PipelineStep) (seen : List JsString) :
    Minted seen (mintSteps ids seen steps).2 (allStepIds (mintSteps ids seen steps).1) := by
  cases steps with
  | nil => exact Minted.nil
  | cons step steps =>
    rw [mintSteps, allStepIds, walkSteps, List.map_append]
    exact (minted_mintStep ids step seen).append (minted_mintSteps ids steps _)

theorem minted_mintBranches (ids : IdSource)
    (branches : List (PipelineCondition × List PipelineStep)) (seen : List JsString) :
    Minted seen (mintBranches ids seen branches).2
      ((walkBranches (mintBranches ids seen branches).1).map PipelineStep.id) := by
  cases branches with
  | nil => exact Minted.nil
  | cons branch branches =>
    rcases branch with ⟨condition, steps⟩
    rw [mintBranches, walkBranches, List.map_append]
    exact (minted_mintSteps ids steps seen).append (minted_mintBranches ids branches _)

theorem minted_mintElse (ids : IdSource) (otherwise : Option (List PipelineStep))
    (seen : List JsString) :
    Minted seen (mintElse ids seen otherwise).2
      ((walkElse (mintElse ids seen otherwise).1).map PipelineStep.id) := by
  cases otherwise with
  | none => exact Minted.nil
  | some steps =>
    rw [mintElse, walkElse]
    exact minted_mintSteps ids steps seen

end

theorem setId_setId (step : PipelineStep) (id id' : JsString) :
    setId (setId step id) id' = setId step id' := by
  cases step with
  | leaf step => cases step <;> rfl
  | forEach | branch | filter | state => rfl

/-- A step under another id keeps the ids below it. -/
theorem walk_ids_setId (step : PipelineStep) : ∃ below, ∀ id,
    (setId step id).walk.map PipelineStep.id = id :: below ∧
      step.walk.map PipelineStep.id = step.id :: below := by
  cases step with
  | leaf step => cases step <;> exact ⟨[], fun _ => ⟨rfl, rfl⟩⟩
  | filter step => exact ⟨[], fun _ => ⟨rfl, rfl⟩⟩
  | state step => exact ⟨[], fun _ => ⟨rfl, rfl⟩⟩
  | forEach head steps => exact ⟨allStepIds steps, fun _ => ⟨rfl, rfl⟩⟩
  | branch base branches otherwise =>
    exact ⟨(walkBranches branches ++ walkElse otherwise).map PipelineStep.id, fun _ => ⟨rfl, rfl⟩⟩

/-! ## Both sides carry out what was simulated -/

section

variable {state simulated : WorkflowDraftState T} {affected : List JsString}

theorem simulate_addStep {step : PipelineStep} {position : StepPosition}
    (h : simulate state (.addStep step position) = .ok (simulated, affected)) :
    ∃ steps, insertStep state.steps step position = (steps, none) ∧
      simulated = { state with steps := steps } := by
  rw [simulate] at h
  split at h
  · cases h
  next steps hi =>
    cases h
    exact ⟨steps, hi, rfl⟩

theorem simulate_updateStep {stepId : JsString} {step : PipelineStep}
    (h : simulate state (.updateStep stepId step) = .ok (simulated, affected)) :
    ∃ found, findStep state.steps stepId = some found ∧
      simulated = { state with steps := replaceStepById state.steps stepId step } := by
  rw [simulate] at h
  cases hfind : findStep state.steps stepId with
  | none =>
    rw [hfind] at h
    cases h
  | some found =>
    rw [hfind] at h
    cases h
    exact ⟨found, rfl, rfl⟩

theorem simulate_removeStep {stepId : JsString}
    (h : simulate state (.removeStep stepId) = .ok (simulated, affected)) :
    ∃ steps removed, removeStepById state.steps stepId = some (steps, removed) ∧
      simulated = { state with steps := steps } := by
  simp only [simulate] at h
  cases hfind : findStep state.steps stepId with
  | none =>
    rw [hfind] at h
    cases h
  | some found =>
    obtain ⟨steps, hr⟩ := splice_of_findStep [] hfind
    have hr : removeStepById state.steps stepId = some (steps, found) := hr
    rw [hfind, hr] at h
    cases h
    exact ⟨steps, found, hr, rfl⟩

theorem simulate_moveStep {stepId : JsString} {position : StepPosition}
    (h : simulate state (.moveStep stepId position) = .ok (simulated, affected)) :
    ∃ steps removed steps', removeStepById state.steps stepId = some (steps, removed) ∧
      insertStep steps removed position = (steps', none) ∧
      simulated = { state with steps := steps' } := by
  simp only [simulate] at h
  split at h
  · cases h
  split at h
  · cases h
  · cases h
  · cases h
  next steps removed _ _ hr =>
    split at h
    · cases h
    next steps' hi =>
      cases h
      exact ⟨steps, removed, steps', hr, hi, rfl⟩

theorem applyAcceptedMutation_eq {params : Mutation T}
    (h : simulate state params = .ok (simulated, affected)) :
    applyAcceptedMutation state params = simulated := by
  cases params with
  | setTrigger trigger =>
    cases h
    rfl
  | addStep step position =>
    obtain ⟨steps, hi, rfl⟩ := simulate_addStep h
    rw [applyAcceptedMutation, hi]
  | updateStep stepId step =>
    obtain ⟨found, -, rfl⟩ := simulate_updateStep h
    rfl
  | removeStep stepId =>
    obtain ⟨steps, removed, hr, rfl⟩ := simulate_removeStep h
    simp only [applyAcceptedMutation, hr]
  | moveStep stepId position =>
    obtain ⟨steps, removed, steps', hr, hi, rfl⟩ := simulate_moveStep h
    simp only [applyAcceptedMutation, hr, hi]

theorem nodup_removeStepById {steps steps' : List PipelineStep} {stepId : JsString}
    {removed : PipelineStep} (hu : (allStepIds steps).Nodup)
    (h : removeStepById steps stepId = some (steps', removed)) : (allStepIds steps').Nodup := by
  obtain ⟨⟨pre, post, hbefore, hafter⟩, -⟩ := spliced_of_splice steps h
  rw [allStepIds_eq, hbefore] at hu
  rw [allStepIds_eq, hafter]
  refine hu.sublist (List.Sublist.map _ ?_)
  exact ((List.Sublist.refl pre).append (List.nil_sublist _)).append (List.Sublist.refl post)

/-- The reducer makes of an equal tree what the simulation makes, a replacement having the id
of the step it replaces. -/
theorem builderReducer_eq {client : BuilderState T} {params : Mutation T} (checks : Checks T)
    (hsame : state.steps = client.steps) (hu : (allStepIds state.steps).Nodup)
    (hid : ∀ stepId step, params = .updateStep stepId step → setId step stepId = step)
    (h : simulate state params = .ok (simulated, affected)) :
    (builderReducer checks client params).steps = simulated.steps := by
  cases params with
  | setTrigger trigger =>
    cases h
    exact hsame.symm
  | addStep step position =>
    obtain ⟨steps, hi, rfl⟩ := simulate_addStep h
    rw [builderReducer, ← hsame, insertStepAt_eq hu, hi]
    rfl
  | updateStep stepId step =>
    obtain ⟨found, hfind, rfl⟩ := simulate_updateStep h
    obtain ⟨steps, hr⟩ := splice_of_findStep [step] hfind
    rw [builderReducer, ← hsame, hid stepId step rfl, replaceStepInTree_eq, replaceStepById, hr]
    rfl
  | removeStep stepId =>
    obtain ⟨steps, removed, hr, rfl⟩ := simulate_removeStep h
    have hremove : removeStepFromTree client.steps stepId = (steps, some removed) := by
      rw [← hsame, removeStepFromTree_eq hu, hr]
      rfl
    simp only [builderReducer, hremove, withSteps]
  | moveStep stepId position =>
    obtain ⟨steps, removed, steps', hr, hi, rfl⟩ := simulate_moveStep h
    have hremove : removeStepFromTree client.steps stepId = (steps, some removed) := by
      rw [← hsame, removeStepFromTree_eq hu, hr]
      rfl
    have hinsert : insertStepAt steps removed position = some steps' := by
      rw [insertStepAt_eq (nodup_removeStepById hu hr), hi]
      rfl
    simp only [builderReducer, hremove, hinsert, withSteps]

theorem outline_perm_of_moveStep {stepId : JsString} {position : StepPosition}
    (h : simulate state (.moveStep stepId position) = .ok (simulated, affected)) :
    (outline simulated.steps).Perm (outline state.steps) := by
  obtain ⟨steps, removed, steps', hr, hi, rfl⟩ := simulate_moveStep h
  obtain ⟨⟨pre, post, hbefore, hafter⟩, -⟩ := spliced_of_splice state.steps hr
  obtain ⟨pre', post', hrest, hmoved⟩ := outline_insertStep hi
  have hout : pre' ++ post' = pre ++ post := by
    rw [hafter] at hrest
    simpa [outline, walkSteps] using hrest.symm
  show (outline steps').Perm _
  rw [hmoved, hbefore]
  have hfront : ∀ a b : List PipelineStep,
      (a ++ outline [removed] ++ b).Perm (outline [removed] ++ (a ++ b)) := fun a b => by
    rw [← List.append_assoc]
    exact List.perm_append_comm.append_right b
  exact (hfront pre' post').trans (hout ▸ (hfront pre post).symm)

theorem allStepIds_singleton (step : PipelineStep) :
    allStepIds [step] = step.walk.map PipelineStep.id ++ [] := by
  rw [allStepIds, walkSteps, walkSteps, List.append_nil, List.append_nil]

theorem ids_of_segment {steps mid pre post : List PipelineStep}
    (h : outline steps = pre ++ outline mid ++ post) :
    allStepIds steps =
      pre.map PipelineStep.id ++ allStepIds mid ++ post.map PipelineStep.id := by
  rw [allStepIds_eq, h, List.map_append, List.map_append, ← allStepIds_eq]

theorem nodup_exchange {pre old news post : List JsString} (h : (pre ++ old ++ post).Nodup)
    (hnews : news.Nodup) (hfresh : ∀ id ∈ news, id ∉ pre ∧ id ∉ post) :
    (pre ++ news ++ post).Nodup := by
  simp only [List.nodup_append, List.mem_append] at h ⊢
  obtain ⟨⟨hpre, -, -⟩, hpost, hapart⟩ := h
  refine ⟨⟨hpre, hnews, ?_⟩, hpost, ?_⟩
  · rintro id hid id' hid' rfl
    exact (hfresh id hid').1 hid
  · rintro id (hid | hid) id' hid' rfl
    · exact hapart id (.inl hid) id hid' rfl
    · exact (hfresh id hid).2 hid'

/-- The ids of a replacement: that of the step it replaces, and ones that stand nowhere else. -/
theorem prepared_updateStep (ids : IdSource) {stepId : JsString} (step : PipelineStep)
    {target : PipelineStep} (hfind : findStep state.steps stepId = some target) :
    ∃ step', prepareWorkflowInput ids state (.updateStep stepId step) = .updateStep stepId step' ∧
      setId step' stepId = step' ∧ (allStepIds [step']).Nodup ∧
      ∀ id ∈ allStepIds [step'], id ∈ allStepIds state.steps → id ∈ subtreeStepIds target := by
  simp only [prepareWorkflowInput, hfind]
  refine ⟨_, rfl, setId_setId _ _ _, ?_⟩
  have hminted := minted_mintStep ids step
    ((allStepIds state.steps).filter fun id => id ∉ subtreeStepIds target || id = stepId)
  obtain ⟨below, hbelow⟩ := walk_ids_setId (mintStep ids ((allStepIds state.steps).filter
    fun id => id ∉ subtreeStepIds target || id = stepId) step).1
  rw [(hbelow stepId).2] at hminted
  have hids : allStepIds [setId (mintStep ids ((allStepIds state.steps).filter
      fun id => id ∉ subtreeStepIds target || id = stepId) step).1 stepId] = stepId :: below := by
    rw [allStepIds, walkSteps, walkSteps, List.append_nil]
    exact (hbelow stepId).1
  have htarget : target ∈ walkSteps state.steps ∧ target.id = stepId :=
    ⟨List.mem_of_find?_eq_some hfind, by simpa using List.find?_some hfind⟩
  have hmem : stepId ∈ allStepIds state.steps := List.mem_map.mpr ⟨target, htarget⟩
  rw [hids]
  constructor
  · refine List.nodup_cons.mpr ⟨fun hin => ?_, (List.nodup_cons.mp hminted.nodup).2⟩
    exact hminted.fresh stepId (List.mem_cons_of_mem _ hin)
      (List.mem_filter.mpr ⟨hmem, by simp⟩)
  · intro id hid hin
    rcases List.mem_cons.mp hid with rfl | hid
    · exact List.mem_map.mpr ⟨target, List.mem_append_left _ target.mem_walk, htarget.2⟩
    · by_contra hout
      exact hminted.fresh id (List.mem_cons_of_mem _ hid)
        (List.mem_filter.mpr ⟨hin, by simp [hout]⟩)

theorem nodup_simulate {ids : IdSource} {input : Mutation T} (hu : (allStepIds state.steps).Nodup)
    (h : simulate state (prepareWorkflowInput ids state input) = .ok (simulated, affected)) :
    (allStepIds simulated.steps).Nodup := by
  cases input with
  | setTrigger trigger =>
    cases h
    exact hu
  | addStep step position =>
    obtain ⟨steps, hi, rfl⟩ := simulate_addStep h
    obtain ⟨pre, post, hbefore, hafter⟩ := outline_insertStep hi
    have hids := ids_of_segment hbefore
    have hminted := minted_mintStep ids (stripStep step) (allStepIds state.steps)
    rw [← List.append_nil (List.map _ _), ← allStepIds_singleton] at hminted
    show (allStepIds steps).Nodup
    rw [ids_of_segment hafter]
    refine nodup_exchange (hids ▸ hu) hminted.nodup fun id hid => ?_
    have hout := hminted.fresh id hid
    rw [hids, List.mem_append, List.mem_append, not_or, not_or] at hout
    exact ⟨hout.1.1, hout.2⟩
  | updateStep stepId step =>
    cases hfind : findStep state.steps stepId with
    | none =>
      obtain ⟨found, hfound, -⟩ := simulate_updateStep h
      rw [hfind] at hfound
      cases hfound
    | some target =>
      obtain ⟨step', hprepared, -, hnodup, hinside⟩ := prepared_updateStep ids step hfind
      rw [hprepared] at h
      obtain ⟨found, -, rfl⟩ := simulate_updateStep h
      obtain ⟨steps, hr⟩ := splice_of_findStep [step'] hfind
      obtain ⟨⟨pre, post, hbefore, hafter⟩, -⟩ := spliced_of_splice state.steps hr
      have hids := ids_of_segment hbefore
      show (allStepIds (replaceStepById state.steps stepId step')).Nodup
      rw [replaceStepById, hr, ids_of_segment hafter]
      have hu' := hids ▸ hu
      refine nodup_exchange hu' hnodup fun id hid => ?_
      simp only [List.nodup_append, List.mem_append] at hu'
      constructor
      · intro hpre
        have hmem := hinside id hid (hids ▸ List.mem_append_left _ (List.mem_append_left _ hpre))
        exact hu'.1.2.2 id hpre id hmem rfl
      · intro hpost
        have hmem := hinside id hid (hids ▸ List.mem_append_right _ hpost)
        exact hu'.2.2 id (.inr hmem) id hpost rfl
  | removeStep stepId =>
    obtain ⟨steps, removed, hr, rfl⟩ := simulate_removeStep h
    exact nodup_removeStepById hu hr
  | moveStep stepId position =>
    rw [allStepIds_eq, ((outline_perm_of_moveStep h).map _).nodup_iff, ← allStepIds_eq]
    exact hu

end

/-! ## Runs -/

/-- The two trees are one, and no id stands twice in it. -/
structure InStep (drafts : Drafts T) : Prop where
  same : drafts.server.steps = drafts.client.steps
  unique : (allStepIds drafts.server.steps).Nodup

variable {checks : Checks T} {drafts : Drafts T} {proposal : Proposal T}

/-- What a proposal does: nothing, or what was simulated for it. -/
theorem propose_cases (checks : Checks T) (drafts : Drafts T) (proposal : Proposal T) :
    propose checks drafts proposal = drafts ∨
      ∃ simulated affected,
        simulate drafts.server (prepareWorkflowInput proposal.ids drafts.server proposal.input) =
          .ok (simulated, affected) ∧
        proposal.accepted = true ∧
        propose checks drafts proposal = ⟨simulated, builderReducer checks drafts.client
          (prepareWorkflowInput proposal.ids drafts.server proposal.input)⟩ := by
  rw [propose]
  split
  · exact .inl rfl
  next params warnings hvalid =>
    split
    next haccepted =>
      right
      rw [validateMutation] at hvalid
      split at hvalid
      · cases hvalid
      split at hvalid
      · cases hvalid
      next hcheck =>
        cases hvalid
        rw [workflowMutationValidation] at hcheck
        split at hcheck
        · cases hcheck
        next simulated affected hsim =>
          exact ⟨simulated, affected, hsim, haccepted, by rw [applyAcceptedMutation_eq hsim]⟩
    · exact .inl rfl

theorem InStep.propose (h : InStep drafts) : InStep (propose checks drafts proposal) := by
  rcases propose_cases checks drafts proposal with heq | ⟨simulated, affected, hsim, -, heq⟩
  · rw [heq]
    exact h
  · rw [heq]
    refine ⟨(builderReducer_eq checks h.same h.unique ?_ hsim).symm, nodup_simulate h.unique hsim⟩
    -- only an update gives an update, and its step has the id it replaces
    intro stepId step' hparams
    cases hinput : proposal.input with
    | updateStep stepId' step =>
      rw [hinput] at hparams hsim
      cases hparams
      exact setId_setId _ _ _
    | setTrigger | addStep | removeStep | moveStep =>
      rw [hinput] at hparams
      cases hparams

theorem InStep.run (h : InStep drafts) (proposals : List (Proposal T)) :
    InStep (proposals.foldl (Copilot.propose checks) drafts) := by
  induction proposals generalizing drafts with
  | nil => exact h
  | cons proposal proposals ih => exact ih h.propose

/-- The step a mutation names, or the place it names, is not there. -/
def Unresolved (steps : List PipelineStep) : Mutation T → Prop
  | .setTrigger _ => False
  | .addStep step position => (insertStep steps step position).2 ≠ none
  | .updateStep stepId _ | .removeStep stepId => stepId ∉ allStepIds steps
  | .moveStep stepId position => ∀ rest removed,
      removeStepById steps stepId = some (rest, removed) → (insertStep rest removed position).2 ≠ none

theorem not_unresolved {state simulated : WorkflowDraftState T} {affected : List JsString}
    {params : Mutation T} (h : simulate state params = .ok (simulated, affected)) :
    ¬ Unresolved state.steps params := by
  cases params with
  | setTrigger trigger => exact id
  | addStep step position =>
    obtain ⟨steps, hi, -⟩ := simulate_addStep h
    exact fun hn => hn (by rw [hi])
  | updateStep stepId step =>
    obtain ⟨found, hfind, -⟩ := simulate_updateStep h
    intro hn
    rw [findStep_eq_none.mpr hn] at hfind
    cases hfind
  | removeStep stepId =>
    obtain ⟨steps, removed, hr, -⟩ := simulate_removeStep h
    exact fun hn => hn (mem_of_splice hr)
  | moveStep stepId position =>
    obtain ⟨steps, removed, steps', hr, hi, -⟩ := simulate_moveStep h
    exact fun hn => hn steps removed hr (by rw [hi])

/-- After every run of proposals the server's tree is the editor's, and no id stands twice; a
move keeps the steps; a proposal that is turned down by the checks or the user, or whose
target is not there, leaves the server's draft as it is. -/
theorem drafts_in_step (checks : Checks T) (start : Drafts T)
    (hsame : start.server.steps = start.client.steps)
    (hunique : (allStepIds start.server.steps).Nodup) (proposals : List (Proposal T)) :
    let drafts := proposals.foldl (propose checks) start
    drafts.server.steps = drafts.client.steps ∧
      (allStepIds drafts.server.steps).Nodup ∧ (allStepIds drafts.client.steps).Nodup ∧
      (∀ proposal stepId position, proposal.input = .moveStep stepId position →
        (outline (propose checks drafts proposal).server.steps).Perm
          (outline drafts.server.steps)) ∧
      ∀ proposal : Proposal T,
        (proposal.accepted = false ∨
          (∃ message, validateMutation checks proposal.ids proposal.input drafts.server =
            .error message) ∨
          Unresolved drafts.server.steps
            (prepareWorkflowInput proposal.ids drafts.server proposal.input)) →
        (propose checks drafts proposal).server = drafts.server := by
  intro drafts
  have h : InStep drafts := InStep.run ⟨hsame, hunique⟩ proposals
  refine ⟨h.same, h.unique, h.same ▸ h.unique, ?_, ?_⟩
  · intro proposal stepId position hinput
    rcases propose_cases checks drafts proposal with heq | ⟨simulated, affected, hsim, -, heq⟩
    · rw [heq]
    · rw [heq]
      rw [hinput] at hsim
      exact outline_perm_of_moveStep hsim
  · intro proposal hno
    rcases propose_cases checks drafts proposal with heq | ⟨simulated, affected, hsim, hacc, heq⟩
    · rw [heq]
    · rcases hno with hno | ⟨message, herror⟩ | hno
      · rw [hacc] at hno
        cases hno
      · rw [propose, herror]
      · exact absurd hno (not_unresolved hsim)

/-- Ids longer than all those seen. -/
def longIds : IdSource where
  newStepId seen := unit 'x' :: seen.flatten
  fresh seen h := by
    have hle := (List.sublist_flatten_of_mem h).length_le
    rw [List.length_cons] at hle
    omega

/-- Checks that let everything pass. -/
def noChecks : Checks Unit where
  issues _ := none
  collectPipelineProblems _ _ := []
  triggerType _ := .manual

def blankDrafts : Drafts Unit := ⟨⟨some (), []⟩, ⟨(), [], fun _ => ()⟩⟩

/-- Two steps are added, and one of them is moved behind the other. -/
def twoSteps : List (Proposal Unit) :=
  [⟨.addStep (.state ⟨⟨[], ascii "first"⟩, []⟩) ⟨none, none⟩, longIds, true⟩,
    ⟨.addStep (.state ⟨⟨[], ascii "second"⟩, []⟩) ⟨none, none⟩, longIds, true⟩,
    ⟨.moveStep (ascii "xx") ⟨some (ascii "x"), none⟩, longIds, true⟩]

theorem drafts_in_step_two :
    let drafts := twoSteps.foldl (propose noChecks) blankDrafts
    drafts.server.steps = drafts.client.steps ∧ drafts.client.steps.map PipelineStep.id =
      [ascii "x", ascii "xx"] :=
  ⟨(drafts_in_step noChecks blankDrafts rfl .nil twoSteps).1, by decide +kernel⟩

end InvisibleString.Copilot
