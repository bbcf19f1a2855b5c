import InvisibleString.Copilot.Draft

/- # `Copilot.Builder` — the step tree of the workflow editor

The editor's reducer rebuilds the tree: each operation visits every list and copies it, with
flags for what it has already found.  An operation that cannot resolve its target leaves the
state as it is.
-/

namespace InvisibleString.Copilot

open Json Pipeline

/-! ## Removal -/

mutual

/-- `visit` of `removeStepFromTree`, `removed` the step found so far. -/
def visitRemove (stepId : JsString) :
    Option PipelineStep → List PipelineStep → List PipelineStep × Option PipelineStep
  | removed, [] => ([], removed)
  | removed, step :: steps =>
    if step.id = stepId then visitRemove stepId (some step) steps
    else
      match removed with
      | some found =>
        -- already found: the rest of the list as it is, but for a step of the same id
        let (steps', removed') := visitRemove stepId (some found) steps
        (step :: steps', removed')
      | none =>
        let (step', removed') := visitRemoveStep stepId step
        let (steps', removed'') := visitRemove stepId removed' steps
        (step' :: steps', removed'')

/-- The containers of a step, before anything is found. -/
def visitRemoveStep (stepId : JsString) : PipelineStep → PipelineStep × Option PipelineStep
  | .forEach head steps =>
    match visitRemove stepId none steps with
    | (body, some found) => (.forEach head body, some found)
    | (_, none) => (.forEach head steps, none)
  | .branch base branches otherwise =>
    match visitRemoveBranches stepId none branches with
    | (branches', some found) => (.branch base branches' otherwise, some found)
    | (branches', none) =>
      match visitRemoveElse stepId otherwise with
      | (otherwise', some found) => (.branch base branches' otherwise', some found)
      | (_, none) => (.branch base branches otherwise, none)
  | .leaf step => (.leaf step, none)
  | .filter step => (.filter step, none)
  | .state step => (.state step, none)

def visitRemoveBranches (stepId : JsString) :
    Option PipelineStep → List (PipelineCondition × List PipelineStep) →
      List (PipelineCondition × List PipelineStep) × Option PipelineStep
  | removed, [] => ([], removed)
  | removed, (condition, steps) :: branches =>
    let (steps', removed') := visitRemove stepId removed steps
    let (branches', removed'') := visitRemoveBranches stepId removed' branches
    ((condition, steps') :: branches', removed'')

def visitRemoveElse (stepId : JsString) :
    Option (List PipelineStep) → Option (List PipelineStep) × Option PipelineStep
  | none => (none, none)
  | some steps =>
    let (steps', removed) := visitRemove stepId none steps
    (some steps', removed)

end

def removeStepFromTree (steps : List PipelineStep) (stepId : JsString) :
    List PipelineStep × Option PipelineStep :=
  match visitRemove stepId none steps with
  | (steps', some found) => (steps', some found)
  | (_, none) => (steps, none)

/-! ## Insertion -/

/-- What `visit` of `insertStepAt` has met so far. -/
inductive InsertFlag where
  | searching
  | found
  | failed
  deriving DecidableEq

/-- The lane an insertion goes to: the first, or the first that has the anchor. -/
def laneIndex (branches : List (PipelineCondition × List PipelineStep)) :
    Option JsString → Option Nat
  | none => some 0
  | some anchor => branches.findIdx? fun branch => branch.2.any fun sibling => sibling.id = anchor

/-- The parent with the step placed into the requested slot. -/
def placeStep (candidate : PipelineStep) (slot : Slot) (after : Option JsString)
    (step : PipelineStep) : PipelineStep × InsertFlag :=
  match candidate, slot with
  | .forEach head steps, .body =>
    match insertIntoList steps step after with
    | none => (candidate, .failed)
    | some body => (.forEach head body, .found)
  | .branch base branches otherwise, .lane =>
    match laneIndex branches after with
    | none => (candidate, .failed)
    | some index =>
      match branches[index]? with
      | none => (candidate, .failed)
      | some lane =>
        match insertIntoList lane.2 step after with
        | none => (candidate, .failed)
        | some laneSteps => (.branch base (branches.set index (lane.1, laneSteps)) otherwise, .found)
  | .branch base branches otherwise, .otherwise =>
    match insertIntoList (otherwise.getD []) step after with
    | none => (candidate, .failed)
    | some elseSteps => (.branch base branches (some elseSteps), .found)
  | _, _ => (candidate, .failed)

section

variable (parent : PositionParent) (after : Option JsString) (step : PipelineStep)

mutual

def visitInsert : InsertFlag → List PipelineStep → List PipelineStep × InsertFlag
  | flag, [] => ([], flag)
  | flag, candidate :: candidates =>
    let (candidate', flag') :=
      if flag = .searching then
        if candidate.id = parent.stepId then placeStep candidate parent.slot after step
        else visitInsertStep candidate
      else (candidate, flag)
    let (candidates', flag'') := visitInsert flag' candidates
    (candidate' :: candidates', flag'')

def visitInsertStep : PipelineStep → PipelineStep × InsertFlag
  | .forEach head steps =>
    let (steps', flag) := visitInsert .searching steps
    (.forEach head steps', flag)
  | .branch base branches otherwise =>
    let (branches', flag) := visitInsertBranches .searching branches
    let (otherwise', flag') := visitInsertElse flag otherwise
    (.branch base branches' otherwise', flag')
  | .leaf leaf => (.leaf leaf, .searching)
  | .filter filter => (.filter filter, .searching)
  | .state state => (.state state, .searching)

def visitInsertBranches : InsertFlag → List (PipelineCondition × List PipelineStep) →
    List (PipelineCondition × List PipelineStep) × InsertFlag
  | flag, [] => ([], flag)
  | flag, (condition, steps) :: branches =>
    let (steps', flag') := visitInsert flag steps
    let (branches', flag'') := visitInsertBranches flag' branches
    ((condition, steps') :: branches', flag'')

def visitInsertElse : InsertFlag → Option (List PipelineStep) →
    Option (List PipelineStep) × InsertFlag
  | flag, none => (none, flag)
  | flag, some steps =>
    let (steps', flag') := visitInsert flag steps
    (some steps', flag')

end

end

def insertStepAt (steps : List PipelineStep) (step : PipelineStep) (position : StepPosition) :
    Option (List PipelineStep) :=
  match position.parent with
  | none => insertIntoList steps step position.after
  | some parent =>
    match visitInsert parent position.after step .searching steps with
    | (next, .found) => some next
    | (_, .searching) | (_, .failed) => none

/-! ## Replacement -/

section

variable (stepId : JsString) (replacement : PipelineStep)

mutual

/-- `visit` of `replaceStepInTree`, with its flag `found`. -/
def visitReplace : Bool → List PipelineStep → List PipelineStep × Bool
  | found, [] => ([], found)
  | found, candidate :: candidates =>
    let (candidate', found') :=
      if found then (candidate, found)
      else if candidate.id = stepId then (replacement, true)
      else visitReplaceStep candidate
    let (candidates', found'') := visitReplace found' candidates
    (candidate' :: candidates', found'')

def visitReplaceStep : PipelineStep → PipelineStep × Bool
  | .forEach head steps =>
    let (steps', found) := visitReplace false steps
    (.forEach head steps', found)
  | .branch base branches otherwise =>
    let (branches', found) := visitReplaceBranches false branches
    let (otherwise', found') := visitReplaceElse found otherwise
    (.branch base branches' otherwise', found')
  | .leaf leaf => (.leaf leaf, false)
  | .filter filter => (.filter filter, false)
  | .state state => (.state state, false)

def visitReplaceBranches : Bool → List (PipelineCondition × List PipelineStep) →
    List (PipelineCondition × List PipelineStep) × Bool
  | found, [] => ([], found)
  | found, (condition, steps) :: branches =>
    let (steps', found') := visitReplace found steps
    let (branches', found'') := visitReplaceBranches found' branches
    ((condition, steps') :: branches', found'')

def visitReplaceElse : Bool → Option (List PipelineStep) → Option (List PipelineStep) × Bool
  | found, none => (none, found)
  | found, some steps =>
    let (steps', found') := visitReplace found steps
    (some steps', found')

end

end

def replaceStepInTree (steps : List PipelineStep) (stepId : JsString)
    (replacement : PipelineStep) : Option (List PipelineStep) :=
  match visitReplace stepId replacement false steps with
  | (next, true) => some next
  | (_, false) => none

end InvisibleString.Copilot
