import InvisibleString.Lib.Text
import InvisibleString.Pipeline.Config

/- # `Copilot.Draft` — the step tree a copilot turn keeps on the server

The tree is changed in place: a step is located by a walk, and the list that holds it is
spliced; a position is resolved to the list it names, and the step is spliced in there.  A
missing `else` list is created as soon as a position names it, so a position whose anchor is
not found there leaves an empty list behind.
-/

namespace InvisibleString.Copilot

open Json Pipeline

/-! ## Positions -/

/-- The lists of a container: a loop's body, a lane of a branch, its `else` list. -/
inductive Slot where
  | body
  | lane
  | otherwise
  deriving DecidableEq

structure PositionParent where
  stepId : JsString
  slot : Slot

/-- Where a step lands: after a sibling, or at the head, of a list. -/
structure StepPosition where
  after : Option JsString
  parent : Option PositionParent

def slotName : Slot → JsString
  | .body => ascii "body"
  | .lane => ascii "then"
  | .otherwise => ascii "else"

def kindName : StepKind → JsString
  | .tool => ascii "tool"
  | .infer => ascii "infer"
  | .agent => ascii "agent"
  | .forEach => ascii "for_each"
  | .branch => ascii "branch"
  | .filter => ascii "filter"
  | .state => ascii "state"

/-! ## Addressing -/

/-- A step anywhere in the tree. -/
def findStep (steps : List PipelineStep) (stepId : JsString) : Option PipelineStep :=
  (walkSteps steps).find? fun step => step.id = stepId

def allStepIds (steps : List PipelineStep) : List JsString := (walkSteps steps).map PipelineStep.id

def subtreeStepIds (step : PipelineStep) : List JsString := allStepIds [step]

/-- The ids of the draft, for an error. -/
def describeKnownSteps (steps : List PipelineStep) : JsString :=
  let lines := (walkSteps steps).map fun step =>
    step.id ++ ascii " (" ++ kindName step.kind ++
      (if step.base.slug = [] then [] else ascii " \"" ++ step.base.slug ++ ascii "\"") ++ ascii ")"
  if lines = [] then ascii "(none — the draft has no steps yet)" else join (ascii ", ") lines

mutual

/-- `locateStep` with the entry it finds replaced by `news` in its list, and the entry. -/
def splice (stepId : JsString) (news : List PipelineStep) :
    List PipelineStep → Option (List PipelineStep × PipelineStep)
  | [] => none
  | step :: steps =>
    if step.id = stepId then some (news ++ steps, step)
    else
      match spliceStep stepId news step with
      | some (step', found) => some (step' :: steps, found)
      | none => (splice stepId news steps).map fun r => (step :: r.1, r.2)

def spliceStep (stepId : JsString) (news : List PipelineStep) :
    PipelineStep → Option (PipelineStep × PipelineStep)
  | .forEach head steps => (splice stepId news steps).map fun r => (.forEach head r.1, r.2)
  | .branch base branches otherwise =>
    match spliceBranches stepId news branches with
    | some (branches', found) => some (.branch base branches' otherwise, found)
    | none => (spliceElse stepId news otherwise).map fun r => (.branch base branches r.1, r.2)
  | .leaf _ | .filter _ | .state _ => none

def spliceBranches (stepId : JsString) (news : List PipelineStep) :
    List (PipelineCondition × List PipelineStep) →
      Option (List (PipelineCondition × List PipelineStep) × PipelineStep)
  | [] => none
  | (condition, steps) :: branches =>
    match splice stepId news steps with
    | some (steps', found) => some ((condition, steps') :: branches, found)
    | none => (spliceBranches stepId news branches).map fun r => ((condition, steps) :: r.1, r.2)

def spliceElse (stepId : JsString) (news : List PipelineStep) :
    Option (List PipelineStep) → Option (Option (List PipelineStep) × PipelineStep)
  | none => none
  | some steps => (splice stepId news steps).map fun r => (some r.1, r.2)

end

/-- Replace a step in place; the tree is as it was where there is none. -/
def replaceStepById (steps : List PipelineStep) (stepId : JsString) (step : PipelineStep) :
    List PipelineStep :=
  match splice stepId [step] steps with
  | some (steps', _) => steps'
  | none => steps

/-- Detach a step: the tree without it, and the step. -/
def removeStepById (steps : List PipelineStep) (stepId : JsString) :
    Option (List PipelineStep × PipelineStep) :=
  splice stepId [] steps

/-! ## Insertion -/

/-- `list.splice(index + 1, 0, step)` after a sibling, or at the head. -/
def insertIntoList (list : List PipelineStep) (step : PipelineStep) :
    Option JsString → Option (List PipelineStep)
  | none => some (step :: list)
  | some after =>
    match list.findIdx? fun sibling => sibling.id = after with
    | none => none
    | some index => some (list.take (index + 1) ++ step :: list.drop (index + 1))

/-- The first lane with a sibling, changed by the insertion after it. -/
def insertIntoLane (step : PipelineStep) (after : JsString) :
    List (PipelineCondition × List PipelineStep) →
      Option (List (PipelineCondition × List PipelineStep))
  | [] => none
  | (condition, steps) :: branches =>
    if steps.any fun sibling => sibling.id = after then
      (insertIntoList steps step (some after)).map fun steps' => (condition, steps') :: branches
    else (insertIntoLane step after branches).map fun branches' => (condition, steps) :: branches'

/-- The error for an anchor outside the list a position names. -/
def notInList (after : Option JsString) (list : List PipelineStep) : JsString :=
  ascii "position.after \"" ++ after.getD (ascii "null") ++
    ascii "\" is not a direct child of the target list — direct children: " ++
    (if list = [] then ascii "(empty)" else join (ascii ", ") (list.map PipelineStep.id))

/-- The error for a slot the parent does not have. -/
def wrongParent (slot : Slot) (wanted : JsString) (parent : PipelineStep) : JsString :=
  ascii "slot \"" ++ slotName slot ++ ascii "\" requires a " ++ wanted ++
    ascii " parent — step \"" ++ parent.id ++ ascii "\" is a " ++ kindName parent.kind ++
    ascii " step"

/-- The parent of a position after the insertion, and the error if there was none. -/
def placeIn (parent : PipelineStep) (slot : Slot) (after : Option JsString) (step : PipelineStep) :
    PipelineStep × Option JsString :=
  match slot, parent with
  | .body, .forEach head steps =>
    match insertIntoList steps step after with
    | some steps' => (.forEach head steps', none)
    | none => (parent, some (notInList after steps))
  | .body, _ => (parent, some (wrongParent .body (ascii "for_each") parent))
  | .otherwise, .branch base branches otherwise =>
    let list := otherwise.getD []
    match insertIntoList list step after with
    | some list' => (.branch base branches (some list'), none)
    | none => (.branch base branches (some list), some (notInList after list))
  | .lane, .branch base branches otherwise =>
    match after with
    | none =>
      match branches with
      | [] => (parent, some (ascii "branch \"" ++ parent.id ++
          ascii "\" has no lanes to insert into"))
      | (condition, steps) :: branches =>
        (.branch base ((condition, step :: steps) :: branches) otherwise, none)
    | some anchor =>
      match insertIntoLane step anchor branches with
      | some branches' => (.branch base branches' otherwise, none)
      | none => (parent, some (ascii "position.after \"" ++ anchor ++
          ascii "\" is not a direct child of any lane of branch \"" ++ parent.id ++ ascii "\""))
  | slot, _ => (parent, some (wrongParent slot (ascii "branch") parent))

/-- The tree after the insertion, and the error if there was none. -/
def insertStep (steps : List PipelineStep) (step : PipelineStep) (position : StepPosition) :
    List PipelineStep × Option JsString :=
  match position.parent with
  | none =>
    match insertIntoList steps step position.after with
    | some steps' => (steps', none)
    | none => (steps, some (notInList position.after steps))
  | some ⟨stepId, slot⟩ =>
    match findStep steps stepId with
    | none => (steps, some (ascii "position.parent.stepId \"" ++ stepId ++
        ascii "\" does not exist in the draft — known steps: " ++ describeKnownSteps steps))
    | some parent =>
      let (parent', error) := placeIn parent slot position.after step
      (replaceStepById steps stepId parent', error)

end InvisibleString.Copilot
