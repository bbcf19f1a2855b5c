import InvisibleString.Lib.Json

/- # `Pipeline.Config` — the step tree of a workflow

A workflow is a list of steps; `for_each` and `branch` nest lists of steps.  A parsed config
is well formed (`workflowConfigSchema`): step ids have the minted form and no id stands
twice in the tree, no two steps share a slug that is not empty, and no `for_each` stands
inside another.  The fields of a step that only its executor reads are left out.
-/

namespace InvisibleString.Pipeline

open Json

/-- A JSON value; JavaScript's finite numbers are rationals. -/
abbrev JsonValue := Value Rat

/-- The members of a JSON object. -/
abbrev JsonRecord := List (JsString × JsonValue)

/-- A natural number as a JSON value. -/
def natural (n : Nat) : JsonValue := .num n

/-- The natural number a JSON value is. -/
def natural? : JsonValue → Option Nat
  | .num q => if q.den = 1 ∧ 0 ≤ q.num then some q.num.toNat else none
  | _ => none

theorem natural?_natural (n : Nat) : natural? (natural n) = some n := by
  have hd : ((n : Nat) : Rat).den = 1 := rfl
  have hn : ((n : Nat) : Rat).num = (n : Int) := rfl
  rw [natural, natural?, if_pos ⟨hd, by rw [hn]; exact Int.natCast_nonneg n⟩, hn]
  rfl

/-- The member `k` of an object; `none` where there is no such member, or no object. -/
def member? (k : JsString) : JsonValue → Option JsonValue
  | .obj members => OrderedMap.get? k members
  | _ => none

/-! ## Conditions and steps -/

inductive ConditionOperand where
  | literal (value : JsonValue)
  | ref (path : JsString)

inductive PipelineCondition where
  | and (conditions : List PipelineCondition)
  | or (conditions : List PipelineCondition)
  | not (condition : PipelineCondition)
  | eq (a b : ConditionOperand)
  | ne (a b : ConditionOperand)
  | gt (a b : ConditionOperand)
  | gte (a b : ConditionOperand)
  | lt (a b : ConditionOperand)
  | lte (a b : ConditionOperand)
  | contains (a b : ConditionOperand)
  | startsWith (a b : ConditionOperand)
  | endsWith (a b : ConditionOperand)
  | exists (a : ConditionOperand)
  | truthy (a : ConditionOperand)
  | empty (a : ConditionOperand)
  | in (a b : ConditionOperand)

/-- What every step carries. -/
structure PipelineStepBase where
  id : JsString
  slug : JsString
  deriving DecidableEq

inductive StepSideEffect where
  | atLeastOnce
  | atMostOnce
  deriving DecidableEq

/-- `args` is a record of template values, JSON itself. -/
structure ToolStep extends PipelineStepBase where
  args : JsonRecord
  timeoutMs : Option Nat
  /-- `retry.maxAttempts` -/
  maxAttempts : Option Nat
  sideEffect : StepSideEffect

structure InferStep extends PipelineStepBase where
  prompt : JsString

structure AgentStep extends PipelineStepBase where
  instructions : JsString

structure FilterStep extends PipelineStepBase where
  condition : PipelineCondition

structure StateStep extends PipelineStepBase where
  set : JsonRecord

inductive ForEachItemErrorPolicy where
  | continue
  | halt
  deriving DecidableEq

/-- A `for_each` without its body. -/
structure ForEachStep extends PipelineStepBase where
  itemsRef : JsString
  maxItems : Nat
  onItemError : ForEachItemErrorPolicy

/-- The steps that call an executor. -/
inductive LeafStep where
  | tool (step : ToolStep)
  | infer (step : InferStep)
  | agent (step : AgentStep)

inductive PipelineStep where
  | leaf (step : LeafStep)
  | forEach (step : ForEachStep) (steps : List PipelineStep)
  | branch (base : PipelineStepBase) (branches : List (PipelineCondition × List PipelineStep))
      (otherwise : Option (List PipelineStep))
  | filter (step : FilterStep)
  | state (step : StateStep)

inductive StepKind where
  | tool
  | infer
  | agent
  | forEach
  | branch
  | filter
  | state
  deriving DecidableEq

def LeafStep.base : LeafStep → PipelineStepBase
  | .tool step => step.toPipelineStepBase
  | .infer step => step.toPipelineStepBase
  | .agent step => step.toPipelineStepBase

def LeafStep.kind : LeafStep → StepKind
  | .tool _ => .tool
  | .infer _ => .infer
  | .agent _ => .agent

/-- A tool call that must not be repeated after a crash. -/
def LeafStep.atMostOnce : LeafStep → Bool
  | .tool step => step.sideEffect = .atMostOnce
  | .infer _ | .agent _ => false

def PipelineStep.base : PipelineStep → PipelineStepBase
  | .leaf step => step.base
  | .forEach step _ => step.toPipelineStepBase
  | .branch base _ _ => base
  | .filter step => step.toPipelineStepBase
  | .state step => step.toPipelineStepBase

def PipelineStep.id (step : PipelineStep) : JsString := step.base.id

def PipelineStep.kind : PipelineStep → StepKind
  | .leaf step => step.kind
  | .forEach _ _ => .forEach
  | .branch _ _ _ => .branch
  | .filter _ => .filter
  | .state _ => .state

/-! ## The tree -/

mutual

/-- The step and every step below it, in document order. -/
def PipelineStep.walk : PipelineStep → List PipelineStep
  | .leaf step => [.leaf step]
  | .forEach step steps => .forEach step steps :: walkSteps steps
  | .branch base branches otherwise =>
    .branch base branches otherwise :: (walkBranches branches ++ walkElse otherwise)
  | .filter step => [.filter step]
  | .state step => [.state step]

/-- Pre-order walk of the whole step tree. -/
def walkSteps : List PipelineStep → List PipelineStep
  | [] => []
  | step :: steps => step.walk ++ walkSteps steps

def walkBranches : List (PipelineCondition × List PipelineStep) → List PipelineStep
  | [] => []
  | (_, steps) :: branches => walkSteps steps ++ walkBranches branches

def walkElse : Option (List PipelineStep) → List PipelineStep
  | none => []
  | some steps => walkSteps steps

end

theorem PipelineStep.mem_walk (s : PipelineStep) : s ∈ s.walk := by
  cases s <;> exact List.mem_cons_self

/-- `st_` and sixteen lower-case letters or digits. -/
def isStepId (id : JsString) : Bool :=
  id.length = 19 && id.take 3 = ascii "st_" &&
    (id.drop 3).all fun c => (unit '0' ≤ c && c ≤ unit '9') || (unit 'a' ≤ c && c ≤ unit 'z')

inductive WorkflowOverlapPolicy where
  | skip
  | allow
  deriving DecidableEq

/-- A parsed workflow config. -/
structure WorkflowConfig where
  steps : List PipelineStep
  /-- `onComplete.slackReply.template.markdown` -/
  slackReply : Option JsString
  overlap : WorkflowOverlapPolicy
  ids_form : ∀ s ∈ walkSteps steps, isStepId s.id = true
  ids_nodup : ((walkSteps steps).map PipelineStep.id).Nodup
  slugs_nodup : (((walkSteps steps).map fun s => s.base.slug).filter (· ≠ [])).Nodup
  loops_flat : ∀ head body, PipelineStep.forEach head body ∈ walkSteps steps →
    ∀ s ∈ walkSteps body, s.kind ≠ .forEach

/-- A minted id has no path separator. -/
theorem separator_not_mem_of_isStepId {id : JsString} (h : isStepId id = true) :
    unit '/' ∉ id := by
  simp only [isStepId, Bool.and_eq_true, decide_eq_true_eq, List.all_eq_true,
    Bool.or_eq_true] at h
  obtain ⟨⟨_, hp⟩, hc⟩ := h
  intro hm
  rw [← List.take_append_drop 3 id, hp] at hm
  rcases List.mem_append.mp hm with hm | hm
  · exact absurd hm (by decide)
  · rcases hc _ hm with h | h
    · exact absurd h.1 (by decide)
    · exact absurd h.1 (by decide)

end InvisibleString.Pipeline
