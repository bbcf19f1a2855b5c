import InvisibleString.Lib.EventLoop
import InvisibleString.Pipeline.StepStore

/- # `Pipeline.Driver` — what a driver of a run talks to

The driver of a pipeline run (`PipelineRunner.drive`) is a program that awaits statements:
the step ledger, the run's events, the workflow's state, the run row, the executors and the
clock (`DriverOp`).  Its memory is the handle's two flags and the mutable part of `DriveCtx`
(`DriveMemory`); everything it leaves behind is `World`.

While a statement is under way anything may happen that another party can do (`Env`): time
passes, `cancel` and `stopAll` set their flags, another run of the workflow writes the state,
another actor settles the run row.  The ledger and the events of the run have no other
writer.  A statement may fail, with or without having had its effect.

`World.log` and `World.announced` are no data of the program: they record what the drivers
did with the step instances and what they told others, for the theorems to speak about.
-/

namespace InvisibleString.Pipeline

open EventLoop Json Relation
open Tailer (RunStatus)

/-! ## Scope and outcomes -/

/-- Step outputs by slug (`scope.steps`). -/
abbrev ScopeSteps := List (JsString × JsonRecord)

/-- The resolution scope of a run. -/
structure PipelineScope where
  trigger : JsonRecord
  steps : ScopeSteps
  state : JsonRecord
  item : Option JsonValue
  now : Nat

/-- The scope a sequence of steps runs in.  `scope.state` is one object shared by every
scope of a drive and lives in the driver's memory. -/
structure StepScope where
  trigger : JsonRecord
  steps : ScopeSteps
  item : Option JsonValue
  now : Nat

def StepScope.withState (scope : StepScope) (state : JsonRecord) : PipelineScope :=
  ⟨scope.trigger, scope.steps, state, scope.item, scope.now⟩

/-- The pure functions of the shared package the driver calls: templates, conditions and
paths.  An error is the text `safeErrorMessage` makes of it. -/
structure Surfaces where
  renderTemplateRecord : JsonRecord → PipelineScope → JsonRecord
  renderMarkdownTemplate : JsString → PipelineScope → JsString
  evaluateCondition : PipelineCondition → PipelineScope → Except JsString Bool
  resolveScopePath : PipelineScope → JsString → Option JsonValue
  /-- `none` where the value cannot be serialized -/
  serializedByteLength : JsonValue → Option Nat

/-- What one attempt produced. -/
inductive StepOutcome where
  | succeeded (output : JsonRecord)
  | failed (errorClass error : JsString) (retryable : Bool)
  | waiting (childRunId : JsString)

/-- An attempt raced against its abort signal. -/
inductive Raced where
  | settled (outcome : StepOutcome)
  | aborted

/-! ## Events -/

/-- The fields every step event carries. -/
structure StepRef where
  stepId : JsString
  slug : JsString
  kind : StepKind
  path : JsString
  deriving DecidableEq

inductive PipelineStreamEvent where
  | started (stepCount : Nat)
  | stepStarted (step : StepRef) (attempt : Nat) (childRunId : Option JsString)
  | stepCompleted (step : StepRef) (status : RunStepStatus)
  | stepFailed (step : StepRef) (attempt : Nat) (errorClass error : JsString) (willRetry : Bool)
  | stepWaiting (stepId slug path childRunId : JsString)
  | stateUpdated (stepId path : JsString) (keys : List JsString)
  | completed (status : RunStatus)

/-- The path whose terminal step event this is. -/
def PipelineStreamEvent.terminalPath? : PipelineStreamEvent → Option JsString
  | .stepCompleted step _ => some step.path
  | .stepFailed step _ _ _ false => some step.path
  | _ => none

structure StoredEvent where
  seq : Nat
  event : PipelineStreamEvent

/-- What the driver publishes on the bus. -/
inductive BusFrame where
  | event (seq : Nat) (event : PipelineStreamEvent)
  | status (status : RunStatus) (error : Option JsString)

/-! ## The run row -/

structure RunRow where
  id : JsString
  organizationId : Option JsString
  workflowId : Option JsString
  status : RunStatus
  error : Option JsString
  startedAt : Option Nat
  /-- `data` of the trigger event, `{}` where it is no object -/
  triggerData : JsonRecord
  deliveryPending : Bool

/-- The columns `markRun` writes; `none` leaves a column as it is. -/
structure RunPatch where
  status : RunStatus
  error : Option JsString
  startedAt : Option Nat

def RunPatch.apply (patch : RunPatch) (run : RunRow) : RunRow :=
  { run with
    status := patch.status
    error := patch.error <|> run.error
    startedAt := patch.startedAt <|> run.startedAt }

/-! ## Statements -/

/-- One executor call. -/
structure Invocation where
  step : LeafStep
  path : JsString
  input : JsonValue
  attempt : Nat
  childRunId : Option JsString
  item : Option JsonValue

inductive RunLimit where
  | wallClock
  | stepBudget
  deriving DecidableEq

/-- What a driver did with the instance at `path`. -/
inductive Deed where
  /-- its claim inserted the row, with this input -/
  | claimed (path : JsString) (input : Option JsonValue)
  /-- `dctx.executed += 1` -/
  | executed (path : JsString)
  /-- the executor was called -/
  | invoked (call : Invocation)
  /-- the loop started the item at `index` of its array, with these step outputs in scope -/
  | item (path : JsString) (index : Nat) (item : JsonValue) (steps : ScopeSteps)
  /-- the row was written terminal -/
  | finished (path : JsString)
  /-- a run-level limit refused the instance -/
  | halted (path : JsString) (limit : RunLimit)

def Deed.path : Deed → JsString
  | .claimed path _ => path
  | .executed path => path
  | .invoked call => call.path
  | .item path _ _ _ => path
  | .finished path => path
  | .halted path _ => path

/-- What a driver told others about the run. -/
inductive Announcement where
  | published (frame : BusFrame)
  | delivered (status : RunStatus) (rendered : Option JsString)

inductive DriverOp where
  | now
  | countRunEvents
  | listEvents
  | appendEvent (seq : Nat) (event : PipelineStreamEvent)
  | markRun (patch : RunPatch)
  | getRunStatus (childRunId : JsString)
  | claim (input : ClaimStepInput)
  | markRunning (path : JsString) (attempt : Nat)
  | markWaiting (path childRunId : JsString)
  | finish (path : JsString) (patch : FinishStepPatch)
  | listForRun
  | snapshot
  | setState (entries : JsonRecord)
  /-- call the executor -/
  | invoke (call : Invocation)
  /-- its outcome, raced against the abort signal -/
  | outcome (call : Invocation)
  | pause
  | note (deed : Deed)
  | announce (announcement : Announcement)
  /-- never answered: a loop that goes on for longer than anybody looks -/
  | hang

/-- What a statement throws. -/
inductive DriverError where
  | workflowStateCap
  | failed (message : JsString)

abbrev driverSignature : Signature where
  Op := DriverOp
  Ret
    | .now => Nat
    | .countRunEvents => Nat
    | .listEvents => List StoredEvent
    | .appendEvent _ _ => Unit
    | .markRun _ => Bool
    | .getRunStatus _ => Option RunStatus
    | .claim _ => Bool × RunStepRow
    | .markRunning _ _ => Unit
    | .markWaiting _ _ => Unit
    | .finish _ _ => Unit
    | .listForRun => Ledger
    | .snapshot => JsonRecord
    | .setState _ => Unit
    | .invoke _ => Unit
    | .outcome _ => Raced
    | .pause => Unit
    | .note _ => Unit
    | .announce _ => Unit
    | .hang => Empty
  Err := DriverError

/-- The handle's flags and the mutable part of `DriveCtx`. -/
structure DriveMemory where
  cancelRequested : Bool
  interrupted : Bool
  /-- executed instances, against `maxExecutedStepsPerRun` -/
  executed : Nat
  priorTerminalEventPaths : Option (List JsString)
  /-- `scope.state` -/
  state : JsonRecord
  /-- the appender's next seq -/
  seq : Nat

def DriveMemory.fresh : DriveMemory where
  cancelRequested := false
  interrupted := false
  executed := 0
  priorTerminalEventPaths := none
  state := []
  seq := 0

abbrev DriverProc (α : Type) := Proc driverSignature DriveMemory α

def await (op : DriverOp) : DriverProc (driverSignature.Ret op) :=
  Proc.call (S := driverSignature) op

/-! ## The outside -/

/-- What the drivers of a run leave of their walk through the config. -/
structure Trail where
  steps : Ledger
  /-- the number of the present driver; 0 before the first -/
  incarnation : Nat
  log : List (Nat × Deed)

namespace Trail

def record (t : Trail) (deed : Deed) : Trail :=
  { t with log := t.log ++ [(t.incarnation, deed)] }

def claim (t : Trail) (input : ClaimStepInput) : Trail :=
  let c := t.steps.claim input
  let t' := { t with steps := c.1 }
  if c.2.1 then t'.record (.claimed input.path input.input) else t'

/-- The answer of `claim`. -/
def claimed (t : Trail) (input : ClaimStepInput) : Bool × RunStepRow :=
  (t.steps.claim input).2

def markRunning (t : Trail) (path : JsString) (attempt : Nat) : Trail :=
  { t with steps := t.steps.markRunning path attempt }

def markWaiting (t : Trail) (path childRunId : JsString) : Trail :=
  { t with steps := t.steps.markWaiting path childRunId }

def finish (t : Trail) (path : JsString) (patch : FinishStepPatch) : Trail :=
  { t with steps := t.steps.finish path patch }.record (.finished path)

def linkChild (t : Trail) (path childRunId : JsString) : Trail :=
  { t with steps := t.steps.linkChild path childRunId }

end Trail

structure World extends Trail where
  run : RunRow
  events : List StoredEvent
  /-- the workflow's state -/
  state : JsonRecord
  clock : Nat
  announced : List (Nat × Announcement)

namespace World

/-- A run that was just created. -/
def fresh (run : RunRow) (state : JsonRecord) (clock : Nat) : World where
  steps := []
  incarnation := 0
  log := []
  run := run
  events := []
  state := state
  clock := clock
  announced := []

def onTrail (w : World) (f : Trail → Trail) : World := { w with toTrail := f w.toTrail }

def announce (w : World) (announcement : Announcement) : World :=
  { w with announced := w.announced ++ [(w.incarnation, announcement)] }

def append (w : World) (seq : Nat) (event : PipelineStreamEvent) : World :=
  { w with events := w.events ++ [⟨seq, event⟩] }

/-- `markRun`: only a run that is not terminal is written. -/
def markRun (w : World) (patch : RunPatch) : World :=
  if w.run.status.terminal then w else { w with run := patch.apply w.run }

end World

/-- What other parties do. -/
inductive Env : DriveMemory × World → DriveMemory × World → Prop
  | clock (m w t) (h : w.clock ≤ t) : Env (m, w) (m, { w with clock := t })
  | cancel (m w) : Env (m, w) ({ m with cancelRequested := true }, w)
  | interrupt (m w) : Env (m, w) ({ m with interrupted := true }, w)
  | state (m w state) : Env (m, w) (m, { w with state := state })
  /-- a stop, or a run whose config is gone -/
  | run (m w patch) (h : patch.startedAt = none)
      (hs : patch.status = .canceled ∨ patch.status = .failed) : Env (m, w) (m, w.markRun patch)

/-- The effect of a statement and its answer. -/
inductive Effect : (op : DriverOp) → World → driverSignature.Ret op → World → Prop
  | now (w) : Effect .now w w.clock w
  | countRunEvents (w) : Effect .countRunEvents w w.events.length w
  | listEvents (w) : Effect .listEvents w w.events w
  | appendEvent (w seq event) (h : seq ∉ w.events.map StoredEvent.seq) :
      Effect (.appendEvent seq event) w () (w.append seq event)
  | markRun (w patch) : Effect (.markRun patch) w (!w.run.status.terminal) (w.markRun patch)
  | getRunStatus (w childRunId) (status : Option RunStatus) :
      Effect (.getRunStatus childRunId) w status w
  | claim (w input) :
      Effect (.claim input) w (w.toTrail.claimed input) (w.onTrail (·.claim input))
  | markRunning (w path attempt) :
      Effect (.markRunning path attempt) w () (w.onTrail (·.markRunning path attempt))
  | markWaiting (w path childRunId) :
      Effect (.markWaiting path childRunId) w () (w.onTrail (·.markWaiting path childRunId))
  | finish (w path patch) :
      Effect (.finish path patch) w () (w.onTrail (·.finish path patch))
  | listForRun (w) : Effect .listForRun w w.steps w
  | snapshot (w) : Effect .snapshot w w.state w
  | setState (w entries state) (h : writeState w.state entries = some state) :
      Effect (.setState entries) w () { w with state := state }
  | invoke (w call) : Effect (.invoke call) w () (w.onTrail (·.record (.invoked call)))
  /-- an agent executor links the child it creates to the row, at once or later -/
  | invokeLinking (w call child) (hk : call.step.kind = .agent) :
      Effect (.invoke call) w ()
        (w.onTrail fun t => (t.record (.invoked call)).linkChild call.path child)
  /-- only an agent executor parks its step -/
  | outcome (w call raced)
      (h : ∀ child, raced = .settled (.waiting child) → call.step.kind = .agent) :
      Effect (.outcome call) w raced w
  | outcomeLinking (w call raced child)
      (h : ∀ child, raced = .settled (.waiting child) → call.step.kind = .agent)
      (hk : call.step.kind = .agent) :
      Effect (.outcome call) w raced (w.onTrail (·.linkChild call.path child))
  | pause (w) : Effect .pause w () w
  | note (w deed) : Effect (.note deed) w () (w.onTrail (·.record deed))
  | announce (w announcement) : Effect (.announce announcement) w () (w.announce announcement)

/-- Statements that happen inside the process and cannot fail. -/
def DriverOp.local : DriverOp → Bool
  | .now | .pause | .note _ | .announce _ | .invoke _ | .outcome _ | .hang => true
  | _ => false

/-- How a statement is answered: the outside moves, the statement has its effect or fails,
and the outside moves again. -/
inductive Answered : Answers driverSignature DriveMemory World
  | ok {op m w m₁ w₁ r w₂ m₃ w₃} (before : ReflTransGen Env (m, w) (m₁, w₁))
      (effect : Effect op w₁ r w₂) (after : ReflTransGen Env (m₁, w₂) (m₃, w₃)) :
      Answered op m w (.ok r) m₃ w₃
  /-- the effect took place, but the answer did not come back -/
  | lost {op m w m₁ w₁ r w₂ m₃ w₃ message} (before : ReflTransGen Env (m, w) (m₁, w₁))
      (effect : Effect op w₁ r w₂) (after : ReflTransGen Env (m₁, w₂) (m₃, w₃))
      (hop : op.local = false) :
      Answered op m w (.error (.failed message)) m₃ w₃
  | refused {op m w m₁ w₁ message} (before : ReflTransGen Env (m, w) (m₁, w₁))
      (hop : op.local = false) : Answered op m w (.error (.failed message)) m₁ w₁
  | stateCap {entries m w m₁ w₁ m₃ w₃} (before : ReflTransGen Env (m, w) (m₁, w₁))
      (full : writeState w₁.state entries = none)
      (after : ReflTransGen Env (m₁, w₁) (m₃, w₃)) :
      Answered (.setState entries) m w (.error .workflowStateCap) m₃ w₃

end InvisibleString.Pipeline
