import InvisibleString.Pipeline.Driver

/- # `Pipeline.Runner` — the interpreter of a workflow

`PipelineRunner.drive` and what it calls, function by function.  A driver walks the steps of
the config in order.  For each instance it claims the ledger row; a row a former driver
settled is adopted, a row it left open is resumed, and a new row is executed.  Leaf steps
call their executor under a retry budget, the control verbs are interpreted here, and
`for_each` and `branch` walk their nested steps through `runSequence`.

The loops of a leaf's attempts and of a parked step's polls have no bound of their own; they
get one here (`Deps.rounds`), and a driver that used it up hangs for good.
-/

namespace InvisibleString.Pipeline

open EventLoop Json
open Tailer (RunStatus)

structure PipelineRunnerConfig where
  maxWallClockMs : Nat
  maxExecutedStepsPerRun : Nat
  maxStepOutputBytes : Nat

structure Deps where
  surfaces : Surfaces
  /-- the kinds an executor is registered for -/
  executors : StepKind → Bool
  config : PipelineRunnerConfig
  rounds : Nat

/-- The part of `DriveCtx` that does not change during a drive. -/
structure DriveCtx extends Deps where
  deadlineMs : Nat
  /-- resume only: the paths a former driver claimed -/
  priorLedgerPaths : Option (List JsString)

inductive StepResult where
  | ok
  | filtered
  | failed (error errorClass : JsString)
  | canceled

inductive SequenceOutcome where
  | completed
  | filtered
  | halted (error errorClass : JsString)
  | canceled

/-- How a function of the walk ends: its result, and `scope.steps` as it leaves them. -/
abbrev Walked (R : Type) := R × ScopeSteps

/-! ## Statements -/

def now : DriverProc Nat := await .now

def note (deed : Deed) : DriverProc Unit := await (.note deed)

def announce (announcement : Announcement) : DriverProc Unit := await (.announce announcement)

def hang {α : Type} : DriverProc α := do
  let e ← (await .hang : DriverProc Empty)
  e.elim

def markRun (status : RunStatus) (error : Option JsString) (startedAt : Option Nat) :
    DriverProc Bool :=
  await (.markRun ⟨status, error, startedAt⟩)

def publishRunStatus (status : RunStatus) (error : Option JsString) : DriverProc Unit :=
  announce (.published (.status status error))

/-- `createPipelineEventAppender`'s `emit`: the seq is claimed before the append. -/
def emit (event : PipelineStreamEvent) : DriverProc Unit := do
  let m ← Proc.read
  Proc.update fun m => { m with seq := m.seq + 1 }
  await (.appendEvent m.seq event)
  announce (.published (.event m.seq event))

def finish (path : JsString) (patch : FinishStepPatch) : DriverProc Unit :=
  await (.finish path patch)

def markRunning (path : JsString) (attempt : Nat) : DriverProc Unit :=
  await (.markRunning path attempt)

/-- `dctx.executed += 1`. -/
def countExecuted (path : JsString) : DriverProc Unit := do
  Proc.update fun m => { m with executed := m.executed + 1 }
  note (.executed path)

/-! ## One step -/

/-- The fields of a step the driver itself reads. -/
structure StepInfo where
  base : PipelineStepBase
  kind : StepKind

def PipelineStep.info (step : PipelineStep) : StepInfo := ⟨step.base, step.kind⟩

def LeafStep.info (step : LeafStep) : StepInfo := ⟨step.base, step.kind⟩

def StepInfo.ref (step : StepInfo) (path : JsString) : StepRef :=
  ⟨step.base.id, step.base.slug, step.kind, path⟩

def claim (step : StepInfo) (path : JsString) (parent : Option StepParentFrame)
    (input : Option JsonValue) : DriverProc (Bool × RunStepRow) :=
  await (.claim
    { stepId := step.base.id, stepSlug := step.base.slug, path := path,
      parentPath := parent.map StepParentFrame.path,
      iteration := parent.bind StepParentFrame.iteration, kind := step.kind,
      status := .running, input := input })

def extendScope (steps : ScopeSteps) (step : StepInfo) (output : JsonRecord) : ScopeSteps :=
  if step.base.slug = [] then steps else OrderedMap.set step.base.slug output steps

def emitStarted (step : StepInfo) (path : JsString) (attempt : Nat)
    (childRunId : Option JsString) : DriverProc Unit :=
  emit (.stepStarted (step.ref path) attempt childRunId)

def finishFailed (step : StepInfo) (path : JsString) (attempt : Nat)
    (errorClass error : JsString) : DriverProc StepResult := do
  finish path ⟨.failed, none, some error, some errorClass⟩
  emit (.stepFailed (step.ref path) attempt errorClass error false)
  return .failed error errorClass

/-- The scope's steps with the output. -/
def finishSucceeded (step : StepInfo) (path : JsString) (steps : ScopeSteps)
    (output : JsonRecord) : DriverProc ScopeSteps := do
  finish path ⟨.succeeded, some output, none, none⟩
  emit (.stepCompleted (step.ref path) .succeeded)
  return extendScope steps step output

def finishCanceled (path : JsString) : DriverProc Unit :=
  finish path ⟨.canceled, none, none, none⟩

/-- Interruptible pause. -/
def pause : DriverProc Unit := do
  let m ← Proc.read
  if m.cancelRequested || m.interrupted then return ()
  else await .pause

/-! ## Adoption -/

def backfillTerminalStepEvent (row : RunStepRow) (step : StepInfo) (path : JsString) :
    DriverProc Unit := do
  let m ← Proc.read
  match m.priorTerminalEventPaths with
  | none => return ()
  | some seen =>
    if path ∈ seen then return ()
    else do
      Proc.update fun m => { m with priorTerminalEventPaths := some (path :: seen) }
      match row.status with
      | .succeeded | .skipped => emit (.stepCompleted (step.ref path) row.status)
      | .failed =>
        emit (.stepFailed (step.ref path) row.attempt (row.errorClass.getD (ascii "failed"))
          (row.error.getD (ascii "step failed")) false)
      | _ => return ()

/-- `none` where the row is not terminal and the caller resumes it. -/
def adoptTerminal (row : RunStepRow) (step : StepInfo) (path : JsString) (steps : ScopeSteps) :
    DriverProc (Option (Walked StepResult)) :=
  match row.status with
  | .succeeded => do
    backfillTerminalStepEvent row step path
    return some (.ok, extendScope steps step (row.output.getD []))
  | .skipped => do
    backfillTerminalStepEvent row step path
    return some (.ok, steps)
  | .failed => do
    backfillTerminalStepEvent row step path
    return some (.failed (row.error.getD (ascii "step failed"))
      (row.errorClass.getD (ascii "failed")), steps)
  -- a canceled step has no event of its own
  | .canceled => return some (.canceled, steps)
  | .pending | .running | .waiting => return none

/-! ## Filter and state -/

/-- The row records that a filter fenced the rest off. -/
def RunStepRow.fences (row : RunStepRow) : Bool :=
  row.status = .succeeded &&
    row.output.bind (OrderedMap.get? (ascii "matched")) matches some (.bool false)

def executeFilter (d : DriveCtx) (step : FilterStep) (path : JsString)
    (parent : Option StepParentFrame) (scope : StepScope) :
    DriverProc (Walked StepResult) := do
  let info := (PipelineStep.filter step).info
  let c ← claim info path parent none
  let adopted ← (if c.1 then pure none else adoptTerminal c.2 info path scope.steps)
  match adopted with
  | some (.ok, steps) =>
    -- an adopted decision keeps fencing on replay
    if c.2.fences then return (.filtered, steps)
    else return (.ok, steps)
  | some result => return result
  | none => do
    let attempt := if c.1 then 1 else c.2.attempt + 1
    (if c.1 then pure () else markRunning path attempt)
    countExecuted path
    emitStarted info path attempt none
    let m ← Proc.read
    match d.surfaces.evaluateCondition step.condition (scope.withState m.state) with
    | .error error => do
      let result ← finishFailed info path attempt (ascii "condition_error") error
      return (result, scope.steps)
    | .ok matched => do
      let steps ← finishSucceeded info path scope.steps [(ascii "matched", .bool matched)]
      return (if matched then .ok else .filtered, steps)

/-- `input.set` of a row a `state` step claimed. -/
def persistedSet (row : RunStepRow) : Option JsonRecord :=
  match row.input.bind (member? (ascii "set")) with
  | some (.obj entries) => some entries
  | _ => none

def valueTooLarge (d : DriveCtx) (value : JsonValue) : Bool :=
  match d.surfaces.serializedByteLength value with
  | none => true
  | some bytes => workflowStateMaxValueBytes < bytes

def executeState (d : DriveCtx) (step : StateStep) (path : JsString)
    (parent : Option StepParentFrame) (scope : StepScope) :
    DriverProc (Walked StepResult) := do
  let info := (PipelineStep.state step).info
  let m ← Proc.read
  let rendered := d.surfaces.renderTemplateRecord step.set (scope.withState m.state)
  let c ← claim info path parent (some (.obj [(ascii "set", .obj rendered)]))
  let adopted ← (if c.1 then pure none else adoptTerminal c.2 info path scope.steps)
  match adopted with
  | some (.ok, steps) => do
    -- the write was durable: fold the persisted values back into the scope
    Proc.update fun m => { m with state := assign m.state ((persistedSet c.2).getD []) }
    return (.ok, steps)
  | some result => return result
  | none => do
    let entries := if c.1 then rendered else (persistedSet c.2).getD rendered
    let attempt := if c.1 then 1 else c.2.attempt + 1
    (if c.1 then pure () else markRunning path attempt)
    countExecuted path
    emitStarted info path attempt none
    match entries.find? fun e => valueTooLarge d e.2 with
    | some (key, _) => do
      let result ← finishFailed info path attempt (ascii "state_value_too_large")
        (ascii "state value \"" ++ key ++ ascii "\" exceeds " ++
          printNat workflowStateMaxValueBytes ++ ascii " bytes (or is unserializable)")
      return (result, scope.steps)
    | none => do
      let written ← Proc.attempt (await (.setState entries) : DriverProc Unit)
      match written with
      | .error .workflowStateCap => do
        let result ← finishFailed info path attempt (ascii "state_cap_exceeded")
          (ascii "workflow state would exceed " ++ printNat workflowStateMaxKeys ++
            ascii " keys")
        return (result, scope.steps)
      | .error error => throw error
      | .ok () => do
        Proc.update fun m => { m with state := assign m.state entries }
        let keys := entries.map Prod.fst
        emit (.stateUpdated step.id path keys)
        let steps ← finishSucceeded info path scope.steps [(ascii "keys", .arr (keys.map .str))]
        return (.ok, steps)

/-! ## Leaf steps -/

/-- The decreed shape of a leaf's input. -/
def renderLeafInput (d : DriveCtx) (step : LeafStep) (scope : PipelineScope) : JsonValue :=
  match step with
  | .tool step => .obj [(ascii "args", .obj (d.surfaces.renderTemplateRecord step.args scope))]
  | .infer step =>
    .obj [(ascii "prompt", .str (d.surfaces.renderMarkdownTemplate step.prompt scope))]
  | .agent step =>
    .obj [(ascii "instructions",
      .str (d.surfaces.renderMarkdownTemplate step.instructions scope))]

def attemptBudget : LeafStep → Nat
  | .tool step => step.maxAttempts.getD 3
  | .infer _ | .agent _ => 2

def defaultToolStepTimeoutMs : Nat := 60000

def defaultInferStepTimeoutMs : Nat := 120000

def stepAttemptTimeoutMs : LeafStep → Option Nat
  | .tool step => some (step.timeoutMs.getD defaultToolStepTimeoutMs)
  | .infer _ => some defaultInferStepTimeoutMs
  | .agent _ => none

inductive AttemptOutcome where
  | outcome (outcome : StepOutcome)
  | canceled
  | interrupted

/-- The name of a leaf's kind in the source. -/
def LeafStep.kindText : LeafStep → JsString
  | .tool _ => ascii "tool"
  | .infer _ => ascii "infer"
  | .agent _ => ascii "agent"

/-- One executor attempt under timeout and cancellation. -/
def runAttempt (d : DriveCtx) (call : Invocation) (remainingMs : Nat) :
    DriverProc AttemptOutcome :=
  if d.executors call.step.kind = false then
    return .outcome (.failed (ascii "executor_unavailable")
      (ascii "no executor registered for \"" ++ call.step.kindText ++ ascii "\" steps") false)
  else do
    await (.invoke call)
    let raced ← (await (.outcome call) : DriverProc Raced)
    let m ← Proc.read
    match raced with
    | .aborted =>
      if m.interrupted then return .interrupted
      else if m.cancelRequested then return .canceled
      else
        let timeoutMs := ((stepAttemptTimeoutMs call.step).map (min · remainingMs)).getD remainingMs
        return .outcome (.failed (ascii "timeout")
          (ascii "step attempt timed out after " ++ printNat timeoutMs ++ ascii "ms")
          -- a child turn that timed out is not retried
          (call.step.kind ≠ .agent))
    | .settled (.succeeded output) =>
      if m.interrupted then return .interrupted
      else return .outcome (.succeeded output)
    | .settled outcome =>
      if m.interrupted then return .interrupted
      else if m.cancelRequested then return .canceled
      else return .outcome outcome

inductive Parked where
  | resumed
  | canceled
  | interrupted
  | missing

def pollChild (childRunId : JsString) : Nat → DriverProc Parked
  | 0 => hang
  | rounds + 1 => do
    let m ← Proc.read
    if m.interrupted then return .interrupted
    else if m.cancelRequested then return .canceled
    else do
      let status ← (await (.getRunStatus childRunId) : DriverProc (Option RunStatus))
      match status with
      | none => return .missing
      | some .waiting => do
        await .pause
        pollChild childRunId rounds
      | some _ => return .resumed

def parkOnChild (d : DriveCtx) (step : StepInfo) (path childRunId : JsString) :
    DriverProc Parked := do
  await (.markWaiting path childRunId)
  emit (.stepWaiting step.base.id step.base.slug path childRunId)
  let _ ← markRun .waiting none none
  publishRunStatus .waiting none
  let parked ← Proc.attempt (pollChild childRunId d.rounds)
  -- finally
  let resumed ← markRun .running none none
  (if resumed then publishRunStatus .running none else pure ())
  match parked with
  | .ok parked => return parked
  | .error error => throw error

def outputTooLarge (d : DriveCtx) (output : JsonRecord) : Bool :=
  match d.surfaces.serializedByteLength (.obj output) with
  | none => true
  | some bytes => d.config.maxStepOutputBytes < bytes

/-- The attempts of one leaf instance, in this driver. -/
def attempts (d : DriveCtx) (step : LeafStep) (path : JsString) (input : JsonValue)
    (scope : StepScope) (budget : Nat) :
    Nat → Nat → Option JsString → DriverProc (Walked StepResult)
  | 0, _, _ => hang
  | rounds + 1, attempt, childRunId => do
    let m ← Proc.read
    if m.interrupted then return (.canceled, scope.steps)
    else if m.cancelRequested then do
      finishCanceled path
      return (.canceled, scope.steps)
    else do
    let t ← now
    if d.deadlineMs ≤ t then do
      note (.halted path .wallClock)
      let result ← finishFailed step.info path attempt (ascii "wall_clock_exceeded")
        (ascii "pipeline wall clock exhausted before the step could run")
      return (result, scope.steps)
    else do
    emitStarted step.info path attempt childRunId
    let outcome ← runAttempt d ⟨step, path, input, attempt, childRunId, scope.item⟩
      (d.deadlineMs - t)
    match outcome with
    | .interrupted => return (.canceled, scope.steps)
    | .canceled => do
      finishCanceled path
      return (.canceled, scope.steps)
    | .outcome (.waiting child) => do
      let parked ← parkOnChild d step.info path child
      match parked with
      | .interrupted => return (.canceled, scope.steps)
      | .canceled => do
        finishCanceled path
        return (.canceled, scope.steps)
      | .missing => do
        let result ← finishFailed step.info path attempt (ascii "child_run_missing")
          (ascii "the agent step's child run disappeared while parked")
        return (result, scope.steps)
      | .resumed => do
        markRunning path attempt
        attempts d step path input scope budget rounds attempt (some child)
    | .outcome (.succeeded output) =>
      if outputTooLarge d output then do
        let result ← finishFailed step.info path attempt (ascii "output_too_large")
          (ascii "step output exceeds " ++ printNat d.config.maxStepOutputBytes ++
            ascii " bytes (or is unserializable)")
        return (result, scope.steps)
      else do
        let steps ← finishSucceeded step.info path scope.steps output
        return (.ok, steps)
    | .outcome (.failed errorClass error retryable) => do
      let t ← now
      let m ← Proc.read
      let willRetry := retryable && decide (attempt < budget) && !m.cancelRequested &&
        decide (t < d.deadlineMs)
      emit (.stepFailed (step.info.ref path) attempt errorClass error willRetry)
      if willRetry then do
        pause
        markRunning path (attempt + 1)
        attempts d step path input scope budget rounds (attempt + 1) childRunId
      else do
        finish path ⟨.failed, none, some error, some errorClass⟩
        return (.failed error errorClass, scope.steps)

def executeLeaf (d : DriveCtx) (step : LeafStep) (path : JsString)
    (parent : Option StepParentFrame) (scope : StepScope) :
    DriverProc (Walked StepResult) := do
  let m ← Proc.read
  let rendered := renderLeafInput d step (scope.withState m.state)
  let c ← claim step.info path parent (some rendered)
  -- a resumed row keeps its persisted input
  let input := if c.1 then rendered else c.2.input.getD rendered
  let adopted ← (if c.1 then pure none else adoptTerminal c.2 step.info path scope.steps)
  match adopted with
  | some result => return result
  | none =>
    if !c.1 && c.2.status ≠ .waiting && step.atMostOnce then do
      -- the side effect may or may not have happened
      emitStarted step.info path c.2.attempt none
      let result ← finishFailed step.info path c.2.attempt (ascii "interrupted")
        (ascii "interrupted by a control-plane restart mid-execution (sideEffect \"at_most_once\" forbids the retry)")
      return (result, scope.steps)
    else do
      -- a parked step is re-attached under the attempt it parked in
      let attempt := if c.1 then 1 else if c.2.status = .waiting then c.2.attempt
        else c.2.attempt + 1
      let childRunId := if c.1 then none else c.2.childRunId
      (if c.1 then pure () else markRunning path attempt)
      countExecuted path
      attempts d step path input scope (max (attemptBudget step) attempt) d.rounds attempt
        childRunId

/-! ## Containers -/

/-- The nested steps of a container, to be walked in a scope and under a frame. -/
abbrev SequenceRunner := StepScope → StepParentFrame → DriverProc (Walked SequenceOutcome)

inductive Lane where
  | index (i : Nat)
  | otherwise

def Lane.json : Option Lane → JsonValue
  | none => .null
  | some (.index i) => natural i
  | some .otherwise => .str (ascii "else")

def readBranchLane (output : Option JsonRecord) (branches : Nat) (hasElse : Bool) :
    Option Lane :=
  match output.bind (OrderedMap.get? (ascii "lane")) with
  | some (.str s) => if s = ascii "else" ∧ hasElse then some .otherwise else none
  | some v => (natural? v).bind fun i => if i < branches then some (.index i) else none
  | none => none

/-- The first branch whose condition holds. -/
def chooseLane (d : DriveCtx) (scope : PipelineScope) (hasElse : Bool) :
    List PipelineCondition → Nat → Except JsString (Option Lane)
  | [], _ => .ok (if hasElse then some .otherwise else none)
  | when_ :: rest, i => do
    if ← d.surfaces.evaluateCondition when_ scope then return some (.index i)
    else chooseLane d scope hasElse rest (i + 1)

/-- What a branch makes of the end of its lane. -/
def SequenceOutcome.result : SequenceOutcome → StepResult
  | .completed => .ok
  | .filtered => .filtered
  | .halted error errorClass => .failed error errorClass
  | .canceled => .canceled

/-- The runner of a lane. -/
def laneRunner (branches : List (PipelineCondition × SequenceRunner))
    (otherwise : Option SequenceRunner) : Option Lane → Option SequenceRunner
  | none => none
  | some (.index i) => (branches[i]?).map Prod.snd
  | some .otherwise => otherwise

/-- Walk the chosen lane, under the branch's own scope. -/
def runLane (branches : List (PipelineCondition × SequenceRunner))
    (otherwise : Option SequenceRunner) (path : JsString) (scope : StepScope)
    (lane : Option Lane) : DriverProc (Walked StepResult) :=
  match laneRunner branches otherwise lane with
  | none => return (.ok, scope.steps)
  | some run => do
    let outcome ← run scope ⟨path, none⟩
    return (outcome.1.result, outcome.2)

def executeBranch (d : DriveCtx) (base : PipelineStepBase)
    (branches : List (PipelineCondition × SequenceRunner)) (otherwise : Option SequenceRunner)
    (path : JsString) (parent : Option StepParentFrame) (scope : StepScope) :
    DriverProc (Walked StepResult) := do
  let info : StepInfo := ⟨base, .branch⟩
  let c ← claim info path parent none
  if !c.1 && c.2.status = .succeeded then do
    -- the decision is on record: descend into the chosen lane again
    backfillTerminalStepEvent c.2 info path
    let steps := extendScope scope.steps info (c.2.output.getD [])
    runLane branches otherwise path { scope with steps := steps }
      (readBranchLane c.2.output branches.length otherwise.isSome)
  else do
    let adopted ← (if c.1 then pure none else adoptTerminal c.2 info path scope.steps)
    match adopted with
    | some result => return result
    | none => do
      let attempt := if c.1 then 1 else c.2.attempt + 1
      (if c.1 then pure () else markRunning path attempt)
      countExecuted path
      emitStarted info path attempt none
      let m ← Proc.read
      match chooseLane d (scope.withState m.state) otherwise.isSome (branches.map Prod.fst) 0 with
      | .error error => do
        let result ← finishFailed info path attempt (ascii "condition_error") error
        return (result, scope.steps)
      | .ok lane => do
        let steps ← finishSucceeded info path scope.steps [(ascii "lane", Lane.json lane)]
        runLane branches otherwise path { scope with steps := steps } lane

/-- Why a loop cannot run. -/
inductive Verdict where
  | itemsNotArray
  | fanOutExceeded
  deriving DecidableEq

def Verdict.text : Verdict → JsString
  | .itemsNotArray => ascii "items_not_array"
  | .fanOutExceeded => ascii "fan_out_exceeded"

/-- What a loop works from: the items where they are an array, the verdict, the count it
reports. -/
structure Resolution where
  items : Option (List JsonValue)
  verdict : Option Verdict
  count : Option Nat

def asArray : Option JsonValue → Option (List JsonValue)
  | some (.arr items) => some items
  | _ => none

/-- The fresh resolution of the items expression. -/
def resolveItems (step : ForEachStep) (resolved : Option JsonValue) : Resolution :=
  match asArray resolved with
  | none => ⟨none, some .itemsNotArray, none⟩
  | some items =>
    ⟨some items, if step.maxItems < items.length then some .fanOutExceeded else none,
      some items.length⟩

/-- What the loop's row records of a resolution. -/
def Resolution.input (r : Resolution) (step : ForEachStep) : JsonValue :=
  .obj ([(ascii "itemsRef", .str step.itemsRef),
      (ascii "count", (r.count.map natural).getD .null)] ++
    match r.verdict with
    | none => [(ascii "items", .arr (r.items.getD []))]
    | some verdict => [(ascii "verdict", .str verdict.text)])

/-- The recorded resolution wins over a fresh one. -/
def Resolution.recorded (fresh : Resolution) (input : Option JsonValue) : Resolution :=
  match asArray (input.bind (member? (ascii "items"))) with
  | some items => ⟨some items, none, fresh.count⟩
  | none =>
    match input.bind (member? (ascii "verdict")) with
    | some (.str s) =>
      let count := (input.bind (member? (ascii "count"))).bind natural?
      if s = Verdict.itemsNotArray.text then ⟨fresh.items, some .itemsNotArray, count⟩
      else if s = Verdict.fanOutExceeded.text then ⟨fresh.items, some .fanOutExceeded, count⟩
      else fresh
    | _ => fresh

/-- The text a loop that is over its `maxItems` fails with. -/
def fanOutText (count : Option Nat) (maxItems : Nat) : JsString :=
  ascii "for_each resolved " ++ (count.map printNat).getD (ascii "more than maxItems") ++
    ascii " items, over its maxItems of " ++ printNat maxItems

/-- The items to loop over, or the class and the text the loop fails with. -/
def Resolution.plan (r : Resolution) (step : ForEachStep) :
    Except (JsString × JsString) (List JsonValue) :=
  let notArray := (Verdict.itemsNotArray.text,
    ascii "for_each items (" ++ step.itemsRef ++ ascii ") did not resolve to an array")
  match r.verdict with
  | some .itemsNotArray => .error notArray
  | some .fanOutExceeded =>
    .error (Verdict.fanOutExceeded.text,
      fanOutText (r.count <|> r.items.map List.length) step.maxItems)
  | none =>
    match r.items with
    | none => .error notArray
    | some items =>
      if step.maxItems < items.length then
        .error (Verdict.fanOutExceeded.text, fanOutText (some items.length) step.maxItems)
      else .ok items

inductive ItemStatus where
  | succeeded
  | failed
  | skipped
  deriving DecidableEq

def ItemStatus.text : ItemStatus → JsString
  | .succeeded => ascii "succeeded"
  | .failed => ascii "failed"
  | .skipped => ascii "skipped"

structure ItemRecord where
  index : Nat
  status : ItemStatus
  /-- `error` and `errorClass` -/
  failure : Option (JsString × JsString)

def ItemRecord.json (r : ItemRecord) : JsonValue :=
  .obj ([(ascii "index", natural r.index), (ascii "status", .str r.status.text)] ++
    match r.failure with
    | none => []
    | some (error, errorClass) =>
      [(ascii "error", .str error), (ascii "errorClass", .str errorClass)])

def countStatus (records : List ItemRecord) (status : ItemStatus) : Nat :=
  (records.filter fun r => r.status = status).length

/-- The loop's output. -/
def aggregate (items : List JsonValue) (records : List ItemRecord) : JsonRecord :=
  [(ascii "total", natural items.length),
    (ascii "succeeded", natural (countStatus records .succeeded)),
    (ascii "failed", natural (countStatus records .failed)),
    (ascii "skipped", natural (countStatus records .skipped)),
    (ascii "items", .arr (records.map ItemRecord.json))]

/-- The items from `index` on; the records, or the result the loop ends with at once. -/
def runItems (step : ForEachStep) (body : SequenceRunner) (path : JsString) (attempt : Nat)
    (scope : StepScope) :
    List JsonValue → Nat → List ItemRecord → DriverProc (Except StepResult (List ItemRecord))
  | [], _, records => return .ok records
  | item :: items, index, records => do
    let m ← Proc.read
    if m.interrupted then return .error .canceled
    else if m.cancelRequested then do
      finishCanceled path
      return .error .canceled
    else do
    note (.item path index item scope.steps)
    -- each item sees the loop's scope and its own body outputs
    let outcome ← body { scope with item := some item } ⟨path, some index⟩
    match outcome.1 with
    | .completed =>
      runItems step body path attempt scope items (index + 1)
        (records ++ [⟨index, .succeeded, none⟩])
    | .filtered =>
      runItems step body path attempt scope items (index + 1)
        (records ++ [⟨index, .skipped, none⟩])
    | .canceled => do
      let m ← Proc.read
      if m.interrupted then return .error .canceled
      else do
        finishCanceled path
        return .error .canceled
    | .halted error errorClass =>
      match step.onItemError with
      | .halt => do
        let result ← finishFailed (PipelineStep.forEach step []).info path attempt errorClass
          (ascii "item " ++ printNat index ++ ascii " failed: " ++ error)
        return .error result
      | .continue =>
        runItems step body path attempt scope items (index + 1)
          (records ++ [⟨index, .failed, some (error, errorClass)⟩])

def executeForEach (d : DriveCtx) (step : ForEachStep) (body : SequenceRunner)
    (path : JsString) (parent : Option StepParentFrame) (scope : StepScope) :
    DriverProc (Walked StepResult) := do
  let info := (PipelineStep.forEach step []).info
  let m ← Proc.read
  let fresh := resolveItems step
    (d.surfaces.resolveScopePath (scope.withState m.state) step.itemsRef)
  let c ← claim info path parent (some (fresh.input step))
  let adopted ← (if c.1 then pure none else adoptTerminal c.2 info path scope.steps)
  match adopted with
  | some result => return result
  | none => do
    let resolution := if c.1 then fresh else fresh.recorded c.2.input
    let attempt := if c.1 then 1 else c.2.attempt + 1
    (if c.1 then pure () else markRunning path attempt)
    countExecuted path
    emitStarted info path attempt none
    match resolution.plan step with
    | .error (errorClass, error) => do
      let result ← finishFailed info path attempt errorClass error
      return (result, scope.steps)
    | .ok items => do
      let looped ← runItems step body path attempt scope items 0 []
      match looped with
      | .error result => return (result, scope.steps)
      | .ok records => do
        let steps ← finishSucceeded info path scope.steps (aggregate items records)
        return (.ok, steps)

/-! ## Sequences -/

/-- Ledger rows and events for the steps a top-level filter fenced off. -/
def skipRemaining (parent : Option StepParentFrame) : List PipelineStep → DriverProc Unit
  | [] => return ()
  | step :: rest => do
    let path := stepInstancePath parent step.id
    let c ← (await (.claim
      { stepId := step.id, stepSlug := step.base.slug, path := path,
        parentPath := parent.map StepParentFrame.path,
        iteration := parent.bind StepParentFrame.iteration, kind := step.kind,
        status := .skipped, input := none }) : DriverProc (Bool × RunStepRow))
    (if c.1 then emit (.stepCompleted (step.info.ref path) .skipped)
      else backfillTerminalStepEvent c.2 step.info path)
    skipRemaining parent rest

def wallClockText (d : DriveCtx) : JsString :=
  ascii "pipeline exceeded its wall clock (" ++ printNat d.config.maxWallClockMs ++ ascii "ms)"

def stepBudgetText (d : DriveCtx) : JsString :=
  ascii "pipeline exceeded " ++ printNat d.config.maxExecutedStepsPerRun ++
    ascii " executed step instances"

mutual

def runSequence (d : DriveCtx) :
    List PipelineStep → StepScope → Option StepParentFrame → DriverProc (Walked SequenceOutcome)
  | [], scope, _ => return (.completed, scope.steps)
  | step :: rest, scope, parent => do
    let m ← Proc.read
    if m.interrupted || m.cancelRequested then return (.canceled, scope.steps)
    else do
    let t ← now
    let path := stepInstancePath parent step.id
    if d.deadlineMs < t then do
      note (.halted path .wallClock)
      return (.halted (wallClockText d) (ascii "wall_clock_exceeded"), scope.steps)
    else do
    let m ← Proc.read
    -- a path of the ledger is a replay, which the budget admitted already
    if d.config.maxExecutedStepsPerRun ≤ m.executed ∧
        path ∉ d.priorLedgerPaths.getD [] then do
      note (.halted path .stepBudget)
      return (.halted (stepBudgetText d) (ascii "step_budget_exceeded"), scope.steps)
    else do
    let result ← executeStep d step path parent scope
    match result with
    | (.ok, steps) => runSequence d rest { scope with steps := steps } parent
    | (.filtered, steps) => do
      -- at the top level the fenced steps become visible; a nested frame hands it on
      (if parent.isNone then skipRemaining parent rest else pure ())
      return (.filtered, steps)
    | (.failed error errorClass, steps) => return (.halted error errorClass, steps)
    | (.canceled, steps) => return (.canceled, steps)

def executeStep (d : DriveCtx) :
    PipelineStep → JsString → Option StepParentFrame → StepScope →
      DriverProc (Walked StepResult)
  | .leaf step, path, parent, scope => executeLeaf d step path parent scope
  | .filter step, path, parent, scope => executeFilter d step path parent scope
  | .state step, path, parent, scope => executeState d step path parent scope
  | .branch base branches otherwise, path, parent, scope =>
    executeBranch d base (branchRunners d branches) (elseRunner d otherwise) path parent scope
  | .forEach step steps, path, parent, scope =>
    executeForEach d step (fun scope frame => runSequence d steps scope (some frame)) path
      parent scope

def branchRunners (d : DriveCtx) :
    List (PipelineCondition × List PipelineStep) → List (PipelineCondition × SequenceRunner)
  | [] => []
  | (when_, steps) :: rest =>
    (when_, fun scope frame => runSequence d steps scope (some frame)) :: branchRunners d rest

def elseRunner (d : DriveCtx) : Option (List PipelineStep) → Option SequenceRunner
  | none => none
  | some steps => some fun scope frame => runSequence d steps scope (some frame)

end

/-! ## The driver -/

def runStatusOf : SequenceOutcome → RunStatus × Option JsString
  | .canceled => (.canceled, none)
  | .halted error _ => (.failed, some error)
  | .completed | .filtered => (.succeeded, none)

/-- `deliverOnComplete`: the template against the final scope of a run that succeeded. -/
def deliverOnComplete (d : Deps) (config : WorkflowConfig) (scope : Option PipelineScope)
    (status : RunStatus) : DriverProc Unit :=
  match config.slackReply with
  | none => return ()
  | some template =>
    announce (.delivered status
      (match scope with
        | some scope =>
          if status = .succeeded then some (d.surfaces.renderMarkdownTemplate template scope)
          else none
        | none => none))

def settle (d : Deps) (config : WorkflowConfig) (status : RunStatus) (error : Option JsString)
    (scope : StepScope) : DriverProc Unit := do
  let _ ← markRun status error none
  -- the row is truth; a lost completion event is only cosmetic
  let _ ← Proc.attempt (emit (.completed status))
  publishRunStatus status error
  let m ← Proc.read
  deliverOnComplete d config (some (scope.withState m.state)) status

def failOutright (error : JsString) : DriverProc Unit := do
  let _ ← markRun .failed (some error) none
  publishRunStatus .failed (some error)
  announce (.delivered .failed none)

def loadTerminalStepEventPaths : DriverProc (List JsString) := do
  let stored ← (await .listEvents : DriverProc (List StoredEvent))
  return stored.filterMap fun e => e.event.terminalPath?

/-- The statuses whose rows the budget is seeded with. -/
def RunStepStatus.seeded : RunStepStatus → Bool
  | .succeeded | .failed | .canceled => true
  | .pending | .running | .waiting | .skipped => false

/-- Resume only: the budget's seed and the paths of the ledger and of the terminal events. -/
def seedFromLedger : DriverProc (Option (List JsString)) := do
  let ledger ← (await .listForRun : DriverProc Ledger)
  Proc.update fun m => { m with executed := (ledger.filter fun r => r.status.seeded).length }
  let seen ← loadTerminalStepEventPaths
  Proc.update fun m => { m with priorTerminalEventPaths := some seen }
  return some ledger.paths

/-- The `try` block of `drive`. -/
def driveRun (d : Deps) (run : RunRow) (config : WorkflowConfig) : DriverProc Unit := do
  if run.organizationId.isNone || run.workflowId.isNone then
    failOutright (ascii "pipeline run row is missing its workflow/workspace scope")
  else do
  let baseSeq ← (await .countRunEvents : DriverProc Nat)
  Proc.update fun m => { m with seq := baseSeq }
  -- a resumed driver keeps the original started_at
  let startedAt ← run.startedAt.elim now pure
  let live ← markRun .running none (if run.startedAt.isSome then none else some startedAt)
  if !live then return ()
  else do
  publishRunStatus .running none
  (if baseSeq = 0 then emit (.started config.steps.length) else pure ())
  let state ← (await .snapshot : DriverProc JsonRecord)
  Proc.update fun m => { m with state := state }
  let prior ← (if baseSeq = 0 then pure none else seedFromLedger)
  let dctx : DriveCtx := { d with
    deadlineMs := startedAt + d.config.maxWallClockMs
    priorLedgerPaths := prior }
  let scope : StepScope := ⟨run.triggerData, [], none, startedAt⟩
  let outcome ← runSequence dctx config.steps scope none
  let m ← Proc.read
  if m.interrupted then return ()
  else
    settle d config (runStatusOf outcome.1).1 (runStatusOf outcome.1).2
      { scope with steps := outcome.2 }

def DriverError.text : DriverError → JsString
  | .workflowStateCap =>
    ascii "WorkflowStateCapError: workflow state would exceed " ++
      printNat workflowStateMaxKeys ++ ascii " keys"
  | .failed message => message

/-- The `catch` block of `drive`. -/
def failDrive (d : Deps) (config : WorkflowConfig) (error : DriverError) : DriverProc Unit := do
  let m ← Proc.read
  if m.interrupted then return ()
  else do
    let _ ← Proc.attempt do
      let _ ← markRun .failed (some error.text) none
      publishRunStatus .failed (some error.text)
      deliverOnComplete d config none .failed
    return ()

/-- `drive`, up to the handle and the lock its `finally` gives back. -/
def drive (d : Deps) (run : RunRow) (config : WorkflowConfig) : DriverProc Unit :=
  Proc.handle (driveRun d run config) (failDrive d config)

end InvisibleString.Pipeline
