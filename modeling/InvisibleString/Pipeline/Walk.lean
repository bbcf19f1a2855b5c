import InvisibleString.Pipeline.Runner

/- # `Pipeline.Walk` — the walk of a driver, as its trail shows it

`Walks` says what a driver may leave on the trail when it works off a job: a list of steps,
one step, the items of a loop, the steps a filter fenced off.  It forgets what the driver
tells others and what it computes, and keeps the ledger, the log, the budget, the clock and
the flags.  A job that was cut short has the outcome `none`: that is what a crash leaves, or
a statement that failed.

**Proved here.**

    what a step leaves in its row is what the next driver adopts  (`Own.closed_row`)
    the decision of a branch reads back  (`readBranchLane_json`)
-/

namespace InvisibleString.Pipeline

open EventLoop Json Relation
open Tailer (RunStatus)

/-! ## What bears on the trail -/

/-- What of a driver and its surroundings bears on the trail. -/
structure Walker where
  trail : Trail
  executed : Nat
  clock : Nat
  interrupted : Bool
  cancelRequested : Bool
  /-- the run row's `started_at` -/
  startedAt : Option Nat
  /-- the run row says that the run succeeded -/
  succeeded : Bool
  /-- the run has events -/
  begun : Bool

def walker (m : DriveMemory) (w : World) : Walker :=
  ⟨w.toTrail, m.executed, w.clock, m.interrupted, m.cancelRequested, w.run.startedAt,
    w.run.status = .succeeded, !w.events.isEmpty⟩

namespace Walker

def onTrail (σ : Walker) (f : Trail → Trail) : Walker := { σ with trail := f σ.trail }

/-- `dctx.executed += 1`. -/
def count (σ : Walker) : Walker := { σ with executed := σ.executed + 1 }

end Walker

/-- Nothing happened to the trail; time may have passed and flags may have been raised. -/
structure Idle (σ σ' : Walker) : Prop where
  trail : σ'.trail = σ.trail
  executed : σ'.executed = σ.executed
  clock : σ.clock ≤ σ'.clock
  interrupted : σ.interrupted = true → σ'.interrupted = true
  cancelRequested : σ.cancelRequested = true → σ'.cancelRequested = true
  startedAt : σ'.startedAt = σ.startedAt
  succeeded : σ'.succeeded = σ.succeeded
  begun : σ.begun = true → σ'.begun = true

theorem Idle.refl (σ : Walker) : Idle σ σ :=
  ⟨rfl, rfl, Nat.le_refl _, id, id, rfl, rfl, id⟩

theorem Idle.trans {σ σ' σ'' : Walker} (h : Idle σ σ') (h' : Idle σ' σ'') : Idle σ σ'' :=
  ⟨h'.trail.trans h.trail, h'.executed.trans h.executed, h.clock.trans h'.clock,
    h'.interrupted ∘ h.interrupted, h'.cancelRequested ∘ h.cancelRequested,
    h'.startedAt.trans h.startedAt, h'.succeeded.trans h.succeeded, h'.begun ∘ h.begun⟩

theorem Idle.onTrail {σ σ' : Walker} (h : Idle σ σ') (f : Trail → Trail) :
    Idle (σ.onTrail f) (σ'.onTrail f) :=
  ⟨congrArg f h.trail, h.executed, h.clock, h.interrupted, h.cancelRequested, h.startedAt,
    h.succeeded, h.begun⟩

/-! ## Fates -/

/-- How a step, or a list of steps, ended. -/
inductive Fate where
  | ok
  | filtered
  | failed
  | canceled
  deriving DecidableEq

def StepResult.fate : StepResult → Fate
  | .ok => .ok
  | .filtered => .filtered
  | .failed _ _ => .failed
  | .canceled => .canceled

def SequenceOutcome.fate (outcome : SequenceOutcome) : Fate := outcome.result.fate

def RunStepStatus.fate? : RunStepStatus → Option Fate
  | .succeeded | .skipped => some .ok
  | .failed => some .failed
  | .canceled => some .canceled
  | .pending | .running | .waiting => none

/-- How a step that finds the row of its instance ends; `none` where the row is open. -/
def adoptedFate (s : PipelineStep) (row : RunStepRow) : Option Fate :=
  match s with
  | .filter _ => if row.fences then some .filtered else row.status.fate?
  | _ => row.status.fate?

/-! ## One instance -/

/-- The claim of an instance of `s` at `path`. -/
structure ClaimOf (s : PipelineStep) (path : JsString) (i : ClaimStepInput) : Prop where
  stepId : i.stepId = s.id
  kind : i.kind = s.kind
  path : i.path = path
  status : i.status = .running
  leaf : ∀ step, s = .leaf step → i.input ≠ none
  loop : ∀ head body, s = .forEach head body →
    ∃ resolved, i.input = some ((resolveItems head resolved).input head)

/-- The input an instance works with: what its row records, or what the driver claims. -/
def instanceInput (t : Trail) (i : ClaimStepInput) : Option JsonValue :=
  match t.steps.row? i.path with
  | none => i.input
  | some row => row.input <|> i.input

/-- A row left open by a tool call that must not be repeated. -/
def Interrupted (s : PipelineStep) (t : Trail) (path : JsString) : Prop :=
  ∃ step row, s = .leaf step ∧ step.atMostOnce = true ∧ t.steps.row? path = some row ∧
    row.status ≠ .waiting

/-- The patch ends an instance of `s` with `fate`, for this driver and for the next. -/
def Ends (s : PipelineStep) (fate : Fate) (patch : FinishStepPatch) : Prop :=
  patch.status.terminal = true ∧ (s.kind = .forEach → patch.status ≠ .succeeded) ∧
    ∀ row, adoptedFate s (patch.apply row) = some fate

/-- Where the work on one instance stands. -/
inductive Phase where
  | ready
  /-- the row is claimed, or was found open -/
  | taken
  /-- it is counted against the budget -/
  | counted
  /-- and this is on the log -/
  | busy
  /-- the wall clock refused the attempt -/
  | late
  | closed (fate : Fate)

/-- The work of one driver on one instance of `s`, from `σ₀` on. -/
inductive Own (d : DriveCtx) (s : PipelineStep) (i : ClaimStepInput) (σ₀ : Walker) :
    Phase → Walker → Prop
  | start : Own d s i σ₀ .ready σ₀
  | idle {phase σ σ'} (h : Own d s i σ₀ phase σ) (hi : Idle σ σ') : Own d s i σ₀ phase σ'
  | claimed {σ} (h : Own d s i σ₀ .ready σ) (hp : i.path ∉ σ.trail.steps.paths) :
      Own d s i σ₀ .taken (σ.onTrail (·.claim i))
  | found {σ row} (h : Own d s i σ₀ .ready σ) (hr : σ.trail.steps.row? i.path = some row)
      (ho : row.status.terminal = false) : Own d s i σ₀ .taken σ
  | adopted {σ row fate} (h : Own d s i σ₀ .ready σ)
      (hr : σ.trail.steps.row? i.path = some row) (hf : adoptedFate s row = some fate) :
      Own d s i σ₀ (.closed fate) σ
  | resumed {σ} (h : Own d s i σ₀ .taken σ) (attempt : Nat) :
      Own d s i σ₀ .taken (σ.onTrail (·.markRunning i.path attempt))
  | counted {σ} (h : Own d s i σ₀ .taken σ) (hn : ¬ Interrupted s σ₀.trail i.path) :
      Own d s i σ₀ .counted σ.count
  | charged {σ} (h : Own d s i σ₀ .counted σ) :
      Own d s i σ₀ .busy (σ.onTrail (·.record (.executed i.path)))
  | interrupted {σ error errorClass} (h : Own d s i σ₀ .taken σ)
      (hn : Interrupted s σ₀.trail i.path) :
      Own d s i σ₀ (.closed .failed)
        (σ.onTrail (·.finish i.path ⟨.failed, none, some error, some errorClass⟩))
  | invoked {σ} {call : Invocation} (h : Own d s i σ₀ .busy σ) (hs : s = .leaf call.step)
      (hp : call.path = i.path) (hx : instanceInput σ₀.trail i = some call.input)
      (hc : σ₀.clock < d.deadlineMs) :
      Own d s i σ₀ .busy (σ.onTrail (·.record (.invoked call)))
  | linked {σ} (h : Own d s i σ₀ .busy σ) (child : JsString) :
      Own d s i σ₀ .busy (σ.onTrail (·.linkChild i.path child))
  | parked {σ} (h : Own d s i σ₀ .busy σ) (hk : s.kind = .agent) (child : JsString) :
      Own d s i σ₀ .busy (σ.onTrail (·.markWaiting i.path child))
  | rerun {σ} (h : Own d s i σ₀ .busy σ) (attempt : Nat) :
      Own d s i σ₀ .busy (σ.onTrail (·.markRunning i.path attempt))
  | late {σ} (h : Own d s i σ₀ .busy σ) (hc : d.deadlineMs ≤ σ.clock) :
      Own d s i σ₀ .late (σ.onTrail (·.record (.halted i.path .wallClock)))
  | lateFailed {σ error errorClass} (h : Own d s i σ₀ .late σ) :
      Own d s i σ₀ (.closed .failed)
        (σ.onTrail (·.finish i.path ⟨.failed, none, some error, some errorClass⟩))
  | finished {σ fate patch} (h : Own d s i σ₀ .busy σ) (he : Ends s fate patch) :
      Own d s i σ₀ (.closed fate) (σ.onTrail (·.finish i.path patch))
  /-- the process is going down: the row stays open -/
  | left {σ} (h : Own d s i σ₀ .busy σ) (hi : σ.interrupted = true) :
      Own d s i σ₀ (.closed .canceled) σ

/-! ## Jobs -/

/-- The steps of a lane. -/
def laneSteps (branches : List (PipelineCondition × List PipelineStep))
    (otherwise : Option (List PipelineStep)) : Option Lane → List PipelineStep
  | none => []
  | some (.index i) => ((branches[i]?).map Prod.snd).getD []
  | some .otherwise => otherwise.getD []

/-- The loop at the claim goes through `items`. -/
def LoopPlan (head : ForEachStep) (i : ClaimStepInput) (t : Trail) (items : List JsonValue) :
    Prop :=
  ∃ resolved, i.input = some ((resolveItems head resolved).input head) ∧
    ((i.path ∉ t.steps.paths ∧ (resolveItems head resolved).plan head = .ok items) ∨
      ∃ row, t.steps.row? i.path = some row ∧
        ((resolveItems head resolved).recorded row.input).plan head = .ok items)

/-- The record of an item whose body ended so; `none` where the loop does not go on. -/
def ForEachStep.continues (head : ForEachStep) : Fate → ItemStatus → Prop
  | .ok, status => status = .succeeded
  | .filtered, status => status = .skipped
  | .failed, status => status = .failed ∧ head.onItemError = .continue
  | .canceled, _ => False

/-- A loop that is under way. -/
structure LoopRun where
  head : ForEachStep
  body : List PipelineStep
  path : JsString
  /-- `scope.steps` around the loop -/
  scope : ScopeSteps
  items : List JsonValue

inductive Job where
  | seq (steps : List PipelineStep) (parent : Option StepParentFrame)
  | step (s : PipelineStep) (parent : Option StepParentFrame)
  /-- the items that are left, behind those with a record -/
  | items (loop : LoopRun) (records : List ItemRecord) (rest : List JsonValue)
  /-- the top-level steps behind a filter -/
  | skip (steps : List PipelineStep)

/-- The claim of a step that is fenced off. -/
structure SkipOf (s : PipelineStep) (i : ClaimStepInput) : Prop where
  stepId : i.stepId = s.id
  kind : i.kind = s.kind
  path : i.path = stepInstancePath none s.id
  status : i.status = .skipped

/-- The budget admits the instance at `path`. -/
def Admitted (d : DriveCtx) (σ : Walker) (path : JsString) : Prop :=
  σ.executed < d.config.maxExecutedStepsPerRun ∨ path ∈ d.priorLedgerPaths.getD []

/-- `Walks d job σ o σ'`: a driver that works off `job` from `σ` on may come to `σ'`, done
with the fate `o`, or under way where `o` is `none`. -/
inductive Walks (d : DriveCtx) : Job → Walker → Option Fate → Walker → Prop
  | cut {job σ} : Walks d job σ none σ
  /-- done, but the driver does not get to see it -/
  | unseen {job σ o σ'} (h : Walks d job σ o σ') : Walks d job σ none σ'
  | before {job σ σ' o σ''} (hi : Idle σ σ') (h : Walks d job σ' o σ'') : Walks d job σ o σ''
  | after {job σ o σ' σ''} (h : Walks d job σ o σ') (hi : Idle σ' σ'') : Walks d job σ o σ''
  -- a list of steps
  | nil {parent σ} : Walks d (.seq [] parent) σ (some .ok) σ
  | stopped {steps parent σ} (h : σ.interrupted = true ∨ σ.cancelRequested = true) :
      Walks d (.seq steps parent) σ (some .canceled) σ
  | late {s rest parent σ} (hc : d.deadlineMs < σ.clock) :
      Walks d (.seq (s :: rest) parent) σ (some .failed)
        (σ.onTrail (·.record (.halted (stepInstancePath parent s.id) .wallClock)))
  | full {s rest parent σ} (hf : d.config.maxExecutedStepsPerRun ≤ σ.executed)
      (hp : stepInstancePath parent s.id ∉ d.priorLedgerPaths.getD []) :
      Walks d (.seq (s :: rest) parent) σ (some .failed)
        (σ.onTrail (·.record (.halted (stepInstancePath parent s.id) .stepBudget)))
  | next {s rest parent σ σ₁ o σ₂} (hc : σ.clock ≤ d.deadlineMs)
      (ha : Admitted d σ (stepInstancePath parent s.id))
      (h : Walks d (.step s parent) σ (some .ok) σ₁) (hr : Walks d (.seq rest parent) σ₁ o σ₂) :
      Walks d (.seq (s :: rest) parent) σ o σ₂
  | stop {s rest parent σ o σ₁} (hc : σ.clock ≤ d.deadlineMs)
      (ha : Admitted d σ (stepInstancePath parent s.id)) (h : Walks d (.step s parent) σ o σ₁)
      (ho : o ≠ some .ok) (ht : o = some .filtered → parent ≠ none) :
      Walks d (.seq (s :: rest) parent) σ o σ₁
  | fenced {s rest σ σ₁ o σ₂} (hc : σ.clock ≤ d.deadlineMs)
      (ha : Admitted d σ (stepInstancePath none s.id))
      (h : Walks d (.step s none) σ (some .filtered) σ₁) (hr : Walks d (.skip rest) σ₁ o σ₂) :
      Walks d (.seq (s :: rest) none) σ o σ₂
  | skipped {σ} : Walks d (.skip []) σ (some .filtered) σ
  | skip {s rest i σ o σ'} (hi : SkipOf s i)
      (h : Walks d (.skip rest) (σ.onTrail (·.claim i)) o σ') :
      Walks d (.skip (s :: rest)) σ o σ'
  -- one step
  | working {s parent i phase σ σ'} (hi : ClaimOf s (stepInstancePath parent s.id) i)
      (h : Own d s i σ phase σ') : Walks d (.step s parent) σ none σ'
  | worked {s parent i fate σ σ'} (hi : ClaimOf s (stepInstancePath parent s.id) i)
      (h : Own d s i σ (.closed fate) σ')
      (hb : s.kind = .branch → ∀ row, σ'.trail.steps.row? i.path = some row →
        row.status ≠ .succeeded) : Walks d (.step s parent) σ (some fate) σ'
  | lane {base branches otherwise parent i row σ σ₁ o σ₂}
      (hi : ClaimOf (.branch base branches otherwise) (stepInstancePath parent base.id) i)
      (h : Own d (.branch base branches otherwise) i σ (.closed .ok) σ₁)
      (hr : σ₁.trail.steps.row? i.path = some row) (hs : row.status = .succeeded)
      (hl : Walks d (.seq (laneSteps branches otherwise
        (readBranchLane row.output branches.length otherwise.isSome)) (some ⟨i.path, none⟩))
        σ₁ o σ₂) : Walks d (.step (.branch base branches otherwise) parent) σ o σ₂
  | loop {head body parent i items scope σ σ₁ o σ₂}
      (hi : ClaimOf (.forEach head body) (stepInstancePath parent head.id) i)
      (h : Own d (.forEach head body) i σ .busy σ₁) (hp : LoopPlan head i σ.trail items)
      (hl : Walks d (.items ⟨head, body, i.path, scope, items⟩ [] items) σ₁ o σ₂) :
      Walks d (.step (.forEach head body) parent) σ o σ₂
  -- the items of a loop
  | looped {loop records σ} :
      Walks d (.items loop records []) σ (some .ok)
        (σ.onTrail (·.finish loop.path
          ⟨.succeeded, some (aggregate loop.items records), none, none⟩))
  | leave {loop records rest σ} (h : σ.interrupted = true) :
      Walks d (.items loop records rest) σ (some .canceled) σ
  | cancel {loop records rest σ} :
      Walks d (.items loop records rest) σ (some .canceled)
        (σ.onTrail (·.finish loop.path ⟨.canceled, none, none, none⟩))
  | item {loop records x rest fate record σ σ₁ o σ₂}
      (hb : Walks d (.seq loop.body (some ⟨loop.path, some records.length⟩))
        (σ.onTrail (·.record (.item loop.path records.length x loop.scope))) (some fate) σ₁)
      (hr : loop.head.continues fate (ItemRecord.status record))
      (hi : record.index = records.length)
      (h : Walks d (.items loop (records ++ [record]) rest) σ₁ o σ₂) :
      Walks d (.items loop records (x :: rest)) σ o σ₂
  | inItem {loop records x rest σ σ₁}
      (hb : Walks d (.seq loop.body (some ⟨loop.path, some records.length⟩))
        (σ.onTrail (·.record (.item loop.path records.length x loop.scope))) none σ₁) :
      Walks d (.items loop records (x :: rest)) σ none σ₁
  | itemLeft {loop records x rest σ σ₁}
      (hb : Walks d (.seq loop.body (some ⟨loop.path, some records.length⟩))
        (σ.onTrail (·.record (.item loop.path records.length x loop.scope))) (some .canceled) σ₁)
      (hi : σ₁.interrupted = true) : Walks d (.items loop records (x :: rest)) σ (some .canceled) σ₁
  | itemCanceled {loop records x rest σ σ₁}
      (hb : Walks d (.seq loop.body (some ⟨loop.path, some records.length⟩))
        (σ.onTrail (·.record (.item loop.path records.length x loop.scope))) (some .canceled) σ₁)
      (hi : σ₁.interrupted = false) :
      Walks d (.items loop records (x :: rest)) σ (some .canceled)
        (σ₁.onTrail (·.finish loop.path ⟨.canceled, none, none, none⟩))
  | itemFailed {loop records x rest error errorClass σ σ₁}
      (hb : Walks d (.seq loop.body (some ⟨loop.path, some records.length⟩))
        (σ.onTrail (·.record (.item loop.path records.length x loop.scope))) (some .failed) σ₁)
      (hh : loop.head.onItemError = .halt) :
      Walks d (.items loop records (x :: rest)) σ (some .failed)
        (σ₁.onTrail (·.finish loop.path ⟨.failed, none, some error, some errorClass⟩))

/-! ## Rows -/

theorem Trail.claim_of_mem {t : Trail} {i : ClaimStepInput} {row : RunStepRow}
    (h : t.steps.row? i.path = some row) : t.claim i = t ∧ t.claimed i = (false, row) := by
  rw [Trail.claim, Trail.claimed, Ledger.claim_of_mem h]
  exact ⟨rfl, rfl⟩

theorem Trail.claim_of_not_mem {t : Trail} {i : ClaimStepInput} (h : i.path ∉ t.steps.paths) :
    t.claim i =
        { t with steps := t.steps ++ [RunStepRow.claimed i] }.record (Deed.claimed i.path i.input) ∧
      t.claimed i = (true, RunStepRow.claimed i) := by
  rw [Trail.claim, Trail.claimed, Ledger.claim_of_not_mem h]
  exact ⟨rfl, rfl⟩

theorem Trail.row?_finish {t : Trail} {path : JsString} {row : RunStepRow}
    (h : t.steps.row? path = some row) (patch : FinishStepPatch) :
    (t.finish path patch).steps.row? path = some (patch.apply row) :=
  Ledger.row?_update_some (f := patch.apply) (fun _ => rfl) h

theorem Trail.row?_markRunning {t : Trail} {path : JsString} {row : RunStepRow}
    (h : t.steps.row? path = some row) (attempt : Nat) :
    (t.markRunning path attempt).steps.row? path =
      some { row with status := .running, attempt := attempt } :=
  Ledger.row?_update_some (f := fun row => { row with status := .running, attempt := attempt })
    (fun _ => rfl) h

theorem RunStepStatus.fate?_eq_none {status : RunStepStatus} :
    status.fate? = none ↔ status.terminal = false := by
  cases status <;> simp [RunStepStatus.fate?, RunStepStatus.terminal]

/-- The lane is one of `n`, or the else lane where there is one. -/
def Lane.Valid (n : Nat) (hasElse : Bool) : Option Lane → Prop
  | none => True
  | some (.index i) => i < n
  | some .otherwise => hasElse = true

/-- The decision on record reads back. -/
theorem readBranchLane_json {n : Nat} {hasElse : Bool} {lane : Option Lane}
    (h : Lane.Valid n hasElse lane) :
    readBranchLane (some [(ascii "lane", Lane.json lane)]) n hasElse = lane := by
  have hget : (some [(ascii "lane", Lane.json lane)]).bind (OrderedMap.get? (ascii "lane")) =
      some (Lane.json lane) := by
    show OrderedMap.get? (ascii "lane") [(ascii "lane", Lane.json lane)] = _
    simp [OrderedMap.get?]
  rw [readBranchLane, hget]
  rcases lane with _ | i | _
  · rfl
  · have hi : i < n := h
    show (natural? (natural i)).bind (fun i => if i < n then some (Lane.index i) else none) = _
    rw [natural?_natural]
    exact if_pos hi
  · exact if_pos ⟨rfl, h⟩

/-! ## Ends -/

theorem ends_failed (s : PipelineStep) (error errorClass : JsString) :
    Ends s .failed ⟨.failed, none, some error, some errorClass⟩ := by
  refine ⟨rfl, by rintro - ⟨⟩, fun row => ?_⟩
  cases s <;> rfl

theorem ends_canceled (s : PipelineStep) : Ends s .canceled ⟨.canceled, none, none, none⟩ := by
  refine ⟨rfl, by rintro - ⟨⟩, fun row => ?_⟩
  cases s <;> rfl

theorem ends_ok {s : PipelineStep} (hl : s.kind ≠ .forEach) (hf : s.kind ≠ .filter)
    (output : JsonRecord) : Ends s .ok ⟨.succeeded, some output, none, none⟩ := by
  refine ⟨rfl, fun h => absurd h hl, fun row => ?_⟩
  cases s with
  | filter step => exact absurd rfl hf
  | _ => rfl

theorem ends_filter (step : FilterStep) (matched : Bool) :
    Ends (.filter step) (if matched then .ok else .filtered)
      ⟨.succeeded, some [(ascii "matched", .bool matched)], none, none⟩ := by
  refine ⟨rfl, by rintro ⟨⟩, fun row => ?_⟩
  cases matched with
  | true => rfl
  | false => rfl

/-! ## What the work on one instance leaves -/

section

variable {d : DriveCtx} {s : PipelineStep} {i : ClaimStepInput} {σ₀ : Walker}

theorem Own.clock_le {phase : Phase} {σ : Walker} (h : Own d s i σ₀ phase σ) : σ₀.clock ≤ σ.clock := by
  induction h with
  | start => exact Nat.le_refl _
  | idle _ hi ih => exact ih.trans hi.clock
  | claimed _ _ ih | found _ _ _ ih | adopted _ _ _ ih | resumed _ _ ih | counted _ _ ih | charged _ ih
  | interrupted _ _ ih | invoked _ _ _ _ _ ih | linked _ _ ih | parked _ _ _ ih | rerun _ _ ih
  | late _ _ ih | lateFailed _ ih | finished _ _ ih | left _ _ ih => exact ih

theorem Own.idle_of_ready {phase : Phase} {σ : Walker} (h : Own d s i σ₀ phase σ)
    (hp : phase = .ready) : Idle σ₀ σ := by
  induction h with
  | start => exact Idle.refl _
  | idle _ hi ih => exact (ih hp).trans hi
  | _ => cases hp

/-- The phases in which the row of the instance is open. -/
def Phase.opened : Phase → Bool
  | .taken | .counted | .busy | .late => true
  | .ready | .closed _ => false

/-- The row of an instance that is worked on is there, and open. -/
theorem Own.row {phase : Phase} {σ : Walker} (h : Own d s i σ₀ phase σ)
    (hi : i.status.terminal = false) (hp : phase.opened = true) :
    ∃ row, σ.trail.steps.row? i.path = some row ∧ row.status.terminal = false := by
  induction h with
  | start => cases hp
  | idle _ hi ih =>
    rw [hi.trail]
    exact ih hp
  | claimed _ hn _ =>
    refine ⟨.claimed i, ?_, hi⟩
    show (Trail.claim _ i).steps.row? i.path = _
    rw [(Trail.claim_of_not_mem hn).1]
    show Ledger.row? (_ ++ [RunStepRow.claimed i]) i.path = _
    rw [Ledger.row?_append hn]
    exact Ledger.row?_cons_self rfl
  | found _ hr ho _ => exact ⟨_, hr, ho⟩
  | adopted | interrupted | lateFailed | finished | left => cases hp
  | counted _ _ ih | charged _ ih | late _ _ ih => exact ih rfl
  | invoked _ _ _ _ _ ih => exact ih rfl
  | resumed _ attempt ih =>
    obtain ⟨row, hr, -⟩ := ih rfl
    exact ⟨_, Trail.row?_markRunning hr attempt, rfl⟩
  | rerun _ attempt ih =>
    obtain ⟨row, hr, -⟩ := ih rfl
    exact ⟨_, Trail.row?_markRunning hr attempt, rfl⟩
  | linked _ child ih =>
    obtain ⟨row, hr, ho⟩ := ih rfl
    exact ⟨{ row with childRunId := some child },
      Ledger.row?_update_some (f := fun row => { row with childRunId := some child })
        (fun _ => rfl) hr, ho⟩
  | parked _ _ child ih =>
    obtain ⟨row, hr, -⟩ := ih rfl
    exact ⟨{ row with status := .waiting, childRunId := some child },
      Ledger.row?_update_some
        (f := fun row => { row with status := .waiting, childRunId := some child })
        (fun _ => rfl) hr, rfl⟩

/-- What a step leaves in its row is what a later driver adopts, or the row is left open by a
process that goes down. -/
theorem Own.closed_row {phase : Phase} {fate : Fate} {σ : Walker} (h : Own d s i σ₀ phase σ)
    (hi : i.status.terminal = false) (hp : phase = .closed fate) :
    ∃ row, σ.trail.steps.row? i.path = some row ∧
      (adoptedFate s row = some fate ∨
        fate = .canceled ∧ σ.interrupted = true ∧ row.status.terminal = false) := by
  induction h with
  | idle _ hi ih =>
    obtain ⟨row, hr, hf⟩ := ih hp
    rw [hi.trail]
    exact ⟨row, hr, hf.imp id fun hf => ⟨hf.1, hi.interrupted hf.2.1, hf.2.2⟩⟩
  | adopted _ hr hf _ =>
    cases hp
    exact ⟨_, hr, Or.inl hf⟩
  | @interrupted σ error errorClass h _ _ =>
    cases hp
    obtain ⟨row, hr, -⟩ := h.row hi rfl
    exact ⟨_, Trail.row?_finish hr _, Or.inl ((ends_failed s _ _).2.2 row)⟩
  | @lateFailed σ error errorClass h _ =>
    cases hp
    obtain ⟨row, hr, -⟩ := h.row hi rfl
    exact ⟨_, Trail.row?_finish hr _, Or.inl ((ends_failed s _ _).2.2 row)⟩
  | finished h he _ =>
    cases hp
    obtain ⟨row, hr, -⟩ := h.row hi rfl
    exact ⟨_, Trail.row?_finish hr _, Or.inl (he.2.2 row)⟩
  | left h hint _ =>
    cases hp
    obtain ⟨row, hr, ho⟩ := h.row hi rfl
    exact ⟨row, hr, Or.inr ⟨rfl, hint, ho⟩⟩
  | _ => cases hp

end

end InvisibleString.Pipeline
