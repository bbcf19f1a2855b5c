import InvisibleString.Lib.Signals
import InvisibleString.Pipeline.Runner

/- # `Pipeline.Heeding` — what a driver does about a cancel

`cancel` raises a flag while the driver waits for a statement.  The driver looks at it before each
step, each attempt, each item and each poll, and again when an attempt has failed or was aborted.

**Proved here.**

    a walk of steps returns `canceled` when it looks at the flag  (`runSequence_heeds`)
    a driver that looks at the flag writes the run `canceled`  (`drive_heeds`)
-/

namespace InvisibleString.Pipeline

open EventLoop Json
open Tailer (RunStatus)

/-- Nobody has canceled the run, and the process is not going down. -/
def DriveMemory.Calm (m : DriveMemory) : Prop := m.cancelRequested = false ∧ m.interrupted = false

/-- The run is canceled, and the process is not going down. -/
def DriveMemory.Canceled (m : DriveMemory) : Prop :=
  m.cancelRequested = true ∧ m.interrupted = false

def cancelSignal : Signal DriveMemory where
  Calm := DriveMemory.Calm
  raise m := { m with cancelRequested := true }

/-- At the other statements the source does not give the loop away. -/
def DriverOp.waits : DriverOp → Bool
  | .now | .note _ | .announce (.published _) => false
  | _ => true

/-- The statement writes the end of the run. -/
def DriverOp.endsRun : DriverOp → Bool
  | .markRun patch => patch.status.terminal
  | _ => false

/-- The statement records that a step failed. -/
def DriverOp.failsStep : DriverOp → Bool
  | .finish _ patch => patch.status = .failed
  | .appendEvent _ (.stepFailed ..) => true
  | _ => false

abbrev DriverOp.Waits (op : DriverOp) : Prop := op.waits = true

/-- What a canceled driver asks for on its way back. -/
def AsksCanceled (m : DriveMemory) (op : DriverOp) : Prop :=
  m.Canceled ∧ op.endsRun = false ∧ op.failsStep = false

/-- Undisturbed, the canceled driver returns with `C`, and the run is still open. -/
def Gone {α : Type} (C : α → Prop) (t : Thread driverSignature DriveMemory α) : Prop :=
  t.Leads AsksCanceled (Thread.Returned fun a m => C a ∧ m.Canceled)

/-- The same, of a program. -/
abbrev Unwinds {α : Type} (C : α → Prop) (p : DriverProc α) : Prop :=
  ∀ m : DriveMemory, m.Canceled → Gone C (p m)

/-- A cancel makes no difference to the results with `E`, or the program returns with `C`. -/
abbrev HeedsOf {α : Type} (E C : α → Prop) (p : DriverProc α) : Prop :=
  p.Heeds cancelSignal DriverOp.Waits E (Gone C)

/-- A cancel makes no difference, or the program returns with `C`. -/
abbrev Heeds {α : Type} (C : α → Prop) (p : DriverProc α) : Prop := HeedsOf (fun _ => True) C p

/-- The program does not look at the flag. -/
abbrev Plain {α : Type} (p : DriverProc α) : Prop :=
  p.Heeds cancelSignal DriverOp.Waits (fun _ => True) fun _ => False

section

variable {α β : Type} {C : α → Prop} {C' : β → Prop}

theorem canceled_raise {m : DriveMemory} (h : m.Calm) : (cancelSignal.raise m).Canceled :=
  ⟨rfl, h.2⟩

theorem DriveMemory.Calm.look {γ : Sort*} {m : DriveMemory} (h : m.Calm) (gone canceled on : γ) :
    (if m.interrupted then gone else if m.cancelRequested then canceled else on) = on := by
  rw [h.2, h.1]
  rfl

theorem DriveMemory.Canceled.look {γ : Sort*} {m : DriveMemory} (h : m.Canceled)
    (gone canceled on : γ) :
    (if m.interrupted then gone else if m.cancelRequested then canceled else on) = canceled := by
  rw [h.2, h.1]
  rfl

/-! ## Unwinding -/

theorem Unwinds.ret {a : α} (h : C a) : Unwinds C (pure a : DriverProc α) := fun _ hm =>
  Proc.LeadsTo.ret ⟨h, hm⟩

theorem Unwinds.await (op : DriverOp) (hends : op.endsRun = false) (hfails : op.failsStep = false)
    {C : driverSignature.Ret op → Prop} (hC : ∀ a, C a) : Unwinds C (await op) := fun _ hm =>
  Proc.LeadsTo.call ⟨hm, hends, hfails⟩ fun a => ⟨hC a, hm⟩

theorem Unwinds.bind {x : DriverProc α} {f : α → DriverProc β} (hx : Unwinds C x)
    (hf : ∀ a, C a → Unwinds C' (f a)) : Unwinds C' (x >>= f) := fun m hm =>
  Proc.LeadsTo.bind (hx m hm) fun a m' ha => hf a ha.1 m' ha.2

theorem Unwinds.read {f : DriveMemory → DriverProc β} (hf : ∀ m, m.Canceled → Unwinds C' (f m)) :
    Unwinds C' (Proc.read >>= f) := fun m hm => hf m hm m hm

/-- What comes behind a program that unwinds. -/
theorem Gone.next {f : α → DriverProc β} (hf : ∀ a, C a → Unwinds C' (f a))
    (t : Thread driverSignature DriveMemory α) (h : Gone C t) :
    Gone C' (t.andThen (Proc.next f)) :=
  Thread.Leads.next (fun a m ha => hf a ha.1 m ha.2) h

/-! ## Programs that do not look -/

theorem Plain.heeds {p : DriverProc α} (h : Plain p) : Heeds C p := h.mono fun _ h => h.elim

theorem Plain.ret (a : α) : Plain (pure a : DriverProc α) := Proc.Heeds.ret trivial

theorem Plain.await (op : DriverOp) : Plain (await op) :=
  Proc.Heeds.call (S := driverSignature) op

theorem Plain.bind {x : DriverProc α} {f : α → DriverProc β} {E : β → Prop}
    {G : Thread driverSignature DriveMemory β → Prop} (hx : Plain x)
    (hf : ∀ a, (f a).Heeds cancelSignal DriverOp.Waits E G) :
    (x >>= f).Heeds cancelSignal DriverOp.Waits E G := Proc.Heeds.seq hx hf

theorem Plain.attempt {x : DriverProc α} (hx : Plain x) : Plain (Proc.attempt x) :=
  Proc.Heeds.attempt hx fun _ h => h.elim

theorem Plain.update {f : DriveMemory → DriveMemory}
    (hcalm : ∀ m : DriveMemory, m.Calm → (f m).Calm)
    (hraise : ∀ m, f (cancelSignal.raise m) = cancelSignal.raise (f m)) : Plain (Proc.update f) :=
  Proc.Heeds.update hcalm hraise

theorem Plain.read {f : DriveMemory → DriverProc β}
    (hraise : ∀ m : DriveMemory, m.Calm → f (cancelSignal.raise m) = f m)
    (hf : ∀ m, Plain (f m)) : Plain (Proc.read >>= f) := Proc.Heeds.read hraise fun m _ => hf m

theorem Heeds.ret (a : α) : Heeds C (pure a : DriverProc α) := Proc.Heeds.ret trivial

theorem Heeds.bind {x : DriverProc α} {f : α → DriverProc β} (hx : Heeds C x)
    (hf : ∀ a, Heeds C' (f a)) (hC : ∀ a, C a → Unwinds C' (f a)) : Heeds C' (x >>= f) :=
  Proc.Heeds.bind hx hf (Gone.next hC)

theorem Heeds.read {f : DriveMemory → DriverProc β}
    (hraise : ∀ m : DriveMemory, m.Calm → f (cancelSignal.raise m) = f m)
    (hf : ∀ m : DriveMemory, m.Calm → Heeds C' (f m)) : Heeds C' (Proc.read >>= f) :=
  Proc.Heeds.read hraise hf

theorem Heeds.attempt {x : DriverProc α} (hx : Heeds C x) :
    Heeds (fun r => ∃ a, r = .ok a ∧ C a) (Proc.attempt x) := by
  refine Proc.Heeds.attempt hx fun t ht => Thread.Leads.andThen ht ?_
  rintro _ ⟨m, a, rfl, ha, hm⟩
  exact ⟨m, .ok a, rfl, ⟨a, rfl, ha⟩, hm⟩

theorem HeedsOf.look {E : α → Prop} {f : DriveMemory → DriverProc α} {p : DriverProc α}
    (hp : p.Alerts cancelSignal DriverOp.Waits E (Gone C))
    (hcalm : ∀ m : DriveMemory, m.Calm → f m = p)
    (hcanceled : ∀ m : DriveMemory, m.Canceled → Unwinds C (f m)) :
    HeedsOf E C (Proc.read >>= f) :=
  Proc.Heeds.look hp hcalm fun _ hm => hcanceled _ (canceled_raise hm) _ (canceled_raise hm)

theorem HeedsOf.lookFirst {E : α → Prop} {gone canceled on : DriverProc α}
    (hon : on.Alerts cancelSignal DriverOp.Waits E (Gone C)) (hcanceled : Unwinds C canceled) :
    HeedsOf E C (do
      let m ← Proc.read
      if m.interrupted then gone else if m.cancelRequested then canceled else on) := by
  refine HeedsOf.look hon (fun m hm => hm.look _ _ _) fun m hm => ?_
  rw [hm.look]
  exact hcanceled

theorem HeedsOf.lookEither {E : α → Prop} {gone on : DriverProc α}
    (hon : on.Alerts cancelSignal DriverOp.Waits E (Gone C)) (hgone : Unwinds C gone) :
    HeedsOf E C (do
      let m ← Proc.read
      if m.interrupted || m.cancelRequested then gone else on) := by
  refine HeedsOf.look hon (fun m hm => ?_) fun m hm => ?_
  · rw [hm.1, hm.2]
    rfl
  · rw [hm.1, hm.2]
    exact hgone

end

/-! ## Statements -/

theorem emit_plain (event : PipelineStreamEvent) : Plain (emit event) := by
  refine Plain.read (fun _ _ => rfl) fun m => ?_
  refine Plain.bind (Plain.update (fun _ hm => hm) fun _ => rfl) fun _ => ?_
  exact Plain.bind (Plain.await _) fun _ => Plain.await _

theorem finishFailed_plain (step : StepInfo) (path : JsString) (attempt : Nat)
    (errorClass error : JsString) : Plain (finishFailed step path attempt errorClass error) :=
  Plain.bind (Plain.await _) fun _ => Plain.bind (emit_plain _) fun _ => Plain.ret _

theorem finishSucceeded_plain (step : StepInfo) (path : JsString) (steps : ScopeSteps)
    (output : JsonRecord) : Plain (finishSucceeded step path steps output) :=
  Plain.bind (Plain.await _) fun _ => Plain.bind (emit_plain _) fun _ => Plain.ret _

theorem countExecuted_plain (path : JsString) : Plain (countExecuted path) :=
  Plain.bind (Plain.update (fun _ hm => hm) fun _ => rfl) fun _ => Plain.await _

theorem finishCanceled_unwinds (path : JsString) :
    Unwinds (fun _ => True) (finishCanceled path) := by
  show Unwinds _ (await (.finish path ⟨.canceled, none, none, none⟩))
  exact Unwinds.await _ rfl rfl fun _ => trivial

theorem finishCanceled_ret {α : Type} {C : α → Prop} {a : α} (path : JsString) (h : C a) :
    Unwinds C (do finishCanceled path; return a) :=
  Unwinds.bind (finishCanceled_unwinds path) fun _ _ => Unwinds.ret h

theorem backfill_plain (row : RunStepRow) (step : StepInfo) (path : JsString) :
    Plain (backfillTerminalStepEvent row step path) := by
  refine Plain.read (fun _ _ => rfl) fun m => ?_
  cases m.priorTerminalEventPaths with
  | none => exact Plain.ret _
  | some seen =>
    dsimp only
    split
    · exact Plain.ret _
    · refine Plain.bind (Plain.update (fun _ hm => hm) fun _ => rfl) fun _ => ?_
      cases row.status with
      | succeeded | skipped | failed => exact emit_plain _
      | pending | running | waiting | canceled => exact Plain.ret _

theorem adoptTerminal_plain (row : RunStepRow) (step : StepInfo) (path : JsString)
    (steps : ScopeSteps) : Plain (adoptTerminal row step path steps) := by
  rw [adoptTerminal]
  cases row.status with
  | succeeded | skipped | failed => exact Plain.bind (backfill_plain _ _ _) fun _ => Plain.ret _
  | pending | running | waiting | canceled => exact Plain.ret _

/-! ## Steps that do not look -/

theorem executeFilter_plain (d : DriveCtx) (step : FilterStep) (path : JsString)
    (parent : Option StepParentFrame) (scope : StepScope) :
    Plain (executeFilter d step path parent scope) := by
  refine Plain.bind (Plain.await _) fun c => ?_
  refine Plain.bind (x := if c.1 then pure none else adoptTerminal c.2 _ path scope.steps) ?_
    fun adopted => ?_
  · split
    · exact Plain.ret _
    · exact adoptTerminal_plain _ _ _ _
  rcases adopted with _ | ⟨_ | _ | _ | _, steps⟩
  · refine Plain.bind (x := if c.1 then pure () else markRunning path _) ?_ fun _ => ?_
    · split
      · exact Plain.ret _
      · exact Plain.await _
    refine Plain.bind (countExecuted_plain path) fun _ => ?_
    refine Plain.bind (emit_plain _) fun _ => Plain.read (fun _ _ => rfl) fun m => ?_
    cases d.surfaces.evaluateCondition step.condition (scope.withState m.state) with
    | error error => exact Plain.bind (finishFailed_plain _ _ _ _ _) fun _ => Plain.ret _
    | ok matched => exact Plain.bind (finishSucceeded_plain _ _ _ _) fun _ => Plain.ret _
  · dsimp only
    split
    · exact Plain.ret _
    · exact Plain.ret _
  · exact Plain.ret _
  · exact Plain.ret _
  · exact Plain.ret _

theorem executeState_plain (d : DriveCtx) (step : StateStep) (path : JsString)
    (parent : Option StepParentFrame) (scope : StepScope) :
    Plain (executeState d step path parent scope) := by
  refine Plain.read (fun _ _ => rfl) fun m => Plain.bind (Plain.await _) fun c => ?_
  refine Plain.bind (x := if c.1 then pure none else adoptTerminal c.2 _ path scope.steps) ?_
    fun adopted => ?_
  · split
    · exact Plain.ret _
    · exact adoptTerminal_plain _ _ _ _
  rcases adopted with _ | ⟨_ | _ | _ | _, steps⟩
  · refine Plain.bind (x := if c.1 then pure () else markRunning path _) ?_ fun _ => ?_
    · split
      · exact Plain.ret _
      · exact Plain.await _
    refine Plain.bind (countExecuted_plain path) fun _ => Plain.bind (emit_plain _) fun _ => ?_
    dsimp only
    split
    · exact Plain.bind (finishFailed_plain _ _ _ _ _) fun _ => Plain.ret _
    · refine Plain.bind (Plain.attempt (Plain.await _)) fun written => ?_
      rcases written with (_ | _) | _
      · exact Plain.bind (finishFailed_plain _ _ _ _ _) fun _ => Plain.ret _
      · exact Proc.Heeds.fail _
      · refine Plain.bind (Plain.update (fun _ hm => hm) fun _ => rfl) fun _ => ?_
        refine Plain.bind (emit_plain _) fun _ => ?_
        exact Plain.bind (finishSucceeded_plain _ _ _ _) fun _ => Plain.ret _
  · exact Plain.bind (Plain.update (fun _ hm => hm) fun _ => rfl) fun _ => Plain.ret _
  · exact Plain.ret _
  · exact Plain.ret _
  · exact Plain.ret _

theorem skipRemaining_plain (parent : Option StepParentFrame) (steps : List PipelineStep) :
    Plain (skipRemaining parent steps) := by
  induction steps with
  | nil => exact Plain.ret _
  | cons step rest ih =>
    refine Plain.bind (Plain.await _) fun c => Plain.bind ?_ fun _ => ih
    split
    · exact emit_plain _
    · exact backfill_plain _ _ _

/-! ## Leaf steps -/

theorem pause_heeds : Heeds (fun _ => True) pause := by
  refine HeedsOf.look (Plain.await .pause).heeds.2 ?_ ?_
  · rintro m ⟨hc, hi⟩
    rw [hc, hi]
    rfl
  · rintro m ⟨hc, hi⟩
    rw [hc]
    exact Unwinds.ret trivial

/-- The signal makes no difference to a success; every other end of a call is given up. -/
theorem runAttempt_heeds (d : DriveCtx) (call : Invocation) (remainingMs : Nat) :
    HeedsOf (fun o => ∀ errorClass error retryable,
      o = .outcome (.failed errorClass error retryable) → retryable = false) (· = .canceled)
      (runAttempt d call remainingMs) := by
  rw [runAttempt]
  split
  · refine Proc.Heeds.ret ?_
    rintro _ _ _ ⟨⟩
    rfl
  refine Plain.bind (Plain.await _) fun _ => Plain.bind (Plain.await _) fun raced => ?_
  rcases raced with (output | ⟨errorClass, error, retryable⟩ | child) | _
  · refine Proc.Heeds.read (fun _ _ => rfl) fun m hm => ?_
    rw [hm.2]
    exact Proc.Heeds.ret nofun
  · exact HeedsOf.lookFirst (fun _ hm => hm) (Unwinds.ret rfl)
  · exact HeedsOf.lookFirst (fun _ hm => hm) (Unwinds.ret rfl)
  · exact HeedsOf.lookFirst (fun _ hm => hm) (Unwinds.ret rfl)

theorem hang_plain {α : Type} : Plain (hang : DriverProc α) :=
  Plain.bind (Plain.await .hang) fun e => e.elim

theorem pollChild_heeds (childRunId : JsString) (rounds : Nat) :
    Heeds (· = .canceled) (pollChild childRunId rounds) := by
  induction rounds with
  | zero => exact hang_plain.heeds
  | succ rounds ih =>
    rw [pollChild]
    refine HeedsOf.lookFirst (Plain.bind (Plain.await _) fun status => ?_).2 (Unwinds.ret rfl)
    rcases status with _ | status
    · exact Heeds.ret _
    cases status with
    | waiting => exact Plain.bind (Plain.await _) fun _ => ih
    | queued | running | succeeded | failed | canceled => exact Heeds.ret _

theorem publishResumed_plain (resumed : Bool) :
    Plain (if resumed then publishRunStatus .running none else pure ()) := by
  split
  · exact Plain.await _
  · exact Plain.ret _

theorem publishResumed_unwinds (resumed : Bool) :
    Unwinds (fun _ => True) (if resumed then publishRunStatus .running none else pure ()) := by
  split
  · exact Unwinds.await (.announce (.published (.status .running none))) rfl rfl
      fun _ => trivial
  · exact Unwinds.ret trivial

theorem parkOnChild_heeds (d : DriveCtx) (step : StepInfo) (path childRunId : JsString) :
    Heeds (· = .canceled) (parkOnChild d step path childRunId) := by
  refine Plain.bind (Plain.await _) fun _ => Plain.bind (emit_plain _) fun _ => ?_
  refine Plain.bind (Plain.await _) fun _ => Plain.bind (Plain.await _) fun _ => ?_
  refine Heeds.bind (pollChild_heeds childRunId d.rounds).attempt ?_ ?_
  · intro parked
    refine Plain.bind (Plain.await _) fun resumed => ?_
    refine Plain.bind (publishResumed_plain resumed) fun _ => ?_
    cases parked with
    | ok parked => exact Heeds.ret parked
    | error error => exact Proc.Heeds.fail error
  · rintro _ ⟨_, rfl, rfl⟩
    refine Unwinds.bind (C := fun _ => True) ?_ fun resumed _ => ?_
    · exact Unwinds.await (.markRun ⟨.running, none, none⟩) rfl rfl fun _ => trivial
    exact Unwinds.bind (publishResumed_unwinds resumed) fun _ _ => Unwinds.ret rfl

theorem attempts_unwinds (d : DriveCtx) (step : LeafStep) (path : JsString) (input : JsonValue)
    (scope : StepScope) (budget rounds attempt : Nat) (childRunId : Option JsString) :
    Unwinds (·.1 = .canceled)
      (attempts d step path input scope budget rounds attempt childRunId) := by
  cases rounds with
  | zero =>
    refine Unwinds.bind (C := fun _ => True) (x := (await .hang : DriverProc Empty)) ?_
      fun e _ => e.elim
    exact Unwinds.await _ rfl rfl fun _ => trivial
  | succ rounds =>
    rw [attempts]
    refine Unwinds.read fun m hm => ?_
    rw [hm.look]
    exact finishCanceled_ret path rfl

theorem attempts_heeds (d : DriveCtx) (step : LeafStep) (path : JsString) (input : JsonValue)
    (scope : StepScope) (budget rounds attempt : Nat) (childRunId : Option JsString) :
    Heeds (·.1 = .canceled)
      (attempts d step path input scope budget rounds attempt childRunId) := by
  induction rounds generalizing attempt childRunId with
  | zero => exact hang_plain.heeds
  | succ rounds ih =>
    rw [attempts]
    refine HeedsOf.lookFirst (Plain.bind (Plain.await _) fun t => ?_).2
      (finishCanceled_ret path rfl)
    split
    · refine Plain.bind (Plain.await _) fun _ => ?_
      exact Plain.bind (finishFailed_plain _ _ _ _ _) fun _ => Heeds.ret _
    refine Plain.bind (emit_plain _) fun _ => ?_
    have hnext (attempt : Nat) (childRunId : Option JsString) :
        Heeds (·.1 = .canceled) (do
          markRunning path attempt
          attempts d step path input scope budget rounds attempt childRunId) :=
      Plain.bind (Plain.await _) fun _ => ih attempt childRunId
    -- the end of a failed attempt, once it is known whether there is another
    have hfailed (errorClass error : JsString) (willRetry : Bool) :
        Heeds (·.1 = .canceled) (do
          emit (.stepFailed (step.info.ref path) attempt errorClass error willRetry)
          if willRetry then do
            pause
            markRunning path (attempt + 1)
            attempts d step path input scope budget rounds (attempt + 1) childRunId
          else do
            finish path ⟨.failed, none, some error, some errorClass⟩
            return (.failed error errorClass, scope.steps)) := by
      refine Plain.bind (emit_plain _) fun _ => ?_
      split
      · refine Heeds.bind pause_heeds (fun _ => hnext _ _) fun _ _ => ?_
        refine Unwinds.bind (C := fun _ => True) (x := markRunning path _) ?_ fun _ _ =>
          attempts_unwinds d step path input scope budget rounds _ _
        exact Unwinds.await (.markRunning path _) rfl rfl fun _ => trivial
      · exact Plain.bind (Plain.await _) fun _ => Heeds.ret _
    refine Proc.Heeds.bind_of (runAttempt_heeds d _ _) (fun outcome => ?_) (Gone.next ?_)
    · have hof {p : DriverProc (Walked StepResult)} (h : Heeds (·.1 = .canceled) p)
        {E : Prop} : (E → p.Twins cancelSignal (fun _ => True) (Gone (·.1 = .canceled))) ∧
          p.Alerts cancelSignal DriverOp.Waits (fun _ => True) (Gone (·.1 = .canceled)) :=
        ⟨fun _ => h.1, h.2⟩
      rcases outcome with (output | ⟨errorClass, error, retryable⟩ | child) | _ | _
      · refine hof ?_
        dsimp only
        split
        · exact Plain.bind (finishFailed_plain _ _ _ _ _) fun _ => Heeds.ret _
        · exact Plain.bind (finishSucceeded_plain _ _ _ _) fun _ => Heeds.ret _
      · refine ⟨fun hE => ?_, ?_⟩
        · cases hE _ _ _ rfl
          refine (Plain.bind (Plain.await .now) fun t => ?_).1
          exact Heeds.read (fun _ _ => rfl) fun m _ => hfailed _ _ _
        · have hnow : ¬ DriverOp.Waits .now := Bool.false_ne_true
          refine Proc.Alerts.pass _ hnow fun t m hm => ?_
          exact (hfailed _ _ _).2 m hm
      · refine hof (Heeds.bind (parkOnChild_heeds d step.info path child) (fun parked => ?_) ?_)
        · cases parked with
          | resumed => exact hnext _ _
          | canceled => exact Plain.bind (Plain.await _) fun _ => Heeds.ret _
          | interrupted => exact Heeds.ret _
          | missing => exact Plain.bind (finishFailed_plain _ _ _ _ _) fun _ => Heeds.ret _
        · rintro _ rfl
          exact finishCanceled_ret path rfl
      · exact hof (Plain.bind (Plain.await _) fun _ => Heeds.ret _)
      · exact hof (Heeds.ret _)
    · rintro _ rfl
      exact finishCanceled_ret path rfl

theorem executeLeaf_heeds (d : DriveCtx) (step : LeafStep) (path : JsString)
    (parent : Option StepParentFrame) (scope : StepScope) :
    Heeds (·.1 = .canceled) (executeLeaf d step path parent scope) := by
  refine Heeds.read (fun _ _ => rfl) fun m _ => Plain.bind (Plain.await _) fun c => ?_
  refine Plain.bind (x := if c.1 then pure none else adoptTerminal c.2 _ path scope.steps) ?_
    fun adopted => ?_
  · split
    · exact Plain.ret _
    · exact adoptTerminal_plain _ _ _ _
  rcases adopted with _ | result
  · dsimp only
    split
    · refine Plain.bind (emit_plain _) fun _ => ?_
      exact Plain.bind (finishFailed_plain _ _ _ _ _) fun _ => Heeds.ret _
    refine Plain.bind (x := if c.1 then pure () else markRunning path _) ?_ fun _ => ?_
    · split
      · exact Plain.ret _
      · exact Plain.await _
    exact Plain.bind (countExecuted_plain path) fun _ => attempts_heeds ..
  · exact Heeds.ret _

/-! ## Containers -/

/-- The walks of a container's nested steps. -/
abbrev RunnerHeeds (run : SequenceRunner) : Prop :=
  ∀ scope frame, Heeds (·.1 = .canceled) (run scope frame)

/-- What holds of the walks of every lane holds of the chosen one. -/
theorem laneRunner_of {P : SequenceRunner → Prop}
    {branches : List (PipelineCondition × SequenceRunner)} {otherwise : Option SequenceRunner}
    (hbranches : ∀ b ∈ branches, P b.2) (hotherwise : ∀ run ∈ otherwise, P run)
    (lane : Option Lane) : ∀ run ∈ laneRunner branches otherwise lane, P run := by
  intro run hrun
  rcases lane with _ | _ | _
  · cases hrun
  · obtain ⟨b, hb, rfl⟩ := Option.map_eq_some_iff.mp hrun
    exact hbranches b (List.mem_of_getElem? hb)
  · exact hotherwise run hrun

theorem runLane_heeds {branches : List (PipelineCondition × SequenceRunner)}
    {otherwise : Option SequenceRunner} (hbranches : ∀ b ∈ branches, RunnerHeeds b.2)
    (hotherwise : ∀ run ∈ otherwise, RunnerHeeds run) (path : JsString) (scope : StepScope)
    (lane : Option Lane) :
    Heeds (·.1 = .canceled) (runLane branches otherwise path scope lane) := by
  have hrunner := laneRunner_of (P := RunnerHeeds) hbranches hotherwise lane
  rw [runLane]
  generalize laneRunner branches otherwise lane = runner at hrunner
  cases runner with
  | none => exact Heeds.ret _
  | some run =>
    refine Heeds.bind (hrunner run rfl scope ⟨path, none⟩) (fun outcome => Heeds.ret _) ?_
    rintro ⟨_, steps⟩ rfl
    exact Unwinds.ret rfl

theorem executeBranch_heeds (d : DriveCtx) (base : PipelineStepBase)
    {branches : List (PipelineCondition × SequenceRunner)} {otherwise : Option SequenceRunner}
    (hbranches : ∀ b ∈ branches, RunnerHeeds b.2) (hotherwise : ∀ run ∈ otherwise, RunnerHeeds run)
    (path : JsString) (parent : Option StepParentFrame) (scope : StepScope) :
    Heeds (·.1 = .canceled) (executeBranch d base branches otherwise path parent scope) := by
  refine Plain.bind (Plain.await _) fun c => ?_
  dsimp only
  split
  · refine Plain.bind (backfill_plain _ _ _) fun _ => ?_
    exact runLane_heeds hbranches hotherwise _ _ _
  refine Plain.bind (x := if c.1 then pure none else adoptTerminal c.2 _ path scope.steps) ?_
    fun adopted => ?_
  · split
    · exact Plain.ret _
    · exact adoptTerminal_plain _ _ _ _
  rcases adopted with _ | result
  · refine Plain.bind (x := if c.1 then pure () else markRunning path _) ?_ fun _ => ?_
    · split
      · exact Plain.ret _
      · exact Plain.await _
    refine Plain.bind (countExecuted_plain path) fun _ => Plain.bind (emit_plain _) fun _ => ?_
    refine Heeds.read (fun _ _ => rfl) fun m _ => ?_
    generalize chooseLane d _ _ _ _ = chosen
    cases chosen with
    | error error => exact Plain.bind (finishFailed_plain _ _ _ _ _) fun _ => Heeds.ret _
    | ok lane =>
      refine Plain.bind (finishSucceeded_plain _ _ _ _) fun steps => ?_
      exact runLane_heeds hbranches hotherwise _ _ _
  · exact Heeds.ret _

/-- A canceled item ends the loop, whatever it does with items that failed. -/
theorem runItems_heeds (step : ForEachStep) {body : SequenceRunner} (hbody : RunnerHeeds body)
    (path : JsString) (attempt : Nat) (scope : StepScope) (items : List JsonValue) (index : Nat)
    (records : List ItemRecord) :
    Heeds (· = .error .canceled) (runItems step body path attempt scope items index records) := by
  induction items generalizing index records with
  | nil => exact Heeds.ret _
  | cons item items ih =>
    rw [runItems]
    refine HeedsOf.lookFirst (Plain.bind (Plain.await _) fun _ => ?_).2
      (finishCanceled_ret path rfl)
    refine Heeds.bind (hbody { scope with item := some item } ⟨path, some index⟩) ?_ ?_
    · rintro ⟨_ | _ | ⟨error, errorClass⟩ | _, steps⟩
      · exact ih _ _
      · exact ih _ _
      · dsimp only
        split
        · exact Plain.bind (finishFailed_plain _ _ _ _ _) fun _ => Heeds.ret _
        · exact ih _ _
      · refine Heeds.read (fun _ _ => rfl) fun m hm => ?_
        split
        · exact Heeds.ret _
        · exact Plain.bind (Plain.await _) fun _ => Heeds.ret _
    · rintro ⟨_, steps⟩ rfl
      refine Unwinds.read fun m hm => ?_
      rw [if_neg (by rw [hm.2]; exact Bool.false_ne_true)]
      exact finishCanceled_ret path rfl

theorem executeForEach_heeds (d : DriveCtx) (step : ForEachStep) {body : SequenceRunner}
    (hbody : RunnerHeeds body) (path : JsString) (parent : Option StepParentFrame)
    (scope : StepScope) :
    Heeds (·.1 = .canceled) (executeForEach d step body path parent scope) := by
  refine Heeds.read (fun _ _ => rfl) fun m _ => Plain.bind (Plain.await _) fun c => ?_
  refine Plain.bind (x := if c.1 then pure none else adoptTerminal c.2 _ path scope.steps) ?_
    fun adopted => ?_
  · split
    · exact Plain.ret _
    · exact adoptTerminal_plain _ _ _ _
  rcases adopted with _ | result
  · refine Plain.bind (x := if c.1 then pure () else markRunning path _) ?_ fun _ => ?_
    · split
      · exact Plain.ret _
      · exact Plain.await _
    refine Plain.bind (countExecuted_plain path) fun _ => Plain.bind (emit_plain _) fun _ => ?_
    generalize Resolution.plan _ _ = plan
    rcases plan with ⟨errorClass, error⟩ | items
    · exact Plain.bind (finishFailed_plain _ _ _ _ _) fun _ => Heeds.ret _
    refine Heeds.bind (runItems_heeds step hbody path _ scope items 0 []) ?_ ?_
    · rintro (result | records)
      · exact Heeds.ret _
      · exact Plain.bind (finishSucceeded_plain _ _ _ _) fun _ => Heeds.ret _
    · rintro _ rfl
      exact Unwinds.ret rfl
  · exact Heeds.ret _

/-! ## Sequences -/

theorem runSequence_cons {d : DriveCtx} {step : PipelineStep} {rest : List PipelineStep}
    {scope : StepScope} {parent : Option StepParentFrame}
    (hstep : Heeds (·.1 = .canceled)
      (executeStep d step (stepInstancePath parent step.id) parent scope))
    (hrest : ∀ steps, Heeds (·.1 = .canceled)
      (runSequence d rest { scope with steps := steps } parent)) :
    Heeds (·.1 = .canceled) (runSequence d (step :: rest) scope parent) := by
  rw [runSequence]
  refine HeedsOf.lookEither (Plain.bind (Plain.await _) fun t => ?_).2 (Unwinds.ret rfl)
  dsimp only
  split
  · exact Plain.bind (Plain.await _) fun _ => Heeds.ret _
  refine Heeds.read (fun _ _ => rfl) fun m _ => ?_
  split
  · exact Plain.bind (Plain.await _) fun _ => Heeds.ret _
  refine Heeds.bind hstep ?_ ?_
  · rintro ⟨_ | _ | ⟨error, errorClass⟩ | _, steps⟩
    · exact hrest steps
    · refine Plain.bind (x := if parent.isNone then skipRemaining parent rest else pure ()) ?_
        fun _ => Heeds.ret _
      split
      · exact skipRemaining_plain parent rest
      · exact Plain.ret _
    · exact Heeds.ret _
    · exact Heeds.ret _
  · rintro ⟨_, steps⟩ rfl
    exact Unwinds.ret rfl

theorem runSequence_heeds (d : DriveCtx) (steps : List PipelineStep) (scope : StepScope)
    (parent : Option StepParentFrame) :
    Heeds (·.1 = .canceled) (runSequence d steps scope parent) := by
  refine runSequence.induct
    (fun steps scope parent => Heeds (·.1 = .canceled) (runSequence d steps scope parent))
    (fun step path parent scope => Heeds (·.1 = .canceled) (executeStep d step path parent scope))
    (fun otherwise => ∀ run ∈ elseRunner d otherwise, RunnerHeeds run)
    (fun branches => ∀ b ∈ branchRunners d branches, RunnerHeeds b.2)
    ?_ ?_ ?_ ?_ ?_ ?_ ?_ ?_ ?_ ?_ ?_ steps scope parent
  · exact fun step path parent scope => executeLeaf_heeds d step path parent scope
  · exact fun step path parent scope => (executeFilter_plain d step path parent scope).heeds
  · exact fun step path parent scope => (executeState_plain d step path parent scope).heeds
  · intro base branches otherwise path parent scope hbranches hotherwise
    exact executeBranch_heeds d base hbranches hotherwise path parent scope
  · intro step steps path parent scope hbody
    exact executeForEach_heeds d step (fun scope frame => hbody scope frame) path parent scope
  · exact fun scope parent => Heeds.ret _
  · intro step rest scope parent hstep hrest
    exact runSequence_cons hstep hrest
  · exact fun b hb => absurd hb List.not_mem_nil
  · intro when_ steps rest hsteps hrest b hb
    rcases List.mem_cons.mp hb with rfl | hb
    · exact fun scope frame => hsteps scope frame
    · exact hrest b hb
  · exact fun run hrun => by cases hrun
  · rintro steps hsteps run ⟨⟩
    exact fun scope frame => hsteps scope frame

/-! ## The driver -/

/-- The next statement writes the run `canceled`. -/
def Settling (t : Thread driverSignature DriveMemory Unit) : Prop :=
  ∃ m k, t = .await m (.markRun ⟨.canceled, none, none⟩) k

/-- Undisturbed, the canceled driver writes the run `canceled`. -/
def Canceling (t : Thread driverSignature DriveMemory Unit) : Prop := t.Leads AsksCanceled Settling

theorem deliverOnComplete_plain (d : Deps) (config : WorkflowConfig) (scope : Option PipelineScope)
    (status : RunStatus) : Plain (deliverOnComplete d config scope status) := by
  rw [deliverOnComplete]
  split
  · exact Plain.ret _
  · exact Plain.await _

theorem settle_plain (d : Deps) (config : WorkflowConfig) (status : RunStatus)
    (error : Option JsString) (scope : StepScope) : Plain (settle d config status error scope) := by
  refine Plain.bind (Plain.await _) fun _ => Plain.bind (emit_plain _).attempt fun _ => ?_
  refine Plain.bind (Plain.await _) fun _ => Plain.read (fun _ _ => rfl) fun m => ?_
  exact deliverOnComplete_plain _ _ _ _

theorem failOutright_plain (error : JsString) : Plain (failOutright error) :=
  Plain.bind (Plain.await _) fun _ => Plain.bind (Plain.await _) fun _ => Plain.await _

theorem seedFromLedger_plain : Plain seedFromLedger := by
  refine Plain.bind (Plain.await _) fun ledger => ?_
  refine Plain.bind (Plain.update (fun _ hm => hm) fun _ => rfl) fun _ => ?_
  refine Plain.bind (Plain.bind (Plain.await _) fun _ => Plain.ret _) fun seen => ?_
  exact Plain.bind (Plain.update (fun _ hm => hm) fun _ => rfl) fun _ => Plain.ret _

theorem failDrive_plain (d : Deps) (config : WorkflowConfig) (error : DriverError) :
    Plain (failDrive d config error) := by
  refine Plain.read (fun _ _ => rfl) fun m => ?_
  split
  · exact Plain.ret _
  refine Plain.bind (Plain.attempt ?_) fun _ => Plain.ret _
  refine Plain.bind (Plain.await _) fun _ => Plain.bind (Plain.await _) fun _ => ?_
  exact deliverOnComplete_plain _ _ _ _

/-- Behind a canceled walk the run is settled. -/
theorem settles {d : Deps} {config : WorkflowConfig} {scope : StepScope}
    (t : Thread driverSignature DriveMemory (Walked SequenceOutcome))
    (h : Gone (·.1 = .canceled) t) :
    Canceling (t.andThen (Proc.next fun outcome => do
      let m ← Proc.read
      if m.interrupted then return ()
      else
        settle d config (runStatusOf outcome.1).1 (runStatusOf outcome.1).2
          { scope with steps := outcome.2 })) := by
  refine Thread.Leads.andThen h ?_
  rintro _ ⟨m, ⟨_, steps⟩, rfl, rfl, hm⟩
  show Thread.Leads _ _ ((if m.interrupted then _ else _ : DriverProc Unit) m)
  rw [if_neg (by rw [hm.2]; exact Bool.false_ne_true)]
  exact .of ⟨_, _, rfl⟩

theorem driveRun_heeds (d : Deps) (run : RunRow) (config : WorkflowConfig) :
    (driveRun d run config).Heeds cancelSignal DriverOp.Waits (fun _ => True) Canceling := by
  rw [driveRun]
  split
  · exact (failOutright_plain _).mono fun _ h => h.elim
  refine Plain.bind (Plain.await _) fun baseSeq => ?_
  refine Plain.bind (Plain.update (fun _ hm => hm) fun _ => rfl) fun _ => ?_
  refine Plain.bind (x := run.startedAt.elim now pure) ?_ fun startedAt => ?_
  · cases run.startedAt with
    | none => exact Plain.await _
    | some startedAt => exact Plain.ret startedAt
  refine Plain.bind (Plain.await _) fun live => ?_
  split
  · exact Proc.Heeds.ret trivial
  refine Plain.bind (Plain.await _) fun _ => ?_
  refine Plain.bind (x := if baseSeq = 0 then emit _ else pure ()) ?_ fun _ => ?_
  · split
    · exact emit_plain _
    · exact Plain.ret _
  refine Plain.bind (Plain.await _) fun state => ?_
  refine Plain.bind (Plain.update (fun _ hm => hm) fun _ => rfl) fun _ => ?_
  refine Plain.bind (x := if baseSeq = 0 then pure none else seedFromLedger) ?_ fun prior => ?_
  · split
    · exact Plain.ret _
    · exact seedFromLedger_plain
  refine Proc.Heeds.bind (runSequence_heeds _ _ _ _) (fun outcome => ?_) settles
  refine Proc.Heeds.read (fun _ _ => rfl) fun m _ => ?_
  split
  · exact Proc.Heeds.ret trivial
  · exact (settle_plain _ _ _ _ _).mono fun _ h => h.elim

/-- A cancel makes no difference to the driver, or it writes the run `canceled`. -/
theorem drive_heeds (d : Deps) (run : RunRow) (config : WorkflowConfig) :
    (drive d run config).Heeds cancelSignal DriverOp.Waits (fun _ => True) Canceling := by
  refine Proc.Heeds.handle (driveRun_heeds d run config) (fun error => ?_) fun t ht => ?_
  · exact (failDrive_plain d config error).mono fun _ h => h.elim
  · refine Thread.Leads.andThen ht ?_
    rintro _ ⟨m, k, rfl⟩
    exact .of ⟨m, _, rfl⟩

end InvisibleString.Pipeline
