import InvisibleString.Pipeline.Heeding
import InvisibleString.Pipeline.Resumption

/- # `Pipeline.EventLog` — the numbers of a run's events

The appender of a driver keeps the next number in memory and advances it before the event is
stored.  Where the store fails, memory is ahead of the table.  Nothing that fails so is caught
inside the walk: the driver leaves it with the error, and emits no more.  The next driver starts
from the count of the table.

**Proved here.**

    a driver that goes on has its memory in step with the table  (`runSequence_steady`)
    in every history of a run its events are numbered without a gap, what was published was
      stored under the number it carries, and no driver asks for a number that is taken
                                                                          (`event_log_gap_free`)
-/

namespace InvisibleString.Pipeline

open EventLoop Json Relation
open Tailer (RunStatus)

/-! ## The log -/

/-- The events are numbered without a gap, and those that were told of were stored so. -/
structure GapFree (w : World) : Prop where
  seqs : w.events.map StoredEvent.seq = List.range w.events.length
  told : ∀ entry ∈ w.announced, ∀ seq event, entry.2 = .published (.event seq event) →
    ⟨seq, event⟩ ∈ w.events

/-- An append under a number that is not the next one. -/
def DriverOp.collides : DriverOp → World → Bool
  | .appendEvent seq _, w => decide (seq ≠ w.events.length)
  | _, _ => false

/-- The statements that store an event or tell of one. -/
def DriverOp.logs : DriverOp → Bool
  | .appendEvent _ _ => true
  | .announce (.published (.event _ _)) => true
  | _ => false

/-- The answers, with a note whether an append has ever asked for another number. -/
def Logged : Answers driverSignature DriveMemory (World × Bool) :=
  fun op m v r m' v' => Answered op m v.1 r m' v'.1 ∧ v'.2 = (v.2 || op.collides v.1)

def Unbroken (_ : DriveMemory) (v : World × Bool) : Prop := GapFree v.1 ∧ v.2 = false

/-- The appender's number is the next one. -/
def InStep (m : DriveMemory) (v : World × Bool) : Prop :=
  Unbroken m v ∧ m.seq = v.1.events.length

theorem GapFree.fresh (run : RunRow) (state : JsonRecord) (clock : Nat) :
    GapFree (World.fresh run state clock) where
  seqs := rfl
  told _ h := absurd h List.not_mem_nil

/-- The table and what was told are as they were. -/
structure SameLog (m m' : DriveMemory) (w w' : World) : Prop where
  events : w'.events = w.events
  told : ∀ entry ∈ w'.announced, entry ∈ w.announced ∨
    ∀ seq event, entry.2 ≠ .published (.event seq event)
  seq : m'.seq = m.seq

section

variable {m m' m'' : DriveMemory} {w w' w'' : World}

theorem SameLog.refl (m : DriveMemory) (w : World) : SameLog m m w w :=
  ⟨rfl, fun _ h => .inl h, rfl⟩

theorem SameLog.trans (h : SameLog m m' w w') (h' : SameLog m' m'' w' w'') :
    SameLog m m'' w w'' where
  events := h'.events.trans h.events
  told entry hentry := (h'.told entry hentry).elim (h.told entry) .inr
  seq := h'.seq.trans h.seq

theorem SameLog.of_eq (hevents : w'.events = w.events) (hannounced : w'.announced = w.announced) :
    SameLog m m w w' := ⟨hevents, fun _ h => .inl (hannounced ▸ h), rfl⟩

theorem SameLog.gapFree (h : SameLog m m' w w') (hw : GapFree w) : GapFree w' where
  seqs := by
    rw [h.events]
    exact hw.seqs
  told entry hentry seq event heq := by
    rw [h.events]
    rcases h.told entry hentry with hbefore | hnone
    · exact hw.told entry hbefore seq event heq
    · exact absurd heq (hnone seq event)

theorem World.markRun_announced (w : World) (patch : RunPatch) :
    (w.markRun patch).announced = w.announced := by
  rw [World.markRun]
  split
  · rfl
  · rfl

theorem sameLog_env (h : Env (m, w) (m', w')) : SameLog m m' w w' := by
  cases h with
  | clock => exact .of_eq rfl rfl
  | cancel => exact ⟨rfl, fun _ h => .inl h, rfl⟩
  | interrupt => exact ⟨rfl, fun _ h => .inl h, rfl⟩
  | state => exact .of_eq rfl rfl
  | run _ _ patch => exact .of_eq (World.markRun_events w patch) (World.markRun_announced w patch)

theorem sameLog_envs (h : ReflTransGen Env (m, w) (m', w')) : SameLog m m' w w' := by
  generalize ha : (m, w) = a at h
  generalize hb : (m', w') = b at h
  induction h generalizing m' w' with
  | refl =>
    obtain ⟨rfl, rfl⟩ := Prod.mk.inj (ha.trans hb.symm)
    exact .refl m w
  | @tail c d _ hs ih =>
    subst hb
    exact (ih rfl).trans (sameLog_env hs)

/-- A statement that neither stores an event nor tells of one. -/
theorem sameLog_effect {op : DriverOp} {r : driverSignature.Ret op} (h : Effect op w r w')
    (hop : op.logs = false) : SameLog m m w w' := by
  cases h with
  | appendEvent => cases hop
  | announce _ announcement =>
    refine ⟨rfl, fun entry hentry => ?_, rfl⟩
    rcases List.mem_append.mp hentry with hentry | hentry
    · exact .inl hentry
    · right
      intro seq event heq
      rw [List.mem_singleton.mp hentry] at heq
      change announcement = _ at heq
      rw [heq] at hop
      cases hop
  | markRun _ patch =>
    exact .of_eq (World.markRun_events w patch) (World.markRun_announced w patch)
  | now | countRunEvents | listEvents | getRunStatus | claim | markRunning | markWaiting | finish
  | listForRun | snapshot | setState | invoke | invokeLinking | outcome | outcomeLinking | pause
  | note => exact .of_eq rfl rfl

theorem sameLog_answered {op : DriverOp} {r : Except DriverError (driverSignature.Ret op)}
    (h : Answered op m w r m' w') (hop : op.logs = false) : SameLog m m' w w' := by
  cases h with
  | ok before effect after =>
    exact (sameLog_envs before).trans ((sameLog_effect effect hop).trans (sameLog_envs after))
  | lost before effect after _ =>
    exact (sameLog_envs before).trans ((sameLog_effect effect hop).trans (sameLog_envs after))
  | refused before _ => exact sameLog_envs before
  | stateCap before _ after => exact (sameLog_envs before).trans (sameLog_envs after)

end

/-! ## Programs in step with the log -/

section

variable {α β : Type}

/-- In step wherever it awaits, and when it ends, in whatever way. -/
abbrev Calm (p : DriverProc α) : Prop := p.Keeps Logged InStep

/-- The log is unbroken all the way, and a program that returns is in step. -/
def Steady (p : DriverProc α) : Prop :=
  ∀ m v, InStep m v → p.Yields Logged Unbroken m v fun _ => InStep

variable {x : DriverProc α} {f : α → DriverProc β}

theorem Calm.steady (h : Calm x) : Steady x := by
  intro m v hv
  refine (Proc.Sat.weaken (h m v hv) fun _ _ h => h.1).mono ?_
  rintro (error | a) m' v' h'
  · exact h'.1
  · exact h'

theorem InStep.same {m m' : DriveMemory} {v v' : World × Bool} (h : InStep m v)
    (hsame : SameLog m m' v.1 v'.1) (hbad : v'.2 = v.2) : InStep m' v' := by
  refine ⟨⟨hsame.gapFree h.1.1, hbad.trans h.1.2⟩, ?_⟩
  rw [hsame.seq, hsame.events]
  exact h.2

theorem collides_of_logs {op : DriverOp} (hop : op.logs = false) (w : World) :
    op.collides w = false := by
  cases op with
  | appendEvent => cases hop
  | _ => rfl

theorem Calm.await {op : DriverOp} (hop : op.logs = false) : Calm (await op) := by
  refine Proc.Keeps.call fun m v r m' v' h hs => ?_
  refine h.same (sameLog_answered hs.1 hop) ?_
  rw [hs.2, collides_of_logs hop, Bool.or_false]

theorem Steady.await {op : DriverOp} (hop : op.logs = false) : Steady (await op) :=
  (Calm.await hop).steady

theorem Steady.pure (a : α) : Steady (Pure.pure a : DriverProc α) := fun _ _ h => h

theorem Steady.throw (error : DriverError) : Steady (throw error : DriverProc α) :=
  fun _ _ h => h.1

theorem Steady.bind (hx : Steady x) (hf : ∀ a, Steady (f a)) : Steady (x >>= f) :=
  fun m v h => (hx m v h).bind fun a m' v' h' => hf a m' v' h'

theorem Steady.read {f : DriveMemory → DriverProc β} (hf : ∀ m, Steady (f m)) :
    Steady (Proc.read >>= f) :=
  Steady.bind (fun _ _ h => h) hf

theorem Steady.update {g : DriveMemory → DriveMemory} (hg : ∀ m, (g m).seq = m.seq) :
    Steady (Proc.update g) :=
  fun m _ h => ⟨h.1, (hg m).trans h.2⟩

theorem Steady.ite {c : Prop} [Decidable c] {y : DriverProc α} (hx : Steady x) (hy : Steady y) :
    Steady (if c then x else y) := by
  split
  · exact hx
  · exact hy

theorem Steady.attempt (hx : Calm x) : Steady (Proc.attempt x) :=
  Calm.steady (Proc.Keeps.attempt hx)

theorem GapFree.append {w : World} (h : GapFree w) (event : PipelineStreamEvent) :
    GapFree (w.append w.events.length event) where
  seqs := by
    show (w.events ++ [_]).map StoredEvent.seq = List.range (w.events ++ [_]).length
    rw [List.map_append, h.seqs, List.length_append]
    exact List.range_succ.symm
  told entry hentry seq event' heq := List.mem_append_left _ (h.told entry hentry seq event' heq)

/-- An append under the next number, in a memory that is ahead by one. -/
theorem append_yields (event : PipelineStreamEvent) {m : DriveMemory} {v : World × Bool}
    (h : Unbroken m v) (hseq : m.seq = v.1.events.length + 1) :
    (Pipeline.await (.appendEvent v.1.events.length event)).Yields Logged Unbroken m v
      fun _ m' v' => InStep m' v' ∧ ⟨v.1.events.length, event⟩ ∈ v'.1.events := by
  have hflag : ∀ (m' : DriveMemory) (v' : World × Bool) r,
      Logged (.appendEvent v.1.events.length event) m v r m' v' → v'.2 = false := by
    intro m' v' r hs
    rw [hs.2, h.2, Bool.false_or]
    exact decide_eq_false fun hne => hne rfl
  -- what the table is once the append has had its effect
  have heffect : ∀ {m₁ m₂ : DriveMemory} {w₁ w₂ w₃ : World} {r},
      SameLog m m₁ v.1 w₁ → Effect (.appendEvent v.1.events.length event) w₁ r w₂ →
      SameLog m₁ m₂ w₂ w₃ → GapFree w₃ ∧ m₂.seq = w₃.events.length ∧
        ⟨v.1.events.length, event⟩ ∈ w₃.events := by
    intro m₁ m₂ w₁ w₂ w₃ r before effect after
    cases effect with
    | appendEvent _ _ _ _ =>
      have hlength : w₁.events.length = v.1.events.length := congrArg List.length before.events
      have happended := (before.gapFree h.1).append event
      rw [hlength] at happended
      refine ⟨after.gapFree happended, ?_, ?_⟩
      · rw [after.seq, before.seq, hseq, after.events, ← hlength]
        simp only [World.append, List.length_append, List.length_singleton]
      · rw [after.events]
        exact List.mem_append_right _ List.mem_cons_self
  refine Proc.yields_call h (fun a m' v' hs => ?_) fun error m' v' hs => ?_
  · have hbad := hflag m' v' _ hs
    cases hs.1 with
    | ok before effect after =>
      obtain ⟨hfree, hlast, hmem⟩ := heffect (sameLog_envs before) effect (sameLog_envs after)
      exact ⟨⟨⟨hfree, hbad⟩, hlast⟩, hmem⟩
  · have hbad := hflag m' v' _ hs
    cases hs.1 with
    | lost before effect after _ =>
      exact ⟨(heffect (sameLog_envs before) effect (sameLog_envs after)).1, hbad⟩
    | refused before _ => exact ⟨(sameLog_envs before).gapFree h.1, hbad⟩

theorem tell_yields {seq : Nat} {event : PipelineStreamEvent} {m : DriveMemory}
    {v : World × Bool} (h : InStep m v) (hmem : ⟨seq, event⟩ ∈ v.1.events) :
    (announce (.published (.event seq event))).Yields Logged Unbroken m v fun _ => InStep := by
  have htell : ∀ {m₁ m₂ : DriveMemory} {w₁ w₂ w₃ : World} {r},
      SameLog m m₁ v.1 w₁ → Effect (.announce (.published (.event seq event))) w₁ r w₂ →
      SameLog m₁ m₂ w₂ w₃ → GapFree w₃ ∧ m₂.seq = w₃.events.length := by
    intro m₁ m₂ w₁ w₂ w₃ r before effect after
    cases effect with
    | announce =>
      have hfree := before.gapFree h.1.1
      have htold : GapFree (w₁.announce (.published (.event seq event))) := by
        refine ⟨hfree.seqs, fun entry hentry seq' event' heq => ?_⟩
        rcases List.mem_append.mp hentry with hentry | hentry
        · exact hfree.told entry hentry seq' event' heq
        · rw [List.mem_singleton.mp hentry] at heq
          cases heq
          show _ ∈ w₁.events
          rw [before.events]
          exact hmem
      refine ⟨after.gapFree htold, ?_⟩
      rw [after.seq, before.seq, after.events]
      exact h.2.trans (congrArg List.length before.events.symm)
  refine Proc.yields_call h.1 (fun a m' v' hs => ?_) fun error m' v' hs => ?_
  · have hbad : v'.2 = false := by
      rw [hs.2, h.1.2]
      rfl
    cases hs.1 with
    | ok before effect after =>
      obtain ⟨hfree, hlast⟩ := htell (sameLog_envs before) effect (sameLog_envs after)
      exact ⟨⟨hfree, hbad⟩, hlast⟩
  · cases hs.1 with
    | lost _ _ _ hop => cases hop
    | refused _ hop => cases hop

theorem emit_steady (event : PipelineStreamEvent) : Steady (emit event) := by
  intro m v h
  rw [emit, Proc.yields_bind, Proc.yields_read, Proc.yields_bind, Proc.yields_update, h.2]
  have happend := append_yields (m := { m with seq := v.1.events.length + 1 }) event h.1 rfl
  exact happend.bind fun _ m' v' h' => tell_yields h'.1 h'.2

end

/-! ## Steps -/

theorem emitStarted_steady (step : StepInfo) (path : JsString) (attempt : Nat)
    (childRunId : Option JsString) : Steady (emitStarted step path attempt childRunId) :=
  emit_steady _

theorem finishFailed_steady (step : StepInfo) (path : JsString) (attempt : Nat)
    (errorClass error : JsString) : Steady (finishFailed step path attempt errorClass error) :=
  Steady.bind (Steady.await rfl) fun _ => Steady.bind (emit_steady _) fun _ => Steady.pure _

theorem finishSucceeded_steady (step : StepInfo) (path : JsString) (steps : ScopeSteps)
    (output : JsonRecord) : Steady (finishSucceeded step path steps output) :=
  Steady.bind (Steady.await rfl) fun _ => Steady.bind (emit_steady _) fun _ => Steady.pure _

theorem finishCanceled_steady (path : JsString) : Steady (finishCanceled path) := Steady.await rfl

theorem countExecuted_steady (path : JsString) : Steady (countExecuted path) :=
  Steady.bind (Steady.update fun _ => rfl) fun _ => Steady.await rfl

theorem pause_steady : Steady pause :=
  Steady.read fun _ => Steady.ite (Steady.pure _) (Steady.await rfl)

theorem backfill_steady (row : RunStepRow) (step : StepInfo) (path : JsString) :
    Steady (backfillTerminalStepEvent row step path) := by
  refine Steady.read fun m => ?_
  cases m.priorTerminalEventPaths with
  | none => exact Steady.pure _
  | some seen =>
    refine Steady.ite (Steady.pure _) (Steady.bind (Steady.update fun _ => rfl) fun _ => ?_)
    cases row.status with
    | succeeded | skipped | failed => exact emit_steady _
    | pending | running | waiting | canceled => exact Steady.pure _

theorem adoptTerminal_steady (row : RunStepRow) (step : StepInfo) (path : JsString)
    (steps : ScopeSteps) : Steady (adoptTerminal row step path steps) := by
  rw [adoptTerminal]
  cases row.status with
  | succeeded | skipped | failed =>
    exact Steady.bind (backfill_steady _ _ _) fun _ => Steady.pure _
  | pending | running | waiting | canceled => exact Steady.pure _

theorem adopted_steady (c : Bool × RunStepRow) (step : StepInfo) (path : JsString)
    (steps : ScopeSteps) :
    Steady (if c.1 then pure none else adoptTerminal c.2 step path steps) :=
  Steady.ite (Steady.pure _) (adoptTerminal_steady _ _ _ _)

theorem marked_steady (created : Bool) (path : JsString) (attempt : Nat) :
    Steady (if created then pure () else markRunning path attempt) :=
  Steady.ite (Steady.pure _) (Steady.await rfl)

section

variable {d : DriveCtx}

theorem executeFilter_steady (step : FilterStep) (path : JsString)
    (parent : Option StepParentFrame) (scope : StepScope) :
    Steady (executeFilter d step path parent scope) := by
  refine Steady.bind (Steady.await rfl) fun c => ?_
  refine Steady.bind (adopted_steady c _ _ _) fun adopted => ?_
  rcases adopted with _ | ⟨_ | _ | _ | _, steps⟩
  · refine Steady.bind (marked_steady _ _ _) fun _ => ?_
    refine Steady.bind (countExecuted_steady path) fun _ => ?_
    refine Steady.bind (emit_steady _) fun _ => Steady.read fun m => ?_
    cases d.surfaces.evaluateCondition step.condition (scope.withState m.state) with
    | error error => exact Steady.bind (finishFailed_steady _ _ _ _ _) fun _ => Steady.pure _
    | ok matched => exact Steady.bind (finishSucceeded_steady _ _ _ _) fun _ => Steady.pure _
  · exact Steady.ite (Steady.pure _) (Steady.pure _)
  · exact Steady.pure _
  · exact Steady.pure _
  · exact Steady.pure _

theorem executeState_steady (step : StateStep) (path : JsString)
    (parent : Option StepParentFrame) (scope : StepScope) :
    Steady (executeState d step path parent scope) := by
  refine Steady.read fun m => Steady.bind (Steady.await rfl) fun c => ?_
  refine Steady.bind (adopted_steady c _ _ _) fun adopted => ?_
  rcases adopted with _ | ⟨_ | _ | _ | _, steps⟩
  · refine Steady.bind (marked_steady _ _ _) fun _ => ?_
    refine Steady.bind (countExecuted_steady path) fun _ => ?_
    refine Steady.bind (emit_steady _) fun _ => ?_
    dsimp only
    split
    · exact Steady.bind (finishFailed_steady _ _ _ _ _) fun _ => Steady.pure _
    · refine Steady.bind (Steady.attempt (Calm.await rfl)) fun written => ?_
      rcases written with (_ | _) | _
      · exact Steady.bind (finishFailed_steady _ _ _ _ _) fun _ => Steady.pure _
      · exact Steady.throw _
      · refine Steady.bind (Steady.update fun _ => rfl) fun _ => ?_
        refine Steady.bind (emit_steady _) fun _ => ?_
        exact Steady.bind (finishSucceeded_steady _ _ _ _) fun _ => Steady.pure _
  · exact Steady.bind (Steady.update fun _ => rfl) fun _ => Steady.pure _
  · exact Steady.pure _
  · exact Steady.pure _
  · exact Steady.pure _

/-! ## Leaf steps -/

theorem runAttempt_steady (call : Invocation) (remainingMs : Nat) :
    Steady (runAttempt d call remainingMs) := by
  rw [runAttempt]
  split
  · exact Steady.pure _
  refine Steady.bind (Steady.await rfl) fun _ => Steady.bind (Steady.await rfl) fun raced => ?_
  refine Steady.read fun m => ?_
  rcases raced with (output | ⟨errorClass, error, retryable⟩ | child) | _
  · exact Steady.ite (Steady.pure _) (Steady.pure _)
  · exact Steady.ite (Steady.pure _) (Steady.ite (Steady.pure _) (Steady.pure _))
  · exact Steady.ite (Steady.pure _) (Steady.ite (Steady.pure _) (Steady.pure _))
  · exact Steady.ite (Steady.pure _) (Steady.ite (Steady.pure _) (Steady.pure _))

theorem hang_calm {α : Type} : Calm (hang : DriverProc α) :=
  Proc.Keeps.bind (Calm.await rfl) fun e => e.elim

theorem pollChild_calm (childRunId : JsString) (rounds : Nat) :
    Calm (pollChild childRunId rounds) := by
  induction rounds with
  | zero => exact hang_calm
  | succ rounds ih =>
    refine Proc.Keeps.bind Proc.Keeps.read fun m => Proc.Keeps.ite (Proc.Keeps.pure _) ?_
    refine Proc.Keeps.ite (Proc.Keeps.pure _) (Proc.Keeps.bind (Calm.await rfl) fun status => ?_)
    rcases status with _ | status
    · exact Proc.Keeps.pure _
    cases status with
    | waiting => exact Proc.Keeps.bind (Calm.await rfl) fun _ => ih
    | queued | running | succeeded | failed | canceled => exact Proc.Keeps.pure _

theorem parkOnChild_steady (step : StepInfo) (path childRunId : JsString) :
    Steady (parkOnChild d step path childRunId) := by
  refine Steady.bind (Steady.await rfl) fun _ => Steady.bind (emit_steady _) fun _ => ?_
  refine Steady.bind (Steady.await rfl) fun _ => Steady.bind (Steady.await rfl) fun _ => ?_
  refine Steady.bind (Steady.attempt (pollChild_calm _ _)) fun parked => ?_
  refine Steady.bind (Steady.await rfl) fun resumed => ?_
  refine Steady.bind (Steady.ite (Steady.await rfl) (Steady.pure _)) fun _ => ?_
  cases parked with
  | ok parked => exact Steady.pure _
  | error error => exact Steady.throw _

theorem attempts_steady (step : LeafStep) (path : JsString) (input : JsonValue) (scope : StepScope)
    (budget rounds attempt : Nat) (childRunId : Option JsString) :
    Steady (attempts d step path input scope budget rounds attempt childRunId) := by
  induction rounds generalizing attempt childRunId with
  | zero => exact hang_calm.steady
  | succ rounds ih =>
    have hcanceled : Steady (do
        finishCanceled path
        return (.canceled, scope.steps) : DriverProc (Walked StepResult)) :=
      Steady.bind (finishCanceled_steady path) fun _ => Steady.pure _
    rw [attempts]
    refine Steady.read fun m => Steady.ite (Steady.pure _) (Steady.ite hcanceled ?_)
    refine Steady.bind (Steady.await rfl) fun t => ?_
    split
    · refine Steady.bind (Steady.await rfl) fun _ => ?_
      exact Steady.bind (finishFailed_steady _ _ _ _ _) fun _ => Steady.pure _
    refine Steady.bind (emitStarted_steady _ _ _ _) fun _ => ?_
    refine Steady.bind (runAttempt_steady _ _) fun outcome => ?_
    rcases outcome with (output | ⟨errorClass, error, retryable⟩ | child) | _ | _
    · refine Steady.ite ?_ ?_
      · exact Steady.bind (finishFailed_steady _ _ _ _ _) fun _ => Steady.pure _
      · exact Steady.bind (finishSucceeded_steady _ _ _ _) fun _ => Steady.pure _
    · refine Steady.bind (Steady.await rfl) fun t => Steady.read fun m => ?_
      refine Steady.bind (emit_steady _) fun _ => Steady.ite ?_ ?_
      · refine Steady.bind pause_steady fun _ => Steady.bind (Steady.await rfl) fun _ => ?_
        exact ih _ _
      · exact Steady.bind (Steady.await rfl) fun _ => Steady.pure _
    · refine Steady.bind (parkOnChild_steady _ _ _) fun parked => ?_
      cases parked with
      | resumed => exact Steady.bind (Steady.await rfl) fun _ => ih _ _
      | canceled => exact hcanceled
      | interrupted => exact Steady.pure _
      | missing => exact Steady.bind (finishFailed_steady _ _ _ _ _) fun _ => Steady.pure _
    · exact hcanceled
    · exact Steady.pure _

theorem executeLeaf_steady (step : LeafStep) (path : JsString) (parent : Option StepParentFrame)
    (scope : StepScope) : Steady (executeLeaf d step path parent scope) := by
  refine Steady.read fun m => Steady.bind (Steady.await rfl) fun c => ?_
  refine Steady.bind (adopted_steady c _ _ _) fun adopted => ?_
  rcases adopted with _ | result
  · refine Steady.ite (Steady.bind (emit_steady _) fun _ => ?_) ?_
    · exact Steady.bind (finishFailed_steady _ _ _ _ _) fun _ => Steady.pure _
    · refine Steady.bind (marked_steady _ _ _) fun _ => ?_
      exact Steady.bind (countExecuted_steady path) fun _ => attempts_steady _ _ _ _ _ _ _ _
  · exact Steady.pure _

/-! ## Containers and sequences -/

/-- The walks of a container's nested steps. -/
abbrev RunnerSteady (run : SequenceRunner) : Prop := ∀ scope frame, Steady (run scope frame)

theorem runLane_steady {branches : List (PipelineCondition × SequenceRunner)}
    {otherwise : Option SequenceRunner} (hbranches : ∀ b ∈ branches, RunnerSteady b.2)
    (hotherwise : ∀ run ∈ otherwise, RunnerSteady run) (path : JsString) (scope : StepScope)
    (lane : Option Lane) : Steady (runLane branches otherwise path scope lane) := by
  have hrunner := laneRunner_of (P := RunnerSteady) hbranches hotherwise lane
  rw [runLane]
  generalize laneRunner branches otherwise lane = runner at hrunner
  cases runner with
  | none => exact Steady.pure _
  | some run =>
    exact Steady.bind (hrunner run rfl scope ⟨path, none⟩) fun _ => Steady.pure _

theorem executeBranch_steady (base : PipelineStepBase)
    {branches : List (PipelineCondition × SequenceRunner)} {otherwise : Option SequenceRunner}
    (hbranches : ∀ b ∈ branches, RunnerSteady b.2)
    (hotherwise : ∀ run ∈ otherwise, RunnerSteady run) (path : JsString)
    (parent : Option StepParentFrame) (scope : StepScope) :
    Steady (executeBranch d base branches otherwise path parent scope) := by
  refine Steady.bind (Steady.await rfl) fun c => Steady.ite ?_ ?_
  · refine Steady.bind (backfill_steady _ _ _) fun _ => ?_
    exact runLane_steady hbranches hotherwise _ _ _
  refine Steady.bind (adopted_steady c _ _ _) fun adopted => ?_
  rcases adopted with _ | result
  · refine Steady.bind (marked_steady _ _ _) fun _ => ?_
    refine Steady.bind (countExecuted_steady path) fun _ => ?_
    refine Steady.bind (emit_steady _) fun _ => Steady.read fun m => ?_
    generalize chooseLane d _ _ _ _ = chosen
    cases chosen with
    | error error => exact Steady.bind (finishFailed_steady _ _ _ _ _) fun _ => Steady.pure _
    | ok lane =>
      refine Steady.bind (finishSucceeded_steady _ _ _ _) fun steps => ?_
      exact runLane_steady hbranches hotherwise _ _ _
  · exact Steady.pure _

theorem runItems_steady (step : ForEachStep) {body : SequenceRunner} (hbody : RunnerSteady body)
    (path : JsString) (attempt : Nat) (scope : StepScope) (items : List JsonValue) (index : Nat)
    (records : List ItemRecord) :
    Steady (runItems step body path attempt scope items index records) := by
  induction items generalizing index records with
  | nil => exact Steady.pure _
  | cons item items ih =>
    have hcanceled : Steady (do
        finishCanceled path
        return .error .canceled : DriverProc (Except StepResult (List ItemRecord))) :=
      Steady.bind (finishCanceled_steady path) fun _ => Steady.pure _
    rw [runItems]
    refine Steady.read fun m => Steady.ite (Steady.pure _) (Steady.ite hcanceled ?_)
    refine Steady.bind (Steady.await rfl) fun _ => ?_
    refine Steady.bind (hbody { scope with item := some item } ⟨path, some index⟩) ?_
    rintro ⟨_ | _ | ⟨error, errorClass⟩ | _, steps⟩
    · exact ih _ _
    · exact ih _ _
    · dsimp only
      split
      · exact Steady.bind (finishFailed_steady _ _ _ _ _) fun _ => Steady.pure _
      · exact ih _ _
    · exact Steady.read fun m => Steady.ite (Steady.pure _) hcanceled

theorem executeForEach_steady (step : ForEachStep) {body : SequenceRunner}
    (hbody : RunnerSteady body) (path : JsString) (parent : Option StepParentFrame)
    (scope : StepScope) : Steady (executeForEach d step body path parent scope) := by
  refine Steady.read fun m => Steady.bind (Steady.await rfl) fun c => ?_
  refine Steady.bind (adopted_steady c _ _ _) fun adopted => ?_
  rcases adopted with _ | result
  · refine Steady.bind (marked_steady _ _ _) fun _ => ?_
    refine Steady.bind (countExecuted_steady path) fun _ => ?_
    refine Steady.bind (emit_steady _) fun _ => ?_
    generalize Resolution.plan _ _ = plan
    rcases plan with ⟨errorClass, error⟩ | items
    · exact Steady.bind (finishFailed_steady _ _ _ _ _) fun _ => Steady.pure _
    refine Steady.bind (runItems_steady step hbody path _ scope items 0 []) fun looped => ?_
    cases looped with
    | error result => exact Steady.pure _
    | ok records => exact Steady.bind (finishSucceeded_steady _ _ _ _) fun _ => Steady.pure _
  · exact Steady.pure _

theorem skipRemaining_steady (parent : Option StepParentFrame) (steps : List PipelineStep) :
    Steady (skipRemaining parent steps) := by
  induction steps with
  | nil => exact Steady.pure _
  | cons step rest ih =>
    refine Steady.bind (Steady.await rfl) fun c => Steady.bind ?_ fun _ => ih
    exact Steady.ite (emit_steady _) (backfill_steady _ _ _)

theorem runSequence_steady_cons {step : PipelineStep} {rest : List PipelineStep}
    {scope : StepScope} {parent : Option StepParentFrame}
    (hstep : Steady (executeStep d step (stepInstancePath parent step.id) parent scope))
    (hrest : ∀ steps, Steady (runSequence d rest { scope with steps := steps } parent)) :
    Steady (runSequence d (step :: rest) scope parent) := by
  rw [runSequence]
  refine Steady.read fun m => Steady.ite (Steady.pure _) ?_
  refine Steady.bind (Steady.await rfl) fun t => Steady.ite ?_ ?_
  · exact Steady.bind (Steady.await rfl) fun _ => Steady.pure _
  refine Steady.read fun m => Steady.ite ?_ ?_
  · exact Steady.bind (Steady.await rfl) fun _ => Steady.pure _
  refine Steady.bind hstep ?_
  rintro ⟨_ | _ | ⟨error, errorClass⟩ | _, steps⟩
  · exact hrest steps
  · refine Steady.bind ?_ fun _ => Steady.pure _
    exact Steady.ite (skipRemaining_steady parent rest) (Steady.pure _)
  · exact Steady.pure _
  · exact Steady.pure _

theorem runSequence_steady (steps : List PipelineStep) (scope : StepScope)
    (parent : Option StepParentFrame) : Steady (runSequence d steps scope parent) := by
  refine runSequence.induct
    (fun steps scope parent => Steady (runSequence d steps scope parent))
    (fun step path parent scope => Steady (executeStep d step path parent scope))
    (fun otherwise => ∀ run ∈ elseRunner d otherwise, RunnerSteady run)
    (fun branches => ∀ b ∈ branchRunners d branches, RunnerSteady b.2)
    ?_ ?_ ?_ ?_ ?_ ?_ ?_ ?_ ?_ ?_ ?_ steps scope parent
  · exact fun step path parent scope => executeLeaf_steady step path parent scope
  · exact fun step path parent scope => executeFilter_steady step path parent scope
  · exact fun step path parent scope => executeState_steady step path parent scope
  · intro base branches otherwise path parent scope hbranches hotherwise
    exact executeBranch_steady base hbranches hotherwise path parent scope
  · intro step steps path parent scope hbody
    exact executeForEach_steady step (fun scope frame => hbody scope frame) path parent scope
  · exact fun scope parent => Steady.pure _
  · intro step rest scope parent hstep hrest
    exact runSequence_steady_cons hstep hrest
  · exact fun b hb => absurd hb List.not_mem_nil
  · intro when_ steps rest hsteps hrest b hb
    rcases List.mem_cons.mp hb with rfl | hb
    · exact fun scope frame => hsteps scope frame
    · exact hrest b hb
  · exact fun run hrun => by cases hrun
  · rintro steps hsteps run ⟨⟩
    exact fun scope frame => hsteps scope frame

end

/-! ## The driver -/

section

variable {α β : Type} {x : DriverProc α} {f : α → DriverProc β}

/-- The log is unbroken wherever it awaits and when it ends, in step or not. -/
abbrev Whole (p : DriverProc α) : Prop := p.Keeps Logged Unbroken

/-- Started in step, it leaves an unbroken log. -/
def Closes (p : DriverProc α) : Prop :=
  ∀ m v, InStep m v → p.Yields Logged Unbroken m v fun _ => Unbroken

theorem Whole.await {op : DriverOp} (hop : op.logs = false) : Whole (await op) := by
  refine Proc.Keeps.call fun m v r m' v' h hs => ⟨(sameLog_answered hs.1 hop).gapFree h.1, ?_⟩
  rw [hs.2, collides_of_logs hop, Bool.or_false]
  exact h.2

theorem Whole.yields {p : DriverProc α} (h : Whole p) {m : DriveMemory} {v : World × Bool}
    (hv : Unbroken m v) : p.Yields Logged Unbroken m v fun _ => Unbroken := by
  refine Proc.Sat.mono (h m v hv) ?_
  rintro (error | a) m' v' h'
  · exact h'
  · exact h'

theorem Closes.of_whole {p : DriverProc α} (h : Whole p) : Closes p := fun _ _ hv => h.yields hv.1

theorem Closes.bind (hx : Steady x) (hf : ∀ a, Closes (f a)) : Closes (x >>= f) :=
  fun m v h => (hx m v h).bind fun a m' v' h' => hf a m' v' h'

theorem Closes.ite {c : Prop} [Decidable c] {y : DriverProc α} (hx : Closes x) (hy : Closes y) :
    Closes (if c then x else y) := by
  split
  · exact hx
  · exact hy

theorem deliverOnComplete_whole (d : Deps) (config : WorkflowConfig)
    (scope : Option PipelineScope) (status : RunStatus) :
    Whole (deliverOnComplete d config scope status) := by
  rw [deliverOnComplete]
  split
  · exact Proc.Keeps.pure _
  · exact Whole.await rfl

/-- The event of the end is the only one whose failure is caught: nothing is emitted behind it. -/
theorem settle_closes (d : Deps) (config : WorkflowConfig) (status : RunStatus)
    (error : Option JsString) (scope : StepScope) :
    Closes (settle d config status error scope) := by
  refine Closes.bind (Steady.await rfl) fun _ m v h => ?_
  have hemit : (Proc.attempt (emit (.completed status))).Yields Logged Unbroken m v
      fun _ => Unbroken :=
    Proc.Yields.attempt ((emit_steady _ m v h).mono fun _ _ _ h => h.1) fun _ _ _ h => h
  refine hemit.bind fun _ m' v' h' => ?_
  refine ((Whole.await rfl).yields h').bind fun _ m'' v'' h'' => ?_
  rw [Proc.yields_bind, Proc.yields_read]
  exact (deliverOnComplete_whole d config _ status).yields h''

theorem failOutright_whole (error : JsString) : Whole (failOutright error) :=
  Proc.Keeps.bind (Whole.await rfl) fun _ => Proc.Keeps.bind (Whole.await rfl) fun _ =>
    Whole.await rfl

theorem seedFromLedger_steady : Steady seedFromLedger := by
  refine Steady.bind (Steady.await rfl) fun ledger => ?_
  refine Steady.bind (Steady.update fun _ => rfl) fun _ => ?_
  refine Steady.bind (Steady.bind (Steady.await rfl) fun _ => Steady.pure _) fun seen => ?_
  exact Steady.bind (Steady.update fun _ => rfl) fun _ => Steady.pure _

theorem countRunEvents_yields {m : DriveMemory} {v : World × Bool} (h : Unbroken m v) :
    (await .countRunEvents).Yields Logged Unbroken m v
      fun (n : Nat) m' v' => Unbroken m' v' ∧ n = v'.1.events.length := by
  have hflag : ∀ m' v' r, Logged .countRunEvents m v r m' v' → Unbroken m' v' := by
    intro m' v' r hs
    refine ⟨(sameLog_answered hs.1 rfl).gapFree h.1, ?_⟩
    rw [hs.2, h.2]
    rfl
  refine Proc.yields_call h (fun n m' v' hs => ?_) fun error m' v' hs => hflag m' v' _ hs
  refine ⟨hflag m' v' _ hs, ?_⟩
  cases hs.1 with
  | ok before effect after =>
    cases effect
    exact congrArg List.length (sameLog_envs after).events.symm

theorem startedAt_steady (run : RunRow) : Steady (run.startedAt.elim now pure) := by
  cases run.startedAt with
  | none => exact Steady.await rfl
  | some startedAt => exact Steady.pure _

theorem driveRun_yields (d : Deps) (run : RunRow) (config : WorkflowConfig) {m : DriveMemory}
    {v : World × Bool} (h : Unbroken m v) :
    (driveRun d run config).Yields Logged Unbroken m v fun _ => Unbroken := by
  rw [driveRun]
  split
  · exact (failOutright_whole _).yields h
  refine (countRunEvents_yields h).bind fun n m v h => ?_
  rw [Proc.yields_bind, Proc.yields_update]
  refine Closes.bind (startedAt_steady run) (fun startedAt => ?_) _ _ ⟨h.1, h.2⟩
  refine Closes.bind (Steady.await rfl) fun live => ?_
  refine Closes.ite (Closes.of_whole (Proc.Keeps.pure _)) ?_
  refine Closes.bind (Steady.await rfl) fun _ => ?_
  refine Closes.bind (Steady.ite (emit_steady _) (Steady.pure _)) fun _ => ?_
  refine Closes.bind (Steady.await rfl) fun state => ?_
  refine Closes.bind (Steady.update fun _ => rfl) fun _ => ?_
  refine Closes.bind (Steady.ite (Steady.pure _) seedFromLedger_steady) fun prior => ?_
  refine Closes.bind (runSequence_steady _ _ _) fun outcome => ?_
  refine Closes.bind (fun _ _ h => h) fun m => ?_
  exact Closes.ite (Closes.of_whole (Proc.Keeps.pure _)) (settle_closes d config _ _ _)

theorem failDrive_whole (d : Deps) (config : WorkflowConfig) (error : DriverError) :
    Whole (failDrive d config error) := by
  refine Proc.Keeps.bind Proc.Keeps.read fun m => Proc.Keeps.ite (Proc.Keeps.pure _) ?_
  refine Proc.Keeps.bind (Proc.Keeps.attempt ?_) fun _ => Proc.Keeps.pure _
  refine Proc.Keeps.bind (Whole.await rfl) fun _ => Proc.Keeps.bind (Whole.await rfl) fun _ => ?_
  exact deliverOnComplete_whole d config _ _

theorem drive_whole (d : Deps) (run : RunRow) (config : WorkflowConfig) :
    Whole (drive d run config) := fun _ _ h =>
  Proc.Sat.handle (driveRun_yields d run config h) (fun _ _ _ h' => h') fun error m' v' h' =>
    failDrive_whole d config error m' v' h'

end

/-! ## Histories -/

theorem GapFree.next {w : World} (h : GapFree w) : GapFree w.next := ⟨h.seqs, h.told⟩

theorem logged_of_reaches {t t' : Thread driverSignature DriveMemory Unit} {w w' : World}
    (h : t.Reaches Answered w t' w') (late : Bool) :
    ∃ late', t.Reaches Logged (w, late) t' (w', late') := by
  induction h generalizing late with
  | refl => exact ⟨late, .refl _ _⟩
  | @answer m op k w r m' w' _ _ hs _ ih =>
    obtain ⟨late', hr⟩ := ih (late || op.collides w)
    exact ⟨late', .answer ⟨hs, rfl⟩ hr⟩

section

variable {d : Deps} {run : RunRow} {config : WorkflowConfig} {w w' : World}

theorem unbroken_of_reaches {t : Thread driverSignature DriveMemory Unit} (hw : GapFree w)
    (hr : (drive d run config DriveMemory.fresh).Reaches Answered w.next t w') :
    ∃ late, (drive d run config DriveMemory.fresh).Reaches Logged (w.next, false) t (w', late) ∧
      Unbroken t.mem (w', late) := by
  obtain ⟨late, hlogged⟩ := logged_of_reaches hr false
  exact ⟨late, hlogged, (drive_whole d run config _ (w.next, false) ⟨hw.next, rfl⟩).mem_of_reaches
    hlogged⟩

theorem append_of_reaches {m : DriveMemory} {seq : Nat} {event : PipelineStreamEvent}
    {k : Except DriverError Unit → DriveMemory → Thread driverSignature DriveMemory Unit}
    (hw : GapFree w) (hr : (drive d run config DriveMemory.fresh).Reaches Answered w.next
      (.await m (.appendEvent seq event) k) w') : seq = w'.events.length := by
  obtain ⟨late, hlogged, -, hlate⟩ := unbroken_of_reaches hw hr
  have hlate : late = false := hlate
  have hs : Logged (.appendEvent seq event) m (w', late) (.error (.failed [])) m
      (w', late || decide (seq ≠ w'.events.length)) := ⟨.refused .refl rfl, rfl⟩
  have hend := (drive_whole d run config _ (w.next, false) ⟨hw.next, rfl⟩).mem_of_reaches
    (hlogged.trans (.answer hs (.refl _ _)))
  have hflag : (late || decide (seq ≠ w'.events.length)) = false := hend.2
  rw [hlate, Bool.false_or] at hflag
  exact Decidable.of_not_not (of_decide_eq_false hflag)

theorem History.gapFree {D : Deps → RunRow → World → Prop} (h : History config D w) :
    GapFree w := by
  induction h with
  | created => exact GapFree.fresh _ _ _
  | outside _ he ih => exact (sameLog_env he).gapFree ih
  | drive _ _ hr ih =>
    obtain ⟨late, -, hfree, -⟩ := unbroken_of_reaches ih hr
    exact hfree

end

/-- In every history of a run, whatever fails and wherever drivers die: its events are numbered
`0 .. n-1`, no two alike; what was published is stored under the number it was published with; and
whatever the next driver stores, it stores under the number that is next then. -/
theorem event_log_gap_free {config : WorkflowConfig} {D : Deps → RunRow → World → Prop}
    {w : World} (h : History config D w) :
    w.events.map StoredEvent.seq = List.range w.events.length ∧
      (w.events.map StoredEvent.seq).Nodup ∧
      (∀ incarnation seq event, (incarnation, .published (.event seq event)) ∈ w.announced →
        ⟨seq, event⟩ ∈ w.events) ∧
      ∀ d run m seq event k w', (drive d run config DriveMemory.fresh).Reaches Answered w.next
        (.await m (.appendEvent seq event) k) w' →
          seq = w'.events.length ∧ seq ∉ w'.events.map StoredEvent.seq := by
  have hfree := h.gapFree
  refine ⟨hfree.seqs, ?_, fun incarnation seq event htold => ?_, ?_⟩
  · rw [hfree.seqs]
    exact List.nodup_range
  · exact hfree.told _ htold seq event rfl
  · intro d run m seq event k w' hr
    obtain ⟨late, -, hfree', -⟩ := unbroken_of_reaches hfree hr
    have hseq := append_of_reaches hfree hr
    refine ⟨hseq, ?_⟩
    rw [hfree'.seqs, hseq]
    exact List.not_mem_range_self

/-- The first driver is cut off while the call is under way; the second goes on with the numbers. -/
theorem event_log_gap_free_crash : ∃ w, afterCrash plainDeps chargeConfig 15 = some w ∧
    w.events.map StoredEvent.seq = [0, 1, 2, 3, 4] := by
  have hlen : (afterCrash plainDeps chargeConfig 15).map (fun w => w.events.length) = some 5 := by
    decide +kernel
  obtain ⟨w, hw, hlen⟩ := Option.map_eq_some_iff.mp hlen
  refine ⟨w, hw, ?_⟩
  rw [(event_log_gap_free (afterCrash_history hw)).1, hlen]
  rfl

end InvisibleString.Pipeline
