import InvisibleString.Pipeline.Statements
import InvisibleString.Pipeline.Walk

/- # `Pipeline.Refine` — the driver walks

Every function of the driver, run against the outside, leaves on the trail what `Walks`
allows: at each of its statements what a job under way may leave, and at its end what the job
leaves with the fate it returns.

**Proved here.**

    a leaf, a filter, a state step  (`executeLeaf_walks`, `executeFilter_walks`, `executeState_walks`)
    a branch, a loop  (`executeBranch_walks`, `executeForEach_walks`)
    a list of steps  (`runSequence_walks`)
-/

namespace InvisibleString.Pipeline

open EventLoop Json Relation
open Tailer (RunStatus)

/-! ## Assertions on what bears on the trail -/

theorem idle_markRun (m : DriveMemory) (w : World) {patch : RunPatch} (h : patch.Minor) :
    Idle (walker m w) (walker m (w.markRun patch)) where
  trail := World.markRun_toTrail w patch
  executed := rfl
  clock := Nat.le_of_eq (World.markRun_clock w patch).symm
  interrupted := id
  cancelRequested := id
  startedAt := World.markRun_startedAt w h.startedAt
  succeeded := decide_eq_decide.mpr (World.markRun_succeeded w h.status)
  begun := by
    show (!w.events.isEmpty) = true → (!(w.markRun patch).events.isEmpty) = true
    rw [World.markRun_events]
    exact id

theorem idle_of_env {m m' : DriveMemory} {w w' : World} (h : Env (m, w) (m', w')) :
    Idle (walker m w) (walker m' w') := by
  rcases h with ⟨_, _, t, ht⟩ | ⟨⟩ | ⟨⟩ | ⟨⟩ | ⟨_, _, patch, hp, hs⟩
  · exact ⟨rfl, rfl, ht, id, id, rfl, rfl, id⟩
  · exact ⟨rfl, rfl, Nat.le_refl _, id, fun _ => rfl, rfl, rfl, id⟩
  · exact ⟨rfl, rfl, Nat.le_refl _, fun _ => rfl, id, rfl, rfl, id⟩
  · exact Idle.refl _
  · refine idle_markRun m w ⟨hp, ?_⟩
    rcases hs with hs | hs
    · rw [hs]
      rintro ⟨⟩
    · rw [hs]
      rintro ⟨⟩

theorem idle_append (m : DriveMemory) (w : World) (seq : Nat) (event : PipelineStreamEvent) :
    Idle (walker m w) (walker m (w.append seq event)) :=
  ⟨rfl, rfl, Nat.le_refl _, id, id, rfl, rfl, fun _ => by simp [walker, World.append]⟩

theorem quiet_walker {P : Walker → Prop} (hP : ∀ {σ σ'}, P σ → Idle σ σ' → P σ') :
    Quiet fun m w => P (walker m w) where
  env he h := hP h (idle_of_env he)
  append h := hP h (idle_append _ _ _ _)
  markRun hp h := hP h (idle_markRun _ _ hp)
  announce h := h
  seq h := h
  seen h := h
  scope h := h

/-! ## Leaf steps -/

section

variable {d : DriveCtx} {s : PipelineStep} {i : ClaimStepInput} {σ₀ : Walker} {m : DriveMemory}
  {w : World}

/-- An instance is worked on. -/
def Underway (d : DriveCtx) (s : PipelineStep) (i : ClaimStepInput) (σ₀ : Walker) : Assertion :=
  fun m w => ∃ phase, Own d s i σ₀ phase (walker m w)

theorem own_stable (phase : Phase) :
    Stable (Underway d s i σ₀) fun m w => Own d s i σ₀ phase (walker m w) where
  toQuiet := quiet_walker fun h hi => h.idle hi
  le _ _ h := ⟨phase, h⟩

theorem quiet_underway : Quiet (Underway d s i σ₀) :=
  quiet_walker (P := fun σ => ∃ phase, Own d s i σ₀ phase σ) fun h hi =>
    h.imp fun _ h => h.idle hi

/-- What a claim answers: whether the row is new, and the row. -/
def Known (i : ClaimStepInput) (σ₀ : Walker) (c : Bool × RunStepRow) : Prop :=
  σ₀.trail.steps.row? i.path = if c.1 then none else some c.2

theorem Known.of_found {c : Bool × RunStepRow} (h : Known i σ₀ c) (hc : c.1 = false) :
    σ₀.trail.steps.row? i.path = some c.2 := by
  rw [Known, hc] at h
  exact h

theorem Known.of_new {c : Bool × RunStepRow} (h : Known i σ₀ c) (hc : c.1 = true) :
    i.path ∉ σ₀.trail.steps.paths := by
  rw [Known, hc] at h
  exact Ledger.row?_eq_none.mp h

theorem Known.found_of {c : Bool × RunStepRow} {row : RunStepRow} (h : Known i σ₀ c)
    (hr : σ₀.trail.steps.row? i.path = some row) : c.1 = false ∧ c.2 = row := by
  rcases c with ⟨_ | _, row'⟩
  · rw [Known, hr] at h
    exact ⟨rfl, (Option.some.inj h).symm⟩
  · rw [Known, hr] at h
    cases h

/-- A new row works with what was rendered, a resumed one with what it records. -/
theorem instanceInput_of_known {c : Bool × RunStepRow} {rendered : JsonValue}
    (h : Known i σ₀ c) (hi : i.input = some rendered) :
    instanceInput σ₀.trail i = some (if c.1 then rendered else c.2.input.getD rendered) := by
  rw [instanceInput, show σ₀.trail.steps.row? i.path = _ from h, hi]
  rcases c with ⟨_ | _, row⟩
  · show (row.input <|> some rendered) = some (row.input.getD rendered)
    cases row.input <;> rfl
  · rfl

/-- The claim was made, or the row was found. -/
def Phase.claimed (c : Bool × RunStepRow) : Phase := if c.1 then .taken else .ready

theorem claim_own (h : Own d s i σ₀ .ready (walker m w)) :
    (await (.claim i)).Yields Answered (Underway d s i σ₀) m w
      fun c m w => Own d s i σ₀ (.claimed c) (walker m w) ∧ Known i σ₀ c := by
  have hG : ∀ c, Stable (Underway d s i σ₀)
      fun m w => Own d s i σ₀ (.claimed c) (walker m w) ∧ Known i σ₀ c :=
    fun c => (own_stable _).and_pure _
  refine yields_await (own_stable .ready) hG ?_ h
  intro m w c w' h heff
  cases heff
  have htrail : σ₀.trail = w.toTrail := ((h.idle_of_ready rfl).trail).symm
  cases hr : w.toTrail.steps.row? i.path with
  | none =>
    have hp := Ledger.row?_eq_none.mp hr
    rw [(Trail.claim_of_not_mem hp).2]
    exact ⟨h.claimed hp, by rw [Known, htrail]; exact hr⟩
  | some row =>
    rw [(Trail.claim_of_mem hr).2]
    refine ⟨?_, by rw [Known, htrail]; exact hr⟩
    have hw : (walker m w).onTrail (·.claim i) = walker m w := by
      show { walker m w with trail := w.toTrail.claim i } = _
      rw [(Trail.claim_of_mem hr).1]
      rfl
    show Own d s i σ₀ .ready ((walker m w).onTrail (·.claim i))
    rw [hw]
    exact h

/-- A row that is not terminal is resumed, a terminal one is adopted. -/
def Adopted (d : DriveCtx) (s : PipelineStep) (i : ClaimStepInput) (σ₀ : Walker)
    (c : Bool × RunStepRow) (σ : Walker) : Option (Walked StepResult) → Prop
  | none => Own d s i σ₀ .taken σ
  | some r => Own d s i σ₀ .ready σ ∧ c.1 = false ∧ c.2.status.fate? = some r.1.fate

theorem adoptTerminal_yields {C F : Assertion} (hF : Stable C F) (row : RunStepRow)
    (step : StepInfo) (path : JsString) (steps : ScopeSteps) (h : F m w) :
    (adoptTerminal row step path steps).Yields Answered C m w fun r m w =>
      F m w ∧ r.map (fun r => r.1.fate) = row.status.fate? := by
  unfold adoptTerminal
  cases hs : row.status with
  | succeeded | skipped | failed =>
    exact Proc.Yields.bind (backfill_yields hF h _ _ _) fun _ _ _ h => ⟨h, rfl⟩
  | canceled => exact ⟨h, rfl⟩
  | pending | running | waiting => exact ⟨h, rfl⟩

/-- Adopting what the claim answered. -/
theorem adopt_own {c : Bool × RunStepRow} (steps : ScopeSteps)
    (h : Own d s i σ₀ (.claimed c) (walker m w)) (hk : Known i σ₀ c) :
    (if c.1 then pure none else adoptTerminal c.2 s.info i.path steps).Yields Answered
      (Underway d s i σ₀) m w fun r m w => Adopted d s i σ₀ c (walker m w) r := by
  rcases c with ⟨_ | _, row⟩
  · refine Proc.Yields.mono (adoptTerminal_yields (own_stable .ready) row s.info i.path steps h) ?_
    rintro (_ | r) m w ⟨h, hf⟩
    · have hr : w.toTrail.steps.row? i.path = some row := by
        rw [show w.toTrail = σ₀.trail from (h.idle_of_ready rfl).trail]
        exact hk
      exact h.found hr (RunStepStatus.fate?_eq_none.mp hf.symm)
    · exact ⟨h, rfl, hf.symm⟩
  · exact h

theorem resume_own {c : Bool × RunStepRow} (attempt : Nat)
    (h : Own d s i σ₀ .taken (walker m w)) :
    (if c.1 then pure () else markRunning i.path attempt).Yields Answered (Underway d s i σ₀) m w
      fun _ m w => Own d s i σ₀ .taken (walker m w) := by
  split
  · exact h
  · exact markRunning_yields (own_stable .taken) (own_stable .taken) i.path attempt
      (fun m w h => h.resumed attempt) h

theorem countExecuted_own (hn : ¬ Interrupted s σ₀.trail i.path)
    (h : Own d s i σ₀ .taken (walker m w)) :
    (countExecuted i.path).Yields Answered (Underway d s i σ₀) m w
      fun _ m w => Own d s i σ₀ .busy (walker m w) := by
  unfold countExecuted
  rw [Proc.yields_bind, Proc.yields_update]
  exact note_yields (own_stable .counted) (own_stable .busy) _ (fun m w h => h.charged)
    (h.counted hn)

theorem finishFailed_own (attempt : Nat) (errorClass error : JsString)
    (h : Own d s i σ₀ .busy (walker m w)) :
    (finishFailed s.info i.path attempt errorClass error).Yields Answered (Underway d s i σ₀) m w
      fun r m w => r.fate = .failed ∧ Own d s i σ₀ (.closed r.fate) (walker m w) := by
  have hend := finishFailed_yields (own_stable .busy) (own_stable (.closed .failed)) s.info i.path
    attempt errorClass error (fun _ _ h => h.finished (ends_failed s _ _)) h
  refine hend.mono fun r m w hr => ?_
  rw [hr.1]
  exact ⟨rfl, hr.2⟩

theorem finishCanceled_own (h : Own d s i σ₀ .busy (walker m w)) :
    (finishCanceled i.path).Yields Answered (Underway d s i σ₀) m w
      fun _ m w => Own d s i σ₀ (.closed .canceled) (walker m w) :=
  finishCanceled_yields (own_stable .busy) (own_stable (.closed .canceled)) i.path
    (fun _ _ h => h.finished (ends_canceled s)) h

theorem finishSucceeded_own {fate : Fate} (steps : ScopeSteps) (output : JsonRecord)
    (he : Ends s fate ⟨.succeeded, some output, none, none⟩)
    (h : Own d s i σ₀ .busy (walker m w)) :
    (finishSucceeded s.info i.path steps output).Yields Answered (Underway d s i σ₀) m w
      fun _ m w => Own d s i σ₀ (.closed fate) (walker m w) := by
  have hend := finishSucceeded_yields (own_stable .busy) (own_stable (.closed fate)) s.info i.path
    steps output (fun m w h => h.finished he) h
  exact hend.mono fun _ _ _ hr => hr.2

theorem attempts_own {step : LeafStep} {input : JsonValue} {scope : StepScope} {budget : Nat}
    (hx : instanceInput σ₀.trail i = some input) (rounds attempt : Nat)
    (childRunId : Option JsString) (h : Own d (.leaf step) i σ₀ .busy (walker m w)) :
    (attempts d step i.path input scope budget rounds attempt childRunId).Yields Answered
      (Underway d (.leaf step) i σ₀) m w
      fun r m w => Own d (.leaf step) i σ₀ (.closed r.1.fate) (walker m w) := by
  induction rounds generalizing attempt childRunId m w with
  | zero => exact hang_yields ⟨_, h⟩
  | succ rounds ih =>
    have hbusy : Stable (Underway d (.leaf step) i σ₀) fun m w => Own d (.leaf step) i σ₀ .busy (walker m w) :=
      own_stable .busy
    unfold attempts
    rw [Proc.yields_bind, Proc.yields_read]
    split
    · next hi => exact h.left hi
    split
    · exact Proc.Yields.bind (finishCanceled_own h) fun _ _ _ h => h
    refine Proc.Yields.bind (now_since hbusy h fun m w h => h.clock_le) fun t m w h => ?_
    obtain ⟨⟨h, ht⟩, h₀⟩ := h
    split
    · -- the wall clock is over before the attempt
      next hd =>
      have hlate := note_yields (hbusy.and_clock d.deadlineMs) (own_stable .late)
        (.halted i.path .wallClock) (fun m w h => h.1.late h.2) ⟨h, hd.trans ht⟩
      refine Proc.Yields.bind hlate fun _ m w h => ?_
      have hend := finishFailed_yields (own_stable .late) (own_stable (.closed .failed)) step.info
        i.path attempt (ascii "wall_clock_exceeded")
        (ascii "pipeline wall clock exhausted before the step could run")
        (fun m w h => h.lateFailed) h
      refine Proc.Yields.bind hend fun r m w h => ?_
      show Own d (.leaf step) i σ₀ (.closed r.fate) (walker m w)
      rw [h.1]
      exact h.2
    next hd =>
    refine Proc.Yields.bind (emitStarted_yields hbusy h _ _ _ _) fun _ m w h => ?_
    refine Proc.Yields.bind (runAttempt_yields hbusy d _ _
      (fun m w h => h.invoked rfl rfl hx (h₀.trans_lt (Nat.lt_of_not_le hd)))
      (fun _ m w child h => h.linked child) h) fun outcome m w h => ?_
    obtain ⟨h, hk, hi⟩ := h
    rcases outcome with (output | ⟨errorClass, error, retryable⟩ | child) | _ | _
    · -- succeeded
      dsimp only
      split
      · exact Proc.Yields.bind (finishFailed_own (s := .leaf step) _ _ _ h) fun _ _ _ h => h.2
      · have hend := finishSucceeded_own (s := .leaf step) scope.steps output
          (ends_ok (by cases step <;> rintro ⟨⟩) (by cases step <;> rintro ⟨⟩) output) h
        exact Proc.Yields.bind hend fun _ _ _ h => h
    · -- failed
      refine Proc.Yields.bind (now_yields hbusy h) fun t m w h => ?_
      rw [Proc.yields_bind, Proc.yields_read]
      refine Proc.Yields.bind (emit_yields hbusy h.1 _) fun _ m w h => ?_
      split
      · refine Proc.Yields.bind (pause_yields hbusy h) fun _ m w h => ?_
        refine Proc.Yields.bind (markRunning_yields hbusy hbusy i.path (attempt + 1)
          (fun m w h => h.rerun _) h) fun _ m w h => ?_
        exact ih _ _ h
      · have hend := finish_yields hbusy (own_stable (.closed .failed)) i.path
          ⟨.failed, none, some error, some errorClass⟩ (fun m w h => h.finished (ends_failed _ _ _)) h
        exact Proc.Yields.bind hend fun _ _ _ h => h
    · -- parked on a child
      have hpark := parkOnChild_yields hbusy hbusy quiet_underway d step.info i.path child
        (fun m w h => h.parked (hk child rfl) child) h
      refine Proc.Yields.bind hpark fun parked m w h => ?_
      obtain ⟨h, hi⟩ := h
      cases parked with
      | interrupted => exact h.left (hi rfl)
      | canceled => exact Proc.Yields.bind (finishCanceled_own h) fun _ _ _ h => h
      | missing =>
        exact Proc.Yields.bind (finishFailed_own (s := .leaf step) _ _ _ h) fun _ _ _ h => h.2
      | resumed =>
        refine Proc.Yields.bind (markRunning_yields hbusy hbusy i.path attempt
          (fun m w h => h.rerun _) h) fun _ m w h => ?_
        exact ih _ _ h
    · exact Proc.Yields.bind (finishCanceled_own h) fun _ _ _ h => h
    · exact h.left (hi rfl)

theorem Own.adopt {c : Bool × RunStepRow} {fate : Fate} {σ : Walker} (h : Own d s i σ₀ .ready σ)
    (hk : Known i σ₀ c) (hc : c.1 = false) (hf : adoptedFate s c.2 = some fate) :
    Own d s i σ₀ (.closed fate) σ := by
  refine h.adopted ?_ hf
  rw [(h.idle_of_ready rfl).trail, show σ₀.trail.steps.row? i.path = _ from hk, hc]
  rfl

/-- A job is under way. -/
def Walking (d : DriveCtx) (job : Job) (σ : Walker) : Assertion :=
  fun m w => Walks d job σ none (walker m w)

/-- What works on one instance walks the step. -/
theorem Proc.Yields.walks_of_own {α : Type} {p : DriverProc α} {fate : α → Fate}
    {parent : Option StepParentFrame} (hi : ClaimOf s (stepInstancePath parent s.id) i)
    (hb : s.kind ≠ .branch)
    (h : p.Yields Answered (Underway d s i σ₀) m w
      fun r m w => Own d s i σ₀ (.closed (fate r)) (walker m w)) :
    p.Yields Answered (Walking d (.step s parent) σ₀) m w
      fun r m w => Walks d (.step s parent) σ₀ (some (fate r)) (walker m w) := by
  refine (h.weaken ?_).mono ?_
  · rintro m w ⟨phase, h⟩
    exact .working hi h
  · intro r m w h
    exact .worked hi h fun hk => absurd hk hb

theorem executeLeaf_walks (step : LeafStep) (parent : Option StepParentFrame)
    (scope : StepScope) :
    (executeLeaf d step (stepInstancePath parent step.base.id) parent scope).Yields Answered
      (Walking d (.step (.leaf step) parent) (walker m w)) m w
      fun r m' w' => Walks d (.step (.leaf step) parent) (walker m w) (some r.1.fate)
        (walker m' w') := by
  unfold executeLeaf
  rw [Proc.yields_bind, Proc.yields_read]
  generalize renderLeafInput d step (scope.withState m.state) = rendered
  let i : ClaimStepInput :=
    { stepId := step.base.id, stepSlug := step.base.slug,
      path := stepInstancePath parent step.base.id,
      parentPath := parent.map StepParentFrame.path,
      iteration := parent.bind StepParentFrame.iteration, kind := step.kind, status := .running,
      input := some rendered }
  have hi : ClaimOf (.leaf step) (stepInstancePath parent step.base.id) i :=
    ⟨rfl, rfl, rfl, rfl, fun _ _ => Option.some_ne_none _, by rintro head body ⟨⟩⟩
  refine Proc.Yields.walks_of_own hi (by cases step <;> rintro ⟨⟩) ?_
  generalize hσ : walker m w = σ₀
  refine Proc.Yields.bind (claim_own (i := i) (hσ ▸ .start)) fun c m w h => ?_
  obtain ⟨h, hk⟩ := h
  refine Proc.Yields.bind (adopt_own (s := .leaf step) scope.steps h hk) fun r m w h => ?_
  rcases r with _ | r
  · have h : Own d (.leaf step) i _ .taken (walker m w) := h
    dsimp only
    have hx : instanceInput σ₀.trail i =
        some (if c.1 then rendered else c.2.input.getD rendered) :=
      instanceInput_of_known hk rfl
    split
    · -- interrupted by a restart
      next hc =>
      simp only [Bool.and_eq_true, Bool.not_eq_true', decide_eq_true_eq] at hc
      have hn : Interrupted (.leaf step) σ₀.trail i.path :=
        ⟨step, c.2, rfl, hc.2, hk.of_found hc.1.1, hc.1.2⟩
      refine Proc.Yields.bind (emitStarted_yields (own_stable .taken) h _ _ _ _) fun _ m w h => ?_
      have hend := finishFailed_yields (own_stable .taken) (own_stable (.closed .failed)) step.info
        i.path c.2.attempt (ascii "interrupted")
        (ascii "interrupted by a control-plane restart mid-execution (sideEffect \"at_most_once\" forbids the retry)")
        (fun m w h => h.interrupted hn) h
      refine Proc.Yields.bind hend fun r m w h => ?_
      show Own d (.leaf step) i σ₀ (.closed r.fate) (walker m w)
      rw [h.1]
      exact h.2
    · next hc =>
      have hn : ¬ Interrupted (.leaf step) σ₀.trail i.path := by
        rintro ⟨step', row, hs, ha, hr, hw⟩
        cases hs
        obtain ⟨h1, rfl⟩ := hk.found_of hr
        simp [h1, hw, ha] at hc
      refine Proc.Yields.bind (resume_own _ h) fun _ m w h => ?_
      refine Proc.Yields.bind (countExecuted_own hn h) fun _ m w h => ?_
      exact attempts_own hx _ _ _ h
  · exact h.1.adopt hk h.2.1 h.2.2

/-! ## Filter and state -/

theorem executeFilter_walks (step : FilterStep) (parent : Option StepParentFrame)
    (scope : StepScope) :
    (executeFilter d step (stepInstancePath parent step.id) parent scope).Yields Answered
      (Walking d (.step (.filter step) parent) (walker m w)) m w
      fun r m' w' => Walks d (.step (.filter step) parent) (walker m w) (some r.1.fate)
        (walker m' w') := by
  unfold executeFilter
  let i : ClaimStepInput :=
    { stepId := step.id, stepSlug := step.slug, path := stepInstancePath parent step.id,
      parentPath := parent.map StepParentFrame.path,
      iteration := parent.bind StepParentFrame.iteration, kind := .filter, status := .running,
      input := none }
  have hi : ClaimOf (.filter step) (stepInstancePath parent step.id) i :=
    ⟨rfl, rfl, rfl, rfl, by rintro _ ⟨⟩, by rintro _ _ ⟨⟩⟩
  refine Proc.Yields.walks_of_own hi (by rintro ⟨⟩) ?_
  generalize hσ : walker m w = σ₀
  refine Proc.Yields.bind (claim_own (i := i) (hσ ▸ .start)) fun c m w h => ?_
  obtain ⟨h, hk⟩ := h
  refine Proc.Yields.bind (adopt_own (s := .filter step) scope.steps h hk) fun r m w h => ?_
  rcases r with _ | ⟨r, steps⟩
  · have h : Own d (.filter step) i σ₀ .taken (walker m w) := h
    have hn : ¬ Interrupted (.filter step) σ₀.trail i.path := by
      rintro ⟨_, _, ⟨⟩, _⟩
    have hbusy : Stable (Underway d (.filter step) i σ₀) fun m w => Own d (.filter step) i σ₀ .busy (walker m w) :=
      own_stable .busy
    refine Proc.Yields.bind (resume_own _ h) fun _ m w h => ?_
    refine Proc.Yields.bind (countExecuted_own hn h) fun _ m w h => ?_
    refine Proc.Yields.bind (emitStarted_yields hbusy h _ _ _ _) fun _ m w h => ?_
    rw [Proc.yields_bind, Proc.yields_read]
    split
    · exact Proc.Yields.bind (finishFailed_own (s := .filter step) _ _ _ h) fun _ _ _ h => h.2
    · next matched _ =>
      have hend := finishSucceeded_own (s := .filter step) scope.steps _
        (ends_filter step matched) h
      refine Proc.Yields.bind hend fun steps m w h => ?_
      cases matched with
      | true => exact h
      | false => exact h
  · obtain ⟨h, hc, hf⟩ := h
    have hopen : r ≠ .ok → c.2.fences = false := by
      intro hr
      have hs : c.2.status ≠ .succeeded := by
        intro hs
        rw [hs] at hf
        cases r with
        | ok => exact hr rfl
        | _ => cases hf
      simp [RunStepRow.fences, hs]
    cases r with
    | ok =>
      dsimp only
      split
      · next hfence => exact h.adopt hk hc (if_pos hfence)
      · next hfence => exact h.adopt hk hc ((if_neg hfence).trans hf)
    | filtered | failed | canceled =>
      refine h.adopt hk hc ((if_neg ?_).trans hf)
      rw [hopen (by rintro ⟨⟩)]
      exact Bool.false_ne_true

theorem executeState_walks (step : StateStep) (parent : Option StepParentFrame)
    (scope : StepScope) :
    (executeState d step (stepInstancePath parent step.id) parent scope).Yields Answered
      (Walking d (.step (.state step) parent) (walker m w)) m w
      fun r m' w' => Walks d (.step (.state step) parent) (walker m w) (some r.1.fate)
        (walker m' w') := by
  unfold executeState
  rw [Proc.yields_bind, Proc.yields_read]
  generalize d.surfaces.renderTemplateRecord step.set (scope.withState m.state) = rendered
  let i : ClaimStepInput :=
    { stepId := step.id, stepSlug := step.slug, path := stepInstancePath parent step.id,
      parentPath := parent.map StepParentFrame.path,
      iteration := parent.bind StepParentFrame.iteration, kind := .state, status := .running,
      input := some (.obj [(ascii "set", .obj rendered)]) }
  have hi : ClaimOf (.state step) (stepInstancePath parent step.id) i :=
    ⟨rfl, rfl, rfl, rfl, by rintro _ ⟨⟩, by rintro _ _ ⟨⟩⟩
  refine Proc.Yields.walks_of_own hi (by rintro ⟨⟩) ?_
  generalize hσ : walker m w = σ₀
  refine Proc.Yields.bind (claim_own (i := i) (hσ ▸ .start)) fun c m w h => ?_
  obtain ⟨h, hk⟩ := h
  refine Proc.Yields.bind (adopt_own (s := .state step) scope.steps h hk) fun r m w h => ?_
  rcases r with _ | ⟨r, steps⟩
  · have h : Own d (.state step) i σ₀ .taken (walker m w) := h
    have hn : ¬ Interrupted (.state step) σ₀.trail i.path := by
      rintro ⟨_, _, ⟨⟩, _⟩
    have hbusy : Stable (Underway d (.state step) i σ₀) fun m w => Own d (.state step) i σ₀ .busy (walker m w) :=
      own_stable .busy
    refine Proc.Yields.bind (resume_own _ h) fun _ m w h => ?_
    refine Proc.Yields.bind (countExecuted_own hn h) fun _ m w h => ?_
    refine Proc.Yields.bind (emitStarted_yields hbusy h _ _ _ _) fun _ m w h => ?_
    split
    · exact Proc.Yields.bind (finishFailed_own (s := .state step) _ _ _ h) fun _ _ _ h => h.2
    · refine Proc.Yields.bind (setState_yields hbusy _ h) fun written m w h => ?_
      rcases written with (_ | _) | _
      · exact Proc.Yields.bind (finishFailed_own (s := .state step) _ _ _ h) fun _ _ _ h => h.2
      · exact ⟨_, h⟩
      · dsimp only
        rw [Proc.yields_bind, Proc.yields_update]
        refine Proc.Yields.bind (emit_yields hbusy (hbusy.scope h) _) fun _ m w h => ?_
        refine Proc.Yields.bind (finishSucceeded_own (s := .state step) scope.steps _
          (ends_ok ?_ ?_ _) h) fun _ _ _ h => h
        · rintro ⟨⟩
        · rintro ⟨⟩
  · obtain ⟨h, hc, hf⟩ := h
    have h : Own d (.state step) i σ₀ (.closed r.fate) (walker m w) := h.adopt hk hc hf
    cases r with
    | ok => exact h
    | filtered | failed | canceled => exact h

/-! ## Containers -/

/-- `run` walks `steps`. -/
def WalksAs (d : DriveCtx) (steps : List PipelineStep) (run : SequenceRunner) : Prop :=
  ∀ scope frame m w, (run scope frame).Yields Answered
    (Walking d (.seq steps (some frame)) (walker m w)) m w fun r m' w' =>
      Walks d (.seq steps (some frame)) (walker m w) (some r.1.fate) (walker m' w')

def LanesWalk (d : DriveCtx) (branches : List (PipelineCondition × List PipelineStep))
    (runners : List (PipelineCondition × SequenceRunner)) : Prop :=
  List.Forall₂ (fun b r => WalksAs d b.2 r.2) branches runners

def ElseWalks (d : DriveCtx) (otherwise : Option (List PipelineStep))
    (runner : Option SequenceRunner) : Prop :=
  runner.isSome = otherwise.isSome ∧
    ∀ steps run, otherwise = some steps → runner = some run → WalksAs d steps run

theorem walking_of_idle {job : Job} {σ₁ : Walker} (h : Walks d job σ₀ none σ₁) :
    Stable (Walking d job σ₀) fun m w => Idle σ₁ (walker m w) where
  toQuiet := quiet_walker fun h hi => h.trans hi
  le _ _ hi := h.after hi

/-- The chosen lane. -/
theorem runLane_walks {branches : List (PipelineCondition × List PipelineStep)}
    {otherwise : Option (List PipelineStep)}
    {runners : List (PipelineCondition × SequenceRunner)} {runner : Option SequenceRunner}
    (hb : LanesWalk d branches runners) (he : ElseWalks d otherwise runner) (path : JsString)
    (scope : StepScope) (lane : Option Lane) :
    (runLane runners runner path scope lane).Yields Answered
      (Walking d (.seq (laneSteps branches otherwise lane) (some ⟨path, none⟩)) (walker m w)) m w
      fun r m' w' => Walks d (.seq (laneSteps branches otherwise lane) (some ⟨path, none⟩))
        (walker m w) (some r.1.fate) (walker m' w') := by
  have hlane : (laneRunner runners runner lane = none ∧ laneSteps branches otherwise lane = []) ∨
      ∃ run, laneRunner runners runner lane = some run ∧
        WalksAs d (laneSteps branches otherwise lane) run := by
    rcases lane with _ | i | _
    · exact Or.inl ⟨rfl, rfl⟩
    · show (runners[i]?.map Prod.snd = none ∧ (branches[i]?.map Prod.snd).getD [] = []) ∨
        ∃ run, runners[i]?.map Prod.snd = some run ∧
          WalksAs d ((branches[i]?.map Prod.snd).getD []) run
      have hlen : branches.length = runners.length := hb.length_eq
      by_cases hi : i < branches.length
      · have hi' : i < runners.length := hlen ▸ hi
        rw [List.getElem?_eq_getElem hi, List.getElem?_eq_getElem hi']
        exact Or.inr ⟨_, rfl, hb.get hi hi'⟩
      · rw [List.getElem?_eq_none (Nat.le_of_not_lt hi),
          List.getElem?_eq_none (hlen ▸ Nat.le_of_not_lt hi)]
        exact Or.inl ⟨rfl, rfl⟩
    · obtain ⟨hs, hw⟩ := he
      cases otherwise with
      | none =>
        cases runner with
        | none => exact Or.inl ⟨rfl, rfl⟩
        | some run => cases hs
      | some steps =>
        cases runner with
        | none => cases hs
        | some run => exact Or.inr ⟨run, rfl, hw steps run rfl rfl⟩
  unfold runLane
  rcases hlane with ⟨hr, hl⟩ | ⟨run, hr, hw⟩
  · rw [hr, hl]
    exact .nil
  · rw [hr]
    exact Proc.Yields.bind (hw scope ⟨path, none⟩ m w) fun _ _ _ h => h

theorem chooseLane_valid {d : DriveCtx} {scope : PipelineScope} {hasElse : Bool}
    {conditions : List PipelineCondition} {i : Nat} {lane : Option Lane}
    (h : chooseLane d scope hasElse conditions i = .ok lane) :
    Lane.Valid (i + conditions.length) hasElse lane := by
  induction conditions generalizing i with
  | nil =>
    simp only [chooseLane, Except.ok.injEq] at h
    subst h
    split
    · next he => exact he
    · trivial
  | cons when_ rest ih =>
    simp only [chooseLane] at h
    cases hc : d.surfaces.evaluateCondition when_ scope with
    | error e =>
      rw [hc] at h
      cases h
    | ok holds =>
      rw [hc] at h
      cases holds with
      | true =>
        cases h
        show i < i + (rest.length + 1)
        omega
      | false =>
        have hv := ih h
        rw [Nat.add_right_comm, Nat.add_assoc] at hv
        exact hv

theorem executeBranch_walks {base : PipelineStepBase}
    {branches : List (PipelineCondition × List PipelineStep)}
    {otherwise : Option (List PipelineStep)}
    {runners : List (PipelineCondition × SequenceRunner)} {runner : Option SequenceRunner}
    (hb : LanesWalk d branches runners) (he : ElseWalks d otherwise runner)
    (parent : Option StepParentFrame) (scope : StepScope) :
    (executeBranch d base runners runner (stepInstancePath parent base.id) parent scope).Yields
      Answered (Walking d (.step (.branch base branches otherwise) parent) (walker m w)) m w
      fun r m' w' => Walks d (.step (.branch base branches otherwise) parent) (walker m w)
        (some r.1.fate) (walker m' w') := by
  unfold executeBranch
  let s : PipelineStep := .branch base branches otherwise
  let i : ClaimStepInput :=
    { stepId := base.id, stepSlug := base.slug, path := stepInstancePath parent base.id,
      parentPath := parent.map StepParentFrame.path,
      iteration := parent.bind StepParentFrame.iteration, kind := .branch, status := .running,
      input := none }
  have hi : ClaimOf (.branch base branches otherwise) (stepInstancePath parent base.id) i :=
    ⟨rfl, rfl, rfl, rfl, by rintro _ ⟨⟩, by rintro _ _ ⟨⟩⟩
  have hlen : runners.length = branches.length := hb.length_eq.symm
  have helse : runner.isSome = otherwise.isSome := he.1
  generalize hσ : walker m w = σ₀
  have hunder : ∀ m w, Underway d s i σ₀ m w → Walking d (.step s parent) σ₀ m w := by
    rintro m w ⟨phase, h⟩
    exact .working hi h
  -- a lane below a decision that is on record
  have hlane : ∀ m w row steps lane, Own d s i σ₀ (.closed .ok) (walker m w) →
      w.steps.row? i.path = some row → row.status = .succeeded →
      readBranchLane row.output branches.length otherwise.isSome = lane →
      (runLane runners runner i.path { scope with steps := steps } lane).Yields Answered
        (Walking d (.step s parent) σ₀) m w
        fun r m w => Walks d (.step s parent) σ₀ (some r.1.fate) (walker m w) := by
    intro m w row steps lane h hr hs hl
    subst hl
    refine ((runLane_walks hb he i.path _ _).weaken ?_).mono ?_
    · intro m w h'
      exact .lane hi h hr hs h'
    · intro r m w h'
      exact .lane hi h hr hs h'
  refine Proc.Yields.bind ((claim_own (i := i) (hσ ▸ .start)).weaken hunder) fun c m w h => ?_
  obtain ⟨h, hk⟩ := h
  split
  · next hc =>
    simp only [Bool.and_eq_true, Bool.not_eq_true', decide_eq_true_eq] at hc
    have hready : Own d s i σ₀ .ready (walker m w) := by
      rw [Phase.claimed, hc.1] at h
      exact h
    refine Proc.Yields.bind ((backfill_yields (own_stable .ready) hready _ _ _).weaken hunder)
      fun _ m w h => ?_
    refine hlane m w c.2 _ _ (h.adopt hk hc.1 ?_) ?_ hc.2 ?_
    · show c.2.status.fate? = _
      rw [hc.2]
      rfl
    · rw [show w.toTrail = σ₀.trail from (h.idle_of_ready rfl).trail]
      exact hk.of_found hc.1
    · rw [hlen, helse]
  · next hc =>
    refine Proc.Yields.bind ((adopt_own (s := s) scope.steps h hk).weaken hunder)
      fun r m w h => ?_
    rcases r with _ | r
    · have h : Own d s i σ₀ .taken (walker m w) := h
      have hn : ¬ Interrupted (.branch base branches otherwise) σ₀.trail i.path := by
        rintro ⟨_, _, ⟨⟩, _⟩
      have hbusy : Stable (Underway d s i σ₀) fun m w => Own d s i σ₀ .busy (walker m w) :=
        own_stable .busy
      refine Proc.Yields.bind ((resume_own _ h).weaken hunder) fun _ m w h => ?_
      refine Proc.Yields.bind ((countExecuted_own hn h).weaken hunder) fun _ m w h => ?_
      refine Proc.Yields.bind ((emitStarted_yields hbusy h _ _ _ _).weaken hunder)
        fun _ m w h => ?_
      rw [Proc.yields_bind, Proc.yields_read]
      split
      · refine Proc.Yields.bind ((finishFailed_own (s := s) _ _ _ h).weaken hunder)
          fun r m w h => ?_
        refine .worked hi h.2 fun _ row hr hs => ?_
        obtain ⟨row', hr', hf⟩ := h.2.closed_row rfl rfl
        rw [hr, Option.some.injEq] at hr'
        subst hr'
        rcases hf with hf | hf
        · rw [h.1, show adoptedFate s row = row.status.fate? from rfl, hs] at hf
          cases hf
        · rw [h.1] at hf
          cases hf.1
      · next lane hchoose =>
        have hvalid : Lane.Valid branches.length otherwise.isSome lane := by
          have hv := chooseLane_valid hchoose
          rwa [Nat.zero_add, List.length_map, hlen, helse] at hv
        let out : JsonRecord := [(ascii "lane", Lane.json lane)]
        have hG : Stable (Underway d s i σ₀) fun m w => Own d s i σ₀ (.closed .ok) (walker m w) ∧
            ∃ row, w.steps.row? i.path = some row ∧ row.status = .succeeded ∧
              row.output = some out :=
          (own_stable (.closed .ok)).and_quiet (quiet_trail fun _ t =>
            ∃ row, t.steps.row? i.path = some row ∧ row.status = .succeeded ∧
              row.output = some out)
        have hend := finishSucceeded_yields hbusy hG s.info i.path scope.steps out
          (fun m w h => by
            obtain ⟨row, hr, -⟩ := h.row rfl rfl
            exact ⟨h.finished (ends_ok (by rintro ⟨⟩) (by rintro ⟨⟩) out), _,
              Trail.row?_finish hr _, rfl, rfl⟩) h
        refine Proc.Yields.bind (hend.weaken hunder) fun steps m w h => ?_
        obtain ⟨-, h, row, hr, hs, ho⟩ := h
        refine hlane m w row _ _ h hr hs ?_
        rw [ho]
        exact readBranchLane_json hvalid
    · obtain ⟨h, hc', hf⟩ := h
      have hr : σ₀.trail.steps.row? i.path = some c.2 := hk.of_found hc'
      refine .worked hi (h.adopt hk hc' hf) fun _ row hr' hs => ?_
      rw [(h.idle_of_ready rfl).trail, hr, Option.some.injEq] at hr'
      rw [hr'] at hc
      simp [hc', hs] at hc

theorem note_idle {job : Job} {σ₁ : Walker} (deed : Deed) (h : Walks d job σ₀ none σ₁)
    (h' : Walks d job σ₀ none (σ₁.onTrail (·.record deed))) (hi : Idle σ₁ (walker m w)) :
    (note deed).Yields Answered (Walking d job σ₀) m w
      fun _ m w => Idle (σ₁.onTrail (·.record deed)) (walker m w) :=
  note_yields (walking_of_idle h) (walking_of_idle h') deed (fun _ _ hi => hi.onTrail _) hi

/-- What a loop came to: its result, or the records of all its items. -/
def Looped (d : DriveCtx) (loop : LoopRun) (records : List ItemRecord) (rest : List JsonValue)
    (σ : Walker) (r : Except StepResult (List ItemRecord)) (σ' : Walker) : Prop :=
  match r with
  | .error result => Walks d (.items loop records rest) σ (some result.fate) σ'
  | .ok records' => ∀ o σ'', Walks d (.items loop records' []) σ' o σ'' →
      Walks d (.items loop records rest) σ o σ''

theorem Looped.next {loop : LoopRun} {records : List ItemRecord} {x : JsonValue}
    {rest : List JsonValue} {fate : Fate} {record : ItemRecord} {σ σ₁ σ' : Walker}
    {r : Except StepResult (List ItemRecord)}
    (hb : Walks d (.seq loop.body (some ⟨loop.path, some records.length⟩))
      (σ.onTrail (·.record (.item loop.path records.length x loop.scope))) (some fate) σ₁)
    (hr : loop.head.continues fate record.status) (hi : record.index = records.length)
    (h : Looped d loop (records ++ [record]) rest σ₁ r σ') :
    Looped d loop records (x :: rest) σ r σ' := by
  cases r with
  | error result => exact Walks.item hb hr hi h
  | ok records' => exact fun o σ'' h' => Walks.item hb hr hi (h o σ'' h')

/-- The items of a loop. -/
theorem runItems_walks {loop : LoopRun} {body : SequenceRunner} (hbody : WalksAs d loop.body body)
    {attempt : Nat} {scope : StepScope} (hscope : scope.steps = loop.scope)
    (rest : List JsonValue) (records : List ItemRecord) :
    (runItems loop.head body loop.path attempt scope rest records.length records).Yields Answered
      (Walking d (.items loop records rest) (walker m w)) m w
      fun r m' w' => Looped d loop records rest (walker m w) r (walker m' w') := by
  induction rest generalizing records m w with
  | nil => exact fun o σ'' h => h
  | cons x rest ih =>
    unfold runItems
    rw [Proc.yields_bind, Proc.yields_read]
    split
    · next hi => exact Walks.leave hi
    split
    · have hw : Walks d (.items loop records (x :: rest)) (walker m w) (some .canceled) _ := .cancel
      have hend := finishCanceled_yields (walking_of_idle .cut) (walking_of_idle hw.unseen) loop.path
        (fun _ _ hi => hi.onTrail _) (Idle.refl (walker m w))
      exact Proc.Yields.bind hend fun _ _ _ hi => Walks.after .cancel hi
    rw [hscope]
    have hcut : Walks d (.items loop records (x :: rest)) (walker m w) none (walker m w) := .cut
    have hnote := note_idle (.item loop.path records.length x loop.scope) hcut (.inItem .cut)
      (Idle.refl (walker m w))
    refine Proc.Yields.bind hnote fun _ m₁ w₁ hi => ?_
    have hwalk := hbody { scope with item := some x, steps := loop.scope }
      ⟨loop.path, some records.length⟩ m₁ w₁
    refine Proc.Yields.bind (hwalk.weaken fun _ _ h => Walks.inItem (.before hi h))
      fun r m₂ w₂ h => ?_
    have hb := Walks.before hi h
    have hgo : ∀ record : ItemRecord, loop.head.continues r.1.fate record.status →
        record.index = records.length →
        (runItems loop.head body loop.path attempt scope rest (records.length + 1)
          (records ++ [record])).Yields Answered
          (Walking d (.items loop records (x :: rest)) (walker m w)) m₂ w₂
          fun r m' w' => Looped d loop records (x :: rest) (walker m w) r (walker m' w') := by
      intro record hr hindex
      have hnext := ih (m := m₂) (w := w₂) (records ++ [record])
      rw [List.length_append] at hnext
      refine (hnext.weaken fun _ _ h => Walks.item hb hr hindex h).mono fun _ _ _ h => ?_
      exact .next hb hr hindex h
    rcases r with ⟨_ | _ | ⟨error, errorClass⟩ | _, steps⟩
    · exact hgo ⟨records.length, .succeeded, none⟩ rfl rfl
    · exact hgo ⟨records.length, .skipped, none⟩ rfl rfl
    · dsimp only
      split
      · -- the loop halts
        next hh =>
        have hw : Walks d (.items loop records (x :: rest)) (walker m w) (some .failed)
            ((walker m₂ w₂).onTrail (·.finish loop.path ⟨.failed, none, some (ascii "item " ++
              printNat records.length ++ ascii " failed: " ++ error), some errorClass⟩)) :=
          .itemFailed hb hh
        have hcut : Walks d (.items loop records (x :: rest)) (walker m w) none (walker m₂ w₂) :=
          .inItem (.unseen hb)
        have hend := finishFailed_yields (walking_of_idle hcut)
          (walking_of_idle hw.unseen) (PipelineStep.forEach loop.head []).info loop.path attempt
          errorClass _ (fun _ _ hi => hi.onTrail _) (Idle.refl (walker m₂ w₂))
        refine Proc.Yields.bind hend fun r m w h => ?_
        rw [h.1]
        exact hw.after h.2
      · next hh => exact hgo ⟨records.length, .failed, some (error, errorClass)⟩ ⟨rfl, hh⟩ rfl
    · dsimp only
      rw [Proc.yields_bind, Proc.yields_read]
      split
      · next hint => exact Walks.itemLeft hb hint
      · next hint =>
        have hw : Walks d (.items loop records (x :: rest)) (walker m w) (some .canceled) _ :=
          .itemCanceled hb (eq_false_of_ne_true hint)
        have hcut : Walks d (.items loop records (x :: rest)) (walker m w) none (walker m₂ w₂) :=
          .inItem (.unseen hb)
        have hend := finishCanceled_yields (walking_of_idle hcut) (walking_of_idle hw.unseen)
          loop.path (fun _ _ hi => hi.onTrail _) (Idle.refl (walker m₂ w₂))
        exact Proc.Yields.bind hend fun _ _ _ hi => hw.after hi

theorem executeForEach_walks {head : ForEachStep} {steps : List PipelineStep}
    {body : SequenceRunner} (hbody : WalksAs d steps body) (parent : Option StepParentFrame)
    (scope : StepScope) :
    (executeForEach d head body (stepInstancePath parent head.id) parent scope).Yields Answered
      (Walking d (.step (.forEach head steps) parent) (walker m w)) m w
      fun r m' w' => Walks d (.step (.forEach head steps) parent) (walker m w) (some r.1.fate)
        (walker m' w') := by
  unfold executeForEach
  rw [Proc.yields_bind, Proc.yields_read]
  generalize d.surfaces.resolveScopePath (scope.withState m.state) head.itemsRef = resolved
  let s : PipelineStep := .forEach head steps
  let i : ClaimStepInput :=
    { stepId := head.id, stepSlug := head.slug, path := stepInstancePath parent head.id,
      parentPath := parent.map StepParentFrame.path,
      iteration := parent.bind StepParentFrame.iteration, kind := .forEach, status := .running,
      input := some ((resolveItems head resolved).input head) }
  have hi : ClaimOf (.forEach head steps) (stepInstancePath parent head.id) i := by
    refine ⟨rfl, rfl, rfl, rfl, by rintro _ ⟨⟩, ?_⟩
    rintro _ _ ⟨⟩
    exact ⟨resolved, rfl⟩
  generalize hσ : walker m w = σ₀
  have hunder : ∀ m w, Underway d s i σ₀ m w → Walking d (.step s parent) σ₀ m w := by
    rintro m w ⟨phase, h⟩
    exact .working hi h
  refine Proc.Yields.bind ((claim_own (i := i) (hσ ▸ .start)).weaken hunder) fun c m w h => ?_
  obtain ⟨h, hk⟩ := h
  refine Proc.Yields.bind ((adopt_own (s := s) scope.steps h hk).weaken hunder) fun r m w h => ?_
  rcases r with _ | r
  · have h : Own d s i σ₀ .taken (walker m w) := h
    have hn : ¬ Interrupted (.forEach head steps) σ₀.trail i.path := by
      rintro ⟨_, _, ⟨⟩, _⟩
    have hbusy : Stable (Underway d s i σ₀) fun m w => Own d s i σ₀ .busy (walker m w) :=
      own_stable .busy
    refine Proc.Yields.bind ((resume_own _ h).weaken hunder) fun _ m w h => ?_
    refine Proc.Yields.bind ((countExecuted_own hn h).weaken hunder) fun _ m w h => ?_
    refine Proc.Yields.bind ((emitStarted_yields hbusy h _ _ _ _).weaken hunder) fun _ m w h => ?_
    split
    · refine Proc.Yields.bind ((finishFailed_own (s := s) _ _ _ h).weaken hunder) fun r m w h => ?_
      exact .worked hi h.2 (by rintro ⟨⟩)
    · next items hplan =>
      have hp : LoopPlan head i σ₀.trail items := by
        refine ⟨resolved, rfl, ?_⟩
        rcases c with ⟨_ | _, row⟩
        · exact Or.inr ⟨row, hk.of_found rfl, hplan⟩
        · exact Or.inl ⟨hk.of_new rfl, hplan⟩
      have hitems : (runItems head body i.path (if c.1 then 1 else c.2.attempt + 1) scope items 0
          []).Yields Answered (Walking d (.items ⟨head, steps, i.path, scope.steps, items⟩ [] items)
            (walker m w)) m w fun r m' w' =>
          Looped d ⟨head, steps, i.path, scope.steps, items⟩ [] items (walker m w) r (walker m' w') :=
        runItems_walks hbody rfl items []
      refine Proc.Yields.bind (hitems.weaken fun _ _ h' => Walks.loop hi h hp h')
        fun r m' w' h' => ?_
      cases r with
      | error result => exact Walks.loop hi h hp h'
      | ok records =>
        have hw := Walks.loop hi h hp (h' _ _ .looped)
        have hend := finishSucceeded_yields
          (walking_of_idle (Walks.loop hi h hp (h' none _ .cut))) (walking_of_idle hw.unseen)
          (PipelineStep.forEach head []).info i.path scope.steps (aggregate items records)
          (fun _ _ hi => hi.onTrail _) (Idle.refl (walker m' w'))
        exact Proc.Yields.bind hend fun _ _ _ h => hw.after h.2
  · exact .worked hi (h.1.adopt hk h.2.1 h.2.2) (by rintro ⟨⟩)

/-! ## Sequences -/

theorem skipRemaining_walks (rest : List PipelineStep) :
    (skipRemaining none rest).Yields Answered (Walking d (.skip rest) (walker m w)) m w
      fun _ m' w' => Walks d (.skip rest) (walker m w) (some .filtered) (walker m' w') := by
  induction rest generalizing m w with
  | nil => exact Walks.skipped
  | cons s rest ih =>
    unfold skipRemaining
    let i : ClaimStepInput :=
      { stepId := s.id, stepSlug := s.base.slug, path := stepInstancePath none s.id,
        parentPath := none, iteration := none, kind := s.kind, status := .skipped, input := none }
    have hi : SkipOf s i := ⟨rfl, rfl, rfl, rfl⟩
    have hF : Stable (Walking d (.skip (s :: rest)) (walker m w))
        fun m' w' => Idle (walker m w) (walker m' w') := walking_of_idle .cut
    have hG : Stable (Walking d (.skip (s :: rest)) (walker m w))
        fun m' w' => Idle ((walker m w).onTrail (·.claim i)) (walker m' w') :=
      walking_of_idle (.skip hi .cut)
    have hclaim : (await (.claim i)).Yields Answered (Walking d (.skip (s :: rest)) (walker m w))
        m w fun _ m' w' => Idle ((walker m w).onTrail (·.claim i)) (walker m' w') := by
      refine yields_await hF (fun _ => hG) ?_ (Idle.refl (walker m w))
      intro m' w' c w'' h heff
      cases heff
      exact h.onTrail _
    refine Proc.Yields.bind hclaim fun c m' w' h => ?_
    have hemit : (if c.1 then emit (.stepCompleted (s.info.ref i.path) .skipped)
        else backfillTerminalStepEvent c.2 s.info i.path).Yields Answered
        (Walking d (.skip (s :: rest)) (walker m w)) m' w'
        fun _ m' w' => Idle ((walker m w).onTrail (·.claim i)) (walker m' w') := by
      split
      · exact emit_yields hG h _
      · exact backfill_yields hG h _ _ _
    refine Proc.Yields.bind hemit fun _ m' w' h => ?_
    refine (ih.weaken fun _ _ h' => Walks.skip hi (.before h h')).mono fun _ _ _ h' => ?_
    exact .skip hi (.before h h')

theorem now_walks {C : Assertion} {σ : Walker} (hC : Stable C fun m w => Idle σ (walker m w))
    (h : Idle σ (walker m w)) :
    now.Yields Answered C m w fun t m w =>
      ∃ σ₁, Idle σ σ₁ ∧ σ₁.clock = t ∧ Idle σ₁ (walker m w) := by
  have hG : ∀ t : Nat, Stable C fun m w => ∃ σ₁, Idle σ σ₁ ∧ σ₁.clock = t ∧ Idle σ₁ (walker m w) := by
    intro t
    refine ⟨quiet_walker (P := fun σ' => ∃ σ₁, Idle σ σ₁ ∧ σ₁.clock = t ∧ Idle σ₁ σ') ?_, ?_⟩
    · rintro σ' σ'' ⟨σ₁, h, ht, h'⟩ hi
      exact ⟨σ₁, h, ht, h'.trans hi⟩
    · rintro m w ⟨σ₁, h, -, h'⟩
      exact hC.le m w (h.trans h')
  refine yields_await hC hG ?_ h
  intro m w t w' h heff
  cases heff
  exact ⟨walker m w, h, rfl, Idle.refl _⟩

def SeqWalks (d : DriveCtx) (steps : List PipelineStep) (scope : StepScope)
    (parent : Option StepParentFrame) : Prop :=
  ∀ m w, (runSequence d steps scope parent).Yields Answered
    (Walking d (.seq steps parent) (walker m w)) m w fun r m' w' =>
      Walks d (.seq steps parent) (walker m w) (some r.1.fate) (walker m' w')

def StepWalks (d : DriveCtx) (s : PipelineStep) (path : JsString)
    (parent : Option StepParentFrame) (scope : StepScope) : Prop :=
  path = stepInstancePath parent s.id → ∀ m w,
    (executeStep d s path parent scope).Yields Answered (Walking d (.step s parent) (walker m w))
      m w fun r m' w' => Walks d (.step s parent) (walker m w) (some r.1.fate) (walker m' w')

theorem seqWalks_cons {s : PipelineStep} {rest : List PipelineStep} {scope : StepScope}
    {parent : Option StepParentFrame} (hs : StepWalks d s (stepInstancePath parent s.id) parent scope)
    (hr : ∀ steps, SeqWalks d rest { scope with steps := steps } parent) :
    SeqWalks d (s :: rest) scope parent := by
  intro m w
  unfold runSequence
  rw [Proc.yields_bind, Proc.yields_read]
  split
  · next hi => exact Walks.stopped (Bool.or_eq_true_iff.mp hi)
  have hcut : Stable (Walking d (.seq (s :: rest) parent) (walker m w))
      fun m' w' => Idle (walker m w) (walker m' w') := walking_of_idle .cut
  refine Proc.Yields.bind (now_walks hcut (Idle.refl _)) fun t m₁ w₁ h => ?_
  obtain ⟨σ₁, h₁, rfl, h₂⟩ := h
  split
  · next ht =>
    have hw : Walks d (.seq (s :: rest) parent) σ₁ (some .failed) _ := .late ht
    refine Proc.Yields.bind (note_idle _ (.before h₁ .cut) (.before h₁ hw.unseen) h₂)
      fun _ m w hi => ?_
    exact .before h₁ (hw.after hi)
  next ht =>
  have hc : σ₁.clock ≤ d.deadlineMs := Nat.le_of_not_lt ht
  rw [Proc.yields_bind, Proc.yields_read]
  split
  · next hf =>
    rw [show m₁.executed = σ₁.executed from h₂.executed] at hf
    have hw : Walks d (.seq (s :: rest) parent) σ₁ (some .failed) _ := .full hf.1 hf.2
    refine Proc.Yields.bind (note_idle _ (.before h₁ .cut) (.before h₁ hw.unseen) h₂)
      fun _ m w hi => ?_
    exact .before h₁ (hw.after hi)
  next hf =>
  have ha : Admitted d σ₁ (stepInstancePath parent s.id) := by
    rw [show m₁.executed = σ₁.executed from h₂.executed] at hf
    by_cases hlt : σ₁.executed < d.config.maxExecutedStepsPerRun
    · exact Or.inl hlt
    · refine Or.inr ?_
      by_contra hp
      exact hf ⟨Nat.le_of_not_lt hlt, hp⟩
  have hstep := hs rfl m₁ w₁
  refine Proc.Yields.bind (hstep.weaken fun _ _ h => Walks.before h₁
    (.stop hc ha (.before h₂ h) (by rintro ⟨⟩) (by rintro ⟨⟩))) fun r m₂ w₂ h => ?_
  have h := Walks.before h₂ h
  rcases r with ⟨_ | _ | ⟨error, errorClass⟩ | _, steps⟩
  · refine ((hr steps m₂ w₂).weaken fun _ _ h' => Walks.before h₁ (.next hc ha h h')).mono
      fun _ _ _ h' => Walks.before h₁ (.next hc ha h h')
  · dsimp only
    cases parent with
    | some frame =>
      exact Walks.before h₁ (.stop hc ha h (by rintro ⟨⟩) (fun _ => Option.some_ne_none _))
    | none =>
      refine Proc.Yields.bind ((skipRemaining_walks rest).weaken fun _ _ h' =>
        Walks.before h₁ (.fenced hc ha h h')) fun _ _ _ h' => ?_
      exact Walks.before h₁ (.fenced hc ha h h')
  · exact Walks.before h₁ (.stop hc ha h (by rintro ⟨⟩) (by rintro ⟨⟩))
  · exact Walks.before h₁ (.stop hc ha h (by rintro ⟨⟩) (by rintro ⟨⟩))

theorem runSequence_walks (steps : List PipelineStep) (scope : StepScope)
    (parent : Option StepParentFrame) : SeqWalks d steps scope parent := by
  refine runSequence.induct (SeqWalks d) (StepWalks d)
    (fun otherwise => ElseWalks d otherwise (elseRunner d otherwise))
    (fun branches => LanesWalk d branches (branchRunners d branches))
    ?_ ?_ ?_ ?_ ?_ ?_ ?_ ?_ ?_ ?_ ?_ steps scope parent
  · rintro step path parent scope rfl m w
    exact executeLeaf_walks step parent scope
  · rintro step path parent scope rfl m w
    exact executeFilter_walks step parent scope
  · rintro step path parent scope rfl m w
    exact executeState_walks step parent scope
  · rintro base branches otherwise path parent scope hb he rfl m w
    exact executeBranch_walks hb he parent scope
  · rintro head steps path parent scope hbody rfl m w
    exact executeForEach_walks (fun scope frame => hbody scope frame) parent scope
  · intro scope parent m w
    exact Walks.nil
  · intro s rest scope parent hs hr
    exact seqWalks_cons hs hr
  · exact List.Forall₂.nil
  · intro when_ steps rest hs hr
    exact List.Forall₂.cons (fun scope frame => hs scope frame) hr
  · exact ⟨rfl, fun _ _ h => by cases h⟩
  · intro steps hs
    refine ⟨rfl, ?_⟩
    rintro _ _ ⟨⟩ ⟨⟩
    exact fun scope frame => hs scope frame

end

end InvisibleString.Pipeline
