import InvisibleString.Pipeline.Runner

/- # `Pipeline.Statements` — rules for the driver's statements

An assertion on the driver's memory and the outside is `Quiet` when nothing falsifies it
that leaves the trail alone: the moves of other parties, an event, a write of the run row, an
announcement.  `Stable C F` adds that `F` implies the crash condition `C`.

**Proved here.**

    an await keeps a stable assertion up to its own effect  (`yields_await`)
    what a function of the driver does beside the ledger keeps every stable assertion
      (`emit_yields`, `parkOnChild_yields`, `backfill_yields`, …)
-/

namespace InvisibleString.Pipeline

open EventLoop Json Relation
open Tailer (RunStatus)

/-- An assertion on the driver's memory and the outside. -/
abbrev Assertion := DriveMemory → World → Prop

/-- A write of the run row that neither starts the run nor ends it well. -/
structure RunPatch.Minor (patch : RunPatch) : Prop where
  startedAt : patch.startedAt = none
  status : patch.status ≠ .succeeded

/-- Nothing falsifies `F` that leaves the trail and the budget alone. -/
structure Quiet (F : Assertion) : Prop where
  env : ∀ {m w m' w'}, Env (m, w) (m', w') → F m w → F m' w'
  append : ∀ {m w seq event}, F m w → F m (w.append seq event)
  markRun : ∀ {m w patch}, patch.Minor → F m w → F m (w.markRun patch)
  announce : ∀ {m w a}, F m w → F m (w.announce a)
  seq : ∀ {m w n}, F m w → F { m with seq := n } w
  seen : ∀ {m w paths}, F m w → F { m with priorTerminalEventPaths := paths } w
  scope : ∀ {m w state}, F m w → F { m with state := state } w

@[simp] theorem World.markRun_toTrail (w : World) (patch : RunPatch) :
    (w.markRun patch).toTrail = w.toTrail := by
  unfold World.markRun
  split
  · rfl
  · rfl

@[simp] theorem World.markRun_clock (w : World) (patch : RunPatch) :
    (w.markRun patch).clock = w.clock := by
  unfold World.markRun
  split
  · rfl
  · rfl

theorem World.markRun_events (w : World) (patch : RunPatch) :
    (w.markRun patch).events = w.events := by
  unfold World.markRun
  split
  · rfl
  · rfl

theorem World.markRun_startedAt (w : World) {patch : RunPatch} (h : patch.startedAt = none) :
    (w.markRun patch).run.startedAt = w.run.startedAt := by
  unfold World.markRun
  split
  · rfl
  · show (patch.startedAt <|> w.run.startedAt) = _
    rw [h]
    rfl

theorem World.markRun_succeeded (w : World) {patch : RunPatch} (h : patch.status ≠ .succeeded) :
    (w.markRun patch).run.status = .succeeded ↔ w.run.status = .succeeded := by
  unfold World.markRun
  split
  · exact Iff.rfl
  · next ht =>
    refine ⟨fun hs => absurd hs h, fun hs => absurd ?_ ht⟩
    rw [hs]
    rfl

/-- An assertion on the budget and the trail. -/
theorem quiet_trail (G : Nat → Trail → Prop) : Quiet fun m w => G m.executed w.toTrail where
  env := by
    rintro m w m' w' (⟨⟩ | ⟨⟩ | ⟨⟩ | ⟨⟩ | ⟨_, _, patch, _, _⟩) h
    · exact h
    · exact h
    · exact h
    · exact h
    · rwa [World.markRun_toTrail]
  append h := h
  markRun _ h := by rwa [World.markRun_toTrail]
  announce h := h
  seq h := h
  seen h := h
  scope h := h

namespace Quiet

variable {F G : Assertion}

theorem envs (hF : Quiet F) {m w m' w'} (h : ReflTransGen Env (m, w) (m', w')) (hw : F m w) :
    F m' w' := by
  generalize ha : (m, w) = a at h
  generalize hb : (m', w') = b at h
  induction h generalizing m' w' with
  | refl =>
    obtain ⟨rfl, rfl⟩ := Prod.mk.inj (ha.trans hb.symm)
    exact hw
  | @tail c d _ hs ih =>
    subst hb
    exact hF.env hs (ih rfl)

theorem and (hF : Quiet F) (hG : Quiet G) : Quiet fun m w => F m w ∧ G m w where
  env hs h := ⟨hF.env hs h.1, hG.env hs h.2⟩
  append h := ⟨hF.append h.1, hG.append h.2⟩
  markRun hp h := ⟨hF.markRun hp h.1, hG.markRun hp h.2⟩
  announce h := ⟨hF.announce h.1, hG.announce h.2⟩
  seq h := ⟨hF.seq h.1, hG.seq h.2⟩
  seen h := ⟨hF.seen h.1, hG.seen h.2⟩
  scope h := ⟨hF.scope h.1, hG.scope h.2⟩

theorem or (hF : Quiet F) (hG : Quiet G) : Quiet fun m w => F m w ∨ G m w where
  env hs h := h.imp (hF.env hs) (hG.env hs)
  append h := h.imp hF.append hG.append
  markRun hp h := h.imp (hF.markRun hp) (hG.markRun hp)
  announce h := h.imp hF.announce hG.announce
  seq h := h.imp hF.seq hG.seq
  seen h := h.imp hF.seen hG.seen
  scope h := h.imp hF.scope hG.scope

theorem clock (t : Nat) : Quiet fun _ w => t ≤ w.clock where
  env := by
    rintro m w m' w' (⟨_, _, u, hu⟩ | ⟨⟩ | ⟨⟩ | ⟨⟩ | ⟨_, _, patch, _, _⟩) h
    · exact h.trans hu
    · exact h
    · exact h
    · exact h
    · rwa [World.markRun_clock]
  append h := h
  markRun _ h := by rwa [World.markRun_clock]
  announce h := h
  seq h := h
  seen h := h
  scope h := h

theorem flag (P : Prop) : Quiet fun m _ => P → m.interrupted = true where
  env := by
    rintro m w m' w' (⟨⟩ | ⟨⟩ | ⟨⟩ | ⟨⟩ | ⟨⟩) h
    · exact h
    · exact h
    · exact fun _ => rfl
    · exact h
    · exact h
  append h := h
  markRun _ h := h
  announce h := h
  seq h := h
  seen h := h
  scope h := h

end Quiet

/-- A quiet assertion that implies the crash condition. -/
structure Stable (C F : Assertion) : Prop extends Quiet F where
  le : ∀ m w, F m w → C m w

variable {C F G : Assertion} {m : DriveMemory} {w : World}

theorem Stable.and_clock (hF : Stable C F) (t : Nat) :
    Stable C fun m w => F m w ∧ t ≤ w.clock where
  toQuiet := hF.toQuiet.and (Quiet.clock t)
  le m w h := hF.le m w h.1

theorem Stable.and_pure (hF : Stable C F) (P : Prop) : Stable C fun m w => F m w ∧ P where
  toQuiet := hF.toQuiet.and ⟨fun _ h => h, id, fun _ h => h, id, id, id, id⟩
  le m w h := hF.le m w h.1

theorem Stable.and_quiet (hF : Stable C F) (hG : Quiet G) :
    Stable C fun m w => F m w ∧ G m w where
  toQuiet := hF.toQuiet.and hG
  le m w h := hF.le m w h.1

/-- The rule of an await: a stable assertion before, one for each answer behind, and the
effect leads from one to the other. -/
theorem yields_await {op : DriverOp} {G : driverSignature.Ret op → Assertion}
    (hF : Stable C F) (hG : ∀ r, Stable C (G r))
    (heff : ∀ m w r w', F m w → Effect op w r w' → G r m w') (h : F m w) :
    (await op).Yields Answered C m w G := by
  refine Proc.yields_call (hF.le _ _ h) ?_ ?_
  · intro r m' w' hans
    cases hans with
    | ok before effect after =>
      exact (hG r).envs after (heff _ _ _ _ (hF.envs before h) effect)
  · intro e m' w' hans
    cases hans with
    | lost before effect after _ =>
      exact (hG _).le _ _ ((hG _).envs after (heff _ _ _ _ (hF.envs before h) effect))
    | refused before _ => exact hF.le _ _ (hF.envs before h)
    | stateCap before _ after => exact hF.le _ _ (hF.envs after (hF.envs before h))

/-- An await whose effect is not on the trail keeps `F` however it ends. -/
theorem sat_await_quiet {op : DriverOp} (hF : Stable C F)
    (heff : ∀ m w r w', F m w → Effect op w r w' → F m w') (h : F m w) :
    (await op).Sat Answered C m w fun _ m w => F m w := by
  refine Proc.sat_call.mpr ⟨hF.le _ _ h, fun r m' w' hans => ?_⟩
  cases hans with
  | ok before effect after =>
    exact hF.envs after (heff _ _ _ _ (hF.envs before h) effect)
  | lost before effect after _ =>
    exact hF.envs after (heff _ _ _ _ (hF.envs before h) effect)
  | refused before _ => exact hF.envs before h
  | stateCap before _ after => exact hF.envs after (hF.envs before h)

theorem yields_await_quiet {op : DriverOp} (hF : Stable C F)
    (heff : ∀ m w r w', F m w → Effect op w r w' → F m w') (h : F m w) :
    (await op).Yields Answered C m w fun _ m w => F m w :=
  yields_await hF (fun _ => hF) heff h

theorem hang_yields {α : Type} {Q : α → Assertion} (h : C m w) :
    (hang : DriverProc α).Yields Answered C m w Q := by
  refine Proc.yields_bind.mpr (Proc.yields_call h (fun e => e.elim) ?_)
  intro e m' w' hans
  cases hans with
  | lost _ effect _ _ => cases effect
  | refused _ hop => exact absurd hop (by decide)

section

variable (hF : Stable C F) (h : F m w)
include hF h

theorem now_yields : now.Yields Answered C m w fun t m w => F m w ∧ t ≤ w.clock := by
  refine yields_await hF (fun t => hF.and_clock t) ?_ h
  intro m w r w' hw heff
  cases heff
  exact ⟨hw, Nat.le_refl _⟩

theorem now_since {c : Nat} (hc : ∀ m w, F m w → c ≤ w.clock) :
    now.Yields Answered C m w fun t m w => (F m w ∧ t ≤ w.clock) ∧ c ≤ t := by
  have hG : ∀ t : Nat, Stable C fun m w => (F m w ∧ t ≤ w.clock) ∧ c ≤ t :=
    fun t => (hF.and_clock t).and_pure _
  refine yields_await hF hG ?_ h
  intro m w r w' hw heff
  cases heff
  exact ⟨⟨hw, Nat.le_refl _⟩, hc m w hw⟩

theorem announce_yields (a : Announcement) :
    (announce a).Yields Answered C m w fun _ m w => F m w := by
  refine yields_await_quiet hF ?_ h
  intro m w r w' hw heff
  cases heff
  exact hF.announce hw

theorem publishRunStatus_yields (status : RunStatus) (error : Option JsString) :
    (publishRunStatus status error).Yields Answered C m w fun _ m w => F m w :=
  announce_yields hF h _

theorem markRun_yields (status : RunStatus) (error : Option JsString) (hs : status ≠ .succeeded) :
    (markRun status error none).Yields Answered C m w fun _ m w => F m w := by
  refine yields_await_quiet hF ?_ h
  intro m w r w' hw heff
  cases heff
  exact hF.markRun ⟨rfl, hs⟩ hw

theorem emit_yields (event : PipelineStreamEvent) :
    (emit event).Yields Answered C m w fun _ m w => F m w := by
  unfold emit
  rw [Proc.yields_bind, Proc.yields_read, Proc.yields_bind, Proc.yields_update]
  refine Proc.Yields.bind (yields_await_quiet hF ?_ (hF.seq h)) ?_
  · intro m w r w' hw heff
    cases heff
    exact hF.append hw
  · intro _ m' w' h'
    exact announce_yields hF h' _

theorem emitStarted_yields (step : StepInfo) (path : JsString) (attempt : Nat)
    (childRunId : Option JsString) :
    (emitStarted step path attempt childRunId).Yields Answered C m w fun _ m w => F m w :=
  emit_yields hF h _

theorem awaitPause_yields : (await .pause).Yields Answered C m w fun _ m w => F m w := by
  refine yields_await_quiet hF ?_ h
  intro m w r w' hw heff
  cases heff
  exact hw

theorem pause_yields : pause.Yields Answered C m w fun _ m w => F m w := by
  unfold pause
  rw [Proc.yields_bind, Proc.yields_read]
  split
  · exact h
  · exact awaitPause_yields hF h

theorem backfill_yields (row : RunStepRow) (step : StepInfo) (path : JsString) :
    (backfillTerminalStepEvent row step path).Yields Answered C m w fun _ m w => F m w := by
  unfold backfillTerminalStepEvent
  rw [Proc.yields_bind, Proc.yields_read]
  split
  · exact h
  · split
    · exact h
    · rw [Proc.yields_bind, Proc.yields_update]
      split
      · exact emit_yields hF (hF.seen h) _
      · exact emit_yields hF (hF.seen h) _
      · exact emit_yields hF (hF.seen h) _
      · exact hF.seen h

theorem pollChild_yields (childRunId : JsString) (rounds : Nat) :
    (pollChild childRunId rounds).Yields Answered C m w fun r m w =>
      F m w ∧ (r = .interrupted → m.interrupted = true) := by
  induction rounds generalizing m w with
  | zero => exact hang_yields (hF.le _ _ h)
  | succ rounds ih =>
    unfold pollChild
    rw [Proc.yields_bind, Proc.yields_read]
    split
    · next hi => exact ⟨h, fun _ => hi⟩
    · split
      · exact ⟨h, by rintro ⟨⟩⟩
      · refine Proc.Yields.bind (yields_await_quiet hF ?_ h) ?_
        · intro m w r w' hw heff
          cases heff
          exact hw
        · intro status m' w' h'
          split
          · exact ⟨h', by rintro ⟨⟩⟩
          · exact Proc.Yields.bind (awaitPause_yields hF h') fun _ _ _ h'' => ih h''
          · exact ⟨h', by rintro ⟨⟩⟩

end

theorem onTrail_yields {op : DriverOp} {f : Trail → Trail} {G : Assertion}
    (hop : ∀ w r w', Effect op w r w' → w' = w.onTrail f)
    (hF : Stable C F) (hG : Stable C G) (hfg : ∀ m w, F m w → G m (w.onTrail f)) (h : F m w) :
    (await op).Yields Answered C m w fun _ m w => G m w := by
  refine yields_await hF (fun _ => hG) ?_ h
  intro m w r w' hw heff
  rw [hop w r w' heff]
  exact hfg m w hw

section

variable {G : Assertion} (hF : Stable C F) (hG : Stable C G)
include hF hG

theorem note_yields (deed : Deed) (hfg : ∀ m w, F m w → G m (w.onTrail (·.record deed)))
    (h : F m w) : (note deed).Yields Answered C m w fun _ m w => G m w :=
  onTrail_yields (fun _ _ _ heff => by cases heff; rfl) hF hG hfg h

theorem finish_yields (path : JsString) (patch : FinishStepPatch)
    (hfg : ∀ m w, F m w → G m (w.onTrail (·.finish path patch))) (h : F m w) :
    (finish path patch).Yields Answered C m w fun _ m w => G m w :=
  onTrail_yields (fun _ _ _ heff => by cases heff; rfl) hF hG hfg h

theorem markRunning_yields (path : JsString) (attempt : Nat)
    (hfg : ∀ m w, F m w → G m (w.onTrail (·.markRunning path attempt))) (h : F m w) :
    (markRunning path attempt).Yields Answered C m w fun _ m w => G m w :=
  onTrail_yields (fun _ _ _ heff => by cases heff; rfl) hF hG hfg h

theorem markWaiting_yields (path childRunId : JsString)
    (hfg : ∀ m w, F m w → G m (w.onTrail (·.markWaiting path childRunId))) (h : F m w) :
    (await (.markWaiting path childRunId)).Yields Answered C m w fun _ m w => G m w :=
  onTrail_yields (fun _ _ _ heff => by cases heff; rfl) hF hG hfg h

theorem finishFailed_yields (step : StepInfo) (path : JsString) (attempt : Nat)
    (errorClass error : JsString)
    (hfg : ∀ m w, F m w →
      G m (w.onTrail (·.finish path ⟨.failed, none, some error, some errorClass⟩)))
    (h : F m w) :
    (finishFailed step path attempt errorClass error).Yields Answered C m w
      fun r m w => r = .failed error errorClass ∧ G m w := by
  unfold finishFailed
  refine Proc.Yields.bind (finish_yields hF hG path _ hfg h) fun _ m' w' h' => ?_
  refine Proc.Yields.bind (emit_yields hG h' _) fun _ m' w' h' => ?_
  exact ⟨rfl, h'⟩

theorem finishSucceeded_yields (step : StepInfo) (path : JsString) (steps : ScopeSteps)
    (output : JsonRecord)
    (hfg : ∀ m w, F m w →
      G m (w.onTrail (·.finish path ⟨.succeeded, some output, none, none⟩)))
    (h : F m w) :
    (finishSucceeded step path steps output).Yields Answered C m w
      fun r m w => r = extendScope steps step output ∧ G m w := by
  unfold finishSucceeded
  refine Proc.Yields.bind (finish_yields hF hG path _ hfg h) fun _ m' w' h' => ?_
  refine Proc.Yields.bind (emit_yields hG h' _) fun _ m' w' h' => ?_
  exact ⟨rfl, h'⟩

theorem finishCanceled_yields (path : JsString)
    (hfg : ∀ m w, F m w → G m (w.onTrail (·.finish path ⟨.canceled, none, none, none⟩)))
    (h : F m w) : (finishCanceled path).Yields Answered C m w fun _ m w => G m w :=
  finish_yields hF hG path _ hfg h

theorem parkOnChild_yields (hC : Quiet C) (d : DriveCtx) (step : StepInfo)
    (path childRunId : JsString)
    (hfg : ∀ m w, F m w → G m (w.onTrail (·.markWaiting path childRunId))) (h : F m w) :
    (parkOnChild d step path childRunId).Yields Answered C m w fun r m w =>
      G m w ∧ (r = .interrupted → m.interrupted = true) := by
  have hCC : Stable C C := ⟨hC, fun _ _ h => h⟩
  unfold parkOnChild
  refine Proc.Yields.bind (markWaiting_yields hF hG path childRunId hfg h) fun _ m w h => ?_
  refine Proc.Yields.bind (emit_yields hG h _) fun _ m w h => ?_
  refine Proc.Yields.bind (markRun_yields hG h _ _ (by rintro ⟨⟩)) fun _ m w h => ?_
  refine Proc.Yields.bind (publishRunStatus_yields hG h _ _) fun _ m w h => ?_
  -- a poll that fails is thrown on after the run row is written back
  let Ended : Except DriverError Parked → Assertion :=
    Returns (S := driverSignature) C fun r m w =>
      G m w ∧ (r = .interrupted → m.interrupted = true)
  have hEnded : ∀ r, Stable C (Ended r) := by
    rintro (e | parked)
    · exact hCC
    · exact hG.and_quiet (Quiet.flag _)
  have hpoll : (Proc.attempt (pollChild childRunId d.rounds)).Yields Answered C m w Ended :=
    Proc.Yields.attempt (pollChild_yields hG h _ _) fun _ _ _ h => h
  refine Proc.Yields.bind hpoll fun parked m w h => ?_
  refine Proc.Yields.bind (markRun_yields (hEnded parked) h _ _ (by rintro ⟨⟩)) fun resumed m w h => ?_
  have hpublish : (if resumed then publishRunStatus .running none else pure ()).Yields
      Answered C m w fun _ => Ended parked := by
    split
    · exact publishRunStatus_yields (hEnded parked) h _ _
    · exact h
  refine Proc.Yields.bind hpublish fun _ m w h => ?_
  cases parked with
  | ok parked => exact h
  | error e => exact h

end

theorem setState_yields (hF : Stable C F) (entries : JsonRecord) (h : F m w) :
    (Proc.attempt (await (.setState entries))).Yields Answered C m w fun _ m w => F m w := by
  refine Proc.sat_attempt.mpr (sat_await_quiet hF ?_ h)
  intro m w r w' hw heff
  cases heff
  exact hF.env (Env.state m w _) hw

/-- An executor call, whatever the executor links; only an agent step is parked. -/
theorem runAttempt_yields (hF : Stable C F) (d : DriveCtx) (call : Invocation)
    (remainingMs : Nat)
    (hcall : ∀ m w, F m w → F m (w.onTrail (·.record (.invoked call))))
    (hlink : call.step.kind = .agent → ∀ m w child, F m w →
      F m (w.onTrail (·.linkChild call.path child))) (h : F m w) :
    (runAttempt d call remainingMs).Yields Answered C m w fun r m w => F m w ∧
      (∀ child, r = .outcome (.waiting child) → call.step.kind = .agent) ∧
      (r = .interrupted → m.interrupted = true) := by
  have hinvoke : ∀ m w, F m w →
      (await (.invoke call)).Yields Answered C m w fun _ m w => F m w := by
    intro m w h
    refine yields_await hF (fun _ => hF) ?_ h
    intro m w r w' hw heff
    cases heff with
    | invoke => exact hcall m w hw
    | invokeLinking _ _ child hk => exact hlink hk _ _ child (hcall m w hw)
  have houtcome : ∀ m w, F m w → (await (.outcome call)).Yields Answered C m w
      fun (r : Raced) m w => F m w ∧
        ∀ child, r = .settled (.waiting child) → call.step.kind = .agent := by
    intro m w h
    have hG : ∀ r : Raced, Stable C fun m w => F m w ∧
        ∀ child, r = .settled (.waiting child) → call.step.kind = .agent :=
      fun r => hF.and_pure _
    refine yields_await hF hG ?_ h
    intro m w r w' hw heff
    cases heff with
    | outcome _ _ _ hr => exact ⟨hw, hr⟩
    | outcomeLinking _ _ _ child hr hk => exact ⟨hlink hk _ _ child hw, hr⟩
  unfold runAttempt
  split
  · exact ⟨h, by rintro child ⟨⟩, by rintro ⟨⟩⟩
  · refine Proc.Yields.bind (hinvoke m w h) fun _ m w h => ?_
    refine Proc.Yields.bind (houtcome m w h) fun raced m w h => ?_
    obtain ⟨h, hr⟩ := h
    rw [Proc.yields_bind, Proc.yields_read]
    rcases raced with (_ | _ | child) | _
    · dsimp only
      split
      · next hi => exact ⟨h, by rintro _ ⟨⟩, fun _ => hi⟩
      · exact ⟨h, by rintro _ ⟨⟩, by rintro ⟨⟩⟩
    · dsimp only
      split
      · next hi => exact ⟨h, by rintro _ ⟨⟩, fun _ => hi⟩
      · split
        · exact ⟨h, by rintro _ ⟨⟩, by rintro ⟨⟩⟩
        · exact ⟨h, by rintro _ ⟨⟩, by rintro ⟨⟩⟩
    · dsimp only
      split
      · next hi => exact ⟨h, by rintro _ ⟨⟩, fun _ => hi⟩
      · split
        · exact ⟨h, by rintro _ ⟨⟩, by rintro ⟨⟩⟩
        · exact ⟨h, fun _ _ => hr child rfl, by rintro ⟨⟩⟩
    · dsimp only
      split
      · next hi => exact ⟨h, by rintro _ ⟨⟩, fun _ => hi⟩
      · split
        · exact ⟨h, by rintro _ ⟨⟩, by rintro ⟨⟩⟩
        · exact ⟨h, by rintro _ ⟨⟩, by rintro ⟨⟩⟩

end InvisibleString.Pipeline
