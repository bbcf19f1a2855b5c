import InvisibleString.Pipeline.Refine

/- # `Pipeline.History` — the drivers of a run, one after the other

A run is created, other parties act on it, and drivers walk through its config.  A driver may
be cut off at any statement; the next one starts with what is left.  That no two of them are
under way at once is the business of the run's lock.

**Proved here.**

    a driver leaves the trail alone, walks the config, and settles the run  (`drive_drove`)
    what every driver keeps holds of every history  (`History.rule`)
-/

namespace InvisibleString.Pipeline

open EventLoop Json Relation
open Tailer (RunStatus)

/-- Where the walk of a driver begins that was started in `σ₀` with the run row `run`. -/
structure Launch (d : Deps) (run : RunRow) (σ₀ : Walker) (c : DriveCtx) (σ : Walker) : Prop where
  deps : c.toDeps = d
  trail : σ.trail = σ₀.trail
  clock : σ₀.clock ≤ σ.clock
  begun : σ.begun = true
  succeeded : σ.succeeded = false
  deadline : ∃ startedAt, c.deadlineMs = startedAt + d.config.maxWallClockMs ∧
    ((run.startedAt = some startedAt ∧ σ.startedAt = σ₀.startedAt) ∨
      (run.startedAt = none ∧ σ.startedAt = some startedAt ∧ σ₀.clock ≤ startedAt))
  seed : (σ₀.begun = false ∧ c.priorLedgerPaths = none ∧ σ.executed = 0) ∨
    (c.priorLedgerPaths = some σ₀.trail.steps.paths ∧
      σ.executed = (σ₀.trail.steps.filter fun r => r.status.seeded).length)

/-- `σ₀` with another `started_at`, and time may have passed. -/
structure Waited (run : RunRow) (σ₀ σ : Walker) : Prop where
  trail : σ.trail = σ₀.trail
  clock : σ₀.clock ≤ σ.clock
  succeeded : σ.succeeded = σ₀.succeeded
  begun : σ₀.begun = true → σ.begun = true
  startedAt : σ.startedAt = σ₀.startedAt ∨
    run.startedAt = none ∧ ∃ t, σ.startedAt = some t ∧ σ₀.clock ≤ t

/-- The run is marked running, and `executed` instances are counted. -/
structure Marked (run : RunRow) (σ₀ : Walker) (startedAt executed : Nat) (σ : Walker) : Prop where
  waited : Waited run σ₀ σ
  executed : σ.executed = executed
  succeeded : σ.succeeded = false
  started : (run.startedAt = some startedAt ∧ σ.startedAt = σ₀.startedAt) ∨
    (run.startedAt = none ∧ σ.startedAt = some startedAt ∧ σ₀.clock ≤ startedAt)

/-- What a driver may come to that was started in `σ₀` with the run row `run`. -/
inductive Drove (d : Deps) (run : RunRow) (config : WorkflowConfig) (σ₀ : Walker) : Walker → Prop
  | waited {σ} (h : Waited run σ₀ σ) : Drove d run config σ₀ σ
  | walking {c σ₁ o σ} (hl : Launch d run σ₀ c σ₁) (hw : Walks c (.seq config.steps none) σ₁ o σ) :
      Drove d run config σ₀ σ
  | settled {c σ₁ fate σ₂ σ} (hl : Launch d run σ₀ c σ₁)
      (hw : Walks c (.seq config.steps none) σ₁ (some fate) σ₂)
      (hf : fate = .ok ∨ fate = .filtered) (hi : Idle { σ₂ with succeeded := true } σ) :
      Drove d run config σ₀ σ

section

variable {d : Deps} {run : RunRow} {config : WorkflowConfig} {σ₀ σ σ' : Walker}

theorem Waited.idle (h : Waited run σ₀ σ) (hi : Idle σ σ') : Waited run σ₀ σ' where
  trail := hi.trail.trans h.trail
  clock := h.clock.trans hi.clock
  succeeded := hi.succeeded.trans h.succeeded
  begun := hi.begun ∘ h.begun
  startedAt := by
    rw [hi.startedAt]
    exact h.startedAt

theorem Idle.waited (h : Idle σ₀ σ) : Waited run σ₀ σ :=
  ⟨h.trail, h.clock, h.succeeded, h.begun, Or.inl h.startedAt⟩

theorem Drove.idle (h : Drove d run config σ₀ σ) (hi : Idle σ σ') : Drove d run config σ₀ σ' := by
  cases h with
  | waited h => exact .waited (h.idle hi)
  | walking hl hw => exact .walking hl (hw.after hi)
  | settled hl hw hf h => exact .settled hl hw hf (h.trans hi)

/-- What holds at every statement of a driver. -/
def Driving (d : Deps) (run : RunRow) (config : WorkflowConfig) (σ₀ : Walker) : Assertion :=
  fun m w => Drove d run config σ₀ (walker m w)

theorem driving_stable : Stable (Driving d run config σ₀) (Driving d run config σ₀) where
  toQuiet := quiet_walker fun h hi => h.idle hi
  le _ _ h := h

theorem driving_of_waited {F : Walker → Prop} (hF : ∀ {σ σ'}, F σ → Idle σ σ' → F σ')
    (h : ∀ σ, F σ → Waited run σ₀ σ) :
    Stable (Driving d run config σ₀) fun m w => F (walker m w) where
  toQuiet := quiet_walker hF
  le _ _ hw := .waited (h _ hw)

variable {m : DriveMemory} {w : World}

theorem failOutright_drove (error : JsString) (h : Driving d run config σ₀ m w) :
    (failOutright error).Yields Answered (Driving d run config σ₀) m w
      fun _ => Driving d run config σ₀ := by
  unfold failOutright
  refine Proc.Yields.bind (markRun_yields driving_stable h _ _ (by rintro ⟨⟩)) fun _ m w h => ?_
  refine Proc.Yields.bind (publishRunStatus_yields driving_stable h _ _) fun _ m w h => ?_
  exact announce_yields driving_stable h _

theorem deliverOnComplete_drove (scope : Option PipelineScope) (status : RunStatus)
    (h : Driving d run config σ₀ m w) :
    (deliverOnComplete d config scope status).Yields Answered (Driving d run config σ₀) m w
      fun _ => Driving d run config σ₀ := by
  unfold deliverOnComplete
  split
  · exact h
  · exact announce_yields driving_stable h _

/-- Writing the end of the run: it succeeds only where the walk did. -/
theorem markSettled_drove {c : DriveCtx} {σ₁ : Walker} {outcome : SequenceOutcome}
    (hl : Launch d run σ₀ c σ₁)
    (hw : Walks c (.seq config.steps none) σ₁ (some outcome.fate) (walker m w)) :
    (markRun (runStatusOf outcome).1 (runStatusOf outcome).2 none).Yields Answered
      (Driving d run config σ₀) m w fun _ => Driving d run config σ₀ := by
  have hF : Stable (Driving d run config σ₀)
      fun m w => Walks c (.seq config.steps none) σ₁ (some outcome.fate) (walker m w) :=
    ⟨quiet_walker fun h hi => h.after hi, fun _ _ h => .walking hl h⟩
  refine yields_await hF (fun _ => driving_stable) ?_ hw
  intro m w r w' hw heff
  cases heff
  by_cases hs : (runStatusOf outcome).1 = .succeeded
  · have hfate : outcome.fate = .ok ∨ outcome.fate = .filtered := by
      cases outcome with
      | completed => exact Or.inl rfl
      | filtered => exact Or.inr rfl
      | halted => cases hs
      | canceled => cases hs
    by_cases ht : w.run.status.terminal = true
    · rw [World.markRun, if_pos ht]
      exact .walking hl hw
    · refine .settled hl hw hfate ?_
      have hrun : walker m (w.markRun ⟨(runStatusOf outcome).1, (runStatusOf outcome).2, none⟩) =
          { walker m w with succeeded := true } := by
        rw [World.markRun, if_neg ht]
        simp only [walker, RunPatch.apply, hs]
        rfl
      rw [hrun]
      exact Idle.refl _
  · exact .walking hl (hw.after (idle_markRun m w ⟨rfl, hs⟩))

theorem settle_drove {c : DriveCtx} {σ₁ : Walker} {outcome : SequenceOutcome} {scope : StepScope}
    (hl : Launch d run σ₀ c σ₁)
    (hw : Walks c (.seq config.steps none) σ₁ (some outcome.fate) (walker m w)) :
    (settle d config (runStatusOf outcome).1 (runStatusOf outcome).2 scope).Yields Answered
      (Driving d run config σ₀) m w fun _ => Driving d run config σ₀ := by
  unfold settle
  refine Proc.Yields.bind (markSettled_drove hl hw) fun _ m w h => ?_
  have hemit : (Proc.attempt (emit (.completed (runStatusOf outcome).1))).Yields Answered
      (Driving d run config σ₀) m w fun _ => Driving d run config σ₀ :=
    Proc.Yields.attempt (emit_yields driving_stable h _) fun _ _ _ h => h
  refine Proc.Yields.bind hemit fun _ m w h => ?_
  refine Proc.Yields.bind (publishRunStatus_yields driving_stable h _ _) fun _ m w h => ?_
  rw [Proc.yields_bind, Proc.yields_read]
  exact deliverOnComplete_drove _ _ h

theorem walked_drove {c : DriveCtx} {scope : StepScope} (hl : Launch d run σ₀ c (walker m w)) :
    (do
      let outcome ← runSequence c config.steps scope none
      let m ← Proc.read
      if m.interrupted then return ()
      else
        settle d config (runStatusOf outcome.1).1 (runStatusOf outcome.1).2
          { scope with steps := outcome.2 }).Yields Answered (Driving d run config σ₀) m w
      fun _ => Driving d run config σ₀ := by
  have hwalk := (runSequence_walks (d := c) config.steps scope none m w).weaken
    fun _ _ h => Drove.walking (d := d) hl h
  refine Proc.Yields.bind hwalk fun r m w h => ?_
  rw [Proc.yields_bind, Proc.yields_read]
  split
  · exact Drove.walking hl h
  · exact settle_drove hl h

theorem countRunEvents_waited (h : Idle σ₀ (walker m w)) :
    (await .countRunEvents).Yields Answered (Driving d run config σ₀) m w
      fun (n : Nat) m w => Idle σ₀ (walker m w) ∧ (n = 0 → σ₀.begun = false) ∧
        (n ≠ 0 → (walker m w).begun = true) := by
  have hF : Stable (Driving d run config σ₀) fun m w => Idle σ₀ (walker m w) :=
    driving_of_waited (fun h hi => h.trans hi) fun _ h => h.waited
  have hG : ∀ n : Nat, Stable (Driving d run config σ₀) fun m w => Idle σ₀ (walker m w) ∧
      (n = 0 → σ₀.begun = false) ∧ (n ≠ 0 → (walker m w).begun = true) := fun n =>
    driving_of_waited (F := fun σ => Idle σ₀ σ ∧ (n = 0 → σ₀.begun = false) ∧
      (n ≠ 0 → σ.begun = true))
      (fun h hi => ⟨h.1.trans hi, h.2.1, hi.begun ∘ h.2.2⟩) fun _ h => h.1.waited
  refine yields_await hF hG ?_ h
  intro m w n w' h heff
  cases heff
  refine ⟨h, ?_, ?_⟩
  · intro hn
    by_contra hb
    have hb := h.begun (by simpa using hb)
    simp [walker, List.length_eq_zero_iff.mp hn] at hb
  · intro hn
    show (!w.events.isEmpty) = true
    cases he : w.events with
    | nil => exact absurd (congrArg List.length he) hn
    | cons e es => rfl

theorem Marked.idle {startedAt executed : Nat} (h : Marked run σ₀ startedAt executed σ)
    (hi : Idle σ σ') : Marked run σ₀ startedAt executed σ' where
  waited := h.waited.idle hi
  executed := hi.executed.trans h.executed
  succeeded := hi.succeeded.trans h.succeeded
  started := by
    rw [hi.startedAt]
    exact h.started

/-- The count of the events that the driver starts from, which is fixed by now. -/
def Counted (σ₀ : Walker) (n : Nat) (σ : Walker) : Prop :=
  (n = 0 → σ₀.begun = false) ∧ (n ≠ 0 → σ.begun = true)

theorem Counted.idle {n : Nat} (h : Counted σ₀ n σ) (hi : Idle σ σ') : Counted σ₀ n σ' :=
  ⟨h.1, hi.begun ∘ h.2⟩

/-- The start of the run: of its row, or now. -/
theorem startedAt_waited {n : Nat} (h : Idle σ₀ (walker m w)) (hn : Counted σ₀ n (walker m w)) :
    (run.startedAt.elim now pure).Yields Answered (Driving d run config σ₀) m w
      fun t m w => (Idle σ₀ (walker m w) ∧ Counted σ₀ n (walker m w)) ∧
        (run.startedAt = some t ∨ run.startedAt = none ∧ σ₀.clock ≤ t) := by
  have hF : Stable (Driving d run config σ₀) fun m w => Idle σ₀ (walker m w) ∧
      Counted σ₀ n (walker m w) :=
    driving_of_waited (F := fun σ => Idle σ₀ σ ∧ Counted σ₀ n σ)
      (fun h hi => ⟨h.1.trans hi, h.2.idle hi⟩) fun _ h => h.1.waited
  cases hr : run.startedAt with
  | none =>
    refine (now_since hF ⟨h, hn⟩ fun m w h => h.1.clock).mono ?_
    intro t m w h
    exact ⟨h.1.1, Or.inr ⟨rfl, h.2⟩⟩
  | some t => exact ⟨⟨h, hn⟩, Or.inl rfl⟩

theorem markRunning_marked {n startedAt : Nat} (h : Idle σ₀ (walker m w))
    (hn : Counted σ₀ n (walker m w))
    (ht : run.startedAt = some startedAt ∨ run.startedAt = none ∧ σ₀.clock ≤ startedAt) :
    (markRun .running none (if run.startedAt.isSome then none else some startedAt)).Yields Answered
      (Driving d run config σ₀) m w fun live m w => Waited run σ₀ (walker m w) ∧ (live = true →
        Marked run σ₀ startedAt σ₀.executed (walker m w) ∧ Counted σ₀ n (walker m w)) := by
  have hF : Stable (Driving d run config σ₀) fun m w => Idle σ₀ (walker m w) ∧
      Counted σ₀ n (walker m w) :=
    driving_of_waited (F := fun σ => Idle σ₀ σ ∧ Counted σ₀ n σ)
      (fun h hi => ⟨h.1.trans hi, h.2.idle hi⟩) fun _ h => h.1.waited
  have hG : ∀ live : Bool, Stable (Driving d run config σ₀) fun m w =>
      Waited run σ₀ (walker m w) ∧ (live = true →
        Marked run σ₀ startedAt σ₀.executed (walker m w) ∧ Counted σ₀ n (walker m w)) := fun live =>
    driving_of_waited (F := fun σ => Waited run σ₀ σ ∧ (live = true →
        Marked run σ₀ startedAt σ₀.executed σ ∧ Counted σ₀ n σ))
      (fun h hi => ⟨h.1.idle hi, fun hl => ⟨(h.2 hl).1.idle hi, (h.2 hl).2.idle hi⟩⟩)
      fun _ h => h.1
  refine yields_await hF hG ?_ ⟨h, hn⟩
  intro m w live w' h heff
  obtain ⟨h, hn⟩ := h
  cases heff
  by_cases hterm : w.run.status.terminal = true
  · rw [World.markRun, if_pos hterm, hterm]
    exact ⟨h.waited, by rintro ⟨⟩⟩
  · have hsucc : (decide (w.run.status = .succeeded)) = false := by
      refine decide_eq_false fun hs => hterm ?_
      rw [hs]
      rfl
    have hwalker : ∀ x, walker m (w.markRun ⟨.running, none, x⟩) =
        { walker m w with startedAt := x <|> w.run.startedAt, succeeded := false } := by
      intro x
      rw [World.markRun, if_neg hterm]
      rfl
    have hsame : false = σ₀.succeeded := by
      rw [← h.succeeded]
      exact hsucc.symm
    rw [hwalker]
    rcases ht with ht | ⟨ht, hc⟩
    · have hw : Waited run σ₀ { walker m w with
          startedAt := (none <|> w.run.startedAt), succeeded := false } :=
        ⟨h.trail, h.clock, hsame, h.begun, Or.inl h.startedAt⟩
      rw [ht]
      exact ⟨hw, fun _ => ⟨⟨hw, h.executed, rfl, Or.inl ⟨ht, h.startedAt⟩⟩, hn.1, hn.2⟩⟩
    · have hw : Waited run σ₀ { walker m w with
          startedAt := (some startedAt <|> w.run.startedAt), succeeded := false } :=
        ⟨h.trail, h.clock, hsame, h.begun, Or.inr ⟨ht, startedAt, rfl, hc⟩⟩
      rw [ht]
      exact ⟨hw, fun _ => ⟨⟨hw, h.executed, rfl, Or.inr ⟨ht, rfl, hc⟩⟩, hn.1, hn.2⟩⟩

/-- Marked, and the run has events. -/
structure Begun (run : RunRow) (σ₀ : Walker) (startedAt executed : Nat) (σ : Walker) : Prop
    extends Marked run σ₀ startedAt executed σ where
  begun : σ.begun = true

theorem begun_stable {startedAt executed : Nat} : Stable (Driving d run config σ₀)
    fun m w => Begun run σ₀ startedAt executed (walker m w) :=
  driving_of_waited (F := Begun run σ₀ startedAt executed)
    (fun h hi => ⟨h.toMarked.idle hi, hi.begun h.begun⟩) fun _ h => h.waited

/-- A run without events gets its first. -/
theorem emitStarted_begun {n startedAt executed count : Nat}
    (h : Marked run σ₀ startedAt executed (walker m w)) (hn : Counted σ₀ n (walker m w)) :
    (if n = 0 then emit (.started count) else pure ()).Yields Answered (Driving d run config σ₀) m w
      fun _ m w => Begun run σ₀ startedAt executed (walker m w) := by
  split
  · have hF : Stable (Driving d run config σ₀)
        fun m w => Marked run σ₀ startedAt executed (walker m w) :=
      driving_of_waited (fun h hi => h.idle hi) fun _ h => h.waited
    unfold emit
    rw [Proc.yields_bind, Proc.yields_read, Proc.yields_bind, Proc.yields_update]
    have happend : (await (.appendEvent m.seq (.started count))).Yields Answered
        (Driving d run config σ₀) { m with seq := m.seq + 1 } w
        fun _ m w => Begun run σ₀ startedAt executed (walker m w) := by
      refine yields_await hF (fun _ => begun_stable) ?_ (hF.seq h)
      intro m w r w' h heff
      cases heff
      exact ⟨h.idle (idle_append _ _ _ _), by simp [walker, World.append]⟩
    exact Proc.Yields.bind happend fun _ m w h => announce_yields begun_stable h _
  · next hne => exact ⟨h, hn.2 hne⟩

theorem seedFromLedger_begun {startedAt executed : Nat}
    (h : Begun run σ₀ startedAt executed (walker m w)) :
    seedFromLedger.Yields Answered (Driving d run config σ₀) m w fun prior m w =>
      prior = some σ₀.trail.steps.paths ∧ Begun run σ₀ startedAt
        (σ₀.trail.steps.filter fun r => r.status.seeded).length (walker m w) := by
  unfold seedFromLedger
  have hlist : (await .listForRun).Yields Answered (Driving d run config σ₀) m w
      fun (ledger : Ledger) m w => Begun run σ₀ startedAt executed (walker m w) ∧
        ledger = σ₀.trail.steps := by
    have hG : ∀ ledger : Ledger, Stable (Driving d run config σ₀) fun m w =>
        Begun run σ₀ startedAt executed (walker m w) ∧ ledger = σ₀.trail.steps :=
      fun ledger => begun_stable.and_pure _
    refine yields_await begun_stable hG ?_ h
    intro m w ledger w' h heff
    cases heff
    exact ⟨h, congrArg Trail.steps h.waited.trail⟩
  refine Proc.Yields.bind hlist fun ledger m w h => ?_
  obtain ⟨h, rfl⟩ := h
  rw [Proc.yields_bind, Proc.yields_update]
  have h' : Begun run σ₀ startedAt (σ₀.trail.steps.filter fun r => r.status.seeded).length
      (walker { m with executed := (σ₀.trail.steps.filter fun r => r.status.seeded).length } w) :=
    ⟨⟨⟨h.waited.trail, h.waited.clock, h.waited.succeeded, h.waited.begun, h.waited.startedAt⟩,
      rfl, h.succeeded, h.started⟩, h.begun⟩
  have hevents : loadTerminalStepEventPaths.Yields Answered (Driving d run config σ₀)
      { m with executed := (σ₀.trail.steps.filter fun r => r.status.seeded).length } w
      fun _ m w => Begun run σ₀ startedAt
        (σ₀.trail.steps.filter fun r => r.status.seeded).length (walker m w) := by
    unfold loadTerminalStepEventPaths
    refine Proc.Yields.bind (yields_await_quiet begun_stable ?_ h') fun _ _ _ h => h
    intro m w r w' h heff
    cases heff
    exact h
  refine Proc.Yields.bind hevents fun seen m w h => ?_
  rw [Proc.yields_bind, Proc.yields_update]
  exact ⟨rfl, h⟩

theorem driveRun_drove (h₀ : Idle σ₀ (walker m w)) (hz : σ₀.executed = 0) :
    (driveRun d run config).Yields Answered (Driving d run config σ₀) m w
      fun _ => Driving d run config σ₀ := by
  unfold driveRun
  split
  · exact failOutright_drove _ (.waited h₀.waited)
  refine Proc.Yields.bind (countRunEvents_waited h₀) fun (n : Nat) m w h => ?_
  obtain ⟨h, hn⟩ := h
  have hn : Counted σ₀ n (walker m w) := hn
  rw [Proc.yields_bind, Proc.yields_update]
  refine Proc.Yields.bind (startedAt_waited (n := n) h hn) fun startedAt m w h => ?_
  obtain ⟨⟨h, hn⟩, ht⟩ := h
  refine Proc.Yields.bind (markRunning_marked h hn ht) fun live m w h => ?_
  split
  · exact Drove.waited h.1
  next hlive =>
  obtain ⟨h, hn⟩ := h.2 (by simpa using hlive)
  have hF : Stable (Driving d run config σ₀) fun m w =>
      Marked run σ₀ startedAt σ₀.executed (walker m w) ∧ Counted σ₀ n (walker m w) :=
    driving_of_waited (F := fun σ => Marked run σ₀ startedAt σ₀.executed σ ∧ Counted σ₀ n σ)
      (fun h hi => ⟨h.1.idle hi, h.2.idle hi⟩) fun _ h => h.1.waited
  refine Proc.Yields.bind (publishRunStatus_yields hF ⟨h, hn⟩ _ _) fun _ m w h => ?_
  have hempty : n = 0 → σ₀.begun = false := h.2.1
  refine Proc.Yields.bind (emitStarted_begun h.1 h.2) fun _ m w h => ?_
  have hsnapshot : (await .snapshot).Yields Answered (Driving d run config σ₀) m w
      fun _ m w => Begun run σ₀ startedAt σ₀.executed (walker m w) := by
    refine yields_await_quiet begun_stable ?_ h
    intro m w r w' h heff
    cases heff
    exact h
  refine Proc.Yields.bind hsnapshot fun state m w h => ?_
  rw [Proc.yields_bind, Proc.yields_update]
  have hprior : (if n = 0 then pure none else seedFromLedger).Yields Answered
      (Driving d run config σ₀) { m with state := state } w fun prior m w => ∃ executed,
        Begun run σ₀ startedAt executed (walker m w) ∧
          ((σ₀.begun = false ∧ prior = none ∧ executed = 0) ∨
            (prior = some σ₀.trail.steps.paths ∧
              executed = (σ₀.trail.steps.filter fun r => r.status.seeded).length)) := by
    split
    · next hzero => exact ⟨_, h, Or.inl ⟨hempty hzero, rfl, hz⟩⟩
    · refine (seedFromLedger_begun (m := { m with state := state }) h).mono ?_
      intro prior m w h
      exact ⟨_, h.2, Or.inr ⟨h.1, rfl⟩⟩
  refine Proc.Yields.bind hprior fun prior m w h => ?_
  obtain ⟨executed, h, hseed⟩ := h
  refine walked_drove ⟨rfl, h.waited.trail, h.waited.clock, h.begun, h.succeeded,
    ⟨startedAt, rfl, h.started⟩, ?_⟩
  rw [h.executed]
  exact hseed

theorem failDrive_drove (error : DriverError) (h : Driving d run config σ₀ m w) :
    (failDrive d config error).Yields Answered (Driving d run config σ₀) m w
      fun _ => Driving d run config σ₀ := by
  unfold failDrive
  rw [Proc.yields_bind, Proc.yields_read]
  split
  · exact h
  · refine Proc.Yields.bind (Proc.Yields.attempt ?_ fun _ _ _ h => h) fun _ _ _ h => h
    refine Proc.Yields.bind (markRun_yields driving_stable h _ _ (by rintro ⟨⟩)) fun _ m w h => ?_
    refine Proc.Yields.bind (publishRunStatus_yields driving_stable h _ _) fun _ m w h => ?_
    exact deliverOnComplete_drove _ _ h

theorem drive_drove (w : World) :
    (drive d run config).Sat Answered
      (fun m' w' => Drove d run config (walker DriveMemory.fresh w) (walker m' w'))
      DriveMemory.fresh w
      fun _ m' w' => Drove d run config (walker DriveMemory.fresh w) (walker m' w') := by
  generalize hσ : walker DriveMemory.fresh w = σ₀
  have hrun : (driveRun d run config).Yields Answered (Driving d run config σ₀) DriveMemory.fresh w
      fun _ => Driving d run config σ₀ := by
    refine driveRun_drove ?_ ?_
    · rw [hσ]
      exact Idle.refl σ₀
    · rw [← hσ]
      rfl
  unfold drive
  refine Proc.Sat.handle hrun (fun _ _ _ h => h) fun error m w h => ?_
  have h : Driving d run config σ₀ m w := h
  refine Proc.Sat.mono (failDrive_drove error h) ?_
  rintro (e | _) m w h
  · exact h
  · exact h

end

/-! ## Histories -/

/-- The outside of the next driver. -/
def World.next (w : World) : World := { w with incarnation := w.incarnation + 1 }

/-- What can have become of a run.  `D` says which drivers may be started: under which
settings, and with which row of the run (it may have been read before the last driver). -/
inductive History (config : WorkflowConfig) (D : Deps → RunRow → World → Prop) : World → Prop
  | created {run state clock} (hs : run.startedAt = none) (hq : run.status = .queued) :
      History config D (World.fresh run state clock)
  | outside {m w m' w'} (h : History config D w) (he : Env (m, w) (m', w')) : History config D w'
  | drive {d run w t w'} (h : History config D w) (hd : D d run w)
      (hr : (drive d run config DriveMemory.fresh).Reaches Answered w.next t w') :
      History config D w'

/-- The two differ in what a driver knows, and by what other parties did. -/
structure Alike (σ σ' : Walker) : Prop where
  trail : σ'.trail = σ.trail
  clock : σ.clock ≤ σ'.clock
  startedAt : σ'.startedAt = σ.startedAt
  succeeded : σ'.succeeded = σ.succeeded
  begun : σ.begun = true → σ'.begun = true

theorem Idle.alike {σ σ' : Walker} (h : Idle σ σ') : Alike σ σ' :=
  ⟨h.trail, h.clock, h.startedAt, h.succeeded, h.begun⟩

/-- Between drivers. -/
def World.walker (w : World) : Walker := Pipeline.walker DriveMemory.fresh w

theorem alike_walker (m : DriveMemory) (w : World) : Alike (walker m w) w.walker :=
  ⟨rfl, Nat.le_refl _, rfl, rfl, id⟩

theorem walker_alike (m : DriveMemory) (w : World) : Alike w.walker (walker m w) :=
  ⟨rfl, Nat.le_refl _, rfl, rfl, id⟩

theorem Alike.trans {σ σ' σ'' : Walker} (h : Alike σ σ') (h' : Alike σ' σ'') : Alike σ σ'' :=
  ⟨h'.trail.trans h.trail, h.clock.trans h'.clock, h'.startedAt.trans h.startedAt,
    h'.succeeded.trans h.succeeded, h'.begun ∘ h.begun⟩

/-- What holds of a new run and is kept by every driver holds of every history. -/
theorem History.rule {config : WorkflowConfig} {D : Deps → RunRow → World → Prop}
    {I : Walker → Prop} {w : World} (h : History config D w)
    (hnew : ∀ run state clock, run.startedAt = none → run.status = .queued →
      I (World.fresh run state clock).walker)
    (halike : ∀ {σ σ'}, I σ → Alike σ σ' → I σ')
    (hdrive : ∀ {d run w σ}, D d run w → I w.walker →
      Drove d run config w.next.walker σ → I σ) : I w.walker := by
  induction h with
  | created hs hq => exact hnew _ _ _ hs hq
  | outside _ he ih =>
    exact halike ih ((walker_alike _ _).trans ((idle_of_env he).alike.trans (alike_walker _ _)))
  | drive _ hd hr ih =>
    exact halike (hdrive hd ih ((drive_drove _).mem_of_reaches hr)) (alike_walker _ _)

/-! ## A quiet outside -/

/-- An outside in which no other party acts and no statement fails.  A reading of the clock
takes `tick`, and `outcome` is what the executors make of a call. -/
def quietly (tick : Nat) (outcome : Invocation → StepOutcome) :
    (op : DriverOp) → World → Option (Except DriverError (driverSignature.Ret op) × World)
  | .now, w => some (.ok (w.clock + tick), { w with clock := w.clock + tick })
  | .countRunEvents, w => some (.ok w.events.length, w)
  | .listEvents, w => some (.ok w.events, w)
  | .appendEvent seq event, w =>
    if seq ∈ w.events.map StoredEvent.seq then none else some (.ok (), w.append seq event)
  | .markRun patch, w => some (.ok (!w.run.status.terminal), w.markRun patch)
  | .getRunStatus _, w => some (.ok none, w)
  | .claim i, w => some (.ok (w.toTrail.claimed i), w.onTrail (·.claim i))
  | .markRunning path attempt, w => some (.ok (), w.onTrail (·.markRunning path attempt))
  | .markWaiting path child, w => some (.ok (), w.onTrail (·.markWaiting path child))
  | .finish path patch, w => some (.ok (), w.onTrail (·.finish path patch))
  | .listForRun, w => some (.ok w.steps, w)
  | .snapshot, w => some (.ok w.state, w)
  | .setState entries, w =>
    (writeState w.state entries).map fun state => (.ok (), { w with state := state })
  | .invoke call, w => some (.ok (), w.onTrail (·.record (.invoked call)))
  | .outcome call, w =>
    match outcome call with
    | .waiting _ => none
    | settled => some (.ok (.settled settled), w)
  | .pause, w => some (.ok (), w)
  | .note deed, w => some (.ok (), w.onTrail (·.record deed))
  | .announce a, w => some (.ok (), w.announce a)
  | .hang, _ => none

theorem quietly_answered {tick : Nat} {outcome : Invocation → StepOutcome} (op : DriverOp)
    (m : DriveMemory) (w : World) (r : Except DriverError (driverSignature.Ret op)) (w' : World)
    (h : quietly tick outcome op w = some (r, w')) : Answered op m w r m w' := by
  have hok : ∀ {op : DriverOp} {r : driverSignature.Ret op} {w w' : World}, Effect op w r w' →
      Answered op m w (.ok r) m w' := fun he => .ok .refl he .refl
  cases op with
  | now =>
    cases h
    exact .ok (.single (.clock m w _ (Nat.le_add_right _ _))) (.now _) .refl
  | appendEvent seq event =>
    simp only [quietly] at h
    split at h
    · cases h
    · next hs =>
      cases h
      exact hok (.appendEvent w seq event hs)
  | setState entries =>
    simp only [quietly, Option.map_eq_some_iff] at h
    obtain ⟨state, hw, h⟩ := h
    cases h
    exact hok (.setState w entries state hw)
  | outcome call =>
    simp only [quietly] at h
    split at h
    · cases h
    · next hs =>
      cases h
      refine hok (.outcome w call _ fun child hr => ?_)
      injection hr with hr
      exact absurd hr (hs child)
  | hang => cases h
  | countRunEvents | listEvents | markRun | getRunStatus | claim | markRunning | markWaiting
  | finish | listForRun | snapshot | invoke | pause | note | announce =>
    cases h
    exact hok (by constructor)

/-- The outside after `n` statements of a driver that nobody disturbs. -/
def afterDriver (d : Deps) (run : RunRow) (config : WorkflowConfig) (tick : Nat)
    (outcome : Invocation → StepOutcome) (n : Nat) (w : World) : Option World :=
  ((drive d run config DriveMemory.fresh).advance (quietly tick outcome) n w.next).map Prod.snd

theorem History.afterDriver {config : WorkflowConfig} {D : Deps → RunRow → World → Prop}
    {d : Deps} {run : RunRow} {w w' : World} (h : History config D w) (hd : D d run w)
    {tick : Nat} {outcome : Invocation → StepOutcome} {n : Nat}
    (hw : Pipeline.afterDriver d run config tick outcome n w = some w') : History config D w' := by
  obtain ⟨⟨t, w''⟩, ha, rfl⟩ := Option.map_eq_some_iff.mp hw
  exact .drive h hd (Thread.advance_reaches quietly_answered ha)

/-- Surfaces that take every text for what it is; every path leads to two items. -/
def plainSurfaces : Surfaces where
  renderTemplateRecord record _ := record
  renderMarkdownTemplate text _ := text
  evaluateCondition _ _ := .ok true
  resolveScopePath _ _ := some (.arr [.null, .null])
  serializedByteLength _ := some 0

def plainDeps : Deps where
  surfaces := plainSurfaces
  executors _ := true
  config := ⟨1000, 10, 1000⟩
  rounds := 3

def queuedRun : RunRow where
  id := ascii "run"
  organizationId := some (ascii "org")
  workflowId := some (ascii "workflow")
  status := .queued
  error := none
  startedAt := none
  triggerData := []
  deliveryPending := false

/-- A new run whose first driver is cut off after `n` statements and whose second is not,
where every executor call succeeds. -/
def afterCrash (d : Deps) (config : WorkflowConfig) (n : Nat) : Option World :=
  (afterDriver d queuedRun config 1 (fun _ => .succeeded []) n (World.fresh queuedRun [] 0)).bind
    fun w => afterDriver d w.run config 1 (fun _ => .succeeded []) 100 w

theorem afterCrash_history {d : Deps} {config : WorkflowConfig} {n : Nat} {w : World}
    (h : afterCrash d config n = some w) : History config (fun _ _ _ => True) w := by
  obtain ⟨w₁, h₁, h₂⟩ := Option.bind_eq_some_iff.mp h
  have hnew : History config (fun _ _ _ => True) (World.fresh queuedRun [] 0) := .created rfl rfl
  exact (hnew.afterDriver trivial h₁).afterDriver trivial h₂

end InvisibleString.Pipeline
