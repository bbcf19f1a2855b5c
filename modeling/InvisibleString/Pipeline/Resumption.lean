import InvisibleString.Pipeline.Instances

/- # `Pipeline.Resumption` — what a resumed driver repeats, and what it does not

Whatever drivers a run has had, one after the other and each cut off anywhere, its trail is
`Sound`.  Two consequences are read off here: what becomes of a tool step that must not be
repeated, and what a loop works on.

**Proved here.**

    the trail of every history is sound  (`History.sound`)
    a call that may have happened is not made again  (`interrupted_not_repeated`)
    a loop works on the items its row records, in order  (`loop_snapshot`)
-/

namespace InvisibleString.Pipeline

open EventLoop Json Relation
open Tailer (RunStatus)

/-! ## Histories are sound -/

theorem Sound.next {config : WorkflowConfig} {t : Trail} (h : Sound config t) (k : Nat) :
    Sound config { t with incarnation := k } :=
  ⟨h.row, h.nodup, h.claimed, h.claimed_row, h.claimed_once, h.invoked, h.finished, h.settled,
    h.items, h.loops⟩

/-- A sound trail none of whose deeds is to come. -/
def SoundPast (config : WorkflowConfig) (t : Trail) : Prop :=
  Sound config t ∧ ∀ e ∈ t.log, e.1 ≤ t.incarnation

theorem SoundPast.within {config : WorkflowConfig} {t t' : Trail} {A : JsString → Prop}
    (h : SoundPast config t) (hs : Sound config t') (hw : Within A t t') :
    SoundPast config t' := by
  obtain ⟨l, hl, hA⟩ := hw.log
  refine ⟨hs, fun e he => ?_⟩
  rw [hw.incarnation]
  rw [hl] at he
  rcases List.mem_append.mp he with he | he
  · exact h.2 e he
  · exact Nat.le_of_eq (hA e he).1

theorem Drove.soundPast {d : Deps} {run : RunRow} {config : WorkflowConfig} {w : World}
    {σ : Walker} (h : Drove d run config w.next.walker σ) (h₀ : SoundPast config w.toTrail) :
    SoundPast config σ.trail := by
  have hnext : SoundPast config w.next.toTrail :=
    ⟨h₀.1.next _, fun e he => Nat.le_succ_of_le (h₀.2 e he)⟩
  have hwalk : ∀ {c σ₁ o σ₂}, Launch d run w.next.walker c σ₁ →
      Walks c (.seq config.steps none) σ₁ o σ₂ → SoundPast config σ₂.trail := by
    intro c σ₁ o σ₂ hl hw
    have htrail : σ₁.trail = w.next.toTrail := hl.trail
    have hready : Job.Ready σ₁.trail (.seq config.steps none) := by
      rw [htrail]
      intro e he hk
      exact absurd (h₀.2 e he) (by rw [hk]; exact Nat.not_succ_le_self _)
    have hs₁ : SoundPast config σ₁.trail := htrail ▸ hnext
    obtain ⟨hs, hwithin⟩ := hw.sound (List.Sublist.refl _) hready hs₁.1
    exact hs₁.within hs hwithin
  cases h with
  | waited h =>
    rw [h.trail]
    exact hnext
  | walking hl hw => exact hwalk hl hw
  | settled hl hw _ hi =>
    have hs := hwalk hl hw
    rw [hi.trail]
    exact hs

theorem History.soundPast {config : WorkflowConfig} {D : Deps → RunRow → World → Prop} {w : World}
    (h : History config D w) : SoundPast config w.toTrail := by
  refine h.rule (I := fun σ => SoundPast config σ.trail) ?_ ?_ ?_
  · intro run state clock _ _
    exact ⟨Sound.fresh 0, fun _ he => absurd he List.not_mem_nil⟩
  · intro σ σ' h ha
    rw [ha.trail]
    exact h
  · intro d run w σ _ h₀ h
    exact h.soundPast h₀

theorem History.sound {config : WorkflowConfig} {D : Deps → RunRow → World → Prop} {w : World}
    (h : History config D w) : Sound config w.toTrail :=
  h.soundPast.1

/-! ## Calls that must not be repeated -/

/-- No executor was called between the two trails. -/
def Uncalled (t t' : Trail) : Prop :=
  ∀ e ∈ t'.log, e ∉ t.log → ∀ call, e.2 ≠ .invoked call

theorem Uncalled.refl (t : Trail) : Uncalled t t := fun _ he hn => absurd he hn

theorem Uncalled.record {t t' : Trail} {deed : Deed} (h : Uncalled t t')
    (hd : ∀ call, deed ≠ .invoked call) : Uncalled t (t'.record deed) := by
  intro e he hn
  rcases List.mem_append.mp he with he | he
  · exact h e he hn
  · rw [List.mem_singleton.mp he]
    exact hd

section

variable {config : WorkflowConfig} {d : DriveCtx} {step : LeafStep}

/-- What the work on an instance comes to whose call may have happened. -/
theorem Own.not_repeated {i : ClaimStepInput} {σ₀ σ : Walker} {phase : Phase}
    (h : Own d (.leaf step) i σ₀ phase σ) (hint : Interrupted (.leaf step) σ₀.trail i.path)
    (hopen : ∀ row, σ₀.trail.steps.row? i.path = some row → row.status.terminal = false) :
    Uncalled σ₀.trail σ.trail ∧ (phase = .ready ∨ phase = .taken ∨ phase = .closed .failed) ∧
      ∃ row, σ.trail.steps.row? i.path = some row ∧
        (phase = .closed .failed → row.status = .failed) := by
  induction h with
  | start =>
    obtain ⟨_, row, _, _, hr, _⟩ := hint
    exact ⟨Uncalled.refl _, Or.inl rfl, row, hr, by rintro ⟨⟩⟩
  | idle _ hi ih =>
    rw [hi.trail]
    exact ih
  | claimed h hn =>
    obtain ⟨_, row, _, _, hr, _⟩ := hint
    rw [(h.idle_of_ready rfl).trail, ← Ledger.row?_eq_none, hr] at hn
    cases hn
  | found _ hr _ ih => exact ⟨ih.1, Or.inr (Or.inl rfl), _, hr, by rintro ⟨⟩⟩
  | @adopted σ row fate h hr hf =>
    rw [(h.idle_of_ready rfl).trail] at hr
    have hnone : adoptedFate (.leaf step) row = none :=
      RunStepStatus.fate?_eq_none.mpr (hopen row hr)
    rw [hnone] at hf
    cases hf
  | resumed _ attempt ih =>
    obtain ⟨hu, -, row, hr, -⟩ := ih
    exact ⟨hu, Or.inr (Or.inl rfl), _, Trail.row?_markRunning hr attempt, by rintro ⟨⟩⟩
  | interrupted _ _ ih =>
    obtain ⟨hu, -, row, hr, -⟩ := ih
    exact ⟨Uncalled.record hu (by rintro call ⟨⟩), Or.inr (Or.inr rfl), _,
      Trail.row?_finish hr _, fun _ => rfl⟩
  | counted _ hn => exact absurd hint hn
  | charged h => exact absurd hint (h.not_interrupted (Or.inl rfl))
  | invoked h => exact absurd hint (h.not_interrupted (Or.inr (Or.inl rfl)))
  | linked h | parked h | rerun h | late h | finished h | left h =>
    exact absurd hint (h.not_interrupted (Or.inr (Or.inl rfl)))
  | lateFailed h => exact absurd hint (h.not_interrupted (Or.inr (Or.inr rfl)))

theorem Walks.not_repeated {parent : Option StepParentFrame} {σ₀ σ : Walker} {o : Option Fate}
    (h : Walks d (.step (.leaf step) parent) σ₀ o σ)
    (hint : Interrupted (.leaf step) σ₀.trail (stepInstancePath parent step.base.id))
    (hopen : ∀ row, σ₀.trail.steps.row? (stepInstancePath parent step.base.id) = some row →
      row.status.terminal = false) :
    Uncalled σ₀.trail σ.trail ∧ ∀ fate, o = some fate → fate = .failed ∧
      ∃ row, σ.trail.steps.row? (stepInstancePath parent step.base.id) = some row ∧
        row.status = .failed := by
  generalize hjob : Job.step (.leaf step) parent = job at h
  induction h with
  | cut => exact ⟨Uncalled.refl _, by rintro fate ⟨⟩⟩
  | unseen _ ih => exact ⟨(ih hint hopen hjob).1, by rintro fate ⟨⟩⟩
  | before hi _ ih =>
    rw [← hi.trail] at hint hopen ⊢
    exact ih hint hopen hjob
  | after _ hi ih =>
    rw [hi.trail]
    exact ih hint hopen hjob
  | working hi h =>
    obtain ⟨rfl, rfl⟩ := Job.step.inj hjob
    rw [← show _ = stepInstancePath parent step.base.id from hi.path] at hint hopen
    exact ⟨(h.not_repeated hint hopen).1, by rintro fate ⟨⟩⟩
  | @worked s parent i fate σ σ' hi h _ =>
    obtain ⟨rfl, rfl⟩ := Job.step.inj hjob
    have hpath : i.path = stepInstancePath parent step.base.id := hi.path
    rw [← hpath] at hint hopen ⊢
    obtain ⟨hu, hph, row, hr, hf⟩ := h.not_repeated hint hopen
    have hfate : fate = .failed := by
      rcases hph with hph | hph | hph
      · cases hph
      · cases hph
      · exact Phase.closed.inj hph
    refine ⟨hu, ?_⟩
    rintro fate' ⟨⟩
    exact ⟨hfate, row, hr, hf (by rw [hfate])⟩
  | lane => cases (Job.step.inj hjob).1
  | loop => cases (Job.step.inj hjob).1
  | _ => cases hjob

end

theorem Sound.interrupted {config : WorkflowConfig} {t : Trail} {step : LeafStep}
    {parent : Option StepParentFrame} {row : RunStepRow} (h : Sound config t)
    (hs : PipelineStep.leaf step ∈ walkSteps config.steps) (ha : step.atMostOnce = true)
    (hr : t.steps.row? (stepInstancePath parent step.base.id) = some row) :
    Interrupted (.leaf step) t (stepInstancePath parent step.base.id) := by
  refine ⟨step, row, rfl, ha, hr, fun hw => ?_⟩
  have hid := separator_not_mem_of_isStepId (config.ids_form _ hs)
  have hseg : lastSegment (stepInstancePath parent step.base.id) = (PipelineStep.leaf step).id :=
    lastSegment_stepInstancePath hid
  have hof := h.rowOf hs hseg hr
  have hk : (PipelineStep.leaf step).kind = .agent := hof.kind.symm.trans (hof.parked hw)
  cases step with
  | tool step => cases hk
  | infer step => cases hk
  | agent step => cases ha

/-- In every history: the executor of an instance that must not be repeated is called only by
the driver that claimed the instance, and a driver that finds such an instance open ends it as
failed without a call.  Every executor call, of any driver and at any attempt, gets the input
that the claim recorded. -/
theorem interrupted_not_repeated {config : WorkflowConfig} {D : Deps → RunRow → World → Prop}
    {w : World} (h : History config D w) :
    (∀ k call, (k, .invoked call) ∈ w.log → call.step.atMostOnce = true →
      (k, .claimed call.path (some call.input)) ∈ w.log) ∧
    (∀ k k' path x x', (k, .claimed path x) ∈ w.log → (k', .claimed path x') ∈ w.log →
      k = k' ∧ x = x') ∧
    (∀ k call, (k, .invoked call) ∈ w.log →
      (∃ k₀, (k₀, .claimed call.path (some call.input)) ∈ w.log) ∧
      ∃ row, w.steps.row? call.path = some row ∧ row.input = some call.input) ∧
    ∀ d step parent row, PipelineStep.leaf step ∈ walkSteps config.steps →
      step.atMostOnce = true →
      w.steps.row? (stepInstancePath parent step.base.id) = some row →
      row.status.terminal = false → ∀ scope m,
      (executeLeaf d step (stepInstancePath parent step.base.id) parent scope).Yields Answered
        (fun _ w' => Uncalled w.toTrail w'.toTrail) m w fun r _ w' =>
          Uncalled w.toTrail w'.toTrail ∧ r.1.fate = .failed ∧
            ∃ row, w'.steps.row? (stepInstancePath parent step.base.id) = some row ∧
              row.status = .failed := by
  have hs := h.sound
  refine ⟨?_, ?_, ?_, ?_⟩
  · intro k call hc ha
    obtain ⟨k₀, hk₀, hsame⟩ := hs.invoked k call hc
    exact hsame ha ▸ hk₀
  · intro k k' path x x' hx hx'
    obtain ⟨row, hr, hi⟩ := hs.claimed_row k path x hx
    obtain ⟨row', hr', hi'⟩ := hs.claimed_row k' path x' hx'
    rw [hr, Option.some.injEq] at hr'
    exact ⟨hs.claimed_once k k' path x x' hx hx', by rw [← hi, ← hi', hr']⟩
  · intro k call hc
    obtain ⟨k₀, hk₀, -⟩ := hs.invoked k call hc
    exact ⟨⟨k₀, hk₀⟩, hs.claimed_row k₀ _ _ hk₀⟩
  · intro d step parent row hstep ha hr hopen scope m
    have hint := hs.interrupted hstep ha hr
    have hrow : ∀ row', (walker m w).trail.steps.row? (stepInstancePath parent step.base.id) =
        some row' → row'.status.terminal = false := by
      intro row' hr'
      have hr' : w.steps.row? (stepInstancePath parent step.base.id) = some row' := hr'
      rw [hr, Option.some.injEq] at hr'
      exact hr' ▸ hopen
    refine ((executeLeaf_walks step parent scope).weaken fun m' w' hw => ?_).mono
      fun r m' w' hw => ?_
    · exact (hw.not_repeated hint hrow).1
    · obtain ⟨hu, hf⟩ := hw.not_repeated hint hrow
      exact ⟨hu, hf _ rfl⟩

def chargeStep : LeafStep :=
  .tool ⟨⟨ascii "st_aaaaaaaaaaaaaaaa", ascii "charge"⟩, [], none, none, .atMostOnce⟩

def chargeConfig : WorkflowConfig where
  steps := [.leaf chargeStep]
  slackReply := none
  overlap := .allow
  ids_form := by decide
  ids_nodup := by decide
  slugs_nodup := by decide
  loops_flat := by
    intro head body h
    simp [walkSteps, PipelineStep.walk] at h

/-- The first driver is cut off while the call is under way. -/
theorem interrupted_not_repeated_crash : ∃ w, afterCrash plainDeps chargeConfig 15 = some w ∧
    w.log.length = 4 ∧ (∀ k call, (k, .invoked call) ∈ w.log → call.step.atMostOnce = true →
      (k, .claimed call.path (some call.input)) ∈ w.log) ∧
    ∀ k call, (k, .invoked call) ∈ w.log →
      ∃ row, w.steps.row? call.path = some row ∧ row.input = some call.input := by
  have hlen : (afterCrash plainDeps chargeConfig 15).map (fun w => w.log.length) = some 4 := by
    decide +kernel
  obtain ⟨w, hw, hlen⟩ := Option.map_eq_some_iff.mp hlen
  have h := interrupted_not_repeated (afterCrash_history hw)
  exact ⟨w, hw, hlen, h.1, fun k call hc => (h.2.2.1 k call hc).2⟩

/-- In every history the ledger has one row for each instance, that of a step of the config; an
instance that some driver finished has a terminal row from then on, and no driver claims it,
charges it, calls its executor, starts one of its items or finishes it again. -/
theorem instances_settle_once {config : WorkflowConfig} {D : Deps → RunRow → World → Prop}
    {w : World} (h : History config D w) :
    w.steps.paths.Nodup ∧
    (∀ row ∈ w.steps, ∃ s ∈ walkSteps config.steps,
      row.stepId = s.id ∧ row.kind = s.kind ∧ lastSegment row.path = s.id) ∧
    (∀ k path, (k, .finished path) ∈ w.log →
      ∃ row, w.steps.row? path = some row ∧ row.status.terminal = true) ∧
    w.log.Pairwise fun before after => ∀ path, before.2 = .finished path → after.2.path = path →
      ∃ limit, after.2 = .halted path limit := by
  have hs := h.sound
  refine ⟨hs.nodup, ?_, hs.finished, ?_⟩
  · intro row hrow
    obtain ⟨s, hmem, hof⟩ := hs.row row hrow
    exact ⟨s, hmem, hof.stepId, hof.kind, hof.segment⟩
  · refine hs.settled.imp fun {before after} hsettled path hfinished hpath => ?_
    have hworks := hsettled path hfinished hpath
    rcases after with ⟨k, deed⟩
    cases deed with
    | halted path' limit =>
      cases hpath
      exact ⟨limit, rfl⟩
    | claimed | executed | invoked | item | finished => cases hworks

/-- The second driver finishes what the first one left open, and that is all. -/
theorem instances_settle_once_crash : ∃ w, afterCrash plainDeps chargeConfig 15 = some w ∧
    w.log.length = 4 ∧ w.steps.paths.Nodup ∧
    w.log.Pairwise fun before after => ∀ path, before.2 = .finished path → after.2.path = path →
      ∃ limit, after.2 = .halted path limit := by
  have hlen : (afterCrash plainDeps chargeConfig 15).map (fun w => w.log.length) = some 4 := by
    decide +kernel
  obtain ⟨w, hw, hlen⟩ := Option.map_eq_some_iff.mp hlen
  have h := instances_settle_once (afterCrash_history hw)
  exact ⟨w, hw, hlen, h.1, h.2.2.2⟩

/-! ## Loops -/

theorem countStatus_sum (records : List ItemRecord) :
    countStatus records .succeeded + countStatus records .failed + countStatus records .skipped =
      records.length := by
  induction records with
  | nil => rfl
  | cons r records ih =>
    have hcons : ∀ status, countStatus (r :: records) status =
        countStatus records status + if r.status = status then 1 else 0 := by
      intro status
      rw [countStatus, countStatus, List.filter_cons]
      by_cases hs : r.status = status
      · rw [if_pos (decide_eq_true hs), if_pos hs, List.length_cons]
      · rw [if_neg (by simpa using hs), if_neg hs, Nat.add_zero]
    rw [hcons, hcons, hcons, List.length_cons, ← ih]
    cases r.status with
    | succeeded => simp only [if_pos, reduceCtorEq, if_false]; omega
    | failed => simp only [if_pos, reduceCtorEq, if_false]; omega
    | skipped => simp only [if_pos, reduceCtorEq, if_false]; omega

/-- A loop runs its body on its items, each at its index and in the loop's own scope: what the
body is elsewhere makes no difference. -/
theorem runItems_congr {head : ForEachStep} {body body' : SequenceRunner} {path : JsString}
    {attempt : Nat} {scope : StepScope} (items : List JsonValue) (index : Nat)
    (records : List ItemRecord)
    (h : ∀ j item, items[j]? = some item →
      body { scope with item := some item } ⟨path, some (index + j)⟩ =
        body' { scope with item := some item } ⟨path, some (index + j)⟩) :
    runItems head body path attempt scope items index records =
      runItems head body' path attempt scope items index records := by
  induction items generalizing index records with
  | nil => rfl
  | cons item items ih =>
    have hhere : body { scope with item := some item } ⟨path, some index⟩ =
        body' { scope with item := some item } ⟨path, some index⟩ := h 0 item rfl
    have hrest : ∀ records, runItems head body path attempt scope items (index + 1) records =
        runItems head body' path attempt scope items (index + 1) records := by
      intro records
      refine ih (index + 1) records fun j item' hj => ?_
      rw [Nat.add_assoc, Nat.add_comm 1 j]
      exact h (j + 1) item' hj
    unfold runItems
    rw [hhere]
    simp only [hrest]

/-- `steps'` is `steps`, but for what `step` itself may have added under its slug. -/
def OwnKeyOnly (step : StepInfo) (steps steps' : ScopeSteps) : Prop :=
  steps' = steps ∨ step.base.slug ≠ [] ∧ ∃ output, steps' = OrderedMap.set step.base.slug output steps

theorem ownKeyOnly_extendScope (steps : ScopeSteps) (step : StepInfo) (output : JsonRecord) :
    OwnKeyOnly step steps (extendScope steps step output) := by
  unfold extendScope
  split
  · exact Or.inl rfl
  · next h => exact Or.inr ⟨h, output, rfl⟩

section

variable {m : DriveMemory} {w : World} {step : StepInfo} {path : JsString} {steps : ScopeSteps}

theorem finishSucceeded_ownKey (output : JsonRecord) :
    (finishSucceeded step path steps output).Yields Answered (fun _ _ => True) m w
      fun r _ _ => OwnKeyOnly step steps r := by
  unfold finishSucceeded
  refine Proc.Yields.bind (Proc.yields_true _ m w) fun _ m w _ => ?_
  refine Proc.Yields.bind (Proc.yields_true _ m w) fun _ m w _ => ?_
  exact ownKeyOnly_extendScope _ _ _

theorem adoptTerminal_ownKey (row : RunStepRow) :
    (adoptTerminal row step path steps).Yields Answered (fun _ _ => True) m w
      fun r _ _ => ∀ result, r = some result → OwnKeyOnly step steps result.2 := by
  have hback : ∀ (result : Walked StepResult), OwnKeyOnly step steps result.2 →
      (do
        backfillTerminalStepEvent row step path
        return some result : DriverProc (Option (Walked StepResult))).Yields Answered
        (fun _ _ => True) m w fun r _ _ => ∀ result, r = some result →
          OwnKeyOnly step steps result.2 := by
    intro result h
    refine Proc.Yields.bind (Proc.yields_true _ m w) fun _ m w _ => ?_
    rintro _ ⟨⟩
    exact h
  unfold adoptTerminal
  cases row.status with
  | succeeded => exact hback _ (ownKeyOnly_extendScope _ _ _)
  | skipped => exact hback _ (Or.inl rfl)
  | failed => exact hback _ (Or.inl rfl)
  | canceled =>
    rintro _ ⟨⟩
    exact Or.inl rfl
  | pending | running | waiting => rintro _ ⟨⟩

/-- What a loop leaves in the scope. -/
theorem executeForEach_ownKey (d : DriveCtx) (head : ForEachStep) (body : SequenceRunner)
    (parent : Option StepParentFrame) (scope : StepScope) :
    (executeForEach d head body path parent scope).Yields Answered (fun _ _ => True) m w
      fun r _ _ => OwnKeyOnly (PipelineStep.forEach head []).info scope.steps r.2 := by
  unfold executeForEach
  rw [Proc.yields_bind, Proc.yields_read]
  refine Proc.Yields.bind (Proc.yields_true _ m w) fun c m w _ => ?_
  have hadopt : (if c.1 then pure none else
      adoptTerminal c.2 (PipelineStep.forEach head []).info path scope.steps).Yields Answered
      (fun _ _ => True) m w fun r _ _ => ∀ result, r = some result →
        OwnKeyOnly (PipelineStep.forEach head []).info scope.steps result.2 := by
    split
    · rintro _ ⟨⟩
    · exact adoptTerminal_ownKey c.2
  refine Proc.Yields.bind hadopt fun r m w h => ?_
  cases r with
  | some result => exact h result rfl
  | none =>
    refine Proc.Yields.bind (Proc.yields_true _ m w) fun _ m w _ => ?_
    refine Proc.Yields.bind (Proc.yields_true _ m w) fun _ m w _ => ?_
    refine Proc.Yields.bind (Proc.yields_true _ m w) fun _ m w _ => ?_
    split
    · refine Proc.Yields.bind (Proc.yields_true _ m w) fun _ m w _ => ?_
      exact Or.inl rfl
    · refine Proc.Yields.bind (Proc.yields_true _ m w) fun looped m w _ => ?_
      cases looped with
      | error result => exact Or.inl rfl
      | ok records =>
        refine Proc.Yields.bind (finishSucceeded_ownKey _) fun steps m w h => ?_
        exact h

end

/-- The loop's row records what its items expression resolved to at the claim. -/
theorem Sound.loop_row {config : WorkflowConfig} {t : Trail} {row : RunStepRow}
    (h : Sound config t) (hrow : row ∈ t.steps) (hk : row.kind = .forEach)
    (hs : row.status ≠ .skipped) : ∃ head body resolved k,
      PipelineStep.forEach head body ∈ walkSteps config.steps ∧
      row.input = some ((resolveItems head resolved).input head) ∧
      (k, .claimed row.path row.input) ∈ t.log := by
  obtain ⟨s, hs', hof⟩ := h.row row hrow
  obtain ⟨k, hk'⟩ := h.claimed row hrow
  have hkind : s.kind = .forEach := hof.kind.symm.trans hk
  cases s with
  | forEach head body =>
    obtain ⟨resolved, hi⟩ := hof.resolution head body rfl hs
    exact ⟨head, body, resolved, k, hs', hi, hk'⟩
  | leaf step => cases step <;> cases hkind
  | branch | filter | state => cases hkind

/-- In every history: a loop's row records the resolution of the first claim; the items that
any driver starts are those it records, in order from the first on, in one scope; a loop that
is done went through all of them and its counts add up; what was finished is not worked on
again.  And at the loop itself: its body is run on nothing else, and only the loop's own
output reaches the steps behind it. -/
theorem loop_snapshot {config : WorkflowConfig} {D : Deps → RunRow → World → Prop} {w : World}
    (h : History config D w) :
    (∀ row ∈ w.steps, row.kind = .forEach → row.status ≠ .skipped → ∃ head body resolved k,
      PipelineStep.forEach head body ∈ walkSteps config.steps ∧
      row.input = some ((resolveItems head resolved).input head) ∧
      (k, .claimed row.path row.input) ∈ w.log) ∧
    (∀ k path, itemDeeds k path w.log ≠ [] → ∃ row items steps,
      w.steps.row? path = some row ∧ claimedItems row = some items ∧
        itemDeeds k path w.log <+: loopItems items steps) ∧
    (∀ row ∈ w.steps, row.kind = .forEach → row.status = .succeeded →
      ∃ k items steps records, claimedItems row = some items ∧
        itemDeeds k row.path w.log = loopItems items steps ∧
        row.output = some (aggregate items records) ∧
        records.map ItemRecord.index = List.range items.length ∧
        countStatus records .succeeded + countStatus records .failed +
          countStatus records .skipped = items.length) ∧
    (w.log.Pairwise fun a b =>
      ∀ path, a.2 = .finished path → b.2.path = path → b.2.works = false) ∧
    (∀ head body body' path attempt scope items,
      (∀ j item, items[j]? = some item →
        body { scope with item := some item } ⟨path, some j⟩ =
          body' { scope with item := some item } ⟨path, some j⟩) →
      runItems head body path attempt scope items 0 [] =
        runItems head body' path attempt scope items 0 []) ∧
    ∀ d head body path parent scope m, (executeForEach d head body path parent scope).Yields
      Answered (fun _ _ => True) m w fun r _ _ =>
        OwnKeyOnly (PipelineStep.forEach head []).info scope.steps r.2 := by
  have hs := h.sound
  refine ⟨fun row hrow hk hsk => hs.loop_row hrow hk hsk, hs.items, ?_, hs.settled, ?_, ?_⟩
  · intro row hrow hk hsucc
    obtain ⟨k, items, steps, records, hi, hd, hindex, hout⟩ := hs.loops row hrow hk hsucc
    refine ⟨k, items, steps, records, hi, hd, hout, hindex, ?_⟩
    rw [countStatus_sum, ← List.length_map ItemRecord.index, hindex, List.length_range]
  · intro head body body' path attempt scope items hbody
    refine runItems_congr items 0 [] fun j item hj => ?_
    rw [Nat.zero_add]
    exact hbody j item hj
  · intro d head body path parent scope m
    exact executeForEach_ownKey d head body parent scope

def noteStep : LeafStep :=
  .tool ⟨⟨ascii "st_cccccccccccccccc", ascii "note"⟩, [], none, none, .atLeastOnce⟩

def loopConfig : WorkflowConfig where
  steps := [.forEach ⟨⟨ascii "st_bbbbbbbbbbbbbbbb", ascii "each"⟩, ascii "trigger.items", 10, .halt⟩
    [.leaf noteStep]]
  slackReply := none
  overlap := .allow
  ids_form := by decide
  ids_nodup := by decide
  slugs_nodup := by decide
  loops_flat := by
    intro head body h s hs
    simp only [walkSteps, PipelineStep.walk, List.append_nil, List.mem_cons, List.not_mem_nil,
      or_false, reduceCtorEq, PipelineStep.forEach.injEq] at h
    rw [h.2] at hs
    simp only [walkSteps, PipelineStep.walk, List.append_nil, List.mem_cons, List.not_mem_nil,
      or_false] at hs
    rw [hs]
    decide

/-- The first driver is cut off in the second item. -/
theorem loop_snapshot_crash : ∃ w, afterCrash plainDeps loopConfig 32 = some w ∧
    w.log.length = 18 ∧ (∀ row ∈ w.steps, row.kind = .forEach → row.status = .succeeded →
      ∃ k items steps records, claimedItems row = some items ∧
        itemDeeds k row.path w.log = loopItems items steps ∧
        row.output = some (aggregate items records) ∧
        records.map ItemRecord.index = List.range items.length ∧
        countStatus records .succeeded + countStatus records .failed +
          countStatus records .skipped = items.length) := by
  have hlen : (afterCrash plainDeps loopConfig 32).map (fun w => w.log.length) = some 18 := by
    decide +kernel
  obtain ⟨w, hw, hlen⟩ := Option.map_eq_some_iff.mp hlen
  exact ⟨w, hw, hlen, (loop_snapshot (afterCrash_history hw)).2.2.1⟩

end InvisibleString.Pipeline
