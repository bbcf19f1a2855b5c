import InvisibleString.Lib.Paths
import InvisibleString.Lib.Text
import InvisibleString.Pipeline.Resumption

/- # `Pipeline.Nesting` — instances and their paths

An instance is the choice of a step of the config and, for each `for_each` around it, of an
item.  Its path is what `stepInstancePath` makes of the frames around it, from the outermost
container in.

**Proved here.**

    different instances have different paths  (`instancePath_injective`)
    `pathHasIteration` tells those inside of a loop  (`pathHasIteration_iff`)
    every row of every run is one of an instance of the config, at its path
                                                                (`History.rows_are_instances`)
-/

namespace InvisibleString.Pipeline

open Json Paths

/-! ## Instances -/

/-- The steps right below a step, whatever lane they stand in. -/
def PipelineStep.children : PipelineStep → List PipelineStep
  | .forEach _ body => body
  | .branch _ branches otherwise => branches.flatMap Prod.snd ++ otherwise.getD []
  | _ => []

/-- The containers around a step, the outermost first, each loop with the index of an item. -/
abbrev Around := List (PipelineStep × Option Nat)

/-- The config has `s` inside of these containers. -/
inductive InstanceOf : List PipelineStep → Around → PipelineStep → Prop
  | here {steps s} (hs : s ∈ steps) : InstanceOf steps [] s
  | inside {steps container iteration around s} (hc : container ∈ steps)
      (hi : iteration.isSome = true ↔ container.kind = .forEach)
      (h : InstanceOf container.children around s) :
      InstanceOf steps ((container, iteration) :: around) s

/-- The path of a step inside of containers that stand under `parent`. -/
def pathUnder (parent : Option StepParentFrame) : Around → PipelineStep → JsString
  | [], s => stepInstancePath parent s.id
  | (container, iteration) :: around, s =>
    pathUnder (some ⟨stepInstancePath parent container.id, iteration⟩) around s

def instancePath (around : Around) (s : PipelineStep) : JsString := pathUnder none around s

/-- `path.split("/").some((segment) => /^\d+$/.test(segment))`. -/
def pathHasIteration (path : JsString) : Bool :=
  (segments separator path).any fun segment => segment ≠ [] && segment.all isDigit

/-! ## The tree -/

theorem walkSteps_append (l l' : List PipelineStep) :
    walkSteps (l ++ l') = walkSteps l ++ walkSteps l' := by
  induction l with
  | nil => rfl
  | cons s l ih => rw [List.cons_append, walkSteps, walkSteps, ih, List.append_assoc]

theorem walkBranches_eq (branches : List (PipelineCondition × List PipelineStep)) :
    walkBranches branches = walkSteps (branches.flatMap Prod.snd) := by
  induction branches with
  | nil => rfl
  | cons b branches ih => rw [walkBranches, ih, List.flatMap_cons, walkSteps_append]

theorem walkElse_eq (otherwise : Option (List PipelineStep)) :
    walkElse otherwise = walkSteps (otherwise.getD []) := by
  cases otherwise with
  | none => rfl
  | some steps => rfl

theorem PipelineStep.walk_eq (s : PipelineStep) : s.walk = s :: walkSteps s.children := by
  cases s with
  | branch base branches otherwise =>
    rw [PipelineStep.walk, PipelineStep.children, walkSteps_append, walkBranches_eq, walkElse_eq]
  | _ => rfl

theorem walkSteps_children {container : PipelineStep} {steps : List PipelineStep}
    (h : container ∈ steps) : (walkSteps container.children).Sublist (walkSteps steps) := by
  induction steps with
  | nil => cases h
  | cons s rest ih =>
    rcases List.mem_cons.mp h with rfl | h
    · refine List.Sublist.trans ?_ (List.sublist_append_left _ _)
      rw [PipelineStep.walk_eq]
      exact List.sublist_cons_self _ _
    · exact (ih h).trans (List.sublist_append_right _ _)

theorem mem_laneSteps {base : PipelineStepBase}
    {branches : List (PipelineCondition × List PipelineStep)}
    {otherwise : Option (List PipelineStep)} {lane : Option Lane} {s : PipelineStep}
    (h : s ∈ laneSteps branches otherwise lane) :
    s ∈ (PipelineStep.branch base branches otherwise).children := by
  rcases lane with _ | i | _
  · cases h
  · rw [laneSteps] at h
    cases hb : branches[i]? with
    | none =>
      rw [hb] at h
      cases h
    | some b =>
      rw [hb] at h
      exact List.mem_append_left _
        (List.mem_flatMap.mpr ⟨b, List.mem_of_getElem? hb, h⟩)
  · exact List.mem_append_right _ h

/-! ## Paths -/

/-- An instance lies at or below the outermost of its containers. -/
theorem below_pathUnder (parent : Option StepParentFrame) (around : Around) (s : PipelineStep) :
    Below (stepInstancePath parent ((around.map Prod.fst).headD s).id)
      (pathUnder parent around s) := by
  induction around generalizing parent with
  | nil => exact Below.refl _
  | cons nesting around ih =>
    rcases nesting with ⟨container, iteration⟩
    have hframe := StepParentFrame.below_root_path
      ⟨stepInstancePath parent container.id, iteration⟩
    exact hframe.trans (below_root.trans (ih _))

theorem pathUnder_frame (frame : StepParentFrame) (around : Around) (s : PipelineStep) :
    Below frame.root (pathUnder (some frame) around s) ∧
      pathUnder (some frame) around s ≠ frame.path :=
  ⟨below_root.trans (below_pathUnder (some frame) around s),
    ne_path_of_below (below_pathUnder (some frame) around s)⟩

section

variable {config : WorkflowConfig} {steps : List PipelineStep}

theorem eq_of_id_eq {s s' : PipelineStep} (hs : s ∈ walkSteps config.steps)
    (hs' : s' ∈ walkSteps config.steps) (h : s.id = s'.id) : s = s' :=
  List.inj_on_of_nodup_map config.ids_nodup hs hs' h

theorem separator_not_mem_id {s : PipelineStep} (hs : s ∈ walkSteps config.steps) :
    separator ∉ s.id :=
  separator_not_mem_of_isStepId (config.ids_form s hs)

/-- Two members of a list of steps with a common place below them are one. -/
theorem eq_of_below {parent : Option StepParentFrame} {s s' : PipelineStep} {q : JsString}
    (hsub : (walkSteps steps).Sublist (walkSteps config.steps)) (hs : s ∈ steps) (hs' : s' ∈ steps)
    (h : Below (stepInstancePath parent s.id) q) (h' : Below (stepInstancePath parent s'.id) q) :
    s = s' := by
  have hs := hsub.subset (mem_walkSteps hs)
  have hs' := hsub.subset (mem_walkSteps hs')
  exact eq_of_id_eq hs hs' (Below.eq_id (separator_not_mem_id hs) (separator_not_mem_id hs') h h')

/-- What stands in a container is not at the place of a step beside it, nor of the container. -/
theorem pathUnder_ne {parent : Option StepParentFrame} {s container s' : PipelineStep}
    {iteration : Option Nat} {around : Around}
    (hsub : (walkSteps steps).Sublist (walkSteps config.steps)) (hs : s ∈ steps)
    (hc : container ∈ steps) :
    pathUnder parent ((container, iteration) :: around) s' ≠ stepInstancePath parent s.id := by
  intro heq
  have hbelow := below_pathUnder parent ((container, iteration) :: around) s'
  have hsame : container = s :=
    eq_of_below hsub hc hs hbelow (by rw [heq]; exact Below.refl _)
  subst hsame
  exact (pathUnder_frame _ around s').2 heq

theorem pathUnder_injective {around around' : Around} {s s' : PipelineStep}
    (h : InstanceOf steps around s) (h' : InstanceOf steps around' s')
    (hsub : (walkSteps steps).Sublist (walkSteps config.steps)) (parent : Option StepParentFrame)
    (heq : pathUnder parent around s = pathUnder parent around' s') :
    around = around' ∧ s = s' := by
  induction h generalizing parent around' with
  | here hs =>
    cases h' with
    | here hs' =>
      exact ⟨rfl, eq_of_below hsub hs hs' (Below.refl _) (Or.inl heq)⟩
    | inside hc' _ _ => exact absurd heq.symm (pathUnder_ne hsub hs hc')
  | @inside steps container iteration around s hc hi h ih =>
    cases h' with
    | here hs' => exact absurd heq (pathUnder_ne hsub hs' hc)
    | @inside _ container' iteration' around' _ hc' hi' h' =>
      have hbelow := below_pathUnder parent ((container, iteration) :: around) s
      have hbelow' := below_pathUnder parent ((container', iteration') :: around') s'
      rw [← heq] at hbelow'
      have hsame : container = container' := eq_of_below hsub hc hc' hbelow hbelow'
      subst hsame
      have hiteration : iteration = iteration' := by
        have hroot := (pathUnder_frame ⟨stepInstancePath parent container.id, iteration⟩ around s).1
        have hroot' :=
          (pathUnder_frame ⟨stepInstancePath parent container.id, iteration'⟩ around' s').1
        cases iteration with
        | none =>
          cases iteration' with
          | none => rfl
          | some j => exact absurd (hi.mpr (hi'.mp rfl)) Bool.false_ne_true
        | some i =>
          cases iteration' with
          | none => exact absurd (hi'.mpr (hi.mp rfl)) Bool.false_ne_true
          | some j =>
            rw [pathUnder, pathUnder] at heq
            rw [← heq] at hroot'
            exact congrArg some (Below.eq_iteration hroot hroot')
      subst hiteration
      obtain ⟨haround, hs⟩ := ih h' ((walkSteps_children hc).trans hsub) _ heq
      exact ⟨by rw [haround], hs⟩

theorem instancePath_injective {around around' : Around} {s s' : PipelineStep}
    (h : InstanceOf config.steps around s) (h' : InstanceOf config.steps around' s')
    (heq : instancePath around s = instancePath around' s') : around = around' ∧ s = s' :=
  pathUnder_injective h h' (List.Sublist.refl _) none heq

end

/-! ## Items -/

theorem pathHasIteration_append (p q : JsString) :
    pathHasIteration (p ++ separator :: q) = (pathHasIteration p || pathHasIteration q) := by
  rw [pathHasIteration, segments_append, List.any_append]
  rfl

theorem pathHasIteration_printNat (n : Nat) : pathHasIteration (printNat n) = true := by
  have hdigits : (printNat n).all isDigit = true := by
    rw [List.all_eq_true]
    intro c hc
    obtain ⟨hlow, hhigh⟩ := mem_printNat hc
    rw [isDigit, decide_eq_true hlow, decide_eq_true hhigh]
    rfl
  rw [pathHasIteration, segments_single (separator_not_mem_printNat n), List.any_cons, hdigits,
    decide_eq_true (printNat_ne_nil n)]
  rfl

theorem pathHasIteration_id {id : JsString} (h : isStepId id = true) :
    pathHasIteration id = false := by
  rw [pathHasIteration, segments_single (separator_not_mem_of_isStepId h), List.any_cons,
    List.any_nil, Bool.or_false]
  simp only [isStepId, Bool.and_eq_true, decide_eq_true_eq] at h
  rw [← List.take_append_drop 3 id, h.1.2, List.all_append]
  have hstart : (ascii "st_").all isDigit = false := by decide
  rw [hstart, Bool.false_and, Bool.and_false]

theorem pathHasIteration_step (parent : Option StepParentFrame) {id : JsString}
    (h : isStepId id = true) : pathHasIteration (stepInstancePath parent id) =
      parent.any fun frame => pathHasIteration frame.path || frame.iteration.isSome := by
  cases parent with
  | none => exact pathHasIteration_id h
  | some frame =>
    rcases frame with ⟨path, _ | iteration⟩
    · rw [stepInstancePath_some, pathHasIteration_append, pathHasIteration_id h]
      rfl
    · rw [stepInstancePath_some, pathHasIteration_append, pathHasIteration_id h, Bool.or_false,
        StepParentFrame.root, pathHasIteration_append, pathHasIteration_printNat]
      rfl

section

variable {config : WorkflowConfig} {steps : List PipelineStep}

theorem pathHasIteration_pathUnder {around : Around} {s : PipelineStep}
    (h : InstanceOf steps around s) (hsub : (walkSteps steps).Sublist (walkSteps config.steps))
    (parent : Option StepParentFrame) : pathHasIteration (pathUnder parent around s) =
      ((parent.any fun frame => pathHasIteration frame.path || frame.iteration.isSome) ||
        around.any fun nesting => nesting.2.isSome) := by
  induction h generalizing parent with
  | here hs =>
    have hid := config.ids_form _ (hsub.subset (mem_walkSteps hs))
    rw [pathUnder, pathHasIteration_step parent hid, List.any_nil, Bool.or_false]
  | @inside steps container iteration around s hc hi h ih =>
    have hid := config.ids_form _ (hsub.subset (mem_walkSteps hc))
    rw [pathUnder, ih ((walkSteps_children hc).trans hsub), Option.any_some,
      pathHasIteration_step parent hid, List.any_cons, Bool.or_assoc]

theorem InstanceOf.loops {around : Around} {s : PipelineStep} (h : InstanceOf steps around s) :
    (around.any fun nesting => nesting.2.isSome) = true ↔
      ∃ nesting ∈ around, nesting.1.kind = .forEach := by
  induction h with
  | here hs => simp
  | @inside steps container iteration around s hc hi h ih =>
    rw [List.any_cons, Bool.or_eq_true, ih, hi]
    simp only [List.mem_cons, exists_eq_or_imp]

theorem pathHasIteration_iff {around : Around} {s : PipelineStep}
    (h : InstanceOf config.steps around s) : pathHasIteration (instancePath around s) = true ↔
      ∃ nesting ∈ around, nesting.1.kind = .forEach := by
  rw [instancePath, pathHasIteration_pathUnder h (List.Sublist.refl _) none, Option.any_none,
    Bool.false_or, h.loops]

end

/-! ## Runs -/

/-- The paths of the instances below a list of steps. -/
def PathsOf (steps : List PipelineStep) (parent : Option StepParentFrame) (q : JsString) : Prop :=
  ∃ around s, InstanceOf steps around s ∧ q = pathUnder parent around s

/-- The paths of the instances a job may come to. -/
def Job.paths : Job → JsString → Prop
  | .seq steps parent => PathsOf steps parent
  | .step s parent => PathsOf [s] parent
  | .items loop _ _ => fun q => q = loop.path ∨ ∃ j, PathsOf loop.body (some ⟨loop.path, some j⟩) q
  | .skip steps => PathsOf steps none

theorem PathsOf.here {steps : List PipelineStep} {s : PipelineStep} (hs : s ∈ steps)
    (parent : Option StepParentFrame) : PathsOf steps parent (stepInstancePath parent s.id) :=
  ⟨[], s, .here hs, rfl⟩

theorem PathsOf.mono {steps steps' : List PipelineStep} {parent : Option StepParentFrame}
    {q : JsString} (hsub : steps ⊆ steps') (h : PathsOf steps parent q) :
    PathsOf steps' parent q := by
  obtain ⟨around, s, h, rfl⟩ := h
  cases h with
  | here hs => exact ⟨[], s, .here (hsub hs), rfl⟩
  | inside hc hi h => exact ⟨_, s, .inside (hsub hc) hi h, rfl⟩

theorem PathsOf.inside {container : PipelineStep} {parent : Option StepParentFrame}
    {iteration : Option Nat} {q : JsString}
    (hi : iteration.isSome = true ↔ container.kind = .forEach)
    (h : PathsOf container.children (some ⟨stepInstancePath parent container.id, iteration⟩) q) :
    PathsOf [container] parent q := by
  obtain ⟨around, s, h, rfl⟩ := h
  exact ⟨(container, iteration) :: around, s, .inside List.mem_cons_self hi h, rfl⟩

section

variable {d : DriveCtx}

/-- The work on one instance stays at its path. -/
theorem Own.within {s : PipelineStep} {i : ClaimStepInput} {σ₀ σ : Walker} {phase : Phase}
    (h : Own d s i σ₀ phase σ) : Within (· = i.path) σ₀.trail σ.trail := by
  induction h with
  | start => exact Within.refl _ _
  | idle _ hi ih =>
    rw [hi.trail]
    exact ih
  | claimed _ _ ih => exact ih.trans (Within.claim rfl)
  | found _ _ _ ih => exact ih
  | adopted _ _ _ ih => exact ih
  | resumed _ _ ih => exact ih.trans (Within.update (fun _ => rfl) rfl)
  | counted _ _ ih => exact ih
  | charged _ ih => exact ih.trans (Within.record rfl)
  | interrupted _ _ ih => exact ih.trans (Within.finish (A := (· = i.path)) rfl _)
  | invoked _ _ hp _ _ ih => exact ih.trans (Within.record hp)
  | linked _ _ ih => exact ih.trans (Within.update (fun _ => rfl) rfl)
  | parked _ _ _ ih => exact ih.trans (Within.update (fun _ => rfl) rfl)
  | rerun _ _ ih => exact ih.trans (Within.update (fun _ => rfl) rfl)
  | late _ _ ih => exact ih.trans (Within.record rfl)
  | lateFailed _ ih => exact ih.trans (Within.finish (A := (· = i.path)) rfl _)
  | finished _ _ ih => exact ih.trans (Within.finish (A := (· = i.path)) rfl _)
  | left _ _ ih => exact ih

theorem Walks.within {job : Job} {σ σ' : Walker} {o : Option Fate} (h : Walks d job σ o σ') :
    Within job.paths σ.trail σ'.trail := by
  induction h with
  | cut => exact Within.refl _ _
  | unseen _ ih => exact ih
  | before hi _ ih =>
    rw [hi.trail] at ih
    exact ih
  | after _ hi ih =>
    rw [hi.trail]
    exact ih
  | nil => exact Within.refl _ _
  | stopped => exact Within.refl _ _
  | late | full => exact Within.record (PathsOf.here List.mem_cons_self _)
  | next _ _ _ _ ih₁ ih₂ =>
    exact (ih₁.mono fun q => PathsOf.mono (by simp)).trans
      (ih₂.mono fun q => PathsOf.mono (List.subset_cons_self _ _))
  | stop _ _ _ _ _ ih => exact ih.mono fun q => PathsOf.mono (by simp)
  | fenced _ _ _ _ ih₁ ih₂ =>
    exact (ih₁.mono fun q => PathsOf.mono (by simp)).trans
      (ih₂.mono fun q => PathsOf.mono (List.subset_cons_self _ _))
  | skipped => exact Within.refl _ _
  | @skip s rest i σ o σ' hi _ ih =>
    have hclaim : Within (PathsOf (s :: rest) none) σ.trail (σ.trail.claim i) :=
      Within.claim (by rw [hi.path]; exact PathsOf.here List.mem_cons_self none)
    exact hclaim.trans (ih.mono fun q => PathsOf.mono (List.subset_cons_self _ _))
  | working hi h | worked hi h _ =>
    refine h.within.mono ?_
    rintro q rfl
    rw [hi.path]
    exact PathsOf.here List.mem_cons_self _
  | @lane base branches otherwise parent i row σ σ₁ o σ₂ hi h hr hs hl ih =>
    refine (h.within.mono ?_).trans (ih.mono fun q hq => ?_)
    · rintro q rfl
      rw [hi.path]
      exact PathsOf.here List.mem_cons_self _
    · rw [hi.path] at hq
      have hlane : PathsOf (PipelineStep.branch base branches otherwise).children
          (some ⟨stepInstancePath parent base.id, none⟩) q := hq.mono fun s hs => mem_laneSteps hs
      exact PathsOf.inside (by simp [PipelineStep.kind]) hlane
  | @loop head body parent i items scope σ σ₁ o σ₂ hi h hp hl ih =>
    have hown : PathsOf [.forEach head body] parent i.path := by
      rw [hi.path]
      exact PathsOf.here List.mem_cons_self _
    refine (h.within.mono ?_).trans (ih.mono ?_)
    · rintro q rfl
      exact hown
    · rintro q (rfl | ⟨j, hq⟩)
      · exact hown
      · have hbody : PathsOf (PipelineStep.forEach head body).children
            (some ⟨stepInstancePath parent head.id, some j⟩) q := by
          rw [← hi.path]
          exact hq
        exact PathsOf.inside (by simp [PipelineStep.kind]) hbody
  | looped => exact Within.finish (Or.inl rfl) _
  | leave => exact Within.refl _ _
  | cancel => exact Within.finish (Or.inl rfl) _
  | item _ _ _ _ ih₁ ih₂ =>
    exact ((Within.record (Or.inl rfl)).trans (ih₁.mono fun q hq => Or.inr ⟨_, hq⟩)).trans ih₂
  | inItem _ ih =>
    exact (Within.record (Or.inl rfl)).trans (ih.mono fun q hq => Or.inr ⟨_, hq⟩)
  | itemLeft _ _ ih =>
    exact (Within.record (Or.inl rfl)).trans (ih.mono fun q hq => Or.inr ⟨_, hq⟩)
  | itemCanceled _ _ ih | itemFailed _ _ ih =>
    exact ((Within.record (Or.inl rfl)).trans (ih.mono fun q hq => Or.inr ⟨_, hq⟩)).trans
      (Within.finish (Or.inl rfl) _)

end

/-- Every deed is about an instance of the config. -/
def AboutInstances (config : WorkflowConfig) (t : Trail) : Prop :=
  ∀ e ∈ t.log, PathsOf config.steps none e.2.path

theorem AboutInstances.walks {config : WorkflowConfig} {d : DriveCtx} {σ σ' : Walker}
    {o : Option Fate} (h : AboutInstances config σ.trail)
    (hw : Walks d (.seq config.steps none) σ o σ') : AboutInstances config σ'.trail := by
  obtain ⟨l, hl, hpaths⟩ := hw.within.log
  intro e he
  rw [hl] at he
  rcases List.mem_append.mp he with he | he
  · exact h e he
  · exact (hpaths e he).2

theorem History.aboutInstances {config : WorkflowConfig} {D : Deps → RunRow → World → Prop}
    {w : World} (h : History config D w) : AboutInstances config w.toTrail := by
  refine h.rule (I := fun σ => AboutInstances config σ.trail) ?_ ?_ ?_
  · intro run state clock _ _ e he
    cases he
  · intro σ σ' h ha
    rw [ha.trail]
    exact h
  · intro d run w σ _ h₀ h
    have hnext : AboutInstances config w.next.toTrail := h₀
    have hlaunch : ∀ {c σ₁}, Launch d run w.next.walker c σ₁ → AboutInstances config σ₁.trail := by
      intro c σ₁ hl
      have htrail : σ₁.trail = w.next.toTrail := hl.trail
      rw [htrail]
      exact hnext
    cases h with
    | waited h =>
      rw [h.trail]
      exact hnext
    | walking hl hw => exact (hlaunch hl).walks hw
    | settled hl hw _ hi =>
      have hwalk := (hlaunch hl).walks hw
      rw [hi.trail]
      exact hwalk

theorem lastSegment_pathUnder {config : WorkflowConfig} {steps : List PipelineStep}
    {around : Around} {s : PipelineStep} (h : InstanceOf steps around s)
    (hsub : (walkSteps steps).Sublist (walkSteps config.steps))
    (parent : Option StepParentFrame) : lastSegment (pathUnder parent around s) = s.id := by
  induction h generalizing parent with
  | here hs =>
    exact lastSegment_stepInstancePath (separator_not_mem_id (hsub.subset (mem_walkSteps hs)))
  | inside hc _ _ ih => exact ih ((walkSteps_children hc).trans hsub) _

/-- Every row of a run stands for an instance of the config, under its path and its step's id. -/
theorem History.rows_are_instances {config : WorkflowConfig} {D : Deps → RunRow → World → Prop}
    {w : World} (h : History config D w) {row : RunStepRow} (hrow : row ∈ w.steps) :
    ∃ around s, InstanceOf config.steps around s ∧ row.path = instancePath around s ∧
      row.stepId = s.id := by
  obtain ⟨k, hclaimed⟩ := h.sound.claimed row hrow
  obtain ⟨around, s, hinstance, hpath⟩ := h.aboutInstances _ hclaimed
  obtain ⟨s', -, hof⟩ := h.sound.row row hrow
  have hpath : row.path = instancePath around s := hpath
  refine ⟨around, s, hinstance, hpath, ?_⟩
  rw [hof.stepId, ← hof.segment, hpath]
  exact lastSegment_pathUnder hinstance (List.Sublist.refl _) none

/-- Paths identify the instances of a config, tell those of items, and are those of the rows of
its runs. -/
theorem instance_paths_identify (config : WorkflowConfig) :
    (∀ around s around' s', InstanceOf config.steps around s →
      InstanceOf config.steps around' s' → instancePath around s = instancePath around' s' →
      around = around' ∧ s = s') ∧
    (∀ around s, InstanceOf config.steps around s →
      (pathHasIteration (instancePath around s) = true ↔
        ∃ nesting ∈ around, nesting.1.kind = .forEach)) ∧
    ∀ D w, History config D w → ∀ row ∈ w.steps, ∃ around s,
      InstanceOf config.steps around s ∧ row.path = instancePath around s ∧ row.stepId = s.id :=
  ⟨fun _ _ _ _ => instancePath_injective, fun _ _ => pathHasIteration_iff,
    fun _ _ h _ => h.rows_are_instances⟩

/-- Two items of one loop, and the rows behind a crash in it. -/
theorem instance_paths_identify_loop : ∃ loop,
    instancePath [(loop, some 0)] (.leaf noteStep) ≠
        instancePath [(loop, some 1)] (.leaf noteStep) ∧
      pathHasIteration (instancePath [(loop, some 12)] (.leaf noteStep)) = true ∧
      ∃ w, afterCrash plainDeps loopConfig 32 = some w ∧ ∀ row ∈ w.steps, ∃ around s,
        InstanceOf loopConfig.steps around s ∧ row.path = instancePath around s ∧
          row.stepId = s.id := by
  obtain ⟨hinjective, hitems, hruns⟩ := instance_paths_identify loopConfig
  have hcrash : (afterCrash plainDeps loopConfig 32).isSome = true := by decide +kernel
  obtain ⟨w, hw⟩ := Option.isSome_iff_exists.mp hcrash
  have hnote : ∀ n, InstanceOf loopConfig.steps
      [(PipelineStep.forEach ⟨⟨ascii "st_bbbbbbbbbbbbbbbb", ascii "each"⟩,
        ascii "trigger.items", 10, .halt⟩ [.leaf noteStep], some n)] (.leaf noteStep) := by
    intro n
    exact .inside List.mem_cons_self ⟨fun _ => rfl, fun _ => rfl⟩ (.here List.mem_cons_self)
  refine ⟨_, ?_, (hitems _ _ (hnote 12)).mpr ⟨_, List.mem_cons_self, rfl⟩, w, hw,
    hruns _ w (afterCrash_history hw)⟩
  intro heq
  obtain ⟨haround, -⟩ := hinjective _ _ _ _ (hnote 0) (hnote 1) heq
  cases haround

end InvisibleString.Pipeline
