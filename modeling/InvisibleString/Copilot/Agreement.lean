import InvisibleString.Copilot.Builder

/- # `Copilot.Agreement` — the server's tree operations and the editor's

Both sides walk the tree in document order and act on the first step of an id.

**Proved here.**

    a replacement and an insertion give the same tree on both sides, and fail together
                                                 (`replaceStepInTree_eq`, `insertStepAt_eq`)
    so does a removal, where no id stands twice  (`removeStepFromTree_eq`)
    what an operation does to the steps of the tree: a segment of the document order is
      replaced, taken out or put in, the rest stands as it was
                                                (`outline_splice`, `outline_insertStep`)
-/

namespace InvisibleString.Copilot

open Json Pipeline

variable {stepId : JsString} {news steps : List PipelineStep}

/-! ## What is located -/

theorem find_cons {step : PipelineStep} :
    ((step :: steps).find? fun s => s.id = stepId) =
      if step.id = stepId then some step else steps.find? fun s => s.id = stepId := by
  rw [List.find?_cons]
  by_cases h : step.id = stepId
  · rw [if_pos h, decide_eq_true h]
  · rw [if_neg h, decide_eq_false h]

theorem map_snd_map {α β γ : Type} {f : α → β} {o : Option (α × γ)} :
    (o.map fun r => (f r.1, r.2)).map Prod.snd = o.map Prod.snd := by
  cases o <;> rfl

mutual

theorem find_walkSteps (steps : List PipelineStep) :
    ((walkSteps steps).find? fun s => s.id = stepId) =
      (splice stepId news steps).map Prod.snd := by
  cases steps with
  | nil => rfl
  | cons step steps =>
    rw [walkSteps, List.find?_append, find_walkSteps steps, splice, find_walk step]
    by_cases hid : step.id = stepId
    · rw [if_pos hid, if_pos hid]
      rfl
    · rw [if_neg hid, if_neg hid]
      cases spliceStep stepId news step with
      | none => exact map_snd_map.symm
      | some r => rfl

theorem find_walk (step : PipelineStep) :
    (step.walk.find? fun s => s.id = stepId) =
      if step.id = stepId then some step else (spliceStep stepId news step).map Prod.snd := by
  cases step with
  | leaf _ | filter _ | state _ =>
    rw [PipelineStep.walk, find_cons, spliceStep]
    rfl
  | forEach head steps =>
    rw [PipelineStep.walk, find_cons, find_walkSteps steps, spliceStep, map_snd_map]
  | branch base branches otherwise =>
    rw [PipelineStep.walk, find_cons, List.find?_append, find_walkBranches branches,
      find_walkElse otherwise, spliceStep]
    cases spliceBranches stepId news branches with
    | none => exact congrArg _ map_snd_map.symm
    | some r => rfl

theorem find_walkBranches (branches : List (PipelineCondition × List PipelineStep)) :
    ((walkBranches branches).find? fun s => s.id = stepId) =
      (spliceBranches stepId news branches).map Prod.snd := by
  cases branches with
  | nil => rfl
  | cons branch branches =>
    rcases branch with ⟨condition, steps⟩
    rw [walkBranches, List.find?_append, find_walkSteps steps, find_walkBranches branches,
      spliceBranches]
    cases splice stepId news steps with
    | none => exact map_snd_map.symm
    | some r => rfl

theorem find_walkElse (otherwise : Option (List PipelineStep)) :
    ((walkElse otherwise).find? fun s => s.id = stepId) =
      (spliceElse stepId news otherwise).map Prod.snd := by
  cases otherwise with
  | none => rfl
  | some steps =>
    rw [walkElse, find_walkSteps steps, spliceElse, map_snd_map]

end

theorem findStep_eq (news : List PipelineStep) :
    findStep steps stepId = (splice stepId news steps).map Prod.snd :=
  find_walkSteps steps

theorem findStep_eq_none : findStep steps stepId = none ↔ stepId ∉ allStepIds steps := by
  rw [findStep, List.find?_eq_none, allStepIds, List.mem_map]
  constructor
  · rintro h ⟨step, hmem, hid⟩
    exact h step hmem (decide_eq_true hid)
  · intro h step hmem hid
    exact h ⟨step, hmem, of_decide_eq_true hid⟩

theorem splice_eq_none : splice stepId news steps = none ↔ stepId ∉ allStepIds steps := by
  rw [← findStep_eq_none, findStep_eq news, Option.map_eq_none_iff]

theorem mem_of_splice {r : List PipelineStep × PipelineStep} (h : splice stepId news steps = some r) :
    stepId ∈ allStepIds steps := by
  by_contra hn
  rw [splice_eq_none.mpr hn] at h
  cases h

theorem splice_of_findStep {found : PipelineStep} (news : List PipelineStep)
    (h : findStep steps stepId = some found) :
    ∃ steps', splice stepId news steps = some (steps', found) := by
  rw [findStep_eq news] at h
  obtain ⟨r, hr, rfl⟩ := Option.map_eq_some_iff.mp h
  exact ⟨r.1, hr⟩

/-! ## What stays -/

/-- A step without the steps below it. -/
def bare : PipelineStep → PipelineStep
  | .forEach head _ => .forEach head []
  | .branch base branches _ => .branch base (branches.map fun branch => (branch.1, [])) none
  | .leaf step => .leaf step
  | .filter step => .filter step
  | .state step => .state step

/-- The steps of a tree in document order, each without those below it. -/
def outline (steps : List PipelineStep) : List PipelineStep := (walkSteps steps).map bare

theorem bare_id (step : PipelineStep) : (bare step).id = step.id := by
  cases step <;> rfl

/-- The ids are those of the outline. -/
theorem allStepIds_eq : allStepIds steps = (outline steps).map PipelineStep.id := by
  rw [outline, List.map_map, allStepIds]
  exact List.map_congr_left fun step _ => (bare_id step).symm

theorem outline_cons (step : PipelineStep) (steps : List PipelineStep) :
    outline (step :: steps) = step.walk.map bare ++ outline steps := by
  rw [outline, walkSteps, List.map_append, outline]

theorem outline_singleton (step : PipelineStep) : outline [step] = step.walk.map bare := by
  rw [outline_cons]
  exact List.append_nil _

theorem outline_append (steps steps' : List PipelineStep) :
    outline (steps ++ steps') = outline steps ++ outline steps' := by
  induction steps with
  | nil => rfl
  | cons step steps ih => rw [List.cons_append, outline_cons, outline_cons, ih, List.append_assoc]

/-- `after` is `before` with the segment of `found` replaced by that of `news`. -/
def Spliced (found news before after : List PipelineStep) : Prop :=
  ∃ pre post, before = pre ++ outline found ++ post ∧ after = pre ++ outline news ++ post

section

variable {found before after : List PipelineStep}

theorem Spliced.cons (head : PipelineStep) (h : Spliced found news before after) :
    Spliced found news (head :: before) (head :: after) := by
  obtain ⟨pre, post, rfl, rfl⟩ := h
  exact ⟨head :: pre, post, rfl, rfl⟩

theorem Spliced.append_left (front : List PipelineStep) (h : Spliced found news before after) :
    Spliced found news (front ++ before) (front ++ after) := by
  obtain ⟨pre, post, rfl, rfl⟩ := h
  exact ⟨front ++ pre, post, by simp, by simp⟩

theorem Spliced.append_right (back : List PipelineStep) (h : Spliced found news before after) :
    Spliced found news (before ++ back) (after ++ back) := by
  obtain ⟨pre, post, rfl, rfl⟩ := h
  exact ⟨pre, post ++ back, by simp, by simp⟩

end

/-- The conditions of a branch's lanes. -/
def conditions (branches : List (PipelineCondition × List PipelineStep)) : List PipelineCondition :=
  branches.map Prod.fst

theorem bare_branch {base : PipelineStepBase} {otherwise otherwise' : Option (List PipelineStep)}
    {branches branches' : List (PipelineCondition × List PipelineStep)}
    (h : conditions branches = conditions branches') :
    bare (.branch base branches otherwise) = bare (.branch base branches' otherwise') := by
  have hlanes : ∀ l : List (PipelineCondition × List PipelineStep),
      (l.map fun branch => (branch.1, ([] : List PipelineStep))) =
        (conditions l).map fun condition => (condition, []) := fun l => by
    rw [conditions, List.map_map]
    rfl
  rw [bare, bare, hlanes, hlanes, h]

mutual

/-- What is located is replaced, and nothing else. -/
theorem spliced_of_splice {found : PipelineStep} {steps' : List PipelineStep}
    (steps : List PipelineStep) (h : splice stepId news steps = some (steps', found)) :
    Spliced [found] news (outline steps) (outline steps') ∧ found.id = stepId := by
  cases steps with
  | nil => cases h
  | cons step steps =>
    rw [splice] at h
    by_cases hid : step.id = stepId
    · rw [if_pos hid] at h
      cases h
      exact ⟨⟨[], outline steps, by rw [outline_cons, outline_singleton]; rfl, outline_append _ _⟩, hid⟩
    · rw [if_neg hid] at h
      cases hs : spliceStep stepId news step with
      | some r =>
        rw [hs] at h
        cases h
        obtain ⟨hsp, hfound⟩ := spliced_of_spliceStep step hs
        rw [outline_cons, outline_cons]
        exact ⟨hsp.append_right _, hfound⟩
      | none =>
        rw [hs] at h
        obtain ⟨r, hr, hcons⟩ := Option.map_eq_some_iff.mp h
        cases hcons
        obtain ⟨hsp, hfound⟩ := spliced_of_splice steps hr
        rw [outline_cons, outline_cons]
        exact ⟨hsp.append_left _, hfound⟩

theorem spliced_of_spliceStep {found step' : PipelineStep} (step : PipelineStep)
    (h : spliceStep stepId news step = some (step', found)) :
    Spliced [found] news (step.walk.map bare) (step'.walk.map bare) ∧ found.id = stepId := by
  cases step with
  | leaf _ | filter _ | state _ =>
    rw [spliceStep] at h
    cases h
  | forEach head steps =>
    rw [spliceStep] at h
    obtain ⟨r, hr, hcons⟩ := Option.map_eq_some_iff.mp h
    cases hcons
    obtain ⟨hsp, hfound⟩ := spliced_of_splice steps hr
    rw [PipelineStep.walk, PipelineStep.walk]
    exact ⟨hsp.cons (.forEach head []), hfound⟩
  | branch base branches otherwise =>
    rw [spliceStep] at h
    cases hb : spliceBranches stepId news branches with
    | some r =>
      rw [hb] at h
      cases h
      obtain ⟨hsp, hsame, hfound⟩ := spliced_of_spliceBranches branches hb
      rw [PipelineStep.walk, PipelineStep.walk, List.map_cons, List.map_cons,
        bare_branch hsame, List.map_append, List.map_append]
      exact ⟨(hsp.append_right _).cons _, hfound⟩
    | none =>
      rw [hb] at h
      obtain ⟨r, hr, hcons⟩ := Option.map_eq_some_iff.mp h
      cases hcons
      obtain ⟨hsp, hfound⟩ := spliced_of_spliceElse otherwise hr
      rw [PipelineStep.walk, PipelineStep.walk, List.map_cons, List.map_cons,
        bare_branch rfl, List.map_append, List.map_append]
      exact ⟨(hsp.append_left _).cons _, hfound⟩

theorem spliced_of_spliceBranches {found : PipelineStep}
    {branches' : List (PipelineCondition × List PipelineStep)}
    (branches : List (PipelineCondition × List PipelineStep))
    (h : spliceBranches stepId news branches = some (branches', found)) :
    Spliced [found] news ((walkBranches branches).map bare) ((walkBranches branches').map bare) ∧
      conditions branches = conditions branches' ∧ found.id = stepId := by
  cases branches with
  | nil => cases h
  | cons branch branches =>
    rcases branch with ⟨condition, steps⟩
    rw [spliceBranches] at h
    cases hs : splice stepId news steps with
    | some r =>
      rw [hs] at h
      cases h
      obtain ⟨hsp, hfound⟩ := spliced_of_splice steps hs
      rw [walkBranches, walkBranches, List.map_append, List.map_append]
      exact ⟨hsp.append_right _, rfl, hfound⟩
    | none =>
      rw [hs] at h
      obtain ⟨r, hr, hcons⟩ := Option.map_eq_some_iff.mp h
      cases hcons
      obtain ⟨hsp, hsame, hfound⟩ := spliced_of_spliceBranches branches hr
      rw [walkBranches, walkBranches, List.map_append, List.map_append]
      exact ⟨hsp.append_left _, congrArg (condition :: ·) hsame, hfound⟩

theorem spliced_of_spliceElse {found : PipelineStep} {otherwise' : Option (List PipelineStep)}
    (otherwise : Option (List PipelineStep))
    (h : spliceElse stepId news otherwise = some (otherwise', found)) :
    Spliced [found] news ((walkElse otherwise).map bare) ((walkElse otherwise').map bare) ∧
      found.id = stepId := by
  cases otherwise with
  | none => cases h
  | some steps =>
    rw [spliceElse] at h
    obtain ⟨r, hr, hcons⟩ := Option.map_eq_some_iff.mp h
    cases hcons
    rw [walkElse, walkElse]
    exact spliced_of_splice steps hr

end

/-! ## Replacement -/

section

variable {replacement : PipelineStep}

theorem visitReplace_found (steps : List PipelineStep) :
    visitReplace stepId replacement true steps = (steps, true) := by
  induction steps with
  | nil => rfl
  | cons step steps ih => simp only [visitReplace, if_true, ih]

theorem visitReplaceBranches_found (branches : List (PipelineCondition × List PipelineStep)) :
    visitReplaceBranches stepId replacement true branches = (branches, true) := by
  induction branches with
  | nil => rfl
  | cons branch branches ih => simp only [visitReplaceBranches, visitReplace_found, ih]

theorem visitReplaceElse_found (otherwise : Option (List PipelineStep)) :
    visitReplaceElse stepId replacement true otherwise = (otherwise, true) := by
  cases otherwise with
  | none => rfl
  | some steps => rw [visitReplaceElse, visitReplace_found]

mutual

theorem visitReplace_eq (steps : List PipelineStep) :
    visitReplace stepId replacement false steps =
      ((splice stepId [replacement] steps).map fun r => (r.1, true)).getD (steps, false) := by
  cases steps with
  | nil => rfl
  | cons step steps =>
    rw [visitReplace, if_neg Bool.false_ne_true, splice]
    by_cases hid : step.id = stepId
    · simp only [if_pos hid, visitReplace_found]
      rfl
    · rw [if_neg hid, if_neg hid, visitReplaceStep_eq step]
      cases spliceStep stepId [replacement] step with
      | some r =>
        simp only [Option.map_some, Option.getD_some, visitReplace_found]
      | none =>
        simp only [Option.map_none, Option.getD_none, visitReplace_eq steps]
        cases splice stepId [replacement] steps <;> rfl

theorem visitReplaceStep_eq (step : PipelineStep) :
    visitReplaceStep stepId replacement step =
      ((spliceStep stepId [replacement] step).map fun r => (r.1, true)).getD (step, false) := by
  cases step with
  | leaf _ | filter _ | state _ =>
    rw [visitReplaceStep, spliceStep]
    rfl
  | forEach head steps =>
    rw [visitReplaceStep, spliceStep, visitReplace_eq steps]
    cases splice stepId [replacement] steps <;> rfl
  | branch base branches otherwise =>
    rw [visitReplaceStep, spliceStep, visitReplaceBranches_eq branches]
    cases spliceBranches stepId [replacement] branches with
    | some r =>
      simp only [Option.map_some, Option.getD_some, visitReplaceElse_found]
    | none =>
      simp only [Option.map_none, Option.getD_none, visitReplaceElse_eq otherwise]
      cases spliceElse stepId [replacement] otherwise <;> rfl

theorem visitReplaceBranches_eq (branches : List (PipelineCondition × List PipelineStep)) :
    visitReplaceBranches stepId replacement false branches =
      ((spliceBranches stepId [replacement] branches).map fun r => (r.1, true)).getD
        (branches, false) := by
  cases branches with
  | nil => rfl
  | cons branch branches =>
    rcases branch with ⟨condition, steps⟩
    rw [visitReplaceBranches, spliceBranches, visitReplace_eq steps]
    cases splice stepId [replacement] steps with
    | some r =>
      simp only [Option.map_some, Option.getD_some, visitReplaceBranches_found]
    | none =>
      simp only [Option.map_none, Option.getD_none, visitReplaceBranches_eq branches]
      cases spliceBranches stepId [replacement] branches <;> rfl

theorem visitReplaceElse_eq (otherwise : Option (List PipelineStep)) :
    visitReplaceElse stepId replacement false otherwise =
      ((spliceElse stepId [replacement] otherwise).map fun r => (r.1, true)).getD
        (otherwise, false) := by
  cases otherwise with
  | none => rfl
  | some steps =>
    rw [visitReplaceElse, spliceElse, visitReplace_eq steps]
    cases splice stepId [replacement] steps <;> rfl

end

theorem replaceStepInTree_eq :
    replaceStepInTree steps stepId replacement =
      (splice stepId [replacement] steps).map Prod.fst := by
  rw [replaceStepInTree, visitReplace_eq]
  cases splice stepId [replacement] steps <;> rfl

end

/-! ## Insertion -/

section

variable {step : PipelineStep} {after : Option JsString}

theorem insertIntoLane_eq {anchor : JsString}
    (branches : List (PipelineCondition × List PipelineStep)) :
    insertIntoLane step anchor branches =
      (laneIndex branches (some anchor)).bind fun index =>
        branches[index]?.bind fun lane =>
          (insertIntoList lane.2 step (some anchor)).map fun steps =>
            branches.set index (lane.1, steps) := by
  induction branches with
  | nil => rfl
  | cons branch branches ih =>
    rcases branch with ⟨condition, steps⟩
    rw [insertIntoLane, laneIndex, List.findIdx?_cons]
    by_cases hany : (steps.any fun sibling => sibling.id = anchor) = true
    · rw [if_pos hany, if_pos hany]
      rfl
    · rw [if_neg hany, if_neg hany, ih, laneIndex]
      cases branches.findIdx? fun branch => branch.2.any fun sibling => sibling.id = anchor with
      | none => rfl
      | some index =>
        show Option.map _ (branches[index]?.bind _) = branches[index]?.bind _
        cases branches[index]? with
        | none => rfl
        | some lane => exact Option.map_map _ _ _

/-- Both sides put the step at the same place of the parent, or neither does. -/
theorem placeStep_eq (parent : PipelineStep) (slot : Slot) :
    placeStep parent slot after step =
      if (placeIn parent slot after step).2.isNone then
        ((placeIn parent slot after step).1, .found)
      else (parent, .failed) := by
  cases parent with
  | leaf _ | filter _ | state _ => cases slot <;> rfl
  | forEach head steps =>
    cases slot with
    | lane | otherwise => rfl
    | body => cases h : insertIntoList steps step after <;> simp [placeStep, placeIn, h]
  | branch base branches otherwise =>
    cases slot with
    | body => rfl
    | otherwise =>
      cases h : insertIntoList (otherwise.getD []) step after <;> simp [placeStep, placeIn, h]
    | lane =>
      cases after with
      | none => cases branches <;> rfl
      | some anchor =>
        have heq : insertIntoLane step anchor branches = _ := insertIntoLane_eq branches
        cases hi : laneIndex branches (some anchor) with
        | none => simp [placeStep, placeIn, heq, hi]
        | some index =>
          cases hl : branches[index]? with
          | none => simp [placeStep, placeIn, heq, hi, hl]
          | some lane =>
            cases h : insertIntoList lane.2 step (some anchor) <;>
              simp [placeStep, placeIn, heq, hi, hl, h]

theorem placeStep_ne_searching (parent : PipelineStep) (slot : Slot) :
    (placeStep parent slot after step).2 ≠ .searching := by
  rw [placeStep_eq]
  split <;> nofun

end

section

variable {parent : PositionParent} {step : PipelineStep} {after : Option JsString}
  {flag : InsertFlag}

theorem visitInsert_done (hflag : flag ≠ .searching) (steps : List PipelineStep) :
    visitInsert parent after step flag steps = (steps, flag) := by
  induction steps with
  | nil => rfl
  | cons candidate candidates ih => simp only [visitInsert, if_neg hflag, ih]

theorem visitInsertBranches_done (hflag : flag ≠ .searching)
    (branches : List (PipelineCondition × List PipelineStep)) :
    visitInsertBranches parent after step flag branches = (branches, flag) := by
  induction branches with
  | nil => rfl
  | cons branch branches ih => simp only [visitInsertBranches, visitInsert_done hflag, ih]

theorem visitInsertElse_done (hflag : flag ≠ .searching)
    (otherwise : Option (List PipelineStep)) :
    visitInsertElse parent after step flag otherwise = (otherwise, flag) := by
  cases otherwise with
  | none => rfl
  | some steps => simp only [visitInsertElse, visitInsert_done hflag]

variable {placed : PipelineStep}

mutual

/-- The first step of the parent's id is replaced by what `placeStep` makes of it. -/
theorem visitInsert_eq (hflag : flag ≠ .searching) (steps : List PipelineStep)
    (h : ∀ s ∈ walkSteps steps, s.id = parent.stepId →
      placeStep s parent.slot after step = (placed, flag)) :
    visitInsert parent after step .searching steps =
      ((splice parent.stepId [placed] steps).map fun r => (r.1, flag)).getD (steps, .searching) := by
  cases steps with
  | nil => rfl
  | cons candidate candidates =>
    have hhead : ∀ s ∈ candidate.walk, s.id = parent.stepId →
        placeStep s parent.slot after step = (placed, flag) :=
      fun s hs => h s (List.mem_append_left _ hs)
    rw [visitInsert, if_pos rfl, splice]
    by_cases hid : candidate.id = parent.stepId
    · rw [if_pos hid, if_pos hid, hhead candidate candidate.mem_walk hid]
      simp only [visitInsert_done hflag]
      rfl
    · rw [if_neg hid, if_neg hid, visitInsertStep_eq hflag candidate hhead]
      cases spliceStep parent.stepId [placed] candidate with
      | some r =>
        simp only [Option.map_some, Option.getD_some, visitInsert_done hflag]
      | none =>
        simp only [Option.map_none, Option.getD_none,
          visitInsert_eq hflag candidates fun s hs => h s (List.mem_append_right _ hs)]
        cases splice parent.stepId [placed] candidates <;> rfl

theorem visitInsertStep_eq (hflag : flag ≠ .searching) (candidate : PipelineStep)
    (h : ∀ s ∈ candidate.walk, s.id = parent.stepId →
      placeStep s parent.slot after step = (placed, flag)) :
    visitInsertStep parent after step candidate =
      ((spliceStep parent.stepId [placed] candidate).map fun r => (r.1, flag)).getD
        (candidate, .searching) := by
  cases candidate with
  | leaf _ | filter _ | state _ =>
    rw [visitInsertStep, spliceStep]
    rfl
  | forEach head steps =>
    rw [visitInsertStep, spliceStep,
      visitInsert_eq hflag steps fun s hs => h s (List.mem_cons_of_mem _ hs)]
    cases splice parent.stepId [placed] steps <;> rfl
  | branch base branches otherwise =>
    rw [visitInsertStep, spliceStep, visitInsertBranches_eq hflag branches fun s hs =>
      h s (List.mem_cons_of_mem _ (List.mem_append_left _ hs))]
    cases spliceBranches parent.stepId [placed] branches with
    | some r =>
      simp only [Option.map_some, Option.getD_some, visitInsertElse_done hflag]
    | none =>
      simp only [Option.map_none, Option.getD_none, visitInsertElse_eq hflag otherwise fun s hs =>
        h s (List.mem_cons_of_mem _ (List.mem_append_right _ hs))]
      cases spliceElse parent.stepId [placed] otherwise <;> rfl

theorem visitInsertBranches_eq (hflag : flag ≠ .searching)
    (branches : List (PipelineCondition × List PipelineStep))
    (h : ∀ s ∈ walkBranches branches, s.id = parent.stepId →
      placeStep s parent.slot after step = (placed, flag)) :
    visitInsertBranches parent after step .searching branches =
      ((spliceBranches parent.stepId [placed] branches).map fun r => (r.1, flag)).getD
        (branches, .searching) := by
  cases branches with
  | nil => rfl
  | cons branch branches =>
    rcases branch with ⟨condition, steps⟩
    rw [visitInsertBranches, spliceBranches,
      visitInsert_eq hflag steps fun s hs => h s (List.mem_append_left _ hs)]
    cases splice parent.stepId [placed] steps with
    | some r =>
      simp only [Option.map_some, Option.getD_some, visitInsertBranches_done hflag]
    | none =>
      simp only [Option.map_none, Option.getD_none,
        visitInsertBranches_eq hflag branches fun s hs => h s (List.mem_append_right _ hs)]
      cases spliceBranches parent.stepId [placed] branches <;> rfl

theorem visitInsertElse_eq (hflag : flag ≠ .searching) (otherwise : Option (List PipelineStep))
    (h : ∀ s ∈ walkElse otherwise, s.id = parent.stepId →
      placeStep s parent.slot after step = (placed, flag)) :
    visitInsertElse parent after step .searching otherwise =
      ((spliceElse parent.stepId [placed] otherwise).map fun r => (r.1, flag)).getD
        (otherwise, .searching) := by
  cases otherwise with
  | none => rfl
  | some steps =>
    rw [visitInsertElse, spliceElse, visitInsert_eq hflag steps h]
    cases splice parent.stepId [placed] steps <;> rfl

end

end

theorem eq_of_id_eq {a b : PipelineStep} (hu : (allStepIds steps).Nodup) (ha : a ∈ walkSteps steps)
    (hb : b ∈ walkSteps steps) (h : a.id = b.id) : a = b :=
  List.inj_on_of_nodup_map hu ha hb h

theorem insertStepAt_eq {step : PipelineStep} {position : StepPosition}
    (hu : (allStepIds steps).Nodup) :
    insertStepAt steps step position =
      if (insertStep steps step position).2.isNone then some (insertStep steps step position).1
      else none := by
  rcases position with ⟨after, _ | ⟨parentId, slot⟩⟩
  · cases h : insertIntoList steps step after <;> simp [insertStepAt, insertStep, h]
  · cases hfind : findStep steps parentId with
    | none =>
      have hno := findStep_eq_none.mp hfind
      have hnone : ∀ s ∈ walkSteps steps, s.id = parentId →
          placeStep s slot after step = (step, .failed) := fun s hs hid =>
        absurd (List.mem_map.mpr ⟨s, hs, hid⟩) hno
      have hflag : InsertFlag.failed ≠ .searching := nofun
      have hvisit : visitInsert ⟨parentId, slot⟩ after step .searching steps = _ :=
        visitInsert_eq hflag steps hnone
      rw [splice_eq_none.mpr hno] at hvisit
      simp only [insertStepAt, insertStep, hvisit, hfind]
      rfl
    | some found =>
      have hfound : found ∈ walkSteps steps ∧ found.id = parentId :=
        ⟨List.mem_of_find?_eq_some hfind, by simpa using List.find?_some hfind⟩
      have hvisit : visitInsert ⟨parentId, slot⟩ after step .searching steps = _ :=
        visitInsert_eq (placeStep_ne_searching found slot) steps fun s hs hid => by
          rw [eq_of_id_eq hu hs hfound.1 (hid.trans hfound.2.symm)]
      obtain ⟨r, hr⟩ := splice_of_findStep [(placeIn found slot after step).1] hfind
      rw [placeStep_eq] at hvisit
      cases hplace : (placeIn found slot after step).2 with
      | none =>
        simp only [hplace, Option.isNone_none, if_true, hr] at hvisit
        simp only [insertStepAt, insertStep, hvisit, hfind, hplace, replaceStepById, hr]
        rfl
      | some error =>
        simp only [hplace, Option.isNone_some, Bool.false_eq_true, if_false] at hvisit
        simp only [insertStepAt, insertStep, hvisit, hfind, hplace]
        cases splice parentId [found] steps <;> rfl

/-- An insertion puts the segment of the step into the outline. -/
def Inserted (step : PipelineStep) (before after : List PipelineStep) : Prop :=
  Spliced [] [step] before after

theorem inserted_of_insertIntoList {step : PipelineStep} {after : Option JsString}
    {steps' : List PipelineStep} (h : insertIntoList steps step after = some steps') :
    Inserted step (outline steps) (outline steps') := by
  cases after with
  | none =>
    cases h
    exact ⟨[], outline steps, rfl, outline_append [step] steps⟩
  | some anchor =>
    rw [insertIntoList] at h
    split at h
    · cases h
    next index _ =>
      cases h
      refine ⟨outline (steps.take (index + 1)), outline (steps.drop (index + 1)), ?_, ?_⟩
      · rw [← List.take_append_drop (index + 1) steps, outline_append]
        simp [outline, walkSteps]
      · rw [outline_append, outline_cons, outline_singleton, List.append_assoc]

theorem inserted_of_insertIntoLane {step : PipelineStep} {anchor : JsString}
    {branches branches' : List (PipelineCondition × List PipelineStep)}
    (h : insertIntoLane step anchor branches = some branches') :
    Inserted step ((walkBranches branches).map bare) ((walkBranches branches').map bare) ∧
      conditions branches = conditions branches' := by
  induction branches generalizing branches' with
  | nil => cases h
  | cons branch branches ih =>
    rcases branch with ⟨condition, steps⟩
    rw [insertIntoLane] at h
    split at h
    · obtain ⟨steps', hi, rfl⟩ := Option.map_eq_some_iff.mp h
      rw [walkBranches, walkBranches, List.map_append, List.map_append]
      exact ⟨(inserted_of_insertIntoList hi).append_right _, rfl⟩
    · obtain ⟨branches'', hi, rfl⟩ := Option.map_eq_some_iff.mp h
      obtain ⟨hin, hsame⟩ := ih hi
      rw [walkBranches, walkBranches, List.map_append, List.map_append]
      exact ⟨hin.append_left _, congrArg (condition :: ·) hsame⟩

theorem inserted_of_placeIn {parent parent' step : PipelineStep} {slot : Slot}
    {after : Option JsString} (h : placeIn parent slot after step = (parent', none)) :
    Inserted step (outline [parent]) (outline [parent']) ∧ parent'.id = parent.id := by
  rw [outline_singleton, outline_singleton]
  cases parent with
  | leaf _ | filter _ | state _ => cases slot <;> cases h
  | forEach head steps =>
    cases slot with
    | lane | otherwise => cases h
    | body =>
      rw [placeIn] at h
      split at h
      next steps' hi =>
        cases h
        exact ⟨(inserted_of_insertIntoList hi).cons (.forEach head []), rfl⟩
      · cases h
  | branch base branches otherwise =>
    cases slot with
    | body => cases h
    | otherwise =>
      simp only [placeIn] at h
      split at h
      next list hi =>
        cases h
        have hin := inserted_of_insertIntoList hi
        have helse : (walkElse otherwise).map bare = outline (otherwise.getD []) := by
          cases otherwise <;> rfl
        rw [PipelineStep.walk, PipelineStep.walk, List.map_cons, List.map_cons,
          bare_branch rfl, List.map_append, List.map_append, helse]
        exact ⟨(hin.append_left _).cons _, rfl⟩
      · cases h
    | lane =>
      cases after with
      | none =>
        cases branches with
        | nil => cases h
        | cons branch branches =>
          cases h
          rcases branch with ⟨condition, steps⟩
          have hin : Inserted step (outline steps) (outline (step :: steps)) :=
            inserted_of_insertIntoList (rfl : insertIntoList steps step none = _)
          have hbare : bare (.branch base ((condition, steps) :: branches) otherwise) =
              bare (.branch base ((condition, step :: steps) :: branches) otherwise) :=
            bare_branch rfl
          rw [PipelineStep.walk, PipelineStep.walk, List.map_cons, List.map_cons, hbare,
            List.map_append, List.map_append, walkBranches, walkBranches, List.map_append,
            List.map_append]
          exact ⟨((hin.append_right _).append_right _).cons _, rfl⟩
      | some anchor =>
        simp only [placeIn] at h
        split at h
        next branches' hi =>
          cases h
          obtain ⟨hin, hsame⟩ := inserted_of_insertIntoLane hi
          rw [PipelineStep.walk, PipelineStep.walk, List.map_cons, List.map_cons,
            bare_branch hsame, List.map_append, List.map_append]
          exact ⟨(hin.append_right _).cons _, rfl⟩
        · cases h

theorem outline_insertStep {step : PipelineStep} {position : StepPosition}
    {steps' : List PipelineStep} (h : insertStep steps step position = (steps', none)) :
    Inserted step (outline steps) (outline steps') := by
  rcases position with ⟨after, _ | ⟨parentId, slot⟩⟩
  · simp only [insertStep] at h
    split at h
    next steps'' hi =>
      cases h
      exact inserted_of_insertIntoList hi
    · cases h
  · simp only [insertStep] at h
    split at h
    · cases h
    next parent hfind =>
      obtain ⟨steps'', hr⟩ := splice_of_findStep [(placeIn parent slot after step).1] hfind
      obtain ⟨hsteps, herror⟩ := Prod.mk.inj h
      obtain ⟨⟨a, b, hin, hin'⟩, -⟩ := inserted_of_placeIn (Prod.ext rfl herror :
        placeIn parent slot after step = ((placeIn parent slot after step).1, none))
      obtain ⟨⟨pre, post, hbefore, hafter⟩, -⟩ := spliced_of_splice steps hr
      rw [replaceStepById, hr] at hsteps
      subst hsteps
      refine ⟨pre ++ a, b ++ post, ?_, ?_⟩
      · rw [hbefore, hin]
        simp
      · rw [hafter, hin']
        simp

/-! ## Removal -/

theorem visitRemove_found {found : PipelineStep} (steps : List PipelineStep)
    (h : stepId ∉ allStepIds steps) :
    visitRemove stepId (some found) steps = (steps, some found) := by
  induction steps with
  | nil => rfl
  | cons step steps ih =>
    have hid : step.id ≠ stepId := fun hid =>
      h (List.mem_map.mpr ⟨step, List.mem_append_left _ step.mem_walk, hid⟩)
    have hrest : stepId ∉ allStepIds steps := fun hmem =>
      h (by rw [allStepIds, walkSteps, List.map_append]; exact List.mem_append_right _ hmem)
    simp only [visitRemove, if_neg hid, ih hrest]

theorem visitRemoveBranches_found {found : PipelineStep}
    (branches : List (PipelineCondition × List PipelineStep))
    (h : stepId ∉ (walkBranches branches).map PipelineStep.id) :
    visitRemoveBranches stepId (some found) branches = (branches, some found) := by
  induction branches with
  | nil => rfl
  | cons branch branches ih =>
    rcases branch with ⟨condition, steps⟩
    rw [walkBranches, List.map_append, List.mem_append, not_or] at h
    simp only [visitRemoveBranches, visitRemove_found steps h.1, ih h.2]

theorem mem_of_spliceStep {step : PipelineStep} {r : PipelineStep × PipelineStep}
    (h : spliceStep stepId news step = some r) : stepId ∈ step.walk.map PipelineStep.id := by
  obtain ⟨⟨pre, post, hwalk, -⟩, hid⟩ := spliced_of_spliceStep step h
  have hids : step.walk.map PipelineStep.id = (step.walk.map bare).map PipelineStep.id := by
    rw [List.map_map]
    exact List.map_congr_left fun s _ => (bare_id s).symm
  have hfound : r.2.id ∈ (outline [r.2]).map PipelineStep.id := by
    rw [← allStepIds_eq]
    exact List.mem_map.mpr ⟨r.2, List.mem_append_left _ r.2.mem_walk, rfl⟩
  rw [hids, hwalk, List.map_append, List.map_append, ← hid]
  exact List.mem_append_left _ (List.mem_append_right _ hfound)

mutual

/-- Where no id stands twice, the step is taken out where it is located. -/
theorem visitRemove_eq (steps : List PipelineStep) (hu : (allStepIds steps).Nodup) :
    visitRemove stepId none steps =
      ((splice stepId [] steps).map fun r => (r.1, some r.2)).getD (steps, none) := by
  cases steps with
  | nil => rfl
  | cons step steps =>
    rw [allStepIds, walkSteps, List.map_append, List.nodup_append] at hu
    obtain ⟨hstep, hrest, hapart⟩ := hu
    rw [visitRemove, splice]
    by_cases hid : step.id = stepId
    · have hno : stepId ∉ allStepIds steps := fun hmem =>
        hapart stepId (List.mem_map.mpr ⟨step, step.mem_walk, hid⟩) stepId hmem rfl
      rw [if_pos hid, if_pos hid, visitRemove_found steps hno]
      rfl
    · simp only [if_neg hid, visitRemoveStep_eq step hstep]
      cases hs : spliceStep stepId [] step with
      | some r =>
        have hno : stepId ∉ allStepIds steps := fun hmem =>
          hapart stepId (mem_of_spliceStep hs) stepId hmem rfl
        simp only [Option.map_some, Option.getD_some, visitRemove_found steps hno]
      | none =>
        simp only [Option.map_none, Option.getD_none, visitRemove_eq steps hrest]
        cases splice stepId [] steps <;> rfl

theorem visitRemoveStep_eq (step : PipelineStep) (hu : (step.walk.map PipelineStep.id).Nodup) :
    visitRemoveStep stepId step =
      ((spliceStep stepId [] step).map fun r => (r.1, some r.2)).getD (step, none) := by
  cases step with
  | leaf _ | filter _ | state _ =>
    rw [visitRemoveStep, spliceStep]
    rfl
  | forEach head steps =>
    rw [PipelineStep.walk, List.map_cons, List.nodup_cons] at hu
    rw [visitRemoveStep, spliceStep, visitRemove_eq steps hu.2]
    cases splice stepId [] steps <;> rfl
  | branch base branches otherwise =>
    rw [PipelineStep.walk, List.map_cons, List.nodup_cons, List.map_append, List.nodup_append] at hu
    rw [visitRemoveStep, spliceStep, visitRemoveBranches_eq branches hu.2.1]
    cases spliceBranches stepId [] branches with
    | some r => rfl
    | none =>
      simp only [Option.map_none, Option.getD_none, visitRemoveElse_eq otherwise hu.2.2.1]
      cases spliceElse stepId [] otherwise <;> rfl

theorem visitRemoveBranches_eq (branches : List (PipelineCondition × List PipelineStep))
    (hu : ((walkBranches branches).map PipelineStep.id).Nodup) :
    visitRemoveBranches stepId none branches =
      ((spliceBranches stepId [] branches).map fun r => (r.1, some r.2)).getD (branches, none) := by
  cases branches with
  | nil => rfl
  | cons branch branches =>
    rcases branch with ⟨condition, steps⟩
    rw [walkBranches, List.map_append, List.nodup_append] at hu
    obtain ⟨hsteps, hrest, hapart⟩ := hu
    rw [visitRemoveBranches, spliceBranches, visitRemove_eq steps hsteps]
    cases hs : splice stepId [] steps with
    | some r =>
      have hno : stepId ∉ (walkBranches branches).map PipelineStep.id := fun hmem =>
        hapart stepId (mem_of_splice hs) stepId hmem rfl
      simp only [Option.map_some, Option.getD_some, visitRemoveBranches_found branches hno]
    | none =>
      simp only [Option.map_none, Option.getD_none, visitRemoveBranches_eq branches hrest]
      cases spliceBranches stepId [] branches <;> rfl

theorem visitRemoveElse_eq (otherwise : Option (List PipelineStep))
    (hu : ((walkElse otherwise).map PipelineStep.id).Nodup) :
    visitRemoveElse stepId otherwise =
      ((spliceElse stepId [] otherwise).map fun r => (r.1, some r.2)).getD (otherwise, none) := by
  cases otherwise with
  | none => rfl
  | some steps =>
    rw [visitRemoveElse, spliceElse, visitRemove_eq steps hu]
    cases splice stepId [] steps <;> rfl

end

theorem removeStepFromTree_eq (hu : (allStepIds steps).Nodup) :
    removeStepFromTree steps stepId =
      ((removeStepById steps stepId).map fun r => (r.1, some r.2)).getD (steps, none) := by
  rw [removeStepFromTree, visitRemove_eq steps hu, removeStepById]
  cases splice stepId [] steps <;> rfl

end InvisibleString.Copilot
