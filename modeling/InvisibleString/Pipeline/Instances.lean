import InvisibleString.Pipeline.History

/- # `Pipeline.Instances` — what the drivers of a run do with one instance

The invariant of a run's trail, over any number of drivers (`Sound`): every row stands for a
step of the config, an executor was called with the input its row records and, for a tool
step that must not be repeated, by the driver that claimed it; an instance that was finished
is not worked on again; a loop's items are those its row records, in order.
-/

namespace InvisibleString.Pipeline

open EventLoop Json Relation

/-! ## What a row records -/

/-- The array a loop's row records. -/
def claimedItems (row : RunStepRow) : Option (List JsonValue) :=
  asArray (row.input.bind (member? (ascii "items")))

/-- The kinds an executor is called for. -/
def StepKind.leaf : StepKind → Bool
  | .tool | .infer | .agent => true
  | .forEach | .branch | .filter | .state => false

/-- The row stands for an instance of `s`. -/
structure RowOf (s : PipelineStep) (row : RunStepRow) : Prop where
  stepId : row.stepId = s.id
  kind : row.kind = s.kind
  segment : lastSegment row.path = s.id
  input : row.kind.leaf = true → row.status ≠ .skipped → row.input ≠ none
  /-- the resolution of a loop is recorded -/
  resolution : ∀ head body, s = .forEach head body → row.status ≠ .skipped →
    ∃ resolved, row.input = some ((resolveItems head resolved).input head)
  parked : row.status = .waiting → row.kind = .agent

/-! ## Deeds -/

/-- The deed works on the instance at its path; a refusal does not. -/
def Deed.works : Deed → Bool
  | .halted _ _ => false
  | _ => true

def Deed.item? (path : JsString) : Deed → Option (Nat × JsonValue × ScopeSteps)
  | .item p index x steps => if p = path then some (index, x, steps) else none
  | _ => none

/-- The items driver `k` started in the loop at `path`. -/
def itemDeeds (k : Nat) (path : JsString) (log : List (Nat × Deed)) :
    List (Nat × JsonValue × ScopeSteps) :=
  log.filterMap fun e => if e.1 = k then e.2.item? path else none

/-- The items of a whole loop, each with its index, all in the same scope. -/
def loopItems (items : List JsonValue) (steps : ScopeSteps) :
    List (Nat × JsonValue × ScopeSteps) :=
  items.mapIdx fun index item => (index, item, steps)

theorem itemDeeds_append (k : Nat) (path : JsString) (l l' : List (Nat × Deed)) :
    itemDeeds k path (l ++ l') = itemDeeds k path l ++ itemDeeds k path l' :=
  List.filterMap_append

theorem item?_of_path_ne {path : JsString} {deed : Deed} (h : deed.path ≠ path) :
    deed.item? path = none := by
  cases deed with
  | item p index item steps => exact if_neg h
  | _ => rfl

/-- Deeds elsewhere start no item of this loop. -/
theorem itemDeeds_eq_nil {k : Nat} {path : JsString} {l : List (Nat × Deed)}
    (h : ∀ e ∈ l, e.1 = k → e.2.path ≠ path) : itemDeeds k path l = [] := by
  rw [itemDeeds, List.filterMap_eq_nil_iff]
  intro e he
  split
  · next hk => exact item?_of_path_ne (h e he hk)
  · rfl

theorem loopItems_append (items items' : List JsonValue) (steps : ScopeSteps) :
    loopItems (items ++ items') steps =
      loopItems items steps ++
        items'.mapIdx fun index item => (index + items.length, item, steps) :=
  List.mapIdx_append

theorem loopItems_concat (items : List JsonValue) (item : JsonValue) (steps : ScopeSteps) :
    loopItems (items ++ [item]) steps = loopItems items steps ++ [(items.length, item, steps)] := by
  rw [loopItems_append, List.mapIdx_singleton, Nat.zero_add]

theorem loopItems_grows (items rest : List JsonValue) (steps : ScopeSteps) :
    loopItems items steps <+: loopItems (items ++ rest) steps :=
  ⟨_, (loopItems_append items rest steps).symm⟩

/-! ## The invariant -/

/-- The loop at the row's path went through its items. -/
def LoopDone (t : Trail) (row : RunStepRow) : Prop :=
  ∃ k items steps records, claimedItems row = some items ∧
    itemDeeds k row.path t.log = loopItems items steps ∧
    records.map ItemRecord.index = List.range items.length ∧
    row.output = some (aggregate items records)

structure Sound (config : WorkflowConfig) (t : Trail) : Prop where
  row : ∀ row ∈ t.steps, ∃ s ∈ walkSteps config.steps, RowOf s row
  nodup : t.steps.paths.Nodup
  /-- every row was claimed by one driver, with the input it has -/
  claimed : ∀ row ∈ t.steps, ∃ k, (k, .claimed row.path row.input) ∈ t.log
  claimed_row : ∀ k p x, (k, .claimed p x) ∈ t.log →
    ∃ row, t.steps.row? p = some row ∧ row.input = x
  claimed_once : ∀ k k' p x x', (k, .claimed p x) ∈ t.log → (k', .claimed p x') ∈ t.log → k = k'
  invoked : ∀ k call, (k, .invoked call) ∈ t.log →
    ∃ k₀, (k₀, .claimed call.path (some call.input)) ∈ t.log ∧
      (call.step.atMostOnce = true → k₀ = k)
  finished : ∀ k p, (k, .finished p) ∈ t.log →
    ∃ row, t.steps.row? p = some row ∧ row.status.terminal = true
  settled : t.log.Pairwise fun a b =>
    ∀ p, a.2 = .finished p → b.2.path = p → b.2.works = false
  items : ∀ k p, itemDeeds k p t.log ≠ [] → ∃ row items steps,
    t.steps.row? p = some row ∧ claimedItems row = some items ∧
      itemDeeds k p t.log <+: loopItems items steps
  loops : ∀ row ∈ t.steps, row.kind = .forEach → row.status = .succeeded → LoopDone t row

/-- The row at `path` is there, is not terminal, and records `input`. -/
def OpenRow (path : JsString) (input : Option JsonValue) (t : Trail) : Prop :=
  ∃ row, t.steps.row? path = some row ∧ row.status.terminal = false ∧ row.input = input

/-- From `t` to `t'` the drivers touched only instances in `A`, in the present incarnation. -/
structure Within (A : JsString → Prop) (t t' : Trail) : Prop where
  incarnation : t'.incarnation = t.incarnation
  rows : ∀ q, ¬ A q → t'.steps.row? q = t.steps.row? q
  log : ∃ l, t'.log = t.log ++ l ∧ ∀ e ∈ l, e.1 = t.incarnation ∧ A e.2.path

/-- The present driver did nothing with the instances in `A` so far. -/
def Untouched (A : JsString → Prop) (t : Trail) : Prop :=
  ∀ e ∈ t.log, e.1 = t.incarnation → ¬ A e.2.path

variable {config : WorkflowConfig} {t t' t'' : Trail} {A B : JsString → Prop}
  {path : JsString} {input : Option JsonValue}

theorem Within.refl (A : JsString → Prop) (t : Trail) : Within A t t where
  incarnation := rfl
  rows _ _ := rfl
  log := ⟨[], (List.append_nil _).symm, fun _ he => absurd he List.not_mem_nil⟩

theorem Within.mono (h : Within A t t') (hAB : ∀ q, A q → B q) : Within B t t' where
  incarnation := h.incarnation
  rows q hq := h.rows q fun ha => hq (hAB q ha)
  log := by
    obtain ⟨l, hl, hA⟩ := h.log
    exact ⟨l, hl, fun e he => ⟨(hA e he).1, hAB _ (hA e he).2⟩⟩

theorem Within.trans (h : Within A t t') (h' : Within A t' t'') : Within A t t'' where
  incarnation := h'.incarnation.trans h.incarnation
  rows q hq := (h'.rows q hq).trans (h.rows q hq)
  log := by
    obtain ⟨l, hl, hA⟩ := h.log
    obtain ⟨l', hl', hA'⟩ := h'.log
    refine ⟨l ++ l', by rw [hl', hl, List.append_assoc], fun e he => ?_⟩
    rcases List.mem_append.mp he with he | he
    · exact hA e he
    · exact ⟨(hA' e he).1.trans h.incarnation, (hA' e he).2⟩

/-- A deed on an instance in `A`. -/
theorem Within.record {deed : Deed} (hA : A deed.path) : Within A t (t.record deed) where
  incarnation := rfl
  rows _ _ := rfl
  log := ⟨[(t.incarnation, deed)], rfl, fun e he => by
    rw [List.mem_singleton.mp he]
    exact ⟨rfl, hA⟩⟩

theorem Within.update {f : RunStepRow → RunStepRow} (hf : ∀ row, (f row).path = row.path)
    (hA : A path) : Within A t { t with steps := t.steps.update path f } where
  incarnation := rfl
  rows _ hq := Ledger.row?_update_ne hf fun h => hq (h ▸ hA)
  log := ⟨[], (List.append_nil _).symm, fun _ he => absurd he List.not_mem_nil⟩

theorem Within.finish (hA : A path) (patch : FinishStepPatch) :
    Within A t (t.finish path patch) := by
  have hu : Within A t { t with steps := t.steps.update path patch.apply } :=
    Within.update (fun _ => rfl) hA
  exact hu.trans (Within.record hA)

theorem Within.claimed {i : ClaimStepInput} (hA : A i.path) :
    Within A t ({ t with steps := t.steps ++ [RunStepRow.claimed i] }.record
      (Deed.claimed i.path i.input)) where
  incarnation := rfl
  rows q hq := by
    show Ledger.row? (t.steps ++ [RunStepRow.claimed i]) q = _
    cases hr : t.steps.row? q with
    | some row => exact Ledger.row?_append_left hr
    | none =>
      rw [Ledger.row?_append (Ledger.row?_eq_none.mp hr), Ledger.row?_cons_ne]
      · rfl
      · rintro rfl
        exact hq hA
  log := ⟨[(t.incarnation, .claimed i.path i.input)], rfl, fun e he => by
    rw [List.mem_singleton.mp he]
    exact ⟨rfl, hA⟩⟩

theorem Untouched.within (h : Untouched A t) (hw : Within B t t') (hAB : ∀ q, A q → ¬ B q) :
    Untouched A t' := by
  obtain ⟨l, hl, hB⟩ := hw.log
  intro e he hk ha
  rw [hl] at he
  rcases List.mem_append.mp he with he | he
  · exact h e he (hk.trans hw.incarnation) ha
  · exact hAB _ ha (hB e he).2

theorem Untouched.mono (h : Untouched B t) (hAB : ∀ q, A q → B q) : Untouched A t :=
  fun e he hk ha => h e he hk (hAB _ ha)

/-! ## The statements keep the invariant -/

theorem Sound.fresh (k : Nat) : Sound config ⟨[], k, []⟩ where
  row _ h := absurd h List.not_mem_nil
  nodup := List.nodup_nil
  claimed _ h := absurd h List.not_mem_nil
  claimed_row _ _ _ h := absurd h List.not_mem_nil
  claimed_once _ _ _ _ _ h := absurd h List.not_mem_nil
  invoked _ _ h := absurd h List.not_mem_nil
  finished _ _ h := absurd h List.not_mem_nil
  settled := List.Pairwise.nil
  items _ _ h := absurd rfl h
  loops _ h := absurd h List.not_mem_nil

theorem Sound.not_finished (h : Sound config t) (ho : OpenRow path input t) (k : Nat) :
    (k, .finished path) ∉ t.log := by
  intro hf
  obtain ⟨row, hr, ht⟩ := h.finished k path hf
  obtain ⟨row', hr', ht', -⟩ := ho
  rw [hr, Option.some.injEq] at hr'
  rw [hr', ht'] at ht
  exact Bool.false_ne_true ht

theorem Sound.update {f : RunStepRow → RunStepRow} (h : Sound config t)
    (ho : OpenRow path input t)
    (hf : ∀ row, (f row).path = row.path ∧ (f row).stepId = row.stepId ∧
      (f row).kind = row.kind ∧ (f row).input = row.input)
    (hpark : ∀ row, t.steps.row? path = some row → (f row).status = .waiting →
      row.kind = .agent)
    (hloop : ∀ row, t.steps.row? path = some row → row.kind = .forEach →
      (f row).status = .succeeded → LoopDone t (f row)) :
    Sound config { t with steps := t.steps.update path f } := by
  obtain ⟨row₀, hr₀, ht₀, hi₀⟩ := ho
  have hpath : ∀ row, (f row).path = row.path := fun row => (hf row).1
  have hget : ∀ q row, t.steps.row? q = some row →
      (t.steps.update path f).row? q = some (if q = path then f row else row) := by
    intro q row hq
    rw [Ledger.row?_update hpath, hq]
    split
    · rfl
    · rfl
  have hitems : ∀ row, claimedItems (f row) = claimedItems row := by
    intro row
    rw [claimedItems, claimedItems, (hf row).2.2.2]
  have hmem : ∀ row ∈ t.steps.update path f, ∃ row' ∈ t.steps,
      row = if row'.path = path then f row' else row' := by
    intro row hrow
    obtain ⟨row', hr', rfl⟩ := List.mem_map.mp hrow
    exact ⟨row', hr', rfl⟩
  have hself : ∀ row ∈ t.steps, row.path = path → t.steps.row? path = some row :=
    fun row hrow hp => hp ▸ Ledger.row?_of_mem h.nodup hrow
  refine ⟨?_, ?_, ?_, ?_, h.claimed_once, h.invoked, ?_, h.settled, ?_, ?_⟩
  · intro row hrow
    obtain ⟨row', hr', rfl⟩ := hmem row hrow
    obtain ⟨s, hs, hof⟩ := h.row row' hr'
    refine ⟨s, hs, ?_⟩
    split
    · next hp =>
      have hr := hself row' hr' hp
      rw [hr₀, Option.some.injEq] at hr
      have hopen : row'.status ≠ .skipped := by
        rw [← hr]
        intro hsk
        rw [hsk] at ht₀
        exact Bool.noConfusion ht₀
      obtain ⟨hfp, hfs, hfk, hfi⟩ := hf row'
      refine ⟨hfs.trans hof.stepId, hfk.trans hof.kind, by rw [hfp, hof.segment], ?_, ?_, ?_⟩
      · intro hleaf _
        rw [hfi]
        exact hof.input (hfk ▸ hleaf) hopen
      · intro head body hbody _
        rw [hfi]
        exact hof.resolution head body hbody hopen
      · intro hw
        rw [hfk]
        exact hpark row' (hself row' hr' hp) hw
    · exact hof
  · show (t.steps.update path f).paths.Nodup
    rw [Ledger.paths_update hpath]
    exact h.nodup
  · intro row hrow
    obtain ⟨row', hr', rfl⟩ := hmem row hrow
    obtain ⟨k, hk⟩ := h.claimed row' hr'
    refine ⟨k, ?_⟩
    split
    · rw [(hf row').1, (hf row').2.2.2]
      exact hk
    · exact hk
  · intro k p x hp
    obtain ⟨row, hr, hi⟩ := h.claimed_row k p x hp
    refine ⟨_, hget p row hr, ?_⟩
    split
    · rw [(hf row).2.2.2, hi]
    · exact hi
  · intro k p hp
    have hne : p ≠ path := by
      rintro rfl
      exact h.not_finished ⟨row₀, hr₀, ht₀, hi₀⟩ k hp
    obtain ⟨row, hr, ht⟩ := h.finished k p hp
    exact ⟨row, (Ledger.row?_update_ne hpath hne).trans hr, ht⟩
  · intro k p hne
    obtain ⟨row, items, steps, hr, hi, hpre⟩ := h.items k p hne
    refine ⟨_, items, steps, hget p row hr, ?_, hpre⟩
    split
    · rw [hitems, hi]
    · exact hi
  · intro row hrow hk hs
    obtain ⟨row', hr', rfl⟩ := hmem row hrow
    by_cases hp : row'.path = path
    · rw [if_pos hp] at hk hs ⊢
      exact hloop row' (hself row' hr' hp) ((hf row').2.2.1 ▸ hk) hs
    · rw [if_neg hp] at hk hs ⊢
      exact h.loops row' hr' hk hs

theorem Sound.record {deed : Deed} (h : Sound config t) (hclaim : ∀ p x, deed ≠ .claimed p x)
    (hfresh : deed.works = true → ∀ k, (k, .finished deed.path) ∉ t.log)
    (hinvoked : ∀ call, deed = .invoked call →
      ∃ k₀, (k₀, .claimed call.path (some call.input)) ∈ t.log ∧
        (call.step.atMostOnce = true → k₀ = t.incarnation))
    (hfinished : ∀ p, deed = .finished p →
      ∃ row, t.steps.row? p = some row ∧ row.status.terminal = true)
    (hitem : ∀ p i x s, deed = .item p i x s → ∃ row items steps,
      t.steps.row? p = some row ∧ row.status.terminal = false ∧ claimedItems row = some items ∧
        itemDeeds t.incarnation p t.log ++ [(i, x, s)] <+: loopItems items steps) :
    Sound config (t.record deed) := by
  have hmem : ∀ {e}, e ∈ (t.record deed).log → e ∈ t.log ∨ e = (t.incarnation, deed) := by
    intro e he
    rcases List.mem_append.mp he with he | he
    · exact Or.inl he
    · exact Or.inr (List.mem_singleton.mp he)
  have hold : ∀ {e}, e ∈ t.log → e ∈ (t.record deed).log := fun he => List.mem_append_left _ he
  have hdeeds : ∀ k p, itemDeeds k p (t.record deed).log =
      itemDeeds k p t.log ++ itemDeeds k p [(t.incarnation, deed)] :=
    fun k p => itemDeeds_append k p _ _
  have hlast : ∀ k p, itemDeeds k p [(t.incarnation, deed)] ≠ [] →
      k = t.incarnation ∧ ∃ i x s, deed = .item p i x s ∧
        itemDeeds k p [(t.incarnation, deed)] = [(i, x, s)] := by
    intro k p hne
    by_cases hk : t.incarnation = k
    · subst hk
      cases deed with
      | item q i x s =>
        by_cases hq : q = p
        · subst hq
          refine ⟨rfl, i, x, s, rfl, ?_⟩
          simp [itemDeeds, Deed.item?]
        · exact absurd (by simp [itemDeeds, Deed.item?, hq]) hne
      | _ => exact absurd (by simp [itemDeeds, Deed.item?]) hne
    · exact absurd (by simp [itemDeeds, hk]) hne
  refine ⟨h.row, h.nodup, ?_, ?_, ?_, ?_, ?_, ?_, ?_, ?_⟩
  · intro row hrow
    obtain ⟨k, hk⟩ := h.claimed row hrow
    exact ⟨k, hold hk⟩
  · intro k p x hp
    rcases hmem hp with hp | hp
    · exact h.claimed_row k p x hp
    · exact absurd (Prod.mk.inj hp).2.symm (hclaim p x)
  · intro k k' p x x' hp hp'
    rcases hmem hp with hp | hp
    · rcases hmem hp' with hp' | hp'
      · exact h.claimed_once k k' p x x' hp hp'
      · exact absurd (Prod.mk.inj hp').2.symm (hclaim p x')
    · exact absurd (Prod.mk.inj hp).2.symm (hclaim p x)
  · intro k call hc
    rcases hmem hc with hc | hc
    · obtain ⟨k₀, hk₀, ha⟩ := h.invoked k call hc
      exact ⟨k₀, hold hk₀, ha⟩
    · obtain ⟨rfl, hd⟩ := Prod.mk.inj hc
      obtain ⟨k₀, hk₀, ha⟩ := hinvoked call hd.symm
      exact ⟨k₀, hold hk₀, ha⟩
  · intro k p hp
    rcases hmem hp with hp | hp
    · exact h.finished k p hp
    · exact hfinished p (Prod.mk.inj hp).2.symm
  · show (t.log ++ [(t.incarnation, deed)]).Pairwise _
    rw [List.pairwise_append]
    refine ⟨h.settled, List.pairwise_singleton _ _, ?_⟩
    intro a ha b hb p hap hbp
    rw [List.mem_singleton.mp hb] at hbp ⊢
    by_contra hw
    refine hfresh (by simpa using hw) a.1 ?_
    have haeq : a = (a.1, .finished deed.path) := Prod.ext rfl (by rw [hap, ← hbp])
    exact haeq ▸ ha
  · intro k p hne
    rw [hdeeds] at hne ⊢
    by_cases hl : itemDeeds k p [(t.incarnation, deed)] = []
    · rw [hl, List.append_nil] at hne ⊢
      exact h.items k p hne
    · obtain ⟨rfl, i, x, s, hd, hx⟩ := hlast k p hl
      obtain ⟨row, items, steps, hr, -, hi, hpre⟩ := hitem p i x s hd
      rw [hx]
      exact ⟨row, items, steps, hr, hi, hpre⟩
  · intro row hrow hk hs
    obtain ⟨k, items, steps, records, hi, hit, hrec, hout⟩ := h.loops row hrow hk hs
    refine ⟨k, items, steps, records, hi, ?_, hrec, hout⟩
    rw [hdeeds, hit]
    by_cases hl : itemDeeds k row.path [(t.incarnation, deed)] = []
    · rw [hl, List.append_nil]
    · -- an item of a loop that is done
      obtain ⟨rfl, i, x, s, hd, -⟩ := hlast k row.path hl
      obtain ⟨row', -, -, hr, hopen, -⟩ := hitem _ i x s hd
      rw [Ledger.row?_of_mem h.nodup hrow, Option.some.injEq] at hr
      rw [← hr, hs] at hopen
      exact Bool.noConfusion hopen

theorem Sound.claim {i : ClaimStepInput} {s : PipelineStep} (h : Sound config t)
    (hs : s ∈ walkSteps config.steps) (hof : RowOf s (.claimed i))
    (hnot : i.status ≠ .succeeded) : Sound config (t.claim i) := by
  by_cases hmem : i.path ∈ t.steps.paths
  · cases hrow : t.steps.row? i.path with
    | none => exact absurd hmem (Ledger.row?_eq_none.mp hrow)
    | some row =>
      rw [(Trail.claim_of_mem hrow).1]
      exact h
  rw [(Trail.claim_of_not_mem hmem).1]
  have hget : ∀ {q row}, t.steps.row? q = some row →
      (t.steps ++ [RunStepRow.claimed i]).row? q = some row := fun h => Ledger.row?_append_left h
  have hlog : ∀ {e}, e ∈ t.log ++ [(t.incarnation, Deed.claimed i.path i.input)] →
      e ∈ t.log ∨ e = (t.incarnation, .claimed i.path i.input) := by
    intro e he
    rcases List.mem_append.mp he with he | he
    · exact Or.inl he
    · exact Or.inr (List.mem_singleton.mp he)
  have hitems : ∀ k p, itemDeeds k p (t.log ++ [(t.incarnation, Deed.claimed i.path i.input)]) =
      itemDeeds k p t.log := by
    intro k p
    rw [itemDeeds_append]
    simp [itemDeeds, Deed.item?]
  have hclaims : ∀ k x, (k, Deed.claimed i.path x) ∉ t.log := by
    intro k x hk
    obtain ⟨row, hr, -⟩ := h.claimed_row k _ x hk
    rw [← (Ledger.row?_some hr).2] at hmem
    exact hmem (List.mem_map_of_mem (Ledger.row?_some hr).1)
  have hself : (t.steps ++ [RunStepRow.claimed i]).row? i.path = some (.claimed i) := by
    rw [Ledger.row?_append hmem]
    exact Ledger.row?_cons_self rfl
  refine ⟨?_, ?_, ?_, ?_, ?_, ?_, ?_, ?_, ?_, ?_⟩
  · intro row hrow
    rcases List.mem_append.mp hrow with hrow | hrow
    · exact h.row row hrow
    · rw [List.mem_singleton.mp hrow]
      exact ⟨s, hs, hof⟩
  · show (Ledger.paths (t.steps ++ [RunStepRow.claimed i])).Nodup
    rw [Ledger.paths, List.map_append, List.nodup_append]
    refine ⟨h.nodup, List.nodup_singleton _, ?_⟩
    rintro p hp q hq rfl
    rw [List.mem_singleton.mp hq] at hp
    exact hmem hp
  · intro row hrow
    rcases List.mem_append.mp hrow with hrow | hrow
    · obtain ⟨k, hk⟩ := h.claimed row hrow
      exact ⟨k, List.mem_append_left _ hk⟩
    · rw [List.mem_singleton.mp hrow]
      exact ⟨t.incarnation, List.mem_append_right _ (List.mem_singleton_self _)⟩
  · intro k p x hp
    rcases hlog hp with hp | hp
    · obtain ⟨row, hr, hi⟩ := h.claimed_row k p x hp
      exact ⟨row, hget hr, hi⟩
    · obtain ⟨rfl, rfl⟩ := Deed.claimed.inj (Prod.mk.inj hp).2
      exact ⟨_, hself, rfl⟩
  · intro k k' p x x' hp hp'
    rcases hlog hp with hp | hp
    · rcases hlog hp' with hp' | hp'
      · exact h.claimed_once k k' p x x' hp hp'
      · obtain ⟨rfl, -⟩ := Deed.claimed.inj (Prod.mk.inj hp').2
        exact absurd hp (hclaims k x)
    · rcases hlog hp' with hp' | hp'
      · obtain ⟨rfl, -⟩ := Deed.claimed.inj (Prod.mk.inj hp).2
        exact absurd hp' (hclaims k' x')
      · exact (Prod.mk.inj hp).1.trans (Prod.mk.inj hp').1.symm
  · intro k call hc
    rcases hlog hc with hc | hc
    · obtain ⟨k₀, hk₀, ha⟩ := h.invoked k call hc
      exact ⟨k₀, List.mem_append_left _ hk₀, ha⟩
    · exact absurd (Prod.mk.inj hc).2 (by simp)
  · intro k p hp
    rcases hlog hp with hp | hp
    · obtain ⟨row, hr, ht⟩ := h.finished k p hp
      exact ⟨row, hget hr, ht⟩
    · exact absurd (Prod.mk.inj hp).2 (by simp)
  · show (t.log ++ [(t.incarnation, Deed.claimed i.path i.input)]).Pairwise _
    rw [List.pairwise_append]
    refine ⟨h.settled, List.pairwise_singleton _ _, ?_⟩
    intro a ha b hb p hap hbp
    rw [List.mem_singleton.mp hb] at hbp
    obtain ⟨row, hr, -⟩ := h.finished a.1 p (by rw [← hap]; exact ha)
    refine absurd ?_ hmem
    have hp : i.path = p := hbp
    rw [hp, ← (Ledger.row?_some hr).2]
    exact List.mem_map_of_mem (Ledger.row?_some hr).1
  · intro k p hne
    have hne' : itemDeeds k p t.log ≠ [] := fun hnil => hne ((hitems k p).trans hnil)
    obtain ⟨row, items, steps, hr, hi, hpre⟩ := h.items k p hne'
    refine ⟨row, items, steps, hget hr, hi, ?_⟩
    show itemDeeds k p (t.log ++ [(t.incarnation, Deed.claimed i.path i.input)]) <+: _
    rwa [hitems]
  · intro row hrow hk hsucc
    rcases List.mem_append.mp hrow with hrow | hrow
    · obtain ⟨k, items, steps, records, hi, hit, hrest⟩ := h.loops row hrow hk hsucc
      exact ⟨k, items, steps, records, hi, (hitems _ _).trans hit, hrest⟩
    · rw [List.mem_singleton.mp hrow] at hsucc
      exact absurd hsucc hnot

/-- Finishing an open row; a loop that succeeds went through its items. -/
theorem Sound.finish {patch : FinishStepPatch} (h : Sound config t)
    (ho : OpenRow path input t) (hterm : patch.status.terminal = true)
    (hloop : ∀ row, t.steps.row? path = some row → row.kind = .forEach →
      patch.status = .succeeded → LoopDone t (patch.apply row)) :
    Sound config (t.finish path patch) := by
  have hnot := fun k => h.not_finished ho k
  obtain ⟨row, hr, -, -⟩ := id ho
  have hu : Sound config { t with steps := t.steps.update path patch.apply } := by
    refine h.update ho (fun row => ⟨rfl, rfl, rfl, rfl⟩) ?_ hloop
    intro row _ hw
    have hw : patch.status = .waiting := hw
    rw [hw] at hterm
    exact absurd hterm (by decide)
  refine hu.record (fun _ _ h => by cases h) (fun _ k => hnot k) (fun _ h => by cases h) ?_
    (fun _ _ _ _ h => by cases h)
  rintro p ⟨⟩
  exact ⟨patch.apply row, Ledger.row?_update_some (f := patch.apply) (fun _ => rfl) hr, hterm⟩

/-- A deed other than an executor call or an item, on an instance whose row is open. -/
theorem Sound.executed (h : Sound config t) (ho : OpenRow path input t) :
    Sound config (t.record (.executed path)) :=
  h.record (fun _ _ h => by cases h) (fun _ k => h.not_finished ho k) (fun _ h => by cases h)
    (fun _ h => by cases h) (fun _ _ _ _ h => by cases h)

theorem Sound.halted (h : Sound config t) (path : JsString) (limit : RunLimit) :
    Sound config (t.record (.halted path limit)) :=
  h.record (fun _ _ h => by cases h) (fun h => by cases h) (fun _ h => by cases h)
    (fun _ h => by cases h) (fun _ _ _ _ h => by cases h)

/-- An executor call with the input the row records; the row of a step that must not be
repeated was claimed by the present driver. -/
theorem Sound.invoke {call : Invocation} (h : Sound config t)
    (ho : OpenRow call.path (some call.input) t)
    (hclaim : call.step.atMostOnce = true →
      (t.incarnation, .claimed call.path (some call.input)) ∈ t.log) :
    Sound config (t.record (.invoked call)) := by
  refine h.record (fun _ _ h => by cases h) (fun _ k => h.not_finished ho k) ?_
    (fun _ h => by cases h) (fun _ _ _ _ h => by cases h)
  rintro call' ⟨⟩
  obtain ⟨row, hr, -, hi⟩ := ho
  obtain ⟨hm, hp⟩ := Ledger.row?_some hr
  obtain ⟨k₀, hk₀⟩ := h.claimed row hm
  rw [hp, hi] at hk₀
  exact ⟨k₀, hk₀, fun ha => h.claimed_once _ _ _ _ _ hk₀ (hclaim ha)⟩

theorem Sound.markRunning (h : Sound config t) (ho : OpenRow path input t) (attempt : Nat) :
    Sound config (t.markRunning path attempt) :=
  h.update ho (fun _ => ⟨rfl, rfl, rfl, rfl⟩) (fun _ _ h => by cases h)
    (fun _ _ _ h => by cases h)

theorem OpenRow.update {f : RunStepRow → RunStepRow} (h : OpenRow path input t)
    (hf : ∀ row, (f row).path = row.path ∧ (f row).input = row.input ∧
      (row.status.terminal = false → (f row).status.terminal = false)) :
    OpenRow path input { t with steps := t.steps.update path f } := by
  obtain ⟨row, hr, ho, hi⟩ := h
  have hrow := Ledger.row?_update_some (fun row => (hf row).1) hr
  exact ⟨f row, hrow, (hf row).2.2 ho, (hf row).2.1.trans hi⟩

theorem OpenRow.markRunning (h : OpenRow path input t) (attempt : Nat) :
    OpenRow path input (t.markRunning path attempt) :=
  h.update fun _ => ⟨rfl, rfl, fun _ => rfl⟩

theorem OpenRow.markWaiting (h : OpenRow path input t) (childRunId : JsString) :
    OpenRow path input (t.markWaiting path childRunId) :=
  h.update fun _ => ⟨rfl, rfl, fun _ => rfl⟩

theorem OpenRow.linkChild (h : OpenRow path input t) (childRunId : JsString) :
    OpenRow path input (t.linkChild path childRunId) :=
  h.update fun _ => ⟨rfl, rfl, fun ho => ho⟩

theorem Sound.linkChild (h : Sound config t) (ho : OpenRow path input t)
    (childRunId : JsString) : Sound config (t.linkChild path childRunId) := by
  obtain ⟨row₀, hr₀, ht₀, -⟩ := id ho
  refine h.update ho (fun _ => ⟨rfl, rfl, rfl, rfl⟩) ?_ ?_
  · intro row hr hw
    obtain ⟨hm, -⟩ := Ledger.row?_some hr
    obtain ⟨s, -, hof⟩ := h.row row hm
    exact hof.parked hw
  · intro row hr _ hs
    rw [hr₀, Option.some.injEq] at hr
    have hs : row.status = .succeeded := hs
    rw [hr, hs] at ht₀
    exact Bool.noConfusion ht₀

theorem Sound.markWaiting (h : Sound config t) (ho : OpenRow path input t)
    (hk : ∀ row, t.steps.row? path = some row → row.kind = .agent) (childRunId : JsString) :
    Sound config (t.markWaiting path childRunId) :=
  h.update ho (fun _ => ⟨rfl, rfl, rfl, rfl⟩) (fun row hr _ => hk row hr)
    (fun _ _ _ h => by cases h)

/-! ## The items of a loop are on record -/

theorem Resolution.plan_ok {r : Resolution} {head : ForEachStep} {items : List JsonValue}
    (h : r.plan head = .ok items) : r.verdict = none ∧ r.items = some items := by
  rcases r with ⟨items', _ | verdict, count⟩
  · cases items' with
    | none => cases h
    | some items' =>
      refine ⟨rfl, ?_⟩
      simp only [Resolution.plan] at h
      split at h
      · cases h
      · cases h
        rfl
  · cases verdict <;> cases h

theorem asArray_input {head : ForEachStep} {resolved : Option JsonValue} {items : List JsonValue}
    (h : (resolveItems head resolved).plan head = .ok items) :
    asArray (member? (ascii "items") ((resolveItems head resolved).input head)) = some items := by
  obtain ⟨hv, hi⟩ := Resolution.plan_ok h
  rw [Resolution.input, hv, hi]
  rfl

theorem asArray_recorded {head : ForEachStep} {fresh : Resolution} {resolved : Option JsonValue}
    {items : List JsonValue}
    (h : (fresh.recorded (some ((resolveItems head resolved).input head))).plan head = .ok items) :
    asArray (member? (ascii "items") ((resolveItems head resolved).input head)) = some items := by
  cases hv : (resolveItems head resolved).verdict with
  | none =>
    have hin : member? (ascii "items") ((resolveItems head resolved).input head) =
        some (.arr ((resolveItems head resolved).items.getD [])) := by
      rw [Resolution.input, hv]
      rfl
    have hrec : fresh.recorded (some ((resolveItems head resolved).input head)) =
        ⟨some ((resolveItems head resolved).items.getD []), none, fresh.count⟩ := by
      rw [Resolution.recorded, Option.bind_some, hin]
      rfl
    rw [hrec] at h
    rw [hin]
    exact (Resolution.plan_ok h).2
  | some verdict =>
    exfalso
    have hin : member? (ascii "items") ((resolveItems head resolved).input head) = none := by
      rw [Resolution.input, hv]
      rfl
    have hver : member? (ascii "verdict") ((resolveItems head resolved).input head) =
        some (.str verdict.text) := by
      rw [Resolution.input, hv]
      rfl
    have hrec : (fresh.recorded (some ((resolveItems head resolved).input head))).verdict =
        some verdict := by
      rw [Resolution.recorded, Option.bind_some, hin, Option.bind_some, hver]
      cases verdict with
      | itemsNotArray => rfl
      | fanOutExceeded => rfl
    rw [(Resolution.plan_ok h).1] at hrec
    cases hrec

/-! ## One instance -/

/-- The input an instance's row records, once it is there. -/
def heldInput (t : Trail) (i : ClaimStepInput) : Option JsonValue :=
  (t.steps.row? i.path).elim i.input RunStepRow.input

/-- The row of an instance stands for its step. -/
theorem Sound.rowOf {s : PipelineStep} {row : RunStepRow} (h : Sound config t)
    (hs : s ∈ walkSteps config.steps) (hp : lastSegment path = s.id)
    (hr : t.steps.row? path = some row) : RowOf s row := by
  obtain ⟨hm, hpath⟩ := Ledger.row?_some hr
  obtain ⟨s', hs', hof⟩ := h.row row hm
  have hid : s'.id = s.id := by
    rw [← hof.segment, hpath, hp]
  have hss : s' = s := List.inj_on_of_nodup_map config.ids_nodup hs' hs hid
  exact hss ▸ hof

/-- What the work on an instance keeps. -/
structure Held (config : WorkflowConfig) (i : ClaimStepInput) (σ₀ : Walker) (phase : Phase)
    (σ : Walker) : Prop where
  sound : Sound config σ.trail
  within : Within (· = i.path) σ₀.trail σ.trail
  items : ∀ k p, itemDeeds k p σ.trail.log = itemDeeds k p σ₀.trail.log
  row : phase.opened = true → OpenRow i.path (heldInput σ₀.trail i) σ.trail
  claimed : phase.opened = true → σ₀.trail.steps.row? i.path = none →
    (σ₀.trail.incarnation, .claimed i.path i.input) ∈ σ.trail.log
  ready : phase = .ready → σ.trail = σ₀.trail

theorem itemDeeds_record {k : Nat} {deed : Deed} (h : ∀ p i x steps, deed ≠ .item p i x steps)
    (t : Trail) (p : JsString) : itemDeeds k p (t.record deed).log = itemDeeds k p t.log := by
  have hone : itemDeeds k p [(t.incarnation, deed)] = [] := by
    rw [itemDeeds, List.filterMap_eq_nil_iff]
    intro e he
    rw [List.mem_singleton.mp he]
    split
    · cases deed with
      | item q i x steps => exact absurd rfl (h q i x steps)
      | _ => rfl
    · rfl
  show itemDeeds k p (t.log ++ [(t.incarnation, deed)]) = _
  rw [itemDeeds_append, hone, List.append_nil]

/-- A claim that runs, of an instance of `s`. -/
theorem ClaimOf.rowOf {s : PipelineStep} {parent : Option StepParentFrame} {i : ClaimStepInput}
    (h : ClaimOf s (stepInstancePath parent s.id) i) (hid : separator ∉ s.id) :
    RowOf s (.claimed i) where
  stepId := h.stepId
  kind := h.kind
  segment := by
    show lastSegment i.path = s.id
    rw [h.path, lastSegment_stepInstancePath hid]
  input hleaf _ := by
    have hk : s.kind.leaf = true := by
      rw [← h.kind]
      exact hleaf
    cases s with
    | leaf step => exact h.leaf step rfl
    | _ => cases hk
  resolution head body hb _ := h.loop head body hb
  parked hw := by
    have hw : i.status = .waiting := hw
    rw [h.status] at hw
    cases hw

theorem Own.not_interrupted {d : DriveCtx} {s : PipelineStep} {i : ClaimStepInput} {σ₀ σ : Walker}
    {phase : Phase} (h : Own d s i σ₀ phase σ)
    (hp : phase = .counted ∨ phase = .busy ∨ phase = .late) :
    ¬ Interrupted s σ₀.trail i.path := by
  induction h with
  | start | claimed | found | adopted | resumed | interrupted | lateFailed | finished | left =>
    rcases hp with hp | hp | hp <;> cases hp
  | idle _ _ ih => exact ih hp
  | counted _ hn _ => exact hn
  | charged _ ih => exact ih (Or.inl rfl)
  | invoked _ _ _ _ _ ih => exact ih (Or.inr (Or.inl rfl))
  | linked _ _ ih | rerun _ _ ih | late _ _ ih => exact ih (Or.inr (Or.inl rfl))
  | parked _ _ _ ih => exact ih (Or.inr (Or.inl rfl))

theorem heldInput_eq {t : Trail} {i : ClaimStepInput} {row : RunStepRow}
    (h : t.steps.row? i.path = some row) : heldInput t i = row.input := by
  rw [heldInput, h]
  rfl

theorem Own.found_open {d : DriveCtx} {s : PipelineStep} {i : ClaimStepInput} {σ₀ σ : Walker}
    {phase : Phase} (h : Own d s i σ₀ phase σ) (hr : phase ≠ .ready)
    (hc : ∀ fate, phase ≠ .closed fate) :
    ∀ row, σ₀.trail.steps.row? i.path = some row → row.status.terminal = false := by
  induction h with
  | start => exact absurd rfl hr
  | idle _ _ ih => exact ih hr hc
  | claimed h hn _ =>
    intro row hrow
    rw [← (h.idle_of_ready rfl).trail, Ledger.row?_eq_none.mpr hn] at hrow
    cases hrow
  | @found σ row h hf ho _ =>
    intro row' hrow
    rw [← (h.idle_of_ready rfl).trail, hf, Option.some.injEq] at hrow
    exact hrow ▸ ho
  | adopted | interrupted | lateFailed | finished | left => exact absurd rfl (hc _)
  | resumed _ _ ih | counted _ _ ih | charged _ ih => exact ih (by rintro ⟨⟩) (by rintro _ ⟨⟩)
  | invoked _ _ _ _ _ ih => exact ih (by rintro ⟨⟩) (by rintro _ ⟨⟩)
  | linked _ _ ih | rerun _ _ ih | late _ _ ih => exact ih (by rintro ⟨⟩) (by rintro _ ⟨⟩)
  | parked _ _ _ ih => exact ih (by rintro ⟨⟩) (by rintro _ ⟨⟩)

theorem Sound.instanceInput {s : PipelineStep} {i : ClaimStepInput} {step : LeafStep}
    (h : Sound config t) (hs : s ∈ walkSteps config.steps) (hp : lastSegment i.path = s.id)
    (hleaf : s = .leaf step) (ho : ∀ row, t.steps.row? i.path = some row →
      row.status.terminal = false) : instanceInput t i = heldInput t i := by
  rw [Pipeline.instanceInput, heldInput]
  cases hr : t.steps.row? i.path with
  | none => rfl
  | some row =>
    have hof := h.rowOf hs hp hr
    have hinput : row.input ≠ none := by
      refine hof.input ?_ ?_
      · rw [hof.kind, hleaf]
        cases step <;> rfl
      · intro hsk
        have := ho row hr
        rw [hsk] at this
        cases this
    cases hx : row.input with
    | none => exact absurd hx hinput
    | some x =>
      show (row.input <|> i.input) = row.input
      rw [hx]
      rfl

theorem Held.finish {s : PipelineStep} {i : ClaimStepInput} {σ₀ σ : Walker} {phase : Phase}
    {patch : FinishStepPatch} (h : Held config i σ₀ phase σ) (hph : phase.opened = true)
    (hs : s ∈ walkSteps config.steps) (hp : lastSegment i.path = s.id)
    (hterm : patch.status.terminal = true)
    (hloop : s.kind = .forEach → patch.status ≠ .succeeded) (fate : Fate) :
    Held config i σ₀ (.closed fate) (σ.onTrail (·.finish i.path patch)) where
  sound := h.sound.finish (h.row hph) hterm fun row hr hk hsucc => by
    rw [(h.sound.rowOf hs hp hr).kind] at hk
    exact absurd hsucc (hloop hk)
  within := h.within.trans (Within.finish (A := (· = i.path)) rfl patch)
  items k p := (itemDeeds_record (fun _ _ _ _ h => by cases h) _ p).trans (h.items k p)
  row := by rintro ⟨⟩
  claimed := by rintro ⟨⟩
  ready := by rintro ⟨⟩

theorem Own.held {d : DriveCtx} {s : PipelineStep} {parent : Option StepParentFrame}
    {i : ClaimStepInput} {σ₀ σ : Walker} {phase : Phase} (h : Own d s i σ₀ phase σ)
    (hi : ClaimOf s (stepInstancePath parent s.id) i) (hs : s ∈ walkSteps config.steps)
    (h₀ : Sound config σ₀.trail) : Held config i σ₀ phase σ := by
  have hid : separator ∉ s.id := separator_not_mem_of_isStepId (config.ids_form s hs)
  have hp : lastSegment i.path = s.id := by
    rw [hi.path, lastSegment_stepInstancePath hid]
  induction h with
  | start =>
    exact ⟨h₀, Within.refl _ _, fun _ _ => rfl, by rintro ⟨⟩, by rintro ⟨⟩, fun _ => rfl⟩
  | idle _ hidle ih =>
    obtain ⟨h1, h2, h3, h4, h5, h6⟩ := ih
    refine ⟨?_, ?_, ?_, ?_, ?_, ?_⟩ <;> rw [hidle.trail] <;> assumption
  | @claimed σ _ hn ih =>
    have htrail := ih.ready rfl
    have hclaim := Trail.claim_of_not_mem (t := σ.trail) hn
    refine ⟨ih.sound.claim hs (hi.rowOf hid) (by rw [hi.status]; rintro ⟨⟩), ?_, ?_, ?_, ?_,
      by rintro ⟨⟩⟩
    · show Within _ _ (σ.trail.claim i)
      rw [hclaim.1, ← htrail]
      exact Within.claimed rfl
    · intro k p
      show itemDeeds k p (σ.trail.claim i).log = _
      rw [hclaim.1, itemDeeds_record (fun _ _ _ _ h => by cases h), ← htrail]
    · intro _
      refine ⟨.claimed i, ?_, ?_, ?_⟩
      · show (σ.trail.claim i).steps.row? i.path = _
        rw [hclaim.1]
        show Ledger.row? (σ.trail.steps ++ [RunStepRow.claimed i]) i.path = _
        rw [Ledger.row?_append hn]
        exact Ledger.row?_cons_self rfl
      · show i.status.terminal = false
        rw [hi.status]
        rfl
      · rw [heldInput, ← htrail, Ledger.row?_eq_none.mpr hn]
        rfl
    · intro _ _
      show _ ∈ (σ.trail.claim i).log
      rw [hclaim.1, ← htrail]
      exact List.mem_append_right _ (List.mem_singleton_self _)
  | @found σ row _ hr ho ih =>
    have htrail := ih.ready rfl
    rw [htrail] at hr
    refine ⟨ih.sound, ih.within, ih.items, fun _ => ?_, fun _ hnone => ?_, by rintro ⟨⟩⟩
    · rw [htrail]
      exact ⟨row, hr, ho, (heldInput_eq hr).symm⟩
    · rw [hr] at hnone
      cases hnone
  | adopted _ _ _ ih =>
    exact ⟨ih.sound, ih.within, ih.items, by rintro ⟨⟩, by rintro ⟨⟩, by rintro ⟨⟩⟩
  | resumed _ attempt ih =>
    have ho := ih.row rfl
    exact ⟨ih.sound.markRunning ho attempt, ih.within.trans (Within.update (fun _ => rfl) rfl),
      ih.items, fun _ => ho.markRunning attempt, ih.claimed, by rintro ⟨⟩⟩
  | counted _ _ ih => exact ⟨ih.sound, ih.within, ih.items, ih.row, ih.claimed, by rintro ⟨⟩⟩
  | charged _ ih =>
    refine ⟨ih.sound.executed (ih.row rfl), ih.within.trans (Within.record rfl), fun k p => ?_,
      ih.row, fun hph hn => List.mem_append_left _ (ih.claimed rfl hn), by rintro ⟨⟩⟩
    exact (itemDeeds_record (fun _ _ _ _ h => by cases h) _ p).trans (ih.items k p)
  | interrupted _ _ ih => exact ih.finish rfl hs hp rfl (by rintro - ⟨⟩) .failed
  | @invoked σ call hown hleaf hpath hx _ ih =>
    have ho := ih.row rfl
    have hopen : ∀ row, σ₀.trail.steps.row? i.path = some row → row.status.terminal = false :=
      hown.found_open (by rintro ⟨⟩) (by rintro _ ⟨⟩)
    rw [h₀.instanceInput hs hp hleaf hopen] at hx
    rw [hx, ← hpath] at ho
    refine ⟨ih.sound.invoke ho ?_, ih.within.trans (Within.record hpath), fun k p => ?_,
      fun _ => ih.row rfl, fun hph hn => List.mem_append_left _ (ih.claimed rfl hn),
      by rintro ⟨⟩⟩
    · intro hamo
      -- the row was not found by this driver: a tool's row is never parked
      have hnone : σ₀.trail.steps.row? i.path = none := by
        cases hr : σ₀.trail.steps.row? i.path with
        | none => rfl
        | some row =>
          refine absurd ⟨call.step, row, hleaf, hamo, hr, fun hw => ?_⟩
            (hown.not_interrupted (Or.inr (Or.inl rfl)))
          have hof := h₀.rowOf hs hp hr
          have hk := hof.parked hw
          rw [hof.kind, hleaf] at hk
          cases hstep : call.step with
          | tool step =>
            rw [hstep] at hk
            cases hk
          | infer step =>
            rw [hstep] at hk
            cases hk
          | agent step =>
            rw [hstep] at hamo
            cases hamo
      have hheld : heldInput σ₀.trail i = i.input := by
        rw [heldInput, hnone]
        rfl
      rw [hpath, ih.within.incarnation, ← hx, hheld]
      exact ih.claimed rfl hnone
    · exact (itemDeeds_record (fun _ _ _ _ h => by cases h) _ p).trans (ih.items k p)
  | linked _ child ih =>
    have ho := ih.row rfl
    exact ⟨ih.sound.linkChild ho child, ih.within.trans (Within.update (fun _ => rfl) rfl),
      ih.items, fun _ => ho.linkChild child, ih.claimed, by rintro ⟨⟩⟩
  | parked _ hk child ih =>
    have ho := ih.row rfl
    refine ⟨ih.sound.markWaiting ho (fun row hr => ?_) child,
      ih.within.trans (Within.update (fun _ => rfl) rfl), ih.items,
      fun _ => ho.markWaiting child, ih.claimed, by rintro ⟨⟩⟩
    rw [(ih.sound.rowOf hs hp hr).kind, hk]
  | rerun _ attempt ih =>
    have ho := ih.row rfl
    exact ⟨ih.sound.markRunning ho attempt, ih.within.trans (Within.update (fun _ => rfl) rfl),
      ih.items, fun _ => ho.markRunning attempt, ih.claimed, by rintro ⟨⟩⟩
  | late _ _ ih =>
    refine ⟨ih.sound.halted _ _, ih.within.trans (Within.record rfl), fun k p => ?_, ih.row,
      fun hph hn => List.mem_append_left _ (ih.claimed rfl hn), by rintro ⟨⟩⟩
    exact (itemDeeds_record (fun _ _ _ _ h => by cases h) _ p).trans (ih.items k p)
  | lateFailed _ ih => exact ih.finish rfl hs hp rfl (by rintro - ⟨⟩) .failed
  | finished _ he ih => exact ih.finish rfl hs hp he.1 he.2.1 _
  | left _ _ ih =>
    exact ⟨ih.sound, ih.within, ih.items, by rintro ⟨⟩, by rintro ⟨⟩, by rintro ⟨⟩⟩

/-! ## Jobs -/

/-- Where the instances of a job stand. -/
def Job.region : Job → JsString → Prop
  | .seq steps parent => fun q => ∃ s ∈ steps, Below (stepInstancePath parent s.id) q
  | .step s parent => fun q => Below (stepInstancePath parent s.id) q
  | .items loop records _ => fun q => q = loop.path ∨
      ∃ j, records.length ≤ j ∧ Below (StepParentFrame.root ⟨loop.path, some j⟩) q
  | .skip steps => fun q => ∃ s ∈ steps, Below (stepInstancePath none s.id) q

/-- The steps a job may come to. -/
def Job.steps : Job → List PipelineStep
  | .seq steps _ => walkSteps steps
  | .step s _ => s.walk
  | .items loop _ _ => walkSteps loop.body
  | .skip steps => walkSteps steps

/-- A loop is under way: its row is open and records its items, and the items with a record
are those this driver started. -/
structure LoopOpen (loop : LoopRun) (records : List ItemRecord) (rest : List JsonValue)
    (t : Trail) : Prop where
  row : ∃ row, t.steps.row? loop.path = some row ∧ row.status.terminal = false ∧
    row.kind = .forEach ∧ claimedItems row = some loop.items
  done : ∃ items, loop.items = items ++ rest ∧ items.length = records.length ∧
    itemDeeds t.incarnation loop.path t.log = loopItems items loop.scope
  indices : records.map ItemRecord.index = List.range records.length

/-- What a driver finds that begins a job. -/
def Job.Ready (t : Trail) : Job → Prop
  | .seq steps parent => Untouched (Job.region (.seq steps parent)) t
  | .step s parent => Untouched (Job.region (.step s parent)) t
  | .items loop records rest => LoopOpen loop records rest t ∧
      Untouched (fun q => ∃ j, records.length ≤ j ∧
        Below (StepParentFrame.root ⟨loop.path, some j⟩) q) t
  | .skip _ => True

theorem walkSteps_lane (branches : List (PipelineCondition × List PipelineStep))
    (otherwise : Option (List PipelineStep)) (lane : Option Lane) :
    (walkSteps (laneSteps branches otherwise lane)).Sublist
      (walkBranches branches ++ walkElse otherwise) := by
  rcases lane with _ | i | _
  · exact List.nil_sublist _
  · show (walkSteps ((branches[i]?.map Prod.snd).getD [])).Sublist _
    refine List.Sublist.trans ?_ (List.sublist_append_left _ _)
    induction branches generalizing i with
    | nil => exact List.nil_sublist _
    | cons b branches ih =>
      cases i with
      | zero => exact List.sublist_append_left _ _
      | succ i => exact (ih i).trans (List.sublist_append_right _ _)
  · refine List.Sublist.trans ?_ (List.sublist_append_right _ _)
    cases otherwise with
    | none => exact List.nil_sublist _
    | some steps => exact List.Sublist.refl _

theorem Within.claim {i : ClaimStepInput} (hA : A i.path) : Within A t (t.claim i) := by
  cases hr : t.steps.row? i.path with
  | some row =>
    rw [(Trail.claim_of_mem hr).1]
    exact Within.refl _ _
  | none =>
    rw [(Trail.claim_of_not_mem (Ledger.row?_eq_none.mp hr)).1]
    exact Within.claimed hA

/-- The claim of a step that is fenced off. -/
theorem SkipOf.rowOf {s : PipelineStep} {i : ClaimStepInput} (h : SkipOf s i)
    (hid : separator ∉ s.id) : RowOf s (.claimed i) where
  stepId := h.stepId
  kind := h.kind
  segment := by
    show lastSegment i.path = s.id
    rw [h.path, lastSegment_stepInstancePath hid]
  input _ hs := absurd h.status hs
  resolution _ _ _ hs := absurd h.status hs
  parked hw := by
    have hw : i.status = .waiting := hw
    rw [h.status] at hw
    cases hw

theorem mem_walkSteps {s : PipelineStep} {steps : List PipelineStep} (h : s ∈ steps) :
    s ∈ walkSteps steps := by
  induction steps with
  | nil => cases h
  | cons r rest ih =>
    rcases List.mem_cons.mp h with rfl | h
    · exact List.mem_append_left _ s.mem_walk
    · exact List.mem_append_right _ (ih h)

theorem rest_disjoint {s : PipelineStep} {rest : List PipelineStep}
    {parent : Option StepParentFrame} {q : JsString}
    (hsub : (walkSteps (s :: rest)).Sublist (walkSteps config.steps))
    (hq : Job.region (.seq rest parent) q) : ¬ Below (stepInstancePath parent s.id) q := by
  obtain ⟨s', hs', hq'⟩ := hq
  intro hq
  have hs : s ∈ walkSteps (s :: rest) := mem_walkSteps List.mem_cons_self
  have hs'' : s' ∈ walkSteps (s :: rest) := mem_walkSteps (List.mem_cons_of_mem _ hs')
  have hid := separator_not_mem_of_isStepId (config.ids_form s (hsub.subset hs))
  have hid' := separator_not_mem_of_isStepId (config.ids_form s' (hsub.subset hs''))
  have heq : s.id = s'.id := Below.eq_id hid hid' hq hq'
  -- one id twice in the tree
  have hnodup := (hsub.map PipelineStep.id).nodup config.ids_nodup
  rw [walkSteps, List.map_append, List.nodup_append] at hnodup
  exact hnodup.2.2 _ (List.mem_map_of_mem s.mem_walk) _ (List.mem_map_of_mem (mem_walkSteps hs')) heq

section

variable {d : DriveCtx} {σ σ' : Walker} {o : Option Fate}

theorem Untouched.seq_rest {s : PipelineStep} {rest : List PipelineStep}
    {parent : Option StepParentFrame}
    (hsub : (walkSteps (s :: rest)).Sublist (walkSteps config.steps))
    (h : Untouched (Job.region (.seq (s :: rest) parent)) t)
    (hw : Within (Job.region (.step s parent)) t t') :
    Untouched (Job.region (.seq rest parent)) t' := by
  refine (h.mono ?_).within hw fun q hq => rest_disjoint hsub hq
  rintro q ⟨s', hs', hq⟩
  exact ⟨s', List.mem_cons_of_mem _ hs', hq⟩

/-- What stands in a container stands below it, and not at its own path. -/
theorem region_frame {steps : List PipelineStep} {frame : StepParentFrame} {q : JsString}
    (h : Job.region (.seq steps (some frame)) q) : Below frame.root q ∧ q ≠ frame.path := by
  obtain ⟨s, -, hq⟩ := h
  exact ⟨below_root.trans hq, ne_path_of_below hq⟩

theorem LoopOpen.within {loop : LoopRun} {records : List ItemRecord} {rest : List JsonValue}
    (h : LoopOpen loop records rest t) (hw : Within A t t') (hA : ¬ A loop.path) :
    LoopOpen loop records rest t' := by
  obtain ⟨row, hr, hrow⟩ := h.row
  obtain ⟨items, hi, hlen, hdeeds⟩ := h.done
  obtain ⟨l, hl, hlA⟩ := hw.log
  refine ⟨⟨row, (hw.rows _ hA).trans hr, hrow⟩, ⟨items, hi, hlen, ?_⟩, h.indices⟩
  rw [hw.incarnation, hl, itemDeeds_append, hdeeds, itemDeeds_eq_nil, List.append_nil]
  intro e he _ hp
  exact hA (hp ▸ (hlA e he).2)

theorem LoopOpen.item {loop : LoopRun} {records : List ItemRecord} {x : JsonValue}
    {rest : List JsonValue} (h : LoopOpen loop records (x :: rest) t) (h₀ : Sound config t) :
    Sound config (t.record (.item loop.path records.length x loop.scope)) ∧
      ∀ record : ItemRecord, record.index = records.length →
        LoopOpen loop (records ++ [record]) rest
          (t.record (.item loop.path records.length x loop.scope)) := by
  obtain ⟨row, hr, ho, hk, hitems⟩ := h.row
  obtain ⟨items, hi, hlen, hdeeds⟩ := h.done
  have hnext : itemDeeds t.incarnation loop.path t.log ++ [(records.length, x, loop.scope)] =
      loopItems (items ++ [x]) loop.scope := by
    rw [hdeeds, loopItems_concat, hlen]
  have hsplit : loop.items = (items ++ [x]) ++ rest := by
    rw [hi, List.append_assoc, List.singleton_append]
  constructor
  · refine h₀.record (fun _ _ h => by cases h) (fun _ k => ?_) (fun _ h => by cases h)
      (fun _ h => by cases h) ?_
    · exact h₀.not_finished ⟨row, hr, ho, rfl⟩ k
    · rintro p i x' s ⟨⟩
      refine ⟨row, loop.items, loop.scope, hr, ho, hitems, ?_⟩
      rw [hnext, hsplit]
      exact loopItems_grows _ _ _
  · intro record hindex
    refine ⟨⟨row, hr, ho, hk, hitems⟩, ⟨items ++ [x], hsplit, ?_, ?_⟩, ?_⟩
    · rw [List.length_append, List.length_append, hlen]
      rfl
    · show itemDeeds t.incarnation loop.path (t.log ++ [(t.incarnation, _)]) = _
      rw [itemDeeds_append, ← hnext]
      simp [itemDeeds, Deed.item?]
    · rw [List.map_append, h.indices, List.length_append, List.map_cons, hindex, List.map_nil,
        List.length_singleton, List.range_succ]

theorem LoopOpen.finish {loop : LoopRun} {records : List ItemRecord} {rest : List JsonValue}
    {patch : FinishStepPatch} (h : LoopOpen loop records rest t) (h₀ : Sound config t)
    (hterm : patch.status.terminal = true) (hrest : patch.status = .succeeded →
      rest = [] ∧ patch.output = some (aggregate loop.items records)) :
    Sound config (t.finish loop.path patch) := by
  obtain ⟨row, hr, ho, -, hitems⟩ := h.row
  refine h₀.finish ⟨row, hr, ho, rfl⟩ hterm fun row' hr' _ hs => ?_
  rw [hr, Option.some.injEq] at hr'
  subst hr'
  obtain ⟨rfl, hout⟩ := hrest hs
  obtain ⟨items, hi, hlen, hdeeds⟩ := h.done
  rw [List.append_nil] at hi
  refine ⟨t.incarnation, loop.items, loop.scope, records, hitems, ?_, ?_, ?_⟩
  · show itemDeeds t.incarnation row.path t.log = _
    rw [(Ledger.row?_some hr).2, hdeeds, hi]
  · rw [h.indices, hi, hlen]
  · show (patch.output <|> row.output) = _
    rw [hout]
    rfl

theorem loopOpen_start {head : ForEachStep} {body : List PipelineStep}
    {parent : Option StepParentFrame} {i : ClaimStepInput} {items : List JsonValue}
    (scope : ScopeSteps) (h : Own d (.forEach head body) i σ .busy σ')
    (hi : ClaimOf (.forEach head body) (stepInstancePath parent head.id) i)
    (hs : .forEach head body ∈ walkSteps config.steps) (h₀ : Sound config σ.trail)
    (hp : LoopPlan head i σ.trail items)
    (hu : Untouched (fun q => Below (stepInstancePath parent head.id) q) σ.trail) :
    LoopOpen ⟨head, body, i.path, scope, items⟩ [] items σ'.trail := by
  have hheld := h.held hi hs h₀
  have hid : separator ∉ head.id := separator_not_mem_of_isStepId (config.ids_form _ hs)
  have hseg : lastSegment i.path = (PipelineStep.forEach head body).id := by
    rw [hi.path]
    exact lastSegment_stepInstancePath hid
  obtain ⟨row, hr, ho, hin⟩ := hheld.row rfl
  refine ⟨⟨row, hr, ho, (hheld.sound.rowOf hs hseg hr).kind, ?_⟩, ⟨[], rfl, rfl, ?_⟩, rfl⟩
  · rw [claimedItems, hin]
    obtain ⟨resolved, hclaim, ⟨hnew, hplan⟩ | ⟨row₀, hr₀, hplan⟩⟩ := hp
    · rw [heldInput, Ledger.row?_eq_none.mpr hnew]
      show asArray (i.input.bind (member? (ascii "items"))) = _
      rw [hclaim]
      exact asArray_input hplan
    · rw [heldInput_eq hr₀]
      have hof := h₀.rowOf hs hseg hr₀
      have hopen := h.found_open (by rintro ⟨⟩) (by rintro _ ⟨⟩) row₀ hr₀
      obtain ⟨resolved₀, hin₀⟩ := hof.resolution head body rfl (by
        intro hsk
        rw [hsk] at hopen
        cases hopen)
      rw [hin₀] at hplan ⊢
      exact asArray_recorded hplan
  · rw [hheld.within.incarnation, hheld.items]
    refine (itemDeeds_eq_nil fun e he hk hpath => ?_).trans rfl
    refine hu e he hk ?_
    rw [hpath]
    exact Or.inl hi.path

/-- The instances of the items from `n` on. -/
def itemsFrom (path : JsString) (n : Nat) (q : JsString) : Prop :=
  ∃ j, n ≤ j ∧ Below (StepParentFrame.root ⟨path, some j⟩) q

theorem itemsFrom_below {n : Nat} {q : JsString} (h : itemsFrom path n q) : Below path q := by
  obtain ⟨j, -, hq⟩ := h
  exact (StepParentFrame.below_root_path ⟨path, some j⟩).trans hq

theorem itemsFrom_ne {n : Nat} {q : JsString} (h : itemsFrom path n q) : q ≠ path := by
  obtain ⟨j, -, hq⟩ := h
  rintro rfl
  have hlen : ∀ q', Below (StepParentFrame.root ⟨q, some j⟩) q' → q.length < q'.length := by
    rintro q' (rfl | ⟨u, rfl⟩)
    · show q.length < (q ++ separator :: printNat j).length
      rw [List.length_append, List.length_cons]
      omega
    · show q.length < ((q ++ separator :: printNat j) ++ separator :: u).length
      rw [List.length_append, List.length_append, List.length_cons]
      omega
  exact absurd (hlen q hq) (Nat.lt_irrefl _)

theorem region_item {body : List PipelineStep} {n : Nat} {q : JsString}
    (h : Job.region (.seq body (some ⟨path, some n⟩)) q) : itemsFrom path n q :=
  ⟨n, Nat.le_refl _, (region_frame h).1⟩

/-- One item: what its body finds, and what the loop finds behind it. -/
theorem LoopOpen.body {loop : LoopRun} {records : List ItemRecord} {x : JsonValue}
    {rest : List JsonValue} (h : LoopOpen loop records (x :: rest) t)
    (hu : Untouched (itemsFrom loop.path records.length) t) (h₀ : Sound config t) :
    Sound config (t.record (.item loop.path records.length x loop.scope)) ∧
      Untouched (Job.region (.seq loop.body (some ⟨loop.path, some records.length⟩)))
        (t.record (.item loop.path records.length x loop.scope)) ∧
      ∀ t', Within (Job.region (.seq loop.body (some ⟨loop.path, some records.length⟩)))
          (t.record (.item loop.path records.length x loop.scope)) t' →
        Within (Job.region (.items loop records (x :: rest))) t t' ∧
          ∀ record : ItemRecord, record.index = records.length →
            LoopOpen loop (records ++ [record]) rest t' ∧
              Untouched (itemsFrom loop.path (records ++ [record]).length) t' := by
  have hrec : Within (· = loop.path) t
      (t.record (.item loop.path records.length x loop.scope)) := Within.record rfl
  obtain ⟨hs, hopen⟩ := h.item h₀
  have hu₁ := hu.within hrec fun q hq => itemsFrom_ne hq
  refine ⟨hs, hu₁.mono fun q hq => region_item hq, fun t' hw => ⟨?_, fun record hi => ⟨?_, ?_⟩⟩⟩
  · exact (hrec.mono fun q hq => Or.inl hq).trans (hw.mono fun q hq => Or.inr (region_item hq))
  · exact (hopen record hi).within hw fun hq => itemsFrom_ne (region_item hq) rfl
  · rw [List.length_append, List.length_singleton]
    refine (hu₁.mono ?_).within hw ?_
    · rintro q ⟨j, hj, hq⟩
      exact ⟨j, Nat.le_of_succ_le hj, hq⟩
    · rintro q ⟨j, hj, hq⟩ hq'
      have hij : j = records.length := Below.eq_iteration hq (region_frame hq').1
      omega

theorem Walks.sound {job : Job} (h : Walks d job σ o σ')
    (hsub : job.steps.Sublist (walkSteps config.steps)) (hready : job.Ready σ.trail)
    (h₀ : Sound config σ.trail) :
    Sound config σ'.trail ∧ Within job.region σ.trail σ'.trail := by
  induction h with
  | cut => exact ⟨h₀, Within.refl _ _⟩
  | unseen _ ih => exact ih hsub hready h₀
  | before hi _ ih =>
    rw [hi.trail] at ih
    exact ih hsub hready h₀
  | after _ hi ih =>
    rw [hi.trail]
    exact ih hsub hready h₀
  | nil => exact ⟨h₀, Within.refl _ _⟩
  | stopped => exact ⟨h₀, Within.refl _ _⟩
  | late | full =>
    exact ⟨h₀.halted _ _, Within.record ⟨_, List.mem_cons_self, Below.refl _⟩⟩
  | @next s rest parent σ σ₁ o σ₂ hc ha hs hr ih₁ ih₂ =>
    have hready : Untouched (Job.region (.seq (s :: rest) parent)) σ.trail := hready
    obtain ⟨hs₁, hw₁⟩ := ih₁ ((List.sublist_append_left _ _).trans hsub)
      (hready.mono fun q hq => ⟨s, List.mem_cons_self, hq⟩) h₀
    obtain ⟨hs₂, hw₂⟩ := ih₂ ((List.sublist_append_right _ _).trans hsub)
      (hready.seq_rest hsub hw₁) hs₁
    refine ⟨hs₂, (hw₁.mono fun q hq => ⟨s, List.mem_cons_self, hq⟩).trans (hw₂.mono ?_)⟩
    rintro q ⟨s', hs', hq⟩
    exact ⟨s', List.mem_cons_of_mem _ hs', hq⟩
  | @stop s rest parent σ o σ₁ hc ha hs ho ht ih =>
    have hready : Untouched (Job.region (.seq (s :: rest) parent)) σ.trail := hready
    obtain ⟨hs₁, hw₁⟩ := ih ((List.sublist_append_left _ _).trans hsub)
      (hready.mono fun q hq => ⟨s, List.mem_cons_self, hq⟩) h₀
    exact ⟨hs₁, hw₁.mono fun q hq => ⟨s, List.mem_cons_self, hq⟩⟩
  | @fenced s rest σ σ₁ o σ₂ hc ha hs hr ih₁ ih₂ =>
    have hready : Untouched (Job.region (.seq (s :: rest) none)) σ.trail := hready
    obtain ⟨hs₁, hw₁⟩ := ih₁ ((List.sublist_append_left _ _).trans hsub)
      (hready.mono fun q hq => ⟨s, List.mem_cons_self, hq⟩) h₀
    obtain ⟨hs₂, hw₂⟩ := ih₂ ((List.sublist_append_right _ _).trans hsub) trivial hs₁
    refine ⟨hs₂, (hw₁.mono fun q hq => ⟨s, List.mem_cons_self, hq⟩).trans (hw₂.mono ?_)⟩
    rintro q ⟨s', hs', hq⟩
    exact ⟨s', List.mem_cons_of_mem _ hs', hq⟩
  | skipped => exact ⟨h₀, Within.refl _ _⟩
  | @skip s rest i σ o σ' hi _ ih =>
    have hs : s ∈ walkSteps config.steps := hsub.subset (mem_walkSteps List.mem_cons_self)
    have hid := separator_not_mem_of_isStepId (config.ids_form s hs)
    have hclaim := h₀.claim hs (hi.rowOf hid) (by rw [hi.status]; rintro ⟨⟩)
    obtain ⟨hs₁, hw₁⟩ := ih ((List.sublist_append_right _ _).trans hsub) trivial hclaim
    have hw₀ : Within (Job.region (.skip (s :: rest))) σ.trail (σ.trail.claim i) :=
      Within.claim ⟨s, List.mem_cons_self, Or.inl hi.path⟩
    refine ⟨hs₁, hw₀.trans (hw₁.mono ?_)⟩
    rintro q ⟨s', hs', hq⟩
    exact ⟨s', List.mem_cons_of_mem _ hs', hq⟩
  | working hi h =>
    have hheld := h.held hi (hsub.subset (PipelineStep.mem_walk _)) h₀
    exact ⟨hheld.sound, hheld.within.mono fun q hq => Or.inl (hq.trans hi.path)⟩
  | worked hi h _ =>
    have hheld := h.held hi (hsub.subset (PipelineStep.mem_walk _)) h₀
    exact ⟨hheld.sound, hheld.within.mono fun q hq => Or.inl (hq.trans hi.path)⟩
  | @lane base branches otherwise parent i row σ σ₁ o σ₂ hi h hr hs hl ih =>
    have hheld := h.held hi (hsub.subset (PipelineStep.mem_walk _)) h₀
    have hready : Untouched (fun q => Below (stepInstancePath parent base.id) q) σ.trail := hready
    have hbelow : ∀ {steps q}, Job.region (.seq steps (some ⟨i.path, none⟩)) q →
        Below (stepInstancePath parent base.id) q := by
      intro steps q hq
      rw [← hi.path]
      exact (region_frame hq).1
    obtain ⟨hs₂, hw₂⟩ := ih
      ((walkSteps_lane branches otherwise _).trans ((List.sublist_cons_self _ _).trans hsub))
      ((hready.mono fun q hq => hbelow hq).within hheld.within fun q hq => (region_frame hq).2)
      hheld.sound
    refine ⟨hs₂, (hheld.within.mono ?_).trans (hw₂.mono fun q hq => hbelow hq)⟩
    exact fun q hq => Or.inl (hq.trans hi.path)
  | @loop head body parent i items scope σ σ₁ o σ₂ hi h hp hl ih =>
    have hs : PipelineStep.forEach head body ∈ walkSteps config.steps :=
      hsub.subset (PipelineStep.mem_walk _)
    have hheld := h.held hi hs h₀
    have hready : Untouched (fun q => Below (stepInstancePath parent head.id) q) σ.trail := hready
    have hbelow : ∀ {n q}, itemsFrom i.path n q → Below (stepInstancePath parent head.id) q := by
      intro n q hq
      rw [← hi.path]
      exact itemsFrom_below hq
    have hopen := loopOpen_start scope h hi hs h₀ hp hready
    have hu : Untouched (itemsFrom i.path 0) σ₁.trail :=
      (hready.mono fun q hq => hbelow hq).within hheld.within fun q hq => itemsFrom_ne hq
    obtain ⟨hs₂, hw₂⟩ := ih ((List.sublist_cons_self _ _).trans hsub) ⟨hopen, hu⟩ hheld.sound
    refine ⟨hs₂, (hheld.within.mono ?_).trans (hw₂.mono ?_)⟩
    · exact fun q hq => Or.inl (hq.trans hi.path)
    · rintro q (rfl | hq)
      · exact Or.inl hi.path
      · exact hbelow hq
  | looped =>
    exact ⟨hready.1.finish h₀ rfl fun _ => ⟨rfl, rfl⟩, Within.finish (Or.inl rfl) _⟩
  | leave => exact ⟨h₀, Within.refl _ _⟩
  | cancel =>
    exact ⟨hready.1.finish h₀ rfl (by rintro ⟨⟩), Within.finish (Or.inl rfl) _⟩
  | item hb hr hi h ih₁ ih₂ =>
    obtain ⟨hs, hu, hafter⟩ := hready.1.body hready.2 h₀
    obtain ⟨hs₁, hw₁⟩ := ih₁ hsub hu hs
    obtain ⟨hw, hnext⟩ := hafter _ hw₁
    obtain ⟨hs₂, hw₂⟩ := ih₂ hsub (hnext _ hi) hs₁
    refine ⟨hs₂, hw.trans (hw₂.mono ?_)⟩
    rintro q (rfl | ⟨j, hj, hq⟩)
    · exact Or.inl rfl
    · rw [List.length_append] at hj
      exact Or.inr ⟨j, Nat.le_trans (Nat.le_add_right _ _) hj, hq⟩
  | inItem hb ih =>
    obtain ⟨hs, hu, hafter⟩ := hready.1.body hready.2 h₀
    obtain ⟨hs₁, hw₁⟩ := ih hsub hu hs
    exact ⟨hs₁, (hafter _ hw₁).1⟩
  | itemLeft hb _ ih =>
    obtain ⟨hs, hu, hafter⟩ := hready.1.body hready.2 h₀
    obtain ⟨hs₁, hw₁⟩ := ih hsub hu hs
    exact ⟨hs₁, (hafter _ hw₁).1⟩
  | @itemCanceled loop records x rest σ σ₁ hb _ ih =>
    obtain ⟨hs, hu, hafter⟩ := hready.1.body hready.2 h₀
    obtain ⟨hs₁, hw₁⟩ := ih hsub hu hs
    obtain ⟨hw, hnext⟩ := hafter _ hw₁
    have hopen := (hnext ⟨records.length, .failed, none⟩ rfl).1
    exact ⟨hopen.finish hs₁ rfl (by rintro ⟨⟩), hw.trans (Within.finish (Or.inl rfl) _)⟩
  | @itemFailed loop records x rest error errorClass σ σ₁ hb _ ih =>
    obtain ⟨hs, hu, hafter⟩ := hready.1.body hready.2 h₀
    obtain ⟨hs₁, hw₁⟩ := ih hsub hu hs
    obtain ⟨hw, hnext⟩ := hafter _ hw₁
    have hopen := (hnext ⟨records.length, .failed, none⟩ rfl).1
    exact ⟨hopen.finish hs₁ rfl (by rintro ⟨⟩), hw.trans (Within.finish (Or.inl rfl) _)⟩

end

end InvisibleString.Pipeline
