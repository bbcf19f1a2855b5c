import InvisibleString.Lib.Transition
import InvisibleString.Tailer.Keeps

/- # `Tailer.Exit` — a tail that exits leaves its run settled

The tail as a whole: its reader, whatever runs beside it, and the outside.  A step is one turn of
a function, one executed statement, or something the others do; any statement may fail, before or
after it has taken effect.

**Proved here.**

    where no settling update fails, no failure of the opening goes uncaught, no tail is detached
      before its run is settled, and the reader does not exit while a settlement beside it waits
      for its update, the run of a tail that exits is settled  (`exit_settled`, `verdict_lost`)
-/

namespace InvisibleString.Tailer

open EventLoop
open Transition (Trace)

/-! ## The tail and its steps -/

abbrev TailFiber := Fiber tailSignature TailMem Unit

structure LiveTail where
  mem : TailMem
  world : World
  /-- the waiting run was answered -/
  reopened : Bool
  /-- none between two of its programs -/
  reader : Option TailFiber
  sides : List TailFiber

/-- A tail as it is created. -/
def LiveTail.opened (runId : RunId) (mode : Mode) (now : Nat) (w : World) : LiveTail where
  mem := TailMem.init runId mode now
  world := w
  reopened := false
  reader := none
  sides := []

/-- The requests to eve: it may answer them in any way. -/
def StoreOp.isEve : StoreOp → Bool
  | .cancelRemoteTurn _ | .openStream .. => true
  | _ => false

inductive Answered (op : StoreOp) (w : World) : Except TailError op.Ret → World → Prop
  | done : Answered op w (op.exec w).1 (op.exec w).2
  | eve (h : op.isEve = true) (a : op.Ret) : Answered op w (.ok a) w
  | failed (e : TailError) : Answered op w (.error e) w
  -- it takes effect, but its answer is lost
  | lost (e : TailError) : Answered op w (.error e) (op.exec w).2

inductive LiveEvent where
  | program
  | turn
  | answer (reader : Bool) (op : StoreOp) (failed : Bool)
  | beside
  | sideTurn
  | detach
  | seize
  | clock
  | outside
  | reopen
  deriving DecidableEq

def failed {α : Type} : Except TailError α → Bool
  | .ok _ => false
  | .error _ => true

/-- No row changes its status. -/
def World.Unmoved (w w' : World) : Prop :=
  ∀ r row', w'.db.run? r = some row' → ∃ row, w.db.run? r = some row ∧ row.status = row'.status

theorem World.Unmoved.refl (w : World) : w.Unmoved w := fun _ row' h => ⟨row', h, rfl⟩

theorem World.Unmoved.isOver {w w' : World} (h : w.Unmoved w') {r : RunId} (hw : w.isOver r) :
    w'.isOver r := by
  intro row' hrow'
  obtain ⟨row, hrow, hstatus⟩ := h r row' hrow'
  exact hstatus ▸ hw row hrow

theorem World.Unmoved.isSettled {w w' : World} (h : w.Unmoved w') {r : RunId}
    (hw : w.isSettled r) : w'.isSettled r := by
  intro row' hrow'
  obtain ⟨row, hrow, hstatus⟩ := h r row' hrow'
  exact hstatus ▸ hw row hrow

theorem World.unmoved_updateRun (w : World) (r : RunId) {f : RunRow → RunRow}
    (hid : ∀ row, (f row).id = row.id) (hstatus : ∀ row, (f row).status = row.status) :
    w.Unmoved { w with db := w.db.updateRun r f } := by
  intro r' row' hrow'
  change (w.db.updateRun r f).run? r' = some row' at hrow'
  rw [Db.run?_updateRun _ _ hid] at hrow'
  split at hrow'
  · obtain ⟨row, hrow, rfl⟩ := Option.map_eq_some_iff.mp hrow'
    exact ⟨row, hrow, (hstatus row).symm⟩
  · exact ⟨row', hrow', rfl⟩

theorem StoreOp.exec_unmoved {op : StoreOp} (hop : op.isMarkRun = false) (w : World) :
    w.Unmoved (op.exec w).2 := by
  cases op with
  | markRun runId patch => cases hop
  | appendEvent runId seq event =>
    simp only [StoreOp.exec, Db.appendEvent]
    split
    · next db hdb =>
      split at hdb
      · cases hdb
      · cases hdb
        exact fun _ row' h => ⟨row', h, rfl⟩
    · exact World.Unmoved.refl w
  | setRunTurnId runId turnId =>
    simp only [StoreOp.exec, Db.setRunTurnId]
    split
    · split
      · exact w.unmoved_updateRun runId (fun _ => rfl) fun _ => rfl
      · exact World.Unmoved.refl w
    · exact World.Unmoved.refl w
  | clearRemoteCancelPending runId =>
    simp only [StoreOp.exec, Db.clearRemoteCancelPending]
    split
    · split
      · exact w.unmoved_updateRun runId (fun _ => rfl) fun _ => rfl
      · exact World.Unmoved.refl w
    · exact World.Unmoved.refl w
  | markRemoteCancelUnresolved runId now =>
    simp only [StoreOp.exec, Db.markRemoteCancelUnresolved]
    split
    · split
      · exact w.unmoved_updateRun runId (fun _ => rfl) fun _ => rfl
      · exact World.Unmoved.refl w
    · exact World.Unmoved.refl w
  | markSession status => exact fun _ row' h => ⟨row', h, rfl⟩
  | _ => exact World.Unmoved.refl w

/-- The compare-and-set: the run is over and stays as it is, or it has the patch's status. -/
theorem Db.markRun_cases (db : Db) (r : RunId) (patch : RunStatusPatch) :
    (db.markRun r patch = (false, db) ∧
      ∀ row, db.run? r = some row → row.status.terminal = true) ∨
    (db.markRun r patch = (true, db.updateRun r (Db.applyPatch patch)) ∧
      ∃ row, db.run? r = some row ∧ row.status.terminal = false) := by
  unfold Db.markRun
  cases hrow : db.run? r with
  | none => exact Or.inl ⟨rfl, fun _ h => nomatch h⟩
  | some row =>
    cases hterminal : row.status.terminal with
    | true =>
      refine Or.inl ⟨by simp only [hterminal, if_true], ?_⟩
      rintro _ ⟨⟩
      exact hterminal
    | false =>
      exact Or.inr ⟨by simp only [hterminal, Bool.false_eq_true, if_false], row, rfl, hterminal⟩

theorem Db.run?_applied {db : Db} {r : RunId} {patch : RunStatusPatch} {row' : RunRow}
    (h : (db.updateRun r (Db.applyPatch patch)).run? r = some row') :
    row'.status = patch.status := by
  rw [Db.run?_updateRun db r (f := Db.applyPatch patch) fun _ => rfl, if_pos rfl] at h
  obtain ⟨row, -, rfl⟩ := Option.map_eq_some_iff.mp h
  rfl

theorem StoreOp.exec_isOver (op : StoreOp) {w : World} {r : RunId} (h : w.isOver r) :
    (op.exec w).2.isOver r := by
  cases hop : op.isMarkRun with
  | false => exact (StoreOp.exec_unmoved hop w).isOver h
  | true =>
    cases op with
    | markRun runId patch =>
      intro row' hrow'
      change (w.db.markRun runId patch).2.run? r = some row' at hrow'
      rcases w.db.markRun_cases runId patch with ⟨heq, -⟩ | ⟨heq, row, hrow, hlive⟩
      · rw [heq] at hrow'
        exact h row' hrow'
      · rw [heq] at hrow'
        change (w.db.updateRun runId (Db.applyPatch patch)).run? r = some row' at hrow'
        rw [Db.run?_updateRun w.db runId (f := Db.applyPatch patch) fun _ => rfl] at hrow'
        split at hrow'
        · next hr =>
          have hover := h row (hr ▸ hrow)
          exact Bool.noConfusion (hlive.symm.trans hover)
        · exact h row' hrow'
    | _ => cases hop

theorem Answered.world {op : StoreOp} {w w' : World} {r : Except TailError op.Ret}
    (h : Answered op w r w') : w' = w ∨ w' = (op.exec w).2 := by
  cases h with
  | done => exact Or.inr rfl
  | eve => exact Or.inl rfl
  | failed => exact Or.inl rfl
  | lost => exact Or.inr rfl

theorem Answered.isOver {op : StoreOp} {w w' : World} {r : Except TailError op.Ret}
    (h : Answered op w r w') {run : RunId} (hw : w.isOver run) : w'.isOver run := by
  rcases h.world with rfl | rfl
  · exact hw
  · exact op.exec_isOver hw

theorem Answered.refused {runId : RunId} {patch : RunStatusPatch} {w w' : World}
    {r : Except TailError (StoreOp.markRun runId patch).Ret}
    (h : Answered (.markRun runId patch) w r w') (hr : .ok false = r) : w'.isOver runId := by
  cases h with
  | done =>
    rcases w.db.markRun_cases runId patch with ⟨heq, hover⟩ | ⟨heq, -⟩
    · intro row hrow
      change (w.db.markRun runId patch).2.run? runId = some row at hrow
      rw [heq] at hrow
      exact hover row hrow
    · change Except.ok false = Except.ok (w.db.markRun runId patch).1 at hr
      rw [heq] at hr
      cases hr
  | eve heve => cases heve
  | failed => cases hr
  | lost => cases hr

/-- An update that does not fail: the run is over, or it has the patch's status. -/
theorem Answered.applied {runId : RunId} {patch : RunStatusPatch} {w w' : World}
    {r : Except TailError (StoreOp.markRun runId patch).Ret}
    (h : Answered (.markRun runId patch) w r w') (hr : ∀ e, r ≠ .error e) :
    w'.isOver runId ∨ ∀ row, w'.db.run? runId = some row → row.status = patch.status := by
  cases h with
  | done =>
    rcases w.db.markRun_cases runId patch with ⟨heq, hover⟩ | ⟨heq, -⟩
    · refine Or.inl fun row hrow => ?_
      change (w.db.markRun runId patch).2.run? runId = some row at hrow
      rw [heq] at hrow
      exact hover row hrow
    · refine Or.inr fun row hrow => ?_
      change (w.db.markRun runId patch).2.run? runId = some row at hrow
      rw [heq] at hrow
      exact Db.run?_applied hrow
  | eve heve => cases heve
  | failed e => exact absurd rfl (hr e)
  | lost e => exact absurd rfl (hr e)

/-! ## The condition and the property -/

/-- It waits for a settling update of the run. -/
def settling (r : RunId) : TailFiber → Prop
  | .ready _ => False
  | .blocked op _ => op.settles r

/-- No settling update fails; what fails while the reader opens the tail is caught where it is
awaited; only a tail whose run is latched is detached; and where the reader exits, nothing beside
it waits for a settling update. -/
def Clean (move : Transition.Move LiveTail LiveEvent) : Prop :=
  match move.event with
  | .answer reader op failed => failed = true → ¬ op.settles move.before.mem.runId ∧
      (reader = true → move.before.mem.phase = .opening → op.caught = true)
  | .detach => move.before.mem.finished = true
  | .turn => move.after.reader = none → move.after.mem.phase = .exited →
      ∀ f ∈ move.before.sides, ¬ settling move.before.mem.runId f
  | _ => True

namespace LiveTail

def settling (s : LiveTail) : Prop :=
  ∃ f, (s.reader = some f ∨ f ∈ s.sides) ∧ Tailer.settling s.mem.runId f

def outlook (s : LiveTail) : Outlook := ⟨s.world, s.reopened, s.settling⟩

end LiveTail

/-- Every function keeps its contract from here on, and the run is seen to. -/
structure Attended (s : LiveTail) : Prop where
  peace : AtPeace s.mem s.outlook
  reader : ∀ f, s.reader = some f →
    f.Keeps Role.reader.contract (fun _ m o => AtPeace m o) s.mem s.outlook
  sides : ∀ f ∈ s.sides, f.Keeps Role.side.contract (fun _ m o => AtPeace m o) s.mem s.outlook

theorem Role.keeps_mono {role : Role} {f : TailFiber}
    {Q : Except TailError Unit → TailMem → Outlook → Prop} {m m' : TailMem} {o o' : Outlook}
    (h : f.Keeps role.contract Q m o) (hsince : role.Since m m')
    (hover : o.world.isOver m.runId → o'.world.isOver m.runId) :
    f.Keeps role.contract Q m' o' := by
  have hrunId : m'.runId = m.runId := hsince.1.runId
  refine h.mono ?_ ?_ ?_
  · intro op hasks runId patch heq
    obtain ⟨hid, hstatus⟩ := hasks runId patch heq
    refine ⟨hid.trans hrunId.symm, hstatus.imp id fun ⟨hrole, hw, hr⟩ => ⟨hrole, ?_, ?_⟩⟩
    · rw [hsince.2 hrole]
      exact hw
    · rw [hsince.2 hrole]
      exact hr
  · rintro m'' o'' ⟨hsince', hpeace, hover'⟩
    exact ⟨hsince.trans hsince', hpeace, fun h => hrunId ▸ hover' (hrunId.symm ▸ hover h)⟩
  · rintro op r m'' o'' ⟨hsince', hpeace, hrefused, herr⟩
    refine ⟨hsince.trans hsince', hpeace, fun h => hrunId ▸ hrefused h, fun e he => ?_⟩
    obtain ⟨hsettles, hcaught⟩ := herr e he
    refine ⟨hrunId ▸ hsettles, fun hrole => ?_⟩
    rw [← hsince.2 hrole]
    exact hcaught hrole

theorem SeenTo.mono {m : TailMem} {o o' : Outlook} (h : SeenTo m o)
    (hpledged : o.pledged → o'.pledged) (hreopened : o.reopened = true → o'.reopened = true)
    (hover : o.world.isOver m.runId → o'.world.isOver m.runId)
    (hsettled : o.world.isSettled m.runId → o'.world.isSettled m.runId) : SeenTo m o' := by
  rcases h with h | h | h | ⟨hphase, h⟩
  · exact Or.inl (hpledged h)
  · exact Or.inr (Or.inl (hreopened h))
  · exact Or.inr (Or.inr (Or.inl (hover h)))
  · exact Or.inr (Or.inr (Or.inr ⟨hphase, hsettled h⟩))

/-- A turn of one function, among the others. -/
theorem turn_keeps {role : Role} {f : TailFiber} {f' : Option TailFiber} {m m' : TailMem}
    {o : Outlook} (h : f.Keeps role.contract (fun _ m o => AtPeace m o) m o) (hm : AtPeace m o)
    (hturn : f.Turn m f' m') :
    role.contract.turn m m' ∧ Orderly m' ∧ (∀ r, ¬ settling r f) ∧
      (m'.finished = true → (∃ g, f' = some g ∧ settling m'.runId g) ∨ SeenTo m' o) ∧
      ∀ g, f' = some g → g.Keeps role.contract (fun _ m o => AtPeace m o) m' o := by
  have hself : role.contract.others m o m o := ⟨Role.Since.refl role m, hm, id⟩
  cases hturn with
  | @pauses p _ op k hp =>
    obtain ⟨hturn, hleaves, hkeeps⟩ := h.pause hself hp
    refine ⟨hturn, hleaves.1, fun _ => id, fun hf => ?_, ?_⟩
    · exact (hleaves.2 hf).imp (fun hs => ⟨_, rfl, hs⟩) id
    · rintro _ ⟨⟩
      exact hkeeps
  | @ends p _ r hp =>
    obtain ⟨hturn, hpeace⟩ := h.finish hself hp
    exact ⟨hturn, hpeace.1, fun _ => id, fun hf => Or.inr (hpeace.2 hf), fun _ h => nomatch h⟩

/-- A statement is executed: whom it was pledged to settle the run has settled it. -/
theorem answer_seenTo {role : Role} {op : StoreOp} {m : TailMem} {w w' : World}
    {r : Except TailError op.Ret} {reopened : Bool} {pledged : Prop}
    (hasks : role.contract.asks op m) (hr : Answered op w r w')
    (herr : ∀ e, r = .error e → ¬ op.settles m.runId)
    (h : SeenTo m ⟨w, reopened, pledged ∨ op.settles m.runId⟩) :
    SeenTo m ⟨w', reopened, pledged⟩ := by
  cases hop : op.isMarkRun with
  | false =>
    have hunmoved : w.Unmoved w' := by
      rcases hr.world with rfl | rfl
      · exact World.Unmoved.refl _
      · exact StoreOp.exec_unmoved hop w
    refine h.mono (fun hp => hp.resolve_right fun hs => ?_) id hunmoved.isOver hunmoved.isSettled
    cases op with
    | markRun runId patch => cases hop
    | _ => exact hs
  | true =>
    cases op with
    | markRun runId patch =>
      obtain ⟨rfl, hstatus⟩ := hasks runId patch rfl
      by_cases hsettled : patch.status.settled = true
      · rcases hr.applied fun e he => herr e he ⟨rfl, hsettled⟩ with hover | hrow
        · exact Or.inr (Or.inr (Or.inl hover))
        · rcases hstatus with hterminal | ⟨-, -, hrunning⟩
          · exact Or.inr (Or.inr (Or.inl fun row h => (hrow row h).symm ▸ hterminal))
          · refine Or.inr (Or.inr (Or.inr ⟨fun hphase => ?_, fun row h => ?_⟩))
            · rw [hrunning hphase] at hsettled
              cases hsettled
            · exact (hrow row h).symm ▸ hsettled
      · have hphase : m.phase = .opening := by
          by_contra hphase
          rcases hstatus with hterminal | ⟨-, hwaiting, -⟩
          · exact hsettled (RunStatus.settled_of_terminal hterminal)
          · exact hsettled (by rw [hwaiting hphase]; rfl)
        rcases h with (hp | hs) | hreopened | hover | ⟨hne, -⟩
        · exact Or.inl hp
        · exact absurd hs.2 hsettled
        · exact Or.inr (Or.inl hreopened)
        · exact Or.inr (Or.inr (Or.inl (hr.isOver hover)))
        · exact absurd hphase hne
    | _ => cases hop

theorem answer_keeps {role : Role} {op : StoreOp} {k : Except TailError op.Ret → Tail Unit}
    {m : TailMem} {o o' : Outlook} {w' : World} {r : Except TailError op.Ret}
    (h : (Fiber.blocked op k : TailFiber).Keeps role.contract (fun _ m o => AtPeace m o) m o)
    (hr : Answered op o.world r w') (ho : o'.world = w')
    (herr : ∀ e, r = .error e → ¬ op.settles m.runId ∧
      (role = .reader → m.phase = .opening → op.caught = true)) :
    (Fiber.ready (k r) : TailFiber).Keeps role.contract (fun _ m o => AtPeace m o) m o' := by
  refine h.answer ?_
  rintro m' o'' ⟨hsince, hpeace, hover⟩
  refine ⟨hsince, hpeace, fun hrefused => hover ?_, herr⟩
  rw [ho]
  cases op with
  | markRun runId patch =>
    obtain ⟨hid, -⟩ := h.1 runId patch rfl
    cases r with
    | ok marked => exact hid ▸ hr.refused (congrArg Except.ok hrefused.symm)
    | error e => cases hrefused
  | _ => cases hrefused

theorem Later.side {m m' : TailMem} (h : Later m m') : Role.side.Since m m' :=
  ⟨h, fun hr => nomatch hr⟩

namespace Attended

variable {s s' : LiveTail}

theorem moved (h : Attended s) (hpeace : AtPeace s'.mem s'.outlook)
    (hreader : s'.reader = s.reader) (hsides : s'.sides = s.sides)
    (hsince : Role.reader.Since s.mem s'.mem)
    (hover : s.world.isOver s.mem.runId → s'.world.isOver s.mem.runId) : Attended s' where
  peace := hpeace
  reader := fun f hf => Role.keeps_mono (h.reader f (hreader ▸ hf)) hsince hover
  sides := fun f hf => Role.keeps_mono (h.sides f (hsides ▸ hf)) hsince.1.side hover

theorem program (h : Attended s) {p : Tail Unit} (hnone : s.reader = none)
    (hp : ∀ m o, m.phase = s.mem.phase → AtPeace m o →
      p.Guards Role.reader.contract m o Rests) :
    Attended { s with reader := some (.ready p) } where
  peace := by
    refine ⟨h.peace.1, fun hf => (h.peace.2 hf).mono ?_ id id id⟩
    rintro ⟨f, hf, hs⟩
    rw [hnone] at hf
    exact ⟨f, Or.inr (hf.resolve_left fun h => nomatch h), hs⟩
  reader := by
    rintro _ ⟨⟩ m' o' ⟨hsince, hpeace, -⟩
    exact (hp m' o' (hsince.2 rfl) hpeace).mono fun _ _ _ h => h.1
  sides := fun f hf => Role.keeps_mono (h.sides f hf) (Role.Since.refl _ _) id

theorem turn (h : Attended s) {f : TailFiber} {f' : Option TailFiber} {m' : TailMem}
    (hf : s.reader = some f) (hturn : f.Turn s.mem f' m') :
    Attended { s with mem := m', reader := f' } := by
  obtain ⟨hchange, horderly, hready, hseen, hkeeps⟩ := turn_keeps (h.reader f hf) h.peace hturn
  have hrunId : m'.runId = s.mem.runId := hchange.1.runId
  constructor
  case peace =>
    refine ⟨horderly, fun hfinished => ?_⟩
    rcases hseen hfinished with ⟨g, hg, hs⟩ | hs
    · exact Or.inl ⟨g, Or.inl hg, hs⟩
    · refine hs.mono (fun ⟨g, hg, hs⟩ => ⟨g, ?_, hrunId.symm ▸ hs⟩) id id id
      rcases hg with hg | hg
      · rw [hf] at hg
        cases hg
        exact absurd hs (hready _)
      · exact Or.inr hg
  case reader => exact fun g hg => Role.keeps_mono (hkeeps g hg) (Role.Since.refl _ _) id
  case sides => exact fun g hg => Role.keeps_mono (h.sides g hg) hchange.1.side id

theorem sideTurn (h : Attended s) {before after : List TailFiber} {f : TailFiber}
    {f' : Option TailFiber} {m' : TailMem} (hsides : s.sides = before ++ f :: after)
    (hturn : f.Turn s.mem f' m') :
    Attended { s with mem := m', sides := before ++ (f'.toList ++ after) } := by
  have hmem : f ∈ s.sides := hsides ▸ List.mem_append_right _ List.mem_cons_self
  obtain ⟨hchange, horderly, hready, hseen, hkeeps⟩ := turn_keeps (h.sides f hmem) h.peace hturn
  have hrunId : m'.runId = s.mem.runId := hchange.1.runId
  have hother {g : TailFiber} (hg : g ∈ s.sides) (hne : g ≠ f) :
      g ∈ before ++ (f'.toList ++ after) := by
    rw [hsides] at hg
    rcases List.mem_append.mp hg with hg | hg
    · exact List.mem_append_left _ hg
    · rcases List.mem_cons.mp hg with rfl | hg
      · exact absurd rfl hne
      · exact List.mem_append_right _ (List.mem_append_right _ hg)
  constructor
  case peace =>
    refine ⟨horderly, fun hfinished => ?_⟩
    rcases hseen hfinished with ⟨g, hg, hs⟩ | hs
    · refine Or.inl ⟨g, Or.inr (List.mem_append_right _ (List.mem_append_left _ ?_)), hs⟩
      rw [hg]
      exact List.mem_singleton.mpr rfl
    · refine hs.mono (fun ⟨g, hg, hs⟩ => ⟨g, ?_, hrunId.symm ▸ hs⟩) id id id
      refine hg.imp id fun hg => hother hg ?_
      rintro rfl
      exact hready _ hs
  case reader =>
    exact fun g hg => Role.keeps_mono (h.reader g hg) ⟨hchange.1, fun _ => hchange.2 rfl⟩ id
  case sides =>
    intro g hg
    rcases List.mem_append.mp hg with hg | hg
    · have hin : g ∈ s.sides := hsides ▸ List.mem_append_left _ hg
      exact Role.keeps_mono (h.sides g hin) hchange.1.side id
    · rcases List.mem_append.mp hg with hg | hg
      · exact Role.keeps_mono (hkeeps g (Option.mem_toList.mp hg)) (Role.Since.refl _ _) id
      · have hin : g ∈ s.sides := hsides ▸ List.mem_append_right _ (List.mem_cons_of_mem _ hg)
        exact Role.keeps_mono (h.sides g hin) hchange.1.side id

theorem answer (h : Attended s) {op : StoreOp} {k : Except TailError op.Ret → Tail Unit}
    {r : Except TailError op.Ret} {w' : World} (hf : s.reader = some (.blocked op k))
    (hr : Answered op s.world r w') (herr : ∀ e, r = .error e → ¬ op.settles s.mem.runId ∧
      (s.mem.phase = .opening → op.caught = true)) :
    Attended { s with world := w', reader := some (.ready (k r)) } := by
  have hkeeps := h.reader _ hf
  constructor
  case peace =>
    refine ⟨h.peace.1, fun hfinished => answer_seenTo hkeeps.1 hr (fun e he => (herr e he).1) ?_⟩
    refine (h.peace.2 hfinished).mono (fun ⟨g, hg, hs⟩ => ?_) id id id
    rcases hg with hg | hg
    · rw [hf] at hg
      cases hg
      exact Or.inr hs
    · exact Or.inl ⟨g, Or.inr hg, hs⟩
  case reader =>
    rintro _ ⟨⟩
    exact answer_keeps hkeeps hr rfl fun e he => ⟨(herr e he).1, fun _ => (herr e he).2⟩
  case sides =>
    exact fun g hg => Role.keeps_mono (h.sides g hg) (Role.Since.refl _ _) fun hw => hr.isOver hw

end Attended

/-- The store refuses the updates that settle. -/
def settlingFails (op : StoreOp) (w : World) : Except TailError op.Ret × World :=
  match op with
  | .markRun runId patch =>
    if patch.status.settled then (.error .store, w)
    else StoreOp.exec (.markRun runId patch) w
  | op => op.exec w

/-- The reader has run a program to its end. -/
def LiveTail.ran (s : LiveTail) (p : Tail Unit) : LiveTail :=
  { s with
    mem := ((p s.mem).exec settlingFails s.world).2.1
    world := ((p s.mem).exec settlingFails s.world).2.2
    reader := none }

end InvisibleString.Tailer
