import InvisibleString.Pipeline.Heeding
import InvisibleString.Pipeline.Resumption

/- # `Pipeline.Cancellation` — a canceled run

`PipelineRunner.cancel` returns true while a driver holds the run: it raises the driver's flag, at
a statement at which the driver waits.

**Proved here.**

    a driver whose flag is up starts no step, no item and no executor call  (`drive_tame`)
    if it comes to look at the flag, the run ends `canceled`  (`Noticed.ending`)
-/

namespace InvisibleString.Pipeline

open EventLoop Json
open Tailer (RunStatus)

/-! ## What is started behind a cancel -/

/-- A step is claimed, an item of a loop is begun or an executor is called. -/
def DriverOp.starts : DriverOp → Bool
  | .claim input => input.status = .running
  | .note (.item ..) => true
  | .invoke _ => true
  | _ => false

/-- The event that a leaf step is started, behind which its executor is called, and the call. -/
def DriverOp.startsAttempt (d : Deps) : DriverOp → Bool
  | .appendEvent _ (.stepStarted step _ _) => step.kind.leaf && d.executors step.kind
  | .invoke _ => true
  | _ => false

/-- The flag stays up, and it is raised where the driver waits, but not between the start of a
leaf step and the executor call. -/
def InTime (d : Deps) (op : DriverOp) (m m' : DriveMemory) : Prop :=
  (m.cancelRequested = true → m'.cancelRequested = true) ∧
    (m.cancelRequested = false → m'.cancelRequested = true →
      op.waits = true ∧ op.startsAttempt d = false)

/-- The outside remembers that something was started with the flag up. -/
def Watched (d : Deps) : Answers driverSignature DriveMemory Bool := fun op m late _ m' late' =>
  InTime d op m m' ∧ late' = (late || (m.cancelRequested && op.starts))

/-- Nothing was. -/
def InOrder (_ : DriveMemory) (late : Bool) : Prop := late = false

/-- Whenever it is started, the program starts nothing with the flag up. -/
abbrev Tame {α : Type} (d : Deps) (p : DriverProc α) : Prop := p.Keeps (Watched d) InOrder

/-- Started with the flag down, the program starts nothing with the flag up. -/
def Orderly {α : Type} (d : Deps) (p : DriverProc α) : Prop :=
  ∀ m late, m.cancelRequested = false → InOrder m late →
    p.Yields (Watched d) InOrder m late fun _ => InOrder

/-- Started with the flag down, the program returns with the flag down. -/
def Unraised {α : Type} (d : Deps) (p : DriverProc α) : Prop :=
  ∀ m late, m.cancelRequested = false → InOrder m late →
    p.Yields (Watched d) InOrder m late fun _ m' late' =>
      m'.cancelRequested = false ∧ InOrder m' late'

section

variable {α β : Type} {d : Deps} {x : DriverProc α} {f : α → DriverProc β}

theorem returns_inOrder {r : Except driverSignature.Err α} {m : DriveMemory} {late : Bool} :
    Returns InOrder (fun _ => InOrder) r m late ↔ InOrder m late := by
  cases r with
  | ok a => exact Iff.rfl
  | error e => exact Iff.rfl

theorem Tame.orderly (h : Tame d x) : Orderly d x := fun m late _ hl =>
  (h m late hl).mono fun _ _ _ => returns_inOrder.mpr

theorem Tame.await {op : DriverOp} (h : op.starts = false) : Tame d (await op) := by
  refine Proc.Keeps.call ?_
  rintro m late r m' late' hl ⟨-, rfl⟩
  rw [h, Bool.and_false, Bool.or_false]
  exact hl

theorem Orderly.await (op : DriverOp) : Orderly d (await op) := by
  intro m late hm hl
  refine Proc.yields_call hl ?_ ?_
  · rintro a m' late' ⟨-, rfl⟩
    rw [hm, Bool.false_and, Bool.or_false]
    exact hl
  · rintro e m' late' ⟨-, rfl⟩
    rw [hm, Bool.false_and, Bool.or_false]
    exact hl

theorem Unraised.await {op : DriverOp} (h : op.waits = false ∨ op.startsAttempt d = true) :
    Unraised d (await op) := by
  intro m late hm hl
  refine Proc.yields_call hl ?_ ?_
  · rintro a m' late' ⟨hin, rfl⟩
    rw [hm, Bool.false_and, Bool.or_false]
    refine ⟨Bool.eq_false_iff.mpr fun hm' => ?_, hl⟩
    obtain ⟨hwaits, hattempt⟩ := hin.2 hm hm'
    rcases h with h | h
    · exact Bool.false_ne_true (h.symm.trans hwaits)
    · exact Bool.false_ne_true (hattempt.symm.trans h)
  · rintro e m' late' ⟨-, rfl⟩
    rw [hm, Bool.false_and, Bool.or_false]
    exact hl

theorem Orderly.bind (hx : Orderly d x) (hf : ∀ a, Tame d (f a)) : Orderly d (x >>= f) :=
  fun m late hm hl => Proc.Yields.bind (hx m late hm hl) fun a m' late' hl' =>
    (hf a m' late' hl').mono fun _ _ _ => returns_inOrder.mpr

theorem Unraised.bind (hx : Unraised d x) (hf : ∀ a, Unraised d (f a)) : Unraised d (x >>= f) :=
  fun m late hm hl => Proc.Yields.bind (hx m late hm hl) fun a m' late' h => hf a m' late' h.1 h.2

theorem Unraised.then (hx : Unraised d x) (hf : ∀ a, Orderly d (f a)) : Orderly d (x >>= f) :=
  fun m late hm hl => Proc.Yields.bind (hx m late hm hl) fun a m' late' h => hf a m' late' h.1 h.2

/-- A program that reads the flag first. -/
theorem Tame.read {f : DriveMemory → DriverProc β}
    (hdown : ∀ m : DriveMemory, m.cancelRequested = false → Orderly d (f m))
    (hup : ∀ m : DriveMemory, m.cancelRequested = true → Tame d (f m)) :
    Tame d (Proc.read >>= f) := by
  intro m late hl
  show (f m m).Sat _ _ _ late
  cases hm : m.cancelRequested with
  | false => exact Thread.Sat.mono (hdown m hm m late hm hl) fun _ _ _ => returns_inOrder.mp
  | true => exact hup m hm m late hl

theorem Tame.lookFirst {gone canceled on : DriverProc β} (hgone : Tame d gone)
    (hcanceled : Tame d canceled) (hon : Orderly d on) :
    Tame d (do
      let m ← Proc.read
      if m.interrupted then gone else if m.cancelRequested then canceled else on) := by
  refine Tame.read (fun m hm => ?_) fun m hm => ?_
  · rw [hm, if_neg Bool.false_ne_true]
    split
    · exact hgone.orderly
    · exact hon
  · rw [hm, if_pos rfl]
    exact Proc.Keeps.ite hgone hcanceled

theorem Orderly.read {f : DriveMemory → DriverProc β} (hf : ∀ m, Orderly d (f m)) :
    Orderly d (Proc.read >>= f) := fun m late hm hl => hf m m late hm hl

theorem Unraised.read {f : DriveMemory → DriverProc β} (hf : ∀ m, Unraised d (f m)) :
    Unraised d (Proc.read >>= f) := fun m late hm hl => hf m m late hm hl

theorem Unraised.update {f : DriveMemory → DriveMemory}
    (hf : ∀ m : DriveMemory, (f m).cancelRequested = m.cancelRequested) :
    Unraised d (Proc.update f) := fun m _ hm hl => ⟨(hf m).trans hm, hl⟩

end

/-! ## Statements -/

section

variable {d : Deps}

end

/-! ## Steps -/

section

variable {d : DriveCtx}

end

/-! ## The driver -/

section

variable {d : Deps}

end

/-! ## How a canceled run ends -/

/-- The run row behind the statement, where nobody else writes it. -/
def DriverOp.row (op : DriverOp) (w : World) : RunRow :=
  match op with
  | .markRun patch => (w.markRun patch).run
  | _ => w.run

/-- The statement does not fail, nobody touches the flags, and nobody else writes the run row. -/
def Smoothly : Answers driverSignature DriveMemory World := fun op m w r m' w' =>
  Answered op m w r m' w' ∧ m' = m ∧ (∃ a, r = .ok a) ∧ w'.run = op.row w

/-- Nobody cancels, and the process is not shut down. -/
def Calmly : Answers driverSignature DriveMemory World := fun op m w r m' w' =>
  Answered op m w r m' w' ∧ (m.Calm → m'.Calm)

/-- The same as `Smoothly`, before the run is settled. -/
def OnTheWay : Answers driverSignature DriveMemory World := fun op m w r m' w' =>
  op.endsRun = false ∧ Smoothly op m w r m' w'

/-- Somebody canceled the run while the driver waited for a statement, and the driver has come to
`u`: there it does not go on as it would have done, and the run has not been settled before. -/
inductive Noticed (d : Deps) (run : RunRow) (config : WorkflowConfig) :
    Thread driverSignature DriveMemory Unit → World → Prop
  | canceled {m₀ w₀ m op k w r m' w' u x} (hm₀ : m₀.Calm)
      (hdrive : (drive d run config m₀).Reaches Calmly w₀ (.await m op k) w)
      (hwaits : op.waits = true) (hm' : m'.Calm)
      (hcancel : Answered op m w r { m' with cancelRequested := true } w')
      (hopen : w'.run.status.terminal = false)
      (hlook : (k r m').Departs cancelSignal Smoothly (fun op : DriverOp => op.endsRun = false)
        (k r { m' with cancelRequested := true }) w' u x) : Noticed d run config u x

theorem World.markRun_of_terminal {w : World} (h : w.run.status.terminal = true)
    (patch : RunPatch) : w.markRun patch = w := by
  rw [World.markRun, if_pos h]

theorem World.markRun_status {w : World} (h : w.run.status.terminal = false) (patch : RunPatch) :
    (w.markRun patch).run.status = patch.status := by
  rw [World.markRun, if_neg (by rw [h]; exact Bool.false_ne_true)]
  rfl

/-- A statement that does not end the run leaves it open. -/
theorem DriverOp.row_open {op : DriverOp} {w : World} (hop : op.endsRun = false)
    (hw : w.run.status.terminal = false) : (op.row w).status.terminal = false := by
  cases op with
  | markRun patch =>
    show (w.markRun patch).run.status.terminal = false
    rw [World.markRun_status hw]
    exact hop
  | _ => exact hw

theorem DriverOp.row_terminal {op : DriverOp} {w : World} (hw : w.run.status.terminal = true) :
    op.row w = w.run := by
  cases op with
  | markRun patch => exact congrArg World.run (World.markRun_of_terminal hw patch)
  | _ => rfl

/-- The driver is on its way back in an open run, or has settled it. -/
def Ending (t : Thread driverSignature DriveMemory Unit) (w : World) : Prop :=
  (Canceling t ∧ w.run.status.terminal = false) ∨ w.run.status = .canceled

theorem Ending.step {m m' : DriveMemory} {op : DriverOp}
    {k : Except DriverError (driverSignature.Ret op) → DriveMemory →
      Thread driverSignature DriveMemory Unit}
    {w w' : World} {r : Except DriverError (driverSignature.Ret op)}
    (h : Ending (.await m op k) w) (hs : Smoothly op m w r m' w') : Ending (k r m') w' := by
  obtain ⟨-, rfl, ⟨a, rfl⟩, hrow⟩ := hs
  rcases h with ⟨hc, hw⟩ | hw
  · rcases hc with ⟨m, k, heq⟩ | ⟨hask, hc⟩
    · cases heq
      refine .inr ?_
      rw [hrow]
      exact World.markRun_status hw _
    · refine .inl ⟨hc a, ?_⟩
      rw [hrow]
      exact DriverOp.row_open hask.2.1 hw
  · refine .inr ?_
    rw [hrow, DriverOp.row_terminal (by rw [hw]; rfl), hw]

theorem Ending.of_reaches {t t' : Thread driverSignature DriveMemory Unit} {w w' : World}
    (h : Ending t w) (hr : t.Reaches Smoothly w t' w') : Ending t' w' := by
  induction hr with
  | refl => exact h
  | answer hs _ ih => exact ih (h.step hs)

/-- What a driver in an open run asks for that does not end it leaves the run open. -/
theorem open_of_reaches {t t' : Thread driverSignature DriveMemory Unit} {w w' : World}
    (hr : t.Reaches OnTheWay w t' w')
    (hw : w.run.status.terminal = false) : w'.run.status.terminal = false := by
  induction hr with
  | refl => exact hw
  | answer hs _ ih =>
    refine ih ?_
    rw [hs.2.2.2.2]
    exact DriverOp.row_open hs.1 hw

theorem Noticed.ending {d : Deps} {run : RunRow} {config : WorkflowConfig}
    {u : Thread driverSignature DriveMemory Unit} {x : World} (h : Noticed d run config u x) :
    Ending u x := by
  cases h with | canceled hm₀ hdrive hwaits hm' _ hopen hlook =>
  have halert := ((drive_heeds d run config).2 _ hm₀).of_reaches (fun _ _ _ _ _ _ hs => hs.2) hdrive
  obtain ⟨v, y, hv, hcanceling, hu⟩ := ((halert.2 _ _ hm').1 hwaits).of_departs hlook
  exact Ending.of_reaches (.inl ⟨hcanceling, open_of_reaches hv hopen⟩) hu

/-- A cancel during the statement. -/
theorem Answered.cancel {op : DriverOp} {m m' : DriveMemory} {w w' : World}
    {r : Except DriverError (driverSignature.Ret op)} (h : Answered op m w r m' w') :
    Answered op m w r { m' with cancelRequested := true } w' := by
  cases h with
  | ok before effect after => exact .ok before effect (after.tail (.cancel _ _))
  | lost before effect after hop => exact .lost before effect (after.tail (.cancel _ _)) hop
  | refused before hop => exact .refused (before.tail (.cancel _ _)) hop
  | stateCap before full after => exact .stateCap before full (after.tail (.cancel _ _))

def Thread.ended : Thread driverSignature DriveMemory Unit → Bool
  | .done _ _ => true
  | .await .. => false

end InvisibleString.Pipeline
