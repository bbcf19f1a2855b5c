import InvisibleString.Tailer.Events
import InvisibleString.Lib.OrderedMap
import InvisibleString.Lib.Transition
import Mathlib.Order.Lattice

/- # `Runtime.Sessions` — one session, and everybody who works on it

A session's row and its runs are written by dispatches, HITL answers, context controls, Stops,
tails, the worker sweeper and boot reconciliation.  Each of them reads, waits for eve or for a
worker, and then writes; a step is one statement, and between two statements of one of them the
others go on.  Dispatches and controls hold the session's dispatch lock, tails and the sweeps do
not.  Whatever is under way can end at any point: it throws, or its process dies.

**Proved here.**

    in every run, a dead session stays dead, exactly when the three writes that do not look at the
      row (a tail's verdict, the end of a context control, the sweeper's resume) find it live
                                                      (`stays_dead_iff`, `sweeper_resurrects`)
    where the sweeper and the reconciliation read no run whose message or answer is yet to be
      armed, and no answer is admitted for a run they have read, every tail is started on a run
      whose latest send was armed  (`tails_armed_sends`, `unarmed_answer_tailed`)
-/

namespace InvisibleString.Runtime

open Tailer (RunStatus AgentSessionStatus)
open Transition (Move Trace)

/-! ## Rows -/

/-- `closed` or `error`. -/
def isDead : AgentSessionStatus → Bool
  | .active | .waiting => false
  | .closed | .error => true

structure SessionRun where
  status : RunStatus
  /-- the dispatch-attempt marker -/
  startedAt : Option Nat
  /-- the messages and answers the run was put in queue for; no column says so -/
  sends : Nat
  /-- `sends` as the last arm found it; no column says so -/
  armed : Nat

/-- A run is inserted. -/
def SessionRun.inserted : SessionRun where
  status := .queued
  startedAt := none
  sends := 1
  armed := 0

/-- The latest send was issued, or may have been. -/
def SessionRun.Issued (run : SessionRun) : Prop := run.armed = run.sends

/-! ## What is under way -/

/-- What a dispatch sends. -/
inductive SendForm where
  /-- a new chat session -/
  | chat
  /-- a new session of an agent step -/
  | child
  /-- a message to the session: a chat follow-up, a step that continues its thread -/
  | message
  /-- an answer to the run's pending input -/
  | answer (run : Nat)
  deriving DecidableEq

/-- The session is born in this dispatch. -/
def SendForm.isNew : SendForm → Bool
  | .chat | .child => true
  | .message | .answer _ => false

inductive SendPhase where
  | entering
  | locked
  /-- the session was found live under the lock -/
  | checked
  /-- the run is inserted, or put back to queued -/
  | admitted (run : Nat)
  | armed (run : Nat)
  /-- eve has taken the message -/
  | accepted (run eve : Nat)
  | persisted (run : Nat)
  deriving DecidableEq

inductive ControlPhase where
  | entering
  | locked
  /-- the session was found quiet, eve is asked -/
  | asking
  /-- eve has accepted the control -/
  | finishing
  deriving DecidableEq

/-- Writes that end a dispatch, a control or a sweep. -/
inductive SessionWrite where
  | closeSession
  | errorSession
  | failRun (run : Nat)
  | cancelRun (run : Nat)
  deriving DecidableEq

/-- A row of the reconciliation's query. -/
structure OrphanRow where
  run : Nat
  markerArmed : Bool
  /-- its session has an eve id -/
  eve : Bool
  deriving DecidableEq

inductive SessionOp where
  | sender (form : SendForm) (phase : SendPhase)
  | control (phase : ControlPhase)
  | writing (writes : List SessionWrite) (locked : Bool)
  /-- the sweeper resumes the run; `repointed` says that the session's row is written -/
  | sweeping (run : Nat) (repointed : Bool)
  | reconciling (rows : List OrphanRow)
  deriving DecidableEq

inductive TailStage where
  | starting
  | following
  /-- the run's row is written, the session's is next -/
  | settling (session : AgentSessionStatus)
  deriving DecidableEq

structure SessionPlane where
  now : Nat
  status : AgentSessionStatus
  eveSessionId : Option Nat
  runs : List (Nat × SessionRun)
  /-- who holds the dispatch lock -/
  holder : Option Nat
  ops : List (Nat × SessionOp)
  /-- the tails of this process -/
  tails : List (Nat × TailStage)
  next : Nat

/-! ## Statements -/

namespace SessionPlane

def run? (p : SessionPlane) (run : Nat) : Option SessionRun := OrderedMap.get? run p.runs

def op? (p : SessionPlane) (id : Nat) : Option SessionOp := OrderedMap.get? id p.ops

def setOp (p : SessionPlane) (id : Nat) (op : SessionOp) : SessionPlane :=
  { p with ops := OrderedMap.set id op p.ops }

/-- It is over; its lock is released. -/
def endOp (p : SessionPlane) (id : Nat) : SessionPlane :=
  { p with
    ops := OrderedMap.erase id p.ops
    holder := if p.holder = some id then none else p.holder }

def addOp (p : SessionPlane) (op : SessionOp) : SessionPlane :=
  { p with ops := OrderedMap.set p.next op p.ops, next := p.next + 1 }

def setRun (p : SessionPlane) (run : Nat) (row : SessionRun) : SessionPlane :=
  { p with runs := OrderedMap.set run row p.runs }

/-- The guarded update of a run's row. -/
def markRun (p : SessionPlane) (run : Nat) (f : SessionRun → SessionRun) : SessionPlane :=
  match p.run? run with
  | some row => if row.status.terminal then p else p.setRun run (f row)
  | none => p

def isLiveRun (p : SessionPlane) (run : Nat) : Bool :=
  (p.run? run).any fun row => !row.status.terminal

/-- `countDispatchingRuns` is positive: a live run, or one that was canceled while its create may
be in flight. -/
def busy (p : SessionPlane) (except : Option Nat) : Bool :=
  p.runs.any fun e => some e.1 ≠ except && (!e.2.status.terminal ||
    (e.2.status = .canceled && e.2.startedAt.isSome && p.eveSessionId.isNone))

def startTail (p : SessionPlane) (run : Nat) : SessionPlane :=
  { p with tails := OrderedMap.set run .starting p.tails }

def dropTail (p : SessionPlane) (run : Nat) : SessionPlane :=
  { p with tails := OrderedMap.erase run p.tails }

def write (p : SessionPlane) : SessionWrite → SessionPlane
  | .closeSession => { p with status := .closed }
  | .errorSession => { p with status := .error }
  | .failRun run => p.markRun run fun row => { row with status := .failed }
  | .cancelRun run => p.markRun run fun row => { row with status := .canceled }

/-- `casSessionLive`. -/
def persist (p : SessionPlane) (form : SendForm) (eve : Nat) : SessionPlane :=
  if isDead p.status then p
  else
    { p with
      eveSessionId := some eve
      status := if form = .chat then p.status else .active }

/-- `failEveDispatch`, or `failDispatch` where a chat session is created. -/
def failWrites (p : SessionPlane) (form : SendForm) (run : Nat) (notActive : Bool) :
    List SessionWrite :=
  match form with
  | .chat => [.failRun run, .errorSession]
  | _ =>
    if notActive then [.closeSession, .failRun run]
    else
      (if ((p.run? run).any fun row => row.startedAt.isSome) && p.eveSessionId.isNone then
        [.closeSession] else []) ++ [.failRun run] ++ if form.isNew then [.errorSession] else []

/-- The orphans boot reconciliation finds. -/
def orphans (p : SessionPlane) : List OrphanRow :=
  (p.runs.filter fun e => e.2.status = .queued ∨ e.2.status = .running).map fun e =>
    ⟨e.1, e.2.startedAt.isSome, p.eveSessionId.isSome⟩

end SessionPlane

/-! ## Steps -/

inductive SessionEvent where
  | create (form : SendForm)
  | enter (form : SendForm)
  | acquire (op : Nat)
  | check (op : Nat)
  | insertRun (op : Nat)
  | answer (op run : Nat)
  | arm (op : Nat)
  | abandon (op : Nat)
  | disallowed (op : Nat)
  | failed (op : Nat) (notActive : Bool)
  | accept (op eve : Nat)
  | persist (op : Nat)
  | canceledDuringEve (op : Nat) (observing : Bool)
  | startTail (op run : Nat)
  | control
  | quiet (op : Nat)
  | accepted (op : Nat)
  /-- eve: the session is dead; or it was reset -/
  | dead (op : Nat)
  | finishControl (op : Nat)
  | write (op : Nat)
  | ends (op : Nat)
  | stop (run : Nat)
  | evict
  | heal
  | adopt (run : Nat)
  | verdict (run : Nat) (status : RunStatus) (session : AgentSessionStatus)
  | settle (run : Nat)
  | gone (run : Nat)
  | sweep (run : Nat)
  | sweepEveless (run : Nat)
  | repoint (op : Nat)
  | retail (op run : Nat)
  | reconcile
  | resume (op run : Nat)
  | orphanFails (op run : Nat)
  | skip (op run : Nat)
  | pass (ms : Nat)
  deriving DecidableEq

inductive SessionStep : SessionPlane → SessionEvent → SessionPlane → Prop
  -- the session and its first run, in one transaction under the lock of the minted id
  | create (p : SessionPlane) (form : SendForm) (hnew : form.isNew = true) (hruns : p.runs = [])
      (heve : p.eveSessionId = none) (hfree : p.holder = none) :
      SessionStep p (.create form)
        ({ p.setRun 0 .inserted with holder := some p.next }.addOp (.sender form (.admitted 0)))
  | enter (p : SessionPlane) (form : SendForm) (hnew : form.isNew = false)
      (hlive : isDead p.status = false) :
      SessionStep p (.enter form) (p.addOp (.sender form .entering))
  | acquire (p : SessionPlane) (id : Nat) (form : SendForm) (hfree : p.holder = none)
      (h : p.op? id = some (.sender form .entering)) :
      SessionStep p (.acquire id) ({ p with holder := some id }.setOp id (.sender form .locked))
  | check (p : SessionPlane) (id : Nat) (h : p.op? id = some (.sender .message .locked))
      (hlive : isDead p.status = false) :
      SessionStep p (.check id) (p.setOp id (.sender .message .checked))
  | insertRun (p : SessionPlane) (id : Nat) (h : p.op? id = some (.sender .message .checked))
      (hbusy : p.busy none = false) :
      SessionStep p (.insertRun id)
        ({ p.setRun p.next .inserted with next := p.next + 1 }.setOp id
          (.sender .message (.admitted p.next)))
  -- the flip from waiting to queued
  | answer (p : SessionPlane) (id run : Nat) (row : SessionRun)
      (h : p.op? id = some (.sender (.answer run) .locked)) (hrow : p.run? run = some row)
      (hwaiting : row.status = .waiting) (hbusy : p.busy (some run) = false) :
      SessionStep p (.answer id run)
        ((p.setRun run { row with status := .queued, sends := row.sends + 1 }).setOp id
          (.sender (.answer run) (.admitted run)))
  | arm (p : SessionPlane) (id run : Nat) (form : SendForm)
      (h : p.op? id = some (.sender form (.admitted run))) (hlive : p.isLiveRun run = true) :
      SessionStep p (.arm id)
        ((p.markRun run fun row =>
          { row with status := .queued, startedAt := some p.now, armed := row.sends }).setOp id
            (.sender form (.armed run)))
  -- a Stop was faster
  | abandon (p : SessionPlane) (id run : Nat) (form : SendForm) (phase : SendPhase)
      (hphase : phase = .admitted run ∨ phase = .armed run)
      (hfence : (phase = .admitted run ∧ p.isLiveRun run = false) ∨ form = .child ∨ form = .message)
      (h : p.op? id = some (.sender form phase)) :
      SessionStep p (.abandon id)
        (p.setOp id (.writing ((if form = .child ∨ form = .message then [.cancelRun run] else []) ++
          if form.isNew then [.closeSession] else []) true))
  | disallowed (p : SessionPlane) (id run : Nat) (form : SendForm)
      (hform : form = .child ∨ form = .message)
      (h : p.op? id = some (.sender form (.admitted run))) :
      SessionStep p (.disallowed id)
        (p.setOp id (.writing (.failRun run :: if form.isNew then [.errorSession] else []) true))
  -- the worker, or eve, has failed the dispatch
  | failed (p : SessionPlane) (id run : Nat) (form : SendForm) (phase : SendPhase)
      (notActive : Bool) (hphase : phase = .admitted run ∨ phase = .armed run)
      (h : p.op? id = some (.sender form phase)) :
      SessionStep p (.failed id notActive)
        (p.setOp id (.writing (p.failWrites form run notActive) true))
  | accept (p : SessionPlane) (id run eve : Nat) (form : SendForm)
      (h : p.op? id = some (.sender form (.armed run)))
      (heve : p.eveSessionId = none ∨ p.eveSessionId = some eve) :
      SessionStep p (.accept id eve) (p.setOp id (.sender form (.accepted run eve)))
  | persist (p : SessionPlane) (id run eve : Nat) (form : SendForm)
      (h : p.op? id = some (.sender form (.accepted run eve))) :
      SessionStep p (.persist id) ((p.persist form eve).setOp id (.sender form (.persisted run)))
  | canceledDuringEve (p : SessionPlane) (id run : Nat) (form : SendForm) (observing : Bool)
      (h : p.op? id = some (.sender form (.persisted run))) (hover : p.isLiveRun run = false) :
      SessionStep p (.canceledDuringEve id observing)
        (p.setOp id (.writing (if form.isNew && observing then [.closeSession] else []) true))
  | startTail (p : SessionPlane) (id run : Nat) (form : SendForm)
      (h : p.op? id = some (.sender form (.persisted run))) (hlive : p.isLiveRun run = true) :
      SessionStep p (.startTail id run) ((p.startTail run).endOp id)
  | control (p : SessionPlane) : SessionStep p .control (p.addOp (.control .entering))
  | acquireControl (p : SessionPlane) (id : Nat) (hfree : p.holder = none)
      (h : p.op? id = some (.control .entering)) :
      SessionStep p (.acquire id) ({ p with holder := some id }.setOp id (.control .locked))
  | quiet (p : SessionPlane) (id : Nat) (h : p.op? id = some (.control .locked))
      (hlive : isDead p.status = false) (heve : p.eveSessionId.isSome = true)
      (hbusy : p.busy none = false) (htails : p.tails = []) :
      SessionStep p (.quiet id) (p.setOp id (.control .asking))
  | accepted (p : SessionPlane) (id : Nat) (h : p.op? id = some (.control .asking)) :
      SessionStep p (.accepted id) (p.setOp id (.control .finishing))
  | dead (p : SessionPlane) (id : Nat) (h : p.op? id = some (.control .asking)) :
      SessionStep p (.dead id) (p.setOp id (.writing [.closeSession] true))
  -- the row is written as it is
  | finishControl (p : SessionPlane) (id : Nat) (h : p.op? id = some (.control .finishing)) :
      SessionStep p (.finishControl id) ({ p with status := .active }.setOp id (.writing [] true))
  | write (p : SessionPlane) (id : Nat) (w : SessionWrite) (writes : List SessionWrite)
      (locked : Bool) (h : p.op? id = some (.writing (w :: writes) locked)) :
      SessionStep p (.write id) ((p.write w).setOp id (.writing writes locked))
  -- done, thrown or dead
  | ends (p : SessionPlane) (id : Nat) : SessionStep p (.ends id) (p.endOp id)
  | stop (p : SessionPlane) (run : Nat) :
      SessionStep p (.stop run) (p.markRun run fun row => { row with status := .canceled })
  -- an agent step replaces its child that never reached eve
  | evict (p : SessionPlane) (run : Nat) (row : SessionRun) (hrow : p.run? run = some row)
      (hfailed : row.status = .failed) (hmarker : row.startedAt = none)
      (heve : p.eveSessionId = none) :
      SessionStep p .evict (p.addOp (.writing [.errorSession] false))
  | heal (p : SessionPlane) (heve : p.eveSessionId = none) (hlive : isDead p.status = false)
      (hbusy : ∀ e ∈ p.runs, e.2.status.terminal = true) :
      SessionStep p .heal { p with status := .closed }
  | adopt (p : SessionPlane) (run : Nat) (startedAt : Option Nat)
      (h : OrderedMap.get? run p.tails = some .starting) (hlive : p.isLiveRun run = true) :
      SessionStep p (.adopt run)
        { p.markRun run fun row =>
            { row with status := .running, startedAt := startedAt.or row.startedAt } with
          tails := OrderedMap.set run .following p.tails }
  | verdict (p : SessionPlane) (run : Nat) (status : RunStatus) (session : AgentSessionStatus)
      (h : (OrderedMap.get? run p.tails).isSome = true) (hlive : p.isLiveRun run = true)
      (hstatus : status ≠ .queued ∧ status ≠ .running) :
      SessionStep p (.verdict run status session)
        { p.markRun run fun row => { row with status := status } with
          tails := OrderedMap.set run (.settling session) p.tails }
  -- the row is written as it is
  | settle (p : SessionPlane) (run : Nat) (session : AgentSessionStatus)
      (h : OrderedMap.get? run p.tails = some (.settling session)) :
      SessionStep p (.settle run) { p.dropTail run with status := session }
  -- refused, detached, failed or dead
  | gone (p : SessionPlane) (run : Nat) : SessionStep p (.gone run) (p.dropTail run)
  | sweep (p : SessionPlane) (run : Nat) (row : SessionRun) (hrow : p.run? run = some row)
      (hstatus : row.status = .queued ∨ row.status = .running)
      (heve : p.eveSessionId.isSome = true) :
      SessionStep p (.sweep run) (p.addOp (.sweeping run false))
  | sweepEveless (p : SessionPlane) (run : Nat) (hlive : p.isLiveRun run = true)
      (heve : p.eveSessionId = none) :
      SessionStep p (.sweepEveless run) (p.addOp (.writing [.failRun run] false))
  -- the row is written as it is
  | repoint (p : SessionPlane) (id run : Nat) (h : p.op? id = some (.sweeping run false)) :
      SessionStep p (.repoint id) ({ p with status := .active }.setOp id (.sweeping run true))
  | retail (p : SessionPlane) (id run : Nat) (h : p.op? id = some (.sweeping run true)) :
      SessionStep p (.retail id run) ((p.startTail run).endOp id)
  | reconcile (p : SessionPlane) :
      SessionStep p .reconcile (p.addOp (.reconciling p.orphans))
  | resume (p : SessionPlane) (id : Nat) (row : OrphanRow) (rows : List OrphanRow)
      (h : p.op? id = some (.reconciling (row :: rows)))
      (htail : OrderedMap.get? row.run p.tails = none) (hmarker : row.markerArmed = true)
      (heve : row.eve = true) :
      SessionStep p (.resume id row.run) ((p.startTail row.run).setOp id (.reconciling rows))
  -- no marker, no eve id, or no live worker
  | orphanFails (p : SessionPlane) (id : Nat) (row : OrphanRow) (rows : List OrphanRow)
      (h : p.op? id = some (.reconciling (row :: rows)))
      (htail : OrderedMap.get? row.run p.tails = none) :
      SessionStep p (.orphanFails id row.run)
        ((p.markRun row.run fun r => { r with status := .failed }).setOp id (.reconciling rows))
  | skip (p : SessionPlane) (id : Nat) (row : OrphanRow) (rows : List OrphanRow)
      (h : p.op? id = some (.reconciling (row :: rows)))
      (htail : (OrderedMap.get? row.run p.tails).isSome = true) :
      SessionStep p (.skip id row.run) (p.setOp id (.reconciling rows))
  | pass (p : SessionPlane) (ms : Nat) : SessionStep p (.pass ms) { p with now := p.now + ms }

/-! ## A dead session stays dead -/

/-- The step does not bring the session back. -/
def StaysDead (move : Move SessionPlane SessionEvent) : Prop :=
  isDead move.before.status = true → isDead move.after.status = true

/-- The writes that do not look at the session's row find it live. -/
def BlindWritesLive (move : Move SessionPlane SessionEvent) : Prop :=
  match move.event with
  | .finishControl _ | .repoint _ => isDead move.before.status = false
  | .settle run => ∀ session, OrderedMap.get? run move.before.tails = some (.settling session) →
      isDead session = false → isDead move.before.status = false
  | _ => True

namespace SessionPlane

variable {p p' : SessionPlane}

@[simp] theorem status_setOp (id : Nat) (op : SessionOp) : (p.setOp id op).status = p.status := rfl

theorem markRun_cases (p : SessionPlane) (run : Nat) (f : SessionRun → SessionRun) :
    p.markRun run f = p ∨ ∃ row, p.run? run = some row ∧ p.markRun run f = p.setRun run (f row) := by
  unfold markRun
  split
  · next row hrow =>
    split
    · exact Or.inl rfl
    · exact Or.inr ⟨row, hrow, rfl⟩
  · exact Or.inl rfl

@[simp] theorem status_markRun (run : Nat) (f : SessionRun → SessionRun) :
    (p.markRun run f).status = p.status := by
  rcases p.markRun_cases run f with h | ⟨row, -, h⟩
  · rw [h]
  · rw [h]
    rfl

theorem holder_markRun (run : Nat) (f : SessionRun → SessionRun) :
    (p.markRun run f).holder = p.holder := by
  rcases p.markRun_cases run f with h | ⟨row, -, h⟩
  · rw [h]
  · rw [h]
    rfl

theorem op?_markRun (run : Nat) (f : SessionRun → SessionRun) (id : Nat) :
    (p.markRun run f).op? id = p.op? id := by
  rcases p.markRun_cases run f with h | ⟨row, -, h⟩
  · rw [h]
  · rw [h]
    rfl

theorem tails_markRun (run : Nat) (f : SessionRun → SessionRun) :
    (p.markRun run f).tails = p.tails := by
  rcases p.markRun_cases run f with h | ⟨row, -, h⟩
  · rw [h]
  · rw [h]
    rfl

theorem holder_write (w : SessionWrite) : (p.write w).holder = p.holder := by
  cases w with
  | closeSession => rfl
  | errorSession => rfl
  | failRun run => exact p.holder_markRun run _
  | cancelRun run => exact p.holder_markRun run _

/-- The compare-and-set of a dispatch. -/
theorem isDead_persist (form : SendForm) (eve : Nat) (h : isDead p.status = true) :
    isDead (p.persist form eve).status = true := by
  unfold persist
  rw [if_pos h]
  exact h

theorem isDead_write (w : SessionWrite) (h : isDead p.status = true) :
    isDead (p.write w).status = true := by
  cases w with
  | closeSession => rfl
  | errorSession => rfl
  | failRun run => rw [write, status_markRun, h]
  | cancelRun run => rw [write, status_markRun, h]

end SessionPlane

theorem SessionStep.staysDead_iff (move : Move SessionPlane SessionEvent)
    (hstep : SessionStep move.before move.event move.after) :
    StaysDead move ↔ BlindWritesLive move := by
  rcases move with ⟨p, event, p'⟩
  change SessionStep p event p' at hstep
  cases hstep with
  | finishControl id _ =>
    constructor
    · intro h
      cases hdead : isDead p.status with
      | false => exact hdead
      | true => exact absurd (h hdead) Bool.noConfusion
    · intro h hdead
      exact absurd (h.symm.trans hdead) Bool.noConfusion
  | repoint id run _ =>
    constructor
    · intro h
      cases hdead : isDead p.status with
      | false => exact hdead
      | true => exact absurd (h hdead) Bool.noConfusion
    · intro h hdead
      exact absurd (h.symm.trans hdead) Bool.noConfusion
  | settle run session hstage =>
    constructor
    · intro h session' hstage' hlive
      change OrderedMap.get? run p.tails = _ at hstage'
      rw [hstage] at hstage'
      cases hstage'
      cases hdead : isDead p.status with
      | false => rfl
      | true => exact absurd (hlive.symm.trans (h hdead)) Bool.noConfusion
    · intro h hdead
      show isDead session = true
      cases hsession : isDead session with
      | true => rfl
      | false => exact absurd ((h session hstage hsession).symm.trans hdead) Bool.noConfusion
  | persist id run eve form _ =>
    exact ⟨fun _ => trivial, fun _ h => SessionPlane.isDead_persist form eve h⟩
  | write id w writes locked _ =>
    exact ⟨fun _ => trivial, fun _ h => SessionPlane.isDead_write w h⟩
  | heal _ _ _ => exact ⟨fun _ => trivial, fun _ _ => rfl⟩
  | stop run => exact ⟨fun _ => trivial, fun _ h => by
      rw [SessionPlane.status_markRun]
      exact h⟩
  | arm id run form _ _ => exact ⟨fun _ => trivial, fun _ h => by
      rw [SessionPlane.status_setOp, SessionPlane.status_markRun]
      exact h⟩
  | adopt run startedAt _ _ => exact ⟨fun _ => trivial, fun _ h => by
      show isDead (p.markRun run _).status = true
      rw [SessionPlane.status_markRun]
      exact h⟩
  | verdict run status session _ _ _ => exact ⟨fun _ => trivial, fun _ h => by
      show isDead (p.markRun run _).status = true
      rw [SessionPlane.status_markRun]
      exact h⟩
  | orphanFails id row rows _ _ => exact ⟨fun _ => trivial, fun _ h => by
      rw [SessionPlane.status_setOp, SessionPlane.status_markRun]
      exact h⟩
  | create | enter | acquire | check | insertRun | answer | abandon | disallowed | failed | accept
  | canceledDuringEve | startTail | control | acquireControl | quiet | accepted | dead | ends
  | evict | gone | sweep | sweepEveless | retail | reconcile | resume | skip | pass =>
    exact ⟨fun _ => trivial, fun _ h => h⟩

/-- In every run, a session that is closed or failed is never brought back, if and only if the
three writes that do not look at its row find it live: a tail's verdict, the end of a context
control, the sweeper's resume. -/
theorem stays_dead_iff (p p' : SessionPlane) (moves : List (Move SessionPlane SessionEvent))
    (hrun : Trace SessionStep p moves p') :
    (∀ move ∈ moves, StaysDead move) ↔ ∀ move ∈ moves, BlindWritesLive move := by
  refine hrun.forall_iff (fun _ => True) (fun _ => True) ?_ ?_ (fun _ _ => trivial) trivial
  · exact fun move hstep _ _ => SessionStep.staysDead_iff move hstep
  · exact fun _ _ _ _ _ => trivial

/-- A session that was just minted. -/
def mintedSession : SessionPlane where
  now := 0
  status := .active
  eveSessionId := none
  runs := []
  holder := none
  ops := []
  tails := []
  next := 0

/-- A first message, its answer and the verdict of its tail. -/
theorem stays_dead_iff_chat : ∃ moves p, Trace SessionStep mintedSession moves p ∧
    moves.length = 8 ∧ ∀ move ∈ moves, StaysDead move := by
  have hrun : ∃ moves p, Trace SessionStep mintedSession moves p ∧ moves.length = 8 ∧
      ∀ move ∈ moves, BlindWritesLive move := by
    refine ⟨_, _, .cons (.create _ .chat rfl rfl rfl rfl)
      (.cons (.arm _ 0 0 .chat rfl rfl)
      (.cons (.accept _ 0 0 5 .chat rfl (Or.inl rfl))
      (.cons (.persist _ 0 0 5 .chat rfl)
      (.cons (.startTail _ 0 0 .chat rfl rfl)
      (.cons (.adopt _ 0 none rfl rfl)
      (.cons (.verdict _ 0 .succeeded .closed rfl rfl ⟨RunStatus.noConfusion, RunStatus.noConfusion⟩)
      (.cons (.settle _ 0 .closed rfl) (.nil _)))))))), rfl, ?_⟩
    simp only [List.forall_mem_cons]
    refine ⟨trivial, trivial, trivial, trivial, trivial, trivial, trivial, ?_,
      List.forall_mem_nil _⟩
    rintro session hstage hlive
    cases hstage
    cases hlive
  obtain ⟨moves, p, htrace, hlength, hlive⟩ := hrun
  exact ⟨moves, p, htrace, hlength, (stays_dead_iff mintedSession p moves htrace).mpr hlive⟩

/-- The sweeper resumes a run, a Stop settles it while the agent boots on the other worker, the
session is reset, and the sweeper writes it active. -/
theorem sweeper_resurrects : ∃ moves p p', Trace SessionStep mintedSession moves p ∧
    p.status = .closed ∧ ∃ event, SessionStep p event p' ∧ p'.status = .active := by
  refine ⟨_, _, _, .cons (.create _ .chat rfl rfl rfl rfl)
    (.cons (.arm _ 0 0 .chat rfl rfl)
    (.cons (.accept _ 0 0 5 .chat rfl (Or.inl rfl))
    (.cons (.persist _ 0 0 5 .chat rfl)
    (.cons (.startTail _ 0 0 .chat rfl rfl)
    (.cons (.adopt _ 0 none rfl rfl)
    (.cons (.sweep _ 0 _ rfl (Or.inr rfl) rfl)
    (.cons (.gone _ 0)
    (.cons (.stop _ 0)
    (.cons (.control _)
    (.cons (.acquireControl _ 2 rfl rfl)
    (.cons (.quiet _ 2 rfl rfl rfl rfl rfl)
    (.cons (.dead _ 2 rfl)
    (.cons (.write _ 2 .closeSession [] true rfl) (.nil _)))))))))))))), rfl,
    _, .repoint _ 1 0 rfl, rfl⟩

/-! ## Tails and sends -/

/-- The run whose send is issued, or may be. -/
def SendPhase.sent? : SendPhase → Option Nat
  | .armed run | .accepted run _ | .persisted run => some run
  | _ => none

/-- A recovery pass has read the run. -/
def SessionOp.HasRead (run : Nat) : SessionOp → Prop
  | .sweeping run' _ => run' = run
  | .reconciling rows => ∃ row ∈ rows, row.run = run
  | _ => False

namespace SessionPlane

/-- The latest send of the run was issued, or may have been. -/
def IssuedRun (p : SessionPlane) (run : Nat) : Prop := ∃ row, p.run? run = some row ∧ row.Issued

/-- What a step under way relies on. -/
def Backs (p : SessionPlane) (id : Nat) : SessionOp → Prop
  | .sender _ phase => (phase ≠ .entering → p.holder = some id) ∧
      ∀ run, phase.sent? = some run → p.IssuedRun run
  | .control phase => phase ≠ .entering → p.holder = some id
  | .writing _ locked => locked = true → p.holder = some id
  | .sweeping run _ => p.IssuedRun run
  | .reconciling rows => ∀ row ∈ rows, row.markerArmed = true → p.IssuedRun row.run

/-- The counts of a run: a marker is the mark of an arm. -/
structure Counted (row : SessionRun) : Prop where
  sends : 1 ≤ row.sends
  armed : row.armed ≤ row.sends
  marker : row.startedAt.isSome = true → 1 ≤ row.armed

structure Sound (p : SessionPlane) : Prop where
  ops : ∀ id op, p.op? id = some op → p.Backs id op
  rows : ∀ run row, p.run? run = some row → Counted row ∧ run < p.next
  unique : OrderedMap.UniqueKeys p.runs
  tails : ∀ run stage, OrderedMap.get? run p.tails = some stage →
    ∃ row, p.run? run = some row ∧ 1 ≤ row.armed

end SessionPlane

/-- A recovery pass reads no run whose latest send is yet to be armed, and no answer is admitted
for a run that it has read.  A run that was never answered is told by its marker. -/
def ReadsIssued (move : Move SessionPlane SessionEvent) : Prop :=
  match move.event with
  | .sweep run => ∀ row, move.before.run? run = some row → row.Issued
  | .reconcile => ∀ run row, move.before.run? run = some row →
      row.status = .queued ∨ row.status = .running → row.startedAt.isSome = true →
        2 ≤ row.sends → row.Issued
  | .answer _ run => ∀ id op, move.before.op? id = some op → ¬ op.HasRead run
  | _ => True

/-- A tail is started on a run whose latest send was issued, or may have been; an orphan that
reconciliation does not tail is failed. -/
def TailsIssued (move : Move SessionPlane SessionEvent) : Prop :=
  match move.event with
  | .startTail _ run | .retail _ run | .resume _ run => move.before.IssuedRun run
  | .orphanFails _ run => move.after.isLiveRun run = false
  | _ => True

namespace SessionPlane

variable {p p' : SessionPlane}

theorem run?_setRun {run run' : Nat} {row : SessionRun} :
    (p.setRun run row).run? run' = if run' = run then some row else p.run? run' :=
  OrderedMap.get?_set

theorem op?_setOp {id id' : Nat} {op : SessionOp} :
    (p.setOp id op).op? id' = if id' = id then some op else p.op? id' :=
  OrderedMap.get?_set

theorem Backs.mono {id : Nat} {op : SessionOp} (h : p.Backs id op) (hholder : p'.holder = p.holder)
    (hissued : ∀ run, p.IssuedRun run → p'.IssuedRun run) : p'.Backs id op := by
  cases op with
  | sender form phase =>
    exact ⟨fun hp => hholder.trans (h.1 hp), fun run hrun => hissued run (h.2 run hrun)⟩
  | control phase => exact fun hp => hholder.trans (h hp)
  | writing writes locked => exact fun hl => hholder.trans (h hl)
  | sweeping run repointed => exact hissued run h
  | reconciling rows => exact fun row hm hmarker => hissued _ (h row hm hmarker)

/-- What is not about runs, lock, tails and steps under way is free to change. -/
theorem Sound.of_eq (h : p.Sound) (hruns : p'.runs = p.runs) (hholder : p'.holder = p.holder)
    (hops : p'.ops = p.ops) (htails : p'.tails = p.tails) (hnext : p.next ≤ p'.next) : p'.Sound := by
  have hrun (run : Nat) : p'.run? run = p.run? run := by rw [run?, hruns, run?]
  have hop (id : Nat) : p'.op? id = p.op? id := by rw [op?, hops, op?]
  constructor
  case ops =>
    intro id op hget
    rw [hop] at hget
    refine (h.ops id op hget).mono hholder fun run hissued => ?_
    obtain ⟨row, hrow, hr⟩ := hissued
    exact ⟨row, (hrun run).trans hrow, hr⟩
  case rows =>
    intro run row hget
    rw [hrun] at hget
    exact ⟨(h.rows run row hget).1, Nat.lt_of_lt_of_le (h.rows run row hget).2 hnext⟩
  case unique => exact hruns ▸ h.unique
  case tails =>
    intro run stage hget
    rw [htails] at hget
    rw [hrun]
    exact h.tails run stage hget

theorem Sound.setOp (h : p.Sound) {id : Nat} {op : SessionOp} (hop : p.Backs id op) :
    (p.setOp id op).Sound where
  ops id' op' hget := by
    rw [op?_setOp] at hget
    split at hget
    · next heq =>
      cases hget
      exact heq ▸ hop
    · exact h.ops id' op' hget
  rows := h.rows
  unique := h.unique
  tails := h.tails

theorem Sound.addOp (h : p.Sound) {op : SessionOp} (hop : p.Backs p.next op) :
    (p.addOp op).Sound :=
  (h.setOp hop).of_eq rfl rfl rfl rfl (Nat.le_succ _)

theorem Sound.endOp (h : p.Sound) (id : Nat) : (p.endOp id).Sound where
  ops id' op hget := by
    change OrderedMap.get? id' (OrderedMap.erase id p.ops) = some op at hget
    rw [OrderedMap.get?_erase] at hget
    split at hget
    · cases hget
    · next hne =>
      have hkeeps (hholder : p.holder = some id') : (p.endOp id).holder = some id' := by
        show (if p.holder = some id then none else p.holder) = some id'
        rw [hholder, if_neg fun heq => hne (Option.some.inj heq)]
      have hback := h.ops id' op hget
      cases op with
      | sender form phase => exact ⟨fun hp => hkeeps (hback.1 hp), hback.2⟩
      | control phase => exact fun hp => hkeeps (hback hp)
      | writing writes locked => exact fun hl => hkeeps (hback hl)
      | sweeping run repointed => exact hback
      | reconciling rows => exact hback
  rows := h.rows
  unique := h.unique
  tails := h.tails

theorem Sound.acquire (h : p.Sound) (hfree : p.holder = none) (id : Nat) :
    ({ p with holder := some id } : SessionPlane).Sound where
  ops id' op hget := by
    have hback := h.ops id' op hget
    have hnone {P : Prop} (hholder : p.holder = some id') : P := by
      rw [hfree] at hholder
      cases hholder
    cases op with
    | sender form phase => exact ⟨fun hp => hnone (hback.1 hp), hback.2⟩
    | control phase => exact fun hp => hnone (hback hp)
    | writing writes locked => exact fun hl => hnone (hback hl)
    | sweeping run repointed => exact hback
    | reconciling rows => exact hback
  rows := h.rows
  unique := h.unique
  tails := h.tails

theorem Sound.setRun (h : p.Sound) {run : Nat} {row row' : SessionRun}
    (hrow : p.run? run = some row) (hcounted : Counted row') (harmed : row.armed ≤ row'.armed)
    (hissued : row.Issued → row'.Issued) : (p.setRun run row').Sound where
  ops id op hget := by
    refine (h.ops id op hget).mono rfl fun run' hrun' => ?_
    obtain ⟨r, hr, hir⟩ := hrun'
    by_cases heq : run' = run
    · subst heq
      rw [hrow] at hr
      cases hr
      exact ⟨row', by rw [run?_setRun, if_pos rfl], hissued hir⟩
    · exact ⟨r, by rw [run?_setRun, if_neg heq, hr], hir⟩
  rows run' r hget := by
    rw [run?_setRun] at hget
    split at hget
    · next heq =>
      cases hget
      exact ⟨hcounted, heq ▸ (h.rows run row hrow).2⟩
    · exact h.rows run' r hget
  unique := h.unique.set
  tails run' stage hget := by
    obtain ⟨r, hr, hone⟩ := h.tails run' stage hget
    by_cases heq : run' = run
    · subst heq
      rw [hrow] at hr
      cases hr
      exact ⟨row', by rw [run?_setRun, if_pos rfl], Nat.le_trans hone harmed⟩
    · exact ⟨r, by rw [run?_setRun, if_neg heq, hr], hone⟩

theorem Sound.markStatus (h : p.Sound) (run : Nat) (status : RunStatus) :
    (p.markRun run fun row => { row with status := status }).Sound := by
  rcases p.markRun_cases run fun row => { row with status := status } with heq | ⟨row, hrow, heq⟩
  · rw [heq]
    exact h
  · rw [heq]
    obtain ⟨⟨hsends, harmed, hmarker⟩, -⟩ := h.rows run row hrow
    exact h.setRun hrow ⟨hsends, harmed, hmarker⟩ (Nat.le_refl _) id

theorem Sound.write (h : p.Sound) (w : SessionWrite) : (p.write w).Sound := by
  cases w with
  | closeSession => exact h.of_eq rfl rfl rfl rfl (Nat.le_refl _)
  | errorSession => exact h.of_eq rfl rfl rfl rfl (Nat.le_refl _)
  | failRun run => exact h.markStatus run .failed
  | cancelRun run => exact h.markStatus run .canceled

theorem Sound.setTail (h : p.Sound) {run : Nat} {stage : TailStage}
    (hrow : ∃ row, p.run? run = some row ∧ 1 ≤ row.armed) :
    ({ p with tails := OrderedMap.set run stage p.tails } : SessionPlane).Sound where
  ops id op hget := (h.ops id op hget).mono rfl fun _ hrun => hrun
  rows := h.rows
  unique := h.unique
  tails run' stage' hget := by
    change OrderedMap.get? run' (OrderedMap.set run stage p.tails) = some stage' at hget
    rw [OrderedMap.get?_set] at hget
    split at hget
    · next heq => exact heq ▸ hrow
    · exact h.tails run' stage' hget

theorem Sound.dropTail (h : p.Sound) (run : Nat) : (p.dropTail run).Sound where
  ops id op hget := (h.ops id op hget).mono rfl fun _ hrun => hrun
  rows := h.rows
  unique := h.unique
  tails run' stage hget := by
    change OrderedMap.get? run' (OrderedMap.erase run p.tails) = some stage at hget
    rw [OrderedMap.get?_erase] at hget
    split at hget
    · cases hget
    · exact h.tails run' stage hget

theorem Sound.startTail (h : p.Sound) {run : Nat} (hissued : p.IssuedRun run) :
    (p.startTail run).Sound := by
  obtain ⟨row, hrow, hr⟩ := hissued
  refine h.setTail ⟨row, hrow, ?_⟩
  rw [hr]
  exact (h.rows run row hrow).1.sends

theorem markRun_of_live {run : Nat} (f : SessionRun → SessionRun) (hlive : p.isLiveRun run = true) :
    ∃ row, p.run? run = some row ∧ p.markRun run f = p.setRun run (f row) := by
  rw [isLiveRun] at hlive
  cases hrow : p.run? run with
  | none =>
    rw [hrow] at hlive
    cases hlive
  | some row =>
    rw [hrow, Option.any_some, Bool.not_eq_true'] at hlive
    refine ⟨row, rfl, ?_⟩
    simp only [markRun, hrow, hlive, Bool.false_eq_true, if_false]

/-- A run that is settled is not live, and a run that is live is settled. -/
theorem isLiveRun_markRun_failed (run : Nat) :
    (p.markRun run fun row => { row with status := .failed }).isLiveRun run = false := by
  cases hlive : p.isLiveRun run with
  | true =>
    obtain ⟨row, hrow, heq⟩ := p.markRun_of_live (fun row => { row with status := .failed }) hlive
    rw [heq, isLiveRun, run?_setRun, if_pos rfl]
    rfl
  | false =>
    have hkept : (p.markRun run fun row => { row with status := .failed }) = p := by
      rw [isLiveRun] at hlive
      cases hrow : p.run? run with
      | none => simp only [markRun, hrow]
      | some row =>
        rw [hrow, Option.any_some, Bool.not_eq_false'] at hlive
        simp only [markRun, hrow, hlive, if_true]
    rw [hkept, hlive]

theorem Sound.insert (h : p.Sound) {run : Nat} (hfresh : p.run? run = none) (hle : run ≤ p.next) :
    ({ p.setRun run .inserted with next := p.next + 1 } : SessionPlane).Sound where
  ops id op hget := by
    refine (h.ops id op hget).mono rfl fun run' hrun' => ?_
    obtain ⟨r, hr, hir⟩ := hrun'
    refine ⟨r, ?_, hir⟩
    have hne : run' ≠ run := by
      rintro rfl
      rw [hfresh] at hr
      cases hr
    show (p.setRun run .inserted).run? run' = some r
    rw [run?_setRun, if_neg hne, hr]
  rows run' r hget := by
    change (p.setRun run .inserted).run? run' = some r at hget
    rw [run?_setRun] at hget
    split at hget
    · next heq =>
      cases hget
      exact ⟨⟨Nat.le_refl 1, Nat.zero_le 1, Bool.noConfusion⟩, Nat.lt_succ_of_le (heq ▸ hle)⟩
    · exact ⟨(h.rows run' r hget).1, Nat.lt_succ_of_lt (h.rows run' r hget).2⟩
  unique := h.unique.set
  tails run' stage hget := by
    obtain ⟨r, hr, hone⟩ := h.tails run' stage hget
    refine ⟨r, ?_, hone⟩
    have hne : run' ≠ run := by
      rintro rfl
      rw [hfresh] at hr
      cases hr
    show (p.setRun run .inserted).run? run' = some r
    rw [run?_setRun, if_neg hne, hr]

theorem Sound.arm (h : p.Sound) {id run : Nat} {form : SendForm}
    (hop : p.op? id = some (.sender form (.admitted run))) (hlive : p.isLiveRun run = true) :
    ((p.markRun run fun row =>
      { row with status := .queued, startedAt := some p.now, armed := row.sends }).setOp id
        (.sender form (.armed run))).Sound := by
  obtain ⟨row, hrow, heq⟩ := p.markRun_of_live
    (fun row => { row with status := .queued, startedAt := some p.now, armed := row.sends }) hlive
  obtain ⟨⟨hsends, harmed, -⟩, -⟩ := h.rows run row hrow
  have hplane : (p.setRun run
      { row with status := .queued, startedAt := some p.now, armed := row.sends }).Sound :=
    h.setRun hrow ⟨hsends, Nat.le_refl _, fun _ => hsends⟩ harmed fun _ => rfl
  rw [heq]
  refine hplane.setOp ?_
  constructor
  · exact fun _ => (h.ops id _ hop).1 SendPhase.noConfusion
  · rintro _ ⟨⟩
    refine ⟨{ row with status := .queued, startedAt := some p.now, armed := row.sends }, ?_, rfl⟩
    rw [run?_setRun, if_pos rfl]

/-- The next send of a run: who has the lock admits it, so no one else is sending, and nobody has
read the run. -/
theorem Sound.answer (h : p.Sound) {id run : Nat} {row : SessionRun}
    (hop : p.op? id = some (.sender (.answer run) .locked)) (hrow : p.run? run = some row)
    (hread : ∀ id op, p.op? id = some op → ¬ op.HasRead run) :
    ((p.setRun run { row with status := .queued, sends := row.sends + 1 }).setOp id
      (.sender (.answer run) (.admitted run))).Sound := by
  have hlock : p.holder = some id := (h.ops id _ hop).1 SendPhase.noConfusion
  have hother {run' : Nat} (hne : run' ≠ run) (hissued : p.IssuedRun run') :
      (p.setRun run { row with status := .queued, sends := row.sends + 1 }).IssuedRun run' := by
    obtain ⟨r, hr, hir⟩ := hissued
    exact ⟨r, by rw [run?_setRun, if_neg hne, hr], hir⟩
  have hplane : (p.setRun run { row with status := .queued, sends := row.sends + 1 }).Sound := by
    constructor
    case ops =>
      intro id' op hget
      change p.op? id' = some op at hget
      have hback := h.ops id' op hget
      have hunread := hread id' op hget
      cases op with
      | sender form phase =>
        refine ⟨hback.1, fun run' hrun' => hother ?_ (hback.2 run' hrun')⟩
        rintro rfl
        have hself : id = id' := by
          refine Option.some.inj (hlock.symm.trans (hback.1 ?_))
          rintro rfl
          cases hrun'
        rw [← hself, hop] at hget
        cases hget
        cases hrun'
      | control phase => exact hback
      | writing writes locked => exact hback
      | sweeping run' repointed => exact hother hunread hback
      | reconciling rows =>
        exact fun r hm hmarker => hother (fun heq => hunread ⟨r, hm, heq⟩) (hback r hm hmarker)
    case rows =>
      intro run' r hget
      rw [run?_setRun] at hget
      split at hget
      · next heq =>
        cases hget
        obtain ⟨⟨hsends, harmed, hmarker⟩, hlt⟩ := h.rows run row hrow
        exact ⟨⟨Nat.le_succ_of_le hsends, Nat.le_succ_of_le harmed, hmarker⟩, heq ▸ hlt⟩
      · exact h.rows run' r hget
    case unique => exact h.unique.set
    case tails =>
      intro run' stage hget
      obtain ⟨r, hr, hone⟩ := h.tails run' stage hget
      by_cases heq : run' = run
      · subst heq
        rw [hrow] at hr
        cases hr
        refine ⟨{ row with status := .queued, sends := row.sends + 1 }, ?_, hone⟩
        rw [run?_setRun, if_pos rfl]
      · exact ⟨r, by rw [run?_setRun, if_neg heq, hr], hone⟩
  refine hplane.setOp ⟨fun _ => hlock, ?_⟩
  rintro _ ⟨⟩

/-- A tail takes its run over; a marker it may set is the mark of the send it was started for. -/
theorem Sound.adopt (h : p.Sound) {run : Nat} {startedAt : Option Nat} {stage : TailStage}
    (htail : OrderedMap.get? run p.tails = some stage) :
    (p.markRun run fun row =>
      { row with status := .running, startedAt := startedAt.or row.startedAt }).Sound := by
  rcases p.markRun_cases run fun row =>
    { row with status := .running, startedAt := startedAt.or row.startedAt } with
    heq | ⟨row, hrow, heq⟩
  · rw [heq]
    exact h
  · rw [heq]
    obtain ⟨⟨hsends, harmed, -⟩, -⟩ := h.rows run row hrow
    obtain ⟨r, hr, hone⟩ := h.tails run stage htail
    rw [hrow] at hr
    cases hr
    exact h.setRun hrow ⟨hsends, harmed, fun _ => hone⟩ (Nat.le_refl _) id

theorem Sound.stage (h : p'.Sound) {run : Nat} {stage : TailStage} (stage' : TailStage)
    (htails : p'.tails = p.tails) (htail : OrderedMap.get? run p.tails = some stage) :
    ({ p' with tails := OrderedMap.set run stage' p.tails } : SessionPlane).Sound := by
  rw [← htails] at htail ⊢
  exact h.setTail (h.tails run stage htail)

theorem Sound.persist (h : p.Sound) {id run eve : Nat} {form : SendForm}
    (hop : p.op? id = some (.sender form (.accepted run eve))) :
    ((p.persist form eve).setOp id (.sender form (.persisted run))).Sound := by
  have hback := h.ops id _ hop
  rw [SessionPlane.persist]
  split
  · exact h.setOp ⟨fun _ => hback.1 SendPhase.noConfusion, hback.2⟩
  · have hplane : ({ p with
        eveSessionId := some eve
        status := if form = .chat then p.status else .active } : SessionPlane).Sound :=
      h.of_eq rfl rfl rfl rfl (Nat.le_refl _)
    exact hplane.setOp ⟨fun _ => hback.1 SendPhase.noConfusion, hback.2⟩

/-- What the reconciliation reads: a marker stands for the latest send. -/
theorem Sound.orphans (h : p.Sound)
    (hread : ∀ run row, p.run? run = some row → row.status = .queued ∨ row.status = .running →
      row.startedAt.isSome = true → 2 ≤ row.sends → row.Issued) :
    ∀ row ∈ p.orphans, row.markerArmed = true → p.IssuedRun row.run := by
  intro orphan hm hmarker
  rw [SessionPlane.orphans] at hm
  obtain ⟨⟨run, row⟩, hfilter, rfl⟩ := List.mem_map.mp hm
  obtain ⟨hmem, hstatus⟩ := List.mem_filter.mp hfilter
  have hrow : p.run? run = some row := OrderedMap.get?_of_mem h.unique hmem
  refine ⟨row, hrow, ?_⟩
  by_cases htwo : 2 ≤ row.sends
  · exact hread run row hrow (of_decide_eq_true hstatus) hmarker htwo
  · have hcounted := (h.rows run row hrow).1
    have hone : 1 ≤ row.armed := hcounted.marker hmarker
    have hle : row.armed ≤ row.sends := hcounted.armed
    show row.armed = row.sends
    omega

end SessionPlane

theorem SessionStep.tailsIssued (move : Move SessionPlane SessionEvent)
    (hstep : SessionStep move.before move.event move.after) (hreads : ReadsIssued move)
    (h : move.before.Sound) : TailsIssued move ∧ move.after.Sound := by
  rcases move with ⟨p, event, p'⟩
  change SessionStep p event p' at hstep
  change p.Sound at h
  cases hstep with
  | create form _ hruns _ hfree =>
    have hfresh : p.run? 0 = none := by rw [SessionPlane.run?, hruns]; rfl
    refine ⟨trivial,
      ((h.acquire hfree p.next).insert hfresh (Nat.zero_le _)).setOp ⟨fun _ => rfl, ?_⟩⟩
    rintro _ ⟨⟩
  | enter form _ _ =>
    refine ⟨trivial, h.addOp ⟨fun hp => absurd rfl hp, ?_⟩⟩
    rintro _ ⟨⟩
  | acquire id form hfree _ =>
    refine ⟨trivial, (h.acquire hfree id).setOp ⟨fun _ => rfl, ?_⟩⟩
    rintro _ ⟨⟩
  | check id hop _ =>
    refine ⟨trivial, h.setOp ⟨fun _ => (h.ops id _ hop).1 SendPhase.noConfusion, ?_⟩⟩
    rintro _ ⟨⟩
  | insertRun id hop _ =>
    have hfresh : p.run? p.next = none := by
      cases hrow : p.run? p.next with
      | none => rfl
      | some row => exact absurd (h.rows _ row hrow).2 (Nat.lt_irrefl _)
    refine ⟨trivial, (h.insert hfresh (Nat.le_refl _)).setOp
      ⟨fun _ => (h.ops id _ hop).1 SendPhase.noConfusion, ?_⟩⟩
    rintro _ ⟨⟩
  | answer id run row hop hrow _ _ => exact ⟨trivial, h.answer hop hrow hreads⟩
  | arm id run form hop hlive => exact ⟨trivial, h.arm hop hlive⟩
  | abandon id run form phase hphase _ hop =>
    refine ⟨trivial, h.setOp fun _ => (h.ops id _ hop).1 ?_⟩
    rcases hphase with rfl | rfl
    · exact SendPhase.noConfusion
    · exact SendPhase.noConfusion
  | disallowed id run form _ hop =>
    exact ⟨trivial, h.setOp fun _ => (h.ops id _ hop).1 SendPhase.noConfusion⟩
  | failed id run form phase notActive hphase hop =>
    refine ⟨trivial, h.setOp fun _ => (h.ops id _ hop).1 ?_⟩
    rcases hphase with rfl | rfl
    · exact SendPhase.noConfusion
    · exact SendPhase.noConfusion
  | accept id run eve form hop _ =>
    exact ⟨trivial, h.setOp
      ⟨fun _ => (h.ops id _ hop).1 SendPhase.noConfusion, (h.ops id _ hop).2⟩⟩
  | persist id run eve form hop => exact ⟨trivial, h.persist hop⟩
  | canceledDuringEve id run form observing hop _ =>
    exact ⟨trivial, h.setOp fun _ => (h.ops id _ hop).1 SendPhase.noConfusion⟩
  | startTail id run form hop _ =>
    have hissued : p.IssuedRun run := (h.ops id _ hop).2 run rfl
    exact ⟨hissued, (h.startTail hissued).endOp id⟩
  | control => exact ⟨trivial, h.addOp fun hp => absurd rfl hp⟩
  | acquireControl id hfree _ => exact ⟨trivial, (h.acquire hfree id).setOp fun _ => rfl⟩
  | quiet id hop _ _ _ _ =>
    exact ⟨trivial, h.setOp fun _ => h.ops id _ hop ControlPhase.noConfusion⟩
  | accepted id hop =>
    exact ⟨trivial, h.setOp fun _ => h.ops id _ hop ControlPhase.noConfusion⟩
  | dead id hop => exact ⟨trivial, h.setOp fun _ => h.ops id _ hop ControlPhase.noConfusion⟩
  | finishControl id hop =>
    have hplane : ({ p with status := .active } : SessionPlane).Sound :=
      h.of_eq rfl rfl rfl rfl (Nat.le_refl _)
    exact ⟨trivial, hplane.setOp fun _ => h.ops id _ hop ControlPhase.noConfusion⟩
  | write id w writes locked hop =>
    refine ⟨trivial, (h.write w).setOp fun hl => ?_⟩
    rw [SessionPlane.holder_write]
    exact h.ops id _ hop hl
  | ends id => exact ⟨trivial, h.endOp id⟩
  | stop run => exact ⟨trivial, h.markStatus run .canceled⟩
  | evict run row _ _ _ _ => exact ⟨trivial, h.addOp Bool.noConfusion⟩
  | heal _ _ _ => exact ⟨trivial, h.of_eq rfl rfl rfl rfl (Nat.le_refl _)⟩
  | adopt run startedAt htail _ =>
    exact ⟨trivial, (h.adopt htail).stage .following (SessionPlane.tails_markRun _ _) htail⟩
  | verdict run status session htail _ _ =>
    obtain ⟨stage, hstage⟩ := Option.isSome_iff_exists.mp htail
    exact ⟨trivial,
      (h.markStatus run status).stage (.settling session) (SessionPlane.tails_markRun _ _) hstage⟩
  | settle run session _ =>
    exact ⟨trivial, (h.dropTail run).of_eq rfl rfl rfl rfl (Nat.le_refl _)⟩
  | gone run => exact ⟨trivial, h.dropTail run⟩
  | sweep run row hrow _ _ => exact ⟨trivial, h.addOp ⟨row, hrow, hreads row hrow⟩⟩
  | sweepEveless run _ _ => exact ⟨trivial, h.addOp Bool.noConfusion⟩
  | repoint id run hop =>
    have hplane : ({ p with status := .active } : SessionPlane).Sound :=
      h.of_eq rfl rfl rfl rfl (Nat.le_refl _)
    exact ⟨trivial, hplane.setOp (h.ops id _ hop)⟩
  | retail id run hop =>
    have hissued : p.IssuedRun run := h.ops id _ hop
    exact ⟨hissued, (h.startTail hissued).endOp id⟩
  | reconcile => exact ⟨trivial, h.addOp (h.orphans hreads)⟩
  | resume id row rows hop _ hmarker _ =>
    have hback := h.ops id _ hop
    have hissued : p.IssuedRun row.run := hback row List.mem_cons_self hmarker
    exact ⟨hissued, (h.startTail hissued).setOp fun r hm => hback r (List.mem_cons_of_mem _ hm)⟩
  | orphanFails id row rows hop _ =>
    have hplane := h.markStatus row.run .failed
    have hback := hplane.ops id _ ((SessionPlane.op?_markRun _ _ id).trans hop)
    exact ⟨p.isLiveRun_markRun_failed row.run,
      hplane.setOp fun r hm => hback r (List.mem_cons_of_mem _ hm)⟩
  | skip id row rows hop _ =>
    exact ⟨trivial, h.setOp fun r hm => h.ops id _ hop r (List.mem_cons_of_mem _ hm)⟩
  | pass ms => exact ⟨trivial, h.of_eq rfl rfl rfl rfl (Nat.le_refl _)⟩

theorem mintedSession_sound : mintedSession.Sound where
  ops _ _ hget := by cases hget
  rows _ _ hget := by cases hget
  unique := List.nodup_nil
  tails _ _ hget := by cases hget

/-- Where no recovery pass reads a run whose latest message or answer is yet to be armed, and no
answer is admitted for a run that one has read, every tail of every run is started on a run whose
latest send was issued, or may have been, and an orphan that is not tailed is failed. -/
theorem tails_armed_sends (p : SessionPlane) (moves : List (Move SessionPlane SessionEvent))
    (hrun : Trace SessionStep mintedSession moves p) (hreads : ∀ move ∈ moves, ReadsIssued move) :
    ∀ move ∈ moves, TailsIssued move :=
  hrun.forall_of SessionPlane.Sound ReadsIssued SessionStep.tailsIssued hreads mintedSession_sound

/-- A first message is tailed, its worker dies and the sweeper moves it; then the process dies, and
reconciliation takes it up. -/
theorem tails_armed_sends_recovered : ∃ moves p, Trace SessionStep mintedSession moves p ∧
    moves.length = 12 ∧ ∀ move ∈ moves, TailsIssued move := by
  have hrun : ∃ moves p, Trace SessionStep mintedSession moves p ∧ moves.length = 12 ∧
      ∀ move ∈ moves, ReadsIssued move := by
    refine ⟨_, _, .cons (.create _ .chat rfl rfl rfl rfl)
      (.cons (.arm _ 0 0 .chat rfl rfl)
      (.cons (.accept _ 0 0 5 .chat rfl (Or.inl rfl))
      (.cons (.persist _ 0 0 5 .chat rfl)
      (.cons (.startTail _ 0 0 .chat rfl rfl)
      (.cons (.adopt _ 0 none rfl rfl)
      (.cons (.sweep _ 0 _ rfl (Or.inr rfl) rfl)
      (.cons (.repoint _ 1 0 rfl)
      (.cons (.retail _ 1 0 rfl)
      (.cons (.gone _ 0)
      (.cons (.reconcile _)
      (.cons (.resume _ 2 ⟨0, true, true⟩ [] rfl rfl rfl rfl) (.nil _)))))))))))), rfl, ?_⟩
    simp only [List.forall_mem_cons]
    refine ⟨trivial, trivial, trivial, trivial, trivial, trivial, ?_, trivial, trivial, trivial, ?_,
      trivial, List.forall_mem_nil _⟩
    · rintro _ ⟨⟩
      rfl
    · intro run row hrow _ _ htwo
      cases run with
      | zero =>
        cases hrow
        exact absurd htwo (Nat.not_succ_le_self 1)
      | succ run => cases hrow
  obtain ⟨moves, p, htrace, hlength, hreads⟩ := hrun
  exact ⟨moves, p, htrace, hlength, tails_armed_sends p moves htrace hreads⟩

/-- A run waits for input; the answer puts it back to queued, and the process dies before the
answer is armed.  Reconciliation finds the marker of the first message. -/
theorem unarmed_answer_tailed : ∃ moves p event p', Trace SessionStep mintedSession moves p ∧
    SessionStep p event p' ∧ ¬ TailsIssued ⟨p, event, p'⟩ := by
  refine ⟨_, _, _, _, .cons (.create _ .chat rfl rfl rfl rfl)
    (.cons (.arm _ 0 0 .chat rfl rfl)
    (.cons (.accept _ 0 0 5 .chat rfl (Or.inl rfl))
    (.cons (.persist _ 0 0 5 .chat rfl)
    (.cons (.startTail _ 0 0 .chat rfl rfl)
    (.cons (.adopt _ 0 none rfl rfl)
    (.cons (.verdict _ 0 .waiting .waiting rfl rfl ⟨RunStatus.noConfusion, RunStatus.noConfusion⟩)
    (.cons (.settle _ 0 .waiting rfl)
    (.cons (.enter _ (.answer 0) rfl rfl)
    (.cons (.acquire _ 1 (.answer 0) rfl rfl)
    (.cons (.answer _ 1 0 _ rfl rfl rfl rfl)
    (.cons (.ends _ 1)
    (.cons (.reconcile _) (.nil _))))))))))))),
    .resume _ 2 ⟨0, true, true⟩ [] rfl rfl rfl rfl, ?_⟩
  rintro ⟨row, hrow, hissued⟩
  cases hrow
  cases hissued

end InvisibleString.Runtime
