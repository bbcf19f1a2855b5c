import InvisibleString.Tailer.Events
import InvisibleString.Lib.Transition
import Mathlib.Logic.Basic

/- # `Runtime.Settlement` — who writes a run's status, and what is published of it

The status of a run is written by guarded updates only.  Each place of the code that ends a run
writes its verdict, and then publishes it on the bus and hands it to the delivery; some of these
places look at whether their write was applied, the others do not.

**Proved here.**

    no write changes a terminal status  (`SettleStep.sticky`)
    where the places that do not look find the run live, or ended as they say, every terminal
      status that is published or delivered is the row's  (`published_is_status`)
    a driver whose run was canceled elsewhere publishes its own verdict  (`driver_publishes_lost`)
-/

namespace InvisibleString.Runtime

open Tailer (RunStatus)
open Transition (Move Trace)

/-! ## The places that settle a run -/

inductive SettleStatement where
  /-- the guarded update: the row is queued, running or waiting -/
  | markRun (status : RunStatus)
  /-- the guarded update of a resume: the row is waiting -/
  | requeue
  /-- go on only if the update was applied -/
  | ifMarked
  | publish (status : RunStatus)
  | deliver (status : RunStatus)
  deriving DecidableEq

/-- How a run ends. -/
inductive Verdict where
  | succeeded
  | failed
  | canceled
  deriving DecidableEq

def Verdict.status : Verdict → RunStatus
  | .succeeded => .succeeded
  | .failed => .failed
  | .canceled => .canceled

/-- The places of the code that write a status. -/
inductive Settler where
  /-- the tail adopts its run -/
  | adopt
  /-- the tail's verdict; without one the run parks -/
  | finishRun (verdict : Option Verdict)
  /-- the driver starts on its run -/
  | drive
  | parkOnChild
  | unpark
  /-- the end of a drive -/
  | settle (verdict : Verdict)
  | driverError
  | failOutright
  /-- the cancel route finds no driver -/
  | cancelWithoutDriver
  | cancelAgentRun
  | armDispatchAttempt
  | modelDisallowed
  | abandonCanceledBeforeEve
  | failDispatch
  | resumeRunInput
  /-- boot reconciliation fails an orphan -/
  | reconcile
  /-- the worker sweeper fails a run that never had a session -/
  | sweep
  deriving DecidableEq

open SettleStatement in
def Settler.program : Settler → List SettleStatement
  | .adopt => [markRun .running, ifMarked, publish .running]
  | .finishRun (some verdict) =>
    [markRun verdict.status, ifMarked, publish verdict.status, deliver verdict.status]
  | .finishRun none => [markRun .waiting, ifMarked, publish .waiting, deliver .waiting]
  | .drive => [markRun .running, ifMarked, publish .running]
  | .parkOnChild => [markRun .waiting, publish .waiting]
  | .unpark => [markRun .running, ifMarked, publish .running]
  | .settle verdict => [markRun verdict.status, publish verdict.status, deliver verdict.status]
  | .driverError => [markRun .failed, publish .failed, deliver .failed]
  | .failOutright => [markRun .failed, publish .failed, deliver .failed]
  | .cancelWithoutDriver => [markRun .canceled, deliver .canceled, publish .canceled]
  | .cancelAgentRun => [markRun .canceled, ifMarked, deliver .canceled, publish .canceled]
  | .armDispatchAttempt => [markRun .queued]
  | .modelDisallowed => [markRun .failed, publish .failed]
  | .abandonCanceledBeforeEve => [markRun .canceled, ifMarked, publish .canceled]
  | .failDispatch => [markRun .failed, deliver .failed]
  | .resumeRunInput => [requeue]
  | .reconcile => [markRun .failed]
  | .sweep => [markRun .failed, ifMarked, deliver .failed]

/-- The places that publish or deliver their verdict without a look at whether their write was
applied. -/
def Settler.unchecked : Settler → Bool
  | .settle _ | .driverError | .failOutright | .cancelWithoutDriver | .modelDisallowed
  | .failDispatch => true
  | _ => false

/-! ## Runs -/

/-- A place of the code at work: what it has still to do. -/
structure Settling where
  settler : Settler
  program : List SettleStatement
  /-- its update was applied -/
  marked : Bool

structure RunBoard where
  /-- the status of the row -/
  status : RunStatus
  settlings : List Settling
  published : List RunStatus
  delivered : List RunStatus

inductive SettleEvent where
  | start (settler : Settler)
  | statement (settler : Settler) (statement : SettleStatement)
  /-- an await throws, or the process dies -/
  | fail (settler : Settler)

/-- A statement of a place, with what it has still to do. -/
def RunBoard.exec (board : RunBoard) (others : List Settling × List Settling) (s : Settling)
    (rest : List SettleStatement) : SettleStatement → RunBoard
  | .markRun status =>
    { board with
      status := if board.status.terminal then board.status else status
      settlings := others.1 ++ ⟨s.settler, rest, !board.status.terminal⟩ :: others.2 }
  | .requeue =>
    { board with
      status := if board.status = .waiting then .queued else board.status
      settlings := others.1 ++ ⟨s.settler, rest, board.status = .waiting⟩ :: others.2 }
  | .ifMarked =>
    { board with
      settlings := others.1 ++ ⟨s.settler, if s.marked then rest else [], s.marked⟩ :: others.2 }
  | .publish status =>
    { board with
      settlings := others.1 ++ ⟨s.settler, rest, s.marked⟩ :: others.2
      published := board.published ++ [status] }
  | .deliver status =>
    { board with
      settlings := others.1 ++ ⟨s.settler, rest, s.marked⟩ :: others.2
      delivered := board.delivered ++ [status] }

inductive SettleStep : RunBoard → SettleEvent → RunBoard → Prop
  | start (board : RunBoard) (settler : Settler) :
      SettleStep board (.start settler)
        { board with settlings := board.settlings ++ [⟨settler, settler.program, false⟩] }
  | statement (board : RunBoard) (front back : List Settling) (s : Settling)
      (st : SettleStatement) (rest : List SettleStatement)
      (h : board.settlings = front ++ s :: back) (hp : s.program = st :: rest) :
      SettleStep board (.statement s.settler st) (board.exec (front, back) s rest st)
  | fail (board : RunBoard) (front back : List Settling) (s : Settling)
      (h : board.settlings = front ++ s :: back) :
      SettleStep board (.fail s.settler) { board with settlings := front ++ back }

/-! ## Terminal statuses are sticky -/

theorem SettleStep.sticky {board board' : RunBoard} {event : SettleEvent}
    (h : SettleStep board event board') (hterminal : board.status.terminal = true) :
    board'.status = board.status := by
  cases h with
  | start settler => rfl
  | fail front back s _ => rfl
  | statement front back s st rest _ _ =>
    cases st with
    | markRun status =>
      rw [RunBoard.exec, if_pos hterminal]
    | requeue =>
      rw [RunBoard.exec]
      refine if_neg fun hw => ?_
      rw [hw] at hterminal
      cases hterminal
    | ifMarked => rfl
    | publish status => rfl
    | deliver status => rfl

/-! ## What is published -/

/-- Whatever terminal status is still to be told is the row's.  A write that is still to come
decides for what follows it. -/
def Backed (status : RunStatus) (marked : Bool) : List SettleStatement → Prop
  | [] => True
  | .markRun _ :: _ | .requeue :: _ => True
  | .ifMarked :: rest => marked = true → Backed status marked rest
  | .publish told :: rest | .deliver told :: rest =>
    (told.terminal = true → status = told) ∧ Backed status marked rest

/-- A terminal status stays, and while the row is live nothing terminal is to be told. -/
theorem Backed.mono {status status' : RunStatus} {marked : Bool}
    (h : status.terminal = true → status' = status) {program : List SettleStatement}
    (hb : Backed status marked program) : Backed status' marked program := by
  have htold {told : RunStatus} (ht : told.terminal = true → status = told)
      (hterminal : told.terminal = true) : status' = told := by
    have heq := ht hterminal
    exact (h (heq ▸ hterminal)).trans heq
  induction program with
  | nil => trivial
  | cons st rest ih =>
    cases st with
    | markRun _ => trivial
    | requeue => trivial
    | ifMarked => exact fun hm => ih (hb hm)
    | publish told => exact ⟨htold hb.1, ih hb.2⟩
    | deliver told => exact ⟨htold hb.1, ih hb.2⟩

/-- Nothing is left to write. -/
def NothingToWrite (program : List SettleStatement) : Prop :=
  SettleStatement.requeue ∉ program ∧ ∀ status, SettleStatement.markRun status ∉ program

/-- What follows the write of a place. -/
structure Follows (settler : Settler) (status : RunStatus) (rest : List SettleStatement) : Prop where
  written : NothingToWrite rest
  applied : Backed status true rest
  /-- a place that does not look goes on as if its write had been applied -/
  unchecked : settler.unchecked = true → Backed status false rest
  checked : settler.unchecked = false → ∀ status', Backed status' false rest

theorem Settler.program_cases (settler : Settler) :
    (∃ status rest, settler.program = .markRun status :: rest ∧ Follows settler status rest) ∨
      settler.program = [.requeue] := by
  cases settler with
  | resumeRunInput => exact Or.inr rfl
  | finishRun verdict =>
    refine Or.inl ?_
    cases verdict with
    | none => exact ⟨_, _, rfl, by simp [NothingToWrite], by simp [Backed], by simp [unchecked],
        by simp [Backed]⟩
    | some verdict => exact ⟨_, _, rfl, by simp [NothingToWrite], by simp [Backed], by simp [unchecked],
        by simp [Backed]⟩
  | parkOnChild =>
    exact Or.inl ⟨_, _, rfl, by simp [NothingToWrite], by simp [Backed], by simp [unchecked],
      by simp [Backed, RunStatus.terminal]⟩
  | settle verdict =>
    exact Or.inl ⟨_, _, rfl, by simp [NothingToWrite], by simp [Backed], by simp [Backed],
      by simp [unchecked]⟩
  | driverError | failOutright | cancelWithoutDriver | modelDisallowed | failDispatch =>
    exact Or.inl ⟨_, _, rfl, by simp [NothingToWrite], by simp [Backed], by simp [Backed],
      by simp [unchecked]⟩
  | adopt | drive | unpark | cancelAgentRun | armDispatchAttempt | abandonCanceledBeforeEve
  | reconcile | sweep =>
    exact Or.inl ⟨_, _, rfl, by simp [NothingToWrite], by simp [Backed], by simp [unchecked],
      by simp [Backed]⟩

/-- A place has its whole program before it, or it has written and what it still tells is the
row's. -/
def Settling.Sound (status : RunStatus) (s : Settling) : Prop :=
  s.program = s.settler.program ∨ (Backed status s.marked s.program ∧ NothingToWrite s.program)

theorem Settling.Sound.mono {status status' : RunStatus} {s : Settling}
    (h : status.terminal = true → status' = status) (hs : s.Sound status) : s.Sound status' :=
  hs.imp_right fun hb => ⟨hb.1.mono h, hb.2⟩

def RunBoard.Sound (board : RunBoard) : Prop := ∀ s ∈ board.settlings, s.Sound board.status

/-- The others stay sound under a guarded write. -/
theorem RunBoard.Sound.replace {board : RunBoard} (h : board.Sound) {front back : List Settling}
    {s s' : Settling} {status : RunStatus} (hs : board.settlings = front ++ s :: back)
    (hstatus : board.status.terminal = true → status = board.status) (hs' : s'.Sound status) :
    ∀ x ∈ front ++ s' :: back, x.Sound status := by
  intro x hx
  rcases List.mem_append.mp hx with hx | hx
  · exact (h x (hs ▸ List.mem_append_left _ hx)).mono hstatus
  · rcases List.mem_cons.mp hx with rfl | hx
    · exact hs'
    · exact (h x (hs ▸ List.mem_append_right _ (List.mem_cons_of_mem _ hx))).mono hstatus

/-- A place that does not look at its write finds the run live, or ended as it says. -/
def WritesFirst (move : Move RunBoard SettleEvent) : Prop :=
  ∀ settler status, move.event = .statement settler (.markRun status) →
    settler.unchecked = true → move.before.status.terminal = true → move.before.status = status

/-- A terminal status that is told is the row's. -/
def Told (move : Move RunBoard SettleEvent) : Prop :=
  ∀ settler status, move.event = .statement settler (.publish status) ∨
    move.event = .statement settler (.deliver status) → status.terminal = true →
      move.before.status = status

theorem NothingToWrite.tail {st : SettleStatement} {rest : List SettleStatement}
    (h : NothingToWrite (st :: rest)) : NothingToWrite rest :=
  ⟨fun hm => h.1 (List.mem_cons_of_mem _ hm), fun v hm => h.2 v (List.mem_cons_of_mem _ hm)⟩

/-- The guarded write of a place. -/
theorem Settling.Sound.markRun {status written : RunStatus} {s : Settling}
    {rest : List SettleStatement} (hs : s.Sound status) (hp : s.program = .markRun written :: rest)
    (hfirst : s.settler.unchecked = true → status.terminal = true → status = written) :
    Settling.Sound (if status.terminal then status else written)
      ⟨s.settler, rest, !status.terminal⟩ := by
  rcases hs with hwhole | ⟨-, hwritten⟩
  · rcases s.settler.program_cases with ⟨v, rest', hprogram, hfollows⟩ | hrequeue
    · obtain ⟨rfl, rfl⟩ : written = v ∧ rest = rest' := by
        rw [hp, hprogram] at hwhole
        cases hwhole
        exact ⟨rfl, rfl⟩
      refine Or.inr ⟨?_, hfollows.written⟩
      cases hterminal : status.terminal with
      | false => exact hfollows.applied
      | true =>
        cases hunchecked : s.settler.unchecked with
        | false => exact hfollows.checked hunchecked _
        | true =>
          rw [if_pos rfl, hfirst hunchecked hterminal]
          exact hfollows.unchecked hunchecked
    · rw [hp, hrequeue] at hwhole
      cases hwhole
  · exact absurd (hp ▸ List.mem_cons_self) (hwritten.2 written)

theorem RunBoard.Sound.step (move : Move RunBoard SettleEvent)
    (hstep : SettleStep move.before move.event move.after) (hfirst : WritesFirst move)
    (h : move.before.Sound) : Told move ∧ move.after.Sound := by
  rcases move with ⟨board, event, board'⟩
  change SettleStep board event board' at hstep
  change board.Sound at h
  cases hstep with
  | start settler =>
    refine ⟨(by rintro _ _ (h | h) <;> cases h), fun s hs => ?_⟩
    rcases List.mem_append.mp hs with hs | hs
    · exact h s hs
    · obtain rfl := List.mem_singleton.mp hs
      exact Or.inl rfl
  | fail front back s hs =>
    refine ⟨(by rintro _ _ (h | h) <;> cases h), fun x hx => h x ?_⟩
    rw [hs]
    rcases List.mem_append.mp hx with hx | hx
    · exact List.mem_append_left _ hx
    · exact List.mem_append_right _ (List.mem_cons_of_mem _ hx)
  | statement front back s st rest hs hp =>
    have hsound : s.Sound board.status :=
      h s (hs ▸ List.mem_append_right _ List.mem_cons_self)
    -- past its write a place only tells
    have htold (hst : ∀ status, st ≠ .markRun status) (hre : st ≠ .requeue) :
        Backed board.status s.marked (st :: rest) ∧ NothingToWrite rest := by
      rcases hsound with hwhole | ⟨hbacked, hwritten⟩
      · rcases s.settler.program_cases with ⟨v, rest', hprogram, -⟩ | hrequeue
        · rw [hp, hprogram] at hwhole
          cases hwhole
          exact absurd rfl (hst v)
        · rw [hp, hrequeue] at hwhole
          cases hwhole
          exact absurd rfl hre
      · rw [hp] at hbacked hwritten
        exact ⟨hbacked, hwritten.tail⟩
    cases st with
    | markRun written =>
      refine ⟨(by rintro _ _ (h | h) <;> cases h), ?_⟩
      refine h.replace hs (fun ht => if_pos ht) (hsound.markRun hp fun hu ht => ?_)
      exact hfirst s.settler written rfl hu ht
    | requeue =>
      refine ⟨(by rintro _ _ (h | h) <;> cases h), ?_⟩
      refine h.replace hs (fun ht => if_neg fun hw => ?_) (Or.inr ?_)
      · rw [hw] at ht
        cases ht
      · rcases hsound with hwhole | ⟨-, hwritten⟩
        · rcases s.settler.program_cases with ⟨v, rest', hprogram, -⟩ | hrequeue
          · rw [hp, hprogram] at hwhole
            cases hwhole
          · rw [hp, hrequeue] at hwhole
            cases hwhole
            exact ⟨trivial, List.not_mem_nil, fun _ => List.not_mem_nil⟩
        · exact absurd (hp ▸ List.mem_cons_self) hwritten.1
    | ifMarked =>
      obtain ⟨hbacked, hwritten⟩ := htold (fun _ => SettleStatement.noConfusion)
        SettleStatement.noConfusion
      refine ⟨(by rintro _ _ (h | h) <;> cases h), ?_⟩
      refine h.replace hs (fun _ => rfl) (Or.inr ?_)
      show Backed board.status s.marked (if s.marked then rest else []) ∧
        NothingToWrite (if s.marked then rest else [])
      split
      · next hmarked => exact ⟨hbacked hmarked, hwritten⟩
      · exact ⟨trivial, List.not_mem_nil, fun _ => List.not_mem_nil⟩
    | publish status =>
      obtain ⟨hbacked, hwritten⟩ := htold (fun _ => SettleStatement.noConfusion)
        SettleStatement.noConfusion
      refine ⟨?_, h.replace hs (fun _ => rfl) (Or.inr ⟨hbacked.2, hwritten⟩)⟩
      rintro _ _ (h | h) ht
      · cases h
        exact hbacked.1 ht
      · cases h
    | deliver status =>
      obtain ⟨hbacked, hwritten⟩ := htold (fun _ => SettleStatement.noConfusion)
        SettleStatement.noConfusion
      refine ⟨?_, h.replace hs (fun _ => rfl) (Or.inr ⟨hbacked.2, hwritten⟩)⟩
      rintro _ _ (h | h) ht
      · cases h
      · cases h
        exact hbacked.1 ht

/-! ## Runs -/

/-- In every run, a terminal status of the row is never changed; and where the places that do
not look at their write find the run live, or ended as they say, every terminal status that is
published or delivered is the row's. -/
theorem published_is_status (board board' : RunBoard) (moves : List (Move RunBoard SettleEvent))
    (hidle : board.settlings = []) (hrun : Trace SettleStep board moves board') :
    (∀ move ∈ moves, move.before.status.terminal = true →
      move.after.status = move.before.status) ∧
    ((∀ move ∈ moves, WritesFirst move) → ∀ move ∈ moves, Told move) := by
  constructor
  · refine hrun.forall_of (fun _ => True) (fun _ => True) ?_ (fun _ _ => trivial) trivial
    exact fun move hstep _ _ => ⟨fun ht => hstep.sticky ht, trivial⟩
  · intro hfirst
    refine hrun.forall_of RunBoard.Sound WritesFirst RunBoard.Sound.step hfirst fun s hs => ?_
    rw [hidle] at hs
    cases hs

/-- A run that is underway, and nobody settles it. -/
def runningBoard : RunBoard where
  status := .running
  settlings := []
  published := []
  delivered := []

/-- The driver settles its run, and the cancel route comes too late. -/
theorem published_is_status_settled : ∃ moves board,
    Trace SettleStep runningBoard moves board ∧ board.published = [.succeeded] ∧
      (∀ move ∈ moves, move.before.status.terminal = true →
        move.after.status = move.before.status) ∧ ∀ move ∈ moves, Told move := by
  have hrun : ∃ moves board, Trace SettleStep runningBoard moves board ∧
      board.published = [.succeeded] ∧ ∀ move ∈ moves, WritesFirst move := by
    refine ⟨_, _, .cons (.start _ (.settle .succeeded))
      (.cons (.start _ .cancelAgentRun)
      (.cons (.statement _ [] _ _ _ _ rfl rfl)
      (.cons (.statement _ [_] [] _ _ _ rfl rfl)
      (.cons (.statement _ [] _ _ _ _ rfl rfl)
      (.cons (.statement _ [_] [] _ _ _ rfl rfl)
      (.cons (.statement _ [] _ _ _ _ rfl rfl) (.nil _))))))), rfl, ?_⟩
    simp only [List.forall_mem_cons]
    refine ⟨?_, ?_, ?_, ?_, ?_, ?_, ?_, List.forall_mem_nil _⟩
    · rintro _ _ ⟨⟩
    · rintro _ _ ⟨⟩
    · rintro _ _ ⟨⟩ _ ht
      cases ht
    · rintro _ _ ⟨⟩ hu
      cases hu
    · rintro _ _ ⟨⟩
    · rintro _ _ ⟨⟩
    · rintro _ _ ⟨⟩
  obtain ⟨moves, board, htrace, hpublished, hfirst⟩ := hrun
  obtain ⟨hsticky, htold⟩ := published_is_status runningBoard board moves rfl htrace
  exact ⟨moves, board, htrace, hpublished, hsticky, htold hfirst⟩

/-- The cancel route finds no driver in its own process and cancels the row, a driver in another
process ends its drive: it publishes `succeeded` on a canceled run. -/
theorem driver_publishes_lost : ∃ moves board,
    Trace SettleStep runningBoard moves board ∧ board.status = .canceled ∧
      board.published = [.canceled, .succeeded] := by
  refine ⟨_, _, .cons (.start _ .cancelWithoutDriver)
    (.cons (.statement _ [] _ _ _ _ rfl rfl)
    (.cons (.statement _ [] _ _ _ _ rfl rfl)
    (.cons (.statement _ [] _ _ _ _ rfl rfl)
    (.cons (.start _ (.settle .succeeded))
    (.cons (.statement _ [_] [] _ _ _ rfl rfl)
    (.cons (.statement _ [_] [] _ _ _ rfl rfl) (.nil _))))))), rfl, rfl⟩

end InvisibleString.Runtime
