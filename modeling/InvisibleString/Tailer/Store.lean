import InvisibleString.Lib.EventLoop
import InvisibleString.Tailer.Events
import Mathlib.Data.List.Sort

/- # `Tailer.Store` — the run store of one session, and the statements of a tail

The rows a session's tails share: the session's runs (oldest first), the events persisted
for them (in the order they were written) and the session's status.  Every operation of
the store is one statement, so one function on these rows; `StoreOp` lists the statements
a tail awaits, together with its two requests to eve (opening the stream, cancelling a
turn), and `StoreOp.exec` answers them.

`run_events` has the primary key `(run_id, seq)`: an append of a pair that is there
already throws.  The statements of `StoreOp.fenced` are the ones a seized tail is refused.
-/

namespace InvisibleString.Tailer

open EventLoop

/-- One row of `runs` on the session. -/
structure RunRow where
  id : RunId
  status : RunStatus
  error : Option String
  startedAt : Option Nat
  completedAt : Option Nat
  turnId : Option TurnId
  messageHash : Option MessageHash
  remoteCancelPendingAt : Option Nat
  remoteCancelUnresolvedAt : Option Nat
  createdAt : Nat
  deriving DecidableEq, Repr

/-- A run whose send of `messageHash` was just armed. -/
def RunRow.armed (id : RunId) (messageHash : Option MessageHash) (now : Nat) : RunRow where
  id := id
  status := .queued
  error := none
  startedAt := some now
  completedAt := none
  turnId := none
  messageHash := messageHash
  remoteCancelPendingAt := none
  remoteCancelUnresolvedAt := none
  createdAt := now

/-- One row of `run_events`. -/
structure StoredRunEvent where
  runId : RunId
  seq : Nat
  event : EveStreamEvent
  deriving DecidableEq, Repr

/-- The session's part of the database. -/
structure Db where
  runs : List RunRow
  events : List StoredRunEvent
  session : AgentSessionStatus
  deriving DecidableEq, Repr

/-- The columns `markRun` writes; an outer `none` leaves a column as it is. -/
structure RunStatusPatch where
  status : RunStatus
  error : Option (Option String)
  startedAt : Option Nat
  completedAt : Option Nat
  remoteCancelPendingAt : Option Nat
  turnId : Option (Option TurnId)
  messageHash : Option (Option MessageHash)
  deriving DecidableEq, Repr

/-- A patch of the status alone. -/
def RunStatusPatch.ofStatus (status : RunStatus) : RunStatusPatch :=
  ⟨status, none, none, none, none, none, none⟩

structure PendingRemoteCancel where
  runId : RunId
  turnId : Option TurnId
  messageHash : Option MessageHash
  pendingAt : Nat
  unresolvedAt : Option Nat
  createdAt : Nat
  deriving DecidableEq, Repr

structure UnattributedLiveRun where
  runId : RunId
  messageHash : Option MessageHash
  createdAt : Nat
  deriving DecidableEq, Repr

structure SessionClaimants where
  obligations : List PendingRemoteCancel
  live : List UnattributedLiveRun
  deriving DecidableEq, Repr

structure UnownedContentTurn where
  turnId : TurnId
  messageHash : MessageHash
  ended : Bool
  deriving DecidableEq, Repr

structure RunTurnState where
  status : RunStatus
  turnId : Option TurnId
  messageHash : Option MessageHash
  remoteCancelPendingAt : Option Nat
  deriving DecidableEq, Repr

namespace Db

variable (db : Db)

def run? (runId : RunId) : Option RunRow := db.runs.find? (·.id == runId)

/-- `update runs set … where id = runId`. -/
def updateRun (runId : RunId) (f : RunRow → RunRow) : Db :=
  { db with runs := db.runs.map fun row => if row.id == runId then f row else row }

/-! ## Events -/

/-- The events persisted for one run, in the order of `seq`. -/
def runEvents (runId : RunId) : List EveStreamEvent :=
  (db.events.filter (·.runId == runId)).map StoredRunEvent.event

def appendEvent (runId : RunId) (seq : Nat) (event : EveStreamEvent) : Option Db :=
  if db.events.any (fun row => row.runId == runId && row.seq == seq) then none
  else some { db with events := db.events ++ [⟨runId, seq, event⟩] }

def countRunEvents (runId : RunId) : Nat := (db.runEvents runId).length

def countSessionEvents : Nat := db.events.length

def listEventIds (runId : RunId) : List EventId :=
  (db.runEvents runId).filterMap EveStreamEvent.id

/-! ## Runs -/

def applyPatch (patch : RunStatusPatch) (row : RunRow) : RunRow :=
  { row with
    status := patch.status
    error := patch.error.getD row.error
    startedAt := patch.startedAt.or row.startedAt
    completedAt := patch.completedAt.or row.completedAt
    remoteCancelPendingAt := patch.remoteCancelPendingAt.or row.remoteCancelPendingAt
    turnId := patch.turnId.getD row.turnId
    messageHash := patch.messageHash.getD row.messageHash }

/-- Compare-and-set: only a run that is not terminal is written; the flag says whether
it was. -/
def markRun (runId : RunId) (patch : RunStatusPatch) : Bool × Db :=
  match db.run? runId with
  | some row =>
    if row.status.terminal then (false, db) else (true, db.updateRun runId (applyPatch patch))
  | none => (false, db)

/-- Arm a send of the run (a dispatch, or the answer to a parked one): the marker and the
send's correlator are written, the acceptance proof starts over. -/
def armDispatchAttempt (runId : RunId) (messageHash : Option MessageHash) (now : Nat) :
    Bool × Db :=
  db.markRun runId
    { RunStatusPatch.ofStatus .queued with
      startedAt := some now
      turnId := some none
      messageHash := some messageHash }

def getRunTurnState (runId : RunId) : Option RunTurnState :=
  (db.run? runId).map fun row =>
    ⟨row.status, row.turnId, row.messageHash, row.remoteCancelPendingAt⟩

/-- Compare-and-set: writes while `turn_id` is null or this id already. -/
def setRunTurnId (runId : RunId) (turnId : TurnId) : Bool × Db :=
  match db.run? runId with
  | some row =>
    if row.turnId = none ∨ row.turnId = some turnId then
      (true, db.updateRun runId fun row => { row with turnId := some turnId })
    else (false, db)
  | none => (false, db)

/-- A row with the marker is an obligation. -/
def toPending (row : RunRow) : Option PendingRemoteCancel :=
  row.remoteCancelPendingAt.map fun pendingAt =>
    ⟨row.id, row.turnId, row.messageHash, pendingAt, row.remoteCancelUnresolvedAt,
      row.createdAt⟩

/-- Without a marker a row is a live claimant iff it is dispatched, not terminal and its
latest send has no turn yet. -/
def toLive (row : RunRow) : Option UnattributedLiveRun :=
  if row.remoteCancelPendingAt = none ∧ row.status.terminal = false ∧ row.startedAt.isSome ∧
      row.turnId = none then
    some ⟨row.id, row.messageHash, row.createdAt⟩
  else none

/-- One snapshot; obligations in attribution priority (pending before unresolved, oldest
first within each). -/
def listSessionClaimants : SessionClaimants :=
  let pending := db.runs.filterMap toPending
  { obligations := pending.filter (fun o => o.unresolvedAt.isNone) ++
      pending.filter (fun o => o.unresolvedAt.isSome)
    live := db.runs.filterMap toLive }

/-- A boundary of the turn is persisted under some run of the session. -/
def turnEnded (turnId : TurnId) : Bool :=
  db.events.any fun row =>
    row.event.event == .turnCancelled turnId || row.event.event == .turnCompleted turnId

/-- Some run of the session carries the turn's id. -/
def turnOwned (turnId : TurnId) : Bool := db.runs.any fun row => row.turnId == some turnId

/-- The content turn an event opens, unless a run owns it. -/
def unownedTurn (event : EveStreamEvent) : Option UnownedContentTurn :=
  match event.event with
  | .messageReceived turnId message =>
    if db.turnOwned turnId then none
    else some ⟨turnId, hashTurnMessage message, db.turnEnded turnId⟩
  | _ => none

/-- Oldest run first, in stream order within a run. -/
def listUnownedContentTurns : List UnownedContentTurn :=
  db.runs.flatMap fun row => (db.runEvents row.id).filterMap db.unownedTurn

def clearRemoteCancelPending (runId : RunId) : Bool × Db :=
  match db.run? runId with
  | some row =>
    if row.remoteCancelPendingAt.isSome then
      (true, db.updateRun runId fun row =>
        { row with remoteCancelPendingAt := none, remoteCancelUnresolvedAt := none })
    else (false, db)
  | none => (false, db)

def markRemoteCancelUnresolved (runId : RunId) (now : Nat) : Bool × Db :=
  match db.run? runId with
  | some row =>
    if row.remoteCancelPendingAt.isSome ∧ row.remoteCancelUnresolvedAt = none then
      (true, db.updateRun runId fun row => { row with remoteCancelUnresolvedAt := some now })
    else (false, db)
  | none => (false, db)

def markSession (status : AgentSessionStatus) : Db := { db with session := status }

end Db

/-- An update of a run's row that keeps its id is seen by a lookup of that run alone. -/
theorem Db.run?_updateRun (db : Db) (r : RunId) {f : RunRow → RunRow}
    (hid : ∀ row, (f row).id = row.id) (r' : RunId) :
    (db.updateRun r f).run? r' = if r' = r then (db.run? r').map f else db.run? r' := by
  unfold Db.updateRun Db.run?
  rw [List.find?_map]
  have hcomp : ((fun row : RunRow => row.id == r') ∘ fun row => if row.id == r then f row else row) =
      fun row => row.id == r' := by
    funext row
    simp only [Function.comp]
    split
    · rw [hid]
    · rfl
  rw [hcomp]
  cases hfind : db.runs.find? (fun row => row.id == r') with
  | none => simp
  | some row =>
    have hrow : row.id = r' := by simpa using List.find?_some hfind
    by_cases hr : r' = r
    · simp [hr, hrow]
    · simp [hr, hrow]

/-! ## Statements -/

/-- eve's answer to a cancel request: `terminal` says the session is dead, anything else
proves nothing about the turn. -/
inductive RemoteCancelReply where
  | accepted
  | terminal
  deriving DecidableEq, Repr

/-- What a tail awaits. -/
inductive StoreOp where
  | appendEvent (runId : RunId) (seq : Nat) (event : EveStreamEvent)
  | countRunEvents (runId : RunId)
  | countSessionEvents
  | listEventIds (runId : RunId)
  | listEvents (runId : RunId)
  | markRun (runId : RunId) (patch : RunStatusPatch)
  | getRunTurnState (runId : RunId)
  | setRunTurnId (runId : RunId) (turnId : TurnId)
  | listSessionClaimants
  | listUnownedContentTurns
  | clearRemoteCancelPending (runId : RunId)
  | markRemoteCancelUnresolved (runId : RunId) (now : Nat)
  | markSession (status : AgentSessionStatus)
  | cancelRemoteTurn (turnId : TurnId)
  | openStream (startIndex : Nat) (includeTailIndex : Bool)
  deriving DecidableEq, Repr

/-- What an await of the tail throws. -/
inductive TailError where
  /-- the store or the transport failed -/
  | store
  /-- `TailSeizedError`: the statement was refused before it was issued -/
  | seized
  /-- the stream ended, was refused, or the tail closed while it read -/
  | stream
  deriving DecidableEq, Repr

@[reducible] def StoreOp.Ret : StoreOp → Type
  | .appendEvent .. => Unit
  | .countRunEvents _ => Nat
  | .countSessionEvents => Nat
  | .listEventIds _ => List EventId
  | .listEvents _ => List EveStreamEvent
  | .markRun .. => Bool
  | .getRunTurnState _ => Option RunTurnState
  | .setRunTurnId .. => Bool
  | .listSessionClaimants => SessionClaimants
  | .listUnownedContentTurns => List UnownedContentTurn
  | .clearRemoteCancelPending _ => Bool
  | .markRemoteCancelUnresolved .. => Bool
  | .markSession _ => Unit
  | .cancelRemoteTurn _ => RemoteCancelReply
  -- eve's tail index header; `none` where it is absent
  | .openStream .. => Option Int

/-- The cursor- and attribution-affecting statements, refused after a seizure. -/
def StoreOp.fenced : StoreOp → Bool
  | .appendEvent .. | .setRunTurnId .. | .clearRemoteCancelPending _ | .listSessionClaimants
  | .listUnownedContentTurns => true
  | _ => false

@[reducible] def tailSignature : Signature := ⟨StoreOp, StoreOp.Ret, TailError⟩

/-- What a tail talks to: the session's rows and eve's side of the session. -/
structure World where
  db : Db
  /-- eve's durable stream -/
  lines : List Line
  /-- eve answers every cancel with its dead-session rendering -/
  sessionDead : Bool
  deriving DecidableEq, Repr

/-- A statement that always succeeds, answered by the store or by eve. -/
def StoreOp.exec (op : StoreOp) (w : World) : Except TailError op.Ret × World :=
  match op with
  | .appendEvent runId seq event =>
    match w.db.appendEvent runId seq event with
    | some db => (.ok (), { w with db := db })
    | none => (.error .store, w)
  | .countRunEvents runId => (.ok (w.db.countRunEvents runId), w)
  | .countSessionEvents => (.ok w.db.countSessionEvents, w)
  | .listEventIds runId => (.ok (w.db.listEventIds runId), w)
  | .listEvents runId => (.ok (w.db.runEvents runId), w)
  | .markRun runId patch =>
    let a := w.db.markRun runId patch
    (.ok a.1, { w with db := a.2 })
  | .getRunTurnState runId => (.ok (w.db.getRunTurnState runId), w)
  | .setRunTurnId runId turnId =>
    let a := w.db.setRunTurnId runId turnId
    (.ok a.1, { w with db := a.2 })
  | .listSessionClaimants => (.ok w.db.listSessionClaimants, w)
  | .listUnownedContentTurns => (.ok w.db.listUnownedContentTurns, w)
  | .clearRemoteCancelPending runId =>
    let a := w.db.clearRemoteCancelPending runId
    (.ok a.1, { w with db := a.2 })
  | .markRemoteCancelUnresolved runId now =>
    let a := w.db.markRemoteCancelUnresolved runId now
    (.ok a.1, { w with db := a.2 })
  | .markSession status => (.ok (), { w with db := w.db.markSession status })
  | .cancelRemoteTurn _ => (.ok (if w.sessionDead then .terminal else .accepted), w)
  | .openStream _ includeTailIndex =>
    (.ok (if includeTailIndex then some ((w.lines.length : Int) - 1) else none), w)

end InvisibleString.Tailer
