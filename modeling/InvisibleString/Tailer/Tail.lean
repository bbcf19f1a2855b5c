import InvisibleString.Tailer.Store

/- # `Tailer.Tail` — the tail of one run

`tailRun`: one reader of a session's stream, with the memory its closures share
(`TailMem`) and its asynchronous functions as programs between awaits.  A program's body
runs synchronously up to each statement, so whatever another function of the tail does
to the shared memory happens at a statement and nowhere else.

    attribution    `attributeTurn`, `refreshObligations`, `recoverPersistedTurns`
    obligations    `confirmObligation`, `issueQualifiedCancel` and what follows its answer
    settlement     `finishRun`, `settleAndObserve`, `observeDeadline`
    the reader     `preamble`, `connect`, `consumeEvent`, `onStreamError`

`issueQualifiedCancel` fires a request and does not wait; the request is recorded in
`issued`, and `onCancelReply` / `onCancelFailure` are the continuations of its promise.
The serial queue of the source only removes interleavings of attribution, settlement and
refresh, so the programs stand here without it.
-/

namespace InvisibleString.Tailer

open EventLoop

/-- `follow`: a live run's tail.  `observe`: its run is settled, the tail only waits for
eve's confirmation. -/
inductive Mode where
  | follow
  | observe
  deriving DecidableEq, Repr

/-- One open remote-cancel obligation a tail follows; its `runId` is its identity. -/
structure Obligation where
  runId : RunId
  turnId : Option TurnId
  messageHash : Option MessageHash
  unresolved : Bool
  createdAt : Nat
  self : Bool
  deriving DecidableEq, Repr

/-- `a` comes before or with `b`: pending before unresolved, oldest first within each. -/
def byAttributionPriority (a b : Obligation) : Prop :=
  (a.unresolved = false ∧ b.unresolved = true) ∨
    (a.unresolved = b.unresolved ∧ a.createdAt ≤ b.createdAt)

instance : DecidableRel byAttributionPriority := fun _ _ =>
  inferInstanceAs (Decidable (_ ∨ _))

/-- Why a cancel request was sent: a settlement names the run's own turn before the row
is final, everything else follows an obligation. -/
inductive CancelCause where
  | settlement
  | observation
  deriving DecidableEq, Repr

/-- A cancel request sent to eve. -/
structure RemoteCancelCall where
  runId : RunId
  turnId : TurnId
  attempt : Nat
  cause : CancelCause
  deriving DecidableEq, Repr

inductive RemoteCancelOutcome where
  | issued
  | pending
  | failed
  | terminal
  deriving DecidableEq, Repr

inductive TurnAttribution where
  | own
  | obligation
  | successor
  | foreign
  deriving DecidableEq, Repr

/-- A `turn.started` held until the next event says whether its turn has content. -/
structure Held where
  event : EveStreamEvent
  turnId : TurnId
  duplicate : Bool
  deriving DecidableEq, Repr

/-- Where the reader stands: before a connect, inside a response body whose next line has
index `pos`, or done. -/
inductive Phase where
  | opening
  | connecting
  | reading (pos : Nat)
  | exited
  deriving DecidableEq, Repr

/-- The variables `tailRun` and its `run` close over. -/
structure TailMem where
  runId : RunId
  mode : Mode
  closed : Bool
  seized : Bool
  busy : Bool
  finished : Bool
  observationClosed : Bool
  obligationsLoaded : Bool
  detaching : Bool
  cancelReason : Option String
  ownTurnId : Option TurnId
  ownMessageHash : Option MessageHash
  sawOwnTurn : Bool
  obligations : List Obligation
  lastAssistantMessage : Option String
  now : Nat
  seq : Nat
  startIndex : Nat
  seenEventIds : List EventId
  pendingInput : Bool
  pendingAuthorization : Bool
  canceledTurn : Bool
  requestTailIndex : Bool
  attempt : Nat
  consumedThisConnect : Nat
  held : Option Held
  phase : Phase
  /-- every cancel request sent, oldest first -/
  issued : List RemoteCancelCall
  /-- the status frames published -/
  statuses : List RunStatus
  /-- what `onFinish` was called with -/
  finishedAs : Option (RunStatus × Option String)
  deriving DecidableEq, Repr

/-- A tail as `tailRun` creates it. -/
def TailMem.init (runId : RunId) (mode : Mode) (now : Nat) : TailMem where
  runId := runId
  mode := mode
  closed := false
  seized := false
  busy := false
  finished := mode == .observe
  observationClosed := false
  obligationsLoaded := false
  detaching := false
  cancelReason := none
  ownTurnId := none
  ownMessageHash := none
  sawOwnTurn := false
  obligations := []
  lastAssistantMessage := none
  now := now
  seq := 0
  startIndex := 0
  seenEventIds := []
  pendingInput := false
  pendingAuthorization := false
  canceledTurn := false
  requestTailIndex := true
  attempt := 0
  consumedThisConnect := 0
  held := none
  phase := .opening
  issued := []
  statuses := []
  finishedAs := none

def maxReconnectAttempts : Nat := 5

abbrev Tail (α : Type) := Proc tailSignature TailMem α

/-- A statement through `fencedRunStore`: a seized tail is refused before it is issued. -/
def statement (op : StoreOp) : Tail op.Ret := do
  let m ← (Proc.read : Tail TailMem)
  if m.seized && op.fenced then Proc.fail TailError.seized else Proc.call (S := tailSignature) op

def getMem : Tail TailMem := Proc.read

def setMem (f : TailMem → TailMem) : Tail Unit := Proc.update f

section

variable {W : Type} {step : Answers tailSignature TailMem W} {C : TailMem → W → Prop}
  {m : TailMem} {w : W}

@[simp] theorem sat_getMem {Q : Except TailError TailMem → TailMem → W → Prop} :
    getMem.Sat step C m w Q ↔ Q (.ok m) m w := Iff.rfl

@[simp] theorem sat_setMem {f : TailMem → TailMem} {Q : Except TailError Unit → TailMem → W → Prop} :
    (setMem f).Sat step C m w Q ↔ Q (.ok ()) (f m) w := Iff.rfl

theorem sat_statement {op : StoreOp} {Q : Except TailError op.Ret → TailMem → W → Prop} :
    (statement op).Sat step C m w Q ↔
      if m.seized && op.fenced then Q (.error .seized) m w
      else C m w ∧ ∀ r m' w', step op m w r m' w' → Q r m' w' := by
  unfold statement
  rw [Proc.sat_bind]
  simp only [Proc.sat_read]
  split <;> exact Iff.rfl

end

namespace TailMem

variable (m : TailMem)

/-- The one exit transition: from here on no event is consumed. -/
def close : TailMem := { m with closed := true }

def closeObservation : TailMem :=
  if m.observationClosed then m else { m with observationClosed := true }.close

def isKnownTurn (turnId : TurnId) : Bool :=
  m.ownTurnId == some turnId || m.obligations.any (·.turnId == some turnId)

/-- The obligation's object as it stands: obligations are shared and mutable. -/
def current (o : Obligation) : Obligation :=
  (m.obligations.find? (·.runId == o.runId)).getD o

def setObligationTurn (runId : RunId) (turnId : TurnId) : TailMem :=
  { m with obligations := m.obligations.map fun o =>
      if o.runId == runId then { o with turnId := some turnId } else o }

def dropObligation (runId : RunId) : TailMem :=
  { m with obligations := m.obligations.filter (·.runId != runId) }

/-- The turn-qualified cancel of an obligation whose turn is known. -/
def issueQualifiedCancel (o : Obligation) (attempt : Nat) : TailMem :=
  match o.turnId with
  | some turnId =>
    if m.closed then m
    else { m with issued := m.issued ++ [⟨o.runId, turnId, attempt, .observation⟩] }
  | none => m

def toObligation (row : PendingRemoteCancel) : Obligation where
  runId := row.runId
  turnId := row.turnId
  messageHash := row.messageHash
  unresolved := row.unresolvedAt.isSome
  createdAt := row.createdAt
  self := row.runId == m.runId

end TailMem

/-! ## Obligations -/

/-- The obligation is met: drop it, clear the durable marker. -/
def confirmObligation (o : Obligation) : Tail Unit := do
  let m ← getMem
  if m.seized then Proc.fail TailError.seized
  else do
    setMem (·.dropObligation o.runId)
    -- a failed clear leaves the marker to the sweeper
    Proc.handle (do let _ ← statement (.clearRemoteCancelPending o.runId); pure ())
      fun _ => pure ()
    let m ← getMem
    if m.mode = .observe ∧ m.obligations = [] then setMem TailMem.closeObservation else pure ()

/-- The persisted turn `recoverPersistedTurns` gives an obligation: the oldest unowned one
with its text that this tail does not know. -/
def persistedMatch (m : TailMem) (persisted : List UnownedContentTurn) (taken : List TurnId)
    (o : Obligation) : Option UnownedContentTurn :=
  persisted.find? fun turn =>
    !taken.contains turn.turnId && !m.isKnownTurn turn.turnId &&
      some turn.messageHash == o.messageHash

def recoverLoop (persisted : List UnownedContentTurn) :
    List Obligation → List TurnId → Tail Unit
  | [], _ => pure ()
  | o :: rest, taken => do
    let m ← getMem
    match persistedMatch m persisted taken o with
    | none => recoverLoop persisted rest taken
    | some turn => do
      setMem fun m =>
        let m := m.setObligationTurn o.runId turn.turnId
        if o.self then { m with ownTurnId := some turn.turnId } else m
      let _ ← statement (.setRunTurnId o.runId turn.turnId)
      (if turn.ended then confirmObligation { o with turnId := some turn.turnId }
      else setMem (·.issueQualifiedCancel { o with turnId := some turn.turnId } 1))
      recoverLoop persisted rest (taken ++ [turn.turnId])

/-- Retroactive attribution, from disk, of the content obligations whose turn is not
known. -/
def recoverPersistedTurns (candidates : List Obligation) : Tail Unit := do
  let m ← getMem
  if m.closed then pure ()
  else
    let opens := (candidates.filter fun o =>
      m.obligations.any (·.runId == o.runId) && o.turnId.isNone &&
        o.messageHash.isSome).insertionSort byAttributionPriority
    match opens with
    | [] => pure ()
    | o :: rest => do
      let persisted ← Proc.handle
        (do let turns ← statement .listUnownedContentTurns; pure (some turns))
        fun _ => pure none
      match persisted with
      | some turns => recoverLoop turns (o :: rest) []
      | none => pure ()

/-- One row of the merge of `refreshObligations`: known rows keep this tail's turn id and
learn the row's, new rows are adopted. -/
def TailMem.mergeRow (acc : TailMem × List Obligation × List Obligation)
    (row : PendingRemoteCancel) : TailMem × List Obligation × List Obligation :=
  let (m, next, adopted) := acc
  -- a follow tail's own live run owes nothing
  if m.mode = .follow ∧ row.runId = m.runId then acc
  else match m.obligations.find? (·.runId == row.runId) with
    | some known =>
      let known := { known with unresolved := row.unresolvedAt.isSome }
      match known.turnId, row.turnId with
      | none, some turnId =>
        let known := { known with turnId := some turnId }
        let m := if known.self then { m with ownTurnId := some turnId } else m
        (m.issueQualifiedCancel known 1, next ++ [known], adopted)
      | _, _ => (m, next ++ [known], adopted)
    | none =>
      let o := m.toObligation row
      (m.issueQualifiedCancel o 1, next ++ [o], adopted ++ [o])

def TailMem.mergeClaimants (m : TailMem) (rows : List PendingRemoteCancel) :
    TailMem × List Obligation :=
  let (m, next, adopted) := rows.foldl TailMem.mergeRow (m, [], [])
  ({ m with obligations := next }, adopted)

/-- A request that is sent is recorded, and nothing else. -/
theorem TailMem.issueQualifiedCancel_eq (m : TailMem) (o : Obligation) (attempt : Nat) :
    ∃ issued, m.issueQualifiedCancel o attempt = { m with issued := issued } := by
  unfold TailMem.issueQualifiedCancel
  split
  · split
    · exact ⟨m.issued, rfl⟩
    · exact ⟨_, rfl⟩
  · exact ⟨m.issued, rfl⟩

theorem TailMem.mergeRow_eq (acc : TailMem × List Obligation × List Obligation)
    (row : PendingRemoteCancel) : ∃ ownTurnId issued,
    (TailMem.mergeRow acc row).1 = { acc.1 with ownTurnId := ownTurnId, issued := issued } := by
  obtain ⟨m, next, adopted⟩ := acc
  unfold TailMem.mergeRow
  simp only
  split
  · exact ⟨m.ownTurnId, m.issued, rfl⟩
  · split
    · split
      · rename_i known _ _ _ turnId _ _
        obtain ⟨issued, h⟩ := TailMem.issueQualifiedCancel_eq
          (if known.self then { m with ownTurnId := some turnId } else m)
          { known with unresolved := row.unresolvedAt.isSome, turnId := some turnId } 1
        refine ⟨(if known.self then { m with ownTurnId := some turnId } else m).ownTurnId, issued, ?_⟩
        refine h.trans ?_
        split <;> rfl
      · exact ⟨m.ownTurnId, m.issued, rfl⟩
    · obtain ⟨issued, h⟩ := m.issueQualifiedCancel_eq (m.toObligation row) 1
      exact ⟨m.ownTurnId, issued, h⟩

/-- The merge touches the obligations, the own turn's id and the requests sent. -/
theorem TailMem.mergeClaimants_eq (m : TailMem) (rows : List PendingRemoteCancel) :
    ∃ ownTurnId issued obligations, (m.mergeClaimants rows).1 =
      { m with ownTurnId := ownTurnId, issued := issued, obligations := obligations } := by
  have hfold (acc : TailMem × List Obligation × List Obligation) : ∃ ownTurnId issued,
      (rows.foldl TailMem.mergeRow acc).1 =
        { acc.1 with ownTurnId := ownTurnId, issued := issued } := by
    induction rows generalizing acc with
    | nil => exact ⟨acc.1.ownTurnId, acc.1.issued, rfl⟩
    | cons row rows ih =>
      obtain ⟨_, _, hrow⟩ := TailMem.mergeRow_eq acc row
      obtain ⟨ownTurnId, issued, hrest⟩ := ih (TailMem.mergeRow acc row)
      refine ⟨ownTurnId, issued, ?_⟩
      rw [List.foldl_cons, hrest, hrow]
  obtain ⟨ownTurnId, issued, h⟩ := hfold (m, [], [])
  refine ⟨ownTurnId, issued, (rows.foldl TailMem.mergeRow (m, [], [])).2.1, ?_⟩
  simp only [TailMem.mergeClaimants, h]

/-- Re-read the session's open obligations and adopt those this tail does not follow. -/
def refreshObligations (snapshot : Option SessionClaimants) : Tail Unit := do
  let m ← getMem
  if m.closed then pure ()
  else do
    let claimants ← (match snapshot with
      | some claimants => pure claimants
      | none => statement .listSessionClaimants)
    let m ← getMem
    let adopted := (m.mergeClaimants claimants.obligations).2
    setMem fun m => (m.mergeClaimants claimants.obligations).1
    recoverPersistedTurns adopted
    let m ← getMem
    if m.mode = .observe ∧ m.obligations = [] then setMem TailMem.closeObservation else pure ()

/-! ## Attribution -/

/-- The obligation a turn opening with this correlator goes to. -/
def TailMem.claimant (m : TailMem) (content : Option MessageHash) : Option Obligation :=
  ((m.obligations.filter fun o => o.turnId.isNone && o.messageHash == content).insertionSort
    byAttributionPriority).head?

/-- The search for a turn's run, in order: known ids, an obligation with the correlator,
the tail's own run, a live successor. -/
def findTurnRun (claimants : SessionClaimants) (turnId : TurnId)
    (content : Option MessageHash) : Tail TurnAttribution := do
  let m ← getMem
  if m.ownTurnId = some turnId then pure .own
  else if m.obligations.any (·.turnId == some turnId) then pure .obligation
  else match m.claimant content with
    | some o => do
      setMem (·.setObligationTurn o.runId turnId)
      let _ ← statement (.setRunTurnId o.runId turnId)
      setMem (·.issueQualifiedCancel { o with turnId := some turnId } 1)
      pure .obligation
    | none =>
      if m.mode = .follow ∧ m.ownMessageHash = content then do
        -- before the event is persisted: a crash in between keeps the proof
        let _ ← statement (.setRunTurnId m.runId turnId)
        setMem fun m => { m with ownTurnId := some turnId }
        pure .own
      else match content with
        | some hash =>
          match claimants.live.find? fun run =>
              run.runId != m.runId && run.messageHash == some hash with
          | some successor => do
            let _ ← statement (.setRunTurnId successor.runId turnId)
            pure .successor
          | none => pure .foreign
        | none => pure .foreign

/-- Serialization: this turn starting proves attributed obligations with another id over,
and a newer run's turn proves every obligation over. -/
def confirmSuperseded (turnId : TurnId) (supersedesAll : Bool) (o : Obligation) :
    Tail Unit := do
  let m ← getMem
  let o := m.current o
  if o.turnId = some turnId then pure ()
  else if o.turnId.isSome || supersedesAll then confirmObligation o
  else pure ()

/-- Attribute a turn once its opening is complete; `content` is the digest of its
`message.received`, `none` for a content-less turn. -/
def attributeTurn (turnId : TurnId) (content : Option MessageHash) : Tail TurnAttribution := do
  let claimants ← statement .listSessionClaimants
  refreshObligations (some claimants)
  let result ← findTurnRun claimants turnId content
  let m ← getMem
  Proc.each (confirmSuperseded turnId (result == .own || result == .successor)) m.obligations
  pure result

/-! ## Settlement -/

/-- The run's terminal transition, a compare-and-set on the row. -/
def finishRun (status : RunStatus) (sessionStatus : Option AgentSessionStatus)
    (error : Option String) (remoteCancelPendingAt : Option Nat) : Tail Bool := do
  let m ← getMem
  if m.finished then pure false
  else do
    setMem fun m => { m with finished := true }
    let completedAt :=
      if status = .waiting then none else some (remoteCancelPendingAt.getD m.now)
    let marked ← statement (.markRun m.runId
      { RunStatusPatch.ofStatus status with
        error := some error
        completedAt := completedAt
        remoteCancelPendingAt := remoteCancelPendingAt })
    if marked then do
      (match sessionStatus with
        | some s => statement (.markSession s)
        | none => pure ())
      setMem fun m =>
        { m with
          statuses := m.statuses ++ [status]
          finishedAs := some (status, m.lastAssistantMessage) }
      pure true
    else pure false

/-- The remote leg of a settlement: a turn-qualified cancel if the turn is known, nothing
if not. -/
def settleRemote (awaitRemote : Bool) : Tail RemoteCancelOutcome := do
  let m ← getMem
  match m.ownTurnId with
  | none => pure .pending
  | some turnId => do
    setMem fun m => { m with issued := m.issued ++ [⟨m.runId, turnId, 1, .settlement⟩] }
    if awaitRemote then
      Proc.handle
        (do
          let reply ← statement (.cancelRemoteTurn turnId)
          pure (if reply = .terminal then .terminal else .issued))
        fun _ => pure .failed
    else pure .issued

/-- Settle the row terminal with its obligation in one statement (a Stop, the wall-clock
cap, shutdown), then stay on the stream for eve's confirmation. -/
def settleAndObserve (status : RunStatus) (reason : String) (awaitRemote observe : Bool) :
    Tail RemoteCancelOutcome := do
  let m ← getMem
  let turnId := m.ownTurnId
  let outcome ← settleRemote awaitRemote
  let m ← getMem
  let now := m.now
  let owes := outcome != .terminal
  let marked ← finishRun status (if status = .canceled then some .active else none)
    (some reason) (if owes then some now else none)
  if !marked || !owes || !observe then do
    setMem TailMem.close
    pure outcome
  else do
    setMem fun m =>
      { m with
        mode := .observe
        obligations := m.obligations ++ [⟨m.runId, turnId, m.ownMessageHash, false, now, true⟩] }
    setMem fun m =>
      if outcome = .failed then
        m.issueQualifiedCancel ⟨m.runId, turnId, m.ownMessageHash, false, now, true⟩ 2
      else m
    refreshObligations none
    pure outcome

/-- The own turn found in the events persisted for the run: the last `message.received`
with the run's text, or (a content-less send) the last `turn.started` that another event
than its `message.received` follows; never a turn of an obligation. -/
def recoverOwnTurn (ownMessageHash : Option MessageHash) (known : List (Option TurnId)) :
    List EveStreamEvent → Option TurnId → Option TurnId
  | [], recovered => recovered
  | stored :: rest, recovered =>
    let recovered := match stored.event with
      | .messageReceived turnId message =>
        if ownMessageHash.isSome && !known.contains (some turnId) &&
            some (hashTurnMessage message) == ownMessageHash then some turnId
        else recovered
      | .turnStarted turnId =>
        if ownMessageHash.isNone then
          match rest.head? with
          | some next =>
            let contentLess := match next.event with
              | .messageReceived turnId' _ => turnId' != turnId
              | _ => true
            if contentLess && !known.contains (some turnId) then some turnId else recovered
          | none => recovered
        else recovered
      | _ => recovered
    recoverOwnTurn ownMessageHash known rest recovered

/-- The preamble of an observation: its own obligation must still be there. -/
def preambleObserve : Tail Bool := do
  let m ← getMem
  match m.obligations.find? (·.self) with
  | none => do
    setMem TailMem.close
    pure false
  | some mine => do
    let ownTurnId := mine.turnId.or m.ownTurnId
    setMem fun m =>
      { m with
        ownTurnId := ownTurnId
        obligations := m.obligations.map fun o =>
          if o.runId == mine.runId then { o with turnId := ownTurnId } else o }
    setMem fun m => m.issueQualifiedCancel { mine with turnId := ownTurnId } 1
    let m ← getMem
    recoverPersistedTurns m.obligations
    let m ← getMem
    pure (!m.closed)

/-- The preamble of a live run's tail: own-turn recovery, then the adoption of the row. -/
def preambleFollow : Tail Bool := do
  setMem fun m => { m with obligations := m.obligations.filter fun o => !o.self }
  let m ← getMem
  recoverPersistedTurns m.obligations
  setMem fun m => { m with sawOwnTurn := m.ownTurnId.isSome }
  let m ← getMem
  (if !m.sawOwnTurn && 0 < m.seq then do
    let persisted ← statement (.listEvents m.runId)
    let m ← getMem
    match recoverOwnTurn m.ownMessageHash (m.obligations.map (·.turnId)) persisted none with
    | some turnId => do
      let _ ← statement (.setRunTurnId m.runId turnId)
      setMem fun m => { m with ownTurnId := some turnId, sawOwnTurn := true }
    | none => pure ()
  else pure ())
  let m ← getMem
  if m.closed then pure false
  else do
    let adopted ← statement (.markRun m.runId
      { RunStatusPatch.ofStatus .running with
        startedAt := if m.seq = 0 then some m.now else none })
    if adopted then do
      setMem fun m => { m with statuses := m.statuses ++ [.running] }
      pure true
    else do
      setMem fun m => { m with finished := true }.close
      pure false

/-- Everything `run` does before it opens the stream; `false` when it returns there. -/
def preamble : Tail Bool := do
  let m ← getMem
  if m.closed then pure false
  else do
    setMem fun m => { m with busy := true }
    let seq ← statement (.countRunEvents m.runId)
    let startIndex ← statement .countSessionEvents
    let seenEventIds ← statement (.listEventIds m.runId)
    setMem fun m =>
      { m with seq := seq, startIndex := startIndex, seenEventIds := seenEventIds }
    let turnState ← statement (.getRunTurnState m.runId)
    setMem fun m =>
      { m with
        ownTurnId := turnState.bind (·.turnId)
        ownMessageHash := turnState.bind (·.messageHash) }
    let claimants ← statement .listSessionClaimants
    setMem fun m =>
      { m with
        obligations := claimants.obligations.map m.toObligation
        obligationsLoaded := true }
    let m ← getMem
    if m.closed then pure false
    else match m.mode with
      | .observe => preambleObserve
      | .follow => preambleFollow

/-- The backstop of `done`: whatever way `run` ends, the tail is closed and idle. -/
def TailMem.exit (m : TailMem) : TailMem := { m.close with busy := false, phase := .exited }

def backstop (run : Tail Unit) : Tail Unit :=
  Proc.handle run fun e => do
    setMem TailMem.exit
    Proc.fail e

def start : Tail Unit :=
  backstop do
    let go ← preamble
    setMem fun m => if go then { m with phase := .connecting } else m.exit

/-- The abort landed: an observation just ends, a live run is failed. -/
def finishAborted : Tail Unit := do
  let m ← getMem
  if m.mode = .observe then pure ()
  else do
    let _ ← finishRun .failed none (some (m.cancelReason.getD "run tail aborted")) none
    pure ()

/-- A connect that consumed something starts the count of failed attempts over. -/
def TailMem.countAttempt (m : TailMem) : TailMem :=
  { m with attempt := if 0 < m.consumedThisConnect then 1 else m.attempt + 1 }

/-- The `catch` of the connect loop. -/
def onStreamError : Tail Unit := do
  -- a held opening was never persisted and the cursor never moved past it
  setMem fun m => { m with held := none, busy := false }
  let m ← getMem
  if m.detaching then setMem TailMem.exit
  else if m.closed then do
    finishAborted
    setMem TailMem.exit
  else do
    setMem TailMem.countAttempt
    let m ← getMem
    if maxReconnectAttempts < m.attempt then do
      setMem TailMem.close
      (if m.mode = .observe then pure ()
      else do
        let _ ← finishRun .failed none (some "event stream lost after 5 reconnect attempts") none
        pure ())
      setMem TailMem.exit
    else setMem fun m => { m with phase := .connecting }

/-- eve's tail index against the count-derived cursor: a cursor past the end is clamped
and the stream reopened. -/
def clampCursor (tailIndex : Option Int) : Tail Unit := do
  let m ← getMem
  setMem fun m => { m with requestTailIndex := false }
  match tailIndex with
  | some tailIndex =>
    if tailIndex + 1 < (m.startIndex : Int) then do
      setMem fun m => { m with startIndex := (tailIndex + 1).toNat }
      Proc.fail TailError.stream
    else pure ()
  | none => pure ()

/-- Open the stream at the cursor; from there on the body's lines are read. -/
def openBody : Tail Unit := do
  setMem fun m => { m with consumedThisConnect := 0, held := none, busy := false }
  let m ← getMem
  let tailIndex ← statement (.openStream m.startIndex m.requestTailIndex)
  let m' ← getMem
  (if m'.closed then Proc.fail TailError.stream else pure ())
  (if m.requestTailIndex then clampCursor tailIndex else pure ())
  setMem fun m' => { m' with phase := .reading m.startIndex }

/-- One connect of the loop. -/
def connect : Tail Unit :=
  backstop do
    let m ← getMem
    if m.detaching then setMem TailMem.exit
    else if m.closed then do
      finishAborted
      setMem TailMem.exit
    else Proc.handle openBody fun _ => onStreamError

/-- Persist one consumed event and advance both cursors: append first, count after. -/
def persist (event : EveStreamEvent) (duplicate : Bool) : Tail Unit := do
  let m ← getMem
  (if duplicate then pure ()
  else do
    statement (.appendEvent m.runId m.seq event)
    setMem fun m =>
      { m with
        seenEventIds := m.seenEventIds ++ event.id.toList
        seq := m.seq + 1 })
  setMem fun m =>
    { m with
      consumedThisConnect := m.consumedThisConnect + 1
      startIndex := m.startIndex + 1 }

/-- The own turn's opening landed: the per-turn latches start over. -/
def TailMem.applyAttribution (m : TailMem) : TurnAttribution → TailMem
  | .own =>
    { m with
      sawOwnTurn := true
      pendingInput := false
      pendingAuthorization := false
      canceledTurn := false }
  | _ => m

/-- A persisted event drives the latches. -/
def TailMem.latch (m : TailMem) (event : EveEvent) : TailMem :=
  { m with
    pendingInput := nextPendingInputRequest m.pendingInput event
    pendingAuthorization := nextPendingAuthorization m.pendingAuthorization event
    canceledTurn := m.canceledTurn || (m.sawOwnTurn && match event with
      | .turnCancelled _ => true
      | _ => false)
    lastAssistantMessage := match event with
      | .messageCompleted finishReason (some message) =>
        if m.sawOwnTurn && finishReason == "stop" then some message
        else m.lastAssistantMessage
      | _ => m.lastAssistantMessage }

/-- eve's own confirmation: a turn boundary meets the obligation that owns the turn, a
session boundary every owned one (a dead session the others too). -/
def confirmBoundary (event : EveEvent) : Tail Unit :=
  match event with
  | .turnCancelled turnId | .turnCompleted turnId => do
    refreshObligations none
    let m ← getMem
    match m.obligations.find? (·.turnId == some turnId) with
    | some o => confirmObligation o
    | none => pure ()
  | .sessionWaiting => do
    refreshObligations none
    let m ← getMem
    Proc.each (fun o => do
      let m ← getMem
      let o := m.current o
      if o.turnId.isSome then confirmObligation o else pure ()) m.obligations
  | .sessionCompleted | .sessionFailed .. => do
    refreshObligations none
    let m ← getMem
    Proc.each (fun o => do
      let m ← getMem
      confirmObligation (m.current o)) m.obligations
  | _ => pure ()

def EveEvent.isSessionFailed : EveEvent → Bool
  | .sessionFailed .. => true
  | _ => false

/-- The leftover gate: before the run's own turn only a dead session counts. -/
def TailMem.classify (m : TailMem) (event : EveEvent) : Option TerminalDecision :=
  if m.sawOwnTurn || event.isSessionFailed then
    classifyTerminal event ⟨m.pendingInput, m.pendingAuthorization, m.canceledTurn⟩
  else none

/-- What follows the persist of an event; `true` when the tail returns. -/
def afterPersist (event : EveStreamEvent) : Tail Bool := do
  setMem (·.latch event.event)
  confirmBoundary event.event
  let m ← getMem
  if m.mode = .observe then pure m.observationClosed
  else match m.classify event.event with
    | some terminal => do
      -- the reader slot is free before the row settles
      setMem TailMem.close
      let _ ← finishRun terminal.runStatus (some terminal.sessionStatus) terminal.error none
      pure true
    | none => pure false

/-- Attribute a held opening, then persist it. -/
def persistHeld (held : Held) (content : Option MessageHash) : Tail Unit := do
  let attribution ← attributeTurn held.turnId content
  persist held.event held.duplicate
  setMem fun m => ({ m with held := none } : TailMem).applyAttribution attribution

/-- The reconnect-overlap guard: the event was persisted for this run before. -/
def TailMem.isDuplicate (m : TailMem) (event : EveStreamEvent) : Bool :=
  match event.id with
  | some id => m.seenEventIds.contains id
  | none => false

/-- One event of the stream; `true` when the tail returns. -/
def consumeEvent (event : EveStreamEvent) : Tail Bool := do
  let m ← getMem
  if m.closed then Proc.fail TailError.stream
  else
    let duplicate := m.isDuplicate event
    match event.event with
    | .turnStarted turnId => do
      -- two openings in a row: the first was content-less
      (match m.held with
        | some held => persistHeld held none
        | none => pure ())
      setMem fun m => { m with held := some ⟨event, turnId, duplicate⟩ }
      pure false
    | .messageReceived turnId message =>
      match m.held with
      | some held => do
        persistHeld held
          (if turnId = held.turnId then some (hashTurnMessage message) else none)
        let m ← getMem
        if m.mode = .observe ∧ m.observationClosed = true then pure true
        else do
          persist event duplicate
          afterPersist event
      | none => do
        (if m.isKnownTurn turnId then pure ()
        else do
          let attribution ← attributeTurn turnId (some (hashTurnMessage message))
          setMem (·.applyAttribution attribution))
        persist event duplicate
        afterPersist event
    | _ =>
      match m.held with
      | some held => do
        persistHeld held none
        let m ← getMem
        if m.mode = .observe ∧ m.observationClosed = true then pure true
        else do
          persist event duplicate
          afterPersist event
      | none => do
        persist event duplicate
        afterPersist event

/-- The body's next line: a line that does not parse is skipped without a trace. -/
def consumeLine (pos : Nat) : Line → Tail Unit
  | none => setMem fun m => { m with phase := .reading (pos + 1) }
  | some event => backstop (Proc.handle
      (do
        setMem fun m => { m with phase := .reading (pos + 1), busy := true }
        let stop ← consumeEvent event
        setMem fun m => if stop then m.exit else { m with busy := false })
      fun _ => onStreamError)

/-- The body ends or breaks. -/
def streamDrop : Tail Unit := backstop onStreamError

/-! ## What the manager does to a tail -/

/-- Stop tailing; the row and its obligation stay as they are. -/
def TailMem.detach (m : TailMem) : TailMem := { m with detaching := true }.close

/-- `RunTailHandle.seize`: closed, and fenced between statements from here on. -/
def TailMem.seize (m : TailMem) : TailMem := { m.close with seized := true }

/-- `RunTailHandle.cancel`: a user Stop settles the row and stays to observe, shutdown
settles it and leaves; an observation tail has nothing left to settle. -/
def cancel (reason : String) (userStop awaitRemote : Bool) : Tail RemoteCancelOutcome := do
  setMem fun m => { m with cancelReason := m.cancelReason.or (some reason) }
  let m ← getMem
  let reason := m.cancelReason.getD reason
  if m.mode = .observe then do
    (if userStop then pure () else setMem TailMem.detach)
    pure .pending
  else if userStop then settleAndObserve .canceled reason awaitRemote true
  else settleAndObserve .failed reason false false

end InvisibleString.Tailer
