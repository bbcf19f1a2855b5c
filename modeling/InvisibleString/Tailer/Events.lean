import Mathlib.Data.List.Induction

/- # `Tailer.Events` — eve's stream events and the terminal classifier

The events of an eve session stream as far as the tail tells them apart, the three pure
functions it folds over them (`classifyTerminal`, `nextPendingInputRequest`,
`nextPendingAuthorization`), and what a stretch of the stream says by itself: whether it
leaves a request open (`leavesInput`, `leavesAuthorization`), whether its turn was
cancelled, what its last reply was.

**Proved here.**

    the input latch after a stretch = the stretch leaves a request open, or it settles
      none and the latch was set before  (`foldl_nextPendingInput`)
    the same for the consent latch  (`foldl_nextPendingAuthorization`)

A digest is modelled by the text it is the digest of: sha256 is taken to be free of
collisions.
-/

namespace InvisibleString.Tailer

abbrev RunId := Nat

abbrev TurnId := Nat

/-- eve's `meta.id`. -/
abbrev EventId := Nat

/-- The turn correlator `runs.message_hash`. -/
structure MessageHash where
  text : String
  deriving DecidableEq, Repr

def hashTurnMessage (message : String) : MessageHash := ⟨message⟩

inductive RunStatus where
  | queued
  | running
  | waiting
  | succeeded
  | failed
  | canceled
  deriving DecidableEq, Repr

/-- `succeeded`, `failed` and `canceled` are sticky. -/
def RunStatus.terminal : RunStatus → Bool
  | .queued | .running | .waiting => false
  | .succeeded | .failed | .canceled => true

inductive AgentSessionStatus where
  | active
  | waiting
  | closed
  | error
  deriving DecidableEq, Repr

/-- `type` and the `data` the tail reads.  `other` stands for every type the tail only
persists (`step.started`, `reasoning.appended`, …). -/
inductive EveEvent where
  | turnStarted (turnId : TurnId)
  | messageReceived (turnId : TurnId) (message : String)
  | inputRequested
  | actionResult
  | messageCompleted (finishReason : String) (message : Option String)
  | turnCompleted (turnId : TurnId)
  | turnFailed (code message : String)
  | turnCancelled (turnId : TurnId)
  | contextCleared
  | sessionWaiting
  | sessionCompleted
  | sessionFailed (code message : String)
  | authorizationRequired (name : String)
  | authorizationCompleted
  | other (type : String)
  deriving DecidableEq, Repr

structure EveStreamEvent where
  event : EveEvent
  id : Option EventId
  deriving DecidableEq, Repr

/-- A line of the NDJSON stream as `parseLine` reads it: `none` where the line is not a
JSON object with a string `type`. -/
abbrev Line := Option EveStreamEvent

/-- The events `ndjsonEvents` yields for a run of lines. -/
def parsed (lines : List Line) : List EveStreamEvent := lines.filterMap id

@[simp] theorem parsed_nil : parsed [] = [] := rfl

@[simp] theorem parsed_append (l l' : List Line) : parsed (l ++ l') = parsed l ++ parsed l' :=
  List.filterMap_append

@[simp] theorem parsed_singleton_none : parsed [none] = [] := rfl

@[simp] theorem parsed_singleton_some (e : EveStreamEvent) : parsed [some e] = [e] := rfl

theorem mem_parsed {lines : List Line} {e : EveStreamEvent} :
    e ∈ parsed lines ↔ some e ∈ lines := by
  simp [parsed]

theorem length_parsed_le (lines : List Line) : (parsed lines).length ≤ lines.length :=
  List.length_filterMap_le _ _

/-! ## Terminal classification -/

structure TerminalDecision where
  runStatus : RunStatus
  sessionStatus : AgentSessionStatus
  error : Option String
  deriving DecidableEq, Repr

/-- Latched observations that change what a boundary event means. -/
structure TerminalContext where
  pendingInputRequest : Bool
  pendingAuthorization : Bool
  canceledTurn : Bool
  deriving DecidableEq, Repr

def classifyTerminal (event : EveEvent) (context : TerminalContext) : Option TerminalDecision :=
  match event with
  | .turnFailed code message => some ⟨.failed, .active, some (code ++ ": " ++ message)⟩
  | .sessionFailed code message => some ⟨.failed, .error, some (code ++ ": " ++ message)⟩
  | .sessionCompleted => some ⟨.succeeded, .closed, none⟩
  | .sessionWaiting =>
    -- cancellation outranks a parked request: eve discards the request with its turn
    if context.canceledTurn then some ⟨.canceled, .active, none⟩
    else if context.pendingInputRequest || context.pendingAuthorization then
      some ⟨.waiting, .waiting, none⟩
    else some ⟨.succeeded, .active, none⟩
  | _ => none

def nextPendingInputRequest (current : Bool) : EveEvent → Bool
  | .inputRequested => true
  | .actionResult | .turnCancelled _ | .contextCleared => false
  | _ => current

/-- Not cleared by `action.result`: a tool result never resolves a consent challenge. -/
def nextPendingAuthorization (current : Bool) : EveEvent → Bool
  | .authorizationRequired _ => true
  | .authorizationCompleted | .turnCancelled _ | .contextCleared => false
  | _ => current

/-! ## What a stretch of events says by itself -/

/-- The event raises or settles an input request. -/
def EveEvent.touchesInput : EveEvent → Bool
  | .inputRequested | .actionResult | .turnCancelled _ | .contextCleared => true
  | _ => false

/-- The event raises or settles a consent challenge. -/
def EveEvent.touchesAuthorization : EveEvent → Bool
  | .authorizationRequired _ | .authorizationCompleted | .turnCancelled _
  | .contextCleared => true
  | _ => false

/-- The stretch leaves an input request open: the last event that raises or settles one
raises it. -/
def leavesInput (events : List EveEvent) : Bool :=
  (events.filter EveEvent.touchesInput).getLast? == some .inputRequested

/-- The stretch leaves a consent challenge open. -/
def leavesAuthorization (events : List EveEvent) : Bool :=
  match (events.filter EveEvent.touchesAuthorization).getLast? with
  | some (.authorizationRequired _) => true
  | _ => false

theorem nextPendingInputRequest_of_not_touches {e : EveEvent} {b : Bool}
    (h : e.touchesInput = false) : nextPendingInputRequest b e = b := by
  cases e <;> simp_all [EveEvent.touchesInput, nextPendingInputRequest]

theorem nextPendingInputRequest_of_touches {e : EveEvent} {b : Bool}
    (h : e.touchesInput = true) :
    nextPendingInputRequest b e = (e == .inputRequested) := by
  cases e <;> simp_all [EveEvent.touchesInput, nextPendingInputRequest]

theorem nextPendingAuthorization_of_not_touches {e : EveEvent} {b : Bool}
    (h : e.touchesAuthorization = false) : nextPendingAuthorization b e = b := by
  cases e <;> simp_all [EveEvent.touchesAuthorization, nextPendingAuthorization]

/-- The input latch after a stretch of events. -/
theorem foldl_nextPendingInput (events : List EveEvent) (b : Bool) :
    events.foldl nextPendingInputRequest b =
      (leavesInput events || (b && !events.any EveEvent.touchesInput)) := by
  induction events using List.reverseRecOn with
  | nil => simp [leavesInput]
  | append_singleton es e ih =>
    rw [List.foldl_append, List.foldl_cons, List.foldl_nil, ih]
    cases h : e.touchesInput with
    | false =>
      rw [nextPendingInputRequest_of_not_touches h]
      simp [leavesInput, h]
    | true =>
      rw [nextPendingInputRequest_of_touches h]
      simp [leavesInput, h]

theorem foldl_nextPendingAuthorization (events : List EveEvent) (b : Bool) :
    events.foldl nextPendingAuthorization b =
      (leavesAuthorization events || (b && !events.any EveEvent.touchesAuthorization)) := by
  induction events using List.reverseRecOn with
  | nil => simp [leavesAuthorization]
  | append_singleton es e ih =>
    rw [List.foldl_append, List.foldl_cons, List.foldl_nil, ih]
    cases h : e.touchesAuthorization with
    | false =>
      rw [nextPendingAuthorization_of_not_touches h]
      simp [leavesAuthorization, h]
    | true =>
      cases e <;>
        simp_all [leavesAuthorization, EveEvent.touchesAuthorization, nextPendingAuthorization]

end InvisibleString.Tailer
