import InvisibleString.Lib.OrderedMap
import InvisibleString.Lib.Since
import InvisibleString.Tailer.Verdict

/- # `Chat.RunView` — what a parked run asks of its user

The prompts of `reduceRunView`: the unanswered input requests and the consent challenges of
a run, folded over its persisted events.  They are keyed, a request by its id and through it
by its tool call, a challenge by its connection.  The tail decides over the same events
whether the run waits, from two flags that are not keyed (`nextPendingInputRequest`,
`nextPendingAuthorization`): any tool result lowers the first one.

`RunEvent` is eve's event with the data the prompts are made of, `RunEvent.brief` what the
tail reads of it.

**Proved here.**

    a request is listed  ⟺  it was raised and not settled since  (`mem_pendingByRequest`)
    a challenge is open  ⟺  required and not completed since  (`mem_authorizationsByName`)
    run waits ⟺ something is asked,  exactly where no other call's result
      hides an open prompt and no request is empty  (`waiting_iff_asks_iff`)
-/

namespace InvisibleString.Chat

open Tailer Temporal

abbrev RequestId := String

abbrev CallId := String

inductive EveInputRequestKind where
  | toolApproval
  | question
  | sessionLimit
  deriving DecidableEq, Repr

inductive InputDisplay where
  | confirmation
  | select
  | text
  deriving DecidableEq, Repr

structure InputOption where
  id : String
  label : String
  description : Option String
  style : Option String
  deriving DecidableEq, Repr

structure InputAction where
  callId : CallId
  toolName : String
  deriving DecidableEq, Repr

/-- One request of an `input.requested`.  `kind` is `none` in rows older than the
discriminator. -/
structure EveInputRequest where
  requestId : RequestId
  prompt : String
  kind : Option EveInputRequestKind
  action : Option InputAction
  options : Option (List InputOption)
  display : Option InputDisplay
  allowFreeform : Option Bool
  deriving DecidableEq, Repr

/-- The strings `authorizationField` reads of a challenge; `none` for an absent or an empty
one. -/
structure AuthorizationPayload where
  url : Option String
  instructions : Option String
  userCode : Option String
  expiresAt : Option String
  deriving DecidableEq, Repr

inductive AuthorizationOutcome where
  | authorized
  | declined
  | failed
  | timedOut
  deriving DecidableEq, Repr

/-- A persisted event with what the prompts read of it. -/
inductive RunEvent where
  | turnStarted (turnId : TurnId)
  | messageReceived (turnId : TurnId) (message : String)
  | inputRequested (requests : List EveInputRequest)
  | actionResult (callId : CallId)
  | messageCompleted (finishReason : String) (message : Option String)
  | turnCompleted (turnId : TurnId)
  | turnFailed (code message : String)
  | turnCancelled (turnId : TurnId)
  | contextCleared
  | sessionWaiting
  | sessionCompleted
  | sessionFailed (code message : String)
  | authorizationRequired (name : String) (description : Option String)
      (authorization : AuthorizationPayload)
  | authorizationCompleted (name : String) (outcome : Option AuthorizationOutcome)
      (reason : Option String)
  | other (type : String)
  deriving DecidableEq, Repr

/-- The event as the tail reads it. -/
def RunEvent.brief : RunEvent → EveEvent
  | .turnStarted turnId => .turnStarted turnId
  | .messageReceived turnId message => .messageReceived turnId message
  | .inputRequested _ => .inputRequested
  | .actionResult _ => .actionResult
  | .messageCompleted finishReason message => .messageCompleted finishReason message
  | .turnCompleted turnId => .turnCompleted turnId
  | .turnFailed code message => .turnFailed code message
  | .turnCancelled turnId => .turnCancelled turnId
  | .contextCleared => .contextCleared
  | .sessionWaiting => .sessionWaiting
  | .sessionCompleted => .sessionCompleted
  | .sessionFailed code message => .sessionFailed code message
  | .authorizationRequired name _ _ => .authorizationRequired name
  | .authorizationCompleted .. => .authorizationCompleted
  | .other type => .other type

/-! ## The reduction -/

structure PendingInputView where
  requestId : RequestId
  prompt : String
  kind : EveInputRequestKind
  toolName : Option String
  options : List InputOption
  allowFreeform : Bool
  display : InputDisplay
  deriving DecidableEq, Repr

structure AuthorizationView where
  name : String
  description : Option String
  url : Option String
  instructions : Option String
  userCode : Option String
  expiresAt : Option String
  outcome : Option AuthorizationOutcome
  reason : Option String
  deriving DecidableEq, Repr

def sessionLimitToolName : String := "session_limit_continuation"

def inputRequestKindOf (request : EveInputRequest) : EveInputRequestKind :=
  match request.kind with
  | some kind => kind
  | none =>
    if request.action.map InputAction.toolName = some "ask_question" then .question
    else .toolApproval

def pendingInputFromRequest (request : EveInputRequest) : PendingInputView :=
  let kind := inputRequestKindOf request
  let toolName := request.action.map InputAction.toolName
  -- a question's tool and eve's budget shim are no tools the user approves
  let showsTool := kind = .toolApproval ∧ toolName ≠ some sessionLimitToolName
  { requestId := request.requestId
    prompt := request.prompt
    kind := kind
    toolName := if showsTool then toolName else none
    options := request.options.getD []
    allowFreeform := request.allowFreeform.getD false
    display := request.display.getD
      (if (request.options.getD []).isEmpty then .text else .select) }

/-- The variables of `reduceRunView` the prompts live in; both maps list their entries in
insertion order. -/
structure Prompts where
  pendingByRequest : List (RequestId × PendingInputView × Option CallId)
  authorizationsByName : List (String × AuthorizationView)
  canceled : Bool
  deriving DecidableEq, Repr

def Prompts.empty : Prompts := ⟨[], [], false⟩

/-- Every unanswered prompt is stale; a settled consent is history and stays. -/
def Prompts.retirePendingInputs (p : Prompts) : Prompts where
  pendingByRequest := []
  authorizationsByName := p.authorizationsByName.filter fun entry => entry.2.outcome.isSome
  canceled := p.canceled

def raiseRequest (pending : List (RequestId × PendingInputView × Option CallId))
    (request : EveInputRequest) : List (RequestId × PendingInputView × Option CallId) :=
  OrderedMap.set request.requestId
    (pendingInputFromRequest request, request.action.map InputAction.callId) pending

/-- One frame of the loop, as far as it touches the prompts. -/
def Prompts.reduce (p : Prompts) : RunEvent → Prompts
  | .inputRequested requests =>
    { p with pendingByRequest := requests.foldl raiseRequest p.pendingByRequest }
  | .actionResult callId =>
    -- `resolveInputsForCall`
    { p with pendingByRequest := p.pendingByRequest.filter fun entry =>
        entry.2.2 != some callId }
  | .authorizationRequired name description authorization =>
    let view := ⟨name, description, authorization.url, authorization.instructions,
      authorization.userCode, authorization.expiresAt, none, none⟩
    { p with authorizationsByName := OrderedMap.set name view p.authorizationsByName }
  | .authorizationCompleted name outcome reason =>
    -- an unknown outcome reads `failed`; a bare completion still shows its outcome
    let outcome := some (outcome.getD .failed)
    let view := match OrderedMap.get? name p.authorizationsByName with
      | some existing => { existing with outcome := outcome, reason := reason }
      | none => ⟨name, none, none, none, none, none, outcome, reason⟩
    { p with authorizationsByName := OrderedMap.set name view p.authorizationsByName }
  | .turnCancelled _ => { p with canceled := true }.retirePendingInputs
  | .contextCleared => p.retirePendingInputs
  | _ => p

/-- The prompts of a run view. -/
structure RunPrompts where
  pendingInputs : List PendingInputView
  authorizations : List AuthorizationView
  deriving DecidableEq, Repr

/-- `pendingInputs` and `authorizations` of `reduceRunView` for a run in `status`: only a
parked or an active run can still be answered. -/
def reduceRunView (status : RunStatus) (events : List RunEvent) : RunPrompts :=
  let p := events.foldl Prompts.reduce .empty
  let runLive := !p.canceled && (status == .queued || status == .running)
  let answerable := !p.canceled && (status == .waiting || runLive)
  { pendingInputs := if answerable then p.pendingByRequest.map fun entry => entry.2.1 else []
    authorizations := (p.authorizationsByName.map Prod.snd).filter fun auth =>
      auth.outcome.isSome || answerable }

/-- The view shows something to answer. -/
def RunPrompts.asks (view : RunPrompts) : Prop :=
  view.pendingInputs ≠ [] ∨ ∃ auth ∈ view.authorizations, auth.outcome = none

instance (view : RunPrompts) : Decidable view.asks := inferInstanceAs (Decidable (_ ∨ _))

/-- What the tail makes of a `session.waiting` behind the events of the run's turn. -/
def waitingVerdict (events : List RunEvent) : Option RunStatus :=
  let events := events.map RunEvent.brief
  (classifyTerminal .sessionWaiting
    { pendingInputRequest := events.foldl nextPendingInputRequest false
      pendingAuthorization := events.foldl nextPendingAuthorization false
      canceledTurn := events.any EveEvent.isTurnCancelled }).map TerminalDecision.runStatus

/-! ## What raises a prompt and what settles it -/

/-- The event raises the request `id`, last for the call `call`. -/
def RunEvent.raises (id : RequestId) (call : Option CallId) : RunEvent → Prop
  | .inputRequested requests =>
    ((requests.filter fun r => r.requestId == id).getLast?).map
      (fun r => r.action.map InputAction.callId) = some call
  | _ => False

/-- The event settles the request `id` of the call `call`, or raises it anew. -/
def RunEvent.settles (id : RequestId) (call : Option CallId) : RunEvent → Prop
  | .inputRequested requests => ∃ r ∈ requests, r.requestId = id
  | .actionResult callId => call = some callId
  | .turnCancelled _ | .contextCleared => True
  | _ => False

def RunEvent.challenges (name : String) : RunEvent → Prop
  | .authorizationRequired name' .. => name' = name
  | _ => False

def RunEvent.resolves (name : String) : RunEvent → Prop
  | .authorizationRequired name' .. => name' = name
  | .authorizationCompleted name' .. => name' = name
  | .turnCancelled _ | .contextCleared => True
  | _ => False

variable {events : List RunEvent} {e : RunEvent} {id : RequestId} {call : Option CallId}
  {name : String}

/-- A request is unanswered behind the events. -/
def Unanswered (events : List RunEvent) : Prop :=
  ∃ id call, Since (RunEvent.raises id call) (RunEvent.settles id call) events

/-- A consent challenge is unresolved behind the events. -/
def Unresolved (events : List RunEvent) : Prop :=
  ∃ name, Since (RunEvent.challenges name) (RunEvent.resolves name) events

def RunEvent.isInputRequested : RunEvent → Prop
  | .inputRequested _ => True
  | _ => False

/-- A result of any call, or the end of every request. -/
def RunEvent.isResult : RunEvent → Prop
  | .actionResult _ | .turnCancelled _ | .contextCleared => True
  | _ => False

def RunEvent.isAuthorizationRequired : RunEvent → Prop
  | .authorizationRequired .. => True
  | _ => False

/-- A completion of any connection, or the end of every challenge. -/
def RunEvent.isCompletion : RunEvent → Prop
  | .authorizationCompleted .. | .turnCancelled _ | .contextCleared => True
  | _ => False

/-! ## The keyed tables -/

theorem foldl_raiseRequest {pending : List (RequestId × PendingInputView × Option CallId)}
    (h : OrderedMap.UniqueKeys pending) (requests : List EveInputRequest) :
    OrderedMap.UniqueKeys (requests.foldl raiseRequest pending) ∧
      ((∃ view, (id, view, call) ∈ requests.foldl raiseRequest pending) ↔
        RunEvent.raises id call (.inputRequested requests) ∨
          (¬ (∃ r ∈ requests, r.requestId = id) ∧ ∃ view, (id, view, call) ∈ pending)) := by
  induction requests using List.reverseRecOn with
  | nil => exact ⟨h, by simp [RunEvent.raises]⟩
  | append_singleton requests r ih =>
    obtain ⟨hunique, hmem⟩ := ih
    rw [List.foldl_append, List.foldl_cons, List.foldl_nil]
    refine ⟨hunique.set, ?_⟩
    by_cases hr : r.requestId = id
    · have hall : ∃ r' ∈ requests ++ [r], r'.requestId = id := ⟨r, by simp, hr⟩
      have hraise : RunEvent.raises id call (.inputRequested (requests ++ [r])) ↔
          r.action.map InputAction.callId = call := by
        simp [RunEvent.raises, List.filter_append, hr]
      rw [hraise]
      constructor
      · rintro ⟨view, hview⟩
        rw [raiseRequest, OrderedMap.mem_set hunique, if_pos hr.symm] at hview
        exact Or.inl (Prod.mk.inj hview).2.symm
      · rintro (hcall | ⟨hnot, -⟩)
        · refine ⟨pendingInputFromRequest r, ?_⟩
          rw [raiseRequest, OrderedMap.mem_set hunique, if_pos hr.symm, hcall]
        · exact absurd hall hnot
    · have hraise : RunEvent.raises id call (.inputRequested (requests ++ [r])) ↔
          RunEvent.raises id call (.inputRequested requests) := by
        simp [RunEvent.raises, List.filter_append, hr]
      have hany : (∃ r' ∈ requests ++ [r], r'.requestId = id) ↔
          ∃ r' ∈ requests, r'.requestId = id := by
        simp [hr]
      rw [hraise, hany, ← hmem]
      refine exists_congr fun view => ?_
      rw [raiseRequest, OrderedMap.mem_set hunique, if_neg (Ne.symm hr)]

/-- The table of requests: exactly what was raised and not settled since. -/
theorem mem_pendingByRequest (events : List RunEvent) :
    OrderedMap.UniqueKeys (events.foldl Prompts.reduce .empty).pendingByRequest ∧
      ∀ id call, (∃ view, (id, view, call) ∈
        (events.foldl Prompts.reduce .empty).pendingByRequest) ↔
          Since (RunEvent.raises id call) (RunEvent.settles id call) events := by
  induction events using List.reverseRecOn with
  | nil => exact ⟨List.nodup_nil, fun id call => by simp [Prompts.empty]⟩
  | append_singleton events e ih =>
    obtain ⟨hunique, hmem⟩ := ih
    rw [List.foldl_append, List.foldl_cons, List.foldl_nil]
    cases e with
    | inputRequested requests =>
      obtain ⟨hu, hm⟩ := @foldl_raiseRequest "" none _ hunique requests
      refine ⟨hu, fun id call => ?_⟩
      rw [since_append_singleton, ← hmem id call]
      exact (foldl_raiseRequest hunique requests).2.trans (or_congr Iff.rfl and_comm)
    | actionResult callId =>
      refine ⟨hunique.filter _, fun id call => ?_⟩
      rw [since_append_singleton, ← hmem id call]
      simp [Prompts.reduce, RunEvent.raises, RunEvent.settles]
    | turnCancelled turnId =>
      refine ⟨List.nodup_nil, fun id call => ?_⟩
      rw [since_append_singleton]
      simp [Prompts.reduce, Prompts.retirePendingInputs, RunEvent.raises, RunEvent.settles]
    | contextCleared =>
      refine ⟨List.nodup_nil, fun id call => ?_⟩
      rw [since_append_singleton]
      simp [Prompts.reduce, Prompts.retirePendingInputs, RunEvent.raises, RunEvent.settles]
    | _ =>
      refine ⟨hunique, fun id call => ?_⟩
      rw [since_append_singleton, ← hmem id call]
      simp [Prompts.reduce, RunEvent.raises, RunEvent.settles]

/-- The table of challenges: unresolved is what was required and not completed since. -/
theorem mem_authorizationsByName (events : List RunEvent) :
    OrderedMap.UniqueKeys (events.foldl Prompts.reduce .empty).authorizationsByName ∧
      ∀ name, (∃ view, (name, view) ∈
        (events.foldl Prompts.reduce .empty).authorizationsByName ∧ view.outcome = none) ↔
          Since (RunEvent.challenges name) (RunEvent.resolves name) events := by
  induction events using List.reverseRecOn with
  | nil => exact ⟨List.nodup_nil, fun name => by simp [Prompts.empty]⟩
  | append_singleton events e ih =>
    obtain ⟨hunique, hmem⟩ := ih
    rw [List.foldl_append, List.foldl_cons, List.foldl_nil]
    cases e with
    | authorizationRequired name' description authorization =>
      refine ⟨hunique.set, fun name => ?_⟩
      rw [since_append_singleton, ← hmem name]
      simp only [Prompts.reduce, OrderedMap.mem_set hunique, RunEvent.challenges,
        RunEvent.resolves]
      by_cases h : name = name'
      · simp [h]
      · simp [h, Ne.symm h]
    | authorizationCompleted name' outcome reason =>
      refine ⟨hunique.set, fun name => ?_⟩
      rw [since_append_singleton, ← hmem name]
      simp only [Prompts.reduce, OrderedMap.mem_set hunique, RunEvent.challenges,
        RunEvent.resolves, false_or]
      by_cases h : name = name'
      · subst h
        simp only [if_true, not_true, and_false, iff_false]
        rintro ⟨view, rfl, hview⟩
        split at hview <;> cases hview
      · simp [h, Ne.symm h]
    | turnCancelled turnId =>
      refine ⟨hunique.filter _, fun name => ?_⟩
      rw [since_append_singleton]
      simp [Prompts.reduce, Prompts.retirePendingInputs, RunEvent.challenges, RunEvent.resolves]
      grind
    | contextCleared =>
      refine ⟨hunique.filter _, fun name => ?_⟩
      rw [since_append_singleton]
      simp [Prompts.reduce, Prompts.retirePendingInputs, RunEvent.challenges, RunEvent.resolves]
      grind
    | _ =>
      refine ⟨hunique, fun name => ?_⟩
      rw [since_append_singleton, ← hmem name]
      simp [Prompts.reduce, RunEvent.challenges, RunEvent.resolves]

/-! ## The two readings of a parked turn -/

/-- The view of a waiting run asks iff something is unanswered or unresolved. -/
theorem reduceRunView_asks_iff (hno : ∀ turnId, RunEvent.turnCancelled turnId ∉ events) :
    (reduceRunView .waiting events).asks ↔ Unanswered events ∨ Unresolved events := by
  have hcanceled : (events.foldl Prompts.reduce .empty).canceled = false := by
    induction events using List.reverseRecOn with
    | nil => rfl
    | append_singleton events e ih =>
      rw [List.foldl_append, List.foldl_cons, List.foldl_nil]
      have hrest := ih fun turnId h => hno turnId (List.mem_append_left _ h)
      cases e with
      | turnCancelled turnId =>
        exact absurd (List.mem_append_right _ List.mem_cons_self) (hno turnId)
      | _ => exact hrest
  have hanswer : (!(events.foldl Prompts.reduce .empty).canceled &&
      (RunStatus.waiting == RunStatus.waiting || !(events.foldl Prompts.reduce .empty).canceled &&
        (RunStatus.waiting == .queued || RunStatus.waiting == .running))) = true := by
    rw [hcanceled]
    decide
  unfold RunPrompts.asks reduceRunView
  simp only [hanswer, if_true, Bool.or_true, List.filter_true, ne_eq, List.map_eq_nil_iff]
  refine or_congr ?_ ?_
  · constructor
    · intro hne
      obtain ⟨⟨id, view, call⟩, h⟩ := List.exists_mem_of_ne_nil _ hne
      exact ⟨id, call, ((mem_pendingByRequest events).2 id call).mp ⟨view, h⟩⟩
    · rintro ⟨id, call, h⟩
      obtain ⟨view, hview⟩ := ((mem_pendingByRequest events).2 id call).mpr h
      exact List.ne_nil_of_mem hview
  · constructor
    · rintro ⟨view, hview, hnone⟩
      obtain ⟨⟨name, view⟩, hmem, rfl⟩ := List.mem_map.mp hview
      exact ⟨name, ((mem_authorizationsByName events).2 name).mp ⟨view, hmem, hnone⟩⟩
    · rintro ⟨name, h⟩
      obtain ⟨view, hview, hnone⟩ := ((mem_authorizationsByName events).2 name).mpr h
      exact ⟨view, List.mem_map.mpr ⟨_, hview, rfl⟩, hnone⟩

/-- The tail settles the run `waiting` iff its last request stands behind every result, or
its last challenge behind every completion. -/
theorem waitingVerdict_eq_waiting_iff (hno : ∀ turnId, RunEvent.turnCancelled turnId ∉ events) :
    waitingVerdict events = some .waiting ↔
      Since RunEvent.isInputRequested RunEvent.isResult events ∨
        Since RunEvent.isAuthorizationRequired RunEvent.isCompletion events := by
  have hinput : (events.map RunEvent.brief).foldl nextPendingInputRequest false = true ↔
      Since RunEvent.isInputRequested RunEvent.isResult events := by
    rw [List.foldl_map]
    refine foldl_flag ?_ ?_ ?_
    · intro b e he
      cases e <;> first | rfl | exact False.elim he
    · intro b e hn he
      cases e <;> first | rfl | exact False.elim he
    · intro b e hn hq
      cases e <;> first | rfl | exact absurd trivial hn | exact absurd trivial hq
  have hauth : (events.map RunEvent.brief).foldl nextPendingAuthorization false = true ↔
      Since RunEvent.isAuthorizationRequired RunEvent.isCompletion events := by
    rw [List.foldl_map]
    refine foldl_flag ?_ ?_ ?_
    · intro b e he
      cases e <;> first | rfl | exact False.elim he
    · intro b e hn he
      cases e <;> first | rfl | exact False.elim he
    · intro b e hn hq
      cases e <;> first | rfl | exact absurd trivial hn | exact absurd trivial hq
  rw [← hinput, ← hauth]
  unfold waitingVerdict
  have hlive : (events.map RunEvent.brief).any EveEvent.isTurnCancelled = false := by
    rw [List.any_eq_false]
    intro e he
    obtain ⟨e, hmem, rfl⟩ := List.mem_map.mp he
    cases e with
    | turnCancelled turnId => exact absurd hmem (hno turnId)
    | _ => exact Bool.false_ne_true
  simp only [hlive, classifyTerminal, Bool.false_eq_true, if_false]
  cases (events.map RunEvent.brief).foldl nextPendingInputRequest false <;>
    cases (events.map RunEvent.brief).foldl nextPendingAuthorization false <;> simp

theorem unresolved_of_last
    (h : Since RunEvent.isAuthorizationRequired RunEvent.isCompletion events) :
    Unresolved events := by
  induction events using List.reverseRecOn with
  | nil => exact absurd h since_nil
  | append_singleton events e ih =>
    rw [since_append_singleton] at h
    rcases h with h | ⟨h, hq⟩
    · cases e with
      | authorizationRequired name description authorization =>
        exact ⟨name, since_append_singleton.mpr (Or.inl rfl)⟩
      | _ => exact False.elim h
    · obtain ⟨name, hs⟩ := ih h
      cases e with
      | authorizationRequired name' description authorization =>
        exact ⟨name', since_append_singleton.mpr (Or.inl rfl)⟩
      | authorizationCompleted name' outcome reason => exact absurd trivial hq
      | turnCancelled turnId => exact absurd trivial hq
      | contextCleared => exact absurd trivial hq
      | _ => exact ⟨name, since_append_singleton.mpr (Or.inr ⟨hs, id⟩)⟩

/-- Requests behind which no result of any call stands leave one unanswered, unless every
`input.requested` among them is empty. -/
theorem unanswered_of_last {requests : List EveInputRequest} (hne : requests ≠ [])
    (h : Since (· = .inputRequested requests) RunEvent.isResult events) :
    Unanswered events := by
  induction events using List.reverseRecOn with
  | nil => exact absurd h since_nil
  | append_singleton events e ih =>
    have hraise : ∀ requests : List EveInputRequest, requests ≠ [] →
        Unanswered (events ++ [.inputRequested requests]) := by
      intro requests hne
      obtain ⟨r, hr⟩ := List.exists_mem_of_ne_nil _ hne
      obtain ⟨last, hlast⟩ : ∃ last, (requests.filter fun r' =>
          r'.requestId == r.requestId).getLast? = some last := by
        rw [← Option.isSome_iff_exists, List.getLast?_isSome]
        exact List.ne_nil_of_mem (List.mem_filter.mpr ⟨hr, beq_self_eq_true _⟩)
      refine ⟨r.requestId, last.action.map InputAction.callId,
        since_append_singleton.mpr (Or.inl ?_)⟩
      simp only [RunEvent.raises, hlast, Option.map_some]
    rw [since_append_singleton] at h
    rcases h with rfl | ⟨h, hq⟩
    · exact hraise requests hne
    · obtain ⟨id, call, hs⟩ := ih h
      cases e with
      | inputRequested requests' =>
        rcases List.eq_nil_or_concat requests' with rfl | ⟨rest, r, rfl⟩
        · refine ⟨id, call, since_append_singleton.mpr (Or.inr ⟨hs, ?_⟩)⟩
          simp [RunEvent.settles]
        · exact hraise _ (by simp)
      | actionResult callId => exact absurd trivial hq
      | turnCancelled turnId => exact absurd trivial hq
      | contextCleared => exact absurd trivial hq
      | _ => exact ⟨id, call, since_append_singleton.mpr (Or.inr ⟨hs, fun hf => hf⟩)⟩

/-- Where the tail and the view agree on a turn that parked: whatever is left unanswered
or unresolved is so behind every result, or behind every completion; and requests that no
result follows are not all empty, unless something else is left. -/
structure PromptsAlike (events : List RunEvent) : Prop where
  /-- what is left open is not hidden behind another call's result -/
  seen : Unanswered events ∨ Unresolved events →
    Since RunEvent.isInputRequested RunEvent.isResult events ∨
      Since RunEvent.isAuthorizationRequired RunEvent.isCompletion events
  /-- an `input.requested` without requests parks nothing by itself -/
  nonempty : Since RunEvent.isInputRequested RunEvent.isResult events →
    (∃ requests, requests ≠ [] ∧
      Since (· = .inputRequested requests) RunEvent.isResult events) ∨
        Unanswered events ∨ Unresolved events

/-- A run that parks is settled `waiting` exactly when its view asks the user for something,
iff `PromptsAlike`. -/
theorem waiting_iff_asks_iff (events : List RunEvent)
    (hno : ∀ turnId, RunEvent.turnCancelled turnId ∉ events) :
    (waitingVerdict events = some .waiting ↔
      (reduceRunView .waiting (events ++ [.sessionWaiting])).asks) ↔ PromptsAlike events := by
  have hview : reduceRunView .waiting (events ++ [.sessionWaiting]) =
      reduceRunView .waiting events := by
    unfold reduceRunView
    rw [List.foldl_append, List.foldl_cons, List.foldl_nil]
    rfl
  rw [hview, reduceRunView_asks_iff hno, waitingVerdict_eq_waiting_iff hno]
  constructor
  · intro h
    exact ⟨h.mpr, fun hs => Or.inr (h.mp (Or.inl hs))⟩
  · intro h
    refine ⟨?_, h.seen⟩
    rintro (hs | hs)
    · rcases h.nonempty hs with ⟨requests, hne, hlast⟩ | hopen
      · exact Or.inl (unanswered_of_last hne hlast)
      · exact hopen
    · exact Or.inr (unresolved_of_last hs)

/-- Two parallel calls: one asks for an approval, the other returns its result. -/
def parallelCalls : List RunEvent :=
  [.turnStarted 1, .messageReceived 1 "one",
    .inputRequested [⟨"r1", "Approve tool call: send", some .toolApproval,
      some ⟨"c1", "send"⟩, none, some .confirmation, none⟩],
    .actionResult "c2"]

/-- The run of the two parallel calls is settled `succeeded` with the approval open. -/
theorem parallel_request_settled :
    (∀ turnId, RunEvent.turnCancelled turnId ∉ parallelCalls) ∧
      waitingVerdict parallelCalls = some .succeeded ∧
      (reduceRunView .waiting (parallelCalls ++ [.sessionWaiting])).asks := by
  refine ⟨fun turnId => by simp [parallelCalls], by decide, by decide⟩

/-- Without the second call the two readings agree. -/
theorem waiting_iff_asks_single :
    (waitingVerdict (parallelCalls.take 3) = some .waiting ↔
      (reduceRunView .waiting (parallelCalls.take 3 ++ [.sessionWaiting])).asks) ↔
        PromptsAlike (parallelCalls.take 3) :=
  waiting_iff_asks_iff _ fun turnId => by simp [parallelCalls]

end InvisibleString.Chat
