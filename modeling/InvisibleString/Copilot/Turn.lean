import InvisibleString.Compiler.Codegen
import InvisibleString.Lib.Transition
import Mathlib.Data.List.Nodup

/- # `Copilot.Turn` — the turns of one copilot session

A turn asks the model, resolves the tool calls of its answer one after the other and asks again,
until an answer has none.  A valid proposal may wait for the user.  Whatever ends the turn, the
calls of the last answer get their results and one terminal frame goes out; what runs before that
protection starts has neither.

Read tools, validation and the editor's draft are parameters that may throw anything; a stream
brings any parts and may break off anywhere.  Each frame is recorded with the number of the
`runTurn` call that sent it.

**Proved here.**

    after every step of a run the settled calls have one terminal frame each, and while no turn
      is under way the session is free, nobody waits and each assistant message with tool calls
      is followed by its results, exactly when every turn that starts gets as far as its loop
                                                                          (`settled_well_iff`)
    a session whose turn did not stays busy for good  (`Wedged.trace`)
    a draft of nested lists is short as it is sent and too long as it is shown to the model
                                                                          (`nested_draft_wedges`)
-/

namespace InvisibleString.Copilot.Turn

open Json Compiler
open Transition (Move Trace)

/-! ## Messages and frames -/

inductive Surface where
  | workflow
  | agent
  deriving DecidableEq

structure AgentIdentity where
  name : JsString
  description : JsString

structure ToolCall (N : Type) where
  toolCallId : JsString
  toolName : JsString
  input : Value N

structure ToolResult where
  toolCallId : JsString
  toolName : JsString
  value : JsString

/-- An assistant message without tool calls is its text alone. -/
inductive Message (N : Type) where
  | user (content : JsString)
  | assistant (text : JsString) (toolCalls : List (ToolCall N))
  | tool (results : List ToolResult)

inductive StepState where
  | pending
  | ok
  | error

inductive DoneReason where
  | completed
  | aborted

inductive ErrorCode where
  | turnInProgress
  | overBudget
  | llmError

/-- `CopilotServerFrame`, as far as a session sends them; `M` are the validated mutations. -/
inductive Frame (M : Type) where
  | delta (text : JsString)
  | thought (key text : JsString) (streaming : Bool)
  | step (key toolName : JsString) (state : StepState) (resultPreview : Option JsString)
  | proposal (id : JsString) (mutation : M) (rationale : JsString) (autoApplied : Bool)
  | done (reason : DoneReason) (outputTokens : Nat)
  | error (code : ErrorCode) (message : JsString)

def Frame.isTerminal {M : Type} : Frame M → Bool
  | .done _ _ => true
  | .error _ _ => true
  | _ => false

inductive TransportPart (N : Type) where
  | textDelta (text : JsString)
  | reasoningDelta (id text : JsString)
  | toolCall (call : ToolCall N)
  | finish (outputTokens : Option Nat)

structure MutationResult where
  accepted : Bool
  reason : Option JsString

/-- What is thrown: a `CopilotOverBudgetError`, an abort or timeout error, anything else. -/
inductive TurnError where
  | overBudget (message : JsString)
  | abort
  | other

inductive ReadOutcome where
  | ok (result preview : JsString)
  | problem (message : JsString)

inductive Validation (M : Type) where
  | valid (mutation : M) (warnings : List JsString)
  | invalid (message : JsString)

/-- The arguments of `runTurn`; `I` is the workspace's inventory. -/
structure TurnInput (N I : Type) where
  surface : Surface
  message : JsString
  draft : Value N
  identity : Option AgentIdentity
  inventory : I
  allowEdits : Bool

/-- What a turn calls; `D` is the draft state of the semantic checks. -/
structure CopilotDeps (N I D M : Type) where
  numbers : NumberFormat N
  /-- the longest string of the engine; a longer one is a `RangeError` -/
  maxStringLength : Nat
  /-- the system prompt up to the draft, and what follows it -/
  promptBefore : Surface → I → Option AgentIdentity → JsString
  promptAfter : Surface → I → Option AgentIdentity → JsString
  draftStateFor : Surface → Value N → Option AgentIdentity → Except TurnError D
  maxStepsPerTurn : Surface → Nat
  maxOutputTokensPerTurn : Nat
  isWorkflowReadTool : JsString → Bool
  executeReadTool : JsString → Value N → I → Except TurnError ReadOutcome
  validateMutation : JsString → Value N → I → D → Except TurnError (Validation M)
  applyAcceptedMutation : D → M → Except TurnError D
  /-- `params.step.id` of an `addStep` -/
  mintedStepId : M → Option JsString
  summarizeToolResult : JsString → JsString

/-! ## The session -/

/-- The locals of one round-trip while its stream runs. -/
structure RoundTrip (N : Type) where
  toolCalls : List (ToolCall N)
  stepText : JsString
  stepReasoning : JsString
  reasoningBlockId : Option JsString

def RoundTrip.fresh {N : Type} : RoundTrip N := ⟨[], [], [], none⟩

/-- Where `runTurn` is suspended: in its stream, or on a proposal, with the calls of this
round-trip, the results so far and the calls behind the one on screen. -/
inductive Stage (N M : Type) where
  | streaming (trip : RoundTrip N)
  | waiting (toolCalls : List (ToolCall N)) (results : List ToolResult) (current : ToolCall N)
      (mutation : M) (warnings : List JsString) (rest : List (ToolCall N))

/-- A turn that is under way; `number` counts the calls of `runTurn`. -/
structure RunningTurn (N I D M : Type) where
  number : Nat
  input : TurnInput N I
  system : JsString
  turnIndex : Nat
  draftState : D
  step : Nat
  outputTokens : Nat
  stage : Stage N M

structure Session (N I D M : Type) where
  messages : List (Message N)
  /-- the ids with a waiter -/
  pending : List JsString
  /-- whether the controller's signal is aborted -/
  abortController : Option Bool
  turnRunning : Bool
  abortRequested : Bool
  turnIndex : Nat
  turn : Option (RunningTurn N I D M)
  /-- how often `runTurn` was called, and what was sent by which call -/
  calls : Nat
  frames : List (Nat × Frame M)

section

variable {N I D M : Type}

def Session.initial : Session N I D M := ⟨[], [], none, false, false, 0, none, 0, []⟩

def Session.aborted (s : Session N I D M) : Bool := s.abortController.getD false

def Session.send (s : Session N I D M) (number : Nat) (frame : Frame M) : Session N I D M :=
  { s with frames := s.frames ++ [(number, frame)] }

def Session.push (s : Session N I D M) (message : Message N) : Session N I D M :=
  { s with messages := s.messages ++ [message] }

/-- The terminal frame and the `finally` of `runTurn`. -/
def Session.settle (s : Session N I D M) (number : Nat) (frame : Frame M) : Session N I D M :=
  { s.send number frame with
    pending := []
    abortController := none
    turnRunning := false
    turn := none }

/-- The `catch` of `runTurn`. -/
def Session.fail (s : Session N I D M) (t : RunningTurn N I D M) : TurnError → Session N I D M
  | .abort => s.settle t.number (.done .aborted t.outputTokens)
  | .overBudget message =>
    s.settle t.number (if s.aborted then .done .aborted t.outputTokens
      else .error .overBudget message)
  | .other =>
    s.settle t.number (if s.aborted then .done .aborted t.outputTokens
      else .error .llmError (ascii "the copilot model call failed — try again"))

def resultFor (call : ToolCall N) (text : JsString) : ToolResult :=
  ⟨call.toolCallId, call.toolName, text⟩

/-- The results so far, and one for each call that has none. -/
def paired (toolCalls : List (ToolCall N)) (results : List ToolResult) : List ToolResult :=
  results ++ (toolCalls.filter fun call => call.toolCallId ∉ results.map ToolResult.toolCallId).map
    fun call => resultFor call (ascii "aborted by the user before a decision")

def extractRationale : Value N → JsString
  | .obj members =>
    match members.find? fun m => m.1 = ascii "rationale" with
    | some (_, .str text) => text
    | _ => []
  | _ => []

def thoughtKey (t : RunningTurn N I D M) : JsString :=
  ascii "turn:" ++ printNat t.turnIndex ++ ascii ":step:" ++ printNat t.step

def invalidCall (message : JsString) : JsString :=
  ascii "INVALID TOOL CALL (not shown to the user): " ++ message ++
    ascii ". Fix the call and try again."

def warningSuffix (warnings : List JsString) : JsString :=
  if warnings = [] then [] else ascii " WARNINGS: " ++ join (ascii "; ") warnings

end

section

variable {N I D M : Type} (deps : CopilotDeps N I D M)

def mintedNote (mutation : M) : JsString :=
  match deps.mintedStepId mutation with
  | none => []
  | some id => ascii " The new step's id is \"" ++ id ++
      ascii "\" — use it for position.after/stepId in later calls."

def Session.sendStep (s : Session N I D M) (number : Nat) (call : ToolCall N) (state : StepState)
    (preview : Option JsString) : Session N I D M :=
  s.send number (.step call.toolCallId call.toolName state (preview.map deps.summarizeToolResult))

def buildSystemPrompt (input : TurnInput N I) : Except TurnError JsString :=
  let text := deps.promptBefore input.surface input.inventory input.identity ++
    indented deps.numbers [] input.draft ++
    deps.promptAfter input.surface input.inventory input.identity
  if text.length ≤ deps.maxStringLength then .ok text else .error .other

/-- The head of the loop: the cap, the signal, then the next stream. -/
def Session.enterStep (s : Session N I D M) (t : RunningTurn N I D M) : Session N I D M :=
  if deps.maxStepsPerTurn t.input.surface ≤ t.step then
    s.fail t (.overBudget (ascii "turn exceeded " ++
      printNat (deps.maxStepsPerTurn t.input.surface) ++ ascii " model round-trips"))
  else if s.aborted then s.fail t .abort
  else { s with turn := some { t with stage := .streaming .fresh } }

/-- The loop over the calls of a round-trip, from the one it is at. -/
def Session.resolveCalls (toolCalls : List (ToolCall N)) : List (ToolCall N) → List ToolResult →
    Session N I D M → RunningTurn N I D M → Session N I D M
  | [], results, s, t =>
    (s.push (.tool (paired toolCalls results))).enterStep deps { t with step := t.step + 1 }
  | call :: rest, results, s, t =>
    let thrown := fun (s : Session N I D M) e =>
      (s.push (.tool (paired toolCalls results))).fail t e
    if s.aborted then thrown s .abort
    else
      let s := s.sendStep deps t.number call .pending none
      if t.input.surface = .workflow ∧ deps.isWorkflowReadTool call.toolName then
        match deps.executeReadTool call.toolName call.input t.input.inventory with
        | .error e => thrown s e
        | .ok (.ok result preview) =>
          resolveCalls toolCalls rest (results ++ [resultFor call result])
            (s.sendStep deps t.number call .ok (some preview)) t
        | .ok (.problem message) =>
          resolveCalls toolCalls rest (results ++ [resultFor call (invalidCall message)])
            (s.sendStep deps t.number call .error (some message)) t
      else
        match deps.validateMutation call.toolName call.input t.input.inventory t.draftState with
        | .error e => thrown s e
        | .ok (.invalid message) =>
          resolveCalls toolCalls rest (results ++ [resultFor call (invalidCall message)])
            (s.sendStep deps t.number call .error (some message)) t
        | .ok (.valid mutation warnings) =>
          let s := s.send t.number (.proposal call.toolCallId mutation
            (extractRationale call.input) t.input.allowEdits)
          if t.input.allowEdits then
            match deps.applyAcceptedMutation t.draftState mutation with
            | .error e => thrown s e
            | .ok draftState =>
              resolveCalls toolCalls rest
                (results ++ [resultFor call (ascii "accepted — allow-edits is on, so this change " ++
                  ascii "was applied to the draft immediately." ++ mintedNote deps mutation ++
                  warningSuffix warnings)])
                (s.sendStep deps t.number call .ok (some (ascii "Applied automatically")))
                { t with draftState }
          else
            { s with
              pending := s.pending.insert call.toolCallId
              turn := some { t with
                stage := .waiting toolCalls results call mutation warnings rest } }

/-- A waiter's promise is resolved: `runTurn` goes on behind it. -/
def Session.decided (s : Session N I D M) (proposalId : JsString) (result : MutationResult) :
    Session N I D M :=
  match s.turn with
  | none => s
  | some t =>
    match t.stage with
    | .streaming _ => s
    | .waiting toolCalls results current mutation warnings rest =>
      if current.toolCallId = proposalId then
        if result.accepted then
          match deps.applyAcceptedMutation t.draftState mutation with
          | .error e => (s.push (.tool (paired toolCalls results))).fail t e
          | .ok draftState =>
            Session.resolveCalls deps toolCalls rest
              (results ++ [resultFor current (ascii "accepted — the user applied this change " ++
                ascii "to the draft." ++ mintedNote deps mutation ++ warningSuffix warnings)])
              (s.sendStep deps t.number current .ok (some (ascii "Applied to the draft")))
              { t with draftState }
        else
          let reason := result.reason.getD []
          Session.resolveCalls deps toolCalls rest
            (results ++ [resultFor current (ascii "rejected — the user dismissed this proposal" ++
              if reason = [] then [] else ascii ": " ++ reason)])
            (s.sendStep deps t.number current .ok (some (if reason = [] then
              ascii "Dismissed by you" else ascii "Dismissed: " ++ reason))) t
      else s

def Session.resolveMutation (s : Session N I D M) (proposalId : JsString)
    (result : MutationResult) : Session N I D M :=
  if proposalId ∈ s.pending then
    Session.decided deps { s with pending := s.pending.erase proposalId } proposalId result
  else s

/-- What listens to the signal: the waiter of the proposal on screen. -/
def Session.onAbort (s : Session N I D M) : Session N I D M :=
  match s.turn with
  | none => s
  | some t =>
    match t.stage with
    | .streaming _ => s
    | .waiting toolCalls results current _ _ _ =>
      ({ s with pending := s.pending.erase current.toolCallId }.push
        (.tool (paired toolCalls results))).fail t .abort

def Session.abort (s : Session N I D M) : Session N I D M :=
  match s.abortController with
  | some _ => { s with abortController := some true }.onAbort
  | none => { s with abortRequested := true }

def Session.clearPendingAbort (s : Session N I D M) : Session N I D M :=
  { s with abortRequested := false }

def Session.dispose (s : Session N I D M) : Session N I D M :=
  s.abort.pending.foldl
    (fun s id => Session.decided deps s id ⟨false, some (ascii "session closed")⟩)
    { s.abort with pending := [] }

/-- `runTurn` up to where it first waits.  What throws before its `try` leaves as it is what was
set by then. -/
def Session.runTurn (s : Session N I D M) (input : TurnInput N I) : Session N I D M :=
  let number := s.calls
  let s := { s with calls := s.calls + 1 }
  if s.turnRunning then
    s.send number (.error .turnInProgress
      (ascii "a copilot turn is already streaming on this connection"))
  else if s.abortRequested then
    { s with abortRequested := false }.send number (.done .aborted 0)
  else
    let turnIndex := s.turnIndex
    let s := { s with
      turnRunning := true
      turnIndex := turnIndex + 1
      abortController := some false }
    match buildSystemPrompt deps input with
    | .error _ => s
    | .ok system =>
      match deps.draftStateFor input.surface input.draft input.identity with
      | .error _ => s
      | .ok draftState =>
        (s.push (.user input.message)).enterStep deps
          ⟨number, input, system, turnIndex, draftState, 0, 0, .streaming .fresh⟩

/-- The body of the `for await`. -/
def Session.receive (s : Session N I D M) (t : RunningTurn N I D M) (trip : RoundTrip N) :
    TransportPart N → Session N I D M
  | .textDelta text =>
    { s.send t.number (.delta text) with
      turn := some { t with stage := .streaming { trip with stepText := trip.stepText ++ text } } }
  | .reasoningDelta id text =>
    let gap := match trip.reasoningBlockId with
      | none => []
      | some block => if block = id then [] else ascii "\n\n"
    let stepReasoning := trip.stepReasoning ++ gap ++ text
    { s.send t.number (.thought (thoughtKey t) stepReasoning true) with
      turn := some { t with
        stage := .streaming { trip with stepReasoning, reasoningBlockId := some id } } }
  | .toolCall call =>
    { s with
      turn := some { t with
        stage := .streaming { trip with toolCalls := trip.toolCalls ++ [call] } } }
  | .finish outputTokens =>
    { s with
      turn := some { t with
        outputTokens := t.outputTokens + outputTokens.getD
          ((trip.stepText.length + trip.stepReasoning.length + 3) / 4)
        stage := .streaming trip } }

/-- Behind the `for await`. -/
def Session.streamEnds (s : Session N I D M) (t : RunningTurn N I D M) (trip : RoundTrip N) :
    Session N I D M :=
  let s := if trip.stepReasoning = [] then s
    else s.send t.number (.thought (thoughtKey t) trip.stepReasoning false)
  if deps.maxOutputTokensPerTurn < t.outputTokens then
    s.fail t (.overBudget (ascii "turn exceeded the output budget (" ++ printNat t.outputTokens ++
      ascii " > " ++ printNat deps.maxOutputTokensPerTurn ++ ascii " tokens)"))
  else if trip.toolCalls = [] then
    (if trip.stepText = [] then s else s.push (.assistant trip.stepText [])).settle t.number
      (.done .completed t.outputTokens)
  else
    Session.resolveCalls deps trip.toolCalls trip.toolCalls []
      (s.push (.assistant trip.stepText trip.toolCalls)) t

/-! ## Runs -/

/-- What happens to a session; the last three on the stream of its turn. -/
inductive Act (N I : Type) where
  | runTurn (input : TurnInput N I)
  | resolveMutation (proposalId : JsString) (result : MutationResult)
  | abort
  | clearPendingAbort
  | dispose
  | part (part : TransportPart N)
  | streamThrows (error : TurnError)
  | streamEnds

/-- The ids of a stream's tool calls are distinct. -/
def TransportPart.Fresh (trip : RoundTrip N) : TransportPart N → Prop
  | .toolCall call => call.toolCallId ∉ trip.toolCalls.map ToolCall.toolCallId
  | _ => True

inductive Step : Session N I D M → Act N I → Session N I D M → Prop
  | runTurn {s : Session N I D M} (input : TurnInput N I) :
      Step s (.runTurn input) (s.runTurn deps input)
  | resolveMutation {s : Session N I D M} (proposalId : JsString) (result : MutationResult) :
      Step s (.resolveMutation proposalId result) (s.resolveMutation deps proposalId result)
  | abort {s : Session N I D M} : Step s .abort s.abort
  | clearPendingAbort {s : Session N I D M} : Step s .clearPendingAbort s.clearPendingAbort
  | dispose {s : Session N I D M} : Step s .dispose (s.dispose deps)
  | part {s : Session N I D M} {t : RunningTurn N I D M} {trip : RoundTrip N}
      (part : TransportPart N) : s.turn = some t → t.stage = .streaming trip → part.Fresh trip →
      Step s (.part part) (s.receive t trip part)
  | streamThrows {s : Session N I D M} {t : RunningTurn N I D M} {trip : RoundTrip N}
      (error : TurnError) : s.turn = some t → t.stage = .streaming trip →
      Step s (.streamThrows error) (s.fail t error)
  | streamEnds {s : Session N I D M} {t : RunningTurn N I D M} {trip : RoundTrip N} :
      s.turn = some t → t.stage = .streaming trip → Step s .streamEnds (s.streamEnds deps t trip)

/-- Exactly one result for each call, and none for anything else. -/
def AnswersEach (results : List ToolResult) (toolCalls : List (ToolCall N)) : Prop :=
  (∀ call ∈ toolCalls, results.countP (fun r => r.toolCallId = call.toolCallId) = 1) ∧
    ∀ result ∈ results, result.toolCallId ∈ toolCalls.map ToolCall.toolCallId

/-- Each assistant message with tool calls is followed by a tool message with their results. -/
def Paired (messages : List (Message N)) : Prop :=
  ∀ before text toolCalls after, messages = before ++ .assistant text toolCalls :: after →
    toolCalls ≠ [] → ∃ results rest, after = .tool results :: rest ∧ AnswersEach results toolCalls

/-- The terminal frames of a call. -/
def terminals (number : Nat) (frames : List (Nat × Frame M)) : Nat :=
  frames.countP fun entry => entry.1 = number && entry.2.isTerminal

/-- Each settled call has one terminal frame; without a turn the session is free. -/
structure SettledWell (s : Session N I D M) : Prop where
  one_terminal : ∀ number < s.calls, (∀ t, s.turn = some t → t.number ≠ number) →
    terminals number s.frames = 1
  not_busy : s.turn = none → s.turnRunning = false
  no_waiter : s.turn = none → s.pending = []
  history : s.turn = none → Paired s.messages

/-- The prompt is no longer than a string can be, and the draft is read without a throw. -/
def Prepares (input : TurnInput N I) : Prop :=
  (deps.promptBefore input.surface input.inventory input.identity ++
    indented deps.numbers [] input.draft ++
    deps.promptAfter input.surface input.inventory input.identity).length ≤ deps.maxStringLength ∧
  ∃ draftState, deps.draftStateFor input.surface input.draft input.identity = .ok draftState

/-- A step that starts a turn starts one whose preparation does not throw. -/
def StartsPrepared (m : Move (Session N I D M) (Act N I)) : Prop :=
  ∀ input, m.event = .runTurn input → m.before.turnRunning = false →
    m.before.abortRequested = false → Prepares deps input

end

/-! ## The history -/

section

variable {N : Type}

theorem answersEach_of_ids {results : List ToolResult} {toolCalls : List (ToolCall N)}
    (hids : results.map ToolResult.toolCallId = toolCalls.map ToolCall.toolCallId)
    (hnodup : (toolCalls.map ToolCall.toolCallId).Nodup) : AnswersEach results toolCalls := by
  constructor
  · intro call hcall
    have hmem := List.mem_map_of_mem (f := ToolCall.toolCallId) hcall
    have hcount := List.count_eq_one_of_mem hnodup hmem
    rw [← hids, List.count_eq_countP, List.countP_map] at hcount
    rw [← hcount]
    exact List.countP_congr fun r _ => by simp
  · intro result hresult
    rw [← hids]
    exact List.mem_map_of_mem hresult

theorem Paired.nil : Paired ([] : List (Message N)) := by
  intro before text toolCalls after h
  cases before <;> cases h

/-- Only an answer with tool calls asks for something behind it. -/
theorem Paired.push {messages : List (Message N)} (h : Paired messages) {message : Message N}
    (hm : ∀ text toolCalls, message = .assistant text toolCalls → toolCalls = []) :
    Paired (messages ++ [message]) := by
  intro before text toolCalls after heq hne
  rcases List.eq_nil_or_concat after with rfl | ⟨init, last, rfl⟩
  · rw [List.append_inj_right' heq rfl |> List.singleton_inj.mp] at hm
    exact absurd (hm _ _ rfl) hne
  · rw [List.concat_eq_append, ← List.cons_append, ← List.append_assoc] at heq
    obtain ⟨results, rest, hinit, hanswers⟩ :=
      h before text toolCalls init (List.append_inj_left' heq rfl) hne
    refine ⟨results, rest ++ [last], ?_, hanswers⟩
    rw [hinit, List.concat_eq_append]
    rfl

theorem Paired.push_answer {messages : List (Message N)} (h : Paired messages) {text : JsString}
    {toolCalls : List (ToolCall N)} {results : List ToolResult}
    (hanswers : AnswersEach results toolCalls) :
    Paired (messages ++ [.assistant text toolCalls] ++ [.tool results]) := by
  intro before text' toolCalls' after heq hne
  rcases List.eq_nil_or_concat after with rfl | ⟨init, last, rfl⟩
  · cases List.singleton_inj.mp (List.append_inj_right' heq rfl)
  · rw [List.concat_eq_append, ← List.cons_append, ← List.append_assoc] at heq
    have hlast := List.singleton_inj.mp (List.append_inj_right' heq rfl)
    have heq' := List.append_inj_left' heq rfl
    rcases List.eq_nil_or_concat init with rfl | ⟨init', last', rfl⟩
    · cases List.singleton_inj.mp (List.append_inj_right' heq' rfl)
      exact ⟨results, [], by rw [← hlast]; rfl, hanswers⟩
    · rw [List.concat_eq_append, ← List.cons_append, ← List.append_assoc] at heq'
      obtain ⟨results', rest, hinit, hanswers'⟩ :=
        h before text' toolCalls' init' (List.append_inj_left' heq' rfl) hne
      refine ⟨results', rest ++ [last'] ++ [last], ?_, hanswers'⟩
      rw [hinit, List.concat_eq_append, List.concat_eq_append]
      rfl

/-- The last message is an answer; `results` are there for its calls up to those in `rest`. -/
structure InAnswer (messages : List (Message N)) (toolCalls : List (ToolCall N))
    (results : List ToolResult) (rest : List (ToolCall N)) : Prop where
  distinct : (toolCalls.map ToolCall.toolCallId).Nodup
  split : results.map ToolResult.toolCallId ++ rest.map ToolCall.toolCallId =
    toolCalls.map ToolCall.toolCallId
  asked : ∃ older text, messages = older ++ [.assistant text toolCalls] ∧ Paired older

variable {messages : List (Message N)} {toolCalls rest : List (ToolCall N)}
  {results : List ToolResult} {call : ToolCall N}

/-- The calls without a result are those behind the loop's place. -/
theorem InAnswer.unresolved (h : InAnswer messages toolCalls results rest) :
    (toolCalls.filter fun call => call.toolCallId ∉ results.map ToolResult.toolCallId).map
      ToolCall.toolCallId = rest.map ToolCall.toolCallId := by
  have hnodup := h.distinct
  rw [← h.split, List.nodup_append] at hnodup
  have hfilter : (toolCalls.filter fun call =>
      call.toolCallId ∉ results.map ToolResult.toolCallId).map ToolCall.toolCallId =
      (toolCalls.map ToolCall.toolCallId).filter (· ∉ results.map ToolResult.toolCallId) := by
    rw [List.filter_map]
    rfl
  rw [hfilter, ← h.split, List.filter_append]
  have hdone : (results.map ToolResult.toolCallId).filter
      (· ∉ results.map ToolResult.toolCallId) = [] := by
    rw [List.filter_eq_nil_iff]
    intro id hid
    simpa using hid
  have hrest : (rest.map ToolCall.toolCallId).filter
      (· ∉ results.map ToolResult.toolCallId) = rest.map ToolCall.toolCallId := by
    rw [List.filter_eq_self]
    intro id hid
    exact decide_eq_true fun hmem => hnodup.2.2 id hmem id hid rfl
  rw [hdone, hrest, List.nil_append]

theorem InAnswer.paired (h : InAnswer messages toolCalls results rest) :
    Paired (messages ++ [.tool (paired toolCalls results)]) := by
  obtain ⟨older, text, rfl, holder⟩ := h.asked
  refine holder.push_answer (answersEach_of_ids ?_ h.distinct)
  rw [Turn.paired, List.map_append, List.map_map, ← h.split]
  congr 1
  exact h.unresolved

theorem InAnswer.next (h : InAnswer messages toolCalls results (call :: rest)) (text : JsString) :
    InAnswer messages toolCalls (results ++ [resultFor call text]) rest := by
  refine ⟨h.distinct, ?_, h.asked⟩
  rw [← h.split, List.map_append, List.append_assoc]
  rfl

end

/-! ## One terminal frame -/

section

variable {N I D M : Type} {deps : CopilotDeps N I D M}

theorem terminals_append (k : Nat) (frames : List (Nat × Frame M)) (entry : Nat × Frame M) :
    terminals k (frames ++ [entry]) =
      terminals k frames + if entry.1 = k ∧ entry.2.isTerminal then 1 else 0 := by
  rw [terminals, terminals, List.countP_append, List.countP_singleton]
  congr 1
  simp only [Bool.and_eq_true, decide_eq_true_eq]

/-- The frames of the calls so far; `running` are those without their terminal frame. -/
structure Ledger (s : Session N I D M) (running : Nat → Prop) : Prop where
  settled : ∀ k < s.calls, ¬ running k → terminals k s.frames = 1
  unsettled : ∀ k, running k → terminals k s.frames = 0
  numbered : ∀ entry ∈ s.frames, entry.1 < s.calls

/-- A turn with this number is under way. -/
structure Open (s : Session N I D M) (number : Nat) : Prop where
  ledger : Ledger s (· = number)
  counted : number < s.calls
  running : s.turnRunning = true
  controller : s.abortController.isSome = true

structure Closed (s : Session N I D M) : Prop where
  ledger : Ledger s fun _ => False
  idle : s.turnRunning = false
  controller : s.abortController = none
  pending : s.pending = []
  history : Paired s.messages

/-- Where a suspended turn stands. -/
def AtStage (s : Session N I D M) : Stage N M → Prop
  | .streaming trip => s.pending = [] ∧ Paired s.messages ∧
      (trip.toolCalls.map ToolCall.toolCallId).Nodup
  | .waiting toolCalls results current _ _ rest => s.pending = [current.toolCallId] ∧
      InAnswer s.messages toolCalls results (current :: rest)

structure Sound (s : Session N I D M) : Prop where
  closed : s.turn = none → Closed s
  opened : ∀ t, s.turn = some t → Open s t.number ∧ AtStage s t.stage

theorem Closed.sound {s : Session N I D M} (h : Closed s) (hturn : s.turn = none) : Sound s := by
  refine ⟨fun _ => h, fun t ht => ?_⟩
  rw [hturn] at ht
  cases ht

/-- No turn, or one that stands somewhere. -/
theorem Sound.standing {s : Session N I D M} (h : Sound s) :
    s.turn = none ∧ Closed s ∨
      ∃ t, s.turn = some t ∧ Open s t.number ∧ AtStage s t.stage := by
  cases hturn : s.turn with
  | none => exact .inl ⟨rfl, h.closed hturn⟩
  | some t => exact .inr ⟨t, rfl, h.opened t hturn⟩

theorem AtStage.change {s s' : Session N I D M} {stage : Stage N M} (h : AtStage s stage)
    (hpending : s'.pending = s.pending) (hmessages : s'.messages = s.messages) :
    AtStage s' stage := by
  cases stage with
  | streaming trip => exact ⟨hpending.trans h.1, hmessages ▸ h.2.1, h.2.2⟩
  | waiting toolCalls results current mutation warnings rest =>
    exact ⟨hpending.trans h.1, hmessages ▸ h.2⟩

theorem Sound.settledWell {s : Session N I D M} (h : Sound s) : SettledWell s := by
  refine ⟨fun k hk hother => ?_, fun hturn => (h.closed hturn).idle,
    fun hturn => (h.closed hturn).pending, fun hturn => (h.closed hturn).history⟩
  cases hturn : s.turn with
  | none => exact (h.closed hturn).ledger.settled k hk id
  | some t =>
    exact (h.opened t hturn).1.ledger.settled k hk fun heq => hother t hturn heq.symm

theorem Sound.initial : Sound (Session.initial : Session N I D M) := by
  refine Closed.sound ⟨⟨?_, ?_, ?_⟩, rfl, rfl, rfl, Paired.nil⟩ rfl
  · exact fun k hk => absurd hk (Nat.not_lt_zero k)
  · exact fun k hk => hk.elim
  · exact fun entry hentry => absurd hentry List.not_mem_nil

theorem Ledger.send {s : Session N I D M} {running : Nat → Prop} (h : Ledger s running)
    {number : Nat} (hnumber : number < s.calls) {frame : Frame M}
    (hframe : frame.isTerminal = false) : Ledger (s.send number frame) running := by
  have hsame : ∀ k, terminals k (s.send number frame).frames = terminals k s.frames := by
    intro k
    show terminals k (s.frames ++ [(number, frame)]) = _
    rw [terminals_append, if_neg fun hk => ?_, Nat.add_zero]
    rw [hframe] at hk
    cases hk.2
  refine ⟨fun k hk hr => ?_, fun k hr => ?_, ?_⟩
  · rw [hsame]
    exact h.settled k hk hr
  · rw [hsame]
    exact h.unsettled k hr
  · intro entry hentry
    rcases List.mem_append.mp hentry with hentry | hentry
    · exact h.numbered entry hentry
    · rw [List.mem_singleton.mp hentry]
      exact hnumber

theorem Ledger.send_terminal {s : Session N I D M} {running running' : Nat → Prop}
    {number : Nat} {frame : Frame M} (h : Ledger s running) (hnumber : number < s.calls)
    (hframe : frame.isTerminal = true) (hrunning : running number)
    (hothers : ∀ k, running' k ↔ running k ∧ k ≠ number) :
    Ledger (s.send number frame) running' := by
  have hcount : ∀ k, terminals k (s.send number frame).frames =
      terminals k s.frames + if number = k ∧ frame.isTerminal then 1 else 0 :=
    fun k => terminals_append k s.frames (number, frame)
  refine ⟨fun k hk hr => ?_, fun k hr => ?_, ?_⟩
  · rw [hcount]
    by_cases hkn : number = k
    · subst hkn
      rw [h.unsettled _ hrunning, if_pos ⟨rfl, hframe⟩]
    · rw [if_neg fun h' => hkn h'.1, Nat.add_zero]
      exact h.settled k hk fun hk' => hr ((hothers k).mpr ⟨hk', fun heq => hkn heq.symm⟩)
  · obtain ⟨hk, hne⟩ := (hothers k).mp hr
    rw [hcount, if_neg fun h' => hne h'.1.symm, Nat.add_zero]
    exact h.unsettled k hk
  · intro entry hentry
    rcases List.mem_append.mp hentry with hentry | hentry
    · exact h.numbered entry hentry
    · rw [List.mem_singleton.mp hentry]
      exact hnumber

theorem Ledger.begin {s : Session N I D M} {running : Nat → Prop} (h : Ledger s running) :
    Ledger { s with calls := s.calls + 1 } fun k => running k ∨ k = s.calls := by
  refine ⟨fun k hk hr => ?_, fun k hr => ?_, fun entry hentry => ?_⟩
  · have hne : k ≠ s.calls := fun heq => hr (.inr heq)
    exact h.settled k (Nat.lt_of_le_of_ne (Nat.le_of_lt_succ hk) hne) fun hk' => hr (.inl hk')
  · rcases hr with hr | rfl
    · exact h.unsettled k hr
    · rw [terminals, List.countP_eq_zero]
      intro entry hentry heq
      rw [Bool.and_eq_true, decide_eq_true_eq] at heq
      exact Nat.ne_of_lt (h.numbered entry hentry) heq.1
  · exact Nat.lt_succ_of_lt (h.numbered entry hentry)

theorem Open.send {s : Session N I D M} {number : Nat} (h : Open s number) {frame : Frame M}
    (hframe : frame.isTerminal = false) : Open (s.send number frame) number :=
  ⟨h.ledger.send h.counted hframe, h.counted, h.running, h.controller⟩

theorem Open.push {s : Session N I D M} {number : Nat} (h : Open s number) (message : Message N) :
    Open (s.push message) number :=
  ⟨⟨h.ledger.settled, h.ledger.unsettled, h.ledger.numbered⟩, h.counted, h.running, h.controller⟩

/-! ## One step -/

theorem Open.settle {s : Session N I D M} {number : Nat} (h : Open s number)
    (hhistory : Paired s.messages) {frame : Frame M} (hframe : frame.isTerminal = true) :
    Sound (s.settle number frame) := by
  refine Closed.sound ⟨?_, rfl, rfl, rfl, hhistory⟩ rfl
  have hledger : Ledger (s.send number frame) fun _ => False :=
    h.ledger.send_terminal h.counted hframe rfl fun k => ⟨False.elim, fun hk => hk.2 hk.1⟩
  exact ⟨hledger.settled, hledger.unsettled, hledger.numbered⟩

theorem Open.fail {s : Session N I D M} {t : RunningTurn N I D M} (h : Open s t.number)
    (hhistory : Paired s.messages) (error : TurnError) : Sound (s.fail t error) := by
  cases error with
  | abort => exact h.settle hhistory rfl
  | overBudget message =>
    refine h.settle hhistory ?_
    cases s.aborted <;> rfl
  | other =>
    refine h.settle hhistory ?_
    cases s.aborted <;> rfl

theorem Open.enterStep {s : Session N I D M} {t : RunningTurn N I D M} (h : Open s t.number)
    (hpending : s.pending = []) (hhistory : Paired s.messages) : Sound (s.enterStep deps t) := by
  unfold Session.enterStep
  split
  · exact h.fail hhistory _
  · split
    · exact h.fail hhistory _
    · refine ⟨fun hturn => (by cases hturn), fun t' ht => ?_⟩
      cases ht
      exact ⟨⟨⟨h.ledger.settled, h.ledger.unsettled, h.ledger.numbered⟩, h.counted, h.running,
        h.controller⟩, hpending, hhistory, List.nodup_nil⟩

theorem Open.thrown {s : Session N I D M} {t : RunningTurn N I D M}
    {toolCalls rest : List (ToolCall N)} {results : List ToolResult} (h : Open s t.number)
    (hanswer : InAnswer s.messages toolCalls results rest) (error : TurnError) :
    Sound ((s.push (.tool (paired toolCalls results))).fail t error) :=
  (h.push _).fail hanswer.paired error

theorem Open.resolveCalls {toolCalls : List (ToolCall N)} (rest : List (ToolCall N))
    {results : List ToolResult} {s : Session N I D M} {t : RunningTurn N I D M}
    (h : Open s t.number) (hpending : s.pending = [])
    (hanswer : InAnswer s.messages toolCalls results rest) :
    Sound (Session.resolveCalls deps toolCalls rest results s t) := by
  induction rest generalizing results s t with
  | nil =>
    exact Open.enterStep (t := { t with step := t.step + 1 }) (h.push _) hpending hanswer.paired
  | cons call rest ih =>
    have hstep : Open (s.sendStep deps t.number call .pending none) t.number := h.send rfl
    rw [Session.resolveCalls]
    split
    · exact h.thrown hanswer _
    · split
      · split
        · exact hstep.thrown hanswer _
        · exact ih (hstep.send rfl) hpending (hanswer.next _)
        · exact ih (hstep.send rfl) hpending (hanswer.next _)
      · split
        · exact hstep.thrown hanswer _
        · exact ih (hstep.send rfl) hpending (hanswer.next _)
        · rename_i mutation warnings _
          have hshown : Open ((s.sendStep deps t.number call .pending none).send t.number
              (.proposal call.toolCallId mutation (extractRationale call.input)
                t.input.allowEdits)) t.number := hstep.send rfl
          split
          · split
            · exact hshown.thrown hanswer _
            · exact ih (t := { t with draftState := _ }) (hshown.send rfl) hpending (hanswer.next _)
          · refine ⟨fun hturn => (by cases hturn), fun t' ht => ?_⟩
            cases ht
            refine ⟨⟨⟨hshown.ledger.settled, hshown.ledger.unsettled, hshown.ledger.numbered⟩,
              hshown.counted, hshown.running, hshown.controller⟩, ?_, hanswer⟩
            show s.pending.insert call.toolCallId = [call.toolCallId]
            rw [hpending]
            rfl

theorem Sound.decided {s : Session N I D M} {t : RunningTurn N I D M}
    {toolCalls rest : List (ToolCall N)} {results : List ToolResult} {current : ToolCall N}
    {mutation : M} {warnings : List JsString} (h : Open s t.number) (hturn : s.turn = some t)
    (hstage : t.stage = .waiting toolCalls results current mutation warnings rest)
    (hpending : s.pending = []) (hanswer : InAnswer s.messages toolCalls results (current :: rest))
    (result : MutationResult) : Sound (s.decided deps current.toolCallId result) := by
  rw [Session.decided, hturn]
  simp only [hstage, if_true]
  split
  · split
    · exact h.thrown hanswer _
    · have hsent : Open (s.sendStep deps t.number current .ok
          (some (ascii "Applied to the draft"))) t.number := h.send rfl
      exact Open.resolveCalls
        (t := ⟨t.number, t.input, t.system, t.turnIndex, _, t.step, t.outputTokens, _⟩) rest hsent
        hpending (hanswer.next _)
  · have hsent : ∀ preview, Open (s.sendStep deps t.number current .ok preview) t.number :=
      fun _ => h.send rfl
    exact Open.resolveCalls rest (hsent _) hpending (hanswer.next _)

theorem Open.withPending {s : Session N I D M} {number : Nat} (h : Open s number)
    (pending : List JsString) : Open { s with pending } number :=
  ⟨⟨h.ledger.settled, h.ledger.unsettled, h.ledger.numbered⟩, h.counted, h.running, h.controller⟩

theorem Sound.resolveMutation {s : Session N I D M} (h : Sound s) (proposalId : JsString)
    (result : MutationResult) : Sound (s.resolveMutation deps proposalId result) := by
  unfold Session.resolveMutation
  split
  · rename_i hmem
    rcases h.standing with ⟨_, hclosed⟩ | ⟨t, hturn, hopen, hat⟩
    · rw [hclosed.pending] at hmem
      cases hmem
    · cases hstage : t.stage with
      | streaming trip =>
        rw [hstage] at hat
        rw [hat.1] at hmem
        cases hmem
      | waiting toolCalls results current mutation warnings rest =>
        rw [hstage] at hat
        obtain ⟨hpending, hanswer⟩ := hat
        rw [hpending] at hmem
        cases List.mem_singleton.mp hmem
        refine Sound.decided (hopen.withPending (s.pending.erase current.toolCallId)) hturn
          hstage ?_ hanswer result
        show s.pending.erase current.toolCallId = []
        rw [hpending]
        simp only [List.erase_cons_head]
  · exact h

theorem Sound.abort {s : Session N I D M} (h : Sound s) :
    Sound s.abort ∧ s.abort.pending = [] := by
  rcases h.standing with ⟨hturn, hclosed⟩ | ⟨t, hturn, hopen, hat⟩
  · have habort : s.abort = { s with abortRequested := true } := by
      rw [Session.abort, hclosed.controller]
    rw [habort]
    exact ⟨Closed.sound ⟨⟨hclosed.ledger.settled, hclosed.ledger.unsettled,
      hclosed.ledger.numbered⟩, hclosed.idle, hclosed.controller, hclosed.pending,
      hclosed.history⟩ hturn, hclosed.pending⟩
  · obtain ⟨flag, hflag⟩ := Option.isSome_iff_exists.mp hopen.controller
    have hopen' : Open { s with abortController := some true } t.number :=
      ⟨⟨hopen.ledger.settled, hopen.ledger.unsettled, hopen.ledger.numbered⟩, hopen.counted,
        hopen.running, rfl⟩
    have habort : s.abort = { s with abortController := some true }.onAbort := by
      rw [Session.abort, hflag]
    rw [habort]
    cases hstage : t.stage with
    | streaming trip =>
      have hsame : { s with abortController := some true }.onAbort =
          { s with abortController := some true } := by
        simp only [Session.onAbort, hturn, hstage]
      rw [hsame]
      refine ⟨⟨fun hnone => ?_, fun t' ht' => ?_⟩, ?_⟩
      · cases hturn.symm.trans hnone
      · cases hturn.symm.trans ht'
        exact ⟨hopen', hat.change rfl rfl⟩
      · rw [hstage] at hat
        exact hat.1
    | waiting toolCalls results current mutation warnings rest =>
      rw [hstage] at hat
      have hsame : { s with abortController := some true }.onAbort =
          ({ s with
            abortController := some true
            pending := s.pending.erase current.toolCallId }.push
              (.tool (paired toolCalls results))).fail t .abort := by
        simp only [Session.onAbort, hturn, hstage]
      rw [hsame]
      exact ⟨Open.thrown (hopen'.withPending (s.pending.erase current.toolCallId)) hat.2 _, rfl⟩

theorem Sound.dispose {s : Session N I D M} (h : Sound s) : Sound (s.dispose deps) := by
  obtain ⟨hsound, hpending⟩ := h.abort
  have hsame : ({ s.abort with pending := [] } : Session N I D M) = s.abort := by
    rw [← hpending]
  rw [Session.dispose, hsame, hpending]
  exact hsound

theorem Sound.clearPendingAbort {s : Session N I D M} (h : Sound s) :
    Sound s.clearPendingAbort := by
  refine ⟨fun hturn => ?_, fun t hturn => ?_⟩
  · have hclosed := h.closed hturn
    exact ⟨⟨hclosed.ledger.settled, hclosed.ledger.unsettled, hclosed.ledger.numbered⟩,
      hclosed.idle, hclosed.controller, hclosed.pending, hclosed.history⟩
  · obtain ⟨hopen, hat⟩ := h.opened t hturn
    exact ⟨⟨⟨hopen.ledger.settled, hopen.ledger.unsettled, hopen.ledger.numbered⟩, hopen.counted,
      hopen.running, hopen.controller⟩, hat.change rfl rfl⟩

theorem Open.receive {s : Session N I D M} {t : RunningTurn N I D M} {trip : RoundTrip N}
    (h : Open s t.number) (hat : AtStage s (.streaming trip)) (part : TransportPart N)
    (hfresh : part.Fresh trip) : Sound (s.receive t trip part) := by
  obtain ⟨hpending, hhistory, hdistinct⟩ := hat
  have hgo : ∀ (s' : Session N I D M) (t' : RunningTurn N I D M) (trip' : RoundTrip N),
      Open s' t.number → s'.pending = s.pending → s'.messages = s.messages →
      t'.number = t.number → t'.stage = .streaming trip' →
      (trip'.toolCalls.map ToolCall.toolCallId).Nodup → Sound { s' with turn := some t' } := by
    intro s' t' trip' hs' hpending' hmessages' hnumber hstage hdistinct'
    refine ⟨fun hnone => (by cases hnone), fun t'' ht => ?_⟩
    cases ht
    rw [hstage, hnumber]
    refine ⟨⟨⟨hs'.ledger.settled, hs'.ledger.unsettled, hs'.ledger.numbered⟩, hs'.counted,
      hs'.running, hs'.controller⟩, hpending'.trans hpending, ?_, hdistinct'⟩
    show Paired s'.messages
    rw [hmessages']
    exact hhistory
  cases part with
  | textDelta text =>
    exact hgo (s.send t.number (.delta text)) _ _ (h.send rfl) rfl rfl rfl rfl hdistinct
  | reasoningDelta id text =>
    exact hgo (s.send t.number (.thought _ _ true)) _ _ (h.send rfl) rfl rfl rfl rfl hdistinct
  | finish outputTokens => exact hgo s _ _ h rfl rfl rfl rfl hdistinct
  | toolCall call =>
    refine hgo s _ _ h rfl rfl rfl rfl ?_
    show ((trip.toolCalls ++ [call]).map ToolCall.toolCallId).Nodup
    rw [List.map_append, List.map_singleton, List.nodup_append]
    refine ⟨hdistinct, List.nodup_singleton _, fun id hid id' hid' heq => ?_⟩
    rw [List.mem_singleton.mp hid'] at heq
    rw [heq] at hid
    exact hfresh hid

theorem Open.streamEnds {s : Session N I D M} {t : RunningTurn N I D M} {trip : RoundTrip N}
    (h : Open s t.number) (hat : AtStage s (.streaming trip)) :
    Sound (s.streamEnds deps t trip) := by
  obtain ⟨hpending, hhistory, hdistinct⟩ := hat
  have hsealed : ∀ s' : Session N I D M, Open s' t.number → s'.pending = [] → Paired s'.messages →
      Sound (if deps.maxOutputTokensPerTurn < t.outputTokens then
          s'.fail t (.overBudget (ascii "turn exceeded the output budget (" ++
            printNat t.outputTokens ++ ascii " > " ++ printNat deps.maxOutputTokensPerTurn ++
            ascii " tokens)"))
        else if trip.toolCalls = [] then
          (if trip.stepText = [] then s' else s'.push (.assistant trip.stepText [])).settle t.number
            (.done .completed t.outputTokens)
        else
          Session.resolveCalls deps trip.toolCalls trip.toolCalls []
            (s'.push (.assistant trip.stepText trip.toolCalls)) t) := by
    intro s' h' hpending' hhistory'
    split
    · exact h'.fail hhistory' _
    · split
      · split
        · exact h'.settle hhistory' rfl
        · refine (h'.push _).settle (hhistory'.push fun text toolCalls heq => ?_) rfl
          cases heq
          rfl
      · exact (h'.push _).resolveCalls _ hpending'
          ⟨hdistinct, rfl, s'.messages, trip.stepText, rfl, hhistory'⟩
  unfold Session.streamEnds
  split
  · exact hsealed s h hpending hhistory
  · exact hsealed _ (h.send rfl) hpending hhistory

theorem Sound.turn_eq_none {s : Session N I D M} (h : Sound s) (hidle : s.turnRunning = false) :
    s.turn = none := by
  rcases h.standing with ⟨hturn, _⟩ | ⟨t, _, hopen, _⟩
  · exact hturn
  · rw [hopen.running] at hidle
    cases hidle

theorem Session.runTurn_busy {s : Session N I D M} (hbusy : s.turnRunning = true)
    (input : TurnInput N I) : s.runTurn deps input =
      ({ s with calls := s.calls + 1 } : Session N I D M).send s.calls (.error .turnInProgress
        (ascii "a copilot turn is already streaming on this connection")) := if_pos hbusy

theorem Session.runTurn_latched {s : Session N I D M} (hidle : s.turnRunning = false)
    (hlatch : s.abortRequested = true) (input : TurnInput N I) : s.runTurn deps input =
      ({ s with calls := s.calls + 1, abortRequested := false } : Session N I D M).send s.calls
        (.done .aborted 0) :=
  (if_neg (Bool.eq_false_iff.mp hidle)).trans (if_pos hlatch)

/-- The state that a starting turn has set before its preparation. -/
def Session.claimed (s : Session N I D M) : Session N I D M :=
  { s with
    calls := s.calls + 1
    turnRunning := true
    turnIndex := s.turnIndex + 1
    abortController := some false }

theorem Session.runTurn_started {s : Session N I D M} (hidle : s.turnRunning = false)
    (hlatch : s.abortRequested = false) (input : TurnInput N I) : s.runTurn deps input =
      match buildSystemPrompt deps input with
      | .error _ => s.claimed
      | .ok system =>
        match deps.draftStateFor input.surface input.draft input.identity with
        | .error _ => s.claimed
        | .ok draftState =>
          (s.claimed.push (.user input.message)).enterStep deps
            ⟨s.calls, input, system, s.turnIndex, draftState, 0, 0, .streaming .fresh⟩ :=
  (if_neg (Bool.eq_false_iff.mp hidle)).trans (if_neg (Bool.eq_false_iff.mp hlatch))

/-- A call of `runTurn` that is turned away, or gets as far as its loop. -/
theorem Sound.runTurn {s : Session N I D M} (h : Sound s) {input : TurnInput N I}
    (hprepared : s.turnRunning = false → s.abortRequested = false → Prepares deps input) :
    Sound (s.runTurn deps input) := by
  cases hbusy : s.turnRunning with
  | true =>
    rw [Session.runTurn_busy hbusy]
    rcases h.standing with ⟨_, hclosed⟩ | ⟨t, hturn, hopen, hat⟩
    · rw [hclosed.idle] at hbusy
      cases hbusy
    · have hledger : ∀ frame : Frame M, frame.isTerminal = true →
          Ledger (({ s with calls := s.calls + 1 } : Session N I D M).send s.calls frame)
            (· = t.number) := fun frame hframe =>
        hopen.ledger.begin.send_terminal (Nat.lt_succ_self _) hframe (.inr rfl) fun k =>
          ⟨fun hk => ⟨.inl hk, hk ▸ Nat.ne_of_lt hopen.counted⟩,
            fun hk => hk.1.resolve_right hk.2⟩
      refine ⟨fun hnone => ?_, fun t' ht' => ?_⟩
      · cases hturn.symm.trans hnone
      · cases hturn.symm.trans ht'
        exact ⟨⟨hledger _ rfl, Nat.lt_succ_of_lt hopen.counted, hopen.running,
          hopen.controller⟩, hat.change rfl rfl⟩
  | false =>
    have hturn := h.turn_eq_none hbusy
    have hclosed := h.closed hturn
    cases hlatch : s.abortRequested with
    | true =>
      rw [Session.runTurn_latched hbusy hlatch]
      have hledger : Ledger (({ s with calls := s.calls + 1 } : Session N I D M).send s.calls
          (.done .aborted 0)) fun _ => False :=
        hclosed.ledger.begin.send_terminal (Nat.lt_succ_self _) rfl (.inr rfl) fun k =>
          ⟨False.elim, fun hk => hk.1.elim id hk.2⟩
      exact Closed.sound ⟨⟨hledger.settled, hledger.unsettled, hledger.numbered⟩, hclosed.idle,
        hclosed.controller, hclosed.pending, hclosed.history⟩ hturn
    | false =>
      obtain ⟨hfits, draftState, hdraft⟩ := hprepared hbusy hlatch
      have hprompt : buildSystemPrompt deps input = .ok _ := if_pos hfits
      rw [Session.runTurn_started hbusy hlatch, hprompt]
      simp only [hdraft]
      have hledger := hclosed.ledger.begin
      refine Open.enterStep ⟨⟨fun k hk hr => ?_, fun k hr => ?_, hledger.numbered⟩,
        Nat.lt_succ_self _, rfl, rfl⟩ hclosed.pending (hclosed.history.push fun _ _ heq => ?_)
      · exact hledger.settled k hk fun hor => hor.elim id hr
      · exact hledger.unsettled k (.inr hr)
      · cases heq

/-- Busy without a turn: no step leads out of it. -/
structure Wedged (s : Session N I D M) : Prop where
  turn : s.turn = none
  busy : s.turnRunning = true
  controller : s.abortController.isSome = true
  pending : s.pending = []

theorem Wedged.not_settledWell {s : Session N I D M} (h : Wedged s) : ¬ SettledWell s := by
  intro hs
  have hbusy := h.busy
  rw [hs.not_busy h.turn] at hbusy
  cases hbusy

/-- A turn whose preparation throws leaves the session so. -/
theorem Sound.runTurn_wedged {s : Session N I D M} (h : Sound s) {input : TurnInput N I}
    (hidle : s.turnRunning = false) (hlatch : s.abortRequested = false)
    (hnot : ¬ Prepares deps input) : Wedged (s.runTurn deps input) := by
  have hturn := h.turn_eq_none hidle
  have hclaimed : Wedged s.claimed := ⟨hturn, rfl, rfl, (h.closed hturn).pending⟩
  rw [Session.runTurn_started hidle hlatch]
  cases hprompt : buildSystemPrompt deps input with
  | error e => exact hclaimed
  | ok system =>
    cases hdraft : deps.draftStateFor input.surface input.draft input.identity with
    | error e => exact hclaimed
    | ok draftState =>
      refine absurd ⟨?_, draftState, hdraft⟩ hnot
      by_contra hlong
      rw [show buildSystemPrompt deps input = .error .other from if_neg hlong] at hprompt
      cases hprompt

/-! ## The runs -/

theorem Wedged.abort {s : Session N I D M} (h : Wedged s) : Wedged s.abort := by
  obtain ⟨flag, hflag⟩ := Option.isSome_iff_exists.mp h.controller
  have habort : s.abort = { s with abortController := some true } := by
    rw [Session.abort, hflag]
    simp only [Session.onAbort, h.turn]
  rw [habort]
  exact ⟨h.turn, h.busy, rfl, h.pending⟩

theorem Wedged.step {m : Move (Session N I D M) (Act N I)}
    (hm : Step deps m.before m.event m.after) (h : Wedged m.before) : Wedged m.after := by
  rcases m with ⟨s, act, s'⟩
  change Step deps s act s' at hm
  cases hm with
  | runTurn input =>
    show Wedged (s.runTurn deps input)
    rw [Session.runTurn_busy h.busy]
    exact ⟨h.turn, h.busy, h.controller, h.pending⟩
  | resolveMutation proposalId result =>
    show Wedged (s.resolveMutation deps proposalId result)
    rw [Session.resolveMutation, if_neg fun hmem => by
      rw [show s.pending = [] from h.pending] at hmem
      cases hmem]
    exact h
  | abort => exact h.abort
  | clearPendingAbort => exact ⟨h.turn, h.busy, h.controller, h.pending⟩
  | dispose =>
    have ha := Wedged.abort h
    show Wedged (s.dispose deps)
    rw [Session.dispose, ha.pending]
    exact ⟨ha.turn, ha.busy, ha.controller, rfl⟩
  | part part hturn => cases h.turn.symm.trans hturn
  | streamThrows error hturn => cases h.turn.symm.trans hturn
  | streamEnds hturn => cases h.turn.symm.trans hturn

theorem Wedged.trace {s t : Session N I D M} {moves : List (Move (Session N I D M) (Act N I))}
    (h : Trace (Step deps) s moves t) (hs : Wedged s) : Wedged t :=
  h.invariant Wedged (fun _ => True) (fun _ hm _ hinv => Wedged.step hm hinv) (fun _ _ => trivial)
    hs

theorem Sound.step {m : Move (Session N I D M) (Act N I)}
    (hm : Step deps m.before m.event m.after) (h : Sound m.before)
    (hprepared : StartsPrepared deps m) : Sound m.after := by
  rcases m with ⟨s, act, s'⟩
  change Step deps s act s' at hm
  cases hm with
  | runTurn input => exact h.runTurn (hprepared input rfl)
  | resolveMutation proposalId result => exact Sound.resolveMutation h proposalId result
  | abort => exact h.abort.1
  | clearPendingAbort => exact h.clearPendingAbort
  | dispose => exact Sound.dispose h
  | part part hturn hstage hfresh =>
    obtain ⟨hopen, hat⟩ := h.opened _ hturn
    rw [hstage] at hat
    exact hopen.receive hat part hfresh
  | streamThrows error hturn hstage =>
    obtain ⟨hopen, hat⟩ := h.opened _ hturn
    rw [hstage] at hat
    exact hopen.fail hat.2.1 error
  | streamEnds hturn hstage =>
    obtain ⟨hopen, hat⟩ := h.opened _ hturn
    rw [hstage] at hat
    exact hopen.streamEnds hat

/-- In good states a step settles well exactly when it does not start an unprepared turn. -/
theorem Sound.settledWell_iff {m : Move (Session N I D M) (Act N I)}
    (hm : Step deps m.before m.event m.after) (h : Sound m.before) :
    SettledWell m.after ↔ StartsPrepared deps m := by
  constructor
  · intro hwell input hevent hidle hlatch
    by_contra hnot
    rcases m with ⟨s, act, s'⟩
    cases hevent
    change Step deps s (.runTurn input) s' at hm
    cases hm with
    | runTurn => exact (Sound.runTurn_wedged h hidle hlatch hnot).not_settledWell hwell
  · exact fun hprepared => (Sound.step hm h hprepared).settledWell

theorem settled_well_iff {moves : List (Move (Session N I D M) (Act N I))} {t : Session N I D M}
    (h : Trace (Step deps) .initial moves t) :
    (∀ m ∈ moves, SettledWell m.after) ↔ ∀ m ∈ moves, StartsPrepared deps m := by
  refine h.forall_iff Sound (fun _ => True) (fun m hm _ hinv => Sound.settledWell_iff hm hinv) ?_
    (fun _ _ => trivial) Sound.initial
  exact fun m hm _ hinv hwell => Sound.step hm hinv ((Sound.settledWell_iff hm hinv).mp hwell)

theorem Prepares.draft_fits {input : TurnInput N I} (h : Prepares deps input) :
    (indented deps.numbers [] input.draft).length ≤ deps.maxStringLength := by
  have hfits := h.1
  rw [List.length_append, List.length_append] at hfits
  omega

end

/-! ## Drafts that are longer when they are shown -/

section

variable {N : Type}

/-- `COPILOT_MAX_DRAFT_CHARS`, of the draft as it is sent. -/
def copilotMaxDraftChars : Nat := 131072

/-- A list in a list in a list, so many times. -/
def nested : Nat → Value N
  | 0 => .arr []
  | n + 1 => .arr [nested n]

def nestedDraft (n : Nat) : Value N := .obj [(ascii "x", nested n)]

theorem length_stringify_nested (F : NumberFormat N) (n : Nat) :
    (stringify F (nested n)).length = 2 * n + 2 := by
  induction n with
  | zero => rfl
  | succ n ih =>
    show (unit '[' :: (stringify F (nested n) ++ [unit ']'])).length = _
    rw [List.length_cons, List.length_append, ih, List.length_singleton]
    omega

/-- Each level is a line further to the right. -/
theorem length_indented_nested (F : NumberFormat N) (n : Nat) (indent : JsString) :
    (indented F indent (nested n)).length = 2 * n * n + 2 * indent.length * n + 4 * n + 2 := by
  induction n generalizing indent with
  | zero => rfl
  | succ n ih =>
    have htwo : (ascii "  ").length = 2 := rfl
    show (ascii "[\n" ++ (indent ++ ascii "  " ++ indented F (indent ++ ascii "  ") (nested n)) ++
      ascii "\n" ++ indent ++ ascii "]").length = _
    simp only [List.length_append, ih, htwo, show (ascii "[\n").length = 2 from rfl,
      show (ascii "\n").length = 1 from rfl, show (ascii "]").length = 1 from rfl]
    ring

theorem length_stringify_nestedDraft (F : NumberFormat N) (n : Nat) :
    (stringify F (nestedDraft n)).length = 2 * n + 8 := by
  show (unit '\x7b' :: (quote (ascii "x") ++ unit ':' :: stringify F (nested n) ++
    [unit '\x7d'])).length = _
  have hquote : (quote (ascii "x")).length = 3 := rfl
  simp only [List.length_cons, List.length_append, hquote, length_stringify_nested,
    List.length_nil]
  omega

theorem length_indented_nestedDraft (F : NumberFormat N) (n : Nat) :
    2 * n * n ≤ (indented F [] (nestedDraft n)).length := by
  show _ ≤ (ascii "\x7b\n" ++ (([] ++ ascii "  ") ++ quote (ascii "x") ++ ascii ": " ++
    indented F ([] ++ ascii "  ") (nested n)) ++ ascii "\n" ++ [] ++ ascii "\x7d").length
  simp only [List.length_append, length_indented_nested]
  omega

end

/-- An engine with strings of up to 2³¹ − 1 units; every call of a tool waits for the user. -/
def plainDeps : CopilotDeps Int Unit Unit Unit where
  numbers := decimal
  maxStringLength := 2147483647
  promptBefore _ _ _ := ascii "The current draft: "
  promptAfter _ _ _ := []
  draftStateFor _ _ _ := .ok ()
  maxStepsPerTurn _ := 8
  maxOutputTokensPerTurn := 4000
  isWorkflowReadTool _ := false
  executeReadTool _ _ _ := .ok (.problem [])
  validateMutation _ _ _ _ := .ok (.valid () [])
  applyAcceptedMutation _ _ := .ok ()
  mintedStepId _ := none
  summarizeToolResult text := text

def asking (draft : Value Int) : TurnInput Int Unit :=
  ⟨.workflow, ascii "tidy this up", draft, none, (), false⟩

/-- A proposal is on screen when the user stops the turn. -/
theorem settled_well_iff_aborted : ∃ moves t, Trace (Step plainDeps) .initial moves t ∧
    moves.map Move.event = [.runTurn (asking (.obj [])),
      .part (.toolCall ⟨ascii "call", [], .null⟩), .streamEnds, .abort] ∧
    ∀ m ∈ moves, SettledWell m.after := by
  have h : Trace (Step plainDeps) .initial _ _ :=
    .cons (.runTurn (asking (.obj []))) <|
    .cons (.part (.toolCall ⟨ascii "call", [], .null⟩) rfl rfl List.not_mem_nil) <|
    .cons (.streamEnds rfl rfl) <| .cons .abort <| .nil _
  refine ⟨_, _, h, rfl, (settled_well_iff h).mpr ?_⟩
  simp only [List.forall_mem_cons]
  refine ⟨fun input heq _ _ => ?_, fun _ heq => (by cases heq), fun _ heq => (by cases heq),
    fun _ heq => (by cases heq), fun m hm => absurd hm List.not_mem_nil⟩
  cases heq
  exact ⟨by decide, (), rfl⟩

/-- The schema of the frame lets the draft through; the prompt does not fit into a string, and
the session is busy from then on. -/
theorem nested_draft_wedges :
    (stringify decimal (nestedDraft 32768)).length ≤ copilotMaxDraftChars ∧
    ∃ stuck, Trace (Step plainDeps) .initial
      [⟨.initial, .runTurn (asking (nestedDraft 32768)), stuck⟩] stuck ∧ ¬ SettledWell stuck ∧
      ∀ moves t, Trace (Step plainDeps) stuck moves t → t.turnRunning = true ∧ ¬ SettledWell t := by
  have hnot : ¬ Prepares plainDeps (asking (nestedDraft 32768)) := by
    intro h
    have hlong := length_indented_nestedDraft decimal 32768
    have hfits : (indented decimal [] (nestedDraft 32768)).length ≤ 2147483647 := h.draft_fits
    omega
  have hwedged : Wedged (Session.initial.runTurn plainDeps (asking (nestedDraft 32768))) :=
    Sound.runTurn_wedged Sound.initial rfl rfl hnot
  refine ⟨?_, _, .cons (.runTurn _) (.nil _), hwedged.not_settledWell, fun moves t h => ?_⟩
  · rw [length_stringify_nestedDraft]
    decide
  · have ht := Wedged.trace h hwedged
    exact ⟨ht.busy, ht.not_settledWell⟩

end InvisibleString.Copilot.Turn
