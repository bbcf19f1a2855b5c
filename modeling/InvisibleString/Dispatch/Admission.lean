import InvisibleString.Lib.Transition
import InvisibleString.Tailer.Events
import Mathlib.Data.List.Basic
import Mathlib.Logic.Function.Basic

/- # `Dispatch.Admission` — which starts get a run row

Every path that inserts a run does it in one transaction: it takes the workspace's advisory
lock, a pipeline start looks for a live run of its workflow (`overlap: "skip"`), the live runs
of the workspace are counted against the cap, the row is inserted.  The lock goes with the
transaction, so two starts of a workspace never count at once.  Rows are settled, parked and
taken up again outside of it all the while.

A statement of a transaction sees what is committed; its row is seen by others from the commit
on.

**Proved here.**

    settling, parking, resuming and deleting runs raises no count  (`TableFades.map`)
    in every run of starts and of what happens to rows, a workflow that skips overlaps has at most
      one live pipeline run, no workspace has more live runs than the cap, and a refused start has
      no row  (`limits_hold`)
-/

namespace InvisibleString.Dispatch

open Transition
open Tailer (RunStatus)

variable {Org Workflow Session Run Tx : Type}

/-! ## Rows and counts -/

/-- Run statuses that hold a concurrency slot. -/
def ACTIVE_RUN_STATUSES : List RunStatus := [.queued, .running, .waiting]

inductive RunMode where
  | agent
  | pipeline
  deriving DecidableEq, Repr

/-- The columns of a run that starts look at, and the transaction that inserted it. -/
structure RunRow (Org Workflow Session Run Tx : Type) where
  id : Run
  agentSessionId : Option Session
  organizationId : Option Org
  workflowId : Option Workflow
  mode : RunMode
  status : RunStatus
  insertedBy : Tx

abbrev RunRow.Active (row : RunRow Org Workflow Session Run Tx) : Prop :=
  row.status ∈ ACTIVE_RUN_STATUSES

/-- `COALESCE(runs.organization_id, agent_sessions.organization_id)`, the join a left one. -/
def RunRow.workspace (sessions : Session → Option Org) (row : RunRow Org Workflow Session Run Tx) :
    Option Org :=
  row.organizationId.or (row.agentSessionId.bind sessions)

def wouldExceedRunCap (activeRunCount cap : Nat) : Bool := activeRunCount + 1 > cap

/-- The workspace's active runs. -/
def countActiveRuns [DecidableEq Org] (runs : List (RunRow Org Workflow Session Run Tx))
    (sessions : Session → Option Org) (organizationId : Org) : Nat :=
  runs.countP fun row => row.workspace sessions = some organizationId ∧ row.Active

/-- Live pipeline runs of a workflow, which `overlap: "skip"` looks for. -/
def countLiveRuns [DecidableEq Workflow] (runs : List (RunRow Org Workflow Session Run Tx))
    (workflowId : Workflow) : Nat :=
  runs.countP fun row => row.workflowId = some workflowId ∧ row.mode = .pipeline ∧ row.Active

/-! ## Starts -/

inductive Overlap where
  | skip
  | allow
  deriving DecidableEq, Repr

/-- What a pipeline start reads of its workflow: the workspace, and the published `overlap`. -/
structure WorkflowRow (Org : Type) where
  organizationId : Org
  overlap : Overlap

/-- A pipeline start (webhook, form, schedule, Slack, manual), or the start of an agent's run: a
chat session, a message to one, a step's child. -/
inductive StartInput (Org Workflow Session : Type) where
  | pipeline (workflowId : Workflow)
  | agent (organizationId : Org) (agentSessionId : Session) (workflowId : Option Workflow)

/-- Why a start got no run. -/
inductive Refusal where
  | lockPoolExhausted
  | overlapSkipped
  | sessionBusy
  | workspaceRunCapExceeded (cap : Nat)
  /-- a statement threw, or the process is gone: the database takes the transaction back -/
  | rolledBack
  deriving DecidableEq, Repr

variable (workflows : Workflow → WorkflowRow Org) (hashtext : Org → Int) (cap : Nat)

def StartInput.organizationId : StartInput Org Workflow Session → Org
  | .pipeline workflowId => (workflows workflowId).organizationId
  | .agent organizationId _ _ => organizationId

/-- The inserted row. -/
def StartInput.row (id : Run) (tx : Tx) :
    StartInput Org Workflow Session → RunRow Org Workflow Session Run Tx
  | .pipeline workflowId =>
    { id, agentSessionId := none, organizationId := some (workflows workflowId).organizationId
      workflowId := some workflowId, mode := .pipeline, status := .queued, insertedBy := tx }
  | .agent organizationId agentSessionId workflowId =>
    { id, agentSessionId := some agentSessionId, organizationId := some organizationId, workflowId
      mode := .agent, status := .queued, insertedBy := tx }

/-- What stands before the cap: a live run of a workflow that skips overlaps, or (`busy`) another
dispatch on the session. -/
def StartInput.blocked [DecidableEq Workflow] (runs : List (RunRow Org Workflow Session Run Tx))
    (busy : Bool) : StartInput Org Workflow Session → Option Refusal
  | .pipeline workflowId =>
    if (workflows workflowId).overlap = .skip ∧ 0 < countLiveRuns runs workflowId then
      some .overlapSkipped
    else none
  | .agent _ _ _ => if busy then some .sessionBusy else none

/-- The typed 429, or nothing. -/
def assertUnderRunCap [DecidableEq Org] (runs : List (RunRow Org Workflow Session Run Tx))
    (sessions : Session → Option Org) (organizationId : Org) : Option Refusal :=
  if wouldExceedRunCap (countActiveRuns runs sessions organizationId) cap then
    some (.workspaceRunCapExceeded cap)
  else none

/-- How far a start is. -/
inductive Phase (Org Workflow Session Run Tx : Type) where
  | idle
  /-- before or at `lockWorkspaceRunCap` -/
  | arrived (input : StartInput Org Workflow Session)
  | locked (input : StartInput Org Workflow Session)
  /-- past the overlap (the session) check -/
  | clear (input : StartInput Org Workflow Session)
  | underCap (input : StartInput Org Workflow Session)
  /-- the row is inserted, the transaction open -/
  | inserted (input : StartInput Org Workflow Session) (id : Run)
  | started (id : Run)
  | refused (reason : Refusal)

/-- The transaction has the workspace's lock. -/
def Phase.lockedInput : Phase Org Workflow Session Run Tx → Option (StartInput Org Workflow Session)
  | .locked input | .clear input | .underCap input | .inserted input _ => some input
  | .idle | .arrived _ | .started _ | .refused _ => none

/-! ## The system -/

structure AdmissionState (Org Workflow Session Run Tx : Type) where
  /-- the committed rows -/
  runs : List (RunRow Org Workflow Session Run Tx)
  /-- `agent_sessions.organization_id` -/
  sessions : Session → Option Org
  /-- transaction-scoped advisory locks -/
  locks : Int → Option Tx
  starts : Tx → Phase Org Workflow Session Run Tx

/-- Nothing has been started. -/
def AdmissionState.empty : AdmissionState Org Workflow Session Run Tx where
  runs := []
  sessions _ := none
  locks _ := none
  starts _ := .idle

def AdmissionState.setStart [DecidableEq Tx] (s : AdmissionState Org Workflow Session Run Tx)
    (tx : Tx) (phase : Phase Org Workflow Session Run Tx) :
    AdmissionState Org Workflow Session Run Tx :=
  { s with starts := Function.update s.starts tx phase }

/-- The transaction's end gives its locks back. -/
def AdmissionState.finish [DecidableEq Tx] (s : AdmissionState Org Workflow Session Run Tx)
    (tx : Tx) (phase : Phase Org Workflow Session Run Tx) :
    AdmissionState Org Workflow Session Run Tx :=
  { s.setStart tx phase with
    locks := fun key => if s.locks key = some tx then none else s.locks key }

/-- `pg_advisory_xact_lock` of the workspace. -/
def AdmissionState.lockWorkspaceRunCap [DecidableEq Tx]
    (s : AdmissionState Org Workflow Session Run Tx) (tx : Tx)
    (input : StartInput Org Workflow Session) :
    AdmissionState Org Workflow Session Run Tx :=
  { s.setStart tx (.locked input) with
    locks := Function.update s.locks (hashtext (input.organizationId workflows)) (some tx) }

/-! ## What happens to rows -/

/-- `markRun`, `settleRunCanceledPendingRemote`: a live row takes any status, a terminal one keeps
its own. -/
def RunRow.markRun [DecidableEq Run] (id : Run) (status : RunStatus)
    (row : RunRow Org Workflow Session Run Tx) : RunRow Org Workflow Session Run Tx :=
  if row.id = id ∧ row.status ∈ [RunStatus.queued, .running, .waiting] then { row with status }
  else row

/-- An answer takes a parked run up again, in its own row. -/
def RunRow.resume [DecidableEq Run] (id : Run) (row : RunRow Org Workflow Session Run Tx) :
    RunRow Org Workflow Session Run Tx :=
  if row.id = id ∧ row.status = .waiting then { row with status := .queued } else row

/-- A run outlives its workflow. -/
def RunRow.orphan [DecidableEq Workflow] (workflowId : Workflow)
    (row : RunRow Org Workflow Session Run Tx) : RunRow Org Workflow Session Run Tx :=
  if row.workflowId = some workflowId then { row with workflowId := none } else row

/-! ## Steps -/

inductive AdmissionEvent (Org Workflow Session Run Tx : Type) where
  | arrive (tx : Tx) (input : StartInput Org Workflow Session)
  | turnAway (tx : Tx) (reason : Refusal)
  | lock (tx : Tx)
  | checkOverlap (tx : Tx) (busy : Bool)
  | checkCap (tx : Tx)
  | insert (tx : Tx) (id : Run)
  | commit (tx : Tx)
  | rollBack (tx : Tx)
  | markRun (id : Run) (status : RunStatus)
  | resume (id : Run)
  | orphan (workflowId : Workflow)
  | delete (id : Run)
  | sessionRow (id : Session) (organizationId : Option Org)

/-- One statement of a start, or one write to committed rows.

    turnAway          no lock for the run, no worker, a session that is busy: before the
                      transaction is open
    checkOverlap      what a session's other dispatches say is an argument
    insert            ids are drawn at random or pre-minted
    rollBack          also a hook that throws, and a process that dies -/
inductive Step [DecidableEq Org] [DecidableEq Workflow] [DecidableEq Session] [DecidableEq Run]
    [DecidableEq Tx] : AdmissionState Org Workflow Session Run Tx →
    AdmissionEvent Org Workflow Session Run Tx → AdmissionState Org Workflow Session Run Tx → Prop
  | arrive {s} (tx) (input) : s.starts tx = .idle →
      Step s (.arrive tx input) (s.setStart tx (.arrived input))
  | turnAway {s} (tx) {input} (reason) : s.starts tx = .arrived input →
      Step s (.turnAway tx reason) (s.finish tx (.refused reason))
  | lock {s} (tx) {input} : s.starts tx = .arrived input →
      s.locks (hashtext (input.organizationId workflows)) = none →
      Step s (.lock tx) (s.lockWorkspaceRunCap workflows hashtext tx input)
  | blocked {s} (tx) {input} (busy) {reason} : s.starts tx = .locked input →
      input.blocked workflows s.runs busy = some reason →
      Step s (.checkOverlap tx busy) (s.finish tx (.refused reason))
  | clear {s} (tx) {input} (busy) : s.starts tx = .locked input →
      input.blocked workflows s.runs busy = none →
      Step s (.checkOverlap tx busy) (s.setStart tx (.clear input))
  | capped {s} (tx) {input} {reason} : s.starts tx = .clear input →
      assertUnderRunCap cap s.runs s.sessions (input.organizationId workflows) = some reason →
      Step s (.checkCap tx) (s.finish tx (.refused reason))
  | underCap {s} (tx) {input} : s.starts tx = .clear input →
      assertUnderRunCap cap s.runs s.sessions (input.organizationId workflows) = none →
      Step s (.checkCap tx) (s.setStart tx (.underCap input))
  | insert {s} (tx) {input} (id) : s.starts tx = .underCap input →
      Step s (.insert tx id) (s.setStart tx (.inserted input id))
  | commit {s} (tx) {input id} : s.starts tx = .inserted input id →
      Step s (.commit tx)
        { s.finish tx (.started id) with runs := s.runs ++ [input.row workflows id tx] }
  | rollBack {s} (tx) {input} : (s.starts tx).lockedInput = some input →
      Step s (.rollBack tx) (s.finish tx (.refused .rolledBack))
  | markRun {s} (id) (status) :
      Step s (.markRun id status) { s with runs := s.runs.map (RunRow.markRun id status) }
  | resume {s} (id) : Step s (.resume id) { s with runs := s.runs.map (RunRow.resume id) }
  | orphan {s} (workflowId) :
      Step s (.orphan workflowId) { s with runs := s.runs.map (RunRow.orphan workflowId) }
  | delete {s} (id) : Step s (.delete id) { s with runs := s.runs.filter fun row => row.id ≠ id }
  | sessionRow {s} (id) (organizationId) :
      Step s (.sessionRow id organizationId)
        { s with sessions := Function.update s.sessions id organizationId }

/-! ## Writes to committed rows raise no count -/

/-- A write that starts nothing: a row that is live afterwards, or belongs to a workflow, did so
before. -/
structure RunRow.Fades (row row' : RunRow Org Workflow Session Run Tx) : Prop where
  active : row'.Active → row.Active
  workflow : ∀ w, row'.workflowId = some w → row.workflowId = some w
  mode : row'.mode = row.mode
  session : row'.agentSessionId = row.agentSessionId
  organization : row'.organizationId = row.organizationId
  insertedBy : row'.insertedBy = row.insertedBy

theorem RunRow.fades_refl (row : RunRow Org Workflow Session Run Tx) : row.Fades row :=
  ⟨fun h => h, fun _ h => h, rfl, rfl, rfl, rfl⟩

theorem RunRow.fades_markRun [DecidableEq Run] (id : Run) (status : RunStatus)
    (row : RunRow Org Workflow Session Run Tx) : row.Fades (row.markRun id status) := by
  rw [RunRow.markRun]
  split
  · next h => exact ⟨fun _ => h.2, fun _ h => h, rfl, rfl, rfl, rfl⟩
  · exact row.fades_refl

theorem RunRow.fades_resume [DecidableEq Run] (id : Run)
    (row : RunRow Org Workflow Session Run Tx) : row.Fades (row.resume id) := by
  rw [RunRow.resume]
  split
  · next h =>
    have hactive : row.Active := by
      show row.status ∈ ACTIVE_RUN_STATUSES
      rw [h.2]
      decide
    exact ⟨fun _ => hactive, fun _ h => h, rfl, rfl, rfl, rfl⟩
  · exact row.fades_refl

theorem RunRow.fades_orphan [DecidableEq Workflow] (workflowId : Workflow)
    (row : RunRow Org Workflow Session Run Tx) : row.Fades (row.orphan workflowId) := by
  rw [RunRow.orphan]
  split
  · exact ⟨fun h => h, fun _ h => (by cases h), rfl, rfl, rfl, rfl⟩
  · exact row.fades_refl

section Fades

variable [DecidableEq Org] [DecidableEq Workflow]

/-- The rows of a table after writes that start nothing. -/
structure TableFades (runs runs' : List (RunRow Org Workflow Session Run Tx)) : Prop where
  active : ∀ (sessions : Session → Option Org) (organizationId : Org),
    countActiveRuns runs' sessions organizationId ≤ countActiveRuns runs sessions organizationId
  live : ∀ workflowId : Workflow, countLiveRuns runs' workflowId ≤ countLiveRuns runs workflowId
  kept : ∀ row' ∈ runs', ∃ row ∈ runs,
    row'.organizationId = row.organizationId ∧ row'.insertedBy = row.insertedBy

theorem TableFades.map
    {write : RunRow Org Workflow Session Run Tx → RunRow Org Workflow Session Run Tx}
    (h : ∀ row, RunRow.Fades row (write row)) (runs : List (RunRow Org Workflow Session Run Tx)) :
    TableFades runs (runs.map write) := by
  constructor
  case active =>
    intro sessions organizationId
    simp only [countActiveRuns, List.countP_map]
    refine List.countP_mono_left fun row _ hrow => decide_eq_true ?_
    obtain ⟨hworkspace, hactive⟩ := of_decide_eq_true hrow
    rw [RunRow.workspace, (h row).organization, (h row).session] at hworkspace
    exact ⟨hworkspace, (h row).active hactive⟩
  case live =>
    intro workflowId
    simp only [countLiveRuns, List.countP_map]
    refine List.countP_mono_left fun row _ hrow => decide_eq_true ?_
    obtain ⟨hworkflow, hmode, hactive⟩ := of_decide_eq_true hrow
    exact ⟨(h row).workflow _ hworkflow, (h row).mode ▸ hmode, (h row).active hactive⟩
  case kept =>
    intro row' hrow'
    obtain ⟨row, hrow, rfl⟩ := List.mem_map.mp hrow'
    exact ⟨row, hrow, (h row).organization, (h row).insertedBy⟩

theorem TableFades.filter (p : RunRow Org Workflow Session Run Tx → Bool)
    (runs : List (RunRow Org Workflow Session Run Tx)) : TableFades runs (runs.filter p) where
  active _ _ := List.filter_sublist.countP_le
  live _ := List.filter_sublist.countP_le
  kept row hrow := ⟨row, List.mem_of_mem_filter hrow, rfl, rfl⟩

end Fades

/-! ## Counts of a table with one more row -/

section Insert

variable {runs : List (RunRow Org Workflow Session Run Tx)}

/-- With their own workspace on them, rows are counted without the sessions. -/
theorem countActiveRuns_sessions [DecidableEq Org]
    (h : ∀ row ∈ runs, row.organizationId ≠ none) (sessions sessions' : Session → Option Org)
    (organizationId : Org) : countActiveRuns runs sessions organizationId =
      countActiveRuns runs sessions' organizationId := by
  refine List.countP_congr fun row hrow => ?_
  obtain ⟨own, hown⟩ := Option.ne_none_iff_exists'.mp (h row hrow)
  rw [RunRow.workspace, RunRow.workspace, hown]
  rfl

theorem countActiveRuns_append [DecidableEq Org]
    (row : RunRow Org Workflow Session Run Tx) (sessions : Session → Option Org)
    (organizationId : Org) : countActiveRuns (runs ++ [row]) sessions organizationId ≤
      countActiveRuns runs sessions organizationId + 1 := by
  rw [countActiveRuns, List.countP_append, countActiveRuns]
  exact Nat.add_le_add_left List.countP_le_length _

theorem countActiveRuns_append_of_ne [DecidableEq Org]
    {row : RunRow Org Workflow Session Run Tx} {sessions : Session → Option Org}
    {organizationId : Org} (h : row.workspace sessions ≠ some organizationId) :
    countActiveRuns (runs ++ [row]) sessions organizationId =
      countActiveRuns runs sessions organizationId := by
  rw [countActiveRuns, List.countP_append, List.countP_singleton, if_neg]
  · rfl
  · exact fun hrow => h (of_decide_eq_true hrow).1

theorem countLiveRuns_append [DecidableEq Workflow]
    (row : RunRow Org Workflow Session Run Tx) (workflowId : Workflow) :
    countLiveRuns (runs ++ [row]) workflowId ≤ countLiveRuns runs workflowId + 1 := by
  rw [countLiveRuns, List.countP_append, countLiveRuns]
  exact Nat.add_le_add_left List.countP_le_length _

theorem countLiveRuns_append_of_ne [DecidableEq Workflow]
    {row : RunRow Org Workflow Session Run Tx} {workflowId : Workflow}
    (h : row.workflowId ≠ some workflowId ∨ row.mode ≠ .pipeline) :
    countLiveRuns (runs ++ [row]) workflowId = countLiveRuns runs workflowId := by
  rw [countLiveRuns, List.countP_append, List.countP_singleton, if_neg]
  · rfl
  · intro hrow
    obtain ⟨hworkflow, hmode, _⟩ := of_decide_eq_true hrow
    rcases h with hne | hne
    · exact hne hworkflow
    · exact hne hmode

end Insert

theorem StartInput.workspace_row (input : StartInput Org Workflow Session) (id : Run) (tx : Tx)
    (sessions : Session → Option Org) :
    (input.row workflows id tx).workspace sessions = some (input.organizationId workflows) := by
  cases input with
  | pipeline => rfl
  | agent => rfl

/-! ## The invariant -/

/-- Past the overlap check. -/
def Phase.clearInput : Phase Org Workflow Session Run Tx → Option (StartInput Org Workflow Session)
  | .clear input | .underCap input | .inserted input _ => some input
  | .idle | .arrived _ | .locked _ | .started _ | .refused _ => none

def Phase.cappedInput : Phase Org Workflow Session Run Tx → Option (StartInput Org Workflow Session)
  | .underCap input | .inserted input _ => some input
  | .idle | .arrived _ | .locked _ | .clear _ | .started _ | .refused _ => none

def Phase.isStarted : Phase Org Workflow Session Run Tx → Bool
  | .started _ => true
  | .idle | .arrived _ | .locked _ | .clear _ | .underCap _ | .inserted _ _ | .refused _ => false

theorem Phase.lockedInput_of_clear {phase : Phase Org Workflow Session Run Tx}
    {input : StartInput Org Workflow Session} (h : phase.clearInput = some input) :
    phase.lockedInput = some input := by
  cases phase with
  | clear | underCap | inserted => exact h
  | idle | arrived | locked | started | refused => cases h

theorem Phase.lockedInput_of_capped {phase : Phase Org Workflow Session Run Tx}
    {input : StartInput Org Workflow Session} (h : phase.cappedInput = some input) :
    phase.lockedInput = some input := by
  cases phase with
  | underCap | inserted => exact h
  | idle | arrived | locked | clear | started | refused => cases h

section Invariant

variable [DecidableEq Org] [DecidableEq Workflow]

/-- What a start has checked is still so while it holds the workspace's lock. -/
structure AdmissionInv (s : AdmissionState Org Workflow Session Run Tx) : Prop where
  held : ∀ tx input, (s.starts tx).lockedInput = some input →
    s.locks (hashtext (input.organizationId workflows)) = some tx
  free : ∀ tx w, (s.starts tx).clearInput = some (.pipeline w) → (workflows w).overlap = .skip →
    countLiveRuns s.runs w = 0
  room : ∀ tx input, (s.starts tx).cappedInput = some input →
    countActiveRuns s.runs s.sessions (input.organizationId workflows) + 1 ≤ cap
  unseen : ∀ tx, (s.starts tx).isStarted = false → ∀ row ∈ s.runs, row.insertedBy ≠ tx
  owned : ∀ row ∈ s.runs, row.organizationId ≠ none
  active : ∀ organizationId, countActiveRuns s.runs s.sessions organizationId ≤ cap
  live : ∀ w, (workflows w).overlap = .skip → countLiveRuns s.runs w ≤ 1

variable {workflows hashtext cap} {s s' : AdmissionState Org Workflow Session Run Tx}

theorem AdmissionInv.empty :
    AdmissionInv workflows hashtext cap (.empty : AdmissionState Org Workflow Session Run Tx) where
  held _ _ h := by cases h
  free _ _ _ _ := rfl
  room _ _ h := by cases h
  unseen _ _ _ hrow := absurd hrow List.not_mem_nil
  owned _ hrow := absurd hrow List.not_mem_nil
  active _ := Nat.zero_le _
  live _ _ := Nat.zero_le _

/-- The starts and the locks stay, rows fade. -/
theorem AdmissionInv.faded (h : AdmissionInv workflows hashtext cap s)
    {runs : List (RunRow Org Workflow Session Run Tx)} (hruns : TableFades s.runs runs) :
    AdmissionInv workflows hashtext cap { s with runs } where
  held := h.held
  free tx w hinput hskip := Nat.le_zero.mp (h.free tx w hinput hskip ▸ hruns.live w)
  room tx input hinput :=
    Nat.le_trans (Nat.add_le_add_right (hruns.active _ _) 1) (h.room tx input hinput)
  unseen tx hstarted row' hrow' := by
    obtain ⟨row, hrow, _, hby⟩ := hruns.kept row' hrow'
    rw [hby]
    exact h.unseen tx hstarted row hrow
  owned row' hrow' := by
    obtain ⟨row, hrow, horg, _⟩ := hruns.kept row' hrow'
    rw [horg]
    exact h.owned row hrow
  active organizationId := Nat.le_trans (hruns.active _ _) (h.active organizationId)
  live w hskip := Nat.le_trans (hruns.live w) (h.live w hskip)

theorem AdmissionInv.sessionRow (h : AdmissionInv workflows hashtext cap s)
    (sessions : Session → Option Org) :
    AdmissionInv workflows hashtext cap { s with sessions } where
  held := h.held
  free := h.free
  room tx input hinput := by
    show countActiveRuns s.runs sessions _ + 1 ≤ cap
    rw [countActiveRuns_sessions h.owned sessions s.sessions]
    exact h.room tx input hinput
  unseen := h.unseen
  owned := h.owned
  active organizationId := by
    show countActiveRuns s.runs sessions _ ≤ cap
    rw [countActiveRuns_sessions h.owned sessions s.sessions]
    exact h.active organizationId
  live := h.live

variable [DecidableEq Tx]

theorem AdmissionInv.after (h : AdmissionInv workflows hashtext cap s) (tx : Tx)
    (phase : Phase Org Workflow Session Run Tx) (locks : Int → Option Tx)
    (hlocks : ∀ key other, other ≠ tx → s.locks key = some other → locks key = some other)
    (hheld : ∀ input, phase.lockedInput = some input →
      locks (hashtext (input.organizationId workflows)) = some tx)
    (hfree : ∀ w, phase.clearInput = some (.pipeline w) → (workflows w).overlap = .skip →
      countLiveRuns s.runs w = 0)
    (hroom : ∀ input, phase.cappedInput = some input →
      countActiveRuns s.runs s.sessions (input.organizationId workflows) + 1 ≤ cap)
    (hunseen : (s.starts tx).isStarted = false) :
    AdmissionInv workflows hashtext cap { s.setStart tx phase with locks } := by
  constructor
  case held =>
    intro other input hinput
    by_cases hother : other = tx
    · subst hother
      simp only [AdmissionState.setStart, Function.update_self] at hinput
      exact hheld input hinput
    · simp only [AdmissionState.setStart, Function.update_of_ne hother] at hinput
      exact hlocks _ other hother (h.held other input hinput)
  case free =>
    intro other w hinput
    by_cases hother : other = tx
    · subst hother
      simp only [AdmissionState.setStart, Function.update_self] at hinput
      exact hfree w hinput
    · simp only [AdmissionState.setStart, Function.update_of_ne hother] at hinput
      exact h.free other w hinput
  case room =>
    intro other input hinput
    by_cases hother : other = tx
    · subst hother
      simp only [AdmissionState.setStart, Function.update_self] at hinput
      exact hroom input hinput
    · simp only [AdmissionState.setStart, Function.update_of_ne hother] at hinput
      exact h.room other input hinput
  case unseen =>
    intro other hstarted
    by_cases hother : other = tx
    · subst hother
      exact h.unseen other hunseen
    · simp only [AdmissionState.setStart, Function.update_of_ne hother] at hstarted
      exact h.unseen other hstarted
  case owned => exact h.owned
  case active => exact h.active
  case live => exact h.live

theorem AdmissionInv.finish (h : AdmissionInv workflows hashtext cap s) (tx : Tx) (reason : Refusal)
    (hunseen : (s.starts tx).isStarted = false) :
    AdmissionInv workflows hashtext cap (s.finish tx (.refused reason)) := by
  refine h.after tx _ _ ?_ (fun _ hinput => by cases hinput) (fun _ hinput => by cases hinput)
    (fun _ hinput => by cases hinput) hunseen
  intro key other hother hlock
  rw [hlock, if_neg (fun heq => hother (Option.some.inj heq))]

/-- A row inserted for one workspace is seen by no start that holds another workspace's lock, and
the inserting start holds its own. -/
theorem AdmissionInv.commit (h : AdmissionInv workflows hashtext cap s) {tx : Tx}
    {input : StartInput Org Workflow Session} {id : Run} (htx : s.starts tx = .inserted input id) :
    AdmissionInv workflows hashtext cap
      { s.finish tx (.started id) with runs := s.runs ++ [input.row workflows id tx] } := by
  have hheld : s.locks (hashtext (input.organizationId workflows)) = some tx :=
    h.held tx input (by rw [htx]; rfl)
  have hother : ∀ other input', other ≠ tx → (s.starts other).lockedInput = some input' →
      input'.organizationId workflows ≠ input.organizationId workflows := by
    intro other input' hne hinput' horg
    have hlock := h.held other input' hinput'
    rw [horg, hheld] at hlock
    exact hne (Option.some.inj hlock).symm
  have hwith : ∀ other, other ≠ tx →
      (s.finish tx (.started id)).starts other = s.starts other := fun other hne =>
    Function.update_of_ne hne _ _
  have hself : (s.finish tx (.started id)).starts tx = .started id := Function.update_self ..
  constructor
  case held =>
    intro other input' hinput'
    by_cases hne : other = tx
    · subst hne
      rw [hself] at hinput'
      cases hinput'
    · rw [hwith other hne] at hinput'
      have hlock := h.held other input' hinput'
      show (if _ then none else _) = some other
      rw [hlock, if_neg (fun heq => hne (Option.some.inj heq))]
  case free =>
    intro other w hinput' hskip
    by_cases hne : other = tx
    · subst hne
      rw [hself] at hinput'
      cases hinput'
    · rw [hwith other hne] at hinput'
      have horg := hother other _ hne (Phase.lockedInput_of_clear hinput')
      rw [countLiveRuns_append_of_ne, h.free other w hinput' hskip]
      cases input with
      | pipeline w' =>
        refine Or.inl fun heq => horg ?_
        rw [StartInput.organizationId, StartInput.organizationId, Option.some.inj heq]
      | agent => exact Or.inr fun heq => by cases heq
  case room =>
    intro other input' hinput'
    by_cases hne : other = tx
    · subst hne
      rw [hself] at hinput'
      cases hinput'
    · rw [hwith other hne] at hinput'
      have horg := hother other _ hne (Phase.lockedInput_of_capped hinput')
      rw [countActiveRuns_append_of_ne]
      · exact h.room other input' hinput'
      · rw [StartInput.workspace_row]
        exact fun heq => horg (Option.some.inj heq).symm
  case unseen =>
    intro other hstarted row hrow
    by_cases hne : other = tx
    · subst hne
      rw [hself] at hstarted
      cases hstarted
    · rw [hwith other hne] at hstarted
      rcases List.mem_append.mp hrow with hrow | hrow
      · exact h.unseen other hstarted row hrow
      · rw [List.mem_singleton.mp hrow]
        cases input with
        | pipeline => exact Ne.symm hne
        | agent => exact Ne.symm hne
  case owned =>
    intro row hrow
    rcases List.mem_append.mp hrow with hrow | hrow
    · exact h.owned row hrow
    · rw [List.mem_singleton.mp hrow]
      cases input with
      | pipeline => exact Option.some_ne_none _
      | agent => exact Option.some_ne_none _
  case active =>
    intro organizationId
    by_cases horg : input.organizationId workflows = organizationId
    · subst horg
      exact Nat.le_trans (countActiveRuns_append _ _ _) (h.room tx input (by rw [htx]; rfl))
    · show countActiveRuns (s.runs ++ _) s.sessions _ ≤ cap
      rw [countActiveRuns_append_of_ne]
      · exact h.active organizationId
      · rw [StartInput.workspace_row]
        exact fun heq => horg (Option.some.inj heq)
  case live =>
    intro w hskip
    by_cases hinput : input = .pipeline w
    · have hfree := h.free tx w (by rw [htx, hinput]; rfl) hskip
      calc countLiveRuns (s.runs ++ [input.row workflows id tx]) w
          ≤ countLiveRuns s.runs w + 1 := countLiveRuns_append _ w
        _ = 1 := by rw [hfree]
    · show countLiveRuns (s.runs ++ _) w ≤ 1
      rw [countLiveRuns_append_of_ne]
      · exact h.live w hskip
      · cases input with
        | pipeline w' => exact Or.inl fun heq => hinput (by rw [Option.some.inj heq])
        | agent => exact Or.inr fun heq => by cases heq

variable [DecidableEq Session] [DecidableEq Run]

theorem AdmissionInv.step {e : AdmissionEvent Org Workflow Session Run Tx}
    (h : AdmissionInv workflows hashtext cap s) (hstep : Step workflows hashtext cap s e s') :
    AdmissionInv workflows hashtext cap s' := by
  cases hstep with
  | arrive tx input htx =>
    exact h.after tx _ s.locks (fun _ _ _ h => h) (fun _ h => by cases h) (fun _ h => by cases h)
      (fun _ h => by cases h) (by rw [htx]; rfl)
  | turnAway tx reason htx =>
    exact h.finish tx reason (by rw [htx]; rfl)
  | @lock tx input htx hfree =>
    refine h.after tx _ _ ?_ ?_ (fun _ h => by cases h) (fun _ h => by cases h)
      (by rw [htx]; rfl)
    · intro key other _ hlock
      rw [Function.update_of_ne]
      · exact hlock
      · rintro rfl
        rw [hfree] at hlock
        cases hlock
    · intro input' hinput'
      cases hinput'
      exact Function.update_self ..
  | blocked tx busy htx _ =>
    exact h.finish tx _ (by rw [htx]; rfl)
  | @clear tx input busy htx hblocked =>
    refine h.after tx _ s.locks (fun _ _ _ h => h) ?_ ?_ (fun _ h => by cases h)
      (by rw [htx]; rfl)
    · intro input' hinput'
      exact h.held tx input' (by rw [htx]; exact hinput')
    · intro w hinput' hskip
      cases hinput'
      by_contra hlive
      rw [StartInput.blocked, if_pos ⟨hskip, Nat.pos_of_ne_zero hlive⟩] at hblocked
      cases hblocked
  | capped tx htx _ =>
    exact h.finish tx _ (by rw [htx]; rfl)
  | @underCap tx input htx hcap =>
    refine h.after tx _ s.locks (fun _ _ _ h => h) ?_ ?_ ?_ (by rw [htx]; rfl)
    · intro input' hinput'
      exact h.held tx input' (by rw [htx]; exact hinput')
    · intro w hinput' hskip
      exact h.free tx w (by rw [htx]; exact hinput') hskip
    · intro input' hinput'
      cases hinput'
      by_contra hroom
      have hexceeds : wouldExceedRunCap (countActiveRuns s.runs s.sessions
          (input.organizationId workflows)) cap = true := decide_eq_true (Nat.lt_of_not_le hroom)
      rw [assertUnderRunCap, if_pos hexceeds] at hcap
      cases hcap
  | @insert tx input id htx =>
    refine h.after tx _ s.locks (fun _ _ _ h => h) ?_ ?_ ?_ (by rw [htx]; rfl)
    · intro input' hinput'
      exact h.held tx input' (by rw [htx]; exact hinput')
    · intro w hinput' hskip
      exact h.free tx w (by rw [htx]; exact hinput') hskip
    · intro input' hinput'
      exact h.room tx input' (by rw [htx]; exact hinput')
  | commit tx htx => exact h.commit htx
  | rollBack tx htx =>
    refine h.finish tx _ ?_
    cases hphase : s.starts tx with
    | started =>
      rw [hphase] at htx
      cases htx
    | idle | arrived | locked | clear | underCap | inserted | refused => rfl
  | markRun id status => exact h.faded (.map (RunRow.fades_markRun id status) _)
  | resume id => exact h.faded (.map (RunRow.fades_resume id) _)
  | orphan workflowId => exact h.faded (.map (RunRow.fades_orphan workflowId) _)
  | delete id => exact h.faded (.filter _ _)
  | sessionRow id organizationId => exact h.sessionRow _

/-- Overlap skip and the workspace cap hold in every state, and a refused start has no row. -/
theorem limits_hold {moves : List (Move (AdmissionState Org Workflow Session Run Tx)
      (AdmissionEvent Org Workflow Session Run Tx))}
    (h : Trace (Step workflows hashtext cap) .empty moves s) :
    (∀ w, (workflows w).overlap = .skip → countLiveRuns s.runs w ≤ 1) ∧
      (∀ organizationId, countActiveRuns s.runs s.sessions organizationId ≤ cap) ∧
      ∀ tx reason, s.starts tx = .refused reason → ∀ row ∈ s.runs, row.insertedBy ≠ tx := by
  have hinv : AdmissionInv workflows hashtext cap s :=
    h.invariant (AdmissionInv workflows hashtext cap) (fun _ => True)
      (fun _ hstep _ hinv => hinv.step hstep) (fun _ _ => trivial) .empty
  exact ⟨hinv.live, hinv.active, fun tx reason htx => hinv.unseen tx (by rw [htx]; rfl)⟩

end Invariant

/-- Every workflow skips overlaps. -/
def skippingWorkflows (_ : Nat) : WorkflowRow Nat := ⟨7, .skip⟩

/-- A webhook's start and a schedule's of one workflow: the second waits for the first one's
commit, and is skipped. -/
theorem limits_hold_two_starts : ∃ s : AdmissionState Nat Nat Nat Nat Nat,
    s.starts 1 = .refused .overlapSkipped ∧
      ((∀ w, (skippingWorkflows w).overlap = .skip → countLiveRuns s.runs w ≤ 1) ∧
        (∀ organizationId, countActiveRuns s.runs s.sessions organizationId ≤ 5) ∧
        ∀ tx reason, s.starts tx = .refused reason → ∀ row ∈ s.runs, row.insertedBy ≠ tx) := by
  have h : Trace (Step skippingWorkflows Int.ofNat 5)
      (.empty : AdmissionState Nat Nat Nat Nat Nat) _ _ :=
    .cons (.arrive 0 (.pipeline 0) rfl) <| .cons (.arrive 1 (.pipeline 0) rfl) <|
    .cons (.lock 0 rfl rfl) <| .cons (.clear 0 false rfl rfl) <| .cons (.underCap 0 rfl rfl) <|
    .cons (.insert 0 100 rfl) <| .cons (.commit 0 rfl) <| .cons (.lock 1 rfl rfl) <|
    .cons (.blocked 1 false rfl rfl) <| .nil _
  exact ⟨_, rfl, limits_hold h⟩

end InvisibleString.Dispatch
