import InvisibleString.Lib.Transition
import InvisibleString.Triggers.Ticker

/- # `Triggers.Mirror` — the trigger row and the workflow it belongs to

Publishing a workflow, its master switch, minted tokens, Slack bindings and the schedule ticker
all write the one trigger row of a workflow, each after its own earlier reads.  Publishing is
one transaction, every other statement commits alone, and no unique index keeps a second row
out.

**Proved here.**

    publishing and binding set every column the row's type owns  (`publishPatch_spec`,
                                                                    `Target.set_spec`)
    when every write finds what its request has read, and tokens and bindings are only set on an
      enabled workflow whose row carries nothing they leave behind, the row mirrors its workflow
      whenever no request is in flight  (`trigger_row_mirrors`)
    a token minted for a disabled workflow enables the row, and two first tokens at a time make
      two rows  (`mint_breaks_mirror`)
-/

namespace InvisibleString.Triggers

open Json Transition

variable {N : Type}

/-! ## Configs and rows -/

/-- `trigger` of a parsed workflow config. -/
inductive TriggerConfig (N : Type) where
  | manual
  | webhook
  | form (fields : Value N)
  | slack (binding : Value N)
  | schedule (cron : JsString)

def TriggerConfig.type : TriggerConfig N → TriggerType
  | manual => .manual
  | webhook => .webhook
  | form _ => .form
  | slack _ => .slack
  | schedule _ => .schedule

/-- A column `{fields}`. -/
def fieldsColumn (fields : Value N) : Value N := .obj [(ascii "fields", fields)]

/-- The row `INSERT … VALUES (workflowId, type)` makes. -/
def insertedRow (id workflowId : Uuid) (type : TriggerType) : TriggerRow N where
  id := id
  workflowId := workflowId
  type := type
  tokenHash := none
  formSchema := none
  integrationId := none
  binding := none
  cron := none
  nextFireAt := none
  enabled := true

/-- `UPDATE triggers SET … WHERE id = …`. -/
def updateRow (id : Uuid) (patch : TriggerRow N → TriggerRow N) (rows : List (TriggerRow N)) :
    List (TriggerRow N) :=
  rows.map fun row => if row.id = id then patch row else row

/-- `SELECT … LIMIT 1`: any row there is. -/
def SelectOne (rows : List (TriggerRow N)) : Option (TriggerRow N) → Prop
  | some row => row ∈ rows
  | none => rows = []

/-! ## The writes -/

/-- The patch of `syncTriggerForPublish`; `integrationId` is that of the row `upsertTriggerType`
has returned. -/
def publishPatch (enabled : Bool) (config : TriggerConfig N) (now : Nat)
    (integrationId : Option Uuid) (row : TriggerRow N) : TriggerRow N :=
  match config with
  | .schedule cron =>
    { row with
      enabled := enabled
      cron := some cron
      nextFireAt := if enabled then nextCursor cron now else none
      tokenHash := none, binding := none, formSchema := none, integrationId := none }
  | .slack binding =>
    { row with
      enabled := enabled, cron := none, nextFireAt := none
      tokenHash := none, formSchema := none
      binding := if integrationId = none then none else some binding }
  | .form fields =>
    { row with
      enabled := enabled, cron := none, nextFireAt := none
      formSchema := some (fieldsColumn fields), integrationId := none }
  | .webhook =>
    { row with
      enabled := enabled, cron := none, nextFireAt := none
      formSchema := none, integrationId := none }
  | .manual =>
    { row with
      enabled := enabled, cron := none, nextFireAt := none
      tokenHash := none, binding := none, formSchema := none, integrationId := none }

/-- `syncTriggerForPublish` on the rows, `row?` being the one it has selected and `id` that of a
row it inserts. -/
def syncTriggerForPublish (workflowId : Uuid) (enabled : Bool) (config : TriggerConfig N)
    (now : Nat) (id : Uuid) (row? : Option (TriggerRow N)) (rows : List (TriggerRow N)) :
    List (TriggerRow N) :=
  match row? with
  | some row =>
    if row.type = config.type then
      updateRow row.id (publishPatch enabled config now row.integrationId) rows
    else
      updateRow row.id (fun current =>
        publishPatch enabled config now current.integrationId
          { current with type := config.type }) rows
  | none =>
    rows ++ [publishPatch enabled config now none (insertedRow id workflowId config.type)]

/-- The expression `syncTriggerEnabled` arms a schedule with. -/
def enabledCron (published : Option (TriggerConfig N)) (read : TriggerRow N) : Option JsString :=
  match published with
  | some (.schedule cron) => some cron
  | _ => read.cron

/-- The patch of `syncTriggerEnabled`, `read` being the row it has selected. -/
def enabledPatch (enabled : Bool) (published : Option (TriggerConfig N)) (read : TriggerRow N)
    (now : Nat) (row : TriggerRow N) : TriggerRow N :=
  if read.type = .schedule then
    { row with
      enabled := enabled
      nextFireAt :=
        if enabled then
          ((enabledCron published read).filter (· ≠ [])).bind fun cron => nextCursor cron now
        else none }
  else { row with enabled := enabled }

/-- What a trigger row is pointed at: an ingress token, for a form or a webhook, or an
integration. -/
inductive Target (N : Type) where
  | token (tokenHash tokenSuffix : JsString) (fields : Option (Value N))
  | slack (integrationId : Uuid) (binding : Value N)

def Target.type : Target N → TriggerType
  | token _ _ (some _) => .form
  | token _ _ none => .webhook
  | slack _ _ => .slack

/-- `setTriggerToken` and `setSlackBinding`. -/
def Target.set (row : TriggerRow N) : Target N → TriggerRow N
  | token tokenHash tokenSuffix fields =>
    { row with
      type := (token tokenHash tokenSuffix fields).type
      tokenHash := some tokenHash
      enabled := true
      binding := some (.obj [(ascii "tokenSuffix", .str tokenSuffix)])
      formSchema := fields.map fieldsColumn
      integrationId := none }
  | slack integrationId binding =>
    { row with
      type := .slack
      integrationId := some integrationId
      binding := some binding
      tokenHash := none
      enabled := true }

/-- The token `mintToken` makes for a draft, if the draft has a trigger that takes one. -/
def tokenTarget (tokenHash tokenSuffix : JsString) :
    Option (TriggerConfig N) → Option (Target N)
  | some .webhook => some (.token tokenHash tokenSuffix none)
  | some (.form fields) => some (.token tokenHash tokenSuffix (some fields))
  | _ => none

/-! ## Requests -/

inductive WriterPhase (N : Type) where
  | idle
  /-- `publishWorkflow`: the draft is loaded and valid -/
  | publishing (config : TriggerConfig N)
  /-- its transaction has written the workflow -/
  | snapshotting (config : TriggerConfig N) (enabled : Bool)
  /-- and selected the trigger row -/
  | syncing (config : TriggerConfig N) (enabled : Bool) (row? : Option (TriggerRow N))
  /-- `updateWorkflow`: the workflow is loaded -/
  | updating (existing : Bool) (enabled : Option Bool) (draft : Option (Option (TriggerConfig N)))
  /-- the workflow is written and its switch was thrown -/
  | mirroring (enabled : Bool) (published : Option (TriggerConfig N))
  | mirrorRead (enabled : Bool) (published : Option (TriggerConfig N)) (read : TriggerRow N)
  /-- minting a token or binding an integration: checked -/
  | upserting (target : Target N)
  /-- the row selected has another type, or there is none -/
  | upsertRead (target : Target N) (row? : Option (TriggerRow N))
  | upserted (target : Target N) (id : Uuid)
  /-- `claimDueScheduleFire`: the row read is due -/
  | claiming (read : TriggerRow N) (next : Option Nat)

structure TriggerState (N : Type) where
  workflow : WorkflowRow (TriggerConfig N)
  triggers : List (TriggerRow N)
  writers : Nat → WriterPhase N

def TriggerState.init (workflow : WorkflowRow (TriggerConfig N)) : TriggerState N :=
  ⟨workflow, [], fun _ => .idle⟩

/-- `parseWorkflowConfig(workflow.published)`. -/
def TriggerState.published (s : TriggerState N) : Option (TriggerConfig N) :=
  s.workflow.published.join

def TriggerState.setWriter (s : TriggerState N) (p : Nat) (phase : WriterPhase N) :
    TriggerState N :=
  { s with writers := Function.update s.writers p phase }

/-- The request's transaction holds the workflow row. -/
def WriterPhase.holds : WriterPhase N → Option Bool
  | snapshotting _ enabled => some enabled
  | syncing _ enabled _ => some enabled
  | _ => none

/-- The schedule claim that holds the trigger's advisory lock. -/
def WriterPhase.claims : WriterPhase N → Option Uuid
  | claiming read _ => some read.id
  | _ => none

/-- The workflow `updateWorkflow` leaves. -/
def patchWorkflow (enabled : Option Bool) (draft : Option (Option (TriggerConfig N)))
    (workflow : WorkflowRow (TriggerConfig N)) : WorkflowRow (TriggerConfig N) :=
  { workflow with
    enabled := enabled.getD workflow.enabled
    draft := draft.getD workflow.draft }

/-- Where `updateWorkflow` goes on once the workflow is written. -/
def afterUpdate (existing : Bool) (enabled : Option Bool) (published : Option (TriggerConfig N)) :
    WriterPhase N :=
  match enabled with
  | some enabled => if enabled = existing then .idle else .mirroring enabled published
  | none => .idle

inductive TriggerEvent (N : Type) where
  | publish (p : Nat)
  | snapshot (p : Nat)
  | selectForPublish (p : Nat) (row? : Option (TriggerRow N))
  | commit (p : Nat) (id : Uuid) (now : Nat)
  | rollback (p : Nat)
  | update (p : Nat) (enabled : Option Bool) (draft : Option (Option (TriggerConfig N)))
  | writeWorkflow (p : Nat)
  | selectForSwitch (p : Nat) (row? : Option (TriggerRow N))
  | writeSwitch (p : Nat) (now : Nat)
  | mint (p : Nat) (tokenHash tokenSuffix : JsString)
  | bind (p : Nat) (integrationId : Uuid) (binding : Value N)
  | selectForUpsert (p : Nat) (row? : Option (TriggerRow N))
  | retype (p : Nat)
  | insert (p : Nat) (id : Uuid)
  | set (p : Nat)
  | claim (p : Nat) (triggerId : Uuid) (now : Nat)
  | advance (p : Nat)

/-- One request runs to its next `await`.

    publish      refused drafts change nothing and are no step
    snapshot     waits for a transaction that holds the workflow row
    commit       the row is updated or inserted and patched inside the transaction
    claim        waits for a claim of the same trigger; a row that is not due is no step -/
inductive WriterStep : TriggerState N → TriggerEvent N → TriggerState N → Prop
  | publish {s} (p) {config} : s.writers p = .idle → s.workflow.draft = some config →
      WriterStep s (.publish p) (s.setWriter p (.publishing config))
  | snapshot {s} (p) {config} : s.writers p = .publishing config →
      (∀ q, (s.writers q).holds = none) →
      WriterStep s (.snapshot p) (s.setWriter p (.snapshotting config s.workflow.enabled))
  | selectForPublish {s} (p) (row?) {config enabled} :
      s.writers p = .snapshotting config enabled → SelectOne s.triggers row? →
      WriterStep s (.selectForPublish p row?) (s.setWriter p (.syncing config enabled row?))
  | commit {s} (p) (id) (now) {config enabled row?} : s.writers p = .syncing config enabled row? →
      (∀ row ∈ s.triggers, row.id ≠ id) →
      WriterStep s (.commit p id now)
        { s.setWriter p .idle with
          workflow := { s.workflow with published := some (some config) }
          triggers := syncTriggerForPublish s.workflow.id enabled config now id row? s.triggers }
  | rollback {s} (p) : (s.writers p).holds ≠ none → WriterStep s (.rollback p) (s.setWriter p .idle)
  | update {s} (p) (enabled) (draft) : s.writers p = .idle →
      WriterStep s (.update p enabled draft)
        (s.setWriter p (.updating s.workflow.enabled enabled draft))
  | writeWorkflow {s} (p) {existing enabled draft} :
      s.writers p = .updating existing enabled draft → (∀ q, (s.writers q).holds = none) →
      WriterStep s (.writeWorkflow p)
        { s.setWriter p (afterUpdate existing enabled s.published) with
          workflow := patchWorkflow enabled draft s.workflow }
  | switchFound {s} (p) (read) {enabled published} : s.writers p = .mirroring enabled published →
      SelectOne s.triggers (some read) →
      WriterStep s (.selectForSwitch p (some read))
        (s.setWriter p (.mirrorRead enabled published read))
  | switchMissed {s} (p) {enabled published} : s.writers p = .mirroring enabled published →
      SelectOne s.triggers none →
      WriterStep s (.selectForSwitch p none) (s.setWriter p .idle)
  | writeSwitch {s} (p) (now) {enabled published read} :
      s.writers p = .mirrorRead enabled published read →
      WriterStep s (.writeSwitch p now)
        { s.setWriter p .idle with
          triggers := updateRow read.id (enabledPatch enabled published read now) s.triggers }
  | mint {s} (p) (tokenHash) (tokenSuffix) {target} : s.writers p = .idle →
      tokenTarget tokenHash tokenSuffix s.workflow.draft = some target →
      WriterStep s (.mint p tokenHash tokenSuffix) (s.setWriter p (.upserting target))
  | bind {s} (p) (integrationId) (binding) : s.writers p = .idle →
      WriterStep s (.bind p integrationId binding)
        (s.setWriter p (.upserting (.slack integrationId binding)))
  | typeFound {s} (p) (row) {target} : s.writers p = .upserting target →
      SelectOne s.triggers (some row) → row.type = target.type →
      WriterStep s (.selectForUpsert p (some row)) (s.setWriter p (.upserted target row.id))
  | typeMissed {s} (p) (row?) {target} : s.writers p = .upserting target →
      SelectOne s.triggers row? → (∀ row ∈ row?, row.type ≠ target.type) →
      WriterStep s (.selectForUpsert p row?) (s.setWriter p (.upsertRead target row?))
  | retype {s} (p) {target row} : s.writers p = .upsertRead target (some row) →
      WriterStep s (.retype p)
        { s.setWriter p (.upserted target row.id) with
          triggers :=
            updateRow row.id (fun current => { current with type := target.type }) s.triggers }
  | insert {s} (p) (id) {target} : s.writers p = .upsertRead target none →
      (∀ row ∈ s.triggers, row.id ≠ id) →
      WriterStep s (.insert p id)
        { s.setWriter p (.upserted target id) with
          triggers := s.triggers ++ [insertedRow id s.workflow.id target.type] }
  | set {s} (p) {target id} : s.writers p = .upserted target id →
      WriterStep s (.set p)
        { s.setWriter p .idle with
          triggers := updateRow id (fun row => target.set row) s.triggers }
  | claim {s} (p) (read) (now) {window next} : s.writers p = .idle → read ∈ s.triggers →
      (∀ q, (s.writers q).claims ≠ some read.id) →
      claimDueScheduleFire (some read) now = some (window, next) →
      WriterStep s (.claim p read.id now) (s.setWriter p (.claiming read next))
  | advance {s} (p) {read next} : s.writers p = .claiming read next →
      WriterStep s (.advance p)
        { s.setWriter p .idle with
          triggers := updateRow read.id (fun row => { row with nextFireAt := next }) s.triggers }

/-! ## The mirror -/

/-- A next fire is that of an enabled schedule, and an instant its published expression
matches. -/
def TriggerRow.FiresPublished (published : Option (TriggerConfig N)) (row : TriggerRow N) : Prop :=
  ∀ t, row.nextFireAt = some t → row.type = .schedule ∧ row.enabled = true ∧
    ∃ cron, row.cron = some cron ∧ CronMatches cron t ∧ published = some (.schedule cron)

/-- Token, integration and form schema are on rows of the type they belong to. -/
structure TriggerRow.OwnsColumns (row : TriggerRow N) : Prop where
  token : row.tokenHash ≠ none → row.type = .webhook ∨ row.type = .form
  integration : row.integrationId ≠ none → row.type = .slack
  form : row.formSchema ≠ none → row.type = .form

structure TriggerState.Mirrors (s : TriggerState N) : Prop where
  one : s.triggers.length ≤ 1
  enabled : ∀ row ∈ s.triggers, row.enabled = s.workflow.enabled
  fires : ∀ row ∈ s.triggers, row.FiresPublished s.published
  owns : ∀ row ∈ s.triggers, row.OwnsColumns

/-- No request is in flight. -/
def TriggerState.Quiet (s : TriggerState N) : Prop := ∀ p, s.writers p = .idle

/-- The row selected has kept the type that publishing leaves as it is, or there is still none. -/
def StillTyped (config : TriggerConfig N) (rows : List (TriggerRow N)) :
    Option (TriggerRow N) → Prop
  | some row => row.type = config.type → ∀ current ∈ rows, current.type = row.type
  | none => rows = []

/-- What a write has to find.

    commit         the row has the type it had when selected, or there is still none
    writeWorkflow  a switch that needs no mirroring is where the request puts it
    writeSwitch    the switch is still where the request put it, the row's type as selected, and
                   the expression that arms it the row's
    insert         there is still no row
    set            the workflow is enabled, and the row has no next fire and, for Slack, no form
    advance        the row is still an enabled schedule with the expression read -/
def FindsItsRow (m : Move (TriggerState N) (TriggerEvent N)) : Prop :=
  match m.event with
  | .commit p _ _ => ∀ config enabled row?, m.before.writers p = .syncing config enabled row? →
      StillTyped config m.before.triggers row?
  | .writeWorkflow p => ∀ enabled draft,
      m.before.writers p = .updating enabled (some enabled) draft →
      m.before.workflow.enabled = enabled
  | .writeSwitch p _ => ∀ enabled published read,
      m.before.writers p = .mirrorRead enabled published read →
      m.before.workflow.enabled = enabled ∧ ∀ row ∈ m.before.triggers, row.type = read.type ∧
        (read.type = .schedule → enabled = true → row.cron = enabledCron published read)
  | .insert _ _ => m.before.triggers = []
  | .set p => ∀ target id, m.before.writers p = .upserted target id →
      m.before.workflow.enabled = true ∧ ∀ row ∈ m.before.triggers, row.nextFireAt = none ∧
        (target.type = .slack → row.formSchema = none)
  | .advance p => ∀ read next, m.before.writers p = .claiming read next →
      ∀ row ∈ m.before.triggers, row.type = .schedule ∧ row.enabled = true ∧ row.cron = read.cron
  | _ => True

/-! ## The writes, column by column -/

variable {row : TriggerRow N}

theorem Target.type_ne_schedule (target : Target N) : target.type ≠ .schedule := by
  rcases target with ⟨_, _, _ | _⟩ | _
  all_goals exact nofun

/-- A published row of the config's type has what the type owns, and is armed by its
expression. -/
theorem publishPatch_spec (enabled : Bool) {config : TriggerConfig N} (now : Nat)
    (integrationId : Option Uuid) (htype : row.type = config.type) :
    (publishPatch enabled config now integrationId row).enabled = enabled ∧
      (publishPatch enabled config now integrationId row).FiresPublished (some config) ∧
      (publishPatch enabled config now integrationId row).OwnsColumns ∧
      ((publishPatch enabled config now integrationId row).type = .schedule →
        ∃ cron, (publishPatch enabled config now integrationId row).cron = some cron ∧
          config = .schedule cron) := by
  cases config with
  | schedule cron =>
    refine ⟨rfl, fun t ht => ?_, ⟨nofun, nofun, nofun⟩, fun _ => ⟨cron, rfl, rfl⟩⟩
    cases enabled with
    | false => cases ht
    | true => exact ⟨htype, rfl, cron, rfl, (nextCursor_spec ht).2, rfl⟩
  | slack binding =>
    refine ⟨rfl, nofun, ⟨nofun, fun _ => htype, nofun⟩, fun hschedule => ?_⟩
    cases htype.symm.trans hschedule
  | form fields =>
    refine ⟨rfl, nofun, ⟨fun _ => .inr htype, nofun, fun _ => htype⟩, fun hschedule => ?_⟩
    cases htype.symm.trans hschedule
  | webhook =>
    refine ⟨rfl, nofun, ⟨fun _ => .inl htype, nofun, nofun⟩, fun hschedule => ?_⟩
    cases htype.symm.trans hschedule
  | manual =>
    refine ⟨rfl, nofun, ⟨nofun, nofun, nofun⟩, fun hschedule => ?_⟩
    cases htype.symm.trans hschedule

/-- A bound row has what its type owns, unless it had a form that Slack leaves on it. -/
theorem Target.set_spec {target : Target N} (hform : target.type = .slack → row.formSchema = none) :
    (target.set row).enabled = true ∧ (target.set row).OwnsColumns ∧
      (target.set row).type = target.type ∧ (target.set row).nextFireAt = row.nextFireAt := by
  cases target with
  | slack integrationId binding =>
    refine ⟨rfl, ⟨fun h => absurd rfl h, fun _ => rfl, fun h => ?_⟩, rfl, rfl⟩
    exact absurd (hform rfl) h
  | token tokenHash tokenSuffix fields =>
    cases fields with
    | none =>
      exact ⟨rfl, ⟨fun _ => .inl rfl, fun h => absurd rfl h, fun h => absurd rfl h⟩, rfl, rfl⟩
    | some fields =>
      exact ⟨rfl, ⟨fun _ => .inr rfl, fun h => absurd rfl h, fun _ => rfl⟩, rfl, rfl⟩

theorem enabledPatch_frame (enabled : Bool) (published : Option (TriggerConfig N))
    (read : TriggerRow N) (now : Nat) (row : TriggerRow N) :
    (enabledPatch enabled published read now row).enabled = enabled ∧
      (enabledPatch enabled published read now row).type = row.type ∧
      (enabledPatch enabled published read now row).cron = row.cron ∧
      (enabledPatch enabled published read now row).id = row.id ∧
      (row.OwnsColumns → (enabledPatch enabled published read now row).OwnsColumns) := by
  rw [enabledPatch]
  split
  · exact ⟨rfl, rfl, rfl, rfl, fun h => ⟨h.token, h.integration, h.form⟩⟩
  · exact ⟨rfl, rfl, rfl, rfl, fun h => ⟨h.token, h.integration, h.form⟩⟩

theorem publishPatch_id (enabled : Bool) (config : TriggerConfig N) (now : Nat)
    (integrationId : Option Uuid) (row : TriggerRow N) :
    (publishPatch enabled config now integrationId row).id = row.id := by
  cases config
  all_goals rfl

theorem Target.set_id (target : Target N) (row : TriggerRow N) : (target.set row).id = row.id := by
  cases target
  all_goals rfl

theorem updateRow_sole {id : Uuid} {patch : TriggerRow N → TriggerRow N} (hid : row.id = id) :
    updateRow id patch [row] = [patch row] := by
  rw [updateRow, List.map_singleton, if_pos hid]

/-! ## The invariant -/

/-- The request is about to point the row at its target. -/
def WriterPhase.binds : WriterPhase N → Bool
  | upserted _ _ => true
  | _ => false

/-- The request is about to mirror this switch. -/
def WriterPhase.mirrors : WriterPhase N → Option Bool
  | mirroring enabled _ => some enabled
  | mirrorRead enabled _ _ => some enabled
  | _ => none

/-- The row the request has read. -/
def WriterPhase.rowId : WriterPhase N → Option Uuid
  | syncing _ _ row? => row?.map TriggerRow.id
  | mirrorRead _ _ read => some read.id
  | upsertRead _ row? => row?.map TriggerRow.id
  | upserted _ id => some id
  | claiming read _ => some read.id
  | _ => none

theorem WriterPhase.of_holds {phase : WriterPhase N} (h : phase.holds ≠ none) :
    phase.binds = false ∧ phase.mirrors = none := by
  cases phase with
  | snapshotting | syncing => exact ⟨rfl, rfl⟩
  | idle | publishing | updating | mirroring | mirrorRead | upserting | upsertRead | upserted
  | claiming => exact absurd rfl h

structure WriterPhase.Ok (workflow : WorkflowRow (TriggerConfig N)) (triggers : List (TriggerRow N))
    (phase : WriterPhase N) : Prop where
  held : ∀ enabled, phase.holds = some enabled → enabled = workflow.enabled
  known : ∀ id, phase.rowId = some id → ∃ row ∈ triggers, row.id = id
  claim : ∀ read next, phase = .claiming read next →
    ∃ now window, claimDueScheduleFire (some read) now = some (window, next)

/-- A request that holds nothing and is no claim, and the row it has read, if any, is there. -/
theorem WriterPhase.Ok.of_row {workflow : WorkflowRow (TriggerConfig N)}
    {triggers : List (TriggerRow N)} {phase : WriterPhase N} (hholds : phase.holds = none)
    (hclaims : phase.claims = none)
    (hknown : ∀ id, phase.rowId = some id → ∃ row ∈ triggers, row.id = id) :
    phase.Ok workflow triggers := by
  refine ⟨fun enabled hheld => ?_, hknown, fun read next hclaiming => ?_⟩
  · rw [hholds] at hheld
    cases hheld
  · rw [hclaiming] at hclaims
    cases hclaims

theorem WriterPhase.Ok.of_none {workflow : WorkflowRow (TriggerConfig N)}
    {triggers : List (TriggerRow N)} {phase : WriterPhase N} (hholds : phase.holds = none)
    (hclaims : phase.claims = none) (hrow : phase.rowId = none) : phase.Ok workflow triggers := by
  refine .of_row hholds hclaims fun id hid => ?_
  rw [hrow] at hid
  cases hid

def TriggerState.Binding (s : TriggerState N) : Prop := ∃ p, (s.writers p).binds = true

def TriggerState.Switching (s : TriggerState N) : Prop :=
  ∃ p, (s.writers p).mirrors = some s.workflow.enabled

/-- The row mirrors the workflow, or a request is about to see to it. -/
structure RowOk (s : TriggerState N) (row : TriggerRow N) : Prop where
  enabled : s.Binding ∨ s.Switching ∨ row.enabled = s.workflow.enabled
  columns : s.Binding ∨ (row.FiresPublished s.published ∧ row.OwnsColumns)
  schedule : row.type = .schedule →
    ∃ cron, row.cron = some cron ∧ s.published = some (.schedule cron)

structure TriggerInv (s : TriggerState N) : Prop where
  one : s.triggers.length ≤ 1
  ok : ∀ p, (s.writers p).Ok s.workflow s.triggers
  rows : ∀ row ∈ s.triggers, RowOk s row

theorem TriggerInv.init (workflow : WorkflowRow (TriggerConfig N)) :
    TriggerInv (.init workflow) := by
  refine ⟨Nat.zero_le 1, fun p => .of_none rfl rfl rfl, ?_⟩
  exact fun row hrow => absurd hrow List.not_mem_nil

theorem TriggerInv.mirrors {s : TriggerState N} (h : TriggerInv s) (hquiet : s.Quiet) :
    s.Mirrors := by
  have hbinding : ¬ s.Binding := by
    rintro ⟨p, hp⟩
    rw [hquiet p] at hp
    cases hp
  have hswitching : ¬ s.Switching := by
    rintro ⟨p, hp⟩
    rw [hquiet p] at hp
    cases hp
  refine ⟨h.one, fun row hrow => ?_, fun row hrow => ?_, fun row hrow => ?_⟩
  · exact ((h.rows row hrow).enabled.resolve_left hbinding).resolve_left hswitching
  · exact ((h.rows row hrow).columns.resolve_left hbinding).1
  · exact ((h.rows row hrow).columns.resolve_left hbinding).2

section Steps

variable {s : TriggerState N} {p : Nat} {phase phase' : WriterPhase N}

theorem TriggerInv.sole (h : TriggerInv s) {row : TriggerRow N} (hrow : row ∈ s.triggers) :
    s.triggers = [row] := by
  have hone := h.one
  cases htriggers : s.triggers with
  | nil => rw [htriggers] at hrow; cases hrow
  | cons first rest =>
    cases rest with
    | nil =>
      rw [htriggers, List.mem_singleton] at hrow
      rw [hrow]
    | cons second rest =>
      rw [htriggers] at hone
      exact absurd hone (by rw [List.length_cons, List.length_cons]; omega)

/-- A binding request other than `p` still binds. -/
theorem TriggerState.Binding.keep {t : TriggerState N} (h : s.Binding)
    (hp : (s.writers p).binds = true → phase'.binds = true)
    (ht : t.writers = Function.update s.writers p phase') : t.Binding := by
  obtain ⟨q, hq⟩ := h
  refine ⟨q, ?_⟩
  rw [ht]
  by_cases hqp : q = p
  · subst hqp
    rw [Function.update_self]
    exact hp hq
  · rw [Function.update_of_ne hqp]
    exact hq

theorem TriggerState.Switching.keep {t : TriggerState N} (h : s.Switching)
    (hp : ∀ enabled, (s.writers p).mirrors = some enabled → phase'.mirrors = some enabled)
    (ht : t.writers = Function.update s.writers p phase')
    (henabled : t.workflow.enabled = s.workflow.enabled) : t.Switching := by
  obtain ⟨q, hq⟩ := h
  refine ⟨q, ?_⟩
  rw [ht, henabled]
  by_cases hqp : q = p
  · subst hqp
    rw [Function.update_self]
    exact hp _ hq
  · rw [Function.update_of_ne hqp]
    exact hq

theorem TriggerInv.moved (h : TriggerInv s) (hp : s.writers p = phase)
    (hbinds : phase.binds = true → phase'.binds = true)
    (hmirrors : ∀ enabled, phase.mirrors = some enabled → phase'.mirrors = some enabled)
    (hok : phase'.Ok s.workflow s.triggers) : TriggerInv (s.setWriter p phase') := by
  subst hp
  refine ⟨h.one, fun q => ?_, fun row hrow => ?_⟩
  · show (Function.update s.writers p phase' q).Ok s.workflow s.triggers
    by_cases hqp : q = p
    · subst hqp
      rw [Function.update_self]
      exact hok
    · rw [Function.update_of_ne hqp]
      exact h.ok q
  · have hrow := h.rows row hrow
    refine ⟨?_, ?_, hrow.schedule⟩
    · rcases hrow.enabled with hb | hsw | heq
      · exact .inl (hb.keep hbinds rfl)
      · exact .inr (.inl (hsw.keep hmirrors rfl rfl))
      · exact .inr (.inr heq)
    · rcases hrow.columns with hb | hcols
      · exact .inl (hb.keep hbinds rfl)
      · exact .inr hcols

/-- The ids that have been read are those of rows that are still there. -/
theorem WriterPhase.Ok.congr {workflow workflow' : WorkflowRow (TriggerConfig N)}
    {triggers triggers' : List (TriggerRow N)} (h : phase.Ok workflow triggers)
    (henabled : phase.holds ≠ none → workflow'.enabled = workflow.enabled)
    (hids : ∀ row ∈ triggers, ∃ row' ∈ triggers', row'.id = row.id) :
    phase.Ok workflow' triggers' := by
  refine ⟨fun enabled hheld => ?_, fun id hid => ?_, h.claim⟩
  · rw [henabled (by rw [hheld]; exact Option.some_ne_none _)]
    exact h.held enabled hheld
  · obtain ⟨row, hrow, hrid⟩ := h.known id hid
    obtain ⟨row', hrow', hrid'⟩ := hids row hrow
    exact ⟨row', hrow', hrid'.trans hrid⟩

theorem TriggerInv.rewrote (h : TriggerInv s) {row : TriggerRow N} {id : Uuid}
    {patch : TriggerRow N → TriggerRow N} {published : Option (Option (TriggerConfig N))}
    (hrow : s.triggers = [row]) (hid : row.id = id) (hpatch : (patch row).id = row.id)
    (hphase' : phase'.Ok s.workflow [patch row])
    (hok : RowOk { s.setWriter p phase' with
      workflow := { s.workflow with published := published }, triggers := [patch row] }
      (patch row)) :
    TriggerInv { s.setWriter p phase' with
      workflow := { s.workflow with published := published }
      triggers := updateRow id patch s.triggers } := by
  have hnew : updateRow id patch s.triggers = [patch row] := by
    rw [hrow, updateRow_sole hid]
  rw [hnew]
  refine ⟨Nat.le_refl 1, fun q => ?_, ?_⟩
  · have hids : ∀ row' ∈ s.triggers, ∃ row'' ∈ [patch row], row''.id = row'.id := by
      rw [hrow]
      intro row' hrow'
      rw [List.mem_singleton.mp hrow']
      exact ⟨patch row, List.mem_singleton_self _, hpatch⟩
    show (Function.update s.writers p phase' q).Ok _ _
    by_cases hqp : q = p
    · subst hqp
      rw [Function.update_self]
      exact hphase'.congr (fun _ => rfl) fun row hrow => ⟨row, hrow, rfl⟩
    · rw [Function.update_of_ne hqp]
      exact (h.ok q).congr (fun _ => rfl) hids
  · show ∀ row' ∈ [patch row], _
    rw [List.forall_mem_singleton]
    exact hok

theorem TriggerInv.read (h : TriggerInv s) (hp : s.writers p = phase) {id : Uuid}
    (hid : phase.rowId = some id) : ∃ row, s.triggers = [row] ∧ row.id = id := by
  obtain ⟨row, hrow, hrid⟩ := (h.ok p).known id (by rw [hp]; exact hid)
  exact ⟨row, h.sole hrow, hrid⟩

theorem WriterPhase.Ok.idle {workflow : WorkflowRow (TriggerConfig N)}
    {triggers : List (TriggerRow N)} : (WriterPhase.idle : WriterPhase N).Ok workflow triggers :=
  .of_none rfl rfl rfl

theorem TriggerInv.commit (h : TriggerInv s) {config : TriggerConfig N} {enabled : Bool}
    {row? : Option (TriggerRow N)} {id : Uuid} {now : Nat}
    (hp : s.writers p = .syncing config enabled row?)
    (hfinds : StillTyped config s.triggers row?) :
    TriggerInv { s.setWriter p .idle with
      workflow := { s.workflow with published := some (some config) }
      triggers := syncTriggerForPublish s.workflow.id enabled config now id row? s.triggers } := by
  have henabled : enabled = s.workflow.enabled := (h.ok p).held enabled (by rw [hp]; rfl)
  subst henabled
  have hok : ∀ (integrationId : Option Uuid) (current : TriggerRow N), current.type = config.type →
      ∀ triggers, RowOk
        { s.setWriter p .idle with
          workflow := { s.workflow with published := some (some config) }
          triggers := triggers }
        (publishPatch s.workflow.enabled config now integrationId current) := by
    intro integrationId current htype triggers
    obtain ⟨hen, hfires, howns, hcron⟩ :=
      publishPatch_spec s.workflow.enabled now integrationId htype
    refine ⟨.inr (.inr hen), .inr ⟨hfires, howns⟩, fun htype => ?_⟩
    obtain ⟨cron, hcron, hconfig⟩ := hcron htype
    exact ⟨cron, hcron, congrArg some hconfig⟩
  cases row? with
  | some read =>
    obtain ⟨row, hrow, hid⟩ := h.read hp rfl
    rw [syncTriggerForPublish]
    split
    · rename_i htype
      have hcurrent := hfinds htype row (by rw [hrow]; exact List.mem_singleton_self _)
      exact h.rewrote hrow hid (publishPatch_id ..) .idle (hok _ row (hcurrent.trans htype) _)
    · exact h.rewrote hrow hid (publishPatch_id ..) .idle
        (hok _ { row with type := config.type } rfl _)
  | none =>
    have hnone : s.triggers = [] := hfinds
    rw [syncTriggerForPublish, hnone, List.nil_append]
    refine ⟨Nat.le_refl 1, fun q => ?_, ?_⟩
    · show (Function.update s.writers p .idle q).Ok _ _
      by_cases hqp : q = p
      · subst hqp
        rw [Function.update_self]
        exact .idle
      · rw [Function.update_of_ne hqp]
        refine (h.ok q).congr (fun _ => rfl) ?_
        rw [hnone]
        exact fun row hrow => absurd hrow List.not_mem_nil
    · show ∀ row ∈ [_], _
      rw [List.forall_mem_singleton]
      exact hok none (insertedRow id s.workflow.id config.type) rfl _

theorem TriggerInv.writeWorkflow (h : TriggerInv s) {existing : Bool} {enabled : Option Bool}
    {draft : Option (Option (TriggerConfig N))}
    (hp : s.writers p = .updating existing enabled draft)
    (hfree : ∀ q, (s.writers q).holds = none)
    (hfinds : enabled = some existing → s.workflow.enabled = existing) :
    TriggerInv { s.setWriter p (afterUpdate existing enabled s.published) with
      workflow := patchWorkflow enabled draft s.workflow } := by
  have hswitch : (afterUpdate existing enabled s.published).mirrors =
        some (patchWorkflow enabled draft s.workflow).enabled ∨
      (patchWorkflow enabled draft s.workflow).enabled = s.workflow.enabled := by
    cases enabled with
    | none => exact .inr rfl
    | some b =>
      by_cases hb : b = existing
      · subst hb
        exact .inr (hfinds rfl).symm
      · refine .inl ?_
        rw [afterUpdate, if_neg hb]
        rfl
  have hafter : (afterUpdate existing enabled s.published).Ok
      (patchWorkflow enabled draft s.workflow) s.triggers := by
    cases enabled with
    | none => exact .idle
    | some b =>
      rw [afterUpdate]
      split
      · exact .idle
      · exact .of_none rfl rfl rfl
  have hnobinds : (s.writers p).binds = true →
      (afterUpdate existing enabled s.published).binds = true := by
    rw [hp]
    exact nofun
  have hnoswitch : ∀ b, (s.writers p).mirrors = some b →
      (afterUpdate existing enabled s.published).mirrors = some b := by
    rw [hp]
    exact nofun
  refine ⟨h.one, fun q => ?_, fun row hrow => ?_⟩
  · show (Function.update s.writers p _ q).Ok _ s.triggers
    by_cases hqp : q = p
    · subst hqp
      rw [Function.update_self]
      exact hafter
    · rw [Function.update_of_ne hqp]
      exact (h.ok q).congr (fun hheld => absurd (hfree q) hheld) fun row hrow => ⟨row, hrow, rfl⟩
  · have hrow := h.rows row hrow
    refine ⟨?_, ?_, hrow.schedule⟩
    · rcases hswitch with hsw | hsame
      · refine .inr (.inl ⟨p, ?_⟩)
        show (Function.update s.writers p _ p).mirrors = _
        rw [Function.update_self]
        exact hsw
      · rcases hrow.enabled with hb | hsw | heq
        · exact .inl (hb.keep hnobinds rfl)
        · exact .inr (.inl (hsw.keep hnoswitch rfl hsame))
        · exact .inr (.inr (heq.trans hsame.symm))
    · rcases hrow.columns with hb | hcols
      · exact .inl (hb.keep hnobinds rfl)
      · exact .inr hcols

theorem TriggerInv.writeSwitch (h : TriggerInv s) {enabled : Bool}
    {published : Option (TriggerConfig N)} {read : TriggerRow N} {now : Nat}
    (hp : s.writers p = .mirrorRead enabled published read)
    (henabled : s.workflow.enabled = enabled)
    (hfinds : ∀ row ∈ s.triggers, row.type = read.type ∧
      (read.type = .schedule → enabled = true → row.cron = enabledCron published read)) :
    TriggerInv { s.setWriter p .idle with
      triggers := updateRow read.id (enabledPatch enabled published read now) s.triggers } := by
  obtain ⟨row, hrow, hid⟩ := h.read hp rfl
  have hmem : row ∈ s.triggers := by
    rw [hrow]
    exact List.mem_singleton_self _
  obtain ⟨htype, hcron⟩ := hfinds row hmem
  obtain ⟨hen, hty, hcr, hrid, howns⟩ := enabledPatch_frame enabled published read now row
  have hold := h.rows row hmem
  refine h.rewrote hrow hid hrid .idle ⟨.inr (.inr (hen.trans henabled.symm)), ?_, ?_⟩
  · rcases hold.columns with hb | ⟨hfires, hcolumns⟩
    · refine .inl (hb.keep ?_ rfl)
      rw [hp]
      exact nofun
    · refine .inr ⟨fun t ht => ?_, howns hcolumns⟩
      rw [hty, hen, hcr]
      by_cases hschedule : read.type = .schedule
      · rw [enabledPatch, if_pos hschedule] at ht
        cases enabled with
        | false => cases ht
        | true =>
          obtain ⟨cron, hfilter, hnext⟩ := Option.bind_eq_some_iff.mp ht
          have hread := (Option.filter_eq_some_iff.mp hfilter).1
          obtain ⟨cron', hcron', hpublished⟩ := hold.schedule (htype.trans hschedule)
          have heq : cron' = cron := by
            rw [hcron hschedule rfl, hread] at hcron'
            exact (Option.some.inj hcron').symm
          subst heq
          exact ⟨htype.trans hschedule, rfl, cron', hcron', (nextCursor_spec hnext).2, hpublished⟩
      · rw [enabledPatch, if_neg hschedule] at ht
        exact absurd ((hfires t ht).1) (htype ▸ hschedule)
  · rw [hty, hcr]
    exact hold.schedule

/-- The row is given the target's type; the request that does it is going to bind the row. -/
theorem TriggerInv.retype (h : TriggerInv s) {target : Target N} {read : TriggerRow N}
    (hp : s.writers p = .upsertRead target (some read)) :
    TriggerInv { s.setWriter p (.upserted target read.id) with
      triggers :=
        updateRow read.id (fun current => { current with type := target.type }) s.triggers } := by
  obtain ⟨row, hrow, hid⟩ := h.read hp rfl
  have hbinding : ({ s.setWriter p (.upserted target read.id) with
      triggers := [{ row with type := target.type }] } : TriggerState N).Binding := by
    refine ⟨p, ?_⟩
    show (Function.update s.writers p _ p).binds = true
    rw [Function.update_self]
    rfl
  refine h.rewrote hrow hid rfl (.of_row rfl rfl fun id hknown => ?_)
    ⟨.inl hbinding, .inl hbinding, fun htype => absurd htype target.type_ne_schedule⟩
  cases hknown
  exact ⟨_, List.mem_singleton_self _, hid⟩

theorem TriggerInv.insert (h : TriggerInv s) {target : Target N} {id : Uuid}
    (hp : s.writers p = .upsertRead target none) (hnone : s.triggers = []) :
    TriggerInv { s.setWriter p (.upserted target id) with
      triggers := s.triggers ++ [insertedRow id s.workflow.id target.type] } := by
  rw [hnone, List.nil_append]
  have hbinding : ({ s.setWriter p (.upserted target id) with
      triggers := [insertedRow id s.workflow.id target.type] } : TriggerState N).Binding := by
    refine ⟨p, ?_⟩
    show (Function.update s.writers p _ p).binds = true
    rw [Function.update_self]
    rfl
  refine ⟨Nat.le_refl 1, fun q => ?_, ?_⟩
  · show (Function.update s.writers p _ q).Ok _ _
    by_cases hqp : q = p
    · subst hqp
      rw [Function.update_self]
      refine .of_row rfl rfl fun id' hid => ?_
      cases hid
      exact ⟨_, List.mem_singleton_self _, rfl⟩
    · rw [Function.update_of_ne hqp]
      refine (h.ok q).congr (fun _ => rfl) ?_
      rw [hnone]
      exact fun row hrow => absurd hrow List.not_mem_nil
  · show ∀ row ∈ [_], _
    rw [List.forall_mem_singleton]
    exact ⟨.inl hbinding, .inl hbinding, fun htype => absurd htype target.type_ne_schedule⟩

theorem TriggerInv.set (h : TriggerInv s) {target : Target N} {id : Uuid}
    (hp : s.writers p = .upserted target id) (henabled : s.workflow.enabled = true)
    (hfinds : ∀ row ∈ s.triggers, row.nextFireAt = none ∧
      (target.type = .slack → row.formSchema = none)) :
    TriggerInv { s.setWriter p .idle with
      triggers := updateRow id (fun row => target.set row) s.triggers } := by
  obtain ⟨row, hrow, hid⟩ := h.read hp rfl
  obtain ⟨hnext, hform⟩ := hfinds row (by rw [hrow]; exact List.mem_singleton_self _)
  obtain ⟨hen, howns, hty, hfire⟩ := target.set_spec hform
  refine h.rewrote hrow hid (target.set_id row) .idle
    ⟨.inr (.inr (hen.trans henabled.symm)), .inr ⟨fun t ht => ?_, howns⟩, fun htype => ?_⟩
  · rw [hfire, hnext] at ht
    cases ht
  · rw [hty] at htype
    exact absurd htype target.type_ne_schedule

theorem TriggerInv.advance (h : TriggerInv s) {read : TriggerRow N} {next : Option Nat}
    (hp : s.writers p = .claiming read next)
    (hfinds : ∀ row ∈ s.triggers,
      row.type = .schedule ∧ row.enabled = true ∧ row.cron = read.cron) :
    TriggerInv { s.setWriter p .idle with
      triggers := updateRow read.id (fun row => { row with nextFireAt := next }) s.triggers } := by
  obtain ⟨row, hrow, hid⟩ := h.read hp rfl
  have hmem : row ∈ s.triggers := by
    rw [hrow]
    exact List.mem_singleton_self _
  obtain ⟨htype, henabled, hcron⟩ := hfinds row hmem
  have hold := h.rows row hmem
  obtain ⟨now, window, hclaim⟩ := (h.ok p).claim read next hp
  obtain ⟨trigger, cron, hread, hcron', -, -, hnext⟩ := claimDueScheduleFire_spec hclaim
  cases hread
  refine h.rewrote hrow hid rfl .idle ⟨?_, ?_, hold.schedule⟩
  · rcases hold.enabled with hb | hsw | heq
    · refine .inl (hb.keep ?_ rfl)
      rw [hp]
      exact nofun
    · refine .inr (.inl (hsw.keep ?_ rfl rfl))
      rw [hp]
      exact nofun
    · exact .inr (.inr heq)
  · rcases hold.columns with hb | ⟨-, howns⟩
    · refine .inl (hb.keep ?_ rfl)
      rw [hp]
      exact nofun
    · refine .inr ⟨fun t ht => ?_, howns.token, howns.integration, howns.form⟩
      obtain ⟨published, hpub, hpublished⟩ := hold.schedule htype
      have heq : published = cron := by
        rw [hcron, hcron'] at hpub
        exact (Option.some.inj hpub).symm
      subst heq
      refine ⟨htype, henabled, published, hpub, ?_, hpublished⟩
      have ht : next = some t := ht
      rw [hnext] at ht
      exact (nextCursor_spec ht).2

end Steps

/-! ## Runs -/

theorem TriggerInv.step {s t : TriggerState N} {e : TriggerEvent N} (hstep : WriterStep s e t)
    (hgood : FindsItsRow ⟨s, e, t⟩) (h : TriggerInv s) : TriggerInv t := by
  cases hstep with
  | publish p hp _ => exact h.moved hp nofun nofun (.of_none rfl rfl rfl)
  | snapshot p hp _ =>
    refine h.moved hp nofun nofun ⟨fun enabled henabled => ?_, nofun, fun _ _ hclaim => ?_⟩
    · exact (Option.some.inj henabled).symm
    · cases hclaim
  | @selectForPublish p row? config enabled hp hrow =>
    refine h.moved hp nofun nofun ⟨fun b hb => ?_, fun id hid => ?_, fun _ _ hclaim => ?_⟩
    · cases hb
      exact (h.ok p).held enabled (by rw [hp]; rfl)
    · cases row? with
      | none => cases hid
      | some row =>
        cases hid
        exact ⟨row, hrow, rfl⟩
    · cases hclaim
  | commit p id now hp _ => exact h.commit hp (hgood _ _ _ hp)
  | rollback p hheld =>
    obtain ⟨hbinds, hmirrors⟩ := WriterPhase.of_holds hheld
    exact h.moved rfl (fun hb => absurd hb (by rw [hbinds]; decide))
      (fun _ hm => absurd hm (by rw [hmirrors]; exact nofun)) .idle
  | update p enabled draft hp => exact h.moved hp nofun nofun (.of_none rfl rfl rfl)
  | @writeWorkflow p existing enabled draft hp hfree =>
    refine h.writeWorkflow hp hfree fun hsame => ?_
    subst hsame
    exact hgood _ _ hp
  | switchFound p read hp hread =>
    refine h.moved hp nofun (fun _ henabled => henabled) (.of_row rfl rfl fun id hid => ?_)
    cases hid
    exact ⟨read, hread, rfl⟩
  | switchMissed p hp hnone =>
    have hrows : s.triggers = [] := hnone
    refine ⟨h.one, fun q => ?_, fun row hrow => absurd hrow (by
      rw [show (s.setWriter p .idle).triggers = [] from hrows]
      exact List.not_mem_nil)⟩
    show (Function.update s.writers p _ q).Ok _ _
    by_cases hqp : q = p
    · subst hqp
      rw [Function.update_self]
      exact .idle
    · rw [Function.update_of_ne hqp]
      exact h.ok q
  | writeSwitch p now hp =>
    obtain ⟨henabled, hfinds⟩ := hgood _ _ _ hp
    exact h.writeSwitch hp henabled hfinds
  | mint p tokenHash tokenSuffix hp _ => exact h.moved hp nofun nofun (.of_none rfl rfl rfl)
  | bind p integrationId binding hp => exact h.moved hp nofun nofun (.of_none rfl rfl rfl)
  | typeFound p row hp hrow _ =>
    refine h.moved hp nofun nofun (.of_row rfl rfl fun id hid => ?_)
    cases hid
    exact ⟨row, hrow, rfl⟩
  | typeMissed p row? hp hrow _ =>
    refine h.moved hp nofun nofun (.of_row rfl rfl fun id hid => ?_)
    cases row? with
    | none => cases hid
    | some row =>
      cases hid
      exact ⟨row, hrow, rfl⟩
  | retype p hp => exact h.retype hp
  | insert p id hp _ => exact h.insert hp hgood
  | set p hp =>
    obtain ⟨henabled, hfinds⟩ := hgood _ _ hp
    exact h.set hp henabled hfinds
  | claim p read now hp hread _ hclaim =>
    refine h.moved hp nofun nofun ⟨nofun, fun id hid => ?_, fun read' next' heq => ?_⟩
    · cases hid
      exact ⟨read, hread, rfl⟩
    · cases heq
      exact ⟨now, _, hclaim⟩
  | advance p hp => exact h.advance hp (hgood _ _ hp)

/-- While every write finds its row, the row mirrors its workflow whenever nothing is in
flight. -/
theorem trigger_row_mirrors {workflow : WorkflowRow (TriggerConfig N)} {s : TriggerState N}
    {moves : List (Move (TriggerState N) (TriggerEvent N))}
    (h : Trace WriterStep (.init workflow) moves s) (hgood : ∀ m ∈ moves, FindsItsRow m) :
    (s.Quiet → s.Mirrors) ∧ ∀ m ∈ moves, m.after.Quiet → m.after.Mirrors := by
  constructor
  · exact (h.invariant TriggerInv FindsItsRow (fun _ hstep hgood hinv => hinv.step hstep hgood)
      hgood (.init workflow)).mirrors
  · refine h.forall_of TriggerInv FindsItsRow (fun m hstep hgood hinv => ?_) hgood (.init workflow)
    have hafter := hinv.step hstep hgood
    exact ⟨hafter.mirrors, hafter⟩

/-! ## Minting -/

/-- A workflow whose draft has a webhook. -/
def webhookWorkflow (enabled : Bool) : WorkflowRow (TriggerConfig Int) where
  id := .w
  organizationId := ascii "org"
  enabled := enabled
  draft := some .webhook
  published := none

/-- Nobody else holds the row. -/
theorem holds_none_of_alone {p : Nat} {writers : Nat → WriterPhase N}
    (h : Alone .idle p writers) (hp : (writers p).holds = none) (q : Nat) :
    (writers q).holds = none :=
  h.forall_of (P := fun phase => phase.holds = none) hp rfl q

/-- A webhook is published, and a token is minted for it. -/
theorem trigger_row_mirrors_webhook : ∃ (s : TriggerState Int) (moves : List _),
    Trace WriterStep (.init (webhookWorkflow true)) moves s ∧ s.Mirrors ∧
      s.triggers.map TriggerRow.tokenHash = [some (ascii "hash")] := by
  have h : Trace WriterStep (.init (webhookWorkflow true)) _ _ :=
    .cons (.publish 0 rfl rfl) <|
    .cons (.snapshot 0 rfl (holds_none_of_alone Alone.init.update rfl)) <|
    .cons (.selectForPublish 0 none rfl rfl) <|
    .cons (.commit 0 .t 0 rfl fun row hrow => absurd hrow List.not_mem_nil) <|
    .cons (.mint 0 (ascii "hash") (ascii "hash") rfl rfl) <|
    .cons (.typeFound 0 _ rfl (List.mem_singleton_self _) rfl) <| .cons (.set 0 rfl) <| .nil _
  refine ⟨_, _, h, (trigger_row_mirrors h ?_).1 ?_, rfl⟩
  · simp only [List.forall_mem_cons, List.not_mem_nil, false_implies, implies_true, and_true]
    refine ⟨trivial, trivial, trivial, ?_, trivial, trivial, ?_⟩
    · intro config enabled row? hp
      cases hp
      rfl
    · intro target id hp
      cases hp
      refine ⟨rfl, fun row hrow => ?_⟩
      cases List.mem_singleton.mp hrow
      refine ⟨rfl, ?_⟩
      intro hcron
      cases hcron
  · exact Alone.init.update.update.update.update.update.update.update.quiet rfl

/-- A token for a disabled workflow that has no row yet; and two requests that mint the first
tokens of a workflow. -/
theorem mint_breaks_mirror :
    (∃ (s : TriggerState Int) (moves : List _),
      Trace WriterStep (.init (webhookWorkflow false)) moves s ∧ s.Quiet ∧
        s.workflow.enabled = false ∧ s.triggers.map TriggerRow.enabled = [true] ∧ ¬ s.Mirrors) ∧
    ∃ (s : TriggerState Int) (moves : List _),
      Trace WriterStep (.init (webhookWorkflow true)) moves s ∧ s.Quiet ∧
        s.triggers.map TriggerRow.id = [.t, .w] ∧ ¬ s.Mirrors := by
  constructor
  · have h : Trace WriterStep (.init (webhookWorkflow false)) _ _ :=
      .cons (.mint 0 (ascii "hash") (ascii "hash") rfl rfl) <|
      .cons (.typeMissed 0 none rfl rfl nofun) <|
      .cons (.insert 0 .t rfl fun row hrow => absurd hrow List.not_mem_nil) <|
      .cons (.set 0 rfl) <| .nil _
    refine ⟨_, _, h, Alone.init.update.update.update.update.quiet rfl, rfl, rfl, fun hmirrors => ?_⟩
    cases hmirrors.enabled _ (List.mem_singleton_self _)
  · have h : Trace WriterStep (.init (webhookWorkflow true)) _ _ :=
      .cons (.mint 0 (ascii "hash") (ascii "hash") rfl rfl) <|
      .cons (.mint 1 (ascii "hash2") (ascii "hash2") rfl rfl) <|
      .cons (.typeMissed 0 none rfl rfl nofun) <| .cons (.typeMissed 1 none rfl rfl nofun) <|
      .cons (.insert 0 .t rfl fun row hrow => absurd hrow List.not_mem_nil) <|
      .cons (.insert 1 .w rfl (by
        intro row hrow
        cases List.mem_singleton.mp hrow
        decide)) <|
      .cons (.set 0 rfl) <| .cons (.set 1 rfl) <| .nil _
    refine ⟨_, _, h, ?_, rfl, fun hmirrors => absurd hmirrors.one (by decide)⟩
    rintro (_ | _ | q)
    all_goals rfl

end InvisibleString.Triggers
