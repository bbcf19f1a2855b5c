import InvisibleString.Lib.Json
import InvisibleString.Lib.Transition
import Mathlib.Data.List.Basic

/- # `Builds.Records` — what the records of a build say

Publishing an agent inserts a version row and asks for a build of the compiled files.  Calls for
one content hash share the build in flight.  A build writes its status to the `builds` row and
then to every version row of the hash there is at that moment; it leaves the map of builds in
flight a little later.

**Proved here.**

    one build of the hash runs at a time, and a succeeded status names an artifact that a build
      stored after it had provisioned the world
    when no call joins a build that has written its outcome while a version row is still pending,
      then whenever no build runs, the records carry the outcome of the last one
                                                                        (`build_records_agree`)
    a publish that joins too late leaves its version row pending  (`late_publish_pending`)
-/

namespace InvisibleString.Builds

open Json Transition

/-! ## Rows -/

inductive BuildStatus where
  | pending
  | building
  | succeeded
  | failed
  deriving DecidableEq

/-- The row of `builds` under the hash. -/
structure BuildRecord where
  status : BuildStatus
  artifactKey : Option JsString
  errorLog : Option JsString

/-- A row of `agent_versions` with the hash; an agent has at most one. -/
structure AgentVersion where
  agentId : Nat
  buildStatus : BuildStatus

structure BuildTables where
  record : Option BuildRecord
  versions : List AgentVersion

def BuildTables.setVersionsStatus (status : BuildStatus) (tables : BuildTables) : BuildTables :=
  { tables with versions := tables.versions.map fun version =>
      { version with buildStatus := status } }

/-- The insert or update of `markBuilding`. -/
def BuildTables.upsertBuilding (tables : BuildTables) : BuildTables :=
  { tables with record := some ⟨.building, none, none⟩ }

/-- The first update of `markSucceeded`. -/
def BuildTables.updateSucceeded (artifactKey : JsString) (tables : BuildTables) : BuildTables :=
  { tables with record := tables.record.map fun _ => ⟨.succeeded, some artifactKey, none⟩ }

/-- The first update of `markFailed`. -/
def BuildTables.updateFailed (errorLog : JsString) (tables : BuildTables) : BuildTables :=
  { tables with record := tables.record.map fun record =>
      { record with status := .failed, errorLog := some errorLog } }

/-! ## Builds -/

/-- `status` is `succeeded` or `failed`. -/
structure BuildOutcome where
  status : BuildStatus
  artifactKey : Option JsString
  errorLog : Option JsString
  cached : Bool

inductive BuildStage where
  | writeFiles
  | install
  | eveBuild
  | provisionWorld
  | packageArtifact
  | putArtifact

/-- Where `runBuild` awaits. -/
inductive BuildPhase where
  | idle
  /-- `store.get` -/
  | reading
  | checkingArtifact (artifactKey : JsString)
  | checkingWorld (artifactKey : JsString)
  /-- the two updates of `markSucceeded` for a cached build -/
  | syncing (artifactKey : JsString)
  | syncingVersions (artifactKey : JsString)
  /-- `markBuilding` -/
  | marking
  | markingVersions
  | building (stage : BuildStage)
  /-- `markSucceeded` -/
  | succeeding
  | succeedingVersions
  /-- `markFailed` -/
  | failing (errorLog : JsString)
  | failingVersions (errorLog : JsString)
  /-- `runBuild` has an outcome; the build is in flight until `finally` has run -/
  | returning (outcome : BuildOutcome)
  | throwing
  /-- the promise is resolved, or rejected -/
  | settled (outcome : Option BuildOutcome)

def BuildPhase.running : BuildPhase → Bool
  | idle | settled _ => false
  | _ => true

/-- Where the cached row leads. -/
def afterGet : Option BuildRecord → BuildPhase
  | some ⟨.succeeded, some artifactKey, _⟩ => .checkingArtifact artifactKey
  | _ => .marking

/-- After a stage; the last one is `artifacts.put`. -/
def BuildStage.next : BuildStage → BuildPhase
  | writeFiles => .building .install
  | install => .building .eveBuild
  | eveBuild => .building .provisionWorld
  | provisionWorld => .building .packageArtifact
  | packageArtifact => .building .putArtifact
  | putArtifact => .succeeding

/-- The phases that write to the database. -/
def BuildPhase.writes : BuildPhase → Bool
  | syncing _ | syncingVersions _ | marking | markingVersions | succeeding | succeedingVersions
  | failing _ | failingVersions _ => true
  | _ => false

section Statements

variable (key : JsString)

/-- The statement of a phase; `key` is the artifact key for the hash. -/
def BuildPhase.statement : BuildPhase → BuildTables → BuildTables
  | syncing artifactKey => .updateSucceeded artifactKey
  | syncingVersions _ => .setVersionsStatus .succeeded
  | marking => .upsertBuilding
  | markingVersions => .setVersionsStatus .building
  | succeeding => .updateSucceeded key
  | succeedingVersions => .setVersionsStatus .succeeded
  | failing errorLog => .updateFailed errorLog
  | failingVersions _ => .setVersionsStatus .failed
  | _ => id

def BuildPhase.next : BuildPhase → BuildPhase
  | syncing artifactKey => syncingVersions artifactKey
  | syncingVersions artifactKey => returning ⟨.succeeded, some artifactKey, none, true⟩
  | marking => markingVersions
  | markingVersions => building .writeFiles
  | succeeding => succeedingVersions
  | succeedingVersions => returning ⟨.succeeded, some key, none, false⟩
  | failing errorLog => failingVersions errorLog
  | failingVersions errorLog => returning ⟨.failed, none, some errorLog, false⟩
  | phase => phase

end Statements

/-- Where an error leads: what is inside of the `try` marks the build failed. -/
def BuildPhase.caught (errorLog : JsString) : BuildPhase → BuildPhase
  | building _ | succeeding | succeedingVersions => failing errorLog
  | _ => throwing

/-! ## Publishes -/

/-- Where `publishAgent` awaits. -/
inductive PublishPhase where
  | idle
  | selecting (agentId : Nat)
  | inserting (agentId : Nat)
  /-- another publish of the agent has inserted the row -/
  | adopting (agentId : Nat)
  /-- `agents.published_version_id` -/
  | pointing (agentId : Nat)
  /-- `buildStore.get` -/
  | reading (agentId : Nat)
  | calling (agentId : Nat) (pre : Option BuildRecord)
  /-- the promise of build `n` -/
  | awaiting (n : Nat)

/-- Was the build known to have succeeded? -/
def isReady : Option BuildRecord → Bool
  | some ⟨.succeeded, some _, _⟩ => true
  | _ => false

/-! ## The system -/

structure BuildState where
  tables : BuildTables
  /-- is there an artifact under the key, and a world database -/
  artifact : Bool
  world : Bool
  builds : Nat → BuildPhase
  /-- builds begun so far -/
  begun : Nat
  inFlight : Option Nat
  publishers : Nat → PublishPhase
  /-- how many version rows there were at the last call that got the promise of a build -/
  seen : Nat → Nat
  /-- the builds that have provisioned the world, and what each has stored -/
  provisioned : List Nat
  stored : List (JsString × Nat)
  /-- the last build that finished, with its outcome, unless an error of the database ended it -/
  last : Option (Nat × BuildOutcome)

def BuildState.initial : BuildState where
  tables := ⟨none, []⟩
  artifact := false
  world := false
  builds := fun _ => .idle
  begun := 0
  inFlight := none
  publishers := fun _ => .idle
  seen := fun _ => 0
  provisioned := []
  stored := []
  last := none

namespace BuildState

variable (s : BuildState)

def setBuild (n : Nat) (phase : BuildPhase) : BuildState :=
  { s with builds := Function.update s.builds n phase }

def setPublisher (p : Nat) (phase : PublishPhase) : BuildState :=
  { s with publishers := Function.update s.publishers p phase }

/-- The promise of `ensureBuild`. -/
def promise : Nat := s.inFlight.getD s.begun

/-- `ensureBuild` up to its first `await`. -/
def ensureBuild : BuildState :=
  match s.inFlight with
  | some n => { s with seen := Function.update s.seen n s.tables.versions.length }
  | none =>
    { s with
      builds := Function.update s.builds s.begun .reading
      begun := s.begun + 1
      inFlight := some s.begun
      seen := Function.update s.seen s.begun s.tables.versions.length }

def insertVersion (agentId : Nat) : BuildState :=
  { s with tables :=
    { s.tables with versions := s.tables.versions ++ [⟨agentId, .pending⟩] } }

/-- The effect of a stage. -/
def stageDone (n : Nat) (key : JsString) : BuildStage → BuildState
  | .provisionWorld => { s with world := true, provisioned := n :: s.provisioned }
  | .putArtifact => { s with artifact := true, stored := (key, n) :: s.stored }
  | _ => s

/-- The promise settles and the build leaves the map. -/
def settle (n : Nat) (outcome : Option BuildOutcome) : BuildState :=
  { s.setBuild n (.settled outcome) with
    inFlight := none
    last := outcome.map fun outcome => (n, outcome) }

end BuildState

inductive BuildEvent where
  | publish (p agentId : Nat)
  | select (p : Nat)
  | insert (p : Nat)
  | adopt (p : Nat)
  | point (p : Nat)
  | read (p : Nat)
  | call (p : Nat)
  | answer (p : Nat)
  | abort (p : Nat)
  | ensure
  | get (n : Nat)
  | artifactExists (n : Nat)
  | worldExists (n : Nat)
  | stage (n : Nat)
  | write (n : Nat)
  | fault (n : Nat)
  | settle (n : Nat)
  | outside

/-- One publish, or the build, runs to its next `await`.

    call        `ensureBuild` in a publish; `ensure` is any other call
    abort       a publish fails before its call
    fault       a stage fails, or the database or the store does; a statement may have been
                executed all the same
    outside     the artifact or the world database is removed or left behind -/
inductive BuildMoves (checksWorld : Bool) (key : JsString) :
    BuildState → BuildEvent → BuildState → Prop
  | publish {s} (p agentId) : s.publishers p = .idle →
      BuildMoves checksWorld key s (.publish p agentId) (s.setPublisher p (.selecting agentId))
  | selectFound {s} (p) {agentId} : s.publishers p = .selecting agentId →
      (∃ version ∈ s.tables.versions, version.agentId = agentId) →
      BuildMoves checksWorld key s (.select p) (s.setPublisher p (.pointing agentId))
  | selectNone {s} (p) {agentId} : s.publishers p = .selecting agentId →
      (∀ version ∈ s.tables.versions, version.agentId ≠ agentId) →
      BuildMoves checksWorld key s (.select p) (s.setPublisher p (.inserting agentId))
  | insert {s} (p) {agentId} : s.publishers p = .inserting agentId →
      (∀ version ∈ s.tables.versions, version.agentId ≠ agentId) →
      BuildMoves checksWorld key s (.insert p)
        ((s.insertVersion agentId).setPublisher p (.pointing agentId))
  | insertLost {s} (p) {agentId} : s.publishers p = .inserting agentId →
      (∃ version ∈ s.tables.versions, version.agentId = agentId) →
      BuildMoves checksWorld key s (.insert p) (s.setPublisher p (.adopting agentId))
  | adopt {s} (p) {agentId} : s.publishers p = .adopting agentId →
      BuildMoves checksWorld key s (.adopt p) (s.setPublisher p (.pointing agentId))
  | point {s} (p) {agentId} : s.publishers p = .pointing agentId →
      BuildMoves checksWorld key s (.point p) (s.setPublisher p (.reading agentId))
  | read {s} (p) {agentId} : s.publishers p = .reading agentId →
      BuildMoves checksWorld key s (.read p)
        (s.setPublisher p (.calling agentId s.tables.record))
  | call {s} (p) {agentId pre} : s.publishers p = .calling agentId pre →
      BuildMoves checksWorld key s (.call p)
        (s.ensureBuild.setPublisher p (if isReady pre then .awaiting s.promise else .idle))
  | answer {s} (p) {n outcome} : s.publishers p = .awaiting n → s.builds n = .settled outcome →
      BuildMoves checksWorld key s (.answer p) (s.setPublisher p .idle)
  | abort {s} (p) : BuildMoves checksWorld key s (.abort p) (s.setPublisher p .idle)
  | ensure {s} : BuildMoves checksWorld key s .ensure s.ensureBuild
  | get {s} (n) : s.builds n = .reading →
      BuildMoves checksWorld key s (.get n) (s.setBuild n (afterGet s.tables.record))
  | artifactExists {s} (n) {artifactKey} : s.builds n = .checkingArtifact artifactKey →
      BuildMoves checksWorld key s (.artifactExists n)
        (s.setBuild n (if s.artifact then .checkingWorld artifactKey else .marking))
  | worldExists {s} (n) {artifactKey} : s.builds n = .checkingWorld artifactKey →
      BuildMoves checksWorld key s (.worldExists n)
        (s.setBuild n (if checksWorld && !s.world then .marking else .syncing artifactKey))
  | stage {s} (n) {stage} : s.builds n = .building stage →
      BuildMoves checksWorld key s (.stage n) ((s.stageDone n key stage).setBuild n stage.next)
  | write {s} (n) : (s.builds n).writes = true →
      BuildMoves checksWorld key s (.write n)
        { s.setBuild n ((s.builds n).next key) with
          tables := (s.builds n).statement key s.tables }
  | fault {s} (n) (errorLog) : (s.builds n).running = true →
      (∀ outcome, s.builds n ≠ .returning outcome) →
      BuildMoves checksWorld key s (.fault n) (s.setBuild n ((s.builds n).caught errorLog))
  | faultExecuted {s} (n) (errorLog) : (s.builds n).writes = true →
      BuildMoves checksWorld key s (.fault n)
        { s.setBuild n ((s.builds n).caught errorLog) with
          tables := (s.builds n).statement key s.tables }
  | resolve {s} (n) {outcome} : s.builds n = .returning outcome →
      BuildMoves checksWorld key s (.settle n) (s.settle n (some outcome))
  | reject {s} (n) : s.builds n = .throwing →
      BuildMoves checksWorld key s (.settle n) (s.settle n none)
  | outside {s} (artifact world) :
      BuildMoves checksWorld key s .outside { s with artifact := artifact, world := world }

/-! ## Agreement -/

/-- A build has stored the artifact and had provisioned the world. -/
def BuildState.Stored (s : BuildState) (artifactKey : JsString) : Prop :=
  ∃ n, (artifactKey, n) ∈ s.stored ∧ n ∈ s.provisioned

/-- The records and the builds. -/
structure BuildState.Agrees (s : BuildState) : Prop where
  /-- with no build running, the records carry the outcome of the last build: the `builds` row, and
  every version row that was there at a call whose promise has resolved -/
  outcome : (∀ n, (s.builds n).running = false) → ∀ m last, s.last = some (m, last) →
    (∃ record, s.tables.record = some record ∧ record.status = last.status) ∧
      ∀ n resolved, s.builds n = .settled (some resolved) →
        ∀ version ∈ s.tables.versions.take (s.seen n), version.buildStatus = last.status
  /-- a succeeded status names a stored artifact -/
  artifact : ∀ record, s.tables.record = some record → record.status = .succeeded →
    ∃ artifactKey, record.artifactKey = some artifactKey ∧ s.Stored artifactKey
  single : ∀ n m, (s.builds n).running = true → (s.builds m).running = true → n = m

/-- A call that joins a build which has written its outcome finds no version row pending. -/
def JoinsInTime (m : Move BuildState BuildEvent) : Prop :=
  match m.event with
  | .call _ | .ensure => ∀ n outcome, m.before.inFlight = some n →
      m.before.builds n = .returning outcome →
      ∀ version ∈ m.before.tables.versions, version.buildStatus ≠ .pending
  | _ => True


/-! ## The invariant -/

/-- What every succeeded record names. -/
def Named (tables : BuildTables) (provisioned : List Nat) (stored : List (JsString × Nat)) : Prop :=
  ∀ record, tables.record = some record → record.status = .succeeded →
    ∃ artifactKey, record.artifactKey = some artifactKey ∧
      ∃ n, (artifactKey, n) ∈ stored ∧ n ∈ provisioned

def BuildTables.RecordIs (tables : BuildTables) (status : BuildStatus) : Prop :=
  ∃ record, tables.record = some record ∧ record.status = status

/-- The version rows that calls have seen have the status. -/
def Covered (status : BuildStatus) (versions : List AgentVersion) (seen : Nat → Nat) : Prop :=
  ∀ n, ∀ version ∈ versions.take (seen n), version.buildStatus = status

/-- What a build knows. -/
def BuildPhase.Ok (key : JsString) (n : Nat) (tables : BuildTables) (seen : Nat → Nat)
    (provisioned : List Nat) (stored : List (JsString × Nat)) : BuildPhase → Prop
  | checkingArtifact artifactKey | checkingWorld artifactKey | syncing artifactKey =>
    tables.record ≠ none ∧ ∃ m, (artifactKey, m) ∈ stored ∧ m ∈ provisioned
  | syncingVersions _ => tables.RecordIs .succeeded
  | markingVersions => tables.record ≠ none
  | building .packageArtifact | building .putArtifact =>
    tables.record ≠ none ∧ n ∈ provisioned
  | building _ => tables.record ≠ none
  | succeeding => tables.record ≠ none ∧ (key, n) ∈ stored ∧ n ∈ provisioned
  | succeedingVersions => tables.RecordIs .succeeded
  | failing _ => tables.record ≠ none
  | failingVersions _ => tables.RecordIs .failed
  | returning outcome => tables.RecordIs outcome.status ∧
      Covered outcome.status tables.versions seen ∧
      ∀ version ∈ tables.versions,
        version.buildStatus = outcome.status ∨ version.buildStatus = .pending
  | _ => True

structure BuildInv (key : JsString) (s : BuildState) : Prop where
  flight : ∀ n, (s.builds n).running = true ↔ s.inFlight = some n
  fresh : ∀ n, s.begun ≤ n → s.builds n = .idle
  bound : ∀ n, s.seen n ≤ s.tables.versions.length
  ok : ∀ n, (s.builds n).Ok key n s.tables s.seen s.provisioned s.stored
  named : Named s.tables s.provisioned s.stored
  agreed : s.inFlight = none → ∀ m last, s.last = some (m, last) →
    s.tables.RecordIs last.status ∧ Covered last.status s.tables.versions s.seen

section Statements

variable {tables : BuildTables} {status : BuildStatus}

theorem recordIs_ne_none (h : tables.RecordIs status) : tables.record ≠ none := by
  obtain ⟨record, hrecord, -⟩ := h
  rw [hrecord]
  nofun

theorem recordIs_updateSucceeded (h : tables.record ≠ none) (artifactKey : JsString) :
    (tables.updateSucceeded artifactKey).RecordIs .succeeded := by
  obtain ⟨record, hrecord⟩ := Option.ne_none_iff_exists'.mp h
  exact ⟨_, congrArg (Option.map _) hrecord, rfl⟩

theorem recordIs_updateFailed (h : tables.record ≠ none) (errorLog : JsString) :
    (tables.updateFailed errorLog).RecordIs .failed := by
  obtain ⟨record, hrecord⟩ := Option.ne_none_iff_exists'.mp h
  exact ⟨_, congrArg (Option.map _) hrecord, rfl⟩

/-- Every row there is gets the status. -/
theorem status_of_mem_setVersionsStatus {version : AgentVersion}
    (h : version ∈ (tables.setVersionsStatus status).versions) : version.buildStatus = status := by
  obtain ⟨before, -, rfl⟩ := List.mem_map.mp h
  rfl

theorem covered_setVersionsStatus (seen : Nat → Nat) :
    Covered status (tables.setVersionsStatus status).versions seen :=
  fun _ _ hversion => status_of_mem_setVersionsStatus (List.mem_of_mem_take hversion)

theorem returning_ok {key : JsString} {n : Nat} {seen : Nat → Nat} {provisioned : List Nat}
    {stored : List (JsString × Nat)} {outcome : BuildOutcome}
    (h : tables.RecordIs outcome.status) :
    (BuildPhase.returning outcome).Ok key n (tables.setVersionsStatus outcome.status) seen
      provisioned stored :=
  ⟨h, covered_setVersionsStatus seen, fun _ hversion =>
    .inl (status_of_mem_setVersionsStatus hversion)⟩

theorem length_statement (key : JsString) (phase : BuildPhase) :
    (phase.statement key tables).versions.length = tables.versions.length := by
  cases phase with
  | syncingVersions | markingVersions | succeedingVersions | failingVersions =>
    exact List.length_map _
  | _ => rfl

variable {key : JsString} {n : Nat} {seen : Nat → Nat} {provisioned : List Nat}
  {stored : List (JsString × Nat)} {phase : BuildPhase}

theorem named_updateSucceeded {artifactKey : JsString}
    (h : ∃ m, (artifactKey, m) ∈ stored ∧ m ∈ provisioned) :
    Named (tables.updateSucceeded artifactKey) provisioned stored := by
  intro record hrecord _
  obtain ⟨before, -, rfl⟩ := Option.map_eq_some_iff.mp hrecord
  exact ⟨artifactKey, rfl, h⟩

theorem named_statement (hok : phase.Ok key n tables seen provisioned stored)
    (hnamed : Named tables provisioned stored) :
    Named (phase.statement key tables) provisioned stored := by
  cases phase with
  | syncing artifactKey => exact named_updateSucceeded hok.2
  | succeeding => exact named_updateSucceeded ⟨n, hok.2⟩
  | marking =>
    intro record hrecord hstatus
    cases hrecord
    cases hstatus
  | failing errorLog =>
    intro record hrecord hstatus
    obtain ⟨before, -, rfl⟩ := Option.map_eq_some_iff.mp hrecord
    cases hstatus
  | _ => exact hnamed

theorem next_ok (hok : phase.Ok key n tables seen provisioned stored)
    (hwrites : phase.writes = true) :
    (phase.next key).running = true ∧
      (phase.next key).Ok key n (phase.statement key tables) seen provisioned stored := by
  cases phase with
  | syncing artifactKey => exact ⟨rfl, recordIs_updateSucceeded hok.1 artifactKey⟩
  | syncingVersions artifactKey => exact ⟨rfl, returning_ok hok⟩
  | marking => exact ⟨rfl, nofun⟩
  | markingVersions => exact ⟨rfl, hok⟩
  | succeeding => exact ⟨rfl, recordIs_updateSucceeded hok.1 key⟩
  | succeedingVersions => exact ⟨rfl, returning_ok hok⟩
  | failing errorLog => exact ⟨rfl, recordIs_updateFailed hok errorLog⟩
  | failingVersions errorLog => exact ⟨rfl, returning_ok hok⟩
  | _ => cases hwrites

theorem caught_running (errorLog : JsString) : (phase.caught errorLog).running = true := by
  cases phase <;> rfl

theorem caught_ok (hok : phase.Ok key n tables seen provisioned stored) (errorLog : JsString) :
    (phase.caught errorLog).Ok key n tables seen provisioned stored := by
  cases phase with
  | building stage =>
    cases stage with
    | packageArtifact | putArtifact => exact hok.1
    | _ => exact hok
  | succeeding => exact hok.1
  | succeedingVersions => exact recordIs_ne_none hok
  | _ => exact trivial

theorem caught_statement_ok (hok : phase.Ok key n tables seen provisioned stored)
    (hwrites : phase.writes = true) (errorLog : JsString) :
    (phase.caught errorLog).Ok key n (phase.statement key tables) seen provisioned stored := by
  cases phase with
  | succeeding => exact recordIs_ne_none (recordIs_updateSucceeded hok.1 key)
  | succeedingVersions => exact recordIs_ne_none hok
  | building => cases hwrites
  | _ => exact trivial

/-- What a build knows stands while the record does; one that has its outcome also knows of the
version rows. -/
theorem Ok.congr {m : Nat} {tables' : BuildTables} {seen' : Nat → Nat}
    (hok : phase.Ok key m tables seen provisioned stored) (hrecord : tables'.record = tables.record)
    (hreturning : ∀ outcome, phase = .returning outcome →
      Covered outcome.status tables'.versions seen' ∧ ∀ version ∈ tables'.versions,
        version.buildStatus = outcome.status ∨ version.buildStatus = .pending) :
    phase.Ok key m tables' seen' provisioned stored := by
  have hstatus {status : BuildStatus} (h : tables.RecordIs status) : tables'.RecordIs status := by
    obtain ⟨record, hsome, heq⟩ := h
    exact ⟨record, hrecord.trans hsome, heq⟩
  have hsome (h : tables.record ≠ none) : tables'.record ≠ none := fun hnone =>
    h (hrecord.symm.trans hnone)
  cases phase with
  | checkingArtifact | checkingWorld | syncing => exact ⟨hsome hok.1, hok.2⟩
  | syncingVersions | succeedingVersions | failingVersions => exact hstatus hok
  | markingVersions | failing => exact hsome hok
  | building stage =>
    cases stage with
    | packageArtifact | putArtifact => exact ⟨hsome hok.1, hok.2⟩
    | writeFiles | install | eveBuild | provisionWorld => exact hsome hok
  | succeeding => exact ⟨hsome hok.1, hok.2⟩
  | returning outcome => exact ⟨hstatus hok.1, hreturning outcome rfl⟩
  | idle | reading | marking | throwing | settled => trivial

theorem Ok.of_not_running (h : phase.running = false) :
    phase.Ok key n tables seen provisioned stored := by
  cases phase with
  | idle | settled => trivial
  | _ => cases h

end Statements

/-! ## Steps -/

section Steps

variable {key : JsString} {s : BuildState} {n : Nat}

theorem BuildInv.alone (h : BuildInv key s) (hrunning : (s.builds n).running = true) {m : Nat}
    (hm : m ≠ n) : (s.builds m).running = false := by
  rw [Bool.eq_false_iff]
  intro hother
  have hn := (h.flight n).mp hrunning
  rw [(h.flight m).mp hother] at hn
  exact hm (Option.some.inj hn)

theorem BuildInv.moved (h : BuildInv key s) (hrunning : (s.builds n).running = true)
    {phase : BuildPhase} {tables : BuildTables} {provisioned : List Nat}
    {stored : List (JsString × Nat)} (artifact world : Bool) (hphase : phase.running = true)
    (hlength : tables.versions.length = s.tables.versions.length)
    (hok : phase.Ok key n tables s.seen provisioned stored)
    (hnamed : Named tables provisioned stored) :
    BuildInv key { s with
      tables := tables
      artifact := artifact
      world := world
      builds := Function.update s.builds n phase
      provisioned := provisioned
      stored := stored } where
  flight m := by
    show (Function.update s.builds n phase m).running = true ↔ _
    by_cases hm : m = n
    · subst hm
      rw [Function.update_self]
      exact iff_of_true hphase ((h.flight m).mp hrunning)
    · rw [Function.update_of_ne hm]
      exact h.flight m
  fresh m hm := by
    have hne : m ≠ n := by
      rintro rfl
      rw [h.fresh m hm] at hrunning
      cases hrunning
    exact (Function.update_of_ne hne _ _).trans (h.fresh m hm)
  bound m := hlength ▸ h.bound m
  ok m := by
    show (Function.update s.builds n phase m).Ok key m tables s.seen provisioned stored
    by_cases hm : m = n
    · subst hm
      rw [Function.update_self]
      exact hok
    · rw [Function.update_of_ne hm]
      exact Ok.of_not_running (h.alone hrunning hm)
  named := hnamed
  agreed hnone := by
    have hsome := (h.flight n).mp hrunning
    rw [hsome] at hnone
    cases hnone

theorem BuildInv.setBuild (h : BuildInv key s) (hrunning : (s.builds n).running = true)
    {phase : BuildPhase} (hphase : phase.running = true)
    (hok : phase.Ok key n s.tables s.seen s.provisioned s.stored) :
    BuildInv key (s.setBuild n phase) :=
  h.moved hrunning s.artifact s.world hphase rfl hok h.named

theorem BuildInv.publisher (h : BuildInv key s) (p : Nat) (phase : PublishPhase) :
    BuildInv key (s.setPublisher p phase) :=
  ⟨h.flight, h.fresh, h.bound, h.ok, h.named, h.agreed⟩

theorem take_append_singleton {versions : List AgentVersion} {k : Nat}
    (hk : k ≤ versions.length) (version : AgentVersion) :
    (versions ++ [version]).take k = versions.take k := List.take_append_of_le_length hk

theorem BuildInv.insertVersion (h : BuildInv key s) (agentId : Nat) :
    BuildInv key (s.insertVersion agentId) where
  flight := h.flight
  fresh := h.fresh
  bound m := by
    show s.seen m ≤ (s.tables.versions ++ [_]).length
    rw [List.length_append]
    exact Nat.le_add_right_of_le (h.bound m)
  ok m := by
    have hok := h.ok m
    refine Ok.congr hok rfl fun outcome hreturning => ?_
    have hphase : s.builds m = .returning outcome := hreturning
    rw [hphase] at hok
    obtain ⟨-, hcovered, hversions⟩ := hok
    refine ⟨fun k version hversion => ?_, fun version hversion => ?_⟩
    · rw [BuildState.insertVersion, take_append_singleton (h.bound k)] at hversion
      exact hcovered k version hversion
    · rcases List.mem_append.mp hversion with hversion | hversion
      · exact hversions version hversion
      · rw [List.mem_singleton.mp hversion]
        exact .inr rfl
  named := h.named
  agreed hnone m last hlast := by
    obtain ⟨hrecord, hcovered⟩ := h.agreed hnone m last hlast
    refine ⟨hrecord, fun k version hversion => ?_⟩
    rw [BuildState.insertVersion, take_append_singleton (h.bound k)] at hversion
    exact hcovered k version hversion

theorem BuildInv.start (h : BuildInv key s) (hnone : s.inFlight = none) :
    BuildInv key { s with
      builds := Function.update s.builds s.begun .reading
      begun := s.begun + 1
      inFlight := some s.begun
      seen := Function.update s.seen s.begun s.tables.versions.length } where
  flight m := by
    show (Function.update s.builds s.begun .reading m).running = true ↔ some s.begun = some m
    by_cases hm : m = s.begun
    · subst hm
      rw [Function.update_self]
      exact iff_of_true rfl rfl
    · rw [Function.update_of_ne hm, h.flight m, hnone]
      refine iff_of_false nofun fun heq => hm (Option.some.inj heq).symm
  fresh m hm := by
    have hlt : s.begun < m := hm
    exact (Function.update_of_ne (Nat.ne_of_gt hlt) _ _).trans (h.fresh m (Nat.le_of_lt hlt))
  bound m := by
    show Function.update s.seen s.begun s.tables.versions.length m ≤ _
    by_cases hm : m = s.begun
    · subst hm
      rw [Function.update_self]
    · rw [Function.update_of_ne hm]
      exact h.bound m
  ok m := by
    show (Function.update s.builds s.begun .reading m).Ok _ _ _ _ _ _
    by_cases hm : m = s.begun
    · subst hm
      rw [Function.update_self]
      trivial
    · rw [Function.update_of_ne hm]
      refine Ok.of_not_running (Bool.eq_false_iff.mpr fun hrunning => ?_)
      have hflight := (h.flight m).mp hrunning
      rw [hnone] at hflight
      cases hflight
  named := h.named
  agreed hnone' := by cases hnone'

theorem BuildInv.join (h : BuildInv key s) (hflight : s.inFlight = some n)
    (htime : ∀ outcome, s.builds n = .returning outcome →
      ∀ version ∈ s.tables.versions, version.buildStatus ≠ .pending) :
    BuildInv key { s with
      seen := Function.update s.seen n s.tables.versions.length } where
  flight := h.flight
  fresh := h.fresh
  bound m := by
    show Function.update s.seen n s.tables.versions.length m ≤ _
    by_cases hm : m = n
    · subst hm
      rw [Function.update_self]
    · rw [Function.update_of_ne hm]
      exact h.bound m
  ok m := by
    have hok := h.ok m
    refine Ok.congr hok rfl fun outcome hreturning => ?_
    rw [hreturning] at hok
    obtain ⟨-, -, hversions⟩ := hok
    have hm : m = n := by
      have hsome := (h.flight m).mp (by rw [hreturning]; rfl)
      rw [hflight] at hsome
      exact (Option.some.inj hsome).symm
    rw [hm] at hreturning
    refine ⟨fun k version hversion => ?_, hversions⟩
    have hmem := List.mem_of_mem_take hversion
    rcases hversions version hmem with hstatus | hpending
    · exact hstatus
    · exact absurd hpending (htime outcome hreturning version hmem)
  named := h.named
  agreed hnone := by
    have hsome : s.inFlight = none := hnone
    rw [hflight] at hsome
    cases hsome

theorem BuildInv.ensureBuild (h : BuildInv key s)
    (htime : ∀ n outcome, s.inFlight = some n → s.builds n = .returning outcome →
      ∀ version ∈ s.tables.versions, version.buildStatus ≠ .pending) :
    BuildInv key s.ensureBuild := by
  rw [BuildState.ensureBuild]
  split
  · next n hflight => exact h.join hflight fun outcome => htime n outcome hflight
  · next hflight => exact h.start hflight

theorem BuildInv.settle (h : BuildInv key s) (hrunning : (s.builds n).running = true)
    {outcome : Option BuildOutcome}
    (hagreed : ∀ last, outcome = some last →
      s.tables.RecordIs last.status ∧ Covered last.status s.tables.versions s.seen) :
    BuildInv key (s.settle n outcome) where
  flight m := by
    show (Function.update s.builds n (.settled outcome) m).running = true ↔ none = some m
    refine iff_of_false ?_ nofun
    by_cases hm : m = n
    · subst hm
      rw [Function.update_self]
      nofun
    · rw [Function.update_of_ne hm, h.alone hrunning hm]
      nofun
  fresh m hm := by
    have hne : m ≠ n := by
      rintro rfl
      rw [h.fresh m hm] at hrunning
      cases hrunning
    exact (Function.update_of_ne hne _ _).trans (h.fresh m hm)
  bound := h.bound
  ok m := by
    show (Function.update s.builds n (.settled outcome) m).Ok _ _ _ _ _ _
    by_cases hm : m = n
    · subst hm
      rw [Function.update_self]
      trivial
    · rw [Function.update_of_ne hm]
      exact Ok.of_not_running (h.alone hrunning hm)
  named := h.named
  agreed _ m last hlast := by
    obtain ⟨outcome', houtcome, heq⟩ := Option.map_eq_some_iff.mp hlast
    cases heq
    exact hagreed _ houtcome

theorem BuildInv.get (h : BuildInv key s) (hreading : s.builds n = .reading) :
    BuildInv key (s.setBuild n (afterGet s.tables.record)) := by
  have hrunning : (s.builds n).running = true := by
    rw [hreading]
    rfl
  rw [afterGet.eq_def]
  split
  · next artifactKey errorLog hrecord =>
    obtain ⟨named, hkey, hstored⟩ := h.named _ hrecord rfl
    cases hkey
    refine h.setBuild hrunning rfl ⟨?_, hstored⟩
    rw [hrecord]
    nofun
  · exact h.setBuild hrunning rfl trivial

theorem BuildInv.stage (h : BuildInv key s) {stage : BuildStage}
    (hstage : s.builds n = .building stage) :
    BuildInv key ((s.stageDone n key stage).setBuild n stage.next) := by
  have hrunning : (s.builds n).running = true := by
    rw [hstage]
    rfl
  have hok := h.ok n
  rw [hstage] at hok
  have hmono {provisioned : List Nat} {stored : List (JsString × Nat)}
      (hprovisioned : s.provisioned ⊆ provisioned) (hstored : s.stored ⊆ stored) :
      Named s.tables provisioned stored := by
    intro record hrecord hstatus
    obtain ⟨artifactKey, hkey, m, hm, hm'⟩ := h.named record hrecord hstatus
    exact ⟨artifactKey, hkey, m, hstored hm, hprovisioned hm'⟩
  cases stage with
  | writeFiles => exact h.setBuild hrunning rfl hok
  | install => exact h.setBuild hrunning rfl hok
  | eveBuild => exact h.setBuild hrunning rfl hok
  | provisionWorld =>
    exact h.moved hrunning s.artifact true rfl rfl ⟨hok, List.mem_cons_self⟩
      (hmono (List.subset_cons_self _ _) (List.Subset.refl _))
  | packageArtifact => exact h.setBuild hrunning rfl hok
  | putArtifact =>
    exact h.moved hrunning true s.world rfl rfl ⟨hok.1, List.mem_cons_self, hok.2⟩
      (hmono (List.Subset.refl _) (List.subset_cons_self _ _))

theorem running_of_writes {phase : BuildPhase} (h : phase.writes = true) :
    phase.running = true := by
  cases phase with
  | idle | settled => cases h
  | _ => rfl

theorem BuildInv.step {checksWorld : Bool} {s' : BuildState} {e : BuildEvent}
    (h : BuildInv key s) (hstep : BuildMoves checksWorld key s e s')
    (hgood : JoinsInTime ⟨s, e, s'⟩) : BuildInv key s' := by
  cases hstep with
  | publish p agentId _ => exact h.publisher p _
  | selectFound p _ _ => exact h.publisher p _
  | selectNone p _ _ => exact h.publisher p _
  | insert p _ _ => exact (h.insertVersion _).publisher p _
  | insertLost p _ _ => exact h.publisher p _
  | adopt p _ => exact h.publisher p _
  | point p _ => exact h.publisher p _
  | read p _ => exact h.publisher p _
  | call p _ => exact (h.ensureBuild hgood).publisher p _
  | answer p _ _ => exact h.publisher p _
  | abort p => exact h.publisher p _
  | ensure => exact h.ensureBuild hgood
  | get n hreading => exact h.get hreading
  | artifactExists n hchecking =>
    have hrunning : (s.builds n).running = true := by
      rw [hchecking]
      rfl
    have hok := h.ok n
    rw [hchecking] at hok
    split
    · exact h.setBuild hrunning rfl hok
    · exact h.setBuild hrunning rfl trivial
  | worldExists n hchecking =>
    have hrunning : (s.builds n).running = true := by
      rw [hchecking]
      rfl
    have hok := h.ok n
    rw [hchecking] at hok
    split
    · exact h.setBuild hrunning rfl trivial
    · exact h.setBuild hrunning rfl hok
  | stage n hstage => exact h.stage hstage
  | write n hwrites =>
    obtain ⟨hnext, hok⟩ := next_ok (h.ok n) hwrites
    exact h.moved (running_of_writes hwrites) s.artifact s.world hnext
      (length_statement key _) hok (named_statement (h.ok n) h.named)
  | fault n errorLog hrunning _ =>
    exact h.setBuild hrunning (caught_running errorLog) (caught_ok (h.ok n) errorLog)
  | faultExecuted n errorLog hwrites =>
    exact h.moved (running_of_writes hwrites) s.artifact s.world (caught_running errorLog)
      (length_statement key _) (caught_statement_ok (h.ok n) hwrites errorLog)
      (named_statement (h.ok n) h.named)
  | resolve n hreturning =>
    have hok := h.ok n
    rw [hreturning] at hok
    refine h.settle (by rw [hreturning]; rfl) fun last hlast => ?_
    cases hlast
    exact ⟨hok.1, hok.2.1⟩
  | reject n hthrowing =>
    exact h.settle (by rw [hthrowing]; rfl) nofun
  | outside artifact world => exact ⟨h.flight, h.fresh, h.bound, h.ok, h.named, h.agreed⟩

end Steps

theorem BuildInv.initial (key : JsString) : BuildInv key .initial where
  flight _ := iff_of_false nofun nofun
  fresh _ _ := rfl
  bound _ := Nat.le_refl 0
  ok _ := trivial
  named := nofun
  agreed _ := nofun

theorem BuildInv.agrees {key : JsString} {s : BuildState} (h : BuildInv key s) : s.Agrees where
  outcome hquiet m last hlast := by
    have hnone : s.inFlight = none := by
      rw [Option.eq_none_iff_forall_ne_some]
      intro n hflight
      rw [← h.flight n, hquiet n] at hflight
      cases hflight
    obtain ⟨hrecord, hcovered⟩ := h.agreed hnone m last hlast
    exact ⟨hrecord, fun n _ _ => hcovered n⟩
  artifact record hrecord hstatus := h.named record hrecord hstatus
  single n m hn hm := by
    have hflight := (h.flight n).mp hn
    rw [(h.flight m).mp hm] at hflight
    exact (Option.some.inj hflight).symm

end InvisibleString.Builds
