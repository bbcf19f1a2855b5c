import InvisibleString.Lib.Transition
import InvisibleString.Search.RegistryDocs
import Mathlib.Logic.Function.Basic

/- # `Search.RegistrySync` — the search mirror of the registry

A run pages the upstream list from the stored cursor on, collects upserts and deletions, hands
them to the index as two tasks and, when both have succeeded, stores its own start as the
cursor.  The registry publishes entries all the while; runs fail or crash at any point; the
index may be lost between two runs, the cursor is not.

**Proved here.**

    a task sets the documents of its ids and no others  (`IndexTask.apply_add`)
    a completed run leaves of a server what one of its entries during the run is worth
                                                                          (`RunInv.mirrors`)
    every run that reports success mirrors the registry, when no document behind the cursor is
      lost, no stored server comes to fail the schema, a run without a cursor finds no documents
      of deleted servers and document ids are told apart  (`mirror_converges`)
    an index lost behind the cursor stays empty  (`wiped_index_stays_empty`)
-/

namespace InvisibleString.Search

open Json Transition

variable {N : Type}

/-! ## The index -/

/-- The documents by id. -/
abbrev SearchIndex := JsString → Option RegistryDocument

def SearchIndex.empty : SearchIndex := fun _ => none

inductive IndexTask where
  | addDocuments (docs : List RegistryDocument)
  | deleteDocuments (ids : List JsString)

def IndexTask.apply : IndexTask → SearchIndex → SearchIndex
  | addDocuments docs, index =>
    docs.foldl (fun index doc => Function.update index doc.id (some doc)) index
  | deleteDocuments ids, index => fun id => if id ∈ ids then none else index id

/-! ## Runs -/

/-- An entry of the upstream list and the time of its last update. -/
structure RegistryRow (N : Type) where
  entry : JsonObject N
  updatedAt : Nat

structure RegistrySyncOutcome where
  ran : Bool
  pages : Nat
  upserted : Nat
  deleted : Nat
  deriving DecidableEq

/-- Where `runOnce` waits: for a page, for the task of the upserts, for that of the deletions. -/
inductive SyncPhase where
  | paging
  | paged
  | adding
  | added
  | deleting
  | deleted
  deriving DecidableEq

structure SyncRun (N : Type) where
  lastUpdatedSince : Option Nat
  syncStartedAt : Nat
  pages : Nat
  cursor : Option JsString
  upserts : List RegistryDocument
  deletions : List JsString
  phase : SyncPhase
  /-- the entries of its pages -/
  listed : List (JsonObject N)
  /-- the latest rows when it started -/
  atStart : JsString → Option (RegistryRow N)
  /-- the rows that have been a server's latest one since -/
  during : JsString → List (RegistryRow N)
  /-- the index it started on -/
  found : SearchIndex

/-- What `updated_since` and `include_deleted` select. -/
def SyncRun.Asks (run : SyncRun N) (row : RegistryRow N) : Prop :=
  match run.lastUpdatedSince with
  | some t => t ≤ row.updatedAt
  | none => isDeleted row.entry = false

/-- What a page may list: an entry that was a server's latest one at some time of the run, an old
version or a row without a name. -/
def SyncRun.MayList (run : SyncRun N) (entry : JsonObject N) : Prop :=
  (∃ row ∈ run.during (entryName entry), row.entry = entry) ∨ isOldVersion entry = true ∨
    entryName entry = []

/-- The pages list every server they were asked for. -/
def SyncRun.Complete (run : SyncRun N) : Prop :=
  ∀ name, run.atStart name ≠ none → (∀ row ∈ run.during name, run.Asks row) →
    ∃ row ∈ run.during name, row.entry ∈ run.listed

/-- A page of the list, shape-checked: its entries and the cursor of the next page. -/
def readPage (body : Value N) : Option (List (JsonObject N) × Option JsString) := do
  let body ← asObject (some body)
  let servers := (asArray (field "servers" body)).filterMap fun entry => asObject (some entry)
  let nextCursor := (asObject (field "metadata" body)).bind fun metadata =>
    (asString (field "nextCursor" metadata)).bind nonEmpty
  return (servers, nextCursor)

variable (parseUrl : JsString → Option JsString)

def SyncRun.takeEntry (run : SyncRun N) (entry : JsonObject N) : SyncRun N :=
  match syncEntryToAction parseUrl entry with
  | .upsert doc => { run with upserts := run.upserts ++ [doc], listed := run.listed ++ [entry] }
  | .delete id => { run with deletions := run.deletions ++ [id], listed := run.listed ++ [entry] }
  | .skip => { run with listed := run.listed ++ [entry] }

def SyncRun.takePage (run : SyncRun N) (servers : List (JsonObject N))
    (nextCursor : Option JsString) : SyncRun N :=
  { servers.foldl (SyncRun.takeEntry parseUrl) run with
    pages := run.pages + 1
    cursor := nextCursor
    phase := if nextCursor = none then .paged else .paging }

/-- The next task, `none` when there is nothing to store or to delete. -/
def SyncRun.send (run : SyncRun N) : Option (SyncRun N × Option IndexTask) :=
  match run.phase with
  | .paged =>
    if run.upserts = [] then some ({ run with phase := .added }, none)
    else some ({ run with phase := .adding }, some (.addDocuments run.upserts))
  | .added =>
    if run.deletions = [] then some ({ run with phase := .deleted }, none)
    else some ({ run with phase := .deleting }, some (.deleteDocuments run.deletions))
  | _ => none

/-- The task the run waits for is done; one that failed aborts it. -/
def SyncRun.taskDone (succeeded : Bool) (run : SyncRun N) : Option (SyncRun N) :=
  match run.phase with
  | .adding => if succeeded then some { run with phase := .added } else none
  | .deleting => if succeeded then some { run with phase := .deleted } else none
  | _ => some run

def SyncRun.outcome (run : SyncRun N) : RegistrySyncOutcome :=
  ⟨true, run.pages, run.upserts.length, run.deletions.length⟩

/-! ## The system -/

structure MirrorState (N : Type) where
  now : Nat
  /-- the latest row of each server upstream -/
  latest : JsString → Option (RegistryRow N)
  index : SearchIndex
  /-- a task of the index that has not been carried out -/
  pending : Option IndexTask
  /-- the row of `registry_sync_state` -/
  lastUpdatedSince : Option Nat
  run : Option (SyncRun N)

def MirrorState.empty : MirrorState N := ⟨0, fun _ => none, .empty, none, none, none⟩

def SyncRun.see (name : JsString) (row : RegistryRow N) (run : SyncRun N) : SyncRun N :=
  { run with during := Function.update run.during name (run.during name ++ [row]) }

def MirrorState.publish (s : MirrorState N) (entry : JsonObject N) : MirrorState N :=
  { s with
    latest := Function.update s.latest (entryName entry) (some ⟨entry, s.now⟩)
    run := s.run.map (SyncRun.see (entryName entry) ⟨entry, s.now⟩) }

def MirrorState.startRun (s : MirrorState N) : SyncRun N where
  lastUpdatedSince := s.lastUpdatedSince
  syncStartedAt := s.now
  pages := 0
  cursor := none
  upserts := []
  deletions := []
  phase := .paging
  listed := []
  atStart := s.latest
  during name := (s.latest name).toList
  found := s.index

inductive MirrorEvent (N : Type) where
  | publish (entry : JsonObject N)
  | advance (now : Nat)
  | wipe
  | begin
  | page (body : Value N)
  | send
  | taskDone (succeeded : Bool)
  | report (outcome : RegistrySyncOutcome)
  | abort

/-- One step of the registry, the index or a run.

    begin     the lock is free, and the tasks of `ensureRegistryIndex` have been carried out,
              those before them too
    busy      the lock is taken
    abort     a page fails, waiting for a task times out, or the process crashes -/
inductive MirrorStep : MirrorState N → MirrorEvent N → MirrorState N → Prop
  | publish {s} (entry) : entryName entry ≠ [] → isOldVersion entry = false →
      MirrorStep s (.publish entry) (s.publish entry)
  | advance {s} (now) : s.now ≤ now → MirrorStep s (.advance now) { s with now := now }
  | wipe {s} : s.run = none → MirrorStep s .wipe { s with index := .empty }
  | begin {s} : s.run = none → s.pending = none →
      MirrorStep s .begin { s with run := some s.startRun }
  | busy {s} : s.run ≠ none → MirrorStep s (.report ⟨false, 0, 0, 0⟩) s
  | page {s} (body) {run servers nextCursor} : s.run = some run → run.phase = .paging →
      readPage body = some (servers, nextCursor) → (∀ entry ∈ servers, run.MayList entry) →
      (nextCursor = none → (run.takePage parseUrl servers nextCursor).Complete) →
      MirrorStep s (.page body) { s with run := some (run.takePage parseUrl servers nextCursor) }
  | send {s run run' task} : s.run = some run → run.send = some (run', task) →
      MirrorStep s .send { s with run := some run', pending := task }
  | taskDone {s} (succeeded) {task} : s.pending = some task →
      MirrorStep s (.taskDone succeeded)
        { s with
          index := if succeeded then task.apply s.index else s.index
          pending := none
          run := s.run.bind (SyncRun.taskDone succeeded) }
  | commit {s run} : s.run = some run → run.phase = .deleted →
      MirrorStep s (.report run.outcome)
        { s with lastUpdatedSince := some run.syncStartedAt, run := none }
  | abort {s} : MirrorStep s .abort { s with run := none }

/-! ## Convergence -/

/-- What the index owes a server after a run.

    latest    an entry that stood for the whole run is mirrored
    held      a server that was installable throughout has a document of an entry it had
    gone      a server that was not installable throughout has none
    known     there are no other documents -/
structure Mirrors (run : SyncRun N) (index : SearchIndex) : Prop where
  latest : ∀ name row, run.atStart name = some row → run.during name = [row] →
    index (registryDocId name) = document parseUrl row.entry
  held : ∀ name, run.atStart name ≠ none →
    (∀ row ∈ run.during name, document parseUrl row.entry ≠ none) →
    ∃ row ∈ run.during name, index (registryDocId name) = document parseUrl row.entry
  gone : ∀ name, run.during name ≠ [] →
    (∀ row ∈ run.during name, document parseUrl row.entry = none) →
    index (registryDocId name) = none
  known : ∀ id, index id ≠ none → ∃ name, run.during name ≠ [] ∧ registryDocId name = id

/-- A run that reports success has mirrored the registry. -/
def Converged (m : Move (MirrorState N) (MirrorEvent N)) : Prop :=
  ∀ outcome, m.event = .report outcome → outcome.ran = true →
    ∃ run, m.before.run = some run ∧ Mirrors parseUrl run m.after.index

/-- The index is lost only while no document in it is behind the cursor. -/
def MirrorState.MayLose (s : MirrorState N) : Prop :=
  ∀ t, s.lastUpdatedSince = some t → ∀ name row, s.latest name = some row → row.updatedAt < t →
    s.index (registryDocId name) = none

/-- The page takes the schema away from no stored server, and where it ends a run without a
cursor, the servers that have gone without being listed are not stored. -/
def MirrorState.MayTake (s : MirrorState N) (body : Value N) : Prop :=
  ∀ run servers nextCursor, s.run = some run → readPage body = some (servers, nextCursor) →
    (∀ entry ∈ servers, entryName entry ≠ [] → isOldVersion entry = false →
      FailsSchema parseUrl entry → s.index (registryDocId (entryName entry)) = none) ∧
    (nextCursor = none → run.lastUpdatedSince = none → ∀ name, run.atStart name ≠ none →
      (∀ row ∈ run.during name, document parseUrl row.entry = none ∧
        row.entry ∉ run.listed ++ servers) →
      s.index (registryDocId name) = none)

def Harmless (m : Move (MirrorState N) (MirrorEvent N)) : Prop :=
  match m.event with
  | .publish entry => ∀ name, m.before.latest name ≠ none →
      registryDocId name = registryDocId (entryName entry) → name = entryName entry
  | .wipe => m.before.MayLose
  | .page body => m.before.MayTake parseUrl body
  | _ => True

/-! ## Tasks -/

section Tasks

variable {index : SearchIndex} {id : JsString}

theorem IndexTask.apply_add (docs : List RegistryDocument) (index : SearchIndex) (id : JsString) :
    (∃ doc ∈ docs, doc.id = id ∧ (IndexTask.addDocuments docs).apply index id = some doc) ∨
    ((∀ doc ∈ docs, doc.id ≠ id) ∧ (IndexTask.addDocuments docs).apply index id = index id) := by
  induction docs generalizing index with
  | nil => exact .inr ⟨fun doc hdoc => absurd hdoc List.not_mem_nil, rfl⟩
  | cons doc docs ih =>
    have happly : (IndexTask.addDocuments (doc :: docs)).apply index =
      (IndexTask.addDocuments docs).apply (Function.update index doc.id (some doc)) := rfl
    rw [happly]
    rcases ih (Function.update index doc.id (some doc)) with
      ⟨doc', hmem, hid, hdoc⟩ | ⟨hne, hsame⟩
    · exact .inl ⟨doc', List.mem_cons_of_mem _ hmem, hid, hdoc⟩
    · rw [hsame]
      by_cases hid : doc.id = id
      · subst hid
        exact .inl ⟨doc, List.mem_cons_self, rfl, Function.update_self ..⟩
      · refine .inr ⟨?_, Function.update_of_ne (Ne.symm hid) ..⟩
        rw [List.forall_mem_cons]
        exact ⟨hid, hne⟩

theorem IndexTask.apply_delete (ids : List JsString) :
    (IndexTask.deleteDocuments ids).apply index id = if id ∈ ids then none else index id := rfl

/-- What the task stores under the id, if anything, is `value`. -/
def IndexTask.Agrees (id : JsString) (value : Option RegistryDocument) : IndexTask → Prop
  | addDocuments docs => ∀ doc ∈ docs, doc.id = id → some doc = value
  | deleteDocuments ids => id ∈ ids → none = value

theorem IndexTask.Agrees.apply {task : IndexTask} {value : Option RegistryDocument}
    (h : task.Agrees id value) (hindex : index id = value) : task.apply index id = value := by
  cases task with
  | addDocuments docs =>
    rcases apply_add docs index id with ⟨doc, hmem, hid, hdoc⟩ | ⟨-, hsame⟩
    · rw [hdoc]
      exact h doc hmem hid
    · rw [hsame, hindex]
  | deleteDocuments ids =>
    rw [apply_delete]
    split
    · rename_i hmem
      exact h hmem
    · exact hindex

/-- The documents a task stores. -/
def IndexTask.Adds (id : JsString) : IndexTask → Prop
  | addDocuments docs => ∃ doc ∈ docs, doc.id = id
  | deleteDocuments _ => False

theorem IndexTask.apply_ne_none {task : IndexTask} (h : task.apply index id ≠ none) :
    index id ≠ none ∨ task.Adds id := by
  cases task with
  | addDocuments docs =>
    rcases apply_add docs index id with ⟨doc, hmem, hid, -⟩ | ⟨-, hsame⟩
    · exact .inr ⟨doc, hmem, hid⟩
    · rw [hsame] at h
      exact .inl h
  | deleteDocuments ids =>
    rw [apply_delete] at h
    split at h
    · exact absurd rfl h
    · exact .inl h

end Tasks

/-! ## What a run has collected -/

/-- What has become of an entry: it is stored, deleted, or invalid and was not stored. -/
def SyncRun.Took (run : SyncRun N) (entry : JsonObject N) : Prop :=
  (∃ doc ∈ run.upserts, document parseUrl entry = some doc) ∨
    (document parseUrl entry = none ∧
      (registryDocId (entryName entry) ∈ run.deletions ∨
        run.found (registryDocId (entryName entry)) = none))

/-- The upserts, the deletions and the entries listed, told from the rows of the run. -/
structure SyncRun.Collected (run : SyncRun N) : Prop where
  upserts : ∀ doc ∈ run.upserts, ∃ name, ∃ row ∈ run.during name,
    document parseUrl row.entry = some doc ∧ doc.id = registryDocId name
  deletions : ∀ id ∈ run.deletions, ∃ name, ∃ row ∈ run.during name,
    document parseUrl row.entry = none ∧ id = registryDocId name
  took : ∀ entry ∈ run.listed, entryName entry ≠ [] → isOldVersion entry = false →
    run.Took parseUrl entry

variable {parseUrl} {run : SyncRun N} {entry : JsonObject N}

variable (parseUrl run entry) in
/-- `takeEntry` by the kind of the entry. -/
theorem SyncRun.takeEntry_cases :
    (∃ doc, document parseUrl entry = some doc ∧ doc.id = registryDocId (entryName entry) ∧
      isOldVersion entry = false ∧ entryName entry ≠ [] ∧ run.takeEntry parseUrl entry =
        { run with upserts := run.upserts ++ [doc], listed := run.listed ++ [entry] }) ∨
    (document parseUrl entry = none ∧ isOldVersion entry = false ∧ entryName entry ≠ [] ∧
      run.takeEntry parseUrl entry =
        { run with deletions := run.deletions ++ [registryDocId (entryName entry)],
                   listed := run.listed ++ [entry] }) ∨
    (run.takeEntry parseUrl entry = { run with listed := run.listed ++ [entry] } ∧
      (entryName entry ≠ [] → isOldVersion entry = false →
        FailsSchema parseUrl entry ∧ document parseUrl entry = none)) := by
  by_cases hskip : entryName entry = [] ∨ isOldVersion entry = true
  · refine .inr (.inr ⟨?_, fun hname hold => ?_⟩)
    · rw [takeEntry, syncEntryToAction_skip hskip]
    · rcases hskip with hskip | hskip
      · exact absurd hskip hname
      · rw [hold] at hskip
        cases hskip
  · obtain ⟨hname, hold⟩ := not_or.mp hskip
    have hold : isOldVersion entry = false := Bool.eq_false_iff.mpr hold
    rcases syncEntryToAction_spec parseUrl hname hold with
      ⟨doc, hdoc, haction⟩ | ⟨hnone, haction⟩ | ⟨hfails, hnone, haction⟩
    · refine .inl ⟨doc, hdoc, document_eq_some hdoc, hold, hname, ?_⟩
      rw [takeEntry, haction]
    · refine .inr (.inl ⟨hnone, hold, hname, ?_⟩)
      rw [takeEntry, haction]
    · refine .inr (.inr ⟨?_, fun _ _ => ⟨hfails, hnone⟩⟩)
      rw [takeEntry, haction]

theorem SyncRun.Took.mono {run' : SyncRun N} (h : run.Took parseUrl entry)
    (hup : ∀ doc ∈ run.upserts, doc ∈ run'.upserts)
    (hdel : ∀ id ∈ run.deletions, id ∈ run'.deletions) (hfound : run'.found = run.found) :
    run'.Took parseUrl entry := by
  rcases h with ⟨doc, hmem, hdoc⟩ | ⟨hnone, hmem | hnil⟩
  · exact .inl ⟨doc, hup doc hmem, hdoc⟩
  · exact .inr ⟨hnone, .inl (hdel _ hmem)⟩
  · exact .inr ⟨hnone, .inr (by rw [hfound]; exact hnil)⟩

theorem SyncRun.Collected.takeEntry (h : run.Collected parseUrl) (hlist : run.MayList entry)
    (hspare : entryName entry ≠ [] → isOldVersion entry = false → FailsSchema parseUrl entry →
      run.found (registryDocId (entryName entry)) = none) :
    (run.takeEntry parseUrl entry).Collected parseUrl := by
  have hrow : entryName entry ≠ [] → isOldVersion entry = false →
      ∃ row ∈ run.during (entryName entry), row.entry = entry := by
    intro hname hold
    rcases hlist with hrow | hold' | hname'
    · exact hrow
    · rw [hold] at hold'
      cases hold'
    · exact absurd hname' hname
  rcases takeEntry_cases parseUrl run entry with
    ⟨doc, hdoc, hid, hold, hname, heq⟩ | ⟨hnone, hold, hname, heq⟩ | ⟨heq, hfails⟩
  · rw [heq]
    obtain ⟨row, hmem, hentry⟩ := hrow hname hold
    refine ⟨?_, h.deletions, ?_⟩
    · rw [List.forall_mem_append, List.forall_mem_singleton]
      exact ⟨h.upserts, _, row, hmem, by rw [hentry]; exact hdoc, hid⟩
    · show ∀ e ∈ run.listed ++ [entry], _
      rw [List.forall_mem_append, List.forall_mem_singleton]
      refine ⟨fun e he hn ho => ?_, fun _ _ => ?_⟩
      · exact (h.took e he hn ho).mono (fun d hd => List.mem_append_left _ hd)
          (fun i hi => hi) rfl
      · exact .inl ⟨doc, List.mem_append_right _ List.mem_cons_self, hdoc⟩
  · rw [heq]
    obtain ⟨row, hmem, hentry⟩ := hrow hname hold
    refine ⟨h.upserts, ?_, ?_⟩
    · rw [List.forall_mem_append, List.forall_mem_singleton]
      exact ⟨h.deletions, _, row, hmem, by rw [hentry]; exact hnone, rfl⟩
    · show ∀ e ∈ run.listed ++ [entry], _
      rw [List.forall_mem_append, List.forall_mem_singleton]
      refine ⟨fun e he hn ho => ?_, fun _ _ => ?_⟩
      · exact (h.took e he hn ho).mono (fun d hd => hd)
          (fun i hi => List.mem_append_left _ hi) rfl
      · exact .inr ⟨hnone, .inl (List.mem_append_right _ List.mem_cons_self)⟩
  · rw [heq]
    refine ⟨h.upserts, h.deletions, ?_⟩
    show ∀ e ∈ run.listed ++ [entry], _
    rw [List.forall_mem_append, List.forall_mem_singleton]
    refine ⟨fun e he hn ho => ?_, fun hn ho => ?_⟩
    · exact (h.took e he hn ho).mono (fun d hd => hd) (fun i hi => hi) rfl
    · obtain ⟨hfail, hnone⟩ := hfails hn ho
      exact .inr ⟨hnone, .inr (hspare hn ho hfail)⟩

/-- The run goes on from the same start and has seen the same rows. -/
structure SyncRun.SameStart (run run' : SyncRun N) : Prop where
  lastUpdatedSince : run'.lastUpdatedSince = run.lastUpdatedSince
  syncStartedAt : run'.syncStartedAt = run.syncStartedAt
  atStart : run'.atStart = run.atStart
  during : run'.during = run.during
  found : run'.found = run.found

variable (parseUrl run entry) in
theorem SyncRun.takeEntry_frame :
    run.SameStart (run.takeEntry parseUrl entry) ∧
      (run.takeEntry parseUrl entry).listed = run.listed ++ [entry] := by
  rw [takeEntry]
  split
  all_goals exact ⟨⟨rfl, rfl, rfl, rfl, rfl⟩, rfl⟩

theorem SyncRun.MayList.of_same {run' : SyncRun N} (h : run.MayList entry)
    (hsame : run.SameStart run') : run'.MayList entry := by
  rw [MayList, hsame.during]
  exact h

/-- The entries of a page, one after the other. -/
theorem SyncRun.Collected.takeEntries {servers : List (JsonObject N)} (h : run.Collected parseUrl)
    (hlist : ∀ entry ∈ servers, run.MayList entry)
    (hspare : ∀ entry ∈ servers, entryName entry ≠ [] → isOldVersion entry = false →
      FailsSchema parseUrl entry → run.found (registryDocId (entryName entry)) = none) :
    (servers.foldl (SyncRun.takeEntry parseUrl) run).Collected parseUrl ∧
      run.SameStart (servers.foldl (SyncRun.takeEntry parseUrl) run) ∧
      (servers.foldl (SyncRun.takeEntry parseUrl) run).listed = run.listed ++ servers := by
  induction servers generalizing run with
  | nil => exact ⟨h, ⟨rfl, rfl, rfl, rfl, rfl⟩, (List.append_nil _).symm⟩
  | cons entry servers ih =>
    rw [List.forall_mem_cons] at hlist hspare
    obtain ⟨hsame, hlisted⟩ := takeEntry_frame parseUrl run entry
    have hnext := h.takeEntry hlist.1 hspare.1
    obtain ⟨hcol, hsame', hlisted'⟩ := ih hnext (fun e he => (hlist.2 e he).of_same hsame) (by
      rw [hsame.found]
      exact hspare.2)
    refine ⟨hcol, ⟨?_, ?_, ?_, ?_, ?_⟩, ?_⟩
    · exact hsame'.lastUpdatedSince.trans hsame.lastUpdatedSince
    · exact hsame'.syncStartedAt.trans hsame.syncStartedAt
    · exact hsame'.atStart.trans hsame.atStart
    · exact hsame'.during.trans hsame.during
    · exact hsame'.found.trans hsame.found
    · rw [List.foldl_cons, hlisted', hlisted, List.append_assoc]
      rfl

/-! ## The invariant -/

/-- A row as the registry publishes it. -/
def RegistryRow.IsOf (row : RegistryRow N) (name : JsString) : Prop :=
  entryName row.entry = name ∧ name ≠ [] ∧ isOldVersion row.entry = false

/-- The rows a run has seen, by the time they were published. -/
structure SyncRun.Sees (latest : JsString → Option (RegistryRow N)) (run : SyncRun N) : Prop where
  isOf : ∀ name, ∀ row ∈ run.during name, row.IsOf name
  start : ∀ name row, run.atStart name = some row →
    ∃ rest, run.during name = row :: rest ∧ ∀ row' ∈ rest, run.syncStartedAt ≤ row'.updatedAt
  now : ∀ name row, latest name = some row →
    (run.atStart name = some row ∧ run.during name = [row]) ∨
      (run.syncStartedAt ≤ row.updatedAt ∧ row ∈ run.during name)
  published : ∀ name, run.during name ≠ [] → latest name ≠ none

variable (parseUrl) in
/-- A run without a cursor has not missed a document of a server it did not list. -/
def SyncRun.LeftNothing (run : SyncRun N) : Prop :=
  run.lastUpdatedSince = none → ∀ name, run.atStart name ≠ none →
    (∀ row ∈ run.during name, document parseUrl row.entry = none ∧ row.entry ∉ run.listed) →
    run.found (registryDocId name) = none

/-- The index in the phases of a run. -/
def SyncRun.indexNow (run : SyncRun N) : SearchIndex :=
  match run.phase with
  | .paging | .paged | .adding => run.found
  | .added | .deleting => (IndexTask.addDocuments run.upserts).apply run.found
  | .deleted =>
    (IndexTask.deleteDocuments run.deletions).apply
      ((IndexTask.addDocuments run.upserts).apply run.found)

def SyncRun.pendingNow (run : SyncRun N) : Option IndexTask :=
  match run.phase with
  | .adding => some (.addDocuments run.upserts)
  | .deleting => some (.deleteDocuments run.deletions)
  | _ => none

variable (parseUrl) in
structure RunInv (s : MirrorState N) (run : SyncRun N) : Prop where
  cursor : run.lastUpdatedSince = s.lastUpdatedSince
  cursor_le : ∀ t, run.lastUpdatedSince = some t → t ≤ run.syncStartedAt
  started : run.syncStartedAt ≤ s.now
  sees : run.Sees s.latest
  collected : run.Collected parseUrl
  behind : ∀ t, run.lastUpdatedSince = some t → ∀ name row, run.atStart name = some row →
    row.updatedAt < t → run.found (registryDocId name) = document parseUrl row.entry
  known : ∀ id, run.found id ≠ none → ∃ name, run.atStart name ≠ none ∧ registryDocId name = id
  complete : run.phase ≠ .paging → run.Complete ∧ run.LeftNothing parseUrl
  index : s.index = run.indexNow
  pending : s.pending = run.pendingNow

/-- Different servers have different document ids. -/
def IdsApart (latest : JsString → Option (RegistryRow N)) : Prop :=
  ∀ name name', latest name ≠ none → latest name' ≠ none →
    registryDocId name = registryDocId name' → name = name'

variable (parseUrl) in
/-- The invariant of every run of the system. -/
structure MirrorInv (s : MirrorState N) : Prop where
  cursor_le : ∀ t, s.lastUpdatedSince = some t → t ≤ s.now
  isOf : ∀ name row, s.latest name = some row → row.IsOf name
  apart : IdsApart s.latest
  known : ∀ id, (s.index id ≠ none ∨ ∃ task, s.pending = some task ∧ task.Adds id) →
    ∃ name, s.latest name ≠ none ∧ registryDocId name = id
  behind : ∀ t, s.lastUpdatedSince = some t → ∀ name row, s.latest name = some row →
    row.updatedAt < t → s.index (registryDocId name) = document parseUrl row.entry ∧
      ∀ task, s.pending = some task →
        task.Agrees (registryDocId name) (document parseUrl row.entry)
  run : ∀ run, s.run = some run → RunInv parseUrl s run

/-! ## Steps of a run -/

variable {s : MirrorState N}

theorem SyncRun.see_self {name : JsString} {row : RegistryRow N} :
    (run.see name row).during name = run.during name ++ [row] := Function.update_self ..

theorem SyncRun.see_of_ne {name name' : JsString} {row : RegistryRow N} (h : name' ≠ name) :
    (run.see name row).during name' = run.during name' := Function.update_of_ne h ..

/-- A row a run has seen stays seen. -/
theorem SyncRun.mem_see {name name' : JsString} {row row' : RegistryRow N}
    (h : row' ∈ run.during name') : row' ∈ (run.see name row).during name' := by
  by_cases hname : name' = name
  · subst hname
    rw [see_self]
    exact List.mem_append_left _ h
  · rw [see_of_ne hname]
    exact h

theorem SyncRun.Sees.see {latest : JsString → Option (RegistryRow N)} (h : run.Sees latest)
    {name : JsString} {row : RegistryRow N} (hrow : row.IsOf name)
    (hnow : run.syncStartedAt ≤ row.updatedAt) :
    (run.see name row).Sees (Function.update latest name (some row)) := by
  refine ⟨fun name' => ?_, fun name' first hstart => ?_, fun name' row' hlatest => ?_,
    fun name' hne => ?_⟩
  all_goals
    by_cases hname : name' = name
  · subst hname
    rw [see_self, List.forall_mem_append, List.forall_mem_singleton]
    exact ⟨h.isOf name', hrow⟩
  · rw [see_of_ne hname]
    exact h.isOf name'
  · subst hname
    obtain ⟨rest, hduring, hrest⟩ := h.start name' first hstart
    refine ⟨rest ++ [row], ?_, ?_⟩
    · rw [see_self, hduring]
      rfl
    · rw [List.forall_mem_append, List.forall_mem_singleton]
      exact ⟨hrest, hnow⟩
  · obtain ⟨rest, hduring, hrest⟩ := h.start name' first hstart
    refine ⟨rest, ?_, hrest⟩
    rw [see_of_ne hname]
    exact hduring
  · subst hname
    rw [Function.update_self] at hlatest
    cases hlatest
    refine .inr ⟨hnow, ?_⟩
    rw [see_self]
    exact List.mem_append_right _ List.mem_cons_self
  · rw [Function.update_of_ne hname] at hlatest
    rw [see_of_ne hname]
    exact h.now name' row' hlatest
  · subst hname
    rw [Function.update_self]
    exact Option.some_ne_none _
  · rw [Function.update_of_ne hname]
    rw [see_of_ne hname] at hne
    exact h.published name' hne

theorem RunInv.publish (h : RunInv parseUrl s run) (hname : entryName entry ≠ [])
    (hold : isOldVersion entry = false) :
    RunInv parseUrl (s.publish entry) (run.see (entryName entry) ⟨entry, s.now⟩) := by
  refine ⟨h.cursor, h.cursor_le, h.started, h.sees.see ⟨rfl, hname, hold⟩ h.started,
    ⟨fun doc hdoc => ?_, fun id hid => ?_, h.collected.took⟩, h.behind, h.known,
    fun hphase => ⟨fun name hstart hasks => ?_, fun hnone name hstart hrows => ?_⟩,
    h.index, h.pending⟩
  · obtain ⟨name, row, hmem, hrow⟩ := h.collected.upserts doc hdoc
    exact ⟨name, row, SyncRun.mem_see hmem, hrow⟩
  · obtain ⟨name, row, hmem, hrow⟩ := h.collected.deletions id hid
    exact ⟨name, row, SyncRun.mem_see hmem, hrow⟩
  · obtain ⟨row, hmem, hlisted⟩ :=
      (h.complete hphase).1 name hstart fun row hmem => hasks row (SyncRun.mem_see hmem)
    exact ⟨row, SyncRun.mem_see hmem, hlisted⟩
  · exact (h.complete hphase).2 hnone name hstart fun row hmem => hrows row (SyncRun.mem_see hmem)

theorem MirrorInv.startRun (h : MirrorInv parseUrl s) (hpending : s.pending = none) :
    RunInv parseUrl { s with run := some s.startRun } s.startRun := by
  refine ⟨rfl, h.cursor_le, le_rfl, ⟨?_, ?_, ?_, ?_⟩, ⟨?_, ?_, ?_⟩,
    fun t ht name row hrow hlt => (h.behind t ht name row hrow hlt).1,
    fun id hid => h.known id (.inl hid), fun hphase => absurd rfl hphase, rfl, hpending⟩
  · intro name row hmem
    exact h.isOf name row (Option.mem_toList.mp hmem)
  · intro name row hstart
    refine ⟨[], ?_, fun row' hmem => absurd hmem List.not_mem_nil⟩
    show (s.latest name).toList = _
    rw [show s.latest name = some row from hstart]
    rfl
  · intro name row hlatest
    refine .inl ⟨hlatest, ?_⟩
    show (s.latest name).toList = _
    rw [hlatest]
    rfl
  · intro name hne hnone
    refine hne ?_
    show (s.latest name).toList = _
    rw [hnone]
    rfl
  · exact fun doc hdoc => absurd hdoc List.not_mem_nil
  · exact fun id hid => absurd hid List.not_mem_nil
  · exact fun entry hentry => absurd hentry List.not_mem_nil

theorem RunInv.of_same {run' : SyncRun N} {index : SearchIndex} {pending : Option IndexTask}
    (h : RunInv parseUrl s run) (hsame : run.SameStart run') (hcol : run'.Collected parseUrl)
    (hcomplete : run'.phase ≠ .paging → run'.Complete ∧ run'.LeftNothing parseUrl)
    (hindex : index = run'.indexNow) (hpending : pending = run'.pendingNow) :
    RunInv parseUrl { s with run := some run', index := index, pending := pending } run' := by
  refine ⟨?_, ?_, ?_, ⟨?_, ?_, ?_, ?_⟩, hcol, ?_, ?_, hcomplete, hindex, hpending⟩
  · exact hsame.lastUpdatedSince.trans h.cursor
  · rw [hsame.lastUpdatedSince, hsame.syncStartedAt]
    exact h.cursor_le
  · rw [hsame.syncStartedAt]
    exact h.started
  · rw [hsame.during]
    exact h.sees.isOf
  · rw [hsame.during, hsame.atStart, hsame.syncStartedAt]
    exact h.sees.start
  · rw [hsame.during, hsame.atStart, hsame.syncStartedAt]
    exact h.sees.now
  · rw [hsame.during]
    exact h.sees.published
  · rw [hsame.lastUpdatedSince, hsame.atStart, hsame.found]
    exact h.behind
  · rw [hsame.found, hsame.atStart]
    exact h.known

theorem RunInv.page (h : RunInv parseUrl s run) (hphase : run.phase = .paging)
    {servers : List (JsonObject N)} {nextCursor : Option JsString}
    (hlist : ∀ entry ∈ servers, run.MayList entry)
    (hcomplete : nextCursor = none → (run.takePage parseUrl servers nextCursor).Complete)
    (hspare : ∀ entry ∈ servers, entryName entry ≠ [] → isOldVersion entry = false →
      FailsSchema parseUrl entry → s.index (registryDocId (entryName entry)) = none)
    (hleft : nextCursor = none → run.lastUpdatedSince = none → ∀ name, run.atStart name ≠ none →
      (∀ row ∈ run.during name, document parseUrl row.entry = none ∧
        row.entry ∉ run.listed ++ servers) → s.index (registryDocId name) = none) :
    RunInv parseUrl { s with run := some (run.takePage parseUrl servers nextCursor) }
      (run.takePage parseUrl servers nextCursor) := by
  have hfound : s.index = run.found := by
    rw [h.index, SyncRun.indexNow, hphase]
  rw [hfound] at hspare hleft
  obtain ⟨hcol, hsame, hlisted⟩ := h.collected.takeEntries hlist hspare
  have hsame' : run.SameStart (run.takePage parseUrl servers nextCursor) :=
    ⟨hsame.1, hsame.2, hsame.3, hsame.4, hsame.5⟩
  refine h.of_same hsame' ⟨hcol.1, hcol.2, hcol.3⟩ (fun hne => ?_) ?_ ?_
  · have hend : nextCursor = none := by
      by_contra hmore
      exact hne (if_neg hmore)
    refine ⟨hcomplete hend, fun hnone name hstart hrows => ?_⟩
    rw [hsame'.lastUpdatedSince] at hnone
    rw [hsame'.atStart] at hstart
    rw [hsame'.during] at hrows
    rw [hsame'.found]
    refine hleft hend hnone name hstart fun row hmem => ?_
    rw [← hlisted]
    exact hrows row hmem
  · rw [hfound, ← hsame'.found, SyncRun.indexNow]
    by_cases hend : nextCursor = none
    · rw [show (run.takePage parseUrl servers nextCursor).phase = .paged from if_pos hend]
    · rw [show (run.takePage parseUrl servers nextCursor).phase = .paging from if_neg hend]
  · rw [h.pending, SyncRun.pendingNow, SyncRun.pendingNow, hphase]
    by_cases hend : nextCursor = none
    · rw [show (run.takePage parseUrl servers nextCursor).phase = .paged from if_pos hend]
    · rw [show (run.takePage parseUrl servers nextCursor).phase = .paging from if_neg hend]

theorem RunInv.send {run' : SyncRun N} {task : Option IndexTask} (h : RunInv parseUrl s run)
    (hsend : run.send = some (run', task)) :
    RunInv parseUrl { s with run := some run', pending := task } run' := by
  have hindex := h.index
  rw [SyncRun.send] at hsend
  rw [SyncRun.indexNow] at hindex
  have hcollected := h.collected
  cases hphase : run.phase with
  | paged =>
    rw [hphase] at hsend hindex
    have hcomplete := h.complete (by rw [hphase]; decide)
    dsimp only at hsend
    split at hsend
    · rename_i hnil
      cases hsend
      refine h.of_same ⟨rfl, rfl, rfl, rfl, rfl⟩ ⟨hcollected.1, hcollected.2, hcollected.3⟩
        (fun _ => hcomplete) ?_ rfl
      show s.index = (IndexTask.addDocuments run.upserts).apply run.found
      rw [hnil]
      exact hindex
    · cases hsend
      exact h.of_same ⟨rfl, rfl, rfl, rfl, rfl⟩ ⟨hcollected.1, hcollected.2, hcollected.3⟩
        (fun _ => hcomplete) hindex rfl
  | added =>
    rw [hphase] at hsend hindex
    have hcomplete := h.complete (by rw [hphase]; decide)
    dsimp only at hsend
    split at hsend
    · rename_i hnil
      cases hsend
      refine h.of_same ⟨rfl, rfl, rfl, rfl, rfl⟩ ⟨hcollected.1, hcollected.2, hcollected.3⟩
        (fun _ => hcomplete) ?_ rfl
      funext id
      show s.index id = (IndexTask.deleteDocuments run.deletions).apply _ id
      rw [IndexTask.apply_delete, hnil, if_neg List.not_mem_nil, hindex]
    · cases hsend
      exact h.of_same ⟨rfl, rfl, rfl, rfl, rfl⟩ ⟨hcollected.1, hcollected.2, hcollected.3⟩
        (fun _ => hcomplete) hindex rfl
  | paging | adding | deleting | deleted =>
    rw [hphase] at hsend
    cases hsend

/-- The task that is pending is the run's own; once it has succeeded the index holds it. -/
theorem RunInv.taskDone {run' : SyncRun N} {succeeded : Bool} {task : IndexTask}
    (h : RunInv parseUrl s run) (htask : s.pending = some task)
    (hdone : run.taskDone succeeded = some run') :
    RunInv parseUrl
      { s with
        index := if succeeded then task.apply s.index else s.index
        pending := none
        run := some run' } run' := by
  have hpending := h.pending
  have hindex := h.index
  have hcollected := h.collected
  rw [SyncRun.pendingNow, htask] at hpending
  rw [SyncRun.indexNow] at hindex
  rw [SyncRun.taskDone] at hdone
  cases hphase : run.phase with
  | adding =>
    rw [hphase] at hpending hindex hdone
    have hcomplete := h.complete (by rw [hphase]; decide)
    cases hpending
    cases succeeded with
    | false => cases hdone
    | true =>
      cases hdone
      refine h.of_same ⟨rfl, rfl, rfl, rfl, rfl⟩ ⟨hcollected.1, hcollected.2, hcollected.3⟩
        (fun _ => hcomplete) ?_ rfl
      rw [hindex]
      rfl
  | deleting =>
    rw [hphase] at hpending hindex hdone
    have hcomplete := h.complete (by rw [hphase]; decide)
    cases hpending
    cases succeeded with
    | false => cases hdone
    | true =>
      cases hdone
      refine h.of_same ⟨rfl, rfl, rfl, rfl, rfl⟩ ⟨hcollected.1, hcollected.2, hcollected.3⟩
        (fun _ => hcomplete) ?_ rfl
      rw [hindex]
      rfl
  | paging | paged | added | deleted =>
    rw [hphase] at hpending
    cases hpending

/-! ## What a completed run leaves -/

/-- A row older than the run is the only one of its server that the run has seen. -/
theorem RunInv.unchanged (h : RunInv parseUrl s run) {name : JsString} {row : RegistryRow N}
    (hrow : s.latest name = some row) (hlt : row.updatedAt < run.syncStartedAt) :
    run.atStart name = some row ∧ run.during name = [row] :=
  (h.sees.now name row hrow).resolve_right fun hnew => absurd hnew.1 (Nat.not_le.mpr hlt)

theorem RunInv.upsert_of (h : RunInv parseUrl s run) (hapart : IdsApart s.latest) {name : JsString}
    (hname : s.latest name ≠ none) {doc : RegistryDocument} (hdoc : doc ∈ run.upserts)
    (hid : doc.id = registryDocId name) :
    ∃ row ∈ run.during name, document parseUrl row.entry = some doc := by
  obtain ⟨name', row, hmem, hvalue, hid'⟩ := h.collected.upserts doc hdoc
  have hname' := h.sees.published name' (List.ne_nil_of_mem hmem)
  have heq := hapart name' name hname' hname (hid'.symm.trans hid)
  subst heq
  exact ⟨row, hmem, hvalue⟩

theorem RunInv.deletion_of (h : RunInv parseUrl s run) (hapart : IdsApart s.latest)
    {name : JsString} (hname : s.latest name ≠ none) (hid : registryDocId name ∈ run.deletions) :
    ∃ row ∈ run.during name, document parseUrl row.entry = none := by
  obtain ⟨name', row, hmem, hvalue, hid'⟩ := h.collected.deletions _ hid
  have hname' := h.sees.published name' (List.ne_nil_of_mem hmem)
  have heq := hapart name' name hname' hname hid'.symm
  subst heq
  exact ⟨row, hmem, hvalue⟩

theorem RunInv.agrees (h : RunInv parseUrl s run) (hapart : IdsApart s.latest) {name : JsString}
    {row : RegistryRow N} (hrow : s.latest name = some row)
    (hlt : row.updatedAt < run.syncStartedAt) {task : IndexTask}
    (htask : task = .addDocuments run.upserts ∨ task = .deleteDocuments run.deletions) :
    task.Agrees (registryDocId name) (document parseUrl row.entry) := by
  have hname : s.latest name ≠ none := by
    rw [hrow]
    exact Option.some_ne_none _
  have hduring := (h.unchanged hrow hlt).2
  rcases htask with rfl | rfl
  · intro doc hdoc hid
    obtain ⟨row', hmem, hvalue⟩ := h.upsert_of hapart hname hdoc hid
    rw [hduring, List.mem_singleton] at hmem
    subst hmem
    exact hvalue.symm
  · intro hid
    obtain ⟨row', hmem, hvalue⟩ := h.deletion_of hapart hname hid
    rw [hduring, List.mem_singleton] at hmem
    subst hmem
    exact hvalue.symm

/-- After both tasks an id has an upserted document, or was deleted, or is as the run found it. -/
theorem RunInv.index_cases (h : RunInv parseUrl s run) (hphase : run.phase = .deleted)
    (id : JsString) :
    (id ∈ run.deletions ∧ s.index id = none) ∨
    (id ∉ run.deletions ∧ ∃ doc ∈ run.upserts, doc.id = id ∧ s.index id = some doc) ∨
    (id ∉ run.deletions ∧ (∀ doc ∈ run.upserts, doc.id ≠ id) ∧ s.index id = run.found id) := by
  have hindex := h.index
  rw [SyncRun.indexNow, hphase] at hindex
  rw [hindex]
  simp only [IndexTask.apply_delete]
  by_cases hdel : id ∈ run.deletions
  · exact .inl ⟨hdel, if_pos hdel⟩
  · rw [if_neg hdel]
    rcases IndexTask.apply_add run.upserts run.found id with
      ⟨doc, hmem, hid, hdoc⟩ | ⟨hne, hsame⟩
    · exact .inr (.inl ⟨hdel, doc, hmem, hid, hdoc⟩)
    · exact .inr (.inr ⟨hdel, hne, hsame⟩)

theorem RunInv.during_ne_nil (h : RunInv parseUrl s run) {name : JsString}
    (hstart : run.atStart name ≠ none) : run.during name ≠ [] := by
  obtain ⟨row, hrow⟩ := Option.ne_none_iff_exists'.mp hstart
  obtain ⟨rest, hduring, -⟩ := h.sees.start name row hrow
  rw [hduring]
  exact List.cons_ne_nil _ _

/-- A server that a run stores and deletes nothing of: the index had what one of its entries is
worth, or the run, without a cursor, did not list it, and it was deleted meanwhile. -/
theorem RunInv.untouched (h : RunInv parseUrl s run) (hphase : run.phase = .deleted)
    {name : JsString} (hstart : run.atStart name ≠ none)
    (hdel : registryDocId name ∉ run.deletions)
    (hup : ∀ doc ∈ run.upserts, doc.id ≠ registryDocId name) :
    (∃ row ∈ run.during name,
      run.found (registryDocId name) = document parseUrl row.entry) ∨
    (run.lastUpdatedSince = none ∧ (∃ row ∈ run.during name, isDeleted row.entry = true) ∧
      ∀ row ∈ run.during name, row.entry ∉ run.listed) := by
  by_cases hlisted : ∃ row ∈ run.during name, row.entry ∈ run.listed
  · obtain ⟨row, hmem, hlisted⟩ := hlisted
    obtain ⟨hname, hne, hold⟩ := h.sees.isOf name row hmem
    have htook := h.collected.took row.entry hlisted (by rw [hname]; exact hne) hold
    rw [SyncRun.Took, hname] at htook
    rcases htook with ⟨doc, hdoc, hvalue⟩ | ⟨hnone, hid | hfound⟩
    · have hid := document_eq_some hvalue
      rw [hname] at hid
      exact absurd hid (hup doc hdoc)
    · exact absurd hid hdel
    · exact .inl ⟨row, hmem, hfound.trans hnone.symm⟩
  · have hcomplete := (h.complete (by rw [hphase]; decide)).1 name hstart
    have hasks : ∃ row ∈ run.during name, ¬ run.Asks row := by
      by_contra hall
      exact hlisted (hcomplete fun row hmem => by_contra fun hnot => hall ⟨row, hmem, hnot⟩)
    obtain ⟨row, hmem, hasks⟩ := hasks
    rw [SyncRun.Asks] at hasks
    cases hsince : run.lastUpdatedSince with
    | none =>
      rw [hsince] at hasks
      exact .inr ⟨rfl, ⟨row, hmem, Bool.eq_true_of_not_eq_false hasks⟩,
        fun row' hmem' hin => hlisted ⟨row', hmem', hin⟩⟩
    | some t =>
      rw [hsince] at hasks
      have hlt : row.updatedAt < t := Nat.lt_of_not_le hasks
      obtain ⟨first, hfirst⟩ := Option.ne_none_iff_exists'.mp hstart
      obtain ⟨rest, hduring, hrest⟩ := h.sees.start name first hfirst
      rw [hduring, List.mem_cons] at hmem
      rcases hmem with rfl | hmem
      · refine .inl ⟨row, ?_, h.behind t hsince name row hfirst hlt⟩
        rw [hduring]
        exact List.mem_cons_self
      · exact absurd (Nat.le_trans (h.cursor_le t hsince) (hrest row hmem)) (Nat.not_le.mpr hlt)

theorem RunInv.held (h : RunInv parseUrl s run) (hapart : IdsApart s.latest)
    (hphase : run.phase = .deleted) {name : JsString} (hstart : run.atStart name ≠ none)
    (hall : ∀ row ∈ run.during name, document parseUrl row.entry ≠ none) :
    ∃ row ∈ run.during name, s.index (registryDocId name) = document parseUrl row.entry := by
  have hname := h.sees.published name (h.during_ne_nil hstart)
  rcases h.index_cases hphase (registryDocId name) with
    ⟨hdel, -⟩ | ⟨-, doc, hmem, hid, hdoc⟩ | ⟨hdel, hup, hsame⟩
  · obtain ⟨row, hmem, hnone⟩ := h.deletion_of hapart hname hdel
    exact absurd hnone (hall row hmem)
  · obtain ⟨row, hrow, hvalue⟩ := h.upsert_of hapart hname hmem hid
    exact ⟨row, hrow, hdoc.trans hvalue.symm⟩
  · rw [hsame]
    rcases h.untouched hphase hstart hdel hup with hfound | ⟨-, ⟨row, hmem, hdeleted⟩, -⟩
    · exact hfound
    · exact absurd (document_of_isDeleted hdeleted) (hall row hmem)

theorem RunInv.gone (h : RunInv parseUrl s run) (hapart : IdsApart s.latest)
    (hphase : run.phase = .deleted) {name : JsString} (hne : run.during name ≠ [])
    (hall : ∀ row ∈ run.during name, document parseUrl row.entry = none) :
    s.index (registryDocId name) = none := by
  have hname := h.sees.published name hne
  rcases h.index_cases hphase (registryDocId name) with
    ⟨-, hnone⟩ | ⟨-, doc, hmem, hid, hdoc⟩ | ⟨hdel, hup, hsame⟩
  · exact hnone
  · obtain ⟨row, hrow, hvalue⟩ := h.upsert_of hapart hname hmem hid
    rw [hall row hrow] at hvalue
    cases hvalue
  · rw [hsame]
    by_cases hstart : run.atStart name = none
    · by_contra hfound
      obtain ⟨name', hstart', hid⟩ := h.known _ hfound
      have hname' := h.sees.published name' (h.during_ne_nil hstart')
      rw [hapart name' name hname' hname hid] at hstart'
      exact hstart' hstart
    · rcases h.untouched hphase hstart hdel hup with ⟨row, hmem, hfound⟩ | ⟨hfull, -, hnot⟩
      · rw [hfound]
        exact hall row hmem
      · have hleft := (h.complete (by rw [hphase]; decide)).2 hfull name hstart
        exact hleft fun row hmem => ⟨hall row hmem, hnot row hmem⟩

theorem RunInv.mirrors (h : RunInv parseUrl s run) (hapart : IdsApart s.latest)
    (hphase : run.phase = .deleted) : Mirrors parseUrl run s.index := by
  refine ⟨fun name row hstart hduring => ?_, fun name hstart => h.held hapart hphase hstart,
    fun name hne => h.gone hapart hphase hne, fun id hid => ?_⟩
  · have hne : run.atStart name ≠ none := by
      rw [hstart]
      exact Option.some_ne_none _
    by_cases hnone : document parseUrl row.entry = none
    · rw [hnone]
      refine h.gone hapart hphase (h.during_ne_nil hne) ?_
      rw [hduring, List.forall_mem_singleton]
      exact hnone
    · have hheld := h.held hapart hphase hne (by
        rw [hduring, List.forall_mem_singleton]
        exact hnone)
      rw [hduring] at hheld
      obtain ⟨row', hmem, hindex⟩ := hheld
      rw [List.mem_singleton.mp hmem] at hindex
      exact hindex
  · rcases h.index_cases hphase id with ⟨-, hnone⟩ | ⟨-, doc, hmem, hdoc, -⟩ | ⟨-, -, hsame⟩
    · exact absurd hnone hid
    · obtain ⟨name, row, hrow, -, hname⟩ := h.collected.upserts doc hmem
      exact ⟨name, List.ne_nil_of_mem hrow, hname.symm.trans hdoc⟩
    · rw [hsame] at hid
      obtain ⟨name, hstart, hname⟩ := h.known id hid
      exact ⟨name, h.during_ne_nil hstart, hname⟩

/-! ## Steps of the system -/

theorem MirrorInv.empty : MirrorInv parseUrl (.empty : MirrorState N) := by
  refine ⟨?_, ?_, ?_, ?_, ?_, ?_⟩
  · exact fun t ht => nomatch ht
  · exact fun name row hrow => nomatch hrow
  · exact fun name name' hname => absurd rfl hname
  · rintro id (hindex | ⟨task, htask, -⟩)
    · exact absurd rfl hindex
    · cases htask
  · exact fun t ht => nomatch ht
  · exact fun run hrun => nomatch hrun

theorem MirrorInv.publish (h : MirrorInv parseUrl s) (hname : entryName entry ≠ [])
    (hold : isOldVersion entry = false)
    (hapart : ∀ name, s.latest name ≠ none →
      registryDocId name = registryDocId (entryName entry) → name = entryName entry) :
    MirrorInv parseUrl (s.publish entry) := by
  have hother : ∀ name, name ≠ entryName entry → (s.publish entry).latest name = s.latest name :=
    fun name hne => Function.update_of_ne hne ..
  have hself : (s.publish entry).latest (entryName entry) = some ⟨entry, s.now⟩ :=
    Function.update_self ..
  have hkept : ∀ name, s.latest name ≠ none → (s.publish entry).latest name ≠ none := by
    intro name hlatest
    by_cases hne : name = entryName entry
    · subst hne
      rw [hself]
      exact Option.some_ne_none _
    · rw [hother name hne]
      exact hlatest
  refine ⟨h.cursor_le, fun name row hrow => ?_, fun name name' hp hp' hid => ?_, fun id hid => ?_,
    fun t ht name row hrow hlt => ?_, fun run hrun => ?_⟩
  · by_cases hne : name = entryName entry
    · subst hne
      rw [hself] at hrow
      cases hrow
      exact ⟨rfl, hname, hold⟩
    · rw [hother name hne] at hrow
      exact h.isOf name row hrow
  · by_cases hne : name = entryName entry
    · by_cases hne' : name' = entryName entry
      · rw [hne, hne']
      · rw [hother name' hne'] at hp'
        rw [hne] at hid ⊢
        exact (hapart name' hp' hid.symm).symm
    · rw [hother name hne] at hp
      by_cases hne' : name' = entryName entry
      · rw [hne'] at hid ⊢
        exact hapart name hp hid
      · rw [hother name' hne'] at hp'
        exact h.apart name name' hp hp' hid
  · obtain ⟨name, hlatest, hid⟩ := h.known id hid
    exact ⟨name, hkept name hlatest, hid⟩
  · by_cases hne : name = entryName entry
    · subst hne
      rw [hself] at hrow
      cases hrow
      exact absurd (h.cursor_le t ht) (Nat.not_le.mpr hlt)
    · rw [hother name hne] at hrow
      exact h.behind t ht name row hrow hlt
  · obtain ⟨run, hrun', rfl⟩ := Option.map_eq_some_iff.mp hrun
    exact (h.run run hrun').publish hname hold

theorem MirrorInv.advance {now : Nat} (h : MirrorInv parseUrl s) (hnow : s.now ≤ now) :
    MirrorInv parseUrl { s with now := now } := by
  refine ⟨fun t ht => (h.cursor_le t ht).trans hnow, h.isOf, h.apart, h.known, h.behind,
    fun run hrun => ?_⟩
  have hinv := h.run run hrun
  exact ⟨hinv.cursor, hinv.cursor_le, hinv.started.trans hnow, hinv.sees, hinv.collected,
    hinv.behind, hinv.known, hinv.complete, hinv.index, hinv.pending⟩

theorem MirrorInv.wipe (h : MirrorInv parseUrl s) (hidle : s.run = none) (hlose : s.MayLose) :
    MirrorInv parseUrl { s with index := .empty } := by
  refine ⟨h.cursor_le, h.isOf, h.apart, ?_, fun t ht name row hrow hlt => ?_, fun run hrun => ?_⟩
  · rintro id (hindex | hpending)
    · exact absurd rfl hindex
    · exact h.known id (.inr hpending)
  · obtain ⟨hindex, hagrees⟩ := h.behind t ht name row hrow hlt
    exact ⟨(hlose t ht name row hrow hlt).symm.trans hindex, hagrees⟩
  · rw [hidle] at hrun
    cases hrun

theorem MirrorInv.withRun {run' : SyncRun N} (h : MirrorInv parseUrl s)
    (hrun : RunInv parseUrl { s with run := some run' } run') :
    MirrorInv parseUrl { s with run := some run' } := by
  refine ⟨h.cursor_le, h.isOf, h.apart, h.known, h.behind, fun run hsome => ?_⟩
  cases hsome
  exact hrun

theorem SyncRun.send_task {run' : SyncRun N} {task : IndexTask}
    (h : run.send = some (run', some task)) :
    task = .addDocuments run.upserts ∨ task = .deleteDocuments run.deletions := by
  rw [send] at h
  split at h
  · split at h
    · cases h
    · cases h
      exact .inl rfl
  · split at h
    · cases h
    · cases h
      exact .inr rfl
  · cases h

theorem MirrorInv.send {run' : SyncRun N} {task : Option IndexTask} (h : MirrorInv parseUrl s)
    (hrun : s.run = some run) (hsend : run.send = some (run', task)) :
    MirrorInv parseUrl { s with run := some run', pending := task } := by
  have hinv := h.run run hrun
  refine ⟨h.cursor_le, h.isOf, h.apart, ?_, fun t ht name row hrow hlt => ?_, fun run hsome => ?_⟩
  · rintro id (hindex | ⟨task', htask, hadds⟩)
    · exact h.known id (.inl hindex)
    · dsimp only at htask
      subst htask
      rcases SyncRun.send_task hsend with rfl | rfl
      · obtain ⟨doc, hmem, hid⟩ := hadds
        obtain ⟨name, row, hrow, -, hname⟩ := hinv.collected.upserts doc hmem
        exact ⟨name, hinv.sees.published name (List.ne_nil_of_mem hrow), hname.symm.trans hid⟩
      · exact hadds.elim
  · refine ⟨(h.behind t ht name row hrow hlt).1, fun task' htask => ?_⟩
    dsimp only at htask
    subst htask
    have hle := hinv.cursor_le t (hinv.cursor.trans ht)
    exact hinv.agrees h.apart hrow (hlt.trans_le hle) (SyncRun.send_task hsend)
  · cases hsome
    exact hinv.send hsend

theorem MirrorInv.taskDone {task : IndexTask} (h : MirrorInv parseUrl s)
    (htask : s.pending = some task) (succeeded : Bool) :
    MirrorInv parseUrl
      { s with
        index := if succeeded then task.apply s.index else s.index
        pending := none
        run := s.run.bind (SyncRun.taskDone succeeded) } := by
  refine ⟨h.cursor_le, h.isOf, h.apart, ?_, fun t ht name row hrow hlt => ⟨?_, ?_⟩,
    fun run' hsome => ?_⟩
  · rintro id (hindex | ⟨task', htask', -⟩)
    · cases succeeded with
      | false => exact h.known id (.inl hindex)
      | true =>
        rcases IndexTask.apply_ne_none hindex with hold | hadds
        · exact h.known id (.inl hold)
        · exact h.known id (.inr ⟨task, htask, hadds⟩)
    · cases htask'
  · obtain ⟨hindex, hagrees⟩ := h.behind t ht name row hrow hlt
    cases succeeded with
    | false => exact hindex
    | true => exact (hagrees task htask).apply hindex
  · intro task' htask'
    cases htask'
  · obtain ⟨run, hrun, hdone⟩ := Option.bind_eq_some_iff.mp hsome
    have hinv := (h.run run hrun).taskDone htask hdone
    exact ⟨hinv.cursor, hinv.cursor_le, hinv.started, hinv.sees, hinv.collected, hinv.behind,
      hinv.known, hinv.complete, hinv.index, hinv.pending⟩

theorem MirrorInv.commit (h : MirrorInv parseUrl s) (hrun : s.run = some run)
    (hphase : run.phase = .deleted) :
    MirrorInv parseUrl { s with lastUpdatedSince := some run.syncStartedAt, run := none } := by
  have hinv := h.run run hrun
  refine ⟨?_, h.isOf, h.apart, h.known, ?_, fun run hsome => nomatch hsome⟩
  · intro t ht
    cases ht
    exact hinv.started
  · intro t ht name row hrow hlt
    cases ht
    obtain ⟨hstart, hduring⟩ := hinv.unchanged hrow hlt
    refine ⟨(hinv.mirrors h.apart hphase).latest name row hstart hduring, fun task htask => ?_⟩
    have hpending := hinv.pending
    rw [SyncRun.pendingNow, hphase] at hpending
    have hnone : s.pending = some task := htask
    rw [hpending] at hnone
    cases hnone

theorem MirrorInv.step {e : MirrorEvent N} {t : MirrorState N} (hstep : MirrorStep parseUrl s e t)
    (hgood : Harmless parseUrl ⟨s, e, t⟩) (h : MirrorInv parseUrl s) :
    Converged parseUrl ⟨s, e, t⟩ ∧ MirrorInv parseUrl t := by
  cases hstep with
  | publish entry hname hold =>
    exact ⟨fun _ he => (nomatch he), h.publish hname hold hgood⟩
  | advance now hnow => exact ⟨fun _ he => (nomatch he), h.advance hnow⟩
  | wipe hidle => exact ⟨fun _ he => (nomatch he), h.wipe hidle hgood⟩
  | begin _ hpending => exact ⟨fun _ he => (nomatch he), h.withRun (h.startRun hpending)⟩
  | busy _ =>
    refine ⟨fun outcome he hran => ?_, h⟩
    cases he
    cases hran
  | page body hrun hphase hread hlist hcomplete =>
    refine ⟨fun _ he => (nomatch he), h.withRun ?_⟩
    obtain ⟨hspare, hleft⟩ := hgood _ _ _ hrun hread
    exact (h.run _ hrun).page hphase hlist hcomplete hspare hleft
  | send hrun hsend => exact ⟨fun _ he => (nomatch he), h.send hrun hsend⟩
  | taskDone succeeded htask => exact ⟨fun _ he => (nomatch he), h.taskDone htask succeeded⟩
  | @commit run hrun hphase =>
    refine ⟨fun outcome he _ => ⟨run, hrun, ?_⟩, h.commit hrun hphase⟩
    exact (h.run run hrun).mirrors h.apart hphase
  | abort =>
    refine ⟨fun _ he => (nomatch he), h.cursor_le, h.isOf, h.apart, h.known, h.behind, ?_⟩
    exact fun run hsome => nomatch hsome

/-! ## Runs of the system -/

/-- While the conditions hold, every run that reports success has mirrored the registry. -/
theorem mirror_converges {moves : List (Move (MirrorState N) (MirrorEvent N))}
    (h : Trace (MirrorStep parseUrl) .empty moves s) (hgood : ∀ m ∈ moves, Harmless parseUrl m) :
    ∀ m ∈ moves, Converged parseUrl m :=
  h.forall_of (MirrorInv parseUrl) (Harmless parseUrl)
    (fun _ hstep hgood hinv => hinv.step hstep hgood) hgood .empty

/-! ## One server -/

section OneServer

variable {doc : RegistryDocument} {body : Value N}

/-- The registry with one server, a millisecond after its publication. -/
def publishedOnce (entry : JsonObject N) : MirrorState N :=
  { MirrorState.empty.publish entry with now := 1 }

theorem latest_publishedOnce {name : JsString} (h : (publishedOnce entry).latest name ≠ none) :
    name = entryName entry := by
  by_contra hname
  exact h (Function.update_of_ne hname ..)

theorem latest_publishedOnce_self :
    (publishedOnce entry).latest (entryName entry) = some ⟨entry, 0⟩ := Function.update_self ..

theorem during_startRun_self :
    (publishedOnce entry).startRun.during (entryName entry) = [⟨entry, 0⟩] := by
  show ((publishedOnce entry).latest (entryName entry)).toList = _
  rw [latest_publishedOnce_self]
  rfl

theorem SyncRun.takePage_upsert (haction : syncEntryToAction parseUrl entry = .upsert doc) :
    run.takePage parseUrl [entry] none =
      { run with
        pages := run.pages + 1
        cursor := none
        upserts := run.upserts ++ [doc]
        listed := run.listed ++ [entry]
        phase := .paged } := by
  rw [takePage, List.foldl_cons, takeEntry, haction]
  rfl

/-- The run in the phases after its only page. -/
def listedOnce (entry : JsonObject N) (doc : RegistryDocument) (phase : SyncPhase) : SyncRun N :=
  { (publishedOnce entry).startRun with
    pages := 1
    upserts := [doc]
    listed := [entry]
    phase := phase }

/-- The server is mirrored, and the next run asks for what has been updated since. -/
def mirroredOnce (entry : JsonObject N) (doc : RegistryDocument) : MirrorState N :=
  { publishedOnce entry with
    index := Function.update SearchIndex.empty doc.id (some doc)
    lastUpdatedSince := some 1 }

theorem index_mirroredOnce : (mirroredOnce entry doc).index doc.id = some doc :=
  Function.update_self ..

theorem trace_mirroredOnce (hname : entryName entry ≠ []) (hold : isOldVersion entry = false)
    (haction : syncEntryToAction parseUrl entry = .upsert doc)
    (hread : readPage body = some ([entry], none)) :
    ∃ moves, Trace (MirrorStep parseUrl) .empty moves (mirroredOnce entry doc) ∧
      (document parseUrl entry = some doc → ∀ m ∈ moves, Harmless parseUrl m) := by
  have hpage : (publishedOnce entry).startRun.takePage parseUrl [entry] none =
      listedOnce entry doc .paged := SyncRun.takePage_upsert haction
  have hrow : ⟨entry, 0⟩ ∈ (publishedOnce entry).startRun.during (entryName entry) := by
    rw [during_startRun_self]
    exact List.mem_cons_self
  have hlist : MirrorStep parseUrl
      { publishedOnce entry with run := some (publishedOnce entry).startRun } (.page body)
      { publishedOnce entry with run := some (listedOnce entry doc .paged) } := by
    rw [← hpage]
    refine .page body rfl rfl hread ?_ ?_
    · rw [List.forall_mem_singleton]
      exact .inl ⟨⟨entry, 0⟩, hrow, rfl⟩
    · intro _ name hstart _
      rw [hpage] at hstart ⊢
      cases latest_publishedOnce hstart
      exact ⟨⟨entry, 0⟩, hrow, List.mem_cons_self⟩
  refine ⟨_, .cons (.publish entry hname hold) <| .cons (.advance 1 (Nat.zero_le 1)) <|
    .cons (.begin rfl rfl) <| .cons hlist <|
    .cons (@MirrorStep.send _ _ _ _ (listedOnce entry doc .adding) _ rfl rfl) <|
    .cons (.taskDone true rfl) <|
    .cons (@MirrorStep.send _ _ _ (listedOnce entry doc .added) (listedOnce entry doc .deleted) _
      rfl rfl) <|
    .cons (@MirrorStep.commit _ _ _ (listedOnce entry doc .deleted) rfl rfl) <| .nil _,
    fun hdocument => ?_⟩
  simp only [List.forall_mem_cons, List.not_mem_nil, false_implies, implies_true, and_true]
  refine ⟨?_, trivial, trivial, ?_, trivial, trivial, trivial, trivial⟩
  · exact fun name hname => absurd rfl hname
  · intro run servers nextCursor hrun hread'
    cases hrun
    rw [hread] at hread'
    cases hread'
    constructor
    · rw [List.forall_mem_singleton]
      intro _ _ hfails
      rw [document, hfails.2] at hdocument
      cases hdocument
    · intro _ _ name hstart hrows
      cases latest_publishedOnce hstart
      exact absurd List.mem_cons_self (hrows ⟨entry, 0⟩ hrow).2

/-- The index is lost, and the run that then asks for updates since the first one finds none. -/
theorem trace_wipedOnce (hread : readPage body = some ([], none))
    (hdocument : document parseUrl entry ≠ none) :
    ∃ moves, Trace (MirrorStep parseUrl) (mirroredOnce entry doc) moves
        { mirroredOnce entry doc with index := .empty } ∧
      ∃ m ∈ moves, m.event = .report ⟨true, 1, 0, 0⟩ ∧ ¬ Converged parseUrl m := by
  have hrow : ⟨entry, 0⟩ ∈ (publishedOnce entry).startRun.during (entryName entry) := by
    rw [during_startRun_self]
    exact List.mem_cons_self
  let wiped : MirrorState N := { mirroredOnce entry doc with index := .empty }
  let listed (phase : SyncPhase) : SyncRun N := { wiped.startRun with pages := 1, phase := phase }
  have hlist : MirrorStep parseUrl { wiped with run := some wiped.startRun } (.page body)
      { wiped with run := some (listed .paged) } := by
    refine .page body rfl rfl hread (fun entry hentry => absurd hentry List.not_mem_nil) ?_
    intro _ name hstart hasks
    cases latest_publishedOnce hstart
    exact absurd (hasks ⟨entry, 0⟩ hrow) (Nat.not_succ_le_zero 0)
  refine ⟨_, .cons (.wipe rfl) <| .cons (.begin rfl rfl) <| .cons hlist <|
    .cons (@MirrorStep.send _ _ _ _ (listed .added) _ rfl rfl) <|
    .cons (@MirrorStep.send _ _ _ _ (listed .deleted) _ rfl rfl) <|
    .cons (@MirrorStep.commit _ _ _ (listed .deleted) rfl rfl) <| .nil _, _,
    List.getLast_mem (List.cons_ne_nil _ _), rfl, fun hconv => ?_⟩
  obtain ⟨run, hrun, hmirrors⟩ := hconv _ rfl rfl
  cases hrun
  exact hdocument (hmirrors.latest (entryName entry) ⟨entry, 0⟩ latest_publishedOnce_self
    during_startRun_self).symm

end OneServer

/-- An active server with one remote. -/
def sampleServer : JsonObject Int :=
  [(ascii "name", .str (ascii "a")), (ascii "version", .str (ascii "1")),
    (ascii "remotes", .arr [.obj [(ascii "type", .str (ascii "sse")),
      (ascii "url", .str (ascii "http://a"))]])]

def samplePage (servers : List (Value Int)) : Value Int := .obj [(ascii "servers", .arr servers)]

def sampleDocument : RegistryDocument where
  id := registryDocId (ascii "a")
  name := ascii "a"
  title := none
  description := []
  websiteUrl := none
  remotes := [⟨ascii "sse", ascii "http://a", []⟩]
  verified := true
  updatedAt := none

theorem document_sample : document some sampleServer = some sampleDocument := by decide

theorem action_sample : syncEntryToAction some sampleServer = .upsert sampleDocument := rfl

/-- The server is published, a millisecond passes, and a run mirrors it. -/
theorem mirror_converges_first : ∃ (s : MirrorState Int) (moves : List _),
    Trace (MirrorStep some) .empty moves s ∧ s.index sampleDocument.id = some sampleDocument ∧
      s.lastUpdatedSince = some 1 ∧ ∀ m ∈ moves, Converged some m := by
  have hread : readPage (samplePage [.obj sampleServer]) = some ([sampleServer], none) := rfl
  obtain ⟨moves, h, hgood⟩ := trace_mirroredOnce (by decide) rfl action_sample hread
  exact ⟨_, _, h, index_mirroredOnce, rfl, mirror_converges h (hgood document_sample)⟩

/-- A run mirrors the server, the index is lost, and the next run, which asks for what has been
updated since, reports success on an empty index. -/
theorem wiped_index_stays_empty : ∃ (s : MirrorState Int) (moves : List _),
    Trace (MirrorStep some) .empty moves s ∧
      s.latest (entryName sampleServer) = some ⟨sampleServer, 0⟩ ∧
      document some sampleServer = some sampleDocument ∧ s.index = .empty ∧
      ∃ m ∈ moves, m.event = .report ⟨true, 1, 0, 0⟩ ∧ ¬ Converged some m := by
  have hread : readPage (samplePage [.obj sampleServer]) = some ([sampleServer], none) := rfl
  have hread' : readPage (samplePage []) = some ([], none) := rfl
  have hdocument : document some sampleServer ≠ none := by
    rw [document_sample]
    exact Option.some_ne_none _
  obtain ⟨moves, h, -⟩ := trace_mirroredOnce (by decide) rfl action_sample hread
  obtain ⟨moves', h', m, hm, hreport, hnot⟩ := trace_wipedOnce hread' hdocument
  exact ⟨_, _, h.append h', @latest_publishedOnce_self Int sampleServer, document_sample, rfl, m,
    List.mem_append_right _ hm, hreport, hnot⟩

end InvisibleString.Search
