import InvisibleString.Pipeline.Plan
import InvisibleString.Tailer.Events

/- # `Pipeline.StepStore` — the ledger of a run and the state of its workflow

The ledger lists the `run_steps` rows of one run in the order of their creation.  A row is
the claim of one step instance, and its key is the instance's path: `claim` inserts the row,
or hands back the one that is there.  The source addresses a claimed row by its own id;
since one path has one row, the path stands for it here.

**Proved here.**

    `claim` finds the first row of the path, or adds one at the end  (`claim_of_mem`, `claim_of_not_mem`)
    an update of one path leaves every other path's row  (`Ledger.row?_update`)
-/

namespace InvisibleString.Pipeline

open Json

inductive RunStepStatus where
  | pending
  | running
  | waiting
  | succeeded
  | failed
  | skipped
  | canceled
  deriving DecidableEq

/-- The statuses `adoptTerminal` short-circuits. -/
def RunStepStatus.terminal : RunStepStatus → Bool
  | .pending | .running | .waiting => false
  | .succeeded | .failed | .skipped | .canceled => true

/-- One `run_steps` row.  `input` and `output` are `jsonb` columns. -/
structure RunStepRow where
  stepId : JsString
  stepSlug : JsString
  path : JsString
  parentPath : Option JsString
  iteration : Option Nat
  kind : StepKind
  status : RunStepStatus
  attempt : Nat
  input : Option JsonValue
  output : Option JsonRecord
  error : Option JsString
  errorClass : Option JsString
  childRunId : Option JsString

structure ClaimStepInput where
  stepId : JsString
  stepSlug : JsString
  path : JsString
  parentPath : Option JsString
  iteration : Option Nat
  kind : StepKind
  status : RunStepStatus
  input : Option JsonValue

/-- The row a claim inserts. -/
def RunStepRow.claimed (input : ClaimStepInput) : RunStepRow where
  stepId := input.stepId
  stepSlug := input.stepSlug
  path := input.path
  parentPath := input.parentPath
  iteration := input.iteration
  kind := input.kind
  status := input.status
  attempt := 1
  input := input.input
  output := none
  error := none
  errorClass := none
  childRunId := none

/-- The columns `finish` writes; `none` leaves a column as it is. -/
structure FinishStepPatch where
  status : RunStepStatus
  output : Option JsonRecord
  error : Option JsString
  errorClass : Option JsString

def FinishStepPatch.apply (patch : FinishStepPatch) (row : RunStepRow) : RunStepRow :=
  { row with
    status := patch.status
    output := patch.output <|> row.output
    error := patch.error <|> row.error
    errorClass := patch.errorClass <|> row.errorClass }

abbrev Ledger := List RunStepRow

namespace Ledger

def row? (rows : Ledger) (path : JsString) : Option RunStepRow :=
  rows.find? fun row => row.path == path

def paths (rows : Ledger) : List JsString := rows.map RunStepRow.path

/-- `update run_steps set … where path = path`. -/
def update (rows : Ledger) (path : JsString) (f : RunStepRow → RunStepRow) : Ledger :=
  rows.map fun row => if row.path = path then f row else row

/-- `createDrizzleRunStepStore.claim`: the ledger behind it, whether the row is new, and the
row. -/
def claim (rows : Ledger) (input : ClaimStepInput) : Ledger × Bool × RunStepRow :=
  match rows.row? input.path with
  | some row => (rows, false, row)
  | none => (rows ++ [.claimed input], true, .claimed input)

def markRunning (rows : Ledger) (path : JsString) (attempt : Nat) : Ledger :=
  rows.update path fun row => { row with status := .running, attempt := attempt }

def markWaiting (rows : Ledger) (path childRunId : JsString) : Ledger :=
  rows.update path fun row => { row with status := .waiting, childRunId := some childRunId }

def finish (rows : Ledger) (path : JsString) (patch : FinishStepPatch) : Ledger :=
  rows.update path patch.apply

/-- `linkChildRunToStep`: an agent executor writes the child it is creating into the row of
its instance. -/
def linkChild (rows : Ledger) (path childRunId : JsString) : Ledger :=
  rows.update path fun row => { row with childRunId := some childRunId }

variable {rows : Ledger} {path : JsString}

@[simp] theorem row?_nil : row? [] path = none := rfl

theorem row?_some {row : RunStepRow} (h : rows.row? path = some row) :
    row ∈ rows ∧ row.path = path := by
  rw [row?] at h
  have hp := List.find?_some h
  exact ⟨List.mem_of_find?_eq_some h, eq_of_beq hp⟩

theorem row?_eq_none : rows.row? path = none ↔ path ∉ rows.paths := by
  rw [row?, List.find?_eq_none]
  constructor
  · intro h hm
    obtain ⟨row, hr, hp⟩ := List.mem_map.mp hm
    exact h row hr (beq_iff_eq.mpr hp)
  · intro h row hr hp
    exact h (List.mem_map.mpr ⟨row, hr, eq_of_beq hp⟩)

theorem row?_append {rows' : Ledger} (h : path ∉ rows.paths) :
    (rows ++ rows').row? path = rows'.row? path := by
  rw [row?, List.find?_append, show rows.find? _ = none from row?_eq_none.mpr h]
  rfl

theorem row?_append_left {rows' : Ledger} {row : RunStepRow} (h : rows.row? path = some row) :
    (rows ++ rows').row? path = some row := by
  rw [row?, List.find?_append, show rows.find? _ = some row from h]
  rfl

theorem row?_cons_self {row : RunStepRow} (h : row.path = path) :
    row? (row :: rows) path = some row :=
  List.find?_cons_of_pos (by rw [h]; exact beq_self_eq_true path)

theorem row?_cons_ne {row : RunStepRow} (h : row.path ≠ path) :
    row? (row :: rows) path = row? rows path := by
  rw [row?, List.find?_cons, beq_eq_false_iff_ne.mpr h]
  rfl

/-- The row of a path, where no path has two. -/
theorem row?_of_mem (hn : rows.paths.Nodup) {row : RunStepRow} (h : row ∈ rows) :
    rows.row? row.path = some row := by
  induction rows with
  | nil => exact absurd h List.not_mem_nil
  | cons r rows ih =>
    obtain ⟨hr, hn⟩ := List.nodup_cons.mp hn
    rcases List.mem_cons.mp h with rfl | h
    · exact row?_cons_self rfl
    · have hne : r.path ≠ row.path := fun heq =>
        hr (heq ▸ List.mem_map_of_mem (f := RunStepRow.path) h)
      rw [row?_cons_ne hne]
      exact ih hn h

theorem claim_of_mem {input : ClaimStepInput} {row : RunStepRow}
    (h : rows.row? input.path = some row) : rows.claim input = (rows, false, row) := by
  rw [claim, h]

theorem claim_of_not_mem {input : ClaimStepInput} (h : input.path ∉ rows.paths) :
    rows.claim input = (rows ++ [.claimed input], true, .claimed input) := by
  rw [claim, row?_eq_none.mpr h]

variable {f : RunStepRow → RunStepRow}

theorem paths_update (hf : ∀ row, (f row).path = row.path) :
    (rows.update path f).paths = rows.paths := by
  rw [update, paths, List.map_map]
  refine List.map_congr_left fun row _ => ?_
  show (if row.path = path then f row else row).path = row.path
  split
  · exact hf row
  · rfl

theorem row?_update (hf : ∀ row, (f row).path = row.path) (p : JsString) :
    (rows.update path f).row? p =
      if p = path then (rows.row? p).map f else rows.row? p := by
  induction rows with
  | nil => simp [update]
  | cons row rows ih =>
    have hcons : update (row :: rows) path f =
        (if row.path = path then f row else row) :: update rows path f := rfl
    have hpath : (if row.path = path then f row else row).path = row.path := by
      split
      · exact hf row
      · rfl
    rw [hcons]
    by_cases hp : row.path = p
    · rw [row?_cons_self (hpath.trans hp), row?_cons_self hp]
      by_cases h : p = path
      · rw [if_pos (hp.trans h), if_pos h]
        rfl
      · rw [if_neg (fun h' => h (hp.symm.trans h')), if_neg h]
    · rw [row?_cons_ne (by rwa [hpath]), row?_cons_ne hp, ih]

theorem row?_update_ne (hf : ∀ row, (f row).path = row.path) {p : JsString} (h : p ≠ path) :
    (rows.update path f).row? p = rows.row? p := by
  rw [row?_update hf, if_neg h]

theorem row?_update_self (hf : ∀ row, (f row).path = row.path) :
    (rows.update path f).row? path = (rows.row? path).map f := by
  rw [row?_update hf, if_pos rfl]

theorem row?_update_some (hf : ∀ row, (f row).path = row.path) {row : RunStepRow}
    (h : rows.row? path = some row) : (rows.update path f).row? path = some (f row) := by
  rw [row?_update_self hf, h]
  rfl

end Ledger

/-! ## Workflow state -/

/-- Keys of one workflow's state. -/
def workflowStateMaxKeys : Nat := 200

/-- Bytes of one value of the state, serialized. -/
def workflowStateMaxValueBytes : Nat := 64 * 1024

/-- `Object.assign`: the entries over the state. -/
def assign (state entries : JsonRecord) : JsonRecord :=
  entries.foldl (fun s e => OrderedMap.set e.1 e.2 s) state

/-- `createDrizzleWorkflowStateStore.set`; `none` where the write would exceed the cap. -/
def writeState (state entries : JsonRecord) : Option JsonRecord :=
  if entries = [] then some state
  else if (assign state entries).length > workflowStateMaxKeys then none
  else some (assign state entries)

end InvisibleString.Pipeline
