import InvisibleString.Lib.Json

/- # `Triggers.Rows` — the rows of a workflow and of its trigger

The columns of `triggers` and `workflows` that ingress, the schedule ticker and the syncs of
the trigger row read and write.  A `jsonb` column is a JSON value, an instant a number of
milliseconds since the epoch.
-/

namespace InvisibleString.Triggers

open Json

/-- A `uuid` column as text: digits, letters and dashes. -/
structure Uuid where
  text : JsString
  plain : unit ':' ∉ text
  deriving DecidableEq

/-- Ids for examples. -/
def Uuid.t : Uuid := ⟨ascii "t", by decide⟩

def Uuid.w : Uuid := ⟨ascii "w", by decide⟩

inductive TriggerType where
  | manual
  | form
  | webhook
  | slack
  | schedule
  deriving DecidableEq, Repr

structure TriggerRow (N : Type) where
  id : Uuid
  workflowId : Uuid
  type : TriggerType
  /-- hash of the webhook or form token -/
  tokenHash : Option JsString
  formSchema : Option (Value N)
  /-- the app integration a Slack trigger routes through -/
  integrationId : Option Uuid
  binding : Option (Value N)
  /-- 5-field UTC cron expression -/
  cron : Option JsString
  /-- the schedule ticker's cursor -/
  nextFireAt : Option Nat
  enabled : Bool

/-- `Config` is a parsed workflow config; a snapshot that does not parse is `some none`. -/
structure WorkflowRow (Config : Type) where
  id : Uuid
  organizationId : JsString
  enabled : Bool
  draft : Option Config
  published : Option (Option Config)

/-- `RuntimeApiError`. -/
structure ApiError where
  status : Nat
  code : String
  message : String
  deriving DecidableEq

end InvisibleString.Triggers
