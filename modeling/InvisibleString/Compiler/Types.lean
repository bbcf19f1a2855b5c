import InvisibleString.Compiler.Canonical
import InvisibleString.Compiler.Approval

/- # `Compiler.Types` — what the compiler is given

The definition of an agent as the schema leaves it, and the rows that the control plane has
resolved for it.  Where the source has a record with arbitrary keys the model has a list of
entries that carries the proof that no key stands twice.

**Proved here.**

    the schema reads the same definition out of the same value  (`parseDefinition_same`)
-/

namespace InvisibleString.Compiler

open Json

variable {N : Type}

/-! ## The definition -/

inductive ModelPreset where
  | powerful
  | balanced
  | quick
  deriving DecidableEq

def ModelPreset.text : ModelPreset → JsString
  | .powerful => ascii "powerful"
  | .balanced => ascii "balanced"
  | .quick => ascii "quick"

inductive ReasoningEffort where
  | providerDefault
  | none
  | minimal
  | low
  | medium
  | high
  | xhigh
  | max
  deriving DecidableEq

def ReasoningEffort.text : ReasoningEffort → JsString
  | .providerDefault => ascii "provider-default"
  | .none => ascii "none"
  | .minimal => ascii "minimal"
  | .low => ascii "low"
  | .medium => ascii "medium"
  | .high => ascii "high"
  | .xhigh => ascii "xhigh"
  | .max => ascii "max"

/-- `modelPresetSlugSchema.options`. -/
def modelPresets : List ModelPreset := [.powerful, .balanced, .quick]

/-- `reasoningEffortSchema.options`. -/
def reasoningEfforts : List ReasoningEffort :=
  [.providerDefault, .none, .minimal, .low, .medium, .high, .xhigh, .max]

theorem ModelPreset.text_injective : ∀ a b : ModelPreset, a.text = b.text → a = b := by
  intro a b
  cases a <;> cases b <;> decide

theorem ReasoningEffort.text_injective : ∀ a b : ReasoningEffort, a.text = b.text → a = b := by
  intro a b
  cases a <;> cases b <;> decide

structure AgentModel where
  preset : ModelPreset
  modelId : Option JsString
  reasoning : Option ReasoningEffort

structure AgentContext where
  mcpConnectionIds : List JsString
  skillIds : List JsString

structure AgentDefinition where
  persona : JsString
  model : AgentModel
  context : AgentContext

/-! ## The schema -/

/-- What the schema library knows: its pattern for UUIDs, and its words for a value that it
refuses. -/
structure SchemaLibrary (N : Type) where
  isUuid : JsString → Bool
  issues : JsValue N → JsString

/-- `z.string()`. -/
def readString : JsValue N → Option JsString
  | .str s => some s
  | _ => none

/-- `z.string().min(1)`. -/
def readNonEmpty : JsValue N → Option JsString
  | .str s => if s = [] then none else some s
  | _ => none

/-- `z.enum(options)`. -/
def readEnum {A : Type} (text : A → JsString) (options : List A) : JsValue N → Option A
  | .str s => options.find? fun a => text a = s
  | _ => none

/-- `schema.optional()`. -/
def readOptional {A : Type} (read : JsValue N → Option A) : JsValue N → Option (Option A)
  | .undefined => some none
  | v => (read v).map some

/-- `schema.default(value)`. -/
def readDefault {A : Type} (value : A) (read : JsValue N → Option A) : JsValue N → Option A
  | .undefined => some value
  | v => read v

/-- `z.array(schema)`. -/
def readArray {A : Type} (read : JsValue N → Option A) : JsValue N → Option (List A)
  | .arr items => items.mapM read
  | _ => none

/-- `z.object({..})` looks for its members in an object only. -/
def asObject : JsValue N → Option (JsValue N)
  | .obj members => some (.obj members)
  | _ => none

/-- `/^cn_[0-9a-z]{16}$/`. -/
def isConnectionNanoid (s : JsString) : Bool :=
  (ascii "cn_").isPrefixOf s && s.length = 19 &&
    (s.drop 3).all fun c => (unit '0' ≤ c && c ≤ unit '9') || (unit 'a' ≤ c && c ≤ unit 'z')

/-- `connectionIdShape`. -/
def readConnectionId (S : SchemaLibrary N) : JsValue N → Option JsString
  | .str s => if S.isUuid s || isConnectionNanoid s then some s else none
  | _ => none

/-- `z.uuid()`. -/
def readUuid (S : SchemaLibrary N) : JsValue N → Option JsString
  | .str s => if S.isUuid s then some s else none
  | _ => none

/-- `idArray(shape, what)`: no id stands twice. -/
def readIdArray (shape : JsValue N → Option JsString) : JsValue N → Option (List JsString) :=
  readDefault [] fun v => (readArray shape v).bind fun ids => if ids.Nodup then some ids else none

/-- `agentModelSchema`. -/
def parseModel (v : JsValue N) : Option AgentModel := do
  let v ← asObject v
  let preset ← readDefault .balanced (readEnum ModelPreset.text modelPresets)
    (v.field (ascii "preset"))
  let modelId ← readOptional readNonEmpty (v.field (ascii "modelId"))
  let reasoning ← readOptional (readEnum ReasoningEffort.text reasoningEfforts)
    (v.field (ascii "reasoning"))
  return { preset, modelId, reasoning }

/-- `agentContextSchema`. -/
def parseContext (S : SchemaLibrary N) (v : JsValue N) : Option AgentContext := do
  let v ← asObject v
  let mcpConnectionIds ← readIdArray (readConnectionId S) (v.field (ascii "mcpConnectionIds"))
  let skillIds ← readIdArray (readUuid S) (v.field (ascii "skillIds"))
  return { mcpConnectionIds, skillIds }

/-- `agentDefinitionSchema.safeParse`. -/
def parseDefinition (S : SchemaLibrary N) (v : JsValue N) : Option AgentDefinition := do
  let v ← asObject v
  let persona ← readDefault [] readString (v.field (ascii "persona"))
  let model ← parseModel (v.field (ascii "model"))
  let context ← parseContext S (v.field (ascii "context"))
  return { persona, model, context }

/-! ### A schema does not see the order of keys -/

/-- The reader gives one answer for values that are the same. -/
def Respects {A : Type} (read : JsValue N → Option A) : Prop :=
  ∀ v w, v.KeysOnce → w.KeysOnce → Same v w → read v = read w

/-- A reader that knows strings only. -/
theorem respects_of_strings {A : Type} {read : JsValue N → Option A}
    (h : ∀ v, (∀ s, v ≠ .str s) → read v = none) : Respects read := by
  intro v w _ _ hs
  cases v with
  | str s => rw [show w = .str s from hs]
  | undefined | null | bool | num | nonFinite | other =>
    rw [show w = _ from hs]
  | arr | obj =>
    obtain ⟨_, rfl, _⟩ := hs
    rw [h _ fun s heq => (by cases heq), h _ fun s heq => (by cases heq)]

theorem respects_readString : Respects (readString (N := N)) :=
  respects_of_strings fun v h => by cases v <;> first | rfl | exact absurd rfl (h _)

theorem respects_readNonEmpty : Respects (readNonEmpty (N := N)) :=
  respects_of_strings fun v h => by cases v <;> first | rfl | exact absurd rfl (h _)

theorem respects_readEnum {A : Type} (text : A → JsString) (options : List A) :
    Respects (readEnum (N := N) text options) :=
  respects_of_strings fun v h => by cases v <;> first | rfl | exact absurd rfl (h _)

theorem respects_readConnectionId (S : SchemaLibrary N) : Respects (readConnectionId S) :=
  respects_of_strings fun v h => by cases v <;> first | rfl | exact absurd rfl (h _)

theorem respects_readUuid (S : SchemaLibrary N) : Respects (readUuid S) :=
  respects_of_strings fun v h => by cases v <;> first | rfl | exact absurd rfl (h _)

theorem Respects.optional {A : Type} {read : JsValue N → Option A} (h : Respects read) :
    Respects (readOptional read) := by
  intro v w hv hw hs
  by_cases hu : v = .undefined
  · rw [hu, hs.undefined_iff.mp hu]
  · have hu' := hs.ne_undefined hu
    have hread : ∀ u : JsValue N, u ≠ .undefined → readOptional read u = (read u).map some := by
      intro u hne
      cases u <;> first | rfl | exact absurd rfl hne
    rw [hread v hu, hread w hu', h v w hv hw hs]

theorem Respects.default {A : Type} {read : JsValue N → Option A} (h : Respects read) (value : A) :
    Respects (readDefault value read) := by
  intro v w hv hw hs
  by_cases hu : v = .undefined
  · rw [hu, hs.undefined_iff.mp hu]
  · have hu' := hs.ne_undefined hu
    have hread : ∀ u : JsValue N, u ≠ .undefined → readDefault value read u = read u := by
      intro u hne
      cases u <;> first | rfl | exact absurd rfl hne
    rw [hread v hu, hread w hu', h v w hv hw hs]

theorem Respects.array {read : JsValue N → Option JsString} (h : Respects read)
    (hu : read .undefined = none) (hn : read .null = none) : Respects (readArray read) := by
  intro v w hv hw hs
  cases v with
  | undefined | null | bool | num | nonFinite | str | other => rw [show w = _ from hs]
  | obj members =>
    obtain ⟨members', rfl, _⟩ := hs
    rfl
  | arr items =>
    obtain ⟨items', rfl, hs⟩ := hs
    change items.mapM read = items'.mapM read
    change ItemsOnce items at hv
    change ItemsOnce items' at hw
    induction items generalizing items' with
    | nil => rw [show items' = [] from hs]
    | cons item items ih =>
      obtain ⟨item', rest, rfl, hs, hitem⟩ := hs
      rw [List.mapM_cons, List.mapM_cons, ih rest hs hv.2 hw.2]
      rcases hitem with hitem | ⟨rfl, rfl⟩ | ⟨rfl, rfl⟩
      · rw [h item item' hv.1 hw.1 hitem]
      · rw [hu, hn]
      · rw [hu, hn]

theorem Respects.idArray {shape : JsValue N → Option JsString} (h : Respects shape)
    (hu : shape .undefined = none) (hn : shape .null = none) : Respects (readIdArray shape) := by
  refine Respects.default (fun v w hv hw hs => ?_) []
  rw [h.array hu hn v w hv hw hs]

theorem Respects.object {A : Type} {read : JsValue N → Option A}
    (h : ∀ v w, (∀ key, (v.field key).KeysOnce) → (∀ key, (w.field key).KeysOnce) →
      (∀ key, Same (v.field key) (w.field key)) → read v = read w) :
    Respects fun v => (asObject v).bind read := by
  intro v w hv hw hs
  cases v with
  | undefined | null | bool | num | nonFinite | str | other => rw [show w = _ from hs]
  | arr items =>
    obtain ⟨items', rfl, _⟩ := hs
    rfl
  | obj members =>
    have hfields := h _ _ (keysOnce_field hv) (keysOnce_field hw) fun key => hs.field hv hw key
    obtain ⟨members', rfl, _⟩ := hs
    exact hfields

theorem respects_parseModel : Respects (parseModel (N := N)) := by
  refine Respects.object fun v w hv hw hs => ?_
  rw [((respects_readEnum ModelPreset.text modelPresets).default .balanced) _ _ (hv _) (hw _) (hs _),
    respects_readNonEmpty.optional _ _ (hv _) (hw _) (hs _),
    (respects_readEnum ReasoningEffort.text reasoningEfforts).optional _ _ (hv _) (hw _) (hs _)]

theorem respects_parseContext (S : SchemaLibrary N) : Respects (parseContext S) := by
  refine Respects.object fun v w hv hw hs => ?_
  rw [(respects_readConnectionId S).idArray rfl rfl _ _ (hv _) (hw _) (hs _),
    (respects_readUuid S).idArray rfl rfl _ _ (hv _) (hw _) (hs _)]

theorem parseDefinition_same (S : SchemaLibrary N) : Respects (parseDefinition S) := by
  refine Respects.object fun v w hv hw hs => ?_
  rw [respects_readString.default [] _ _ (hv _) (hw _) (hs _),
    respects_parseModel _ _ (hv _) (hw _) (hs _), respects_parseContext S _ _ (hv _) (hw _) (hs _)]

/-! ## The resolved rows -/

/-- A `Record<string, V>`. -/
structure JsRecord (V : Type) where
  entries : List (JsString × V)
  once : OrderedMap.UniqueKeys entries

/-- The pins of `versions.json` that a generated project reads or that the type names. -/
inductive Pin where
  | eve
  | ai
  | worldPostgres
  | openrouterProvider
  | anthropicProvider
  | zod
  | typescript
  | typesNode
  | node
  deriving DecidableEq

def Pin.key : Pin → JsString
  | .eve => ascii "eve"
  | .ai => ascii "ai"
  | .worldPostgres => ascii "worldPostgres"
  | .openrouterProvider => ascii "openrouterProvider"
  | .anthropicProvider => ascii "anthropicProvider"
  | .zod => ascii "zod"
  | .typescript => ascii "typescript"
  | .typesNode => ascii "typesNode"
  | .node => ascii "node"

/-- `versions.json`: the pins are texts, the other members are anything. -/
structure RuntimeVersions (N : Type) where
  members : List (JsString × JsValue N)
  once : (JsValue.obj members).KeysOnce
  pin : Pin → JsString
  pinned : ∀ p, (JsValue.obj members).field p.key = .str (pin p)

structure ResolvedModel where
  provider : JsString
  modelId : JsString
  reasoning : JsString

inductive ConnectionAuthSpec where
  | none
  | bearerToken
  | headers (headers : JsRecord JsString)
  | oauth (connectionId : JsString)

structure ToolFilterSpec where
  allow : Option (List JsString)
  block : Option (List JsString)

structure ResolvedMcpConnection where
  id : JsString
  slug : JsString
  url : JsString
  description : JsString
  auth : ConnectionAuthSpec
  tools : Option ToolFilterSpec
  approval : ApprovalSpec

structure ResolvedSkill where
  id : JsString
  slug : JsString
  description : JsString
  markdown : JsString
  files : Option (JsRecord JsString)

structure CompileOptions where
  dev : Option Bool

structure CompileDeps (N : Type) where
  versions : RuntimeVersions N
  resolvedModel : ResolvedModel
  workspaceSlug : JsString
  agentId : JsString
  agentSlug : JsString
  connections : List ResolvedMcpConnection
  skills : List ResolvedSkill
  options : Option CompileOptions
  buildEnvEpoch : Option N

/-- `deps.options?.dev === true`. -/
def CompileDeps.dev (deps : CompileDeps N) : Bool :=
  deps.options.any fun options => options.dev = some true

end InvisibleString.Compiler
