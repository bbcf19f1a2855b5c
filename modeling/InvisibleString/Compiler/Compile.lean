import InvisibleString.Compiler.Codegen
import InvisibleString.Shared.References

/- # `Compiler.Compile` — from an agent to the files of its project

The checks of a compilation one after the other, the instructions with their references
written out, the files in the order they are set, and the hash.

**Proved here.**

    equal hash inputs give equal files, other orders of rows and keys give the same files and
      the same hash, and the canonical text tells any two other values apart
                                                                    (`compile_hash_covers`)
-/

namespace InvisibleString.Compiler

open Json
open Checks (bind_eq_ok bind_of_eq_ok)
open InvisibleString.Runtime (CaseMapping isSlugUnit isSlugOrHyphen isHeaderName isEnvName)
open InvisibleString.Shared (ParsedReference ReferenceKind parseReferences)

variable {N : Type}

/-! ## Checks -/

/-- Throws `e` unless the condition holds. -/
def check (p : Prop) [Decidable p] (e : CompileError) : Except CompileError Unit :=
  if p then .ok () else .error e

/-- The check for each one in turn. -/
def checkAll {A : Type} (f : A → Except CompileError Unit) : List A → Except CompileError Unit
  | [] => .ok ()
  | a :: l => do
    f a
    checkAll f l

theorem check_ok {p : Prop} [Decidable p] {e : CompileError} : check p e = .ok () ↔ p := by
  rw [check]
  by_cases h : p
  · rw [if_pos h]
    exact ⟨fun _ => h, fun _ => rfl⟩
  · rw [if_neg h]
    exact ⟨nofun, fun hp => absurd hp h⟩

theorem then_ok {x y : Except CompileError Unit} :
    (do x; y) = .ok () ↔ x = .ok () ∧ y = .ok () := by
  cases x with
  | error e => exact ⟨nofun, fun h => nomatch h.1⟩
  | ok u => exact ⟨fun h => ⟨rfl, h⟩, fun h => h.2⟩

theorem checkAll_ok {A : Type} {f : A → Except CompileError Unit} {l : List A} :
    checkAll f l = .ok () ↔ ∀ a ∈ l, f a = .ok () := by
  induction l with
  | nil => exact ⟨nofun, fun _ => rfl⟩
  | cons a l ih => rw [checkAll, then_ok, ih, List.forall_mem_cons]

/-! ## Validation -/

/-- `SLUG_PATTERN`. -/
def isSlug (slug : JsString) : Bool :=
  slug.length ≤ 64 && slug.head?.any isSlugUnit && slug.getLast?.any isSlugUnit &&
    slug.all isSlugOrHyphen

def assertSlug (kind slug : JsString) : Except CompileError Unit :=
  check (isSlug slug) ⟨ascii "INVALID_SLUG", kind ++ ascii " slug \"" ++ slug ++ ascii
    "\" must be lowercase kebab-case ([a-z0-9-], 1-64 chars, no leading/trailing \"-\")",
    [(ascii "kind", kind), (ascii "slug", slug)]⟩

/-- `MODEL_PROVIDERS`. -/
def modelProviders : List JsString := [ascii "openrouter", ascii "anthropic"]

def validateDeps (definition : AgentDefinition) (deps : CompileDeps N) :
    Except CompileError Unit := do
  let model := deps.resolvedModel
  check (model.provider ∈ modelProviders) ⟨ascii "INVALID_DEPS",
    ascii "unsupported model provider \"" ++ model.provider ++ ascii "\"",
    [(ascii "provider", model.provider)]⟩
  check (trim model.modelId ≠ []) ⟨ascii "INVALID_DEPS", ascii "resolvedModel.modelId is empty", []⟩
  check (model.reasoning ∈ reasoningEfforts.map ReasoningEffort.text) ⟨ascii "INVALID_DEPS",
    ascii "unsupported reasoning effort \"" ++ model.reasoning ++ ascii "\"",
    [(ascii "reasoning", model.reasoning)]⟩
  assertSlug (ascii "workspace") deps.workspaceSlug
  assertSlug (ascii "agent") deps.agentSlug
  check (trim deps.agentId ≠ []) ⟨ascii "INVALID_DEPS",
    ascii "deps.agentId is empty — the agent's stable id is the hash's identity input", []⟩
  check (∀ modelId ∈ definition.model.modelId, modelId = model.modelId) ⟨ascii "MODEL_MISMATCH",
    ascii "definition.model.modelId \"" ++ definition.model.modelId.getD [] ++
      ascii "\" does not match deps.resolvedModel.modelId \"" ++ model.modelId ++ ascii "\"",
    [(ascii "definitionModelId", definition.model.modelId.getD []),
      (ascii "resolvedModelId", model.modelId)]⟩
  let reasoning := definition.model.reasoning.map ReasoningEffort.text
  check (∀ effort ∈ reasoning, effort = model.reasoning) ⟨ascii "MODEL_MISMATCH",
    ascii "definition.model.reasoning \"" ++ reasoning.getD [] ++
      ascii "\" does not match deps.resolvedModel.reasoning \"" ++ model.reasoning ++ ascii "\"",
    [(ascii "definitionReasoning", reasoning.getD []), (ascii "resolvedReasoning", model.reasoning)]⟩

/-- The last loop of `validateJoin`, `seen` the slugs so far. -/
def validateSlugs (kind : JsString) (seen : List JsString) : List JsString → Except CompileError Unit
  | [] => .ok ()
  | slug :: slugs => do
    assertSlug kind slug
    check (slug ∉ seen) ⟨ascii "DUPLICATE_SLUG",
      ascii "two resolved " ++ kind ++ ascii "s share the slug \"" ++ slug ++ ascii "\"",
      [(ascii "slug", slug)]⟩
    validateSlugs kind (slug :: seen) slugs

/-- The rows, by their ids and slugs, against the ids of the definition. -/
def validateJoin (kind upper : JsString) (referencedIds : List JsString)
    (resolved : List (JsString × JsString)) : Except CompileError Unit := do
  checkAll (fun id => check (id ∈ resolved.map Prod.fst) ⟨ascii "MISSING_" ++ upper,
    ascii "definition references " ++ kind ++ ascii " " ++ id ++ ascii " but deps." ++ kind ++
      ascii "s has no entry for it", [(ascii "id", id)]⟩) referencedIds
  checkAll (fun entry => check (entry.1 ∈ referencedIds) ⟨ascii "UNEXPECTED_" ++ upper,
    ascii "deps." ++ kind ++ ascii "s contains " ++ kind ++ ascii " " ++ entry.1 ++ ascii " (\"" ++
      entry.2 ++ ascii "\") the definition does not reference",
    [(ascii "id", entry.1), (ascii "slug", entry.2)]⟩) resolved
  validateSlugs kind [] (resolved.map Prod.snd)

/-- What `new URL` finds in a text. -/
structure ParsedUrl where
  username : JsString
  password : JsString
  searchParamKeys : List JsString

def asciiLower (c : CodeUnit) : CodeUnit := if unit 'A' ≤ c && c ≤ unit 'Z' then c + 32 else c

/-- `CREDENTIAL_QUERY_PARAM`. -/
def isCredentialQueryParam (param : JsString) : Bool :=
  param.map asciiLower ∈ ["api-key", "api_key", "apikey", "token", "access-token", "access_token",
    "accesstoken", "auth", "authorization", "bearer", "secret", "password", "key", "sig",
    "signature"].map ascii

def urlLiteralNote : JsString :=
  ascii " — URLs are emitted as literals in generated files; use bearer-token or header env-var auth instead"

def connectionError (code : String) (slug message : JsString)
    (details : List (JsString × JsString)) : CompileError :=
  ⟨ascii code, ascii "connection \"" ++ slug ++ ascii "\" " ++ message, (ascii "slug", slug) :: details⟩

def validateUrl (parseUrl : JsString → Option ParsedUrl) (slug url : JsString) :
    Except CompileError Unit := do
  check (trim url ≠ []) (connectionError "INVALID_DEPS" slug (ascii "has an empty url") [])
  match parseUrl url with
  | none => .error (connectionError "INVALID_DEPS" slug (ascii "url is not a valid URL") [])
  | some parsed => do
    check (parsed.username = [] ∧ parsed.password = []) (connectionError "INVALID_DEPS" slug
      (ascii "url embeds userinfo credentials" ++ urlLiteralNote) [])
    checkAll (fun param => check (isCredentialQueryParam param = false)
      (connectionError "INVALID_DEPS" slug
        (ascii "url carries a credential-looking query parameter \"" ++ param ++ ascii "\"" ++
          urlLiteralNote) [(ascii "param", param)])) parsed.searchParamKeys

def validateHeader (slug : JsString) (entry : JsString × JsString) : Except CompileError Unit := do
  check (isHeaderName entry.1) (connectionError "INVALID_HEADER" slug
    (ascii "has an invalid header name \"" ++ entry.1 ++ ascii "\"") [(ascii "header", entry.1)])
  check (isEnvName entry.2) (connectionError "INVALID_HEADER" slug
    (ascii "header \"" ++ entry.1 ++ ascii "\" names an invalid env var \"" ++ entry.2 ++
      ascii "\" (expected /^[A-Z][A-Z0-9_]*$/) — headers carry ENV VAR NAMES, never secret values")
    [(ascii "header", entry.1), (ascii "envName", entry.2)])

def validateAuth (id slug : JsString) : ConnectionAuthSpec → Except CompileError Unit
  | .oauth connectionId =>
    check (connectionId = id) (connectionError "INVALID_DEPS" slug
      (ascii "oauth auth names connectionId \"" ++ connectionId ++
        ascii "\" but the connection's id is \"" ++ id ++ ascii "\"")
      [(ascii "connectionId", connectionId)])
  | .headers entries => do
    check (entries.entries ≠ []) (connectionError "INVALID_HEADER" slug
      (ascii "uses headers auth with no headers") [])
    checkAll (validateHeader slug) entries.entries
  | _ => .ok ()

def validateTools (slug : JsString) : Option ToolFilterSpec → Except CompileError Unit
  | none => .ok ()
  | some tools => do
    check (tools.allow.isSome ≠ tools.block.isSome) (connectionError "INVALID_TOOL_FILTER" slug
      (ascii "tools filter must carry exactly one of allow/block") [])
    let list := (tools.allow.or tools.block).getD []
    check (list ≠ [] ∧ ∀ tool ∈ list, trim tool ≠ []) (connectionError "INVALID_TOOL_FILTER" slug
      (ascii "tools filter must list at least one non-empty tool name") [])

def validateConnection (parseUrl : JsString → Option ParsedUrl) (connection : ResolvedMcpConnection) :
    Except CompileError Unit := do
  validateUrl parseUrl connection.slug connection.url
  check (trim connection.description ≠ []) (connectionError "INVALID_DEPS" connection.slug
    (ascii "has an empty description — connection_search routes on it") [])
  validateAuth connection.id connection.slug connection.auth
  validateTools connection.slug connection.tools
  validateApproval connection.slug connection.approval

/-- A path that stays inside the directory of its skill. -/
def isSkillPath (path : JsString) : Bool :=
  path ≠ [] && path.head? ≠ some (unit '/') && path.getLast? ≠ some (unit '/') &&
    (path.splitOn (unit '/')).all (fun segment => segment ∉ [[], ascii ".", ascii ".."]) &&
    path ≠ ascii "SKILL.md"

def skillError (code : String) (slug message : JsString) (details : List (JsString × JsString)) :
    CompileError :=
  ⟨ascii code, ascii "skill \"" ++ slug ++ ascii "\" " ++ message, (ascii "slug", slug) :: details⟩

def validateSkill (skill : ResolvedSkill) : Except CompileError Unit := do
  check (trim skill.description ≠ []) (skillError "INVALID_DEPS" skill.slug
    (ascii "has an empty description — eve routes load_skill on it") [])
  check (trim skill.markdown ≠ []) (skillError "INVALID_DEPS" skill.slug
    (ascii "has empty markdown") [])
  checkAll (fun file => check (isSkillPath file.1) (skillError "INVALID_SKILL_FILE" skill.slug
    (ascii "file path \"" ++ file.1 ++ ascii
      "\" must be a relative path inside the skill directory (and not SKILL.md itself)")
    [(ascii "path", file.1)])) skill.extraFiles

/-! ## Instructions -/

/-- A connection or a skill as the instructions name it: its slug and its description. -/
abbrev ContextEntry := JsString × JsString

/-- `[...bySlug.keys()].join(", ") || "none"`. -/
def slugList (entries : List ContextEntry) : JsString :=
  let slugs := join (ascii ", ") ((OrderedMap.setAll entries []).map Prod.fst)
  if slugs = [] then ascii "none" else slugs

def checkReference (connections skills : List ContextEntry) (ref : ParsedReference) :
    Except CompileError Unit :=
  let quoted := ascii "\"" ++ ref.raw ++ ascii "\" "
  match ref.kind with
  | .trigger path => .error ⟨ascii "TRIGGER_REF_NOT_ALLOWED",
      quoted ++ ascii "cannot be used in a persona — agents are trigger-agnostic; @trigger references belong in workflow instructions",
      [(ascii "raw", ref.raw), (ascii "path", path)]⟩
  | .step .. | .state _ | .item _ | .now => .error ⟨ascii "PIPELINE_REF_NOT_ALLOWED",
      quoted ++ ascii "cannot be used in a persona — pipeline scope (@steps/@state/@item/@now) exists only in workflow pipelines",
      [(ascii "raw", ref.raw)]⟩
  | .skill slug => check (slug ≠ [] ∧ slug ∈ skills.map Prod.fst) ⟨ascii "UNRESOLVED_REFERENCE",
      if slug = [] then
        ascii "bare \"@skill\" reference — name a skill like \"@skill.release-notes\""
      else quoted ++ ascii "does not match any skill in this agent's context (skills: " ++
        slugList skills ++ ascii ")",
      [(ascii "raw", ref.raw), (ascii "slug", slug)]⟩
  | .connection name => check (name ∈ connections.map Prod.fst) ⟨ascii "UNRESOLVED_REFERENCE",
      quoted ++ ascii "does not match any connection in this agent's context (connections: " ++
        slugList connections ++
        ascii "). Prose \"@words\" count as references — rephrase or add the connection.",
      [(ascii "raw", ref.raw), (ascii "name", name)]⟩

/-- One reference written out, the text in front of it as it was. -/
def rewriteReference (text : JsString) (ref : ParsedReference) : JsString :=
  match ref.kind with
  | .skill slug => text.take ref.start ++ (ascii "the \"" ++ slug ++ ascii "\" skill") ++ text.drop ref.stop
  | .connection name =>
    text.take ref.start ++ (ascii "the \"" ++ name ++ ascii "\" connection") ++ text.drop ref.stop
  | _ => text

def appendixLines (title : String) (entries : List ContextEntry) : List JsString :=
  ascii title :: entries.map fun entry => ascii "- **" ++ entry.1 ++ ascii "** — " ++ entry.2

def appendix (connections skills : List ContextEntry) : List JsString :=
  let connectionLines :=
    if connections = [] then []
    else appendixLines "### Connections (discover tools with `connection_search`)" connections
  if skills = [] then connectionLines
  else connectionLines ++ (if connectionLines = [] then [] else [[]]) ++
    appendixLines "### Skills (load on demand with `load_skill`)" skills

/-- The content of `agent/instructions.md`. -/
def renderInstructions (persona : JsString) (connections skills : List ContextEntry) :
    Except CompileError JsString := do
  check (trim persona ≠ []) ⟨ascii "EMPTY_PERSONA",
    ascii "persona is empty — a publishable agent needs instructions.md content", []⟩
  let refs := parseReferences persona
  checkAll (checkReference connections skills) refs
  let resolved := trim (refs.reverse.foldl rewriteReference persona)
  let lines := appendix connections skills
  let sections := if lines = [] then [resolved]
    else [resolved, join (ascii "\n") (ascii "## Workspace context" :: [] :: lines)]
  .ok (join (ascii "\n\n---\n\n") sections ++ ascii "\n")

/-! ## The compilation -/

/-- What the compiler stands on: numbers, the schema library, case tables, the fixed passages of
its templates, URLs and the digest. -/
structure Toolchain (N : Type) where
  numbers : NumberFormat N
  schema : SchemaLibrary N
  cases : CaseMapping
  templates : Templates
  parseUrl : JsString → Option ParsedUrl
  sha256 : JsString → JsString

inductive CompileFailure where
  | compileError (error : CompileError)
  | typeError (message : JsString)

structure CompileResult where
  files : List ProjectFile
  hash : JsString

variable (C : Toolchain N)

def ResolvedMcpConnection.entry (connection : ResolvedMcpConnection) : ContextEntry :=
  (connection.slug, connection.description)

def ResolvedSkill.entry (skill : ResolvedSkill) : ContextEntry := (skill.slug, skill.description)

/-- The checks of `compile`, before anything is written. -/
def validateInput (definition : AgentDefinition) (deps : CompileDeps N) :
    Except CompileError Unit := do
  validateDeps definition deps
  validateJoin (ascii "connection") (ascii "CONNECTION") definition.context.mcpConnectionIds
    (deps.connections.map fun c => (c.id, c.slug))
  validateJoin (ascii "skill") (ascii "SKILL") definition.context.skillIds
    (deps.skills.map fun s => (s.id, s.slug))
  checkAll (validateConnection C.parseUrl) deps.connections
  checkAll validateSkill deps.skills

/-- `files.set(path, content)` for each file of the project. -/
def projectFiles (deps : CompileDeps N) (instructions hash : JsString) : List ProjectFile :=
  let connections := sortedConnections deps
  let kinds := connections.map fun c => c.auth.kind
  [(ascii "package.json", emitPackageJson C.numbers deps),
    (ascii "tsconfig.json", C.templates.tsconfig),
    (ascii "agent/agent.ts", emitAgentTs C.templates deps.resolvedModel),
    (ascii "agent/instructions.md", instructions),
    (ascii "agent/lib/platform-auth.ts", emitPlatformAuthLib C.templates deps.dev hash)] ++
  (if kinds.any (· ≠ ascii "none") then [(ascii "agent/lib/env.ts", C.templates.envLib)] else []) ++
  (if kinds.any (· = ascii "oauth") then
    [(ascii "agent/lib/platform-token.ts", C.templates.platformTokenLib)] else []) ++
  [(ascii "agent/channels/eve.ts", emitEveChannel deps.workspaceSlug deps.agentSlug)] ++
  (connections.map fun c =>
    (ascii "agent/connections/" ++ c.slug ++ ascii ".ts", emitConnection C.cases c)) ++
  (sortedSkills deps).flatMap emitSkill

/-- The definition as the schema leaves it. -/
def safeParse (definition : JsValue N) : Except CompileError AgentDefinition :=
  match parseDefinition C.schema definition with
  | some parsed => .ok parsed
  | none => .error ⟨ascii "INVALID_DEFINITION",
      ascii "agent definition failed validation: " ++ C.schema.issues definition,
      [(ascii "issues", C.schema.issues definition)]⟩

/-- `compile(definition, deps)`. -/
def compile (definition : JsValue N) (deps : CompileDeps N) : Except CompileFailure CompileResult := do
  let parsed ← (safeParse C definition).mapError .compileError
  (validateInput C parsed deps).mapError .compileError
  let instructions ← (renderInstructions parsed.persona
    ((sortedConnections deps).map ResolvedMcpConnection.entry)
    ((sortedSkills deps).map ResolvedSkill.entry)).mapError .compileError
  let hash ← (computeAgentHash C.numbers C.sha256 parsed deps COMPILER_VERSION).mapError .typeError
  .ok { files := OrderedMap.setAll (projectFiles C deps instructions hash) [], hash := hash }

/-! ## What the files depend on -/

theorem map_eq_of_forall₂ {A B : Type} {R : A → A → Prop} {f : A → B} {l l' : List A}
    (h : List.Forall₂ R l l') (hf : ∀ a b, R a b → f a = f b) : l.map f = l'.map f := by
  induction h with
  | nil => rfl
  | cons hab _ ih => rw [List.map_cons, List.map_cons, hf _ _ hab, ih]

theorem kind_eq_of_alike {a a' : ConnectionAuthSpec} (h : a.Alike a') : a.kind = a'.kind := by
  cases h <;> rfl

/-- Alike inputs have the same files, their instructions and their hash given. -/
theorem projectFiles_eq {deps deps' : CompileDeps N} (h : deps.Alike deps')
    (instructions hash : JsString) :
    projectFiles C deps instructions hash = projectFiles C deps' instructions hash := by
  have hkinds : (sortedConnections deps).map (fun c => c.auth.kind) =
      (sortedConnections deps').map fun c => c.auth.kind :=
    map_eq_of_forall₂ h.connections fun _ _ hc => kind_eq_of_alike hc.auth
  have hconnections : ((sortedConnections deps).map fun c =>
      (ascii "agent/connections/" ++ c.slug ++ ascii ".ts", emitConnection C.cases c)) =
      (sortedConnections deps').map fun c =>
        (ascii "agent/connections/" ++ c.slug ++ ascii ".ts", emitConnection C.cases c) :=
    map_eq_of_forall₂ h.connections fun _ _ hc => by rw [hc.slug, emitConnection_eq C.cases hc]
  have hskills : (sortedSkills deps).flatMap emitSkill = (sortedSkills deps').flatMap emitSkill := by
    rw [List.flatMap_def, List.flatMap_def, map_eq_of_forall₂ h.skills fun _ _ => emitSkill_eq]
  rw [projectFiles, projectFiles, hkinds, hconnections, hskills, emitPackageJson_eq C.numbers h,
    h.resolvedModel, h.dev, h.workspaceSlug, h.agentSlug]

theorem instructions_eq {deps deps' : CompileDeps N} (h : deps.Alike deps') (persona : JsString) :
    renderInstructions persona ((sortedConnections deps).map ResolvedMcpConnection.entry)
        ((sortedSkills deps).map ResolvedSkill.entry) =
      renderInstructions persona ((sortedConnections deps').map ResolvedMcpConnection.entry)
        ((sortedSkills deps').map ResolvedSkill.entry) := by
  have hconnections : (sortedConnections deps).map ResolvedMcpConnection.entry =
      (sortedConnections deps').map ResolvedMcpConnection.entry :=
    map_eq_of_forall₂ h.connections fun _ _ hc => Prod.ext hc.slug hc.description
  have hskills : (sortedSkills deps).map ResolvedSkill.entry =
      (sortedSkills deps').map ResolvedSkill.entry :=
    map_eq_of_forall₂ h.skills fun _ _ hs => Prod.ext hs.slug hs.description
  rw [hconnections, hskills]

/-- What an accepted input went through. -/
structure Accepted (definition : JsValue N) (deps : CompileDeps N) (parsed : AgentDefinition)
    (instructions text : JsString) : Prop where
  read : parseDefinition C.schema definition = some parsed
  valid : validateInput C parsed deps = .ok ()
  rendered : renderInstructions parsed.persona
    ((sortedConnections deps).map ResolvedMcpConnection.entry)
    ((sortedSkills deps).map ResolvedSkill.entry) = .ok instructions
  canonical : canonicalJson C.numbers (hashInput COMPILER_VERSION (parsed, deps)) = .ok text

theorem mapError_ok {ε ε' α : Type} {f : ε → ε'} {x : Except ε α} {a : α} :
    x.mapError f = .ok a ↔ x = .ok a := by
  cases x with
  | error e => exact ⟨nofun, nofun⟩
  | ok b => exact ⟨fun h => by cases h; rfl, fun h => by cases h; rfl⟩

variable {C}

theorem compile_ok {definition : JsValue N} {deps : CompileDeps N} {result : CompileResult} :
    compile C definition deps = .ok result ↔ ∃ parsed instructions text,
      Accepted C definition deps parsed instructions text ∧
      result = ⟨OrderedMap.setAll (projectFiles C deps instructions (C.sha256 text)) [],
        C.sha256 text⟩ := by
  constructor
  · intro h
    rw [compile] at h
    obtain ⟨parsed, hparsed, h⟩ := bind_eq_ok h
    obtain ⟨_, hvalid, h⟩ := bind_eq_ok h
    obtain ⟨instructions, hrendered, h⟩ := bind_eq_ok h
    obtain ⟨hash, hhash, h⟩ := bind_eq_ok h
    rw [mapError_ok, safeParse] at hparsed
    cases hdef : parseDefinition C.schema definition with
    | none =>
      rw [hdef] at hparsed
      cases hparsed
    | some p =>
      rw [hdef] at hparsed
      cases hparsed
      rw [mapError_ok, computeAgentHash] at hhash
      cases htext : canonicalJson C.numbers (hashInput COMPILER_VERSION (parsed, deps)) with
      | error e =>
        rw [htext] at hhash
        cases hhash
      | ok text =>
        rw [htext] at hhash
        cases hhash
        exact ⟨parsed, instructions, text,
          ⟨hdef, mapError_ok.mp hvalid, mapError_ok.mp hrendered, htext⟩, (Except.ok.inj h).symm⟩
  · rintro ⟨parsed, instructions, text, ⟨hparsed, hvalid, hrendered, htext⟩, rfl⟩
    have hparse : safeParse C definition = .ok parsed := by
      rw [safeParse, hparsed]
    have hhash : computeAgentHash C.numbers C.sha256 parsed deps COMPILER_VERSION =
        .ok (C.sha256 text) := by
      rw [computeAgentHash, htext]
      rfl
    rw [compile, bind_of_eq_ok (mapError_ok.mpr hparse), bind_of_eq_ok (mapError_ok.mpr hvalid),
      bind_of_eq_ok (mapError_ok.mpr hrendered), bind_of_eq_ok (mapError_ok.mpr hhash)]

/-- Accepted inputs with one canonical text have the same files and the same hash. -/
theorem compile_eq_of_alike {definition definition' : JsValue N} {deps deps' : CompileDeps N}
    {parsed : AgentDefinition} {instructions instructions' text text' : JsString}
    (h : Accepted C definition deps parsed instructions text)
    (h' : Accepted C definition' deps' parsed instructions' text') (ha : deps.Alike deps') :
    instructions = instructions' ∧ text = text' := by
  have hrendered := h.rendered
  rw [instructions_eq ha, h'.rendered] at hrendered
  have htext := (hashInput_eq_iff C.numbers h.canonical).mpr ⟨rfl, ha⟩
  rw [h'.canonical] at htext
  exact ⟨(Except.ok.inj hrendered).symm, (Except.ok.inj htext).symm⟩

/-! ## Other orders -/

/-- The same input with its rows and keys in another order. -/
structure Reordered (deps deps' : CompileDeps N) : Prop where
  versions : Same (.obj deps.versions.members) (.obj deps'.versions.members)
  resolvedModel : deps'.resolvedModel = deps.resolvedModel
  workspaceSlug : deps'.workspaceSlug = deps.workspaceSlug
  agentId : deps'.agentId = deps.agentId
  agentSlug : deps'.agentSlug = deps.agentSlug
  connections : ∃ l, deps.connections.Perm l ∧
    List.Forall₂ ResolvedMcpConnection.Alike l deps'.connections
  skills : ∃ l, deps.skills.Perm l ∧ List.Forall₂ ResolvedSkill.Alike l deps'.skills
  options : deps'.options = deps.options
  buildEnvEpoch : deps'.buildEnvEpoch = deps.buildEnvEpoch

theorem validateSlugs_ok {kind : JsString} {seen slugs : List JsString} :
    validateSlugs kind seen slugs = .ok () ↔
      (∀ slug ∈ slugs, isSlug slug = true ∧ slug ∉ seen) ∧ slugs.Nodup := by
  induction slugs generalizing seen with
  | nil => exact ⟨fun _ => ⟨nofun, List.nodup_nil⟩, fun _ => rfl⟩
  | cons slug slugs ih =>
    rw [validateSlugs, then_ok, then_ok, assertSlug, check_ok, check_ok, ih, List.forall_mem_cons,
      List.nodup_cons]
    constructor
    · rintro ⟨hslug, hseen, hrest, hnodup⟩
      refine ⟨⟨⟨hslug, hseen⟩, fun s hs => ⟨(hrest s hs).1, fun hm => ?_⟩⟩, fun hm => ?_, hnodup⟩
      · exact (hrest s hs).2 (List.mem_cons_of_mem _ hm)
      · exact (hrest slug hm).2 List.mem_cons_self
    · rintro ⟨⟨⟨hslug, hseen⟩, hrest⟩, hnot, hnodup⟩
      refine ⟨hslug, hseen, fun s hs => ⟨(hrest s hs).1, fun hm => ?_⟩, hnodup⟩
      rcases List.mem_cons.mp hm with rfl | hm
      · exact hnot hs
      · exact (hrest s hs).2 hm

/-- The rows are those that the definition references, under slugs of their own. -/
theorem validateJoin_ok {kind upper : JsString} {ids : List JsString}
    {resolved : List (JsString × JsString)} :
    validateJoin kind upper ids resolved = .ok () ↔
      (∀ id ∈ ids, id ∈ resolved.map Prod.fst) ∧ (∀ entry ∈ resolved, entry.1 ∈ ids) ∧
      (∀ slug ∈ resolved.map Prod.snd, isSlug slug = true) ∧ (resolved.map Prod.snd).Nodup := by
  rw [validateJoin, then_ok, then_ok, checkAll_ok, checkAll_ok, validateSlugs_ok]
  simp only [check_ok, List.not_mem_nil, not_false_iff, and_true]

theorem validateJoin_perm {kind upper : JsString} {ids : List JsString}
    {resolved resolved' : List (JsString × JsString)} (hp : resolved.Perm resolved')
    (h : validateJoin kind upper ids resolved = .ok ()) :
    validateJoin kind upper ids resolved' = .ok () := by
  obtain ⟨hmissing, hunexpected, hslugs, hnodup⟩ := validateJoin_ok.mp h
  refine validateJoin_ok.mpr ⟨fun id hid => ?_, fun entry he => ?_, fun slug hs => ?_, ?_⟩
  · exact (hp.map Prod.fst).mem_iff.mp (hmissing id hid)
  · exact hunexpected entry (hp.mem_iff.mpr he)
  · exact hslugs slug ((hp.map Prod.snd).mem_iff.mpr hs)
  · exact (hp.map Prod.snd).nodup_iff.mp hnodup

theorem validateConnection_alike {parseUrl : JsString → Option ParsedUrl}
    {c c' : ResolvedMcpConnection} (ha : c.Alike c')
    (h : validateConnection parseUrl c = .ok ()) : validateConnection parseUrl c' = .ok () := by
  rw [validateConnection, then_ok, then_ok, then_ok, then_ok] at h ⊢
  obtain ⟨hurl, hdescription, hauth, htools, happroval⟩ := h
  rw [ha.slug, ha.url] at hurl
  rw [ha.description, ha.slug] at hdescription
  rw [ha.slug, ha.tools] at htools
  rw [ha.slug, ha.approval] at happroval
  rw [ha.id, ha.slug] at hauth
  refine ⟨hurl, hdescription, ?_, htools, happroval⟩
  have hsame := ha.auth
  generalize c.auth = auth at hsame hauth
  generalize c'.auth = auth' at hsame ⊢
  cases hsame with
  | none | bearerToken | oauth => exact hauth
  | @headers r r' hp =>
    rw [validateAuth, then_ok, check_ok, checkAll_ok] at hauth ⊢
    exact ⟨fun he => hauth.1 (List.perm_nil.mp (he ▸ hp)),
      fun entry he => hauth.2 entry (hp.mem_iff.mpr he)⟩

theorem validateSkill_alike {s s' : ResolvedSkill} (ha : s.Alike s')
    (h : validateSkill s = .ok ()) : validateSkill s' = .ok () := by
  rw [validateSkill, then_ok, then_ok, check_ok, check_ok, checkAll_ok] at h ⊢
  obtain ⟨hdescription, hmarkdown, hfiles⟩ := h
  rw [ha.description] at hdescription
  rw [ha.markdown] at hmarkdown
  refine ⟨hdescription, hmarkdown, fun file hf => ?_⟩
  rw [← ha.slug]
  exact hfiles file ((extraFiles_perm ha).mem_iff.mpr hf)

theorem mem_of_reordered {A : Type} {R : A → A → Prop} {l l' : List A}
    (h : ∃ m, l.Perm m ∧ List.Forall₂ R m l') {b : A} (hb : b ∈ l') : ∃ a ∈ l, R a b := by
  obtain ⟨m, hp, hf⟩ := h
  obtain ⟨a, ha, hab⟩ : ∃ a ∈ m, R a b := by
    clear hp
    induction hf with
    | nil => cases hb
    | cons hhead _ ih =>
      rcases List.mem_cons.mp hb with rfl | hb
      · exact ⟨_, List.mem_cons_self, hhead⟩
      · obtain ⟨a, ha, hab⟩ := ih hb
        exact ⟨a, List.mem_cons_of_mem _ ha, hab⟩
  exact ⟨a, hp.mem_iff.mpr ha, hab⟩

theorem map_perm_of_reordered {A B : Type} {R : A → A → Prop} {f : A → B} {l l' : List A}
    (h : ∃ m, l.Perm m ∧ List.Forall₂ R m l') (hf : ∀ a b, R a b → f a = f b) :
    (l.map f).Perm (l'.map f) := by
  obtain ⟨m, hp, hm⟩ := h
  rw [← map_eq_of_forall₂ hm hf]
  exact hp.map f

theorem validateDeps_reordered {definition : AgentDefinition} {deps deps' : CompileDeps N}
    (h : Reordered deps deps') : validateDeps definition deps' = validateDeps definition deps := by
  simp only [validateDeps, h.resolvedModel, h.workspaceSlug, h.agentSlug, h.agentId]

theorem validateInput_reordered {definition : AgentDefinition} {deps deps' : CompileDeps N}
    (h : Reordered deps deps') (hv : validateInput C definition deps = .ok ()) :
    validateInput C definition deps' = .ok () := by
  rw [validateInput, then_ok, then_ok, then_ok, then_ok, checkAll_ok, checkAll_ok] at hv ⊢
  obtain ⟨hdeps, hconnections, hskills, heach, heachSkill⟩ := hv
  refine ⟨(validateDeps_reordered h).trans hdeps,
    validateJoin_perm (map_perm_of_reordered h.connections fun _ _ hc =>
      Prod.ext hc.id hc.slug) hconnections,
    validateJoin_perm (map_perm_of_reordered h.skills fun _ _ hs =>
      Prod.ext hs.id hs.slug) hskills, fun c' hc' => ?_, fun s' hs' => ?_⟩
  · obtain ⟨c, hc, ha⟩ := mem_of_reordered h.connections hc'
    exact validateConnection_alike ha (heach c hc)
  · obtain ⟨s, hs, ha⟩ := mem_of_reordered h.skills hs'
    exact validateSkill_alike ha (heachSkill s hs)

theorem sortBy_of_reordered {A : Type} {R : A → A → Prop} {key : A → JsString} {l l' : List A}
    (h : ∃ m, l.Perm m ∧ List.Forall₂ R m l') (hk : (l.map key).Nodup)
    (hkey : ∀ a b, R a b → key a = key b) :
    List.Forall₂ R (sortBy key l) (sortBy key l') := by
  obtain ⟨m, hp, hf⟩ := h
  rw [sortBy_eq_of_perm hp hk]
  exact sortBy_forall₂ hf fun a b hab => (hkey a b hab).symm

theorem Reordered.alike {definition : AgentDefinition} {deps deps' : CompileDeps N}
    (h : Reordered deps deps') (hv : validateInput C definition deps = .ok ()) :
    deps.Alike deps' := by
  rw [validateInput, then_ok, then_ok, then_ok, then_ok] at hv
  obtain ⟨_, hconnections, hskills, _, _⟩ := hv
  have hslugs := (validateJoin_ok.mp hconnections).2.2.2
  have hskillSlugs := (validateJoin_ok.mp hskills).2.2.2
  rw [List.map_map] at hslugs hskillSlugs
  refine ⟨h.versions, h.resolvedModel.symm, h.workspaceSlug.symm, h.agentId.symm, h.agentSlug.symm,
    sortBy_of_reordered h.connections hslugs fun _ _ hc => hc.slug,
    sortBy_of_reordered h.skills hskillSlugs fun _ _ hs => hs.slug, ?_, h.buildEnvEpoch.symm⟩
  rw [CompileDeps.dev, CompileDeps.dev, h.options]

/-- The files and the hash of an accepted input do not depend on any order. -/
theorem compile_reordered {definition definition' : JsValue N} {deps deps' : CompileDeps N}
    {result : CompileResult} (hd : definition.KeysOnce) (hd' : definition'.KeysOnce)
    (hs : Same definition definition') (h : Reordered deps deps')
    (hc : compile C definition deps = .ok result) : compile C definition' deps' = .ok result := by
  obtain ⟨parsed, instructions, text, ha, rfl⟩ := compile_ok.mp hc
  have halike := h.alike ha.valid
  refine compile_ok.mpr ⟨parsed, instructions, text, ⟨?_, ?_, ?_, ?_⟩, ?_⟩
  · rw [← parseDefinition_same C.schema definition definition' hd hd' hs]
    exact ha.read
  · exact validateInput_reordered h ha.valid
  · rw [← instructions_eq halike]
    exact ha.rendered
  · exact (hashInput_eq_iff C.numbers ha.canonical).mpr ⟨rfl, halike⟩
  · rw [projectFiles_eq C halike]

/-! ## The hash covers the files -/

/-- Accepted inputs with equal hash inputs, or with equal hashes where the digest has no
collision, have the same files and hashes; other orders of rows and keys give the same files
and the same hash; and two values have one canonical text exactly when they are the same up to
the order of keys and members without a value. -/
theorem compile_hash_covers (C : Toolchain N) :
    (∀ definition definition' deps deps' result result' parsed parsed',
      compile C definition deps = .ok result → compile C definition' deps' = .ok result' →
      parseDefinition C.schema definition = some parsed →
      parseDefinition C.schema definition' = some parsed' →
      (canonicalJson C.numbers (hashInput COMPILER_VERSION (parsed, deps)) =
          canonicalJson C.numbers (hashInput COMPILER_VERSION (parsed', deps')) ∨
        (∀ a b, C.sha256 a = C.sha256 b → a = b) ∧ result.hash = result'.hash) →
      result.files = result'.files ∧ result.hash = result'.hash) ∧
    (∀ definition definition' deps deps' result,
      JsValue.KeysOnce definition → JsValue.KeysOnce definition' →
      Same definition definition' → Reordered deps deps' →
      compile C definition deps = .ok result → compile C definition' deps' = .ok result) ∧
    (∀ (v w : JsValue N) text, v.KeysOnce → w.KeysOnce → canonicalJson C.numbers v = .ok text →
      (canonicalJson C.numbers w = .ok text ↔ Same v w)) := by
  refine ⟨?_, fun _ _ _ _ _ hd hd' hs h hc => compile_reordered hd hd' hs h hc,
    fun v w text hv hw h => canonicalJson_eq_iff C.numbers hv hw h⟩
  intro definition definition' deps deps' result result' parsed parsed' hc hc' hparsed hparsed' heq
  obtain ⟨p, instructions, text, ha, rfl⟩ := compile_ok.mp hc
  obtain ⟨p', instructions', text', ha', rfl⟩ := compile_ok.mp hc'
  have hp := ha.read
  rw [hparsed] at hp
  have hp' := ha'.read
  rw [hparsed'] at hp'
  cases hp
  cases hp'
  have htext : text = text' := by
    rcases heq with heq | ⟨hinjective, hhash⟩
    · rw [ha.canonical, ha'.canonical] at heq
      exact Except.ok.inj heq
    · exact hinjective text text' hhash
  subst htext
  obtain ⟨rfl, halike⟩ := (hashInput_eq_iff C.numbers ha.canonical).mp ha'.canonical
  obtain ⟨rfl, _⟩ := compile_eq_of_alike ha ha' halike
  exact ⟨by rw [projectFiles_eq C halike], rfl⟩

theorem ok_of_toBool {ε α : Type} {x : Except ε α} (h : x.toBool = true) : ∃ a, x = .ok a := by
  cases x with
  | error e => cases h
  | ok a => exact ⟨a, rfl⟩

/-- A compiler whose fixed passages are empty and whose digest is the text itself. -/
def plainToolchain : Toolchain Int where
  numbers := decimal
  schema := ⟨fun _ => true, fun _ => []⟩
  cases := Runtime.asciiCase
  templates := ⟨[], [], [], [], [], [], [], [], [], [], [], [], [], [], [], [], [], [], [], [],
    fun _ => none⟩
  parseUrl _ := some ⟨[], [], []⟩
  sha256 text := text

def pinnedVersions : RuntimeVersions Int where
  members := [Pin.eve, .ai, .worldPostgres, .openrouterProvider, .anthropicProvider, .zod,
    .typescript, .typesNode, .node].map fun p => (p.key, .str (ascii "1.0.0"))
  once := ⟨of_decide_eq_true rfl, trivial, trivial, trivial, trivial, trivial, trivial, trivial,
    trivial, trivial, trivial⟩
  pin _ := ascii "1.0.0"
  pinned p := by cases p <;> rfl

/-- A connection whose id is its slug, with these headers. -/
def headerConnection (slug : String) (headers : JsRecord JsString) : ResolvedMcpConnection :=
  ⟨ascii slug, ascii slug, ascii "https://mcp.example", ascii "Tools", .headers headers, none, .never⟩

def twoConnections (connections : List ResolvedMcpConnection) : CompileDeps Int where
  versions := pinnedVersions
  resolvedModel := ⟨ascii "anthropic", ascii "claude", ascii "high"⟩
  workspaceSlug := ascii "acme"
  agentId := ascii "ag_1"
  agentSlug := ascii "helper"
  connections := connections
  skills := []
  options := none
  buildEnvEpoch := none

def twoHeaders : JsRecord JsString :=
  ⟨[(ascii "X-A", ascii "KEY_A"), (ascii "X-B", ascii "KEY_B")], of_decide_eq_true rfl⟩

def twoHeadersBack : JsRecord JsString :=
  ⟨[(ascii "X-B", ascii "KEY_B"), (ascii "X-A", ascii "KEY_A")], of_decide_eq_true rfl⟩

/-- The definition that references both, its members in this order. -/
def searchDefinition (members : List (String × JsValue Int)) : JsValue Int :=
  .obj (members.map fun m => (ascii m.1, m.2))

def searchContext : JsValue Int :=
  .obj [(ascii "mcpConnectionIds", strings [ascii "cms", ascii "docs"])]

def searchDefinition₁ : JsValue Int :=
  searchDefinition [("persona", .str (ascii "Use @docs.")), ("model", .obj []),
    ("context", searchContext)]

def searchDefinition₂ : JsValue Int :=
  searchDefinition [("context", searchContext), ("model", .obj []),
    ("persona", .str (ascii "Use @docs."))]

def searchDeps₁ : CompileDeps Int :=
  twoConnections [headerConnection "cms" twoHeaders, headerConnection "docs" twoHeaders]

def searchDeps₂ : CompileDeps Int :=
  twoConnections [headerConnection "docs" twoHeadersBack, headerConnection "cms" twoHeaders]

theorem headerConnection_alike (slug : String) {headers headers' : JsRecord JsString}
    (h : headers.entries.Perm headers'.entries) :
    (headerConnection slug headers).Alike (headerConnection slug headers') :=
  ⟨rfl, rfl, rfl, rfl, .headers h, rfl, rfl⟩

theorem twoConnections_reordered {l l' : List ResolvedMcpConnection}
    (h : ∃ m, l.Perm m ∧ List.Forall₂ ResolvedMcpConnection.Alike m l') :
    Reordered (twoConnections l) (twoConnections l') :=
  ⟨Same.refl _, rfl, rfl, rfl, rfl, h, ⟨[], .nil, .nil⟩, rfl, rfl⟩

theorem searchReordered : Reordered searchDeps₁ searchDeps₂ := by
  have hturned : twoHeaders.entries.Perm twoHeadersBack.entries :=
    List.Perm.swap (ascii "X-B", ascii "KEY_B") (ascii "X-A", ascii "KEY_A") []
  exact twoConnections_reordered
    ⟨[headerConnection "docs" twoHeaders, headerConnection "cms" twoHeaders],
      List.Perm.swap (headerConnection "docs" twoHeaders) (headerConnection "cms" twoHeaders) [],
      .cons (headerConnection_alike "docs" hturned)
        (.cons (headerConnection_alike "cms" (List.Perm.refl _)) .nil)⟩

def searchParsed : AgentDefinition :=
  ⟨ascii "Use @docs.", ⟨.balanced, none, none⟩, ⟨[ascii "cms", ascii "docs"], []⟩⟩

theorem searchAccepted :
    ∃ result, compile plainToolchain searchDefinition₁ searchDeps₁ = .ok result := by
  have hvalid : (validateInput plainToolchain searchParsed searchDeps₁).toBool = true := by
    decide +kernel
  have hrendered : (renderInstructions searchParsed.persona
      ((sortedConnections searchDeps₁).map ResolvedMcpConnection.entry)
      ((sortedSkills searchDeps₁).map ResolvedSkill.entry)).toBool = true := by decide +kernel
  have hcanonical : (canonicalJson plainToolchain.numbers
      (hashInput COMPILER_VERSION (searchParsed, searchDeps₁))).toBool = true := by
    rw [canonicalJson_toBool]
    decide +kernel
  obtain ⟨_, hvalid⟩ := ok_of_toBool hvalid
  obtain ⟨instructions, hrendered⟩ := ok_of_toBool hrendered
  obtain ⟨text, hcanonical⟩ := ok_of_toBool hcanonical
  exact ⟨_, compile_ok.mpr ⟨searchParsed, instructions, text,
    ⟨rfl, hvalid, hrendered, hcanonical⟩, rfl⟩⟩

/-- Connections, headers and members turned around, the result is one. -/
theorem compile_hash_covers_turned :
    ∃ result, compile plainToolchain searchDefinition₁ searchDeps₁ = .ok result ∧
      compile plainToolchain searchDefinition₂ searchDeps₂ = .ok result := by
  have hcontext : searchContext.KeysOnce :=
    ⟨of_decide_eq_true rfl, ⟨trivial, trivial, trivial⟩, trivial⟩
  have hsame : Same searchDefinition₁ searchDefinition₂ := by
    refine same_obj_of_mem fun m => ?_
    simp only [List.map_cons, List.map_nil, List.mem_cons, List.not_mem_nil, or_false]
    exact ⟨fun h => h.elim (.inr ∘ .inr) (·.elim (.inr ∘ .inl) .inl),
      fun h => h.elim (.inr ∘ .inr) (·.elim (.inr ∘ .inl) .inl)⟩
  obtain ⟨result, hok⟩ := searchAccepted
  refine ⟨result, hok, (compile_hash_covers plainToolchain).2.1 _ _ _ _ _ ?_ ?_ hsame
    searchReordered hok⟩
  · exact ⟨of_decide_eq_true rfl, trivial, ⟨of_decide_eq_true rfl, trivial⟩, hcontext, trivial⟩
  · exact ⟨of_decide_eq_true rfl, hcontext, ⟨of_decide_eq_true rfl, trivial⟩, trivial, trivial⟩

end InvisibleString.Compiler
