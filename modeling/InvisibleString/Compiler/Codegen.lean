import InvisibleString.Compiler.Hash
import InvisibleString.Runtime.AgentEnv

/- # `Compiler.Codegen` — the emitters of the generated project

Each emitter writes one file from the fields it reads.  The passages that no input reaches
are parameters.

**Proved here.**

    no emitter sees the order of headers, files or members  (`emitConnection_eq`, `emitSkill_eq`)
-/

namespace InvisibleString.Compiler

open Json
open InvisibleString.Runtime (CaseMapping connectionTokenEnvVar)

variable {N : Type} (U : CaseMapping)

/-- The passages of the longer templates that stand in every file, one after the other around
what an input fills in. -/
structure Templates where
  tsconfig : JsString
  envLib : JsString
  platformTokenLib : JsString
  /-- `agent/lib/platform-auth.ts` up to its imports, its comment and its audience, and the
  rest. -/
  authImports : JsString
  authComment : JsString
  authDevNote : JsString
  authIssuer : JsString
  authVerify : JsString
  authEnd : JsString
  /-- `agent/agent.ts` for Anthropic. -/
  anthropicStart : JsString
  anthropicClamped : JsString
  anthropicReasoning : JsString
  /-- `agent/agent.ts` for OpenRouter. -/
  openrouterStart : JsString
  openrouterDoc : JsString
  openrouterNoReasoning : JsString
  openrouterExtraBody : JsString
  openrouterResolve : JsString
  openrouterDefine : JsString
  limits : JsString
  world : JsString
  /-- What a plain object has under a name that it does not list, as a text. -/
  inherited : JsString → Option JsString

variable (T : Templates)

/-! ## The project -/

mutual

/-- `JSON.stringify(value, null, 2)`, on a line that is indented so far. -/
def indented (F : NumberFormat N) (indent : JsString) : Value N → JsString
  | .arr (v :: vs) =>
    ascii "[\n" ++ join (ascii ",\n") (indentedItems F (indent ++ ascii "  ") (v :: vs)) ++
      ascii "\n" ++ indent ++ ascii "]"
  | .obj (m :: ms) =>
    ascii "\x7b\n" ++ join (ascii ",\n") (indentedMembers F (indent ++ ascii "  ") (m :: ms)) ++
      ascii "\n" ++ indent ++ ascii "\x7d"
  | .arr [] => ascii "[]"
  | .obj [] => ascii "\x7b\x7d"
  | .null => ascii "null"
  | .bool b => if b then ascii "true" else ascii "false"
  | .num n => F.print n
  | .str s => quote s

def indentedItems (F : NumberFormat N) (indent : JsString) : List (Value N) → List JsString
  | [] => []
  | v :: vs => (indent ++ indented F indent v) :: indentedItems F indent vs

def indentedMembers (F : NumberFormat N) (indent : JsString) :
    List (JsString × Value N) → List JsString
  | [] => []
  | (k, v) :: ms =>
    (indent ++ quote k ++ ascii ": " ++ indented F indent v) :: indentedMembers F indent ms

end

/-- `sortedRecord(record)`. -/
def sortedRecord (entries : List (JsString × JsString)) : Value N :=
  .obj ((sortBy Prod.fst entries).map fun e => (e.1, .str e.2))

def dependencies (deps : CompileDeps N) : List (JsString × JsString) :=
  [(ascii "@workflow/world-postgres", deps.versions.pin .worldPostgres),
    (ascii "ai", deps.versions.pin .ai), (ascii "eve", deps.versions.pin .eve),
    (ascii "zod", deps.versions.pin .zod),
    if deps.resolvedModel.provider = ascii "openrouter" then
      (ascii "@openrouter/ai-sdk-provider", deps.versions.pin .openrouterProvider)
    else (ascii "@ai-sdk/anthropic", deps.versions.pin .anthropicProvider)]

def emitPackageJson (F : NumberFormat N) (deps : CompileDeps N) : JsString :=
  indented F [] (.obj
    [(ascii "name", .str (ascii "agent--" ++ deps.workspaceSlug ++ ascii "--" ++ deps.agentSlug)),
      (ascii "private", .bool true),
      (ascii "type", .str (ascii "module")),
      (ascii "engines", .obj [(ascii "node", .str (ascii "24.x"))]),
      (ascii "scripts", .obj [(ascii "build", .str (ascii "eve build")),
        (ascii "start", .str (ascii "eve start")), (ascii "typecheck", .str (ascii "tsc --noEmit"))]),
      (ascii "dependencies", sortedRecord (dependencies deps)),
      (ascii "devDependencies", sortedRecord [(ascii "@types/node", deps.versions.pin .typesNode),
        (ascii "typescript", deps.versions.pin .typescript)])]) ++ ascii "\n"

/-! ## The agent -/

def anthropicEffort (effort : JsString) : JsString :=
  if effort = ascii "max" then ascii "xhigh" else effort

def anthropicReasoningBlock (effort : JsString) : JsString :=
  if effort = ascii "provider-default" then []
  else
    T.anthropicReasoning ++ (if effort = ascii "max" then T.anthropicClamped else []) ++
      ascii "\n  reasoning: " ++ tsString (anthropicEffort effort) ++ ascii ","

def openrouterModelExpression (effort : JsString) : JsString :=
  if effort = ascii "provider-default" then ascii "openrouter(MODEL_ID)"
  else
    ascii "openrouter(MODEL_ID, \x7b\n      extraBody: \x7b reasoning: \x7b effort: " ++
      tsString effort ++ ascii " \x7d \x7d,\n    \x7d)"

def openrouterReasoningDoc (effort : JsString) : JsString :=
  if effort = ascii "provider-default" then T.openrouterNoReasoning else T.openrouterExtraBody

/-- `OPENROUTER_CONTEXT_WINDOW_TOKENS`. -/
def openrouterContextWindows : List (JsString × Nat) :=
  [(ascii "z-ai/glm-5.2", 1048576), (ascii "deepseek/deepseek-v4-pro", 1048576),
    (ascii "deepseek/deepseek-v4-flash", 1048576), (ascii "moonshotai/kimi-k3", 1048576),
    (ascii "~deepseek/deepseek-v4-flash-latest", 1048576)]

/-- The text of the window; a name that every object has is not told from an entry. -/
def openrouterContextWindowTokens (modelId : JsString) : JsString :=
  match OrderedMap.get? modelId openrouterContextWindows with
  | some tokens => printNat tokens
  | none => (T.inherited modelId).getD (printNat 131072)

def emitAgentTs (model : ResolvedModel) : JsString :=
  if model.provider = ascii "anthropic" then
    T.anthropicStart ++ ascii "  model: anthropic(" ++ tsString model.modelId ++ ascii ")," ++
      anthropicReasoningBlock T model.reasoning ++ ascii "\n" ++ T.limits ++ ascii "\n" ++ T.world ++
      ascii "\n\x7d);\n"
  else
    T.openrouterStart ++ ascii "const MODEL_ID = " ++ tsString model.modelId ++ ascii ";\n" ++
      T.openrouterDoc ++ openrouterReasoningDoc T model.reasoning ++ T.openrouterResolve ++
      ascii "    return " ++ openrouterModelExpression model.reasoning ++ ascii ";\n" ++
      T.openrouterDefine ++ ascii "  modelContextWindowTokens: " ++
      openrouterContextWindowTokens T model.modelId ++ ascii ",\n" ++ T.limits ++ ascii "\n" ++
      T.world ++ ascii "\n\x7d);\n"

/-! ## The libraries and the channel -/

def platformJwtAudienceForHash (versionHash : JsString) : JsString :=
  ascii "agent-version:" ++ versionHash

def emitPlatformAuthLib (dev : Bool) (versionHash : JsString) : JsString :=
  T.authImports ++ (if dev then ascii "\n  localDev," else []) ++ T.authComment ++
    (if dev then T.authDevNote else []) ++ T.authIssuer ++
    ascii "export const PLATFORM_JWT_ISSUER = " ++ tsString (ascii "invisible-string") ++
    ascii ";\nexport const PLATFORM_JWT_AUDIENCE = " ++
    tsString (platformJwtAudienceForHash versionHash) ++ ascii ";\n" ++ T.authVerify ++
    (if dev then ascii "[platformJwt(), localDev()]" else ascii "[platformJwt()]") ++ T.authEnd

def emitEveChannel (workspaceSlug agentSlug : JsString) : JsString :=
  let identity := ascii "Platform agent " ++ tsString agentSlug ++ ascii " in workspace " ++
    tsString workspaceSlug ++ ascii " (invisible-string)."
  ascii "import \x7b defaultEveAuth, eveChannel \x7d from \"eve/channels/eve\";\n\n" ++
    ascii "import \x7b platformAuth \x7d from \"../lib/platform-auth.js\";\n" ++ ascii "
/**
 * Default HTTP channel (chat AND workflow-dispatched sessions). Route auth
 * is the platform JWT; onMessage injects platform context blocks — context
 * is an onMessage return, never a send() option.
 */
export default eveChannel(\x7b
  auth: platformAuth(),
  onMessage(ctx) \x7b
    const caller = ctx.eve.caller;
    const context = [" ++ tsString identity ++ ascii "];
    if (caller !== null) \x7b
      context.push(
        `Caller principal: $\x7bcaller.principalId\x7d ($\x7bcaller.principalType\x7d).`,
      );
    \x7d
    return \x7b auth: defaultEveAuth(ctx), context \x7d;
  \x7d,
\x7d);
"

/-! ## Connections -/

/-- The name of a list and what its tools are answered, as the module has them. -/
def Status.listName : Status → JsString
  | .denied => ascii "DENY_TOOLS"
  | .userApproval => ascii "ASK_TOOLS"
  | .notApplicable => ascii "ALLOW_TOOLS"

def Status.text : Status → JsString
  | .denied => ascii "\"denied\""
  | .userApproval => ascii "\"user-approval\""
  | .notApplicable => ascii "\"not-applicable\""

/-- The import, the header and the expression of an approval policy. -/
def approvalText (slug : JsString) : ApprovalExpression → JsString × JsString × JsString
  | .never => (ascii "import \x7b never \x7d from \"eve/tools/approval\";\n", [], ascii "never()")
  | .once => (ascii "import \x7b once \x7d from \"eve/tools/approval\";\n", [], ascii "once()")
  | .always => (ascii "import \x7b always \x7d from \"eve/tools/approval\";\n", [], ascii "always()")
  | .checks lists fallback =>
    ([],
      ascii "\n/**
 * Per-tool approval policy. Connection tool names arrive QUALIFIED as
 * \"" ++ slug ++ ascii "__<tool>\" (eve prefixes the connection slug), so the lists below
 * bake the qualified names at compile time.
 */\n" ++ join (ascii "\n") (lists.map fun list =>
        ascii "const " ++ list.2.listName ++ ascii ": readonly string[] = " ++
          tsStringArray list.1 ++ ascii ";") ++ ascii "\n",
      ascii "(\x7b toolName \x7d) => \x7b\n" ++ join (ascii "\n") (lists.map fun list =>
        ascii "    if (" ++ list.2.listName ++ ascii ".includes(toolName)) return " ++
          list.2.text ++ ascii ";") ++ ascii "\n    return " ++ fallback.text ++ ascii ";\n  \x7d")

/-- The import and the property of a connection's auth. -/
def authText (slug : JsString) : ConnectionAuthSpec → JsString × JsString
  | .none => ([], [])
  | .bearerToken =>
    (ascii "\nimport \x7b requireEnv \x7d from \"../lib/env.js\";\n",
      ascii "
  auth: \x7b
    // Lazy: probed per tool call, so keyless builds/boots never crash.
    getToken: async () => (\x7b token: requireEnv(" ++ tsString (connectionTokenEnvVar U slug) ++
        ascii ") \x7d),
  \x7d,")
  | .headers entries =>
    (ascii "\nimport \x7b requireEnv \x7d from \"../lib/env.js\";\n",
      ascii "
  // Lazy callback: env vars are read per request, never at module load.
  headers: () => (\x7b\n" ++ join (ascii "\n") ((sortBy Prod.fst entries.entries).map fun e =>
          ascii "    " ++ tsString e.1 ++ ascii ": requireEnv(" ++ tsString e.2 ++ ascii "),") ++
        ascii "\n  \x7d),")
  | .oauth connectionId =>
    (ascii "\nimport \x7b platformConnectionToken \x7d from \"../lib/platform-token.js\";\n",
      ascii "
  auth: \x7b
    // Broker-delivered: the platform mints short-lived access tokens; no OAuth
    // material lives in agent env. Lazy so keyless builds never crash.
    getToken: async () => (\x7b token: await platformConnectionToken(" ++ tsString connectionId ++
        ascii ") \x7d),
  \x7d,")

def toolsText : Option ToolFilterSpec → JsString
  | none => []
  | some tools =>
    let filter := match tools.allow with
      | some allow => ascii "\x7b allow: " ++ tsStringArray allow ++ ascii " \x7d"
      | none => ascii "\x7b block: " ++ tsStringArray (tools.block.getD []) ++ ascii " \x7d"
    ascii "\n  tools: " ++ filter ++ ascii ","

def emitConnection (connection : ResolvedMcpConnection) : JsString :=
  let slug := connection.slug
  let approval := approvalText slug (approvalExpression slug connection.approval)
  let auth := authText U slug connection.auth
  approval.1 ++ ascii "import \x7b defineMcpClientConnection \x7d from \"eve/connections\";\n" ++
    auth.1 ++ approval.2.1 ++ ascii "\n/** MCP connection \"" ++ slug ++ ascii "\" (agent context). */
export default defineMcpClientConnection(\x7b
  url: " ++ tsString connection.url ++ ascii ",
  description: " ++ tsString connection.description ++ ascii "," ++ auth.2 ++
    toolsText connection.tools ++ ascii "
  approval: " ++ approval.2.2 ++ ascii ",
\x7d);
"

/-! ## Skills -/

/-- `yamlString(value)`. -/
def yamlString (value : JsString) : JsString := quote value

/-- `markdown.replace(/\s+$/, "")`. -/
def trimTail (s : JsString) : JsString := (s.reverse.dropWhile isWhite).reverse

def skillMarkdown (skill : ResolvedSkill) : JsString :=
  ascii "---\ndescription: " ++ yamlString skill.description ++ ascii "\n---\n\n" ++
    trimTail skill.markdown ++ ascii "\n"

/-- A file of the project: its path and its content. -/
abbrev ProjectFile := JsString × JsString

/-- `Object.entries(skill.files ?? {})`. -/
def ResolvedSkill.extraFiles (skill : ResolvedSkill) : List ProjectFile :=
  (skill.files.map JsRecord.entries).getD []

/-- The files of one skill, in the order they are set. -/
def emitSkill (skill : ResolvedSkill) : List ProjectFile :=
  if skill.extraFiles = [] then
    [(ascii "agent/skills/" ++ skill.slug ++ ascii ".md", skillMarkdown skill)]
  else
    (ascii "agent/skills/" ++ skill.slug ++ ascii "/SKILL.md", skillMarkdown skill) ::
      (sortBy Prod.fst skill.extraFiles).map fun file =>
        (ascii "agent/skills/" ++ skill.slug ++ ascii "/" ++ file.1, file.2)

/-! ## What the emitters read -/

theorem authText_eq {slug : JsString} {auth auth' : ConnectionAuthSpec} (h : auth.Alike auth') :
    authText U slug auth = authText U slug auth' := by
  cases h with
  | none | bearerToken | oauth => rfl
  | @headers r r' h => rw [authText, authText, sortBy_eq_of_perm h r.once]

/-- The module of a connection does not depend on the order of its headers. -/
theorem emitConnection_eq {c c' : ResolvedMcpConnection} (h : c.Alike c') :
    emitConnection U c = emitConnection U c' := by
  rw [emitConnection, emitConnection, h.slug, h.url, h.description, h.tools, h.approval,
    authText_eq U h.auth]

theorem extraFiles_perm {s s' : ResolvedSkill} (h : s.Alike s') :
    s.extraFiles.Perm s'.extraFiles := by
  have hfiles := h.files
  rw [ResolvedSkill.extraFiles, ResolvedSkill.extraFiles]
  cases hs : s.files with
  | none =>
    rw [hs] at hfiles
    cases hs' : s'.files with
    | none => exact .nil
    | some r' =>
      rw [hs'] at hfiles
      cases hfiles
  | some r =>
    rw [hs] at hfiles
    cases hs' : s'.files with
    | none =>
      rw [hs'] at hfiles
      cases hfiles
    | some r' =>
      rw [hs'] at hfiles
      cases hfiles with
      | some hperm => exact hperm

theorem extraFiles_once (s : ResolvedSkill) : OrderedMap.UniqueKeys s.extraFiles := by
  rw [ResolvedSkill.extraFiles]
  cases s.files with
  | none => exact List.nodup_nil
  | some r => exact r.once

theorem emitSkill_eq {s s' : ResolvedSkill} (h : s.Alike s') : emitSkill s = emitSkill s' := by
  have hperm := extraFiles_perm h
  have hempty : s.extraFiles = [] ↔ s'.extraFiles = [] := by
    constructor
    · intro he
      exact List.perm_nil.mp (he ▸ hperm.symm)
    · intro he
      exact List.perm_nil.mp (he ▸ hperm)
  have hmarkdown : skillMarkdown s = skillMarkdown s' := by
    rw [skillMarkdown, skillMarkdown, h.description, h.markdown]
  rw [emitSkill, emitSkill, h.slug, hmarkdown, sortBy_eq_of_perm hperm (extraFiles_once s)]
  by_cases he : s.extraFiles = []
  · rw [if_pos he, if_pos (hempty.mp he)]
  · rw [if_neg he, if_neg (mt hempty.mpr he)]

theorem pin_eq {versions versions' : RuntimeVersions N}
    (h : Same (.obj versions.members) (.obj versions'.members)) (p : Pin) :
    versions.pin p = versions'.pin p := by
  have hfield := h.field versions.once versions'.once p.key
  rw [versions.pinned, versions'.pinned] at hfield
  exact same_str.mp hfield

theorem emitPackageJson_eq (F : NumberFormat N) {deps deps' : CompileDeps N} (h : deps.Alike deps') :
    emitPackageJson F deps = emitPackageJson F deps' := by
  simp only [emitPackageJson, dependencies, h.workspaceSlug, h.agentSlug, h.resolvedModel,
    pin_eq h.versions]

end InvisibleString.Compiler
