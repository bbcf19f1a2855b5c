import InvisibleString.Compiler.Manifest
import InvisibleString.Lib.Scanner

/- # `Compiler.Passages` — the fixed texts of the templates

The passages that no input reaches, as the emitters have them, and where the reading of an
ECMAScript text stands behind each.
-/

namespace InvisibleString.Compiler

open Json Scanner

variable {N : Type}

/-! ## Libraries -/

def envLibText : JsString := passage [
  "/** Read a REQUIRED env var (secrets are injected by the worker supervisor). */",
  "export function requireEnv(name: string): string \x7b",
  "  const value = process.env[name];",
  "  if (value === undefined || value.length === 0) \x7b",
  "    throw new Error(`Missing required environment variable $\x7bname\x7d`);",
  "  \x7d",
  "  return value;",
  "\x7d",
  ""]

def platformTokenLibText : JsString := passage [
  "import \x7b createHmac \x7d from \"node:crypto\";",
  "",
  "import \x7b requireEnv \x7d from \"./env.js\";",
  "import \x7b PLATFORM_JWT_AUDIENCE, PLATFORM_JWT_ISSUER \x7d from \"./platform-auth.js\";",
  "",
  "/**",
  " * Broker-delivered OAuth access tokens: the platform's control plane holds",
  " * ALL OAuth material (refresh tokens never leave it); this agent only ever",
  " * sees short-lived access tokens fetched from",
  " * POST <PLATFORM_API_URL>/internal/connections/token, authenticated",
  " * with a self-minted platform JWT — HS256 under this version's",
  " * PLATFORM_JWT_SECRET with the version-bound audience baked into",
  " * platform-auth.ts, so the control plane serves ONLY this version's",
  " * connections. Env reads stay inside the call so keyless builds never crash.",
  " */",
  "",
  "/** Lifetime of each self-minted JWT (seconds). */",
  "const PLATFORM_JWT_TTL_SECONDS = 120;",
  "/** Serve a cached access token only while it outlives this safety margin. */",
  "const EXPIRY_MARGIN_MS = 60_000;",
  "",
  "interface CachedToken \x7b",
  "  token: string;",
  "  expiresAtMs: number;",
  "\x7d",
  "",
  "/** In-process cache per connection id — the broker refreshes centrally. */",
  "const tokenCache = new Map<string, CachedToken>();",
  "",
  "function base64url(value: string): string \x7b",
  "  return Buffer.from(value, \"utf8\").toString(\"base64url\");",
  "\x7d",
  "",
  "/** Hand-rolled HS256 JWT on node:crypto — no runtime deps. */",
  "function mintPlatformJwt(): string \x7b",
  "  const iat = Math.floor(Date.now() / 1000);",
  "  const header = base64url(JSON.stringify(\x7b alg: \"HS256\", typ: \"JWT\" \x7d));",
  "  const payload = base64url(",
  "    JSON.stringify(\x7b",
  "      iss: PLATFORM_JWT_ISSUER,",
  "      aud: PLATFORM_JWT_AUDIENCE,",
  "      sub: \"agent\",",
  "      iat,",
  "      exp: iat + PLATFORM_JWT_TTL_SECONDS,",
  "    \x7d),",
  "  );",
  "  const signature = createHmac(\"sha256\", requireEnv(\"PLATFORM_JWT_SECRET\"))",
  "    .update(`$\x7bheader\x7d.$\x7bpayload\x7d`)",
  "    .digest(\"base64url\");",
  "  return `$\x7bheader\x7d.$\x7bpayload\x7d.$\x7bsignature\x7d`;",
  "\x7d",
  "",
  "/** The platform's typed error code when parseable, else the HTTP status. */",
  "async function errorCode(response: Response): Promise<string> \x7b",
  "  try \x7b",
  "    const body = (await response.json()) as \x7b error?: \x7b code?: string \x7d \x7d;",
  "    if (typeof body.error?.code === \"string\") return body.error.code;",
  "  \x7d catch \x7b",
  "    // Non-JSON error body — fall through to the bare status.",
  "  \x7d",
  "  return `http_$\x7bresponse.status\x7d`;",
  "\x7d",
  "",
  "/**",
  " * A currently-valid access token for one platform-managed OAuth connection.",
  " * A non-200 answer THROWS (a failed tool call, never a hang) — the error",
  " * carries only the platform's error code, never token material.",
  " */",
  "export async function platformConnectionToken(",
  "  connectionId: string,",
  "): Promise<string> \x7b",
  "  const cached = tokenCache.get(connectionId);",
  "  if (cached !== undefined && cached.expiresAtMs - EXPIRY_MARGIN_MS > Date.now()) \x7b",
  "    return cached.token;",
  "  \x7d",
  "  const response = await fetch(",
  "    `$\x7brequireEnv(\"PLATFORM_API_URL\")\x7d/internal/connections/token`,",
  "    \x7b",
  "      method: \"POST\",",
  "      headers: \x7b",
  "        authorization: `Bearer $\x7bmintPlatformJwt()\x7d`,",
  "        \"content-type\": \"application/json\",",
  "      \x7d,",
  "      body: JSON.stringify(\x7b connectionId \x7d),",
  "    \x7d,",
  "  );",
  "  if (!response.ok) \x7b",
  "    throw new Error(",
  "      `connection needs re-authorization: $\x7bawait errorCode(response)\x7d`,",
  "    );",
  "  \x7d",
  "  const body = (await response.json()) as \x7b token: string; expiresAt: string \x7d;",
  "  const expiresAtMs = Date.parse(body.expiresAt);",
  "  if (Number.isFinite(expiresAtMs)) \x7b",
  "    tokenCache.set(connectionId, \x7b token: body.token, expiresAtMs \x7d);",
  "  \x7d",
  "  return body.token;",
  "\x7d",
  ""]

def authImportsText : JsString := passage [
  "import \x7b",
  "  extractBearerToken,"]

def authCommentText : JsString := passage [
  "",
  "  verifyJwtHmac,",
  "  type AuthFn,",
  "\x7d from \"eve/channels/auth\";",
  "",
  "/**",
  " * Platform route auth: an HS256 JWT signed with this agent's",
  " * PLATFORM_JWT_SECRET (a per-version secret derived by the control plane),",
  " * minted by the control-plane dispatcher. The audience is bound to THIS",
  " * agent version's hash, so tokens minted for other versions are rejected.",
  " * Claim constants mirror the platform contract (packages/shared)."]

def authDevNoteText : JsString := passage [
  "",
  " * DEV BUILD: localDev() admits loopback traffic so local tooling can",
  " * reach the agent. Production artifacts omit it (spike/REPORT.md finding 16)."]

def authIssuerText : JsString := passage [
  "",
  " */",
  ""]

def authVerifyText : JsString := passage [
  "",
  "export function platformJwt(): AuthFn<Request> \x7b",
  "  return async (request) => \x7b",
  "    const secret = process.env.PLATFORM_JWT_SECRET;",
  "    if (secret === undefined || secret.length === 0) return null;",
  "    const token = extractBearerToken(request.headers.get(\"authorization\"));",
  "    const result = await verifyJwtHmac(token, \x7b",
  "      algorithm: \"HS256\",",
  "      audiences: [PLATFORM_JWT_AUDIENCE],",
  "      issuer: PLATFORM_JWT_ISSUER,",
  "      secret,",
  "    \x7d);",
  "    return result.ok ? result.sessionAuth : null;",
  "  \x7d;",
  "\x7d",
  "",
  "/** Ordered route-auth chain for every platform-facing channel route. */",
  "export function platformAuth(): AuthFn<Request>[] \x7b",
  "  return "]

def authEndText : JsString := passage [
  ";",
  "\x7d",
  ""]

/-! ## The agent -/

def anthropicStartText : JsString := passage [
  "import \x7b anthropic \x7d from \"@ai-sdk/anthropic\";",
  "import \x7b defineAgent \x7d from \"eve\";",
  "",
  "/**",
  " * Explicit platform-resolved model. @ai-sdk/anthropic reads",
  " * ANTHROPIC_API_KEY (and optional ANTHROPIC_BASE_URL) lazily at request",
  " * time, so keyless `eve build` / boots stay alive.",
  " */",
  "export default defineAgent(\x7b",
  ""]

def anthropicReasoningText : JsString := passage [
  "",
  "  // Platform-resolved reasoning effort. eve maps it onto an Anthropic",
  "  // thinking budget (a fraction of the output budget), and @ai-sdk/anthropic",
  "  // is spec-v4, so the config route works here — unlike OpenRouter."]

def anthropicClampedText : JsString := passage [
  "",
  "  // The platform effort \"max\" is emitted as \"xhigh\": the AI SDK effort union",
  "  // tops out there, and both mean \"spend the most\"."]

def openrouterStartText : JsString := passage [
  "import \x7b createOpenRouter \x7d from \"@openrouter/ai-sdk-provider\";",
  "import type \x7b LanguageModel \x7d from \"ai\";",
  "import \x7b defineAgent \x7d from \"eve\";",
  "",
  ""]

def openrouterDocText : JsString := passage [
  "",
  "/**",
  " * Explicit platform-resolved model. With OPENROUTER_API_KEY set the agent",
  " * calls OpenRouter directly (OPENROUTER_BASE_URL optionally redirects the",
  " * provider, e.g. at a mock gateway in tests). Without the key the model-id",
  " * STRING is returned instead, eve bakes GATEWAY routing at build time, and",
  " * keyless `eve build` / `eve start` stay alive.",
  " *",
  " * The branch is REQUIRED — do not simplify it to a bare",
  " * `createOpenRouter(\x7b\x7d).`. @openrouter/ai-sdk-provider@3.0.0 resolves the",
  " * key LAZILY, so `openrouter(\"<id>\")` constructs fine without one and",
  " * raises AI_LoadAPIKeyError only on the first model call. Dropping the guard",
  " * would therefore NOT fail loudly at build: it would emit a provider model",
  " * with EXTERNAL routing baked in, build clean, boot clean, and die on the",
  " * agent's first turn.",
  ""]

def openrouterNoReasoningText : JsString := passage [
  " *",
  " * The platform resolved the reasoning effort to \"provider-default\", so NO",
  " * reasoning field is sent at all and OpenRouter applies the model's own",
  " * behavior. (That is distinct from an explicit \"none\", which would disable",
  " * reasoning on a model that supports it.)"]

def openrouterExtraBodyText : JsString := passage [
  " *",
  " * The reasoning effort rides the MODEL's `extraBody`, deliberately, and must",
  " * stay there:",
  " * - eve's own `reasoning:` config reaches ai@7 as the top-level",
  " *   `LanguageModelV4CallOptions.reasoning` call option, and",
  " *   @openrouter/ai-sdk-provider@3.0.0's `getArgs()` never destructures it —",
  " *   through that route the effort is silently DROPPED from every request.",
  " * - the provider's typed `reasoning` SETTING would reach the wire, but its",
  " *   effort union is xhigh|high|medium|low|minimal|none — it has no \"max\",",
  " *   which is exactly the top effort OpenRouter advertises for the seeded",
  " *   models.",
  " * `settings.extraBody` is spread LAST over the request body, so it wins over",
  " * anything the provider derived.",
  " *",
  " * Two known losses, accepted: the keyless/gateway branch below carries no",
  " * effort at all (there is no model object to attach settings to), and eve's",
  " * agent-info introspection route reports `config.reasoning`, which is now",
  " * unset for OpenRouter agents."]

def openrouterResolveText : JsString := passage [
  "",
  " */",
  "function resolveModel(): LanguageModel \x7b",
  "  const apiKey = process.env.OPENROUTER_API_KEY;",
  "  if (apiKey !== undefined && apiKey.length > 0) \x7b",
  "    const openrouter = createOpenRouter(\x7b",
  "      apiKey,",
  "      ...(process.env.OPENROUTER_BASE_URL",
  "        ? \x7b baseURL: process.env.OPENROUTER_BASE_URL \x7d",
  "        : \x7b\x7d),",
  "    \x7d);",
  ""]

def openrouterDefineText : JsString := passage [
  "  \x7d",
  "  return MODEL_ID;",
  "\x7d",
  "",
  "export default defineAgent(\x7b",
  "  model: resolveModel(),",
  "  // Verbatim context window — REQUIRED for OpenRouter models. eve build",
  "  // evaluates this file and otherwise resolves the window from its",
  "  // AI-Gateway model catalog, which cannot resolve module-backed OpenRouter",
  "  // models (gateway id \"openrouter/<id>\" has no catalog slug) and knows",
  "  // some ids under different slugs (z-ai/glm-5.2 vs zai/glm-5.2) — either",
  "  // way \"does not have known AI Gateway context window metadata\" fails the",
  "  // build (spike/agent-project documented this escape hatch).",
  ""]

def limitsText : JsString := passage [
  "  limits: \x7b",
  "    // eve's own default (40M). Crossing it does NOT kill the session: a",
  "    // conversation-mode session parks on a deterministic Approve/Stop",
  "    // prompt (input.requested with kind \"session-limit\", answered through",
  "    // the normal HITL path); a task-mode run with no input channel instead",
  "    // fails the next model call with SESSION_TOKEN_LIMIT_REACHED.",
  "    maxInputTokensPerSession: 40_000_000,",
  "    // eve's own default (30 days). The deadline starts at session creation",
  "    // and survives restarts/redeploys; an in-flight turn is allowed to",
  "    // settle, then eve emits session.completed and the next message starts",
  "    // a fresh session.",
  "    sessionTimeoutMs: 2_592_000_000,",
  "    // maxOutputTokensPerSession is deliberately OMITTED: eve applies no",
  "    // default for it (unset === uncapped), so there is no silent default to",
  "    // pin. Omission and `false` are different values; this is the hook a",
  "    // future per-agent output cap would fill.",
  "  \x7d,"]

def worldText : JsString := passage [
  "  experimental: \x7b",
  "    workflow: \x7b",
  "      // Durability: all session/run state lives in Postgres, not local disk.",
  "      // WORKFLOW_POSTGRES_URL is read AS-IS and must point at this agent",
  "      // version's DEDICATED world database — the job prefix does NOT isolate",
  "      // agents sharing a world DB (see packages/compiler/WORLD-ISOLATION.md).",
  "      world: \"@workflow/world-postgres\",",
  "    \x7d,",
  "  \x7d,"]

/-- The templates; what `Object.prototype` answers as a text is left open. -/
def sourceTemplates (F : NumberFormat N) (inherited : JsString → Option JsString) : Templates where
  tsconfig := emitTsconfig F
  envLib := envLibText
  platformTokenLib := platformTokenLibText
  authImports := authImportsText
  authComment := authCommentText
  authDevNote := authDevNoteText
  authIssuer := authIssuerText
  authVerify := authVerifyText
  authEnd := authEndText
  anthropicStart := anthropicStartText
  anthropicClamped := anthropicClampedText
  anthropicReasoning := anthropicReasoningText
  openrouterStart := openrouterStartText
  openrouterDoc := openrouterDocText
  openrouterNoReasoning := openrouterNoReasoningText
  openrouterExtraBody := openrouterExtraBodyText
  openrouterResolve := openrouterResolveText
  openrouterDefine := openrouterDefineText
  limits := limitsText
  world := worldText
  inherited := inherited

/-! ## Where the passages end -/

/-- Each passage is read from one place of an ECMAScript text to another: code, a comment. -/
structure Templates.Ends (T : Templates) : Prop where
  envLib : endState .ready T.envLib = some .ready
  platformTokenLib : endState .ready T.platformTokenLib = some .ready
  authImports : endState .ready T.authImports = some .ready
  authComment : endState .ready T.authComment = some .comment
  authDevNote : endState .comment T.authDevNote = some .comment
  authIssuer : endState .comment T.authIssuer = some .ready
  authVerify : endState .ready T.authVerify = some .ready
  authEnd : endState .ready T.authEnd = some .ready
  anthropicStart : endState .ready T.anthropicStart = some .ready
  anthropicReasoning : endState .ready T.anthropicReasoning = some .lineComment
  anthropicClamped : endState .lineComment T.anthropicClamped = some .lineComment
  openrouterStart : endState .ready T.openrouterStart = some .ready
  openrouterDoc : endState .ready T.openrouterDoc = some .comment
  openrouterNoReasoning : endState .comment T.openrouterNoReasoning = some .comment
  openrouterExtraBody : endState .comment T.openrouterExtraBody = some .comment
  openrouterResolve : endState .comment T.openrouterResolve = some .ready
  openrouterDefine : endState .ready T.openrouterDefine = some .ready
  limits : endState .ready T.limits = some .ready
  world : endState .ready T.world = some .ready

theorem sourceTemplates_ends (F : NumberFormat N) (inherited : JsString → Option JsString) :
    (sourceTemplates F inherited).Ends := by
  constructor
  all_goals
    apply endState_passage
    · repeat first | exact Spelled.nil | apply Spelled.cons
    · decide +kernel

end InvisibleString.Compiler
