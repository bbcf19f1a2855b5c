import InvisibleString.Lib.Checks
import InvisibleString.Lib.OrderedMap
import InvisibleString.Runtime.EnvNames

/- # `Runtime.AgentEnv` — a connection's secrets, from its row to the generated module

The row of a connection holds its secrets encrypted.  At publish the compiler learns the kind
of auth and the header names, and emits a module that reads variables; at dispatch the
dispatcher decrypts the rows and fills the variables.

**Proved here.**

    every module gets its own connection's secrets, and no two secrets share a variable,
      exactly when no two secrets are alike  (`credentials_iff`)
-/

namespace InvisibleString.Runtime

open Json
open Checks (bind_eq_ok bind_of_eq_ok mapM_eq_ok)

/-! ## Auth -/

/-- A record of header values as the schema of an auth write lets it through. -/
structure HeaderMap where
  entries : List (JsString × JsString)
  nodup : OrderedMap.UniqueKeys entries
  entries_ne : entries ≠ []
  keys_ne : ∀ e ∈ entries, e.1 ≠ []
  values_ne : ∀ e ∈ entries, e.2 ≠ []
  /-- the parser of records leaves this key out -/
  no_proto : ascii "__proto__" ∉ entries.map Prod.fst

inductive McpAuthWrite where
  | none
  | oauth
  | bearer (token : JsString) (h : token ≠ [])
  | headers (values : HeaderMap)

inductive ConnectionAuthType where
  | none
  | bearer
  | headers
  | oauth
  deriving DecidableEq

/-- The decrypted auth of a row. -/
inductive McpAuthConfig where
  | bearer (token : JsString)
  | headers (headers : List (JsString × JsString))

def authTypeOf : McpAuthWrite → ConnectionAuthType
  | .none => .none
  | .oauth => .oauth
  | .bearer _ _ => .bearer
  | .headers _ => .headers

/-- The envelope encryption under the master key, bound to the row's id. -/
structure Vault where
  encrypt : McpAuthConfig → JsString → JsString
  decrypt : JsString → JsString → Option McpAuthConfig
  decrypt_encrypt : ∀ config id, decrypt (encrypt config id) id = some config

inductive EnvError where
  | encryptionKeyMissing
  | mcpSecretUnavailable (connectionId : JsString)

/-- The columns of a connection that bear on its auth. -/
structure ConnectionRow where
  id : JsString
  name : JsString
  authType : ConnectionAuthType
  authConfigEncrypted : Option JsString

/-- The auth a write stores; `vault` is absent without a master key. -/
def encryptConnectionAuthConfig (vault : Option Vault) (auth : McpAuthWrite)
    (connectionId : JsString) : Except EnvError (Option JsString) :=
  let encrypted (config : McpAuthConfig) :=
    match vault with
    | none => .error .encryptionKeyMissing
    | some vault => .ok (some (vault.encrypt config connectionId))
  match auth with
  | .none | .oauth => .ok none
  | .bearer token _ => encrypted (.bearer token)
  | .headers values => encrypted (.headers values.entries)

def decryptMcpAuthConfig (vault : Option Vault) (authConfigEncrypted : Option JsString)
    (connectionId : JsString) : Except EnvError (Option McpAuthConfig) :=
  match authConfigEncrypted with
  | none => .ok none
  | some envelope =>
    match vault with
    | none => .error .encryptionKeyMissing
    | some vault =>
      match vault.decrypt envelope connectionId with
      | none => .error (.mcpSecretUnavailable connectionId)
      | some config => .ok (some config)

variable (U : CaseMapping)

/-! ## Dispatch -/

abbrev Env := List (JsString × JsString)

/-- The variables one row fills, in the order it writes them. -/
def connectionEnv (vault : Option Vault) (row : ConnectionRow) : Except EnvError Env :=
  -- broker-delivered, never env-injected
  if row.authType = .oauth then .ok []
  else do
    match ← decryptMcpAuthConfig vault row.authConfigEncrypted row.id with
    | none => return []
    | some (.headers headers) =>
      return headers.map fun e => (mcpHeaderEnvName U row.name e.1, e.2)
    | some (.bearer token) =>
      return if token = [] then [] else [(mcpTokenEnvName U row.name, token)]

/-- The rows fill the variables one after the other. -/
def fillEnv (vault : Option Vault) : List ConnectionRow → Env → Except EnvError Env
  | [], env => .ok env
  | row :: rows, env => do
    let filled ← connectionEnv U vault row
    fillEnv vault rows (OrderedMap.setAll filled env)

def decryptMcpEnv (vault : Option Vault) (rows : List ConnectionRow) : Except EnvError Env :=
  fillEnv U vault rows []

/-! ## Publish -/

inductive McpAuthShape where
  | none
  | bearer
  | headers (headerNames : List JsString)

def mcpAuthShape (vault : Option Vault) (row : ConnectionRow) : Except EnvError McpAuthShape := do
  match ← decryptMcpAuthConfig vault row.authConfigEncrypted row.id with
  | none => return .none
  | some (.headers headers) => return .headers (headers.map Prod.fst)
  | some (.bearer _) => return .bearer

structure CompileConnection where
  id : JsString
  name : JsString
  envTokenVar : Option JsString
  /-- header names with the variables they are read from -/
  authHeaders : Option (List (JsString × JsString))
  oauth : Bool

inductive SlugProblem where
  | empty (name : JsString)
  | clash (name name' : JsString)

inductive CompileError where
  | env (error : EnvError)
  | contextResourceNotFound (connectionId : JsString)
  | slugs (problems : List SlugProblem)
  | tokenEnvVarMismatch (name injected read : JsString)
  | noHeaders (slug : JsString)
  | invalidHeader (slug header : JsString)
  | invalidEnvName (slug header envName : JsString)

/-- What the compiler is told of a row. -/
def resolveCompileInput (vault : Option Vault) (row : ConnectionRow) :
    Except EnvError CompileConnection := do
  let oauth := decide (row.authType = .oauth)
  let shape ← if oauth then pure .none else mcpAuthShape vault row
  return {
    id := row.id
    name := row.name
    envTokenVar := match shape with
      | .bearer => some (mcpTokenEnvName U row.name)
      | _ => none
    authHeaders := match shape with
      | .headers headerNames =>
        some (headerNames.map fun header => (header, mcpHeaderEnvName U row.name header))
      | _ => none
    oauth := oauth }

inductive ResolvedAuth where
  | none
  | bearerToken
  | headers (headers : List (JsString × JsString))
  | oauth (connectionId : JsString)

structure ResolvedMcpConnection where
  id : JsString
  slug : JsString
  auth : ResolvedAuth

/-- Names without a slug, and names with the slug of an earlier one. -/
def slugProblems : List JsString → List JsString → List SlugProblem
  | _, [] => []
  | seen, name :: names =>
    if slugifyName U name = [] then .empty name :: slugProblems seen names
    else
      match seen.find? fun name' => slugifyName U name' = slugifyName U name with
      | some clash => .clash clash name :: slugProblems seen names
      | none => slugProblems (seen ++ [name]) names

def uniqueSlugs (names : List JsString) : Except CompileError Unit :=
  if (slugProblems U [] names).isEmpty then .ok () else .error (.slugs (slugProblems U [] names))

def resolveConnection (connection : CompileConnection) (slug : JsString) :
    Except CompileError ResolvedMcpConnection :=
  if connection.oauth then .ok ⟨connection.id, slug, .oauth connection.id⟩
  else
    match connection.envTokenVar with
    | some injected =>
      if injected = connectionTokenEnvVar U slug then .ok ⟨connection.id, slug, .bearerToken⟩
      else .error (.tokenEnvVarMismatch connection.name injected (connectionTokenEnvVar U slug))
    | none =>
      match connection.authHeaders with
      | some (header :: headers) =>
        .ok ⟨connection.id, slug, .headers (OrderedMap.setAll (header :: headers) [])⟩
      | _ => .ok ⟨connection.id, slug, .none⟩

/-- `HEADER_NAME_PATTERN`. -/
def isHeaderName (header : JsString) : Bool :=
  header ≠ [] && header.all fun c =>
    (unit 'A' ≤ c && c ≤ unit 'Z') || (unit 'a' ≤ c && c ≤ unit 'z') ||
      (unit '0' ≤ c && c ≤ unit '9') || c ∈ ascii "!#$%&'*+.^_`|~-"

/-- `ENV_NAME_PATTERN`. -/
def isEnvName (name : JsString) : Bool :=
  (name.head?.any fun c => unit 'A' ≤ c && c ≤ unit 'Z') &&
    name.all fun c => isEnvUnit c || c == underscore

def validateHeaders (slug : JsString) : List (JsString × JsString) → Except CompileError Unit
  | [] => .ok ()
  | (header, envName) :: rest =>
    if !isHeaderName header then .error (.invalidHeader slug header)
    else if !isEnvName envName then .error (.invalidEnvName slug header envName)
    else validateHeaders slug rest

def validateConnection (connection : ResolvedMcpConnection) : Except CompileError Unit :=
  match connection.auth with
  | .headers headers =>
    if headers = [] then .error (.noHeaders connection.slug)
    else validateHeaders connection.slug headers
  | _ => .ok ()

/-- What the generated module of a connection reads at a call. -/
inductive ConnectionModule where
  | plain
  | bearer (envVar : JsString)
  | headers (entries : List (JsString × JsString))
  | broker (connectionId : JsString)

def emitConnection (connection : ResolvedMcpConnection) : ConnectionModule :=
  match connection.auth with
  | .none => .plain
  | .bearerToken => .bearer (connectionTokenEnvVar U connection.slug)
  | .headers headers => .headers (headers.mergeSort fun a b => decide (a.1 ≤ b.1))
  | .oauth connectionId => .broker connectionId

/-- The modules of a version, once its rows are read. -/
def compileInputs (inputs : List CompileConnection) : Except CompileError (List ConnectionModule) := do
  uniqueSlugs U (inputs.map CompileConnection.name)
  let resolved ← inputs.mapM fun input => resolveConnection U input (slugifyName U input.name)
  resolved.forM validateConnection
  return resolved.map (emitConnection U)

/-- The modules of a version that is published from these rows. -/
def compileAgent (vault : Option Vault) (rows : List ConnectionRow) :
    Except CompileError (List ConnectionModule) := do
  let inputs ← (rows.mapM (resolveCompileInput U vault)).mapError .env
  compileInputs U inputs

/-! ## A call of a generated module -/

/-- What a module authenticates with. -/
inductive Credentials where
  | none
  | token (token : JsString)
  | headers (values : List (JsString × JsString))
  | broker (connectionId : JsString)

/-- The same, in whatever order the headers are listed. -/
def Credentials.Same : Credentials → Credentials → Prop
  | .none, .none => True
  | .token t, .token t' => t = t'
  | .headers vs, .headers vs' => vs.Perm vs'
  | .broker id, .broker id' => id = id'
  | _, _ => False

/-- `Missing required environment variable`. -/
structure MissingVariable where
  name : JsString

def requireEnv (env : Env) (name : JsString) : Except MissingVariable JsString :=
  match OrderedMap.get? name env with
  | none => .error ⟨name⟩
  | some value => if value = [] then .error ⟨name⟩ else .ok value

def readHeader (env : Env) (entry : JsString × JsString) :
    Except MissingVariable (JsString × JsString) := do
  return (entry.1, ← requireEnv env entry.2)

def ConnectionModule.evaluate (env : Env) : ConnectionModule → Except MissingVariable Credentials
  | .plain => .ok .none
  | .bearer envVar => do return .token (← requireEnv env envVar)
  | .headers entries => do return .headers (← entries.mapM (readHeader env))
  | .broker connectionId => .ok (.broker connectionId)

/-! ## Connections as they were written -/

/-- A connection with the auth it was written with. -/
structure Connection where
  id : JsString
  name : JsString
  auth : McpAuthWrite

namespace Connection

def row (vault : Vault) (c : Connection) : ConnectionRow where
  id := c.id
  name := c.name
  authType := authTypeOf c.auth
  authConfigEncrypted :=
    match encryptConnectionAuthConfig (some vault) c.auth c.id with
    | .ok envelope => envelope
    | .error _ => none

/-- The connection's secrets. -/
def secrets (c : Connection) : List (SecretName × JsString) :=
  match c.auth with
  | .none | .oauth => []
  | .bearer token _ => [(.token, token)]
  | .headers values => values.entries.map fun e => (.header e.1, e.2)

/-- What its module should authenticate with. -/
def credentials (c : Connection) : Credentials :=
  match c.auth with
  | .none => .none
  | .oauth => .broker c.id
  | .bearer token _ => .token token
  | .headers values => .headers values.entries

/-- Its secrets, each under its variable. -/
def vars (c : Connection) : Env := c.secrets.map fun s => (s.1.envName U c.name, s.2)

/-- The module that is generated for it. -/
def module (c : Connection) : ConnectionModule :=
  match c.auth with
  | .none => .plain
  | .oauth => .broker c.id
  | .bearer _ _ => .bearer (mcpTokenEnvName U c.name)
  | .headers values =>
    .headers ((values.entries.map fun e => (e.1, mcpHeaderEnvName U c.name e.1)).mergeSort
      fun a b => decide (a.1 ≤ b.1))

end Connection

/-- The secrets a row keeps. -/
def ConnectionRow.secrets (vault : Vault) (row : ConnectionRow) : List (SecretName × JsString) :=
  if row.authType = .oauth then []
  else
    match decryptMcpAuthConfig (some vault) row.authConfigEncrypted row.id with
    | .ok (some (.bearer token)) => [(.token, token)]
    | .ok (some (.headers headers)) => headers.map fun e => (.header e.1, e.2)
    | _ => []

def ConnectionRow.vars (vault : Vault) (row : ConnectionRow) : Env :=
  (row.secrets vault).map fun s => (s.1.envName U row.name, s.2)

section

variable {vault : Vault} {c : Connection} {conns : List Connection}

theorem decryptMcpAuthConfig_encrypt (vault : Vault) (config : McpAuthConfig) (id : JsString) :
    decryptMcpAuthConfig (some vault) (some (vault.encrypt config id)) id = .ok (some config) := by
  rw [decryptMcpAuthConfig, vault.decrypt_encrypt]

theorem connectionEnv_row : connectionEnv U (some vault) (c.row vault) = .ok (c.vars U) := by
  rcases c with ⟨id, name, _ | _ | ⟨token, ht⟩ | values⟩
  · rfl
  · rfl
  · have hd := decryptMcpAuthConfig_encrypt vault (.bearer token) id
    unfold connectionEnv
    rw [if_neg (by rintro ⟨⟩)]
    simp only [Connection.row, encryptConnectionAuthConfig, hd]
    show Except.ok (if token = [] then [] else [(mcpTokenEnvName U name, token)]) = _
    rw [if_neg ht]
    rfl
  · have hd := decryptMcpAuthConfig_encrypt vault (.headers values.entries) id
    unfold connectionEnv
    rw [if_neg (by rintro ⟨⟩)]
    simp only [Connection.row, encryptConnectionAuthConfig, hd]
    show Except.ok (values.entries.map fun e => (mcpHeaderEnvName U name e.1, e.2)) = _
    rw [Connection.vars, Connection.secrets, List.map_map]
    rfl

/-- A row has the secrets it was written with. -/
theorem secrets_row : (c.row vault).secrets vault = c.secrets := by
  rcases c with ⟨id, name, _ | _ | ⟨token, ht⟩ | values⟩
  · rfl
  · rfl
  · have hd := decryptMcpAuthConfig_encrypt vault (.bearer token) id
    unfold ConnectionRow.secrets
    rw [if_neg (by rintro ⟨⟩)]
    simp only [Connection.row, encryptConnectionAuthConfig, hd]
    rfl
  · have hd := decryptMcpAuthConfig_encrypt vault (.headers values.entries) id
    unfold ConnectionRow.secrets
    rw [if_neg (by rintro ⟨⟩)]
    simp only [Connection.row, encryptConnectionAuthConfig, hd]
    rfl

theorem vars_row : (c.row vault).vars U vault = c.vars U := by
  rw [ConnectionRow.vars, secrets_row]
  rfl

theorem decryptMcpEnv_eq_ok {vault : Option Vault} {rows : List ConnectionRow}
    {vars : ConnectionRow → Env} (h : ∀ row ∈ rows, connectionEnv U vault row = .ok (vars row)) :
    decryptMcpEnv U vault rows = .ok (OrderedMap.setAll (rows.flatMap vars) []) := by
  have hfill : ∀ (rows : List ConnectionRow) (env : Env),
      (∀ row ∈ rows, connectionEnv U vault row = .ok (vars row)) →
        fillEnv U vault rows env = .ok (OrderedMap.setAll (rows.flatMap vars) env) := by
    intro rows
    induction rows with
    | nil => exact fun env _ => rfl
    | cons row rows ih =>
      intro env h
      rw [fillEnv, h row List.mem_cons_self, List.flatMap_cons, OrderedMap.setAll_append]
      exact ih _ fun row' hm => h row' (List.mem_cons_of_mem _ hm)
  exact hfill rows [] h

theorem decryptMcpEnv_rows (conns : List Connection) :
    decryptMcpEnv U (some vault) (conns.map (Connection.row vault)) =
      .ok (OrderedMap.setAll (conns.flatMap (Connection.vars U)) []) := by
  have hrow : ∀ row ∈ conns.map (Connection.row vault),
      connectionEnv U (some vault) row = .ok (row.vars U vault) := by
    intro row hm
    obtain ⟨c, -, rfl⟩ := List.mem_map.mp hm
    rw [connectionEnv_row, vars_row]
  have hvars : (conns.map (Connection.row vault)).flatMap (ConnectionRow.vars U vault) =
      conns.flatMap (Connection.vars U) := by
    rw [List.flatMap_map]
    exact List.flatMap_congr fun c _ => vars_row U
  rw [decryptMcpEnv_eq_ok U hrow, hvars]

/-- What the compiler makes of a connection with a slug. -/
def Connection.resolved (c : Connection) : ResolvedMcpConnection where
  id := c.id
  slug := slugifyName U c.name
  auth :=
    match c.auth with
    | .none => .none
    | .oauth => .oauth c.id
    | .bearer _ _ => .bearerToken
    | .headers values =>
      .headers (values.entries.map fun e => (e.1, mcpHeaderEnvName U c.name e.1))

def Connection.input (c : Connection) : CompileConnection where
  id := c.id
  name := c.name
  envTokenVar :=
    match c.auth with
    | .bearer _ _ => some (mcpTokenEnvName U c.name)
    | _ => none
  authHeaders :=
    match c.auth with
    | .headers values =>
      some (values.entries.map fun e => (e.1, mcpHeaderEnvName U c.name e.1))
    | _ => none
  oauth :=
    match c.auth with
    | .oauth => true
    | _ => false

theorem resolveCompileInput_row :
    resolveCompileInput U (some vault) (c.row vault) = .ok (c.input U) := by
  rcases c with ⟨id, name, _ | _ | ⟨token, ht⟩ | values⟩
  · rfl
  · rfl
  · have hd := decryptMcpAuthConfig_encrypt vault (.bearer token) id
    simp only [resolveCompileInput, mcpAuthShape, Connection.row, encryptConnectionAuthConfig,
      authTypeOf, hd]
    rfl
  · have hd := decryptMcpAuthConfig_encrypt vault (.headers values.entries) id
    simp only [resolveCompileInput, mcpAuthShape, Connection.row, encryptConnectionAuthConfig,
      authTypeOf, hd]
    show Except.ok (CompileConnection.mk id name none (some ((values.entries.map Prod.fst).map
      fun header => (header, mcpHeaderEnvName U name header))) false) = _
    rw [List.map_map]
    rfl

theorem resolveConnection_input (h : slugifyName U c.name ≠ []) :
    resolveConnection U (c.input U) (slugifyName U c.name) = .ok (c.resolved U) := by
  have hslug : mcpConnectionSlug U c.name = slugifyName U c.name := if_neg h
  rcases c with ⟨id, name, _ | _ | ⟨token, ht⟩ | values⟩
  · rfl
  · rfl
  · have htoken : mcpTokenEnvName U name = connectionTokenEnvVar U (slugifyName U name) :=
      congrArg (connectionTokenEnvVar U) hslug
    exact if_pos htoken
  · have hunique : OrderedMap.UniqueKeys
        (values.entries.map fun e => (e.1, mcpHeaderEnvName U name e.1)) := by
      show ((values.entries.map fun e => (e.1, mcpHeaderEnvName U name e.1)).map Prod.fst).Nodup
      rw [List.map_map]
      exact values.nodup
    obtain ⟨e, rest, hcons⟩ := List.exists_cons_of_ne_nil values.entries_ne
    have hset := OrderedMap.setAll_nil_of_unique hunique
    simp only [resolveConnection, Connection.input, Connection.resolved]
    rw [hcons] at hset ⊢
    simp only [List.map_cons] at hset ⊢
    rw [hset]
    rfl

theorem emitConnection_resolved (h : slugifyName U c.name ≠ []) :
    emitConnection U (c.resolved U) = c.module U := by
  have hslug : mcpConnectionSlug U c.name = slugifyName U c.name := if_neg h
  rcases c with ⟨id, name, _ | _ | ⟨token, ht⟩ | values⟩
  · rfl
  · rfl
  · have htoken : mcpTokenEnvName U name = connectionTokenEnvVar U (slugifyName U name) :=
      congrArg (connectionTokenEnvVar U) hslug
    exact congrArg ConnectionModule.bearer htoken.symm
  · rfl

/-- Names without a problem all have a slug. -/
theorem slug_ne_nil_of_slugProblems {seen names : List JsString}
    (h : slugProblems U seen names = []) : ∀ name ∈ names, slugifyName U name ≠ [] := by
  induction names generalizing seen with
  | nil => exact fun name hm => absurd hm List.not_mem_nil
  | cons name names ih =>
    rw [slugProblems] at h
    split at h
    · cases h
    · next hne =>
      split at h
      · cases h
      · intro name' hm
        rcases List.mem_cons.mp hm with rfl | hm
        · exact hne
        · exact ih h name' hm

theorem uniqueSlugs_ok {names : List JsString} {u : Unit} (h : uniqueSlugs U names = .ok u) :
    slugProblems U [] names = [] := by
  unfold uniqueSlugs at h
  split at h
  · next hempty => exact List.isEmpty_iff.mp hempty
  · cases h

theorem resolveCompileInputs_rows :
    (conns.map (Connection.row vault)).mapM (resolveCompileInput U (some vault)) =
      .ok (conns.map (Connection.input U)) := by
  rw [List.mapM_map]
  exact mapM_eq_ok fun c _ => resolveCompileInput_row U

theorem resolveConnections_inputs (h : ∀ c ∈ conns, slugifyName U c.name ≠ []) :
    (conns.map (Connection.input U)).mapM (fun input =>
      resolveConnection U input (slugifyName U input.name)) =
      .ok (conns.map (Connection.resolved U)) := by
  rw [List.mapM_map]
  exact mapM_eq_ok fun c hc => resolveConnection_input U (h c hc)

theorem compileAgent_rows {modules : List ConnectionModule}
    (h : compileAgent U (some vault) (conns.map (Connection.row vault)) = .ok modules) :
    (∀ c ∈ conns, slugifyName U c.name ≠ []) ∧ modules = conns.map (Connection.module U) := by
  have hnames : (conns.map (Connection.input U)).map CompileConnection.name =
      conns.map Connection.name := by
    rw [List.map_map]
    rfl
  obtain ⟨inputs, hi, h⟩ := bind_eq_ok h
  rw [resolveCompileInputs_rows] at hi
  cases hi
  obtain ⟨_, hu, h⟩ := bind_eq_ok h
  rw [hnames] at hu
  have hslugs : ∀ c ∈ conns, slugifyName U c.name ≠ [] := fun c hc =>
    slug_ne_nil_of_slugProblems U (uniqueSlugs_ok U hu) _ (List.mem_map_of_mem hc)
  obtain ⟨resolved, hr, h⟩ := bind_eq_ok h
  rw [resolveConnections_inputs U hslugs] at hr
  cases hr
  obtain ⟨_, _, h⟩ := bind_eq_ok h
  cases h
  refine ⟨hslugs, ?_⟩
  rw [List.map_map]
  exact List.map_congr_left fun c hc => emitConnection_resolved U (hslugs c hc)

/-! ## Modules in their environment -/

theorem requireEnv_of_get? {env : Env} {name value : JsString}
    (h : OrderedMap.get? name env = some value) (hne : value ≠ []) :
    requireEnv env name = .ok value := by
  rw [requireEnv, h]
  exact if_neg hne

theorem module_evaluate {env : Env}
    (h : ∀ e ∈ c.vars U, OrderedMap.get? e.1 env = some e.2) :
    ∃ cr, (c.module U).evaluate env = .ok cr ∧ cr.Same c.credentials := by
  rcases c with ⟨id, name, _ | _ | ⟨token, ht⟩ | values⟩
  · exact ⟨.none, rfl, trivial⟩
  · exact ⟨.broker id, rfl, rfl⟩
  · have hread := requireEnv_of_get? (h _ List.mem_cons_self) ht
    refine ⟨.token token, ?_, rfl⟩
    show (requireEnv env (mcpTokenEnvName U name) >>= fun t => pure (Credentials.token t)) = _
    rw [show requireEnv env (mcpTokenEnvName U name) = .ok token from hread]
    rfl
  · let sorted := (values.entries.map fun e => (e.1, mcpHeaderEnvName U name e.1)).mergeSort
      fun a b => decide (a.1 ≤ b.1)
    let value (p : JsString × JsString) : JsString × JsString :=
      (p.1, (OrderedMap.get? p.1 values.entries).getD [])
    have hperm : sorted.Perm (values.entries.map fun e => (e.1, mcpHeaderEnvName U name e.1)) :=
      List.mergeSort_perm _ _
    have hvalue : ∀ e ∈ values.entries, value (e.1, mcpHeaderEnvName U name e.1) = e := by
      intro e he
      show (e.1, (OrderedMap.get? e.1 values.entries).getD []) = e
      rw [OrderedMap.get?_of_mem values.nodup he]
      rfl
    have hread : ∀ p ∈ sorted, readHeader env p = .ok (value p) := by
      intro p hp
      obtain ⟨e, he, rfl⟩ := List.mem_map.mp (hperm.mem_iff.mp hp)
      have hvar : (mcpHeaderEnvName U name e.1, e.2) ∈
          (⟨id, name, .headers values⟩ : Connection).vars U :=
        List.mem_map.mpr ⟨(.header e.1, e.2), List.mem_map.mpr ⟨e, he, rfl⟩, rfl⟩
      have hget := requireEnv_of_get? (h _ hvar) (values.values_ne e he)
      rw [hvalue e he]
      show (requireEnv env (mcpHeaderEnvName U name e.1) >>= fun v => pure (e.1, v)) = _
      rw [hget]
      rfl
    refine ⟨.headers (sorted.map value), ?_, ?_⟩
    · show (sorted.mapM (readHeader env) >>= fun vs => pure (Credentials.headers vs)) = _
      rw [mapM_eq_ok hread]
      rfl
    · show (sorted.map value).Perm values.entries
      refine (hperm.map value).trans (List.Perm.of_eq ?_)
      rw [List.map_map]
      exact (List.map_congr_left hvalue).trans (List.map_id _)

/-- The secrets of the connections, each behind its connection's slug. -/
def namedSecrets (conns : List Connection) : List (JsString × SecretName) :=
  conns.flatMap fun c => c.secrets.map fun s => (mcpConnectionSlug U c.name, s.1)

/-- The variables the connections' secrets travel in. -/
def varNames (conns : List Connection) : List JsString :=
  (conns.flatMap (Connection.vars U)).map Prod.fst

theorem varNames_nodup_iff : (varNames U conns).Nodup ↔
    (namedSecrets U conns).Pairwise fun a b => ¬ Alike U a.1 a.2 b.1 b.2 := by
  have hnames : varNames U conns =
      (conns.flatMap fun c => c.secrets.map fun s => (c.name, s.1)).map
        fun a => a.2.envName U a.1 := by
    rw [varNames, List.map_flatMap, List.map_flatMap]
    refine List.flatMap_congr fun c _ => ?_
    rw [Connection.vars, List.map_map, List.map_map]
    rfl
  have hslugs : namedSecrets U conns =
      (conns.flatMap fun c => c.secrets.map fun s => (c.name, s.1)).map
        fun a => (mcpConnectionSlug U a.1, a.2) := by
    rw [namedSecrets, List.map_flatMap]
    refine List.flatMap_congr fun c _ => ?_
    rw [List.map_map]
    rfl
  rw [hnames, hslugs, List.Nodup, List.pairwise_map, List.pairwise_map]
  exact List.Pairwise.iff fun a b => not_congr (secretEnvName_eq_iff U)

/-- The module authenticates with the connection's own secrets. -/
def Delivered (env : Env) (c : Connection) (module : ConnectionModule) : Prop :=
  ∃ cr, module.evaluate env = .ok cr ∧ cr.Same c.credentials

/-- Variables of their own deliver the secrets, in whatever order the rows are read. -/
theorem delivered_of_nodup {order : List Connection} (hperm : order.Perm conns)
    (h : (varNames U conns).Nodup) (hc : c ∈ conns) :
    Delivered (OrderedMap.setAll (order.flatMap (Connection.vars U)) []) c (c.module U) := by
  have hvars : (order.flatMap (Connection.vars U)).Perm (conns.flatMap (Connection.vars U)) :=
    hperm.flatMap_right _
  have hunique : OrderedMap.UniqueKeys (order.flatMap (Connection.vars U)) :=
    (hvars.map Prod.fst).nodup_iff.mpr h
  refine module_evaluate U fun e he => ?_
  refine OrderedMap.get?_setAll_of_mem hunique (hvars.mem_iff.mpr ?_)
  exact List.mem_flatMap.mpr ⟨c, hc, he⟩

end

/-! ## Connections to try -/

/-- Texts, each of their units behind a 0 and each of them before a 1. -/
def encodeTexts (texts : List JsString) : JsString :=
  texts.flatMap fun s => s.flatMap (fun c => [0, c]) ++ [1]

def decodeTexts : JsString → Option (List JsString)
  | [] => some []
  | [_] => some [[]]
  | mark :: c :: rest =>
    if mark = 1 then (decodeTexts (c :: rest)).map ([] :: ·)
    else
      match decodeTexts rest with
      | some (s :: texts) => some ((c :: s) :: texts)
      | _ => none

theorem decodeTexts_encodeTexts (texts : List JsString) :
    decodeTexts (encodeTexts texts) = some texts := by
  induction texts with
  | nil => rfl
  | cons s texts ih =>
    induction s with
    | nil =>
      show decodeTexts (1 :: encodeTexts texts) = _
      cases h : encodeTexts texts with
      | nil =>
        rw [h] at ih
        cases ih
        rfl
      | cons c rest =>
        rw [decodeTexts, if_pos rfl, ← h, ih]
        rfl
    | cons c s ihs =>
      show decodeTexts (0 :: c :: encodeTexts (s :: texts)) = _
      rw [decodeTexts, if_neg (by decide), ihs]

def pairTexts : List JsString → List (JsString × JsString)
  | key :: value :: rest => (key, value) :: pairTexts rest
  | _ => []

/-- A vault that binds the config to the row's id and hides nothing. -/
def openVault : Vault where
  encrypt config id :=
    match config with
    | .bearer token => encodeTexts [id, [0], token]
    | .headers headers => encodeTexts (id :: [1] :: headers.flatMap fun e => [e.1, e.2])
  decrypt envelope id :=
    match decodeTexts envelope with
    | some (id' :: kind :: texts) =>
      if id' ≠ id then none
      else if kind = [0] then some (.bearer texts.flatten)
      else some (.headers (pairTexts texts))
    | _ => none
  decrypt_encrypt config id := by
    cases config with
    | bearer token =>
      simp only [decodeTexts_encodeTexts]
      rw [if_neg (by simp), if_pos trivial]
      simp
    | headers headers =>
      have hpairs : pairTexts (headers.flatMap fun e => [e.1, e.2]) = headers := by
        induction headers with
        | nil => rfl
        | cons e headers ih => exact congrArg (e :: ·) ih
      simp only [decodeTexts_encodeTexts]
      rw [if_neg (by simp), if_neg (by decide), hpairs]

/-- A publish of connections whose names have slugs of their own and whose modules validate. -/
theorem compileAgent_ok (U : CaseMapping) (vault : Vault) (conns : List Connection)
    (hnames : slugProblems U [] (conns.map Connection.name) = [])
    (hvalid : (conns.map (Connection.resolved U)).forM validateConnection = .ok ()) :
    compileAgent U (some vault) (conns.map (Connection.row vault)) =
      .ok (conns.map (Connection.module U)) := by
  have hslugs : ∀ c ∈ conns, slugifyName U c.name ≠ [] := fun c hc =>
    slug_ne_nil_of_slugProblems U hnames _ (List.mem_map_of_mem hc)
  have hunique : uniqueSlugs U ((conns.map (Connection.input U)).map CompileConnection.name) =
      .ok () := by
    rw [List.map_map, uniqueSlugs]
    exact if_pos (by rw [show conns.map (CompileConnection.name ∘ Connection.input U) =
      conns.map Connection.name from rfl, hnames]; rfl)
  have hmodules : (conns.map (Connection.resolved U)).map (emitConnection U) =
      conns.map (Connection.module U) := by
    rw [List.map_map]
    exact List.map_congr_left fun c hc => emitConnection_resolved U (hslugs c hc)
  refine (bind_of_eq_ok (congrArg (Except.mapError CompileError.env)
    (resolveCompileInputs_rows U))).trans ?_
  refine (bind_of_eq_ok hunique).trans ?_
  refine (bind_of_eq_ok (resolveConnections_inputs U hslugs)).trans ?_
  refine (bind_of_eq_ok hvalid).trans ?_
  rw [← hmodules]
  rfl

/-- A single header. -/
def oneHeader (name value : JsString) (hn : name ≠ []) (hv : value ≠ [])
    (hp : ascii "__proto__" ≠ name) : HeaderMap where
  entries := [(name, value)]
  nodup := List.nodup_singleton _
  entries_ne := List.cons_ne_nil _ _
  keys_ne _ he := (List.mem_singleton.mp he) ▸ hn
  values_ne _ he := (List.mem_singleton.mp he) ▸ hv
  no_proto hm := hp (List.mem_singleton.mp hm)

/-- `foo`, which sends a header `X-Token`. -/
def fooConnection : Connection where
  id := ascii "c1"
  name := ascii "Foo"
  auth := .headers (oneHeader (ascii "X-Token") (ascii "foo-secret") (by decide) (by decide)
    (by decide))

/-- A connection with a bearer token. -/
def bearerConnection (name : JsString) : Connection where
  id := ascii "c2"
  name := name
  auth := .bearer (ascii "bar-secret") (by decide)

/-! ## The right credential reaches the right connection -/

/-- A version that the compiler accepts gets every connection its own credentials, and every
secret a variable of its own, exactly when no two secrets are alike. -/
theorem credentials_iff (U : CaseMapping) (vault : Vault) (conns : List Connection)
    (modules : List ConnectionModule)
    (h : compileAgent U (some vault) (conns.map (Connection.row vault)) = .ok modules) :
    ((∀ order : List Connection, order.Perm conns →
        ∃ env, decryptMcpEnv U (some vault) (order.map (Connection.row vault)) = .ok env ∧
          List.Forall₂ (Delivered env) conns modules) ∧
      (varNames U conns).Nodup) ↔
      (namedSecrets U conns).Pairwise fun a b => ¬ Alike U a.1 a.2 b.1 b.2 := by
  rw [← varNames_nodup_iff]
  obtain ⟨-, rfl⟩ := compileAgent_rows U h
  constructor
  · exact And.right
  · intro hnodup
    refine ⟨fun order hperm => ⟨_, decryptMcpEnv_rows U order, ?_⟩, hnodup⟩
    rw [List.forall₂_map_right_iff, List.forall₂_same]
    exact fun c hc => delivered_of_nodup U hperm hnodup hc

/-- Under another name the bearer's token stays out of the header. -/
theorem credentials_iff_bar :
    compileAgent asciiCase (some openVault)
        ([fooConnection, bearerConnection (ascii "Bar")].map (Connection.row openVault)) =
      .ok ([fooConnection, bearerConnection (ascii "Bar")].map (Connection.module asciiCase)) ∧
    (∀ order : List Connection, order.Perm [fooConnection, bearerConnection (ascii "Bar")] →
        ∃ env, decryptMcpEnv asciiCase (some openVault) (order.map (Connection.row openVault)) =
            .ok env ∧
          List.Forall₂ (Delivered env) [fooConnection, bearerConnection (ascii "Bar")]
            ([fooConnection, bearerConnection (ascii "Bar")].map
              (Connection.module asciiCase))) := by
  have hcompile := compileAgent_ok asciiCase openVault
    [fooConnection, bearerConnection (ascii "Bar")] rfl rfl
  have hapart : (varNames asciiCase [fooConnection, bearerConnection (ascii "Bar")]).Nodup := by
    decide +kernel
  exact ⟨hcompile, ((credentials_iff asciiCase openVault _ _ hcompile).mpr
    ((varNames_nodup_iff asciiCase).mp hapart)).1⟩

/-- `Foo` and `Foo Header X` are published together, and `Foo` sends the other's token. -/
theorem credentials_clash :
    compileAgent asciiCase (some openVault)
        ([fooConnection, bearerConnection (ascii "Foo Header X")].map (Connection.row openVault)) =
      .ok [.headers [(ascii "X-Token", ascii "MCP_FOO_HEADER_X_TOKEN")],
        .bearer (ascii "MCP_FOO_HEADER_X_TOKEN")] ∧
    (∃ env, decryptMcpEnv asciiCase (some openVault)
        ([fooConnection, bearerConnection (ascii "Foo Header X")].map (Connection.row openVault)) =
        .ok env ∧
      (ConnectionModule.headers [(ascii "X-Token", ascii "MCP_FOO_HEADER_X_TOKEN")]).evaluate env =
        .ok (.headers [(ascii "X-Token", ascii "bar-secret")])) ∧
    ¬ (varNames asciiCase [fooConnection, bearerConnection (ascii "Foo Header X")]).Nodup := by
  have hmodules : [fooConnection, bearerConnection (ascii "Foo Header X")].map
      (Connection.module asciiCase) =
      [.headers [(ascii "X-Token", ascii "MCP_FOO_HEADER_X_TOKEN")],
        .bearer (ascii "MCP_FOO_HEADER_X_TOKEN")] := by
    have hsort := @List.mergeSort_singleton _ (fun a b : JsString × JsString => decide (a.1 ≤ b.1))
      (ascii "X-Token", mcpHeaderEnvName asciiCase (ascii "Foo") (ascii "X-Token"))
    exact congrArg (fun l => [ConnectionModule.headers l, _]) hsort
  refine ⟨?_, ⟨_, decryptMcpEnv_rows asciiCase _, rfl⟩, by decide +kernel⟩
  rw [compileAgent_ok asciiCase openVault _ rfl rfl, hmodules]

end InvisibleString.Runtime
