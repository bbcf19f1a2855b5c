import InvisibleString.Oauth.ClientIdentity

/- # `Oauth.Grant` — a connection, its grant, and the writes on the grant's row

A connection has at most one row of grant columns.  Beside the grant that is live, the row holds
the flow that is armed: what its start discovered, staged until the exchange of its code.  Every
write stamps the row.

A staged flow carries the connection URL its start read (`startedFor`), and a token the flow whose
exchange it goes back to (`consent`).  No column says either, and no function reads it.
-/

namespace InvisibleString.Oauth

open Json (JsString ascii trim)

abbrev UserId := Nat

/-! ## Connections -/

inductive AuthType where
  | none
  | bearer
  | headers
  | oauth
  deriving DecidableEq

inductive ConnectionSource where
  | catalog
  | registry
  | custom
  deriving DecidableEq

inductive ConnectionScope where
  | user (userId : UserId)
  | workspace (organizationId : Option Nat)
  deriving DecidableEq

structure ConnectionRow where
  url : JsString
  authType : AuthType
  source : ConnectionSource
  catalogSlug : Option JsString
  scope : ConnectionScope
  deriving DecidableEq

inductive WorkspaceRole where
  | owner
  | admin
  | member
  deriving DecidableEq

/-- `hasRole(role, "admin")`. -/
def WorkspaceRole.managesConnections : WorkspaceRole → Bool
  | .owner | .admin => true
  | .member => false

/-- Who is in which workspace, as what. -/
abbrev Memberships := UserId → Nat → Option WorkspaceRole

def mayManageConnection (memberships : Memberships) (userId : UserId)
    (connection : ConnectionRow) : Bool :=
  match connection.scope with
  | .user owner => owner == userId
  | .workspace none => false
  | .workspace (some organizationId) =>
    match memberships userId organizationId with
    | none => false
    | some role => role.managesConnections

/-! ## Grant rows -/

inductive OauthStatus where
  | pending
  | connected
  | expired
  | error
  deriving DecidableEq

structure Endpoints where
  authorizationServer : Option JsString
  authorizationEndpoint : Option JsString
  tokenEndpoint : Option JsString
  resource : Option JsString
  revocationEndpoint : Option JsString
  deriving DecidableEq

def Endpoints.blank : Endpoints where
  authorizationServer := none
  authorizationEndpoint := none
  tokenEndpoint := none
  resource := none
  revocationEndpoint := none

/-- `pending_flow`. -/
structure PendingFlow where
  endpoints : Endpoints
  client : Client
  scopes : Option (List JsString)
  /-- the URL the connection had when the start read it -/
  startedFor : JsString
  deriving DecidableEq

/-- An access or refresh token. -/
structure Token where
  text : JsString
  /-- the flow whose exchange minted it, or the tokens it was refreshed from -/
  consent : PendingFlow
  deriving DecidableEq

structure OauthRow where
  id : Nat
  /-- stands for the time of the last write -/
  updatedAt : Nat
  status : OauthStatus
  endpoints : Endpoints
  scopes : Option (List JsString)
  client : Client
  accessToken : Option Token
  accessTokenExpiresAt : Option Nat
  refreshToken : Option Token
  connectedBy : Option UserId
  pendingState : Option JsString
  pendingCodeVerifier : Option JsString
  pendingExpiresAt : Option Nat
  pendingStartedBy : Option UserId
  pendingFlow : Option PendingFlow
  expectedIssuer : Option JsString
  issParameterSupported : Option Bool
  lastErrorCode : Option JsString
  deriving DecidableEq

/-- A row as it is inserted.  A catalog recipe may record its identity mode. -/
def OauthRow.inserted (id stamp : Nat) (mode : Option ClientIdentityMode) : OauthRow where
  id := id
  updatedAt := stamp
  status := .pending
  endpoints := .blank
  scopes := none
  client := { Client.blank with clientIdentityMode := mode }
  accessToken := none
  accessTokenExpiresAt := none
  refreshToken := none
  connectedBy := none
  pendingState := none
  pendingCodeVerifier := none
  pendingExpiresAt := none
  pendingStartedBy := none
  pendingFlow := none
  expectedIssuer := none
  issParameterSupported := none
  lastErrorCode := none

/-! ## Start -/

inductive CatalogAuth where
  | oauth (clientIdentity : Option ConnectorOauthClientIdentity) (clientEnvPrefix : Option JsString)
  | other

structure ConnectorCatalogEntry where
  slug : JsString
  auth : CatalogAuth

/-- What the connection's catalog entry contributes to client identity. -/
def identityContext (catalog : JsString → Option ConnectorCatalogEntry)
    (connection : ConnectionRow) : ClientIdentityContext :=
  match connection.catalogSlug.bind catalog with
  | none => ⟨none, none⟩
  | some entry =>
    match entry.auth with
    | .oauth clientIdentity clientEnvPrefix =>
      ⟨some (clientEnvPrefix.getD entry.slug), some (clientIdentity.getD .dynamic)⟩
    | .other => ⟨some entry.slug, none⟩

/-- `armConsentFlow` up to its write: what is staged. -/
def stageFlow (connection : ConnectionRow) (row : OauthRow) (discovery : OauthDiscovery)
    (resolved : ResolvedClientIdentity × Option Client) : PendingFlow where
  endpoints := {
    authorizationServer := some discovery.authorizationServer
    authorizationEndpoint := some discovery.authorizationEndpoint
    tokenEndpoint := some discovery.tokenEndpoint
    resource := some discovery.resource
    revocationEndpoint := discovery.revocationEndpoint }
  client := stagedClient row.client resolved
  scopes := discovery.scopesSupported
  startedFor := connection.url

/-- What is drawn for a flow: the PKCE verifier, the state, and the time of arming. -/
structure FlowNonces where
  verifier : JsString
  state : JsString
  now : Nat

/-- `OAUTH_PENDING_TTL_MS` -/
def oauthPendingTtlMs : Nat := 10 * 60 * 1000

/-- The write that arms a flow.  `read` is the row as the start read it: a grant that worked then
is left connected. -/
def OauthRow.arm (row : OauthRow) (stamp : Nat) (read : OauthRow) (flow : PendingFlow)
    (discovery : OauthDiscovery) (nonces : FlowNonces) (userId : UserId) : OauthRow :=
  { row with
    updatedAt := stamp
    status := if read.status = .connected then row.status else .pending
    pendingFlow := some flow
    pendingState := some nonces.state
    pendingCodeVerifier := some nonces.verifier
    pendingExpiresAt := some (nonces.now + oauthPendingTtlMs)
    pendingStartedBy := some userId
    expectedIssuer := some discovery.issuer
    issParameterSupported := discovery.issParameterSupported
    lastErrorCode := none }

/-- `recordFailure`: an error code, and a status where one is given. -/
def OauthRow.recordFailure (row : OauthRow) (stamp : Nat) (status : Option OauthStatus)
    (lastErrorCode : JsString) : OauthRow :=
  { row with
    updatedAt := stamp
    status := status.getD row.status
    lastErrorCode := some lastErrorCode }

/-! ## Callback -/

structure OauthCallbackQuery where
  code : Option JsString
  state : Option JsString
  error : Option JsString
  iss : Option JsString

/-- The compare-and-clear of the state. -/
def OauthRow.claim (row : OauthRow) (stamp : Nat) : OauthRow :=
  { row with
    updatedAt := stamp
    pendingState := none
    pendingCodeVerifier := none
    pendingExpiresAt := none
    pendingStartedBy := none
    pendingFlow := none }

structure ExchangeMaterial where
  tokenEndpoint : Option JsString
  resource : Option JsString
  clientId : Option JsString
  clientSecret : Option ClientSecret

def exchangeMaterial (oauth : OauthRow) : ExchangeMaterial :=
  match oauth.pendingFlow with
  | some staged =>
    ⟨staged.endpoints.tokenEndpoint, staged.endpoints.resource, staged.client.clientId,
      staged.client.clientSecret⟩
  | none =>
    ⟨oauth.endpoints.tokenEndpoint, oauth.endpoints.resource, oauth.client.clientId,
      oauth.client.clientSecret⟩

/-- Is the response another issuer's than the one consent was started against? -/
def issuerProblem (parse : JsString → Option Url) (oauth : OauthRow)
    (presented : Option JsString) : Bool :=
  match oauth.expectedIssuer with
  | none => false
  | some expected =>
    let value := trim (presented.getD [])
    if value == [] then oauth.issParameterSupported == some true
    else canonicalIssuer parse value != canonicalIssuer parse expected

structure ExchangeInput where
  tokenEndpoint : JsString
  clientId : JsString
  clientSecret : Option ClientSecret
  code : JsString
  verifier : JsString
  resource : Option JsString

/-- What a process has at hand. -/
structure BrokerEnv where
  publicAppUrl : JsString
  publicAppUrlIsPublic : Bool
  preregisteredClients : OauthClientRegistrations
  hasMasterKey : Bool
  opensEnvelopes : Bool
  catalog : JsString → Option ConnectorCatalogEntry

/-- The exchange a callback makes, or the code of what keeps it from one. -/
def exchangeInput (parse : JsString → Option Url) (env : BrokerEnv) (oauth : OauthRow)
    (query : OauthCallbackQuery) : Except JsString ExchangeInput :=
  if issuerProblem parse oauth query.iss then .error (ascii "oauth_exchange_failed")
  else if query.error.getD [] != [] then .error (ascii "oauth_exchange_failed")
  else if trim (query.code.getD []) == [] then .error (ascii "oauth_exchange_failed")
  else if !env.hasMasterKey then .error (ascii "encryption_key_missing")
  else
    let staged := exchangeMaterial oauth
    match staged.tokenEndpoint, oauth.pendingCodeVerifier with
    | some tokenEndpoint, some verifier =>
      if !env.opensEnvelopes then .error (ascii "mcp_secret_unavailable")
      else .ok {
        tokenEndpoint
        clientId := staged.clientId.getD (clientMetadataUrl env.publicAppUrl)
        clientSecret := staged.clientSecret
        code := trim (query.code.getD [])
        verifier
        resource := staged.resource }
    | _, _ => .error (ascii "oauth_exchange_failed")

/-- A token endpoint's 200. -/
structure TokenResponse where
  accessToken : JsString
  /-- seconds -/
  expiresIn : Option Nat
  refreshToken : Option JsString
  scope : Option (List JsString)

/-- The flow a callback completes; the live columns where the row was armed before flows were
staged. -/
def OauthRow.consented (oauth : OauthRow) (connection : ConnectionRow) : PendingFlow :=
  oauth.pendingFlow.getD
    { endpoints := oauth.endpoints
      client := oauth.client
      scopes := oauth.scopes
      startedFor := connection.url }

/-- The promotion of a flow: its tokens, and with them its endpoints and its client. -/
def OauthRow.promote (row : OauthRow) (stamp : Nat) (oauth : OauthRow) (connection : ConnectionRow)
    (tokens : TokenResponse) (userId : UserId) (now : Nat) : OauthRow :=
  { row with
    updatedAt := stamp
    accessToken := some ⟨tokens.accessToken, oauth.consented connection⟩
    accessTokenExpiresAt := tokens.expiresIn.map fun seconds => now + seconds * 1000
    refreshToken := tokens.refreshToken.map fun text => ⟨text, oauth.consented connection⟩
    endpoints := match oauth.pendingFlow with
      | some flow => flow.endpoints
      | none => row.endpoints
    client := match oauth.pendingFlow with
      | some flow => flow.client
      | none => row.client
    scopes := match tokens.scope, oauth.pendingFlow with
      | some granted, _ => some granted
      | none, some flow => flow.scopes
      | none, none => row.scopes
    status := .connected
    connectedBy := some userId
    lastErrorCode := none }

/-- The status a failed callback records: none, where the row it found had a grant to lose. -/
def callbackFailureStatus (oauth : OauthRow) : Option OauthStatus :=
  if oauth.status = .connected ∧ oauth.accessToken ≠ none then none else some .error

/-! ## Access -/

/-- `ACCESS_TOKEN_EXPIRY_MARGIN_MS` -/
def accessTokenExpiryMarginMs : Nat := 60000

structure RefreshInput where
  tokenEndpoint : JsString
  clientId : JsString
  clientSecret : Option ClientSecret
  refreshToken : Token
  resource : Option JsString

/-- What `getAccessToken` does with the row it has locked. -/
inductive AccessPlan where
  | notConnected
  | stored (token : Token)
  | noRefreshMaterial
  /-- an envelope does not open -/
  | secretUnavailable
  | refresh (input : RefreshInput)

def accessPlan (env : BrokerEnv) (row : OauthRow) (now : Nat) : AccessPlan :=
  if row.status ≠ .connected then .notConnected
  else
    match row.accessToken.filter fun _ => match row.accessTokenExpiresAt with
      | none => true
      | some expiresAt => decide (now + accessTokenExpiryMarginMs < expiresAt) with
    | some token => if env.opensEnvelopes then .stored token else .secretUnavailable
    | none =>
      match row.refreshToken, row.endpoints.tokenEndpoint with
      | some refreshToken, some tokenEndpoint =>
        if !env.opensEnvelopes then .secretUnavailable
        else .refresh {
          tokenEndpoint
          clientId := row.client.clientId.getD (clientMetadataUrl env.publicAppUrl)
          clientSecret := row.client.clientSecret
          refreshToken
          resource := row.endpoints.resource }
      | _, _ => .noRefreshMaterial

/-- A refresh takes the row's refresh token to the row's token endpoint, as the row's client. -/
theorem accessPlan_refresh {env : BrokerEnv} {row : OauthRow} {now : Nat} {input : RefreshInput}
    (h : accessPlan env row now = .refresh input) :
    row.refreshToken = some input.refreshToken ∧
      row.endpoints.tokenEndpoint = some input.tokenEndpoint ∧
      input.clientSecret = row.client.clientSecret ∧ row.status = .connected := by
  unfold accessPlan at h
  split at h
  · cases h
  · rename_i hstatus
    split at h
    · split at h
      · cases h
      · cases h
    · split at h
      · rename_i refreshToken tokenEndpoint hrefresh hendpoint
        split at h
        · cases h
        · cases h
          exact ⟨hrefresh, hendpoint, rfl, not_not.mp hstatus⟩
      · cases h

theorem accessPlan_stored {env : BrokerEnv} {row : OauthRow} {now : Nat} {token : Token}
    (h : accessPlan env row now = .stored token) : row.accessToken = some token := by
  unfold accessPlan at h
  split at h
  · cases h
  · split at h
    · rename_i found hfound
      split at h
      · cases h
        exact (Option.filter_eq_some_iff.mp hfound).1
      · cases h
    · split at h
      · split at h
        · cases h
        · cases h
      · cases h

/-- `markExpired` on the row. -/
def OauthRow.markExpired (row : OauthRow) (stamp : Nat) (reason : JsString) : OauthRow :=
  { row with updatedAt := stamp, status := .expired, lastErrorCode := some reason }

/-- The rotation a refresh persists.  The refresh token stays where none came back. -/
def OauthRow.refresh (row : OauthRow) (stamp : Nat) (consent : PendingFlow)
    (refreshed : TokenResponse) (now : Nat) : OauthRow :=
  { row with
    updatedAt := stamp
    accessToken := some ⟨refreshed.accessToken, consent⟩
    accessTokenExpiresAt := refreshed.expiresIn.map fun seconds => now + seconds * 1000
    refreshToken := match refreshed.refreshToken with
      | some text => some ⟨text, consent⟩
      | none => row.refreshToken }

/-- The refresh token after a refresh is a rotated one or the old one. -/
theorem OauthRow.refreshToken_refresh {row : OauthRow} {stamp now : Nat} {consent : PendingFlow}
    {refreshed : TokenResponse} {token : Token}
    (h : (row.refresh stamp consent refreshed now).refreshToken = some token) :
    token.consent = consent ∨ row.refreshToken = some token := by
  simp only [OauthRow.refresh] at h
  split at h
  · rw [← Option.some.inj h]
    exact Or.inl rfl
  · exact Or.inr h

/-! ## Revocation and reset -/

structure RevocationRequest where
  revocationEndpoint : JsString
  token : Token
  clientId : JsString
  clientSecret : Option ClientSecret

/-- What `revokeBestEffort` sends, if it sends anything. -/
def revocationRequest (env : BrokerEnv) (row : OauthRow) : Option RevocationRequest :=
  match row.endpoints.revocationEndpoint, row.refreshToken.or row.accessToken with
  | some revocationEndpoint, some token =>
    if env.hasMasterKey && env.opensEnvelopes then
      some {
        revocationEndpoint
        token
        clientId := row.client.clientId.getD (clientMetadataUrl env.publicAppUrl)
        clientSecret := row.client.clientSecret }
    else none
  | _, _ => none

/-- A change of the URL leaves the row as it was inserted. -/
def OauthRow.reset (row : OauthRow) (stamp : Nat) : OauthRow := OauthRow.inserted row.id stamp none

/-! ## The writes, column by column -/

section

variable (row read oauth : OauthRow) (stamp now : Nat) (flow : PendingFlow)
  (discovery : OauthDiscovery) (nonces : FlowNonces) (userId : UserId)
  (connection : ConnectionRow) (answer : TokenResponse)

/-- The columns of the live grant that say where it lives and as whom. -/
def OauthRow.home : Endpoints × Client := (row.endpoints, row.client)

/-- The token columns. -/
def OauthRow.tokens : Option Token × Option Nat × Option Token :=
  (row.accessToken, row.accessTokenExpiresAt, row.refreshToken)

/-- A promoted flow is the live one: endpoints and client are those its tokens were minted with. -/
theorem OauthRow.home_promote (h : oauth.pendingFlow = some flow) :
    (row.promote stamp oauth connection answer userId now).home = (flow.endpoints, flow.client) := by
  simp only [OauthRow.home, OauthRow.promote, h]

end

end InvisibleString.Oauth
