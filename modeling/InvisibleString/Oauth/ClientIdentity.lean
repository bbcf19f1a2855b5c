import InvisibleString.Lib.Checks
import InvisibleString.Lib.OrderedMap
import InvisibleString.Oauth.Discovery
import Mathlib.Data.List.Sort

/- # `Oauth.ClientIdentity` — as which client a consent is asked for

Operator-supplied clients, CIMD, the registration stored on the row, a fresh registration: tried
in this order.  A stored client is used again only where it was registered, and a configured one
only at the issuer it is pinned to.

A client secret carries the issuer it was registered or configured for (`issuedFor`).  No function
reads that; it is there to say where a secret may be sent.

**Proved here.**

    every registration the loader accepts is pinned to the issuer its secret is configured for
                                                              (`loadOauthClientRegistrations_pinned`)
    the client a start stages has a secret of the issuer that was discovered
                                                              (`stagedClient_issuedFor`)
-/

namespace InvisibleString.Oauth

open Json (JsString ascii unit trim)

/-- A client secret, and the issuer it was registered or configured for. -/
structure ClientSecret where
  text : JsString
  issuedFor : JsString
  deriving DecidableEq

/-! ## Operator-supplied clients -/

/-- What is left to the platform: `new URL`, the case mappings and `localeCompare`. -/
structure Platform where
  parseUrl : JsString → Option Url
  toLowerCase : JsString → JsString
  toUpperCase : JsString → JsString
  /-- `a.localeCompare(b) <= 0` -/
  localeLe : JsString → JsString → Bool

structure OauthClientRegistration where
  key : JsString
  clientId : JsString
  clientSecret : Option ClientSecret
  issuer : Option JsString

abbrev OauthClientRegistrations := List (JsString × OauthClientRegistration)

inductive OauthClientField where
  | clientId
  | clientSecret
  | issuer
  deriving DecidableEq

def OauthClientField.suffix : OauthClientField → JsString
  | .clientId => ascii "CLIENT_ID"
  | .clientSecret => ascii "CLIENT_SECRET"
  | .issuer => ascii "ISSUER"

def oauthClientPrefix : JsString := ascii "MCP_OAUTH_"

/-- What `.` does not match. -/
def isLineTerminator (c : Json.CodeUnit) : Bool :=
  c == 0x0A || c == 0x0D || c == 0x2028 || c == 0x2029

/-- `OAUTH_CLIENT_VAR`: `MCP_OAUTH_(.+)_(CLIENT_ID|CLIENT_SECRET|ISSUER)`. -/
def matchOauthClientVar (name : JsString) : Option (JsString × OauthClientField) :=
  let rest := name.drop oauthClientPrefix.length
  [OauthClientField.clientId, .clientSecret, .issuer].findSome? fun field =>
    let tail := ascii "_" ++ field.suffix
    let key := rest.take (rest.length - tail.length)
    if tail.isSuffixOf rest && key != [] && !key.any isLineTerminator then some (key, field)
    else none

structure OauthClientFields where
  id : Option JsString
  secret : Option JsString
  issuer : Option JsString

def OauthClientFields.set (fields : OauthClientFields) (value : JsString) :
    OauthClientField → OauthClientFields
  | .clientId => { fields with id := some value }
  | .clientSecret => { fields with secret := some value }
  | .issuer => { fields with issuer := some value }

/-- `.replaceAll(a, b)` of one code unit. -/
def replaceUnit (a b : Json.CodeUnit) (s : JsString) : JsString :=
  s.map fun c => if c == a then b else c

section Loader

variable (P : Platform)

def normalizeProviderKey (raw : JsString) : JsString :=
  replaceUnit (unit '_') (unit '-') (P.toLowerCase (trim raw))

/-- One variable of the environment: a problem, or the fields with it. -/
def readOauthVar (state : List JsString × List (JsString × OauthClientFields))
    (entry : JsString × Option JsString) :
    List JsString × List (JsString × OauthClientFields) :=
  let (name, rawValue) := entry
  if !oauthClientPrefix.isPrefixOf name then state
  else
    let value := trim (rawValue.getD [])
    if value == [] then state
    else
      match matchOauthClientVar name with
      | none =>
        (state.1 ++ [name ++ ascii " is not a recognised pre-registered OAuth client variable — expected MCP_OAUTH_<PREFIX>_CLIENT_ID, _CLIENT_SECRET or _ISSUER"],
          state.2)
      | some (rawKey, field) =>
        let key := normalizeProviderKey P rawKey
        let fields := (OrderedMap.get? key state.2).getD ⟨none, none, none⟩
        (state.1, OrderedMap.set key (fields.set value field) state.2)

def oauthEnvVar (key : JsString) (field : OauthClientField) : JsString :=
  oauthClientPrefix ++ replaceUnit (unit '-') (unit '_') (P.toUpperCase key) ++ ascii "_" ++
    field.suffix

/-- One provider: its registration, or what is wrong with it. -/
def readRegistration (key : JsString) (entry : OauthClientFields) :
    Except JsString OauthClientRegistration :=
  match entry.id, entry.issuer with
  | none, _ =>
    .error (oauthEnvVar P key .clientId ++ ascii " is required when " ++
      oauthEnvVar P key (if entry.secret.isSome then .clientSecret else .issuer) ++
      ascii " is set")
  | some _, none =>
    .error (oauthEnvVar P key .issuer ++ ascii " is required when " ++
      oauthEnvVar P key .clientId ++
      ascii " is set — a pre-registered client must be pinned to the authorization server that issued it")
  | some clientId, some rawIssuer =>
    match configIssuer P.parseUrl rawIssuer with
    | none => .error (oauthEnvVar P key .issuer ++ ascii " must be an absolute http(s) URL")
    | some issuer =>
      .ok {
        key
        clientId
        clientSecret := entry.secret.map fun secret => ⟨secret, rawIssuer⟩
        issuer := some issuer }

/-- All the providers, in the order of their keys. -/
def readRegistrations (problems : List JsString) :
    List (JsString × OauthClientFields) → Except (List JsString) OauthClientRegistrations
  | [] => if problems = [] then .ok [] else .error problems
  | (key, entry) :: rest =>
    match readRegistration P key entry with
    | .error problem => readRegistrations (problems ++ [problem]) rest
    | .ok registration =>
      match readRegistrations problems rest with
      | .error problems => .error problems
      | .ok registrations => .ok ((key, registration) :: registrations)

/-- The environment's clients, or everything that is wrong with it. -/
def loadOauthClientRegistrations (env : List (JsString × Option JsString)) :
    Except (List JsString) OauthClientRegistrations :=
  let (problems, fields) := env.foldl (readOauthVar P) ([], [])
  readRegistrations P problems (fields.mergeSort fun a b => P.localeLe a.1 b.1)

/-- The issuer a client is asked for, in canonical form. -/
def askedIssuer : Option JsString → Option JsString
  | none => none
  | some raw => if raw == [] then none else configIssuer P.parseUrl raw

/-- The provider key a client is asked for, empty where there is none. -/
def askedKey : Option JsString → JsString
  | none => []
  | some raw => if raw == [] then [] else normalizeProviderKey P raw

/-- The fallback of `findOauthClientRegistration`. -/
def findByIssuer (registrations : OauthClientRegistrations) (issuer : Option JsString)
    (allowIssuerFallback : Bool) : Option OauthClientRegistration :=
  if issuer.isNone || !allowIssuerFallback then none
  else (registrations.find? fun entry => entry.2.issuer == issuer).map Prod.snd

/-- By provider key, at the pinned issuer only; else by issuer, where that is allowed. -/
def findOauthClientRegistration (registrations : OauthClientRegistrations)
    (key issuer : Option JsString) (allowIssuerFallback : Bool) :
    Option OauthClientRegistration :=
  let issuer := askedIssuer P issuer
  if askedKey P key == [] then findByIssuer registrations issuer allowIssuerFallback
  else
    match OrderedMap.get? (askedKey P key) registrations with
    | some byKey => if byKey.issuer.isSome && byKey.issuer == issuer then some byKey else none
    | none => findByIssuer registrations issuer allowIssuerFallback

end Loader

/-- The registration is pinned, to the issuer its secret is configured for. -/
def OauthClientRegistration.Pinned (P : Platform) (registration : OauthClientRegistration) : Prop :=
  ∀ secret, registration.clientSecret = some secret →
    registration.issuer = some (canonicalIssuer P.parseUrl secret.issuedFor)

section

variable {P : Platform}

theorem readRegistration_pinned {key : JsString} {entry : OauthClientFields}
    {registration : OauthClientRegistration}
    (h : readRegistration P key entry = .ok registration) : registration.Pinned P := by
  unfold readRegistration at h
  split at h
  · cases h
  · cases h
  · rename_i clientId rawIssuer _ _
    split at h
    · cases h
    · rename_i issuer hissuer
      cases h
      intro secret hsecret
      obtain ⟨text, _, rfl⟩ := Option.map_eq_some_iff.mp hsecret
      exact congrArg some (configIssuer_eq hissuer).symm

theorem readRegistrations_pinned {entries : List (JsString × OauthClientFields)} :
    ∀ {problems : List JsString} {registrations : OauthClientRegistrations},
      readRegistrations P problems entries = .ok registrations →
      ∀ entry ∈ registrations, entry.2.Pinned P := by
  induction entries with
  | nil =>
    intro problems registrations h
    rw [readRegistrations] at h
    split at h
    · cases h
      exact fun entry hmem => absurd hmem List.not_mem_nil
    · cases h
  | cons entry rest ih =>
    intro problems registrations h
    rw [readRegistrations] at h
    split at h
    · exact ih h
    · rename_i registration hregistration
      split at h
      · cases h
      · rename_i later hlater
        cases h
        rw [List.forall_mem_cons]
        exact ⟨readRegistration_pinned hregistration, ih hlater⟩

/-- Every client the loader accepts is pinned to the issuer its secret is configured for. -/
theorem loadOauthClientRegistrations_pinned {env : List (JsString × Option JsString)}
    {registrations : OauthClientRegistrations}
    (h : loadOauthClientRegistrations P env = .ok registrations) :
    ∀ entry ∈ registrations, entry.2.Pinned P :=
  readRegistrations_pinned h

theorem askedIssuer_some {issuer : Option JsString} {asked : JsString}
    (h : askedIssuer P issuer = some asked) :
    ∃ raw, issuer = some raw ∧ configIssuer P.parseUrl raw = some asked := by
  cases issuer with
  | none => cases h
  | some raw =>
    rw [askedIssuer] at h
    split at h
    · cases h
    · exact ⟨raw, rfl, h⟩

theorem findByIssuer_some {registrations : OauthClientRegistrations} {issuer : Option JsString}
    {allow : Bool} {registration : OauthClientRegistration}
    (h : findByIssuer registrations issuer allow = some registration) :
    (∃ k, (k, registration) ∈ registrations) ∧ registration.issuer = issuer ∧ issuer ≠ none := by
  unfold findByIssuer at h
  split at h
  · cases h
  · rename_i hcond
    obtain ⟨⟨k, r⟩, hfound, rfl⟩ := Option.map_eq_some_iff.mp h
    refine ⟨⟨k, List.mem_of_find?_eq_some hfound⟩, by simpa using List.find?_some hfound, ?_⟩
    rintro rfl
    exact hcond rfl

/-- A client that is found is one of the configured ones, pinned to the issuer asked for. -/
theorem findOauthClientRegistration_some {registrations : OauthClientRegistrations}
    {key issuer : Option JsString} {allow : Bool} {registration : OauthClientRegistration}
    (h : findOauthClientRegistration P registrations key issuer allow = some registration) :
    (∃ k, (k, registration) ∈ registrations) ∧
      ∃ raw asked, issuer = some raw ∧ configIssuer P.parseUrl raw = some asked ∧
        registration.issuer = some asked := by
  have hasked : registration.issuer = askedIssuer P issuer → askedIssuer P issuer ≠ none →
      ∃ raw asked, issuer = some raw ∧ configIssuer P.parseUrl raw = some asked ∧
        registration.issuer = some asked := by
    intro hissuer hnone
    obtain ⟨asked, hsome⟩ := Option.ne_none_iff_exists'.mp hnone
    obtain ⟨raw, hraw, hconf⟩ := askedIssuer_some hsome
    exact ⟨raw, asked, hraw, hconf, hissuer.trans hsome⟩
  have hbyIssuer : findByIssuer registrations (askedIssuer P issuer) allow = some registration →
      (∃ k, (k, registration) ∈ registrations) ∧
        ∃ raw asked, issuer = some raw ∧ configIssuer P.parseUrl raw = some asked ∧
          registration.issuer = some asked := by
    intro hfound
    obtain ⟨hmem, hissuer, hnone⟩ := findByIssuer_some hfound
    exact ⟨hmem, hasked hissuer hnone⟩
  unfold findOauthClientRegistration at h
  simp only at h
  split at h
  · exact hbyIssuer h
  · split at h
    · rename_i byKey hget
      split at h
      · rename_i hpin
        cases h
        simp only [Bool.and_eq_true, beq_iff_eq] at hpin
        refine ⟨⟨_, OrderedMap.mem_of_get? hget⟩, hasked hpin.2 ?_⟩
        rw [← hpin.2]
        exact Option.isSome_iff_ne_none.mp hpin.1
      · cases h
    · exact hbyIssuer h

end

/-! ## Client identity -/

inductive ClientIdentityMode where
  | cimd
  | dcr
  | preregistered
  deriving DecidableEq

/-- What a catalog entry declares. -/
inductive ConnectorOauthClientIdentity where
  | dynamic
  | preregistered
  deriving DecidableEq

/-- The client columns, of a grant row and of a staged flow. -/
structure Client where
  clientIdentityMode : Option ClientIdentityMode
  clientId : Option JsString
  /-- `client_secret_encrypted` -/
  clientSecret : Option ClientSecret
  clientRegistrationIssuer : Option JsString
  deriving DecidableEq

def Client.blank : Client where
  clientIdentityMode := none
  clientId := none
  clientSecret := none
  clientRegistrationIssuer := none

structure ResolvedClientIdentity where
  clientId : JsString
  clientSecret : Option ClientSecret
  persisted : Bool
  mode : ClientIdentityMode

structure ClientIdentityContext where
  providerKey : Option JsString
  declaredIdentity : Option ConnectorOauthClientIdentity

structure ClientIdentityDeps where
  publicAppUrl : JsString
  /-- `isPublicHttpsUrl(publicAppUrl)` -/
  publicAppUrlIsPublic : Bool
  preregisteredClients : OauthClientRegistrations
  /-- the row's envelopes open with the master key of this process -/
  opensEnvelopes : Bool

/-- What came of the registration request. -/
inductive RegistrationReply where
  | registered (clientId : JsString) (clientSecret : Option JsString)
  | rejected (detail : JsString)

inductive IdentityError where
  | registrationFailed (detail : JsString)
  | secretUnavailable
  deriving DecidableEq

def clientMetadataUrl (publicAppUrl : JsString) : JsString :=
  publicAppUrl ++ ascii "/integrations/mcp-oauth/client-metadata.json"

def registerClient (discovery : OauthDiscovery) (reply : RegistrationReply) :
    Except IdentityError (JsString × Option ClientSecret) :=
  match discovery.registrationEndpoint with
  | none =>
    .error (.registrationFailed (ascii "the authorization server offers no registration endpoint and its client-id-metadata-document support is not usable from this deployment"))
  | some _ =>
    match reply with
    | .rejected detail => .error (.registrationFailed detail)
    | .registered clientId clientSecret =>
      .ok (clientId, clientSecret.map fun text => ⟨text, discovery.issuer⟩)

def decryptStoredClientSecret (row : Client) (opensEnvelopes : Bool) :
    Except IdentityError (Option ClientSecret) :=
  match row.clientSecret with
  | none => .ok none
  | some secret => if opensEnvelopes then .ok (some secret) else .error .secretUnavailable

/-- What `persistIdentity` hands to the row writer. -/
def persistIdentity (clientId : JsString) (clientSecret : Option ClientSecret)
    (mode : ClientIdentityMode) (issuer : JsString) : Client where
  clientIdentityMode := some mode
  clientId := some clientId
  clientSecret := clientSecret
  clientRegistrationIssuer := some issuer

section Resolve

variable (P : Platform)

def missingPreregisteredClientDetail (providerKey : Option JsString) : JsString :=
  let key := trim (providerKey.getD [])
  if key == [] then
    ascii "this connector needs an operator-supplied OAuth client (MCP_OAUTH_<PREFIX>_CLIENT_ID) and none is configured"
  else
    let envPrefix := replaceUnit (unit '-') (unit '_') (P.toUpperCase key)
    ascii "this authorization server does not accept dynamic client registration — set " ++
      oauthClientPrefix ++ envPrefix ++ ascii "_CLIENT_ID (and " ++
      oauthClientPrefix ++ envPrefix ++
      ascii "_CLIENT_SECRET if the authorization server issued one)"

/-- The row's client can be used again: it was registered at `issuer`. -/
def storedAt (row : Client) (issuer : JsString) : Bool :=
  match row.clientId, row.clientRegistrationIssuer with
  | some clientId, some recorded =>
    clientId != [] && recorded != [] && canonicalIssuer P.parseUrl recorded == issuer
  | _, _ => false

/-- The identity, and what was handed to the row writer, if anything was. -/
def resolveClientIdentity (deps : ClientIdentityDeps) (discovery : OauthDiscovery) (row : Client)
    (context : ClientIdentityContext) (reply : RegistrationReply) :
    Except IdentityError (ResolvedClientIdentity × Option Client) :=
  let issuer := canonicalIssuer P.parseUrl discovery.issuer
  match findOauthClientRegistration P deps.preregisteredClients context.providerKey (some issuer)
      (context.declaredIdentity != some .dynamic) with
  | some configured =>
    .ok (⟨configured.clientId, configured.clientSecret, true, .preregistered⟩,
      some (persistIdentity configured.clientId configured.clientSecret .preregistered issuer))
  | none =>
    if discovery.clientIdMetadataDocumentSupported == some true && deps.publicAppUrlIsPublic then
      .ok (⟨clientMetadataUrl deps.publicAppUrl, none, false, .cimd⟩, none)
    else if storedAt P row issuer then do
      let clientSecret ← decryptStoredClientSecret row deps.opensEnvelopes
      let mode := if row.clientIdentityMode == some .preregistered then .preregistered else .dcr
      .ok (⟨row.clientId.getD [], clientSecret, true, mode⟩, none)
    else if context.declaredIdentity == some .preregistered then
      .error (.registrationFailed (missingPreregisteredClientDetail P context.providerKey))
    else do
      let (clientId, clientSecret) ← registerClient discovery reply
      .ok (⟨clientId, clientSecret, true, .dcr⟩,
        some (persistIdentity clientId clientSecret .dcr issuer))

end Resolve

/-- The client half of the staged flow: what was handed over, nothing for a CIMD client, else what
is live. -/
def stagedClient (row : Client) (resolved : ResolvedClientIdentity × Option Client) : Client :=
  match resolved.2 with
  | some staged => staged
  | none =>
    match resolved.1.mode with
    | .cimd => { Client.blank with clientIdentityMode := some .cimd }
    | mode => {
        clientIdentityMode := some mode
        clientId := some resolved.1.clientId
        clientSecret := row.clientSecret
        clientRegistrationIssuer := row.clientRegistrationIssuer }

/-- The secret, if there is one, is of the issuer that is recorded beside it. -/
def Client.Keyed (P : Platform) (client : Client) : Prop :=
  ∀ secret, client.clientSecret = some secret → ∃ recorded,
    client.clientRegistrationIssuer = some recorded ∧
      canonicalIssuer P.parseUrl recorded = canonicalIssuer P.parseUrl secret.issuedFor

/-- The secret, if there is one, is of `issuer`, and so is what is recorded beside it. -/
def Client.KeyedAt (P : Platform) (client : Client) (issuer : JsString) : Prop :=
  ∀ secret, client.clientSecret = some secret →
    canonicalIssuer P.parseUrl secret.issuedFor = canonicalIssuer P.parseUrl issuer ∧
      ∃ recorded, client.clientRegistrationIssuer = some recorded ∧
        canonicalIssuer P.parseUrl recorded = canonicalIssuer P.parseUrl issuer

section

variable {P : Platform}

theorem Client.KeyedAt.keyed {client : Client} {issuer : JsString} (h : client.KeyedAt P issuer) :
    client.Keyed P := by
  intro secret hsecret
  obtain ⟨hfor, recorded, hrecorded, hcanon⟩ := h secret hsecret
  exact ⟨recorded, hrecorded, hcanon.trans hfor.symm⟩

/-- The four ways to an identity. -/
theorem resolveClientIdentity_cases {deps : ClientIdentityDeps} {discovery : OauthDiscovery}
    {row : Client} {context : ClientIdentityContext} {reply : RegistrationReply}
    {resolved : ResolvedClientIdentity × Option Client}
    (h : resolveClientIdentity P deps discovery row context reply = .ok resolved) :
    (∃ configured key allow,
      findOauthClientRegistration P deps.preregisteredClients key
          (some (canonicalIssuer P.parseUrl discovery.issuer)) allow = some configured ∧
        resolved.2 = some (persistIdentity configured.clientId configured.clientSecret
          .preregistered (canonicalIssuer P.parseUrl discovery.issuer))) ∨
    (resolved.1.mode = .cimd ∧ resolved.2 = none) ∨
    (storedAt P row (canonicalIssuer P.parseUrl discovery.issuer) = true ∧ resolved.2 = none) ∨
    (∃ clientId secret, resolved.2 = some (persistIdentity clientId
      (Option.map (fun text => ⟨text, discovery.issuer⟩) secret) .dcr
      (canonicalIssuer P.parseUrl discovery.issuer))) := by
  unfold resolveClientIdentity at h
  simp only at h
  split at h
  · rename_i configured hconfigured
    cases h
    exact Or.inl ⟨configured, _, _, hconfigured, rfl⟩
  · split at h
    · cases h
      exact Or.inr (Or.inl ⟨rfl, rfl⟩)
    · split at h
      · rename_i hstored
        obtain ⟨_, _, h⟩ := Checks.bind_eq_ok h
        cases h
        exact Or.inr (Or.inr (Or.inl ⟨hstored, rfl⟩))
      · split at h
        · cases h
        · obtain ⟨⟨clientId, secret⟩, hregister, h⟩ := Checks.bind_eq_ok h
          cases h
          unfold registerClient at hregister
          split at hregister
          · cases hregister
          · split at hregister
            · cases hregister
            · cases hregister
              exact Or.inr (Or.inr (Or.inr ⟨_, _, rfl⟩))

/-- Whatever client a start stages, its secret is of the issuer that was discovered. -/
theorem stagedClient_issuedFor (laws : LawfulUrls P.parseUrl) {deps : ClientIdentityDeps}
    {env : List (JsString × Option JsString)}
    (hload : loadOauthClientRegistrations P env = .ok deps.preregisteredClients)
    {discovery : OauthDiscovery} {url : Url} (hurl : P.parseUrl discovery.issuer = some url)
    (hhttp : url.isHttp = true) {row : Client} (hrow : row.Keyed P)
    {context : ClientIdentityContext} {reply : RegistrationReply}
    {resolved : ResolvedClientIdentity × Option Client}
    (h : resolveClientIdentity P deps discovery row context reply = .ok resolved) :
    (stagedClient row resolved).KeyedAt P discovery.issuer := by
  have hidem := canonicalIssuer_idem laws hurl hhttp
  intro secret hsecret
  rcases resolveClientIdentity_cases h with ⟨configured, key, allow, hfind, hstaged⟩ |
    ⟨hmode, hstaged⟩ | ⟨hstored, hstaged⟩ | ⟨clientId, text, hstaged⟩
  · rw [stagedClient, hstaged] at hsecret ⊢
    obtain ⟨⟨k, hmem⟩, raw, asked, hraw, hconf, hissuer⟩ := findOauthClientRegistration_some hfind
    cases hraw
    have hpin := loadOauthClientRegistrations_pinned hload _ hmem secret hsecret
    have hasked : canonicalIssuer P.parseUrl secret.issuedFor = asked :=
      Option.some.inj (hpin.symm.trans hissuer)
    refine ⟨?_, _, rfl, hidem⟩
    rw [hasked, ← configIssuer_eq hconf, hidem]
  · rw [stagedClient, hstaged, hmode] at hsecret
    cases hsecret
  · rw [stagedClient, hstaged] at hsecret ⊢
    cases hmode : resolved.1.mode with
    | cimd =>
      rw [hmode] at hsecret
      cases hsecret
    | dcr | preregistered =>
      rw [hmode] at hsecret
      obtain ⟨recorded, hrecorded, hcanon⟩ := hrow secret hsecret
      have hat : canonicalIssuer P.parseUrl recorded =
          canonicalIssuer P.parseUrl discovery.issuer := by
        unfold storedAt at hstored
        rw [hrecorded] at hstored
        split at hstored
        · rename_i heq
          cases heq
          simp only [Bool.and_eq_true, beq_iff_eq] at hstored
          exact hstored.2
        · cases hstored
      exact ⟨hcanon.symm.trans hat, recorded, hrecorded, hat⟩
  · rw [stagedClient, hstaged] at hsecret ⊢
    obtain ⟨_, _, rfl⟩ := Option.map_eq_some_iff.mp hsecret
    exact ⟨rfl, _, rfl, hidem⟩

end

end InvisibleString.Oauth
