import InvisibleString.Lib.Text

/- # `Oauth.Discovery` — which authorization server a consent goes to

`discoverOauth` asks the MCP server for its protected-resource metadata, takes the first
authorization server named there, and looks for that server's own metadata at its well-known
places.  A document that describes another issuer is passed over.

What the network answers is a parameter (`Answers`), and so is `new URL` (`parse`).

**Proved here.**

    the canonical form of an issuer is its own canonical form  (`canonicalIssuer_idem`)
    the loader's canonical form is the broker's  (`configIssuer_eq`)
    what discovery returns is said by one document, which names itself the issuer asked for and
      was found at a well-known place of that issuer  (`discoverOauth_document`)
-/

namespace InvisibleString.Oauth

open Json (JsString ascii unit trim)

/-! ## URLs -/

/-- What `new URL` finds in a text. -/
structure Url where
  protocol : JsString
  username : JsString
  password : JsString
  hostname : JsString
  origin : JsString
  pathname : JsString
  search : JsString
  hash : JsString
  deriving DecidableEq

def Url.isHttp (url : Url) : Bool :=
  url.protocol == ascii "http:" || url.protocol == ascii "https:"

variable (parse : JsString → Option Url)

/-- `withoutTrailingSlash`, and `.replace(/\/+$/, "")` in `canonicalIssuer`. -/
def withoutTrailingSlash (s : JsString) : JsString :=
  (s.reverse.dropWhile (· == unit '/')).reverse

def trimSlashes (s : JsString) : JsString := withoutTrailingSlash (s.dropWhile (· == unit '/'))

/-- `${origin}${pathname}` without trailing slashes. -/
def Url.canonical (url : Url) : JsString := withoutTrailingSlash (url.origin ++ url.pathname)

/-- Issuers are compared as strings, in this form.  The broker and the client identity have it
twice, word for word. -/
def canonicalIssuer (raw : JsString) : JsString :=
  match parse (trim raw) with
  | none => trim raw
  | some url => url.canonical

/-- `parseHttpUrl` of the configuration. -/
def parseHttpUrl (raw : JsString) : Option Url :=
  match parse (trim raw) with
  | none => none
  | some url =>
    if !url.isHttp then none
    else if url.origin == ascii "null" || url.hostname == [] then none
    else some url

/-- `canonicalIssuer` of the configuration: only http(s) URLs have one. -/
def configIssuer (raw : JsString) : Option JsString := (parseHttpUrl parse raw).map Url.canonical

/-- What is relied on of `new URL`. -/
structure LawfulUrls : Prop where
  /-- an http(s) URL still is one without the white space around it -/
  reads_trimmed : ∀ raw url, parse raw = some url → url.isHttp = true →
    ∃ trimmed, parse (trim raw) = some trimmed ∧ trimmed.isHttp = true
  /-- an http(s) URL written as origin and path, without trailing slashes, is read as a URL of
  the same origin and the same path up to such slashes -/
  reads_canonical : ∀ raw url, parse raw = some url → url.isHttp = true →
    ∃ again, parse (trim url.canonical) = some again ∧ again.canonical = url.canonical

variable {parse}

theorem parseHttpUrl_eq {raw : JsString} {url : Url} (h : parseHttpUrl parse raw = some url) :
    parse (trim raw) = some url ∧ url.isHttp = true := by
  unfold parseHttpUrl at h
  cases hp : parse (trim raw) with
  | none =>
    rw [hp] at h
    cases h
  | some found =>
    rw [hp] at h
    cases hh : found.isHttp with
    | false =>
      simp [hh] at h
    | true =>
      simp only [hh, Bool.not_true, Bool.false_eq_true, if_false] at h
      split at h
      · cases h
      · cases h
        exact ⟨rfl, hh⟩

/-- Where the loader finds an issuer, it is the broker's canonical form. -/
theorem configIssuer_eq {raw issuer : JsString} (h : configIssuer parse raw = some issuer) :
    canonicalIssuer parse raw = issuer := by
  unfold configIssuer at h
  obtain ⟨url, hurl, rfl⟩ := Option.map_eq_some_iff.mp h
  show (match parse (trim raw) with
    | none => trim raw
    | some url => url.canonical) = _
  rw [(parseHttpUrl_eq hurl).1]

theorem canonicalIssuer_idem (laws : LawfulUrls parse) {raw : JsString} {url : Url}
    (hp : parse raw = some url) (hh : url.isHttp = true) :
    canonicalIssuer parse (canonicalIssuer parse raw) = canonicalIssuer parse raw := by
  obtain ⟨trimmed, htrimmed, hhttp⟩ := laws.reads_trimmed raw url hp hh
  have hraw : canonicalIssuer parse raw = trimmed.canonical := by
    simp only [canonicalIssuer, htrimmed]
  obtain ⟨again, hagain, hsame⟩ := laws.reads_canonical _ trimmed htrimmed hhttp
  rw [hraw]
  simp only [canonicalIssuer, hagain]
  exact hsame

/-! ## What servers answer -/

/-- Protected-resource metadata, as the schema reads it. -/
structure PrmDocument where
  resource : JsString
  authorizationServers : Option (List JsString)
  scopesSupported : Option (List JsString)

/-- Authorization-server metadata, as the schema reads it. -/
structure AsMetadata where
  issuer : JsString
  authorizationEndpoint : JsString
  tokenEndpoint : JsString
  registrationEndpoint : Option JsString
  revocationEndpoint : Option JsString
  scopesSupported : Option (List JsString)
  codeChallengeMethodsSupported : Option (List JsString)
  clientIdMetadataDocumentSupported : Option Bool
  authorizationResponseIssParameterSupported : Option Bool
  deriving DecidableEq

/-- `MetadataFetchResult`; a document that does not fit the schema is `hit none`. -/
inductive MetadataFetchResult (D : Type) where
  | miss
  | hit (doc : Option D)
  | unreadable
  /-- the egress guard refused -/
  | blocked

/-- `OauthDiscoveryError.reason`. -/
inductive DiscoveryReason where
  | invalidUrl
  | insecureEndpoint
  | egressBlocked
  | noOauthMetadata
  | prmInvalid
  | resourceMismatch
  | asMetadataUnavailable
  | asMetadataInvalid
  | issuerMismatch
  | pkceUnsupported
  deriving DecidableEq

/-- What the 401's challenge says. -/
structure BearerChallenge where
  /-- an absolute URL that passed `checkServerUrl` -/
  resourceMetadata : Option JsString
  scope : Option (List JsString)

/-- Whatever the network answers to one discovery. -/
structure Answers where
  challenge : Except DiscoveryReason BearerChallenge
  resourceAt : JsString → MetadataFetchResult PrmDocument
  serverAt : JsString → MetadataFetchResult AsMetadata

/-! ## Checks -/

variable (parse)

/-- Server-supplied URLs are http(s), plain http only where the MCP URL is, and carry neither
credentials nor a fragment. -/
def checkServerUrl (raw : JsString) (allowInsecureHttp : Bool) : Option Url :=
  match parse raw with
  | none => none
  | some url =>
    if !url.isHttp then none
    else if url.protocol == ascii "http:" && !allowInsecureHttp then none
    else if url.username != [] || url.password != [] then none
    else if url.hash != [] then none
    else some url

def sameIssuer (claimed requested : JsString) (allowInsecureHttp : Bool) : Bool :=
  match checkServerUrl parse claimed allowInsecureHttp,
    checkServerUrl parse requested allowInsecureHttp with
  | some a, some b =>
    if a.search != [] || b.search != [] then false
    else a.origin == b.origin &&
      withoutTrailingSlash a.pathname == withoutTrailingSlash b.pathname
  | _, _ => false

/-- All of the four endpoints that are there can be used. -/
def requireEndpoints (metadata : AsMetadata) (allowInsecureHttp : Bool) : Bool :=
  [some metadata.authorizationEndpoint, some metadata.tokenEndpoint,
    metadata.registrationEndpoint, metadata.revocationEndpoint].all fun endpoint =>
      match endpoint with
      | none => true
      | some value => (checkServerUrl parse value allowInsecureHttp).isSome

/-- Does this `resource` identify the URL that was asked about? -/
def resourceProblemFor (resource : JsString) (requested : Url) (allowInsecureHttp : Bool) :
    Option DiscoveryReason :=
  match checkServerUrl parse resource allowInsecureHttp with
  | none => some .insecureEndpoint
  | some url =>
    let resourcePath := withoutTrailingSlash url.pathname
    let requestedPath := withoutTrailingSlash requested.pathname
    if url.origin != requested.origin then some .resourceMismatch
    else if !(requestedPath == resourcePath ||
        (resourcePath ++ ascii "/").isPrefixOf requestedPath) then some .resourceMismatch
    else if url.search != [] && url.search != requested.search then some .resourceMismatch
    else none

theorem checkServerUrl_eq {raw : JsString} {allow : Bool} {url : Url}
    (h : checkServerUrl parse raw allow = some url) :
    parse raw = some url ∧ url.isHttp = true := by
  unfold checkServerUrl at h
  cases hp : parse raw with
  | none =>
    rw [hp] at h
    cases h
  | some found =>
    rw [hp] at h
    cases hh : found.isHttp with
    | false =>
      simp [hh] at h
    | true =>
      simp only [hh, Bool.not_true, Bool.false_eq_true, if_false] at h
      split at h
      · cases h
      · split at h
        · cases h
        · split at h
          · cases h
          · cases h
            exact ⟨rfl, hh⟩

/-! ## Discovery -/

/-- The candidates are tried in order; the last rejection is what a failure reports. -/
def tryResources (answers : Answers) (requested : Url) (allowInsecureHttp : Bool) :
    List JsString → DiscoveryReason → Except DiscoveryReason (PrmDocument × JsString)
  | [], rejection => .error rejection
  | candidate :: rest, rejection =>
    match answers.resourceAt candidate with
    | .blocked => .error .egressBlocked
    | .miss | .unreadable => tryResources answers requested allowInsecureHttp rest rejection
    | .hit none => tryResources answers requested allowInsecureHttp rest .prmInvalid
    | .hit (some prm) =>
      match prm.authorizationServers with
      | none | some [] => tryResources answers requested allowInsecureHttp rest .prmInvalid
      | some (server :: _) =>
        match resourceProblemFor parse prm.resource requested allowInsecureHttp with
        | some problem => tryResources answers requested allowInsecureHttp rest problem
        | none =>
          if (checkServerUrl parse server allowInsecureHttp).isSome then .ok (prm, server)
          else tryResources answers requested allowInsecureHttp rest .insecureEndpoint

/-- The document, and the first authorization server it names. -/
def discoverProtectedResource (answers : Answers) (resourceUrl : Url) (pointer : Option JsString)
    (allowInsecureHttp : Bool) : Except DiscoveryReason (PrmDocument × JsString) :=
  let wellKnown := resourceUrl.origin ++ ascii "/.well-known/oauth-protected-resource"
  let resourcePath := trimSlashes resourceUrl.pathname
  let candidates := pointer.toList ++
    (if resourcePath == [] then [] else [wellKnown ++ ascii "/" ++ resourcePath]) ++ [wellKnown]
  tryResources parse answers resourceUrl allowInsecureHttp candidates.eraseDups .noOauthMetadata

/-- The well-known places of an issuer, path-inserted first. -/
def wellKnownVariants (issuerUrl : Url) : List JsString :=
  let issuerPath := trimSlashes issuerUrl.pathname
  let root := [issuerUrl.origin ++ ascii "/.well-known/oauth-authorization-server",
    issuerUrl.origin ++ ascii "/.well-known/openid-configuration"]
  if issuerPath != [] then
    [issuerUrl.origin ++ ascii "/.well-known/oauth-authorization-server/" ++ issuerPath,
      issuerUrl.origin ++ ascii "/" ++ issuerPath ++ ascii "/.well-known/openid-configuration"] ++
      root
  else root

/-- The first document that is the requested issuer's.  A document of another issuer is a miss. -/
def tryVariants (answers : Answers) (issuer : JsString) (allowInsecureHttp : Bool) :
    List JsString → (mismatched : Bool) → Except DiscoveryReason (AsMetadata × JsString)
  | [], mismatched => .error (if mismatched then .issuerMismatch else .asMetadataUnavailable)
  | variant :: rest, mismatched =>
    match answers.serverAt variant with
    | .blocked => .error .egressBlocked
    | .miss => tryVariants answers issuer allowInsecureHttp rest mismatched
    | .unreadable | .hit none => .error .asMetadataInvalid
    | .hit (some metadata) =>
      if !sameIssuer parse metadata.issuer issuer allowInsecureHttp then
        tryVariants answers issuer allowInsecureHttp rest true
      else if requireEndpoints parse metadata allowInsecureHttp then .ok (metadata, variant)
      else .error .insecureEndpoint

def discoverAsMetadata (answers : Answers) (issuer : JsString) (allowInsecureHttp : Bool) :
    Except DiscoveryReason (AsMetadata × JsString) :=
  match parse issuer with
  | none => .error .invalidUrl
  | some issuerUrl =>
    tryVariants parse answers issuer allowInsecureHttp (wellKnownVariants issuerUrl).eraseDups false

/-- Challenge, then the resource's own list, then nothing; `offline_access` is added to a list
that is there. -/
def resolveScopes (challengeScope prmScopes asAdvertised : Option (List JsString)) :
    Option (List JsString) :=
  let offered (scopes : Option (List JsString)) := scopes.filter (· != [])
  match (offered challengeScope).or (offered prmScopes) with
  | none => none
  | some chosen =>
    if (asAdvertised.getD []).contains (ascii "offline_access") &&
        !chosen.contains (ascii "offline_access") then
      some (chosen ++ [ascii "offline_access"])
    else some chosen

/-- A metadata document and where it was found. -/
structure FoundDocument where
  metadata : AsMetadata
  foundAt : JsString
  deriving DecidableEq

structure OauthDiscovery where
  resource : JsString
  authorizationServer : JsString
  issuer : JsString
  authorizationEndpoint : JsString
  tokenEndpoint : JsString
  registrationEndpoint : Option JsString
  revocationEndpoint : Option JsString
  scopesSupported : Option (List JsString)
  clientIdMetadataDocumentSupported : Option Bool
  issParameterSupported : Option Bool
  /-- the document all this was read from; nobody looks at it -/
  document : FoundDocument
  deriving DecidableEq

def discoverOauth (answers : Answers) (mcpUrl : JsString) :
    Except DiscoveryReason OauthDiscovery :=
  match parse mcpUrl with
  | none => .error .invalidUrl
  | some resourceUrl => do
    let allowInsecureHttp := resourceUrl.protocol == ascii "http:"
    let challenge ← answers.challenge
    let (prm, authorizationServer) ← discoverProtectedResource parse answers resourceUrl
      challenge.resourceMetadata allowInsecureHttp
    let (metadata, variant) ← discoverAsMetadata parse answers authorizationServer
      allowInsecureHttp
    if !(metadata.codeChallengeMethodsSupported.getD []).contains (ascii "S256") then
      .error .pkceUnsupported
    else
      .ok {
        resource := prm.resource
        authorizationServer
        issuer := metadata.issuer
        authorizationEndpoint := metadata.authorizationEndpoint
        tokenEndpoint := metadata.tokenEndpoint
        registrationEndpoint := metadata.registrationEndpoint
        revocationEndpoint := metadata.revocationEndpoint
        scopesSupported := resolveScopes challenge.scope prm.scopesSupported
          metadata.scopesSupported
        clientIdMetadataDocumentSupported := metadata.clientIdMetadataDocumentSupported
        issParameterSupported := metadata.authorizationResponseIssParameterSupported
        document := ⟨metadata, variant⟩ }

variable {parse}

theorem tryVariants_ok {answers : Answers} {issuer : JsString} {allow : Bool} {found : FoundDocument}
    {variants : List JsString} : ∀ {mismatched : Bool},
    tryVariants parse answers issuer allow variants mismatched =
      .ok (found.metadata, found.foundAt) →
    answers.serverAt found.foundAt = .hit (some found.metadata) ∧ found.foundAt ∈ variants ∧
      sameIssuer parse found.metadata.issuer issuer allow = true := by
  induction variants with
  | nil =>
    intro mismatched h
    cases h
  | cons variant rest ih =>
    intro mismatched h
    have later : ∀ {b : Bool}, tryVariants parse answers issuer allow rest b =
        .ok (found.metadata, found.foundAt) →
        answers.serverAt found.foundAt = .hit (some found.metadata) ∧
          found.foundAt ∈ variant :: rest ∧
          sameIssuer parse found.metadata.issuer issuer allow = true := by
      intro b hb
      obtain ⟨hhit, hmem, hsame⟩ := ih hb
      exact ⟨hhit, List.mem_cons_of_mem _ hmem, hsame⟩
    rw [tryVariants] at h
    split at h
    case h_1 => cases h
    case h_2 => exact later h
    case h_3 => cases h
    case h_4 => cases h
    case h_5 metadata hhit =>
      split at h
      · exact later h
      · rename_i hsame
        split at h
        · have heq := Except.ok.inj h
          obtain ⟨rfl, rfl⟩ := Prod.mk.inj heq
          exact ⟨hhit, List.mem_cons_self, by simpa using hsame⟩
        · cases h

/-- The document is the one of `issuer`: it was found at a well-known place of an issuer that it
names as its own. -/
def FoundDocument.DescribesItself (parse : JsString → Option Url) (found : FoundDocument) : Prop :=
  ∃ requested requestedUrl allow, parse requested = some requestedUrl ∧
    found.foundAt ∈ wellKnownVariants requestedUrl ∧
    sameIssuer parse found.metadata.issuer requested allow = true

/-- What discovery returns is what one document of the issuer says. -/
theorem discoverOauth_document {answers : Answers} {mcpUrl : JsString} {discovery : OauthDiscovery}
    (h : discoverOauth parse answers mcpUrl = .ok discovery) :
    discovery.document.DescribesItself parse ∧
      answers.serverAt discovery.document.foundAt = .hit (some discovery.document.metadata) ∧
      discovery.issuer = discovery.document.metadata.issuer ∧
      discovery.tokenEndpoint = discovery.document.metadata.tokenEndpoint ∧
      discovery.revocationEndpoint = discovery.document.metadata.revocationEndpoint := by
  unfold discoverOauth at h
  cases hparse : parse mcpUrl with
  | none =>
    rw [hparse] at h
    cases h
  | some resourceUrl =>
    simp only [hparse] at h
    cases hchallenge : answers.challenge with
    | error reason =>
      rw [hchallenge] at h
      cases h
    | ok challenge =>
      rw [hchallenge] at h
      simp only [bind, Except.bind] at h
      split at h
      · cases h
      · rename_i resource _
        obtain ⟨prm, server⟩ := resource
        simp only at h
        split at h
        · cases h
        · rename_i found hfound
          obtain ⟨metadata, variant⟩ := found
          simp only at h
          split at h
          · cases h
          · cases h
            unfold discoverAsMetadata at hfound
            cases hissuer : parse server with
            | none =>
              rw [hissuer] at hfound
              cases hfound
            | some issuerUrl =>
              simp only [hissuer] at hfound
              obtain ⟨hhit, hmem, hsame⟩ :=
                @tryVariants_ok parse _ _ _ ⟨metadata, variant⟩ _ _ hfound
              exact ⟨⟨server, issuerUrl, _, hissuer, List.mem_eraseDups.mp hmem, hsame⟩, hhit, rfl,
                rfl, rfl⟩

theorem discoverOauth_issuer {answers : Answers} {mcpUrl : JsString} {discovery : OauthDiscovery}
    (h : discoverOauth parse answers mcpUrl = .ok discovery) :
    ∃ url, parse discovery.issuer = some url ∧ url.isHttp = true := by
  obtain ⟨⟨requested, _, allow, _, _, hsame⟩, _, hissuer, _, _⟩ := discoverOauth_document h
  rw [← hissuer] at hsame
  unfold sameIssuer at hsame
  cases hc : checkServerUrl parse discovery.issuer allow with
  | none =>
    rw [hc] at hsame
    simp at hsame
  | some url => exact ⟨url, checkServerUrl_eq parse hc⟩

end InvisibleString.Oauth
