import InvisibleString.Lib.Json
import InvisibleString.Runtime.Scheduler
import Mathlib.Logic.Equiv.List

/- # `Runtime.Workers` — the worker registry's endpoints

A worker registers, sends heartbeats and deregisters.  Every call is checked against the
bootstrap secret or against a session token: the token is checked for the worker id of a
header, the row that is written is that of the id in the body.

**Proved here.**

    a token is good for the worker it was minted for, and no other  (`verify_mint`)
    what each route does to the row the body names  (`handle_register`, …)
    a token of a worker leaves the rows of the others alone exactly when the body names the
      worker, or there is nothing to write  (`confined_iff`)
-/

namespace InvisibleString.Runtime

open Json

/-! ## Session tokens -/

structure WorkerTokenClaims where
  iss : JsString
  sub : JsString
  aud : JsString
  iat : Option Nat
  nbf : Option Nat
  exp : Nat
  jti : Option JsString

def dot : CodeUnit := unit '.'

/-- The primitives of signed tokens, and how claims are written and read. -/
structure TokenFormat where
  /-- `createHmac("sha256", key).update(data).digest("hex")` -/
  hmacHex : JsString → JsString → JsString
  /-- `signHs256(signingInput, secret)` -/
  signHs256 : JsString → JsString → JsString
  /-- `encodeSegment` of the claims -/
  encodeClaims : WorkerTokenClaims → JsString
  /-- a segment decoded, parsed and checked against the schema of claims -/
  decodeClaims : JsString → Option WorkerTokenClaims
  decode_encode : ∀ claims, decodeClaims (encodeClaims claims) = some claims
  /-- base64url has no dot -/
  claims_dotless : ∀ claims, dot ∉ encodeClaims claims
  sign_dotless : ∀ input secret, dot ∉ signHs256 input secret

def WORKER_TOKEN_ISSUER : JsString := ascii "invisible-string-control-plane"

def controlPlaneAudience : JsString := ascii "control-plane"

def WORKER_SESSION_TOKEN_TTL_SECONDS : Nat := 120

def WORKER_TOKEN_CLOCK_SKEW_SECONDS : Nat := 30

/-- `encodeSegment({ alg: "HS256", typ: "JWT" })`. -/
def tokenHeader : JsString := ascii "eyJhbGciOiJIUzI1NiIsInR5cCI6IkpXVCJ9"

variable (T : TokenFormat)

/-- `derivePerWorkerSecret(bootstrapSecret, workerId, "session")`. -/
def sessionSecret (bootstrapSecret workerId : JsString) : JsString :=
  T.hmacHex bootstrapSecret (ascii "worker-session:" ++ workerId)

structure MintedToken where
  token : JsString
  /-- unix seconds -/
  expiresAt : Nat

def mint (secret : JsString) (claims : WorkerTokenClaims) : MintedToken :=
  let signingInput := tokenHeader ++ dot :: T.encodeClaims claims
  ⟨signingInput ++ dot :: T.signHs256 signingInput secret, claims.exp⟩

def mintWorkerSessionToken (bootstrapSecret workerId : JsString) (nowMs : Nat) (jti : JsString) :
    MintedToken :=
  mint T (sessionSecret T bootstrapSecret workerId)
    { iss := WORKER_TOKEN_ISSUER
      sub := workerId
      aud := controlPlaneAudience
      iat := some (nowMs / 1000)
      nbf := none
      exp := nowMs / 1000 + WORKER_SESSION_TOKEN_TTL_SECONDS
      jti := some jti }

inductive TokenProblem where
  | segments
  | signature
  | payload
  | issuer
  | audience
  | expired
  | notYetValid
  | issuedInTheFuture
  | subject

def verifyWorkerTokenClaims (claims : WorkerTokenClaims) (expectedAudience : JsString)
    (nowMs : Nat) : Except TokenProblem WorkerTokenClaims :=
  let nowSeconds := nowMs / 1000
  let skew := WORKER_TOKEN_CLOCK_SKEW_SECONDS
  if claims.iss ≠ WORKER_TOKEN_ISSUER then .error .issuer
  else if claims.aud ≠ expectedAudience then .error .audience
  else if claims.exp + skew < nowSeconds then .error .expired
  else if claims.nbf.any fun nbf => nowSeconds + skew < nbf then .error .notYetValid
  else if claims.iat.any fun iat => nowSeconds + skew < iat then .error .issuedInTheFuture
  else .ok claims

def verify (secret token expectedAudience : JsString) (nowMs : Nat) :
    Except TokenProblem WorkerTokenClaims :=
  match token.splitOn dot with
  | [header, payload, signature] =>
    if signature ≠ T.signHs256 (header ++ dot :: payload) secret then .error .signature
    else
      match T.decodeClaims payload with
      | none => .error .payload
      | some claims => verifyWorkerTokenClaims claims expectedAudience nowMs
  | _ => .error .segments

def verifyWorkerSessionToken (bootstrapSecret workerId token : JsString) (nowMs : Nat) :
    Except TokenProblem WorkerTokenClaims :=
  match verify T (sessionSecret T bootstrapSecret workerId) token controlPlaneAudience nowMs with
  | .error problem => .error problem
  | .ok claims => if claims.sub ≠ workerId then .error .subject else .ok claims

/-! ## Requests -/

structure WorkerRow (N : Type) where
  address : JsString
  status : WorkerStatus
  lastHeartbeatAt : Nat
  capacity : List (JsString × Value N)
  updatedAt : Nat

/-- The rows by their id. -/
abbrev Registry (N : Type) := List (JsString × WorkerRow N)

inductive WorkerIdentityDeclaration where
  | sharedSecret
  | workerToken
  | mtls (certFingerprint : JsString)
  deriving DecidableEq

structure WorkerBody (N : Type) where
  id : JsString
  url : Option JsString
  capacity : Option (List (JsString × Value N))
  identity : WorkerIdentityDeclaration
  draining : Bool

structure WorkerRequest (N : Type) where
  /-- `x-worker-secret` -/
  secret : Option JsString
  /-- `x-worker-token` -/
  token : Option JsString
  /-- `x-worker-id` -/
  workerId : Option JsString
  body : Value N

inductive WorkerRoute where
  | register
  | heartbeat
  | deregister
  deriving DecidableEq

structure RegistryConfig (N : Type) where
  workerSharedSecret : JsString
  allowInsecureWorkerTransport : Bool
  heartbeatIntervalMs : Nat
  /-- absent: every id is allowed -/
  allowedWorkerIds : Option (List JsString)
  sha256 : JsString → JsString
  /-- `new URL(text).protocol` -/
  urlProtocol : JsString → Option JsString
  /-- a value in the place of a string -/
  coerce : Value N → JsString

def isHex (c : CodeUnit) : Bool :=
  (unit '0' ≤ c && c ≤ unit '9') || (unit 'a' ≤ c && c ≤ unit 'f') || (unit 'A' ≤ c && c ≤ unit 'F')

/-- `UUID_RE`. -/
def isUuid (s : JsString) : Bool :=
  s.length = 36 && s.zipIdx.all fun e =>
    if e.2 ∈ [8, 13, 18, 23] then e.1 = unit '-' else isHex e.1

def lowerUnit (c : CodeUnit) : CodeUnit :=
  if unit 'A' ≤ c && c ≤ unit 'Z' then c + 32 else c

/-- The key of a row: a uuid, whatever the case it is written in. -/
def uuidKey (id : JsString) : JsString := id.map lowerUnit

variable {N : Type}

def member (name : String) (members : List (JsString × Value N)) : Option (Value N) :=
  OrderedMap.get? (ascii name) members

def readIdentity : Option (Value N) → Option WorkerIdentityDeclaration
  | none | some .null => some .sharedSecret
  | some (.obj members) =>
    match member "mode" members with
    | some (.str mode) =>
      if mode = ascii "shared-secret" then some .sharedSecret
      else if mode = ascii "worker-token" then some .workerToken
      else if mode = ascii "mtls" then
        match member "certFingerprint" members with
        | some (.str print) =>
          if print.length = 64 && print.all fun c => isHex c && lowerUnit c = c then
            some (.mtls print)
          else none
        | _ => none
      else none
    | _ => none
  | some _ => none

def isHttp (protocol : JsString) : Bool := protocol = ascii "http:" || protocol = ascii "https:"

/-- `new URL` reads a value that is no string as its text. -/
def urlText (config : RegistryConfig N) : Value N → JsString
  | .str url => url
  | value => config.coerce value

def readUrl (config : RegistryConfig N) (requireUrl : Bool) (url : Option (Value N)) :
    Option (Option JsString) :=
  if requireUrl then
    match url with
    | some (.str url) => if (config.urlProtocol url).any isHttp then some (some url) else none
    | _ => none
  else some (url.map (urlText config))

def readCapacity : Option (Value N) → Option (List (JsString × Value N))
  | some (.obj capacity) => some capacity
  | _ => none

/-- `value === true`. -/
def readFlag : Option (Value N) → Bool
  | some (.bool flag) => flag
  | _ => false

def parseWorkerBody (config : RegistryConfig N) (raw : Value N) (requireUrl : Bool) :
    Option (WorkerBody N) :=
  match raw with
  | .obj members =>
    match member "id" members with
    | some (.str id) =>
      if isUuid id then do
        let url ← readUrl config requireUrl (member "url" members)
        let identity ← readIdentity (member "identity" members)
        return {
          id := id
          url := url
          capacity := readCapacity (member "capacity" members)
          identity := identity
          draining := readFlag (member "draining" members) }
      else none
    | _ => none
  | _ => none

/-- Why a worker's url is refused. -/
def urlProblemFor (config : RegistryConfig N) (body : WorkerBody N) : Option String :=
  match body.url with
  | none => none
  | some url =>
    match config.urlProtocol url with
    | none => some "worker url must be an http(s) URL"
    | some protocol =>
      if protocol = ascii "https:" then none
      else if protocol = ascii "http:" then
        if config.allowInsecureWorkerTransport then none
        else some "worker url must be https:// (secret-bearing dispatches; set ALLOW_INSECURE_WORKER_TRANSPORT=1 for local dev only)"
      else some "worker url must be an http(s) URL"

def secretsEqual (config : RegistryConfig N) (a b : JsString) : Bool := config.sha256 a = config.sha256 b

/-- The request carries the bootstrap secret. -/
def usedBootstrapSecret (config : RegistryConfig N) (request : WorkerRequest N) : Bool :=
  request.secret.any fun secret => secretsEqual config secret config.workerSharedSecret

/-- The worker id whose session token the request carries. -/
def usedSessionToken (config : RegistryConfig N) (request : WorkerRequest N) (nowMs : Nat) :
    Option JsString :=
  match request.token, request.workerId with
  | some token, some workerId =>
    if isUuid workerId then
      match verifyWorkerSessionToken T config.workerSharedSecret workerId token nowMs with
      | .ok _ => some workerId
      | .error _ => none
    else none
  | _, _ => none

def isAuthorized (config : RegistryConfig N) (request : WorkerRequest N) (nowMs : Nat) : Bool :=
  usedBootstrapSecret config request || (usedSessionToken T config request nowMs).isSome

def isAllowed (config : RegistryConfig N) (id : JsString) : Bool :=
  match config.allowedWorkerIds with
  | none | some [] => true
  | some ids => uuidKey id ∈ ids.map uuidKey

/-! ## The handlers -/

inductive WorkerReply where
  | error (status : Nat) (code message : String)
  | registered (workerId : JsString) (authMode : WorkerIdentityDeclaration)
      (token : Option MintedToken) (heartbeatIntervalMs : Nat)
  | ok (token : Option MintedToken)

def WorkerReply.status : WorkerReply → Nat
  | .error status _ _ => status
  | _ => 200

/-- The row a register leaves, new or not. -/
def registeredRow (body : WorkerBody N) (url : JsString) (nowMs : Nat) : WorkerRow N where
  address := url
  status := .live
  lastHeartbeatAt := nowMs
  capacity := body.capacity.getD []
  updatedAt := nowMs

/-- A row after a heartbeat; a heartbeat cannot un-drain a worker. -/
def beatenRow (body : WorkerBody N) (nowMs : Nat) (row : WorkerRow N) : WorkerRow N where
  address := (body.url.filter fun url => url ≠ []).getD row.address
  status := if body.draining then .draining else row.status
  lastHeartbeatAt := nowMs
  capacity := body.capacity.getD row.capacity
  updatedAt := nowMs

def deadRow (nowMs : Nat) (row : WorkerRow N) : WorkerRow N :=
  { row with status := .dead, updatedAt := nowMs }

def register (config : RegistryConfig N) (request : WorkerRequest N) (nowMs : Nat) (jti : JsString)
    (registry : Registry N) : Registry N × WorkerReply :=
  match parseWorkerBody config request.body true with
  | none => (registry, .error 400 "invalid_request"
      "expected {id: uuid, url: http(s) URL, capacity?, identity?}")
  | some body =>
    if !isAllowed config body.id then
      (registry, .error 403 "worker_not_allowed"
        "worker id is not on this control plane's allowlist (WORKER_ALLOWED_IDS)")
    else
      match urlProblemFor config body with
      | some problem => (registry, .error 400 "insecure_worker_url" problem)
      | none =>
        (OrderedMap.set (uuidKey body.id) (registeredRow body (body.url.getD []) nowMs) registry,
          .registered body.id body.identity
            (if body.identity = .workerToken then
              some (mintWorkerSessionToken T config.workerSharedSecret body.id nowMs jti)
            else none) config.heartbeatIntervalMs)

def heartbeat (config : RegistryConfig N) (request : WorkerRequest N) (nowMs : Nat)
    (jti : JsString) (registry : Registry N) : Registry N × WorkerReply :=
  match parseWorkerBody config request.body false with
  | none => (registry, .error 400 "invalid_request" "expected {id: uuid, capacity?}")
  | some body =>
    match urlProblemFor config body with
    | some problem => (registry, .error 400 "insecure_worker_url" problem)
    | none =>
      match OrderedMap.get? (uuidKey body.id) registry with
      -- the worker registers again on its next tick
      | none => (registry, .error 404 "worker_not_registered" "unknown worker id — re-register")
      | some row =>
        -- the sweeper may have failed that worker over already
        if row.status = .dead then
          (registry, .error 404 "worker_fenced"
            "worker was marked dead — stop local agents and re-register")
        else
          (OrderedMap.set (uuidKey body.id) (beatenRow body nowMs row) registry,
            .ok (if usedSessionToken T config request nowMs = some body.id then
              some (mintWorkerSessionToken T config.workerSharedSecret body.id nowMs jti)
            else none))

def deregister (config : RegistryConfig N) (request : WorkerRequest N) (nowMs : Nat)
    (registry : Registry N) : Registry N × WorkerReply :=
  match parseWorkerBody config request.body false with
  | none => (registry, .error 400 "invalid_request" "expected {id: uuid}")
  | some body =>
    match OrderedMap.get? (uuidKey body.id) registry with
    | none => (registry, .ok none)
    | some row =>
      (OrderedMap.set (uuidKey body.id) (deadRow nowMs row) registry, .ok none)

def handle (config : RegistryConfig N) (route : WorkerRoute) (request : WorkerRequest N)
    (nowMs : Nat) (jti : JsString) (registry : Registry N) : Registry N × WorkerReply :=
  if !isAuthorized T config request nowMs then
    (registry, .error 401 "unauthorized"
      "missing or invalid worker credential (x-worker-secret or x-worker-token)")
  else
    match route with
    | .register => register T config request nowMs jti registry
    | .heartbeat => heartbeat T config request nowMs jti registry
    | .deregister => deregister config request nowMs registry

/-! ## Bodies -/

theorem bind_eq_some {A B : Type} {x : Option A} {f : A → Option B} {b : B}
    (h : (x >>= f) = some b) : ∃ a, x = some a ∧ f a = some b := by
  cases x with
  | none => cases h
  | some a => exact ⟨a, rfl, h⟩

/-- What is read in an object. -/
theorem parseWorkerBody_obj {config : RegistryConfig N} {members : List (JsString × Value N)}
    {requireUrl : Bool} {body : WorkerBody N}
    (h : parseWorkerBody config (.obj members) requireUrl = some body) :
    member "id" members = some (.str body.id) ∧
      body.draining = readFlag (member "draining" members) := by
  unfold parseWorkerBody at h
  dsimp only at h
  split at h
  · next id hid =>
    split at h
    · obtain ⟨url, -, h⟩ := bind_eq_some h
      obtain ⟨identity, -, h⟩ := bind_eq_some h
      cases h
      exact ⟨hid, rfl⟩
    · cases h
  · cases h

/-! ## A token is good for its worker -/

theorem splitOn_mint (secret : JsString) (claims : WorkerTokenClaims) :
    (mint T secret claims).token.splitOn dot = [tokenHeader, T.encodeClaims claims,
      T.signHs256 (tokenHeader ++ dot :: T.encodeClaims claims) secret] := by
  have hheader : dot ∉ tokenHeader := by decide
  show ((tokenHeader ++ dot :: T.encodeClaims claims) ++ dot :: T.signHs256 _ secret).splitOn dot = _
  rw [List.append_assoc, List.cons_append, List.splitOn_append_cons_self,
    List.splitOn_append_cons_self, List.splitOn_eq_singleton hheader,
    List.splitOn_eq_singleton (T.claims_dotless claims),
    List.splitOn_eq_singleton (T.sign_dotless _ secret)]
  rfl

theorem verifyWorkerTokenClaims_ok {claims claims' : WorkerTokenClaims} {audience : JsString}
    {nowMs : Nat} (h : verifyWorkerTokenClaims claims audience nowMs = .ok claims') :
    claims' = claims := by
  unfold verifyWorkerTokenClaims at h
  dsimp only at h
  split_ifs at h
  exact (Except.ok.inj h).symm

/-- Whoever a minted token is checked for, it is good for its own worker only. -/
theorem verify_mint {bootstrapSecret workerId workerId' jti : JsString} {nowMs nowMs' : Nat}
    {claims : WorkerTokenClaims}
    (h : verifyWorkerSessionToken T bootstrapSecret workerId'
      (mintWorkerSessionToken T bootstrapSecret workerId nowMs jti).token nowMs' = .ok claims) :
    workerId' = workerId := by
  unfold verifyWorkerSessionToken at h
  split at h
  · cases h
  · next claims' hverify =>
    split at h
    · cases h
    · next hsub =>
      unfold verify at hverify
      rw [mintWorkerSessionToken, splitOn_mint] at hverify
      dsimp only at hverify
      rw [T.decode_encode] at hverify
      split_ifs at hverify
      rw [verifyWorkerTokenClaims_ok hverify] at hsub
      exact (not_not.mp hsub).symm

theorem usedSessionToken_header {config : RegistryConfig N} {request : WorkerRequest N}
    {workerId : JsString} {nowMs : Nat}
    (h : usedSessionToken T config request nowMs = some workerId) :
    request.workerId = some workerId := by
  unfold usedSessionToken at h
  split at h
  · next token headerId _ hid =>
    split_ifs at h
    split at h
    · obtain rfl := Option.some.inj h
      exact hid
    · cases h
  · cases h

theorem usedSessionToken_mint {config : RegistryConfig N} {request : WorkerRequest N}
    {workerId workerId' jti : JsString} {nowMs mintedAt : Nat}
    (htoken : request.token =
      some (mintWorkerSessionToken T config.workerSharedSecret workerId mintedAt jti).token)
    (h : usedSessionToken T config request nowMs = some workerId') : workerId' = workerId := by
  unfold usedSessionToken at h
  rw [htoken] at h
  split at h
  · next token headerId htok _ =>
    obtain rfl := Option.some.inj htok
    split at h
    · split at h
      · next hverify =>
        obtain rfl := Option.some.inj h
        exact verify_mint T hverify
      · cases h
    · cases h
  · cases h

/-! ## What a call writes -/

/-- Nothing is written but the row of `workerId`, or nothing is written at all, or the row that
is written holds it already. -/
def Confined (config : RegistryConfig N) (nowMs : Nat) (registry : Registry N)
    (workerId : JsString) (route : WorkerRoute) (raw : Value N) : Prop :=
  match route with
  | .register => ∀ body, parseWorkerBody config raw true = some body →
      uuidKey body.id = uuidKey workerId ∨ isAllowed config body.id = false ∨
        (urlProblemFor config body).isSome ∨
          OrderedMap.get? (uuidKey body.id) registry =
            some (registeredRow body (body.url.getD []) nowMs)
  | .heartbeat => ∀ body, parseWorkerBody config raw false = some body →
      uuidKey body.id = uuidKey workerId ∨ (urlProblemFor config body).isSome ∨
        ∀ row, OrderedMap.get? (uuidKey body.id) registry = some row →
          row.status = .dead ∨ row = beatenRow body nowMs row
  | .deregister => ∀ body, parseWorkerBody config raw false = some body →
      uuidKey body.id = uuidKey workerId ∨
        ∀ row, OrderedMap.get? (uuidKey body.id) registry = some row →
          row = deadRow nowMs row

section

variable {T} {config : RegistryConfig N} {request : WorkerRequest N} {nowMs : Nat} {jti : JsString}
  {registry : Registry N} {own : JsString}

/-- The rows but the one of `own` are what they were. -/
def OthersKept (own : JsString) (registry registry' : Registry N) : Prop :=
  ∀ key, key ≠ own → OrderedMap.get? key registry' = OrderedMap.get? key registry

theorem othersKept_refl : OthersKept own registry registry := fun _ _ => rfl

theorem othersKept_set {key : JsString} {row : WorkerRow N} :
    OthersKept own registry (OrderedMap.set key row registry) ↔
      key = own ∨ OrderedMap.get? key registry = some row := by
  constructor
  · intro h
    by_cases hkey : key = own
    · exact Or.inl hkey
    · refine Or.inr ?_
      rw [← h key hkey, OrderedMap.get?_set, if_pos rfl]
  · intro h key' hkey'
    rw [OrderedMap.get?_set]
    split
    · next heq =>
      subst heq
      rcases h with h | h
      · exact absurd h hkey'
      · exact h.symm
    · rfl

theorem beatenRow_live {body : WorkerBody N} {row : WorkerRow N}
    (h : (beatenRow body nowMs row).status = .live) : row.status = .live ∧ body.draining = false := by
  unfold beatenRow at h
  cases hdraining : body.draining with
  | true =>
    rw [hdraining] at h
    cases h
  | false =>
    rw [hdraining] at h
    exact ⟨h, rfl⟩

/-- What a heartbeat does: it is refused, or it beats the row of its body's id. -/
theorem heartbeat_cases (T : TokenFormat) (config : RegistryConfig N) (request : WorkerRequest N)
    (nowMs : Nat) (jti : JsString) (registry : Registry N) :
    (∃ status code message, status ≠ 200 ∧
      heartbeat T config request nowMs jti registry = (registry, .error status code message)) ∨
    ∃ body row token, parseWorkerBody config request.body false = some body ∧
      OrderedMap.get? (uuidKey body.id) registry = some row ∧ row.status ≠ .dead ∧
      heartbeat T config request nowMs jti registry =
        (OrderedMap.set (uuidKey body.id) (beatenRow body nowMs row) registry, .ok token) := by
  unfold heartbeat
  cases hparse : parseWorkerBody config request.body false with
  | none => exact Or.inl ⟨400, _, _, by decide, rfl⟩
  | some body =>
    cases hurl : urlProblemFor config body with
    | some problem =>
      simp only [hurl]
      exact Or.inl ⟨400, _, _, by decide, rfl⟩
    | none =>
      cases hrow : OrderedMap.get? (uuidKey body.id) registry with
      | none =>
        simp only [hurl, hrow]
        exact Or.inl ⟨404, _, _, by decide, rfl⟩
      | some row =>
        simp only [hurl, hrow]
        by_cases hdead : row.status = .dead
        · exact Or.inl ⟨404, _, _, by decide, if_pos hdead⟩
        · exact Or.inr ⟨body, row, _, rfl, hrow, hdead, if_neg hdead⟩

/-- What a deregister does: it is refused, or it marks the row of its body's id dead. -/
theorem deregister_cases (config : RegistryConfig N) (request : WorkerRequest N) (nowMs : Nat)
    (registry : Registry N) :
    (∃ status code message, status ≠ 200 ∧
      deregister config request nowMs registry = (registry, .error status code message)) ∨
    ∃ body, parseWorkerBody config request.body false = some body ∧
      ((OrderedMap.get? (uuidKey body.id) registry = none ∧
          deregister config request nowMs registry = (registry, .ok none)) ∨
        ∃ row, deregister config request nowMs registry =
          (OrderedMap.set (uuidKey body.id) (deadRow nowMs row) registry, .ok none)) := by
  unfold deregister
  cases hparse : parseWorkerBody config request.body false with
  | none => exact Or.inl ⟨400, _, _, by decide, rfl⟩
  | some body =>
    refine Or.inr ⟨body, rfl, ?_⟩
    cases hrow : OrderedMap.get? (uuidKey body.id) registry with
    | none =>
      refine Or.inl ⟨rfl, ?_⟩
      simp only [hrow]
    | some row =>
      refine Or.inr ⟨row, ?_⟩
      simp only [hrow]

theorem register_othersKept_iff {workerId : JsString} :
    OthersKept (uuidKey workerId) registry (register T config request nowMs jti registry).1 ↔
      Confined config nowMs registry workerId .register request.body := by
  unfold register Confined
  cases hparse : parseWorkerBody config request.body true with
  | none => exact iff_of_true othersKept_refl fun body h => by cases h
  | some body =>
    simp only [Option.some.injEq, forall_eq']
    cases hallowed : isAllowed config body.id with
    | false => exact iff_of_true othersKept_refl (Or.inr (Or.inl rfl))
    | true =>
      cases hurl : urlProblemFor config body with
      | some problem => exact iff_of_true othersKept_refl (Or.inr (Or.inr (Or.inl rfl)))
      | none =>
        refine othersKept_set.trans (or_congr_right ?_)
        constructor
        · exact fun h => Or.inr (Or.inr h)
        · intro h
          rcases h with h | h | h
          · cases h
          · cases h
          · exact h

theorem heartbeat_othersKept_iff {workerId : JsString} :
    OthersKept (uuidKey workerId) registry (heartbeat T config request nowMs jti registry).1 ↔
      Confined config nowMs registry workerId .heartbeat request.body := by
  unfold heartbeat Confined
  cases hparse : parseWorkerBody config request.body false with
  | none => exact iff_of_true othersKept_refl fun body h => by cases h
  | some body =>
    simp only [Option.some.injEq, forall_eq']
    cases hurl : urlProblemFor config body with
    | some problem => exact iff_of_true othersKept_refl (Or.inr (Or.inl rfl))
    | none =>
      cases hrow : OrderedMap.get? (uuidKey body.id) registry with
      | none => exact iff_of_true othersKept_refl (Or.inr (Or.inr fun row h => by cases h))
      | some row =>
        simp only [Option.some.injEq, forall_eq']
        by_cases hdead : row.status = .dead
        · rw [if_pos hdead]
          exact iff_of_true othersKept_refl (Or.inr (Or.inr (Or.inl hdead)))
        · rw [if_neg hdead]
          refine othersKept_set.trans (or_congr_right ?_)
          rw [hrow]
          constructor
          · exact fun h => Or.inr (Or.inr (Option.some.inj h))
          · intro h
            rcases h with h | h | h
            · cases h
            · exact absurd h hdead
            · exact congrArg some h

theorem deregister_othersKept_iff {workerId : JsString} :
    OthersKept (uuidKey workerId) registry (deregister config request nowMs registry).1 ↔
      Confined config nowMs registry workerId .deregister request.body := by
  unfold deregister Confined
  cases hparse : parseWorkerBody config request.body false with
  | none => exact iff_of_true othersKept_refl fun body h => by cases h
  | some body =>
    simp only [Option.some.injEq, forall_eq']
    cases hrow : OrderedMap.get? (uuidKey body.id) registry with
    | none => exact iff_of_true othersKept_refl (Or.inr fun row h => by cases h)
    | some row =>
      simp only [Option.some.injEq, forall_eq']
      refine othersKept_set.trans (or_congr_right ?_)
      rw [hrow, Option.some.injEq]

end

/-! ## A token writes its own worker's row -/

/-- A session token of `workerId` gets a call through under its own worker's header only. -/
theorem header_of_isAuthorized {T : TokenFormat} {config : RegistryConfig N}
    {request : WorkerRequest N} {nowMs mintedAt : Nat} {jti workerId : JsString}
    (hauthorized : isAuthorized T config request nowMs = true)
    (hsecret : usedBootstrapSecret config request = false)
    (htoken : request.token =
      some (mintWorkerSessionToken T config.workerSharedSecret workerId mintedAt jti).token) :
    request.workerId = some workerId := by
  rw [isAuthorized, hsecret, Bool.false_or] at hauthorized
  obtain ⟨id, hused⟩ := Option.isSome_iff_exists.mp hauthorized
  rw [← usedSessionToken_mint T htoken hused]
  exact usedSessionToken_header T hused

theorem verify_mint_fresh (T : TokenFormat) (bootstrapSecret workerId jti : JsString)
    (nowMs : Nat) : ∃ claims, verifyWorkerSessionToken T bootstrapSecret workerId
      (mintWorkerSessionToken T bootstrapSecret workerId nowMs jti).token nowMs = .ok claims := by
  let claims : WorkerTokenClaims :=
    { iss := WORKER_TOKEN_ISSUER
      sub := workerId
      aud := controlPlaneAudience
      iat := some (nowMs / 1000)
      nbf := none
      exp := nowMs / 1000 + WORKER_SESSION_TOKEN_TTL_SECONDS
      jti := some jti }
  have hclaims : verifyWorkerTokenClaims claims controlPlaneAudience nowMs = .ok claims := by
    unfold verifyWorkerTokenClaims
    dsimp only
    rw [if_neg (not_not.mpr rfl), if_neg (not_not.mpr rfl), if_neg, if_neg (by simp [claims]),
      if_neg]
    · simp [claims]
    · show ¬ nowMs / 1000 + WORKER_SESSION_TOKEN_TTL_SECONDS + _ < nowMs / 1000
      omega
  refine ⟨claims, ?_⟩
  have hverify : verify T (sessionSecret T bootstrapSecret workerId)
      (mintWorkerSessionToken T bootstrapSecret workerId nowMs jti).token controlPlaneAudience
      nowMs = .ok claims := by
    unfold verify
    rw [mintWorkerSessionToken, splitOn_mint]
    dsimp only
    rw [if_neg (not_not.mpr rfl), T.decode_encode]
    exact hclaims
  unfold verifyWorkerSessionToken
  rw [hverify]
  exact if_neg (not_not.mpr rfl)

/-- Numbers of a text. -/
def unitNumbers (s : JsString) : List Nat := s.map UInt16.toNat

theorem ofNat_unitNumbers (s : JsString) : (unitNumbers s).map UInt16.ofNat = s := by
  rw [unitNumbers, List.map_map]
  refine (List.map_congr_left fun c _ => ?_).trans (List.map_id s)
  exact UInt16.ofNat_toNat

/-- Tokens that everybody can read and nobody has to sign. -/
def openFormat : TokenFormat where
  hmacHex key data := key ++ data
  signHs256 _ _ := []
  encodeClaims claims := List.replicate (Encodable.encode
    ((unitNumbers claims.iss, unitNumbers claims.sub, unitNumbers claims.aud),
      (claims.iat, claims.nbf, claims.exp, claims.jti.map unitNumbers))) (unit 'x')
  decodeClaims segment :=
    (Encodable.decode (α := (List Nat × List Nat × List Nat) ×
      (Option Nat × Option Nat × Nat × Option (List Nat))) segment.length).map fun read =>
        { iss := read.1.1.map UInt16.ofNat
          sub := read.1.2.1.map UInt16.ofNat
          aud := read.1.2.2.map UInt16.ofNat
          iat := read.2.1
          nbf := read.2.2.1
          exp := read.2.2.2.1
          jti := read.2.2.2.2.map fun jti => jti.map UInt16.ofNat }
  decode_encode claims := by
    rcases claims with ⟨iss, sub, aud, iat, nbf, exp, jti⟩
    rw [List.length_replicate, Encodable.encodek, Option.map_some]
    simp only [ofNat_unitNumbers, Option.map_map]
    cases jti with
    | none => rfl
    | some jti => simp [ofNat_unitNumbers]
  claims_dotless claims h := absurd (List.eq_of_mem_replicate h) (by decide)
  sign_dotless _ _ h := absurd h List.not_mem_nil

/-- A control plane that lets plain http pass. -/
def openConfig : RegistryConfig Nat where
  workerSharedSecret := ascii "bootstrap"
  allowInsecureWorkerTransport := true
  heartbeatIntervalMs := 10000
  allowedWorkerIds := none
  sha256 := id
  urlProtocol url := if url.take 5 = ascii "http:" then some (ascii "http:") else none
  coerce _ := []

def firstWorker : JsString := ascii "6b4d8f6e-3a4e-4f6a-9a0e-2f6a1c9d8e7b"

def secondWorker : JsString := ascii "7c5e9a7f-4b5f-4a7b-8b1f-3a7b2d0e9f8c"

def liveRow : WorkerRow Nat where
  address := ascii "http://worker:8080"
  status := .live
  lastHeartbeatAt := 0
  capacity := []
  updatedAt := 0

def twoWorkers : Registry Nat := [(firstWorker, liveRow), (secondWorker, liveRow)]

/-- A call under the first worker's token; its body names `id`. -/
def tokenRequest (id : JsString) : WorkerRequest Nat where
  secret := none
  token := some (mintWorkerSessionToken openFormat openConfig.workerSharedSecret firstWorker 0
    (ascii "jti")).token
  workerId := some firstWorker
  body := .obj [(ascii "id", .str id)]

theorem tokenRequest_authorized (id : JsString) :
    isAuthorized openFormat openConfig (tokenRequest id) 0 = true := by
  obtain ⟨claims, hclaims⟩ :=
    verify_mint_fresh openFormat openConfig.workerSharedSecret firstWorker (ascii "jti") 0
  have hused : usedSessionToken openFormat openConfig (tokenRequest id) 0 = some firstWorker := by
    have huuid : isUuid firstWorker = true := by decide
    simp only [usedSessionToken, tokenRequest, huuid, hclaims]
    rfl
  rw [isAuthorized, hused]
  rfl

/-- A call that carries no credential but a session token of `workerId`: it leaves the rows of
the other workers alone exactly when its body names `workerId`, or there is nothing to write. -/
theorem confined_iff (T : TokenFormat) (config : RegistryConfig N) (route : WorkerRoute)
    (request : WorkerRequest N) (nowMs mintedAt : Nat) (jti jti' workerId : JsString)
    (registry : Registry N) (hauthorized : isAuthorized T config request nowMs = true)
    (hsecret : usedBootstrapSecret config request = false)
    (htoken : request.token =
      some (mintWorkerSessionToken T config.workerSharedSecret workerId mintedAt jti').token) :
    request.workerId = some workerId ∧
      (OthersKept (uuidKey workerId) registry
          (handle T config route request nowMs jti registry).1 ↔
        Confined config nowMs registry workerId route request.body) := by
  refine ⟨header_of_isAuthorized hauthorized hsecret htoken, ?_⟩
  unfold handle
  rw [hauthorized]
  cases route with
  | register => exact register_othersKept_iff
  | heartbeat => exact heartbeat_othersKept_iff
  | deregister => exact deregister_othersKept_iff

/-- The first worker takes itself off. -/
theorem confined_iff_own :
    OthersKept (uuidKey firstWorker) twoWorkers
      (handle openFormat openConfig .deregister (tokenRequest firstWorker) 0 [] twoWorkers).1 := by
  refine (confined_iff openFormat openConfig .deregister (tokenRequest firstWorker) 0 0 []
    (ascii "jti") firstWorker twoWorkers (tokenRequest_authorized firstWorker) rfl rfl).2.mpr ?_
  intro body hbody
  have hid : parseWorkerBody openConfig (tokenRequest firstWorker).body false =
      some ⟨firstWorker, none, none, .sharedSecret, false⟩ := rfl
  rw [hid] at hbody
  cases hbody
  exact Or.inl rfl

/-- The first worker takes the second one off. -/
theorem token_deregisters_another :
    isAuthorized openFormat openConfig (tokenRequest secondWorker) 0 = true ∧
      usedBootstrapSecret openConfig (tokenRequest secondWorker) = false ∧
      OrderedMap.get? (uuidKey secondWorker) twoWorkers = some liveRow ∧
      OrderedMap.get? (uuidKey secondWorker)
        (handle openFormat openConfig .deregister (tokenRequest secondWorker) 0 []
          twoWorkers).1 = some { liveRow with status := .dead } := by
  refine ⟨tokenRequest_authorized secondWorker, rfl, rfl, ?_⟩
  unfold handle
  rw [tokenRequest_authorized]
  rfl

end InvisibleString.Runtime
