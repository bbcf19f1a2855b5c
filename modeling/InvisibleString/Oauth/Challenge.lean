import InvisibleString.Lib.OrderedMap
import InvisibleString.Oauth.Discovery

/- # `Oauth.Challenge` — what a server's replies say

`readChallenge` reads the `WWW-Authenticate` header of a 401, `fetchMetadata` a document at a
well-known place.  A reply is a status, that header and the JSON of the body; the network may
fail and the egress guard may refuse.
-/

namespace InvisibleString.Oauth

open Json

/-! ## Challenges -/

/-- One step of `splitOutsideQuotes`; `current` and `items` are reversed. -/
def splitQuoted (quoted : Bool) (current : JsString) (items : List JsString) :
    JsString → List JsString
  | [] => (current.reverse :: items).reverse
  | [c] =>
    if !quoted && c == unit ',' then ([] :: current.reverse :: items).reverse
    else ((c :: current).reverse :: items).reverse
  | c :: d :: rest =>
    if quoted then
      if c == unit '\\' then splitQuoted true (d :: c :: current) items rest
      else splitQuoted (c != unit '"') (c :: current) items (d :: rest)
    else if c == unit '"' then splitQuoted true (c :: current) items (d :: rest)
    else if c == unit ',' then splitQuoted false [] (current.reverse :: items) (d :: rest)
    else splitQuoted false (c :: current) items (d :: rest)

def splitOutsideQuotes (header : JsString) : List JsString :=
  ((splitQuoted false [] [] header).map trim).filter (· != [])

/-- `.replace(/\\([\s\S])/g, "$1")`. -/
def unescape : JsString → JsString
  | [] => []
  | [c] => [c]
  | c :: d :: rest => if c == unit '\\' then d :: unescape rest else c :: unescape (d :: rest)

def unquote (raw : JsString) : JsString :=
  let value := trim raw
  if 2 ≤ value.length && value.head? == some (unit '"') && value.getLast? == some (unit '"') then
    unescape value.tail.dropLast
  else value

def isTokenUnit (c : CodeUnit) : Bool :=
  isDigit c || (unit 'A' ≤ c && c ≤ unit 'Z') || (unit 'a' ≤ c && c ≤ unit 'z') ||
    (ascii "!#$%&'*+.^_\x60|~-").contains c

/-- `toLowerCase` of a token. -/
def lowerToken (s : JsString) : JsString :=
  s.map fun c => if unit 'A' ≤ c && c ≤ unit 'Z' then c + 32 else c

/-- `paramRe`: a token, an equals sign, the rest. -/
def matchParam (item : JsString) : Option (JsString × JsString) :=
  let name := item.takeWhile isTokenUnit
  match (item.dropWhile isTokenUnit).dropWhile isWhite with
  | c :: value => if name != [] && c == unit '=' then some (name, value.dropWhile isWhite) else none
  | [] => none

/-- `schemeRe`: a token, then nothing or white space and the rest. -/
def matchScheme (item : JsString) : Option (JsString × Option JsString) :=
  let scheme := item.takeWhile isTokenUnit
  match item.dropWhile isTokenUnit with
  | [] => if scheme != [] then some (scheme, none) else none
  | c :: rest =>
    if scheme != [] && isWhite c then some (scheme, some (rest.dropWhile isWhite)) else none

def setParam (params : List (JsString × JsString)) (param : JsString × JsString) :
    List (JsString × JsString) :=
  OrderedMap.set (lowerToken param.1) (unquote param.2) params

/-- The loop of `bearerParams`. -/
def collectParams (inBearer : Bool) (params : List (JsString × JsString)) :
    List JsString → List (JsString × JsString)
  | [] => params
  | item :: rest =>
    match matchParam item with
    | some param => collectParams inBearer (if inBearer then setParam params param else params) rest
    | none =>
      match matchScheme item with
      | none => collectParams inBearer params rest
      | some (scheme, value) =>
        let bearer := lowerToken scheme == ascii "bearer"
        match value.bind fun value => matchParam (trim value) with
        | some param => collectParams bearer (if bearer then setParam params param else params) rest
        | none => collectParams bearer params rest

def bearerParams (header : JsString) : List (JsString × JsString) :=
  collectParams false [] (splitOutsideQuotes header)

example : bearerParams (ascii "Basic realm=\"a, b\", Bearer scope=\"x y\", error=none") =
    [(ascii "scope", ascii "x y"), (ascii "error", ascii "none")] := by decide

/-- The words of a text, `split(/\s+/)` where the text begins and ends with one. -/
def wordsFrom (current : JsString) : JsString → List JsString
  | [] => if current == [] then [] else [current.reverse]
  | c :: rest =>
    if isWhite c then
      if current == [] then wordsFrom [] rest else current.reverse :: wordsFrom [] rest
    else wordsFrom (c :: current) rest

def words (s : JsString) : List JsString := wordsFrom [] s

/-! ## Replies -/

variable {N : Type}

/-- What one fetch comes to; the JSON is missing where the body is none, or too large. -/
inductive Reply (N : Type) where
  | failed
  /-- by the egress guard -/
  | refused
  | response (status : Nat) (authenticate : Option JsString) (json : Option (Value N))

/-- `new URL` and `href`. -/
structure Urls where
  parse : JsString → Option Url
  /-- `new URL(raw, base).href` -/
  resolve : JsString → Url → Option JsString
  href : Url → JsString

def readPointer (urls : Urls) (resourceUrl : Url) (allowInsecureHttp : Bool)
    (rawPointer : JsString) : Option JsString :=
  if rawPointer == [] then none
  else match urls.resolve rawPointer resourceUrl with
    | none => none
    | some pointer => (checkServerUrl urls.parse pointer allowInsecureHttp).map urls.href

def readScope (rawScope : JsString) : Option (List JsString) :=
  if rawScope == [] then none else some (words rawScope)

def readChallenge (urls : Urls) (resourceUrl : Url) (allowInsecureHttp : Bool) :
    Reply N → Except DiscoveryReason BearerChallenge
  | .failed => .ok ⟨none, none⟩
  | .refused => .error .egressBlocked
  | .response status authenticate _ =>
    if status != 401 then .ok ⟨none, none⟩
    else match authenticate with
      | none => .ok ⟨none, none⟩
      | some header =>
        let param (name : String) :=
          trim ((OrderedMap.get? (ascii name) (bearerParams header)).getD [])
        .ok ⟨readPointer urls resourceUrl allowInsecureHttp (param "resource_metadata"),
          readScope (param "scope")⟩

def fetchMetadata {D : Type} (schema : Value N → Option D) : Reply N → MetadataFetchResult D
  | .failed => .miss
  | .refused => .blocked
  | .response status _ json =>
    if status != 200 then .miss
    else match json with
      | none => .unreadable
      | some doc => .hit (schema doc)

/-! ## Documents -/

/-- `z.string().min(1)`. -/
def readText : Value N → Option JsString
  | .str [] => none
  | .str s => some s
  | _ => none

/-- `z.string()`. -/
def readString : Value N → Option JsString
  | .str s => some s
  | _ => none

def readBool : Value N → Option Bool
  | .bool b => some b
  | _ => none

def readList {A : Type} (read : Value N → Option A) : Value N → Option (List A)
  | .arr items => items.mapM read
  | _ => none

/-- A field that must be there. -/
def required {A : Type} (read : Value N → Option A) (members : List (JsString × Value N))
    (name : String) : Option A :=
  (OrderedMap.get? (ascii name) members).bind read

/-- A field that may be missing. -/
def optional {A : Type} (read : Value N → Option A) (members : List (JsString × Value N))
    (name : String) : Option (Option A) :=
  match OrderedMap.get? (ascii name) members with
  | none => some none
  | some value => (read value).map some

def prmSchema : Value N → Option PrmDocument
  | .obj members => do
    let resource ← required readText members "resource"
    let authorizationServers ← optional (readList readText) members "authorization_servers"
    let scopesSupported ← optional (readList readString) members "scopes_supported"
    pure { resource, authorizationServers, scopesSupported }
  | _ => none

def asMetadataSchema : Value N → Option AsMetadata
  | .obj members => do
    let issuer ← required readText members "issuer"
    let authorizationEndpoint ← required readText members "authorization_endpoint"
    let tokenEndpoint ← required readText members "token_endpoint"
    let registrationEndpoint ← optional readText members "registration_endpoint"
    let revocationEndpoint ← optional readText members "revocation_endpoint"
    let scopesSupported ← optional (readList readString) members "scopes_supported"
    let codeChallengeMethodsSupported ←
      optional (readList readString) members "code_challenge_methods_supported"
    let clientIdMetadataDocumentSupported ←
      optional readBool members "client_id_metadata_document_supported"
    let authorizationResponseIssParameterSupported ←
      optional readBool members "authorization_response_iss_parameter_supported"
    pure {
      issuer
      authorizationEndpoint
      tokenEndpoint
      registrationEndpoint
      revocationEndpoint
      scopesSupported
      codeChallengeMethodsSupported
      clientIdMetadataDocumentSupported
      authorizationResponseIssParameterSupported }
  | _ => none

/-- The replies to the fetches of one discovery; a place may answer differently when it is asked
for the resource's metadata and for the server's. -/
structure Network (N : Type) where
  challenge : Reply N
  resourceAt : JsString → Reply N
  serverAt : JsString → Reply N

/-- Plain http is admitted where the MCP URL has it. -/
def Url.allowsHttp (resourceUrl : Url) : Bool := resourceUrl.protocol == ascii "http:"

def Network.answers (network : Network N) (urls : Urls) (mcpUrl : JsString) : Answers where
  challenge :=
    match urls.parse mcpUrl with
    | none => .ok ⟨none, none⟩
    | some resourceUrl => readChallenge urls resourceUrl resourceUrl.allowsHttp network.challenge
  resourceAt place := fetchMetadata prmSchema (network.resourceAt place)
  serverAt place := fetchMetadata asMetadataSchema (network.serverAt place)

end InvisibleString.Oauth
