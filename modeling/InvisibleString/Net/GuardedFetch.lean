import InvisibleString.Lib.OrderedMap
import InvisibleString.Net.Forbidden

/- # `Net.GuardedFetch` — requests to targets that a caller names

`createGuardedFetch` makes a request hop by hop.  Every hop is checked from the start: the scheme,
the addresses its host resolves to, all of them, and then the socket is dialed at the first of
those.  A redirect leads to a next hop only where it stays within the origin, and a limited number
of times; on the way the method may become `GET`, and then the body stays behind.

What the name server and the peer answer at each hop is arbitrary (`HopAnswers`), and so is the
parser of URLs.  A run records its hops, with the request that each of them sent, if any.

**Proved here.**

    a hop that sends a request has passed its checks, and one that does not pass ends the
      run without a request  (`issueGuardedHop_cases`)
    what holds along the hops of a run  (`runHops_forall`)
    the requests of a run, its redirects, its bodies  (`guardedFetch_safe`)
-/

namespace InvisibleString.Net

open Json

/-! ## Requests -/

/-- The parts of a URL the guard looks at. -/
structure Url where
  protocol : JsString
  hostname : JsString
  port : JsString
  /-- `hostname:port` -/
  host : JsString
  origin : JsString
  pathname : JsString
  search : JsString
  deriving DecidableEq

/-- Headers by lower-case name. -/
abbrev HeaderList := List (JsString × JsString)

abbrev Bytes := List UInt8

inductive RedirectMode where
  | follow
  | error
  | manual
  deriving DecidableEq

structure NormalizedRequest where
  url : Url
  method : JsString
  headers : HeaderList
  body : Option Bytes
  redirect : RedirectMode

structure GuardedFetchOptions where
  allowPrivate : Bool
  maxResponseBytes : Option Nat
  maxRedirects : Option Nat

def GuardedFetchOptions.bytes (opts : GuardedFetchOptions) : Nat :=
  opts.maxResponseBytes.getD 5000000

def GuardedFetchOptions.redirects (opts : GuardedFetchOptions) : Nat := opts.maxRedirects.getD 3

/-- What a hop starts from. -/
structure HopInput where
  url : Url
  method : JsString
  headers : HeaderList
  body : Option Bytes

/-- What `https.request` is given. -/
structure HopRequest where
  /-- `https.request` or `http.request` -/
  secure : Bool
  /-- the address the socket is dialed at -/
  address : JsString
  port : Nat
  path : JsString
  method : JsString
  headers : HeaderList
  servername : Option JsString
  body : Option Bytes

/-- A response of the peer. -/
structure IncomingMessage where
  statusCode : Option Nat
  statusMessage : Option JsString
  headers : List (JsString × List JsString)
  chunks : List Bytes

inductive FetchError where
  /-- `EgressBlockedError` -/
  | blocked (reason message : JsString)
  /-- anything else that is thrown -/
  | failed (message : JsString)

/-- What the name server and the peer answer at one hop. -/
structure HopAnswers where
  lookup : Except FetchError (List JsString)
  response : Except FetchError IncomingMessage

/-! ## One hop -/

/-- `hostname.replace(/^\[|\]$/g, "")` -/
def withoutBrackets (hostname : JsString) : JsString :=
  let s := if hostname.head? = some (unit '[') then hostname.tail else hostname
  if s.getLast? = some (unit ']') then s.dropLast else s

def https : JsString := ascii "https:"

def http : JsString := ascii "http:"

def contentType : JsString := ascii "content-type"

variable (L : LowerCasing)

/-- `hostnameIsIpLiteral` -/
def isIpLiteral (hostname : JsString) : Bool :=
  (isForbiddenIpv4 hostname).isSome || (parseIpv6 hostname).isSome

/-- The headers that go out. -/
def outHeaders (hop : HopInput) : HeaderList :=
  let kept := hop.headers.filter fun h => h.1 ≠ ascii "host" ∧ h.1 ≠ ascii "accept-encoding"
  let pinned := OrderedMap.set (ascii "host") hop.url.host kept
  match hop.body with
  | some body => OrderedMap.set (ascii "content-length") (printNat body.length) pinned
  | none => pinned

/-- The request of a hop over a socket to `address`. -/
def hopRequest (hop : HopInput) (address : JsString) : HopRequest where
  secure := hop.url.protocol = https
  address := address
  port :=
    if hop.url.port ≠ [] then numberOf hop.url.port
    else if hop.url.protocol = https then 443 else 80
  path := hop.url.pathname ++ hop.url.search
  method := hop.method
  headers := outHeaders hop
  servername :=
    if hop.url.protocol = https ∧ isIpLiteral (withoutBrackets hop.url.hostname) = false then
      some (withoutBrackets hop.url.hostname)
    else none
  body := hop.body

/-- The checks of a hop, and the address its socket is dialed at. -/
def checkHop (allowPrivate : Bool) (hop : HopInput) (a : HopAnswers) : Except FetchError JsString :=
  if hop.url.protocol ≠ https ∧ hop.url.protocol ≠ http then
    .error (.blocked (ascii "unsupported_protocol")
      (ascii "refusing non-http(s) scheme \"" ++ hop.url.protocol ++ ascii "\""))
  else if hop.url.protocol = http ∧ allowPrivate = false then
    .error (.blocked (ascii "insecure_protocol")
      (ascii "plain http egress requires MCP_PROBE_ALLOW_PRIVATE"))
  else
    let hostname := withoutBrackets hop.url.hostname
    match a.lookup with
    | .error error => .error error
    | .ok [] =>
      .error (.blocked (ascii "dns_no_addresses")
        (ascii "hostname \"" ++ hostname ++ ascii "\" resolved to no addresses"))
    | .ok (pinned :: rest) =>
      if allowPrivate = false ∧ (pinned :: rest).any (isForbiddenIp L) then
        .error (.blocked (ascii "forbidden_ip")
          (ascii "hostname \"" ++ hostname ++ ascii "\" resolves to a forbidden address"))
      else .ok pinned

/-- The request a hop sends, if any, and what it comes to. -/
def issueGuardedHop (allowPrivate : Bool) (hop : HopInput) (a : HopAnswers) :
    Option HopRequest × Except FetchError IncomingMessage :=
  match checkHop L allowPrivate hop a with
  | .error error => (none, .error error)
  | .ok address => (some (hopRequest hop address), a.response)

/-! ## Responses -/

structure FetchBody where
  delivered : List Bytes
  /-- the stream ends with an error -/
  errored : Bool

structure FetchResponse where
  status : Nat
  statusText : JsString
  headers : HeaderList
  body : Option FetchBody

/-- The counting transform: the chunk that exceeds the limit is not delivered. -/
def capChunks (maxResponseBytes : Nat) : Nat → List Bytes → FetchBody
  | _, [] => ⟨[], false⟩
  | seen, chunk :: chunks =>
    if maxResponseBytes < seen + chunk.length then ⟨[], true⟩
    else
      let rest := capChunks maxResponseBytes (seen + chunk.length) chunks
      ⟨chunk :: rest.delivered, rest.errored⟩

def buildResponse (res : IncomingMessage) (method : JsString) (maxResponseBytes : Nat) :
    Except FetchError FetchResponse :=
  let status := res.statusCode.getD 200
  let headers := res.headers.flatMap fun h => h.2.map fun value => (h.1, value)
  let bodyless := method = ascii "HEAD" ∨ status = 204 ∨ status = 205 ∨ status = 304
  if status < 200 ∨ 599 < status then .error (.failed (ascii "RangeError"))
  else
    .ok
      { status := status
        statusText := res.statusMessage.getD []
        headers := headers
        body := if bodyless then none else some (capChunks maxResponseBytes 0 res.chunks) }

/-! ## Redirects -/

def isRedirectStatus (status : Nat) : Bool :=
  status = 301 ∨ status = 302 ∨ status = 303 ∨ status = 307 ∨ status = 308

/-- The redirects that are followed with `GET`. -/
def changesMethod (status : Nat) (method : JsString) : Bool :=
  status = 303 ∨ ((status = 301 ∨ status = 302) ∧ method ≠ ascii "GET" ∧ method ≠ ascii "HEAD")

def IncomingMessage.status (res : IncomingMessage) : Nat := res.statusCode.getD 0

/-- `nodeRes.headers.location` -/
def IncomingMessage.location (res : IncomingMessage) : Option JsString :=
  (OrderedMap.get? (ascii "location") res.headers).bind List.head?

/-- The next hop behind a redirect. -/
def redirected (hop : HopInput) (status : Nat) (next : Url) : HopInput :=
  if changesMethod status hop.method then
    { url := next
      method := ascii "GET"
      headers := OrderedMap.erase contentType hop.headers
      body := none }
  else { hop with url := next }

/-- The text of the redirect that is to be followed. -/
def followed (redirect : RedirectMode) (res : IncomingMessage) : Option JsString :=
  if isRedirectStatus res.status ∧ redirect = .follow then res.location else none

/-- The hop a redirect leads to. -/
def redirectTarget (parse : JsString → Url → Option Url) (hop : HopInput) (res : IncomingMessage)
    (location : JsString) : Except FetchError HopInput :=
  match parse location hop.url with
  | none => .error (.failed (ascii "Invalid URL"))
  | some next =>
    if next.origin ≠ hop.url.origin then
      .error (.blocked (ascii "cross_origin_redirect")
        (ascii "cross-origin redirect refused: " ++ hop.url.origin ++ ascii " -> " ++ next.origin))
    else .ok (redirected hop res.status next)

/-- What a response is for the caller that is not followed. -/
def finish (opts : GuardedFetchOptions) (redirect : RedirectMode) (hop : HopInput)
    (res : IncomingMessage) : Except FetchError FetchResponse :=
  if isRedirectStatus res.status ∧ redirect = .error then
    .error (.blocked (ascii "redirect_not_allowed")
      (ascii "redirect received with redirect mode \"error\""))
  else buildResponse res hop.method opts.bytes

def tooManyRedirects (opts : GuardedFetchOptions) : FetchError :=
  .blocked (ascii "too_many_redirects")
    (ascii "refused to follow more than " ++ printNat opts.redirects ++ ascii " redirects")

/-! ## Runs -/

structure HopRecord where
  input : HopInput
  answers : HopAnswers
  sent : Option HopRequest

structure FetchRun where
  hops : List HopRecord
  result : Except FetchError FetchResponse

/-- The loop of `createGuardedFetch`, from its `n`-th hop on; `left` redirects may be followed. -/
def runHops (parse : JsString → Url → Option Url) (opts : GuardedFetchOptions)
    (redirect : RedirectMode) (answers : Nat → HopAnswers) : Nat → Nat → HopInput → FetchRun
  | left, n, hop =>
    let issued := issueGuardedHop L opts.allowPrivate hop (answers n)
    let record : HopRecord := ⟨hop, answers n, issued.1⟩
    match issued.2 with
    | .error error => ⟨[record], .error error⟩
    | .ok res =>
      match followed redirect res, left with
      | none, _ => ⟨[record], finish opts redirect hop res⟩
      | some _, 0 => ⟨[record], .error (tooManyRedirects opts)⟩
      | some location, left + 1 =>
        match redirectTarget parse hop res location with
        | .error error => ⟨[record], .error error⟩
        | .ok next =>
          let rest := runHops parse opts redirect answers left (n + 1) next
          ⟨record :: rest.hops, rest.result⟩

/-- The function that `createGuardedFetch` builds. -/
def guardedFetch (parse : JsString → Url → Option Url) (opts : GuardedFetchOptions)
    (req : NormalizedRequest) (answers : Nat → HopAnswers) : FetchRun :=
  runHops L parse opts req.redirect answers opts.redirects 0
    ⟨req.url, req.method, req.headers, req.body⟩

/-! ## What a hop does -/

/-- The checks of a hop, apart from those of the redirect that led to it. -/
structure Validated (hop : HopInput) (a : HopAnswers) (address : JsString) : Prop where
  secure : hop.url.protocol = https
  resolved : ∃ rest, a.lookup = .ok (address :: rest) ∧
    ∀ other ∈ address :: rest, isForbiddenIp L other = false

variable {L} {hop : HopInput} {a : HopAnswers}

theorem checkHop_ok {address : JsString} (h : checkHop L false hop a = .ok address) :
    Validated L hop a address := by
  rw [checkHop] at h
  split at h
  · cases h
  next hscheme =>
  split at h
  · cases h
  next hsecure =>
  have hprotocol : hop.url.protocol = https := by
    by_contra hne
    exact hsecure ⟨by_contra fun hne' => hscheme ⟨hne, hne'⟩, rfl⟩
  dsimp only at h
  split at h
  · cases h
  · cases h
  · next pinned rest hlookup =>
    split at h
    · cases h
    · next hforbidden =>
      cases h
      refine ⟨hprotocol, rest, hlookup, fun other hother => ?_⟩
      rw [← Bool.not_eq_true]
      exact fun h => hforbidden ⟨rfl, List.any_eq_true.mpr ⟨other, hother, h⟩⟩

/-- A hop sends its request over a validated address, or it fails a check and sends nothing. -/
theorem issueGuardedHop_cases (L : LowerCasing) (hop : HopInput) (a : HopAnswers) :
    (∃ address, Validated L hop a address ∧
      issueGuardedHop L false hop a = (some (hopRequest hop address), a.response)) ∨
    (∃ error, issueGuardedHop L false hop a = (none, .error error)) ∧
      ∀ address, ¬ Validated L hop a address := by
  rw [issueGuardedHop]
  cases hcheck : checkHop L false hop a with
  | ok address => exact .inl ⟨address, checkHop_ok hcheck, rfl⟩
  | error error =>
    refine .inr ⟨⟨error, rfl⟩, fun address h => ?_⟩
    obtain ⟨rest, hlookup, hallowed⟩ := h.resolved
    have hnone : ¬ ∃ x ∈ address :: rest, isForbiddenIp L x = true := by
      rintro ⟨x, hx, hforbidden⟩
      rw [hallowed x hx] at hforbidden
      cases hforbidden
    rw [checkHop, if_neg (fun hne => hne.1 h.secure), if_neg, hlookup] at hcheck
    · dsimp only at hcheck
      rw [if_neg fun hforbidden => hnone (List.any_eq_true.mp hforbidden.2)] at hcheck
      cases hcheck
    · rw [h.secure]
      exact fun hhttp => absurd hhttp.1 (by decide)

theorem response_of_issued {res : IncomingMessage}
    (h : (issueGuardedHop L false hop a).2 = .ok res) : a.response = .ok res := by
  rcases issueGuardedHop_cases L hop a with ⟨address, -, heq⟩ | ⟨⟨error, heq⟩, -⟩
  · rwa [heq] at h
  · rw [heq] at h
    cases h

/-! ## What a run does -/

section

variable {parse : JsString → Url → Option Url} {opts : GuardedFetchOptions}
  {redirect : RedirectMode} {answers : Nat → HopAnswers}

/-- The response is a redirect that leads to the next hop. -/
def Leads (parse : JsString → Url → Option Url) (redirect : RedirectMode) (hop : HopInput)
    (res : IncomingMessage) (next : HopInput) : Prop :=
  ∃ location, followed redirect res = some location ∧
    redirectTarget parse hop res location = .ok next

theorem Leads.exists_url {res : IncomingMessage} {next : HopInput}
    (h : Leads parse redirect hop res next) : ∃ location url,
      followed redirect res = some location ∧ parse location hop.url = some url ∧
        url.origin = hop.url.origin ∧ next = redirected hop res.status url := by
  obtain ⟨location, hfollowed, htarget⟩ := h
  rw [redirectTarget] at htarget
  split at htarget
  · cases htarget
  · next url hparse =>
    split at htarget
    · cases htarget
    · next horigin =>
      cases htarget
      exact ⟨location, url, hfollowed, hparse, Decidable.of_not_not horigin, rfl⟩

def recordOf (L : LowerCasing) (opts : GuardedFetchOptions) (hop : HopInput) (a : HopAnswers) :
    HopRecord := ⟨hop, a, (issueGuardedHop L opts.allowPrivate hop a).1⟩

/-- How the loop goes on behind a hop: it ends with an error, it ends with the response, or it
follows a redirect. -/
theorem runHops_cases (L : LowerCasing) (left n : Nat) (hop : HopInput) :
    (∃ error, runHops L parse opts redirect answers left n hop =
      ⟨[recordOf L opts hop (answers n)], .error error⟩) ∨
    (∃ res, (issueGuardedHop L opts.allowPrivate hop (answers n)).2 = .ok res ∧
      followed redirect res = none ∧ runHops L parse opts redirect answers left n hop =
        ⟨[recordOf L opts hop (answers n)], finish opts redirect hop res⟩) ∨
    ∃ left' res next, left = left' + 1 ∧
      (issueGuardedHop L opts.allowPrivate hop (answers n)).2 = .ok res ∧
      Leads parse redirect hop res next ∧ runHops L parse opts redirect answers left n hop =
        ⟨recordOf L opts hop (answers n) ::
          (runHops L parse opts redirect answers left' (n + 1) next).hops,
          (runHops L parse opts redirect answers left' (n + 1) next).result⟩ := by
  rw [runHops]
  cases hissued : (issueGuardedHop L opts.allowPrivate hop (answers n)).2 with
  | error error => exact .inl ⟨error, rfl⟩
  | ok res =>
    dsimp only
    cases hfollowed : followed redirect res with
    | none => exact .inr (.inl ⟨res, rfl, hfollowed, rfl⟩)
    | some location =>
      cases left with
      | zero => exact .inl ⟨_, rfl⟩
      | succ left =>
        dsimp only
        cases htarget : redirectTarget parse hop res location with
        | error error => exact .inl ⟨error, rfl⟩
        | ok next =>
          exact .inr (.inr ⟨left, res, next, rfl, rfl, ⟨location, hfollowed, htarget⟩, rfl⟩)

/-- How a run goes on behind one of its hops. -/
inductive GoesOn (L : LowerCasing) (parse : JsString → Url → Option Url)
    (opts : GuardedFetchOptions) (redirect : RedirectMode) (left : Nat) (record : HopRecord)
    (post : List HopRecord) (result : Except FetchError FetchResponse) : Prop
  | failed (error) (hpost : post = []) (hresult : result = .error error)
  | answered (res) (hpost : post = [])
      (hissued : (issueGuardedHop L opts.allowPrivate record.input record.answers).2 = .ok res)
      (hfollowed : followed redirect res = none)
      (hresult : result = finish opts redirect record.input res)
  | redirected (res next) (hleft : left ≠ 0) (hpost : post ≠ [])
      (hissued : (issueGuardedHop L opts.allowPrivate record.input record.answers).2 = .ok res)
      (hleads : Leads parse redirect record.input res next)

theorem singleton_split {α : Type} {x y : α} {done post : List α}
    (h : [x] = done ++ y :: post) : done = [] ∧ y = x ∧ post = [] := by
  cases done with
  | nil =>
    cases h
    exact ⟨rfl, rfl, rfl⟩
  | cons z done => exact absurd (List.append_eq_nil_iff.mp (List.cons.inj h).2.symm).2 (by simp)

theorem runHops_ne_nil (left n : Nat) (hop : HopInput) :
    (runHops L parse opts redirect answers left n hop).hops ≠ [] := by
  rcases runHops_cases L left n hop with ⟨_, heq⟩ | ⟨_, -, -, heq⟩ | ⟨_, _, _, -, -, -, heq⟩
  · rw [heq]
    exact List.cons_ne_nil _ _
  · rw [heq]
    exact List.cons_ne_nil _ _
  · rw [heq]
    exact List.cons_ne_nil _ _

/-- Every hop of a run records what it sent and how it went on; and what holds of the first hop
and is handed on by redirects holds of it.  `Inv` sees the hops before. -/
theorem runHops_forall {Inv : List HopRecord → HopInput → Prop}
    (hstep : ∀ done hop a res next, Inv done hop →
      (issueGuardedHop L opts.allowPrivate hop a).2 = .ok res → Leads parse redirect hop res next →
      Inv (done ++ [recordOf L opts hop a]) next)
    {left n : Nat} {before done post : List HopRecord} {record : HopRecord} (h : Inv before hop)
    (hrun : (runHops L parse opts redirect answers left n hop).hops = done ++ record :: post) :
    Inv (before ++ done) record.input ∧ record = recordOf L opts record.input record.answers ∧
      GoesOn L parse opts redirect (left - done.length) record post
        (runHops L parse opts redirect answers left n hop).result := by
  induction left generalizing n hop before done with
  | zero =>
    rcases runHops_cases L 0 n hop with ⟨error, heq⟩ | ⟨res, hissued, hfollowed, heq⟩ |
        ⟨_, _, _, hleft, -⟩
    · rw [heq] at hrun ⊢
      obtain ⟨rfl, rfl, rfl⟩ := singleton_split hrun
      rw [List.append_nil]
      exact ⟨h, rfl, .failed error rfl rfl⟩
    · rw [heq] at hrun ⊢
      obtain ⟨rfl, rfl, rfl⟩ := singleton_split hrun
      rw [List.append_nil]
      exact ⟨h, rfl, .answered res rfl hissued hfollowed rfl⟩
    · cases hleft
  | succ left ih =>
    rcases runHops_cases L (left + 1) n hop with ⟨error, heq⟩ | ⟨res, hissued, hfollowed, heq⟩ |
        ⟨_, res, next, hleft, hissued, hleads, heq⟩
    · rw [heq] at hrun ⊢
      obtain ⟨rfl, rfl, rfl⟩ := singleton_split hrun
      rw [List.append_nil]
      exact ⟨h, rfl, .failed error rfl rfl⟩
    · rw [heq] at hrun ⊢
      obtain ⟨rfl, rfl, rfl⟩ := singleton_split hrun
      rw [List.append_nil]
      exact ⟨h, rfl, .answered res rfl hissued hfollowed rfl⟩
    · cases hleft
      rw [heq] at hrun ⊢
      cases done with
      | nil =>
        obtain ⟨rfl, rfl⟩ := List.cons.inj hrun
        rw [List.append_nil]
        exact ⟨h, rfl, .redirected res next (by simp) (runHops_ne_nil _ _ _) hissued hleads⟩
      | cons first done =>
        obtain ⟨rfl, hrest⟩ := List.cons.inj hrun
        have hnext := ih (hstep _ _ _ _ _ h hissued hleads) hrest
        rw [List.append_assoc] at hnext
        rwa [List.length_cons, Nat.add_sub_add_right]

theorem runHops_length (left n : Nat) (hop : HopInput) :
    (runHops L parse opts redirect answers left n hop).hops.length ≤ left + 1 := by
  induction left generalizing n hop with
  | zero =>
    rcases runHops_cases L 0 n hop with ⟨_, heq⟩ | ⟨_, -, -, heq⟩ | ⟨_, _, _, hleft, -⟩
    · exact (congrArg (fun run : FetchRun => run.hops.length) heq).le
    · exact (congrArg (fun run : FetchRun => run.hops.length) heq).le
    · cases hleft
  | succ left ih =>
    rcases runHops_cases L (left + 1) n hop with ⟨_, heq⟩ | ⟨_, -, -, heq⟩ |
        ⟨_, _, next, hleft, -, -, heq⟩
    · rw [heq]
      exact Nat.succ_le_succ (Nat.zero_le _)
    · rw [heq]
      exact Nat.succ_le_succ (Nat.zero_le _)
    · cases hleft
      rw [heq]
      exact Nat.succ_le_succ (ih _ _)

end

/-! ## Bodies -/

theorem capChunks_le (limit : Nat) (chunks : List Bytes) : ∀ seen, seen ≤ limit →
    seen + (capChunks limit seen chunks).delivered.flatten.length ≤ limit := by
  induction chunks with
  | nil => exact fun seen h => h
  | cons chunk chunks ih =>
    intro seen h
    rw [capChunks]
    split
    · exact h
    · next hle =>
      have hrest := ih (seen + chunk.length) (by omega)
      simp only [List.flatten_cons, List.length_append]
      omega

theorem capChunks_errored (limit : Nat) (chunks : List Bytes) (seen : Nat) :
    ∃ rest, chunks = (capChunks limit seen chunks).delivered ++ rest ∧
      ((capChunks limit seen chunks).errored = false ↔ rest = []) := by
  induction chunks generalizing seen with
  | nil => exact ⟨[], rfl, iff_of_true rfl rfl⟩
  | cons chunk chunks ih =>
    rw [capChunks]
    split
    · exact ⟨chunk :: chunks, rfl, iff_of_false (by decide) (List.cons_ne_nil _ _)⟩
    · obtain ⟨rest, heq, herrored⟩ := ih (seen + chunk.length)
      exact ⟨rest, congrArg (chunk :: ·) heq, herrored⟩

theorem finish_body {opts : GuardedFetchOptions} {redirect : RedirectMode} {hop : HopInput}
    {res : IncomingMessage} {response : FetchResponse} {body : FetchBody}
    (h : finish opts redirect hop res = .ok response) (hbody : response.body = some body) :
    body = capChunks opts.bytes 0 res.chunks := by
  rw [finish] at h
  split at h
  · cases h
  rw [buildResponse] at h
  split at h
  · cases h
  · cases h
    dsimp only at hbody
    split at hbody
    · cases hbody
    · exact (Option.some.inj hbody).symm

/-! ## Every run -/

theorem contentType_of_outHeaders {hop : HopInput}
    (h : contentType ∈ (outHeaders hop).map Prod.fst) : contentType ∈ hop.headers.map Prod.fst := by
  have hset : ∀ {k v : JsString} {headers : HeaderList}, k ≠ contentType →
      contentType ∈ (OrderedMap.set k v headers).map Prod.fst →
      contentType ∈ headers.map Prod.fst := by
    intro k v headers hk hmem
    rw [OrderedMap.keys_set] at hmem
    split at hmem
    · exact hmem
    · rcases List.mem_append.mp hmem with hmem | hmem
      · exact hmem
      · exact absurd (List.mem_singleton.mp hmem).symm hk
  have hpinned : contentType ∈ (OrderedMap.set (ascii "host") hop.url.host
      (hop.headers.filter fun h => h.1 ≠ ascii "host" ∧ h.1 ≠ ascii "accept-encoding")).map
        Prod.fst := by
    rw [outHeaders] at h
    split at h
    · exact hset (by decide) h
    · exact h
  obtain ⟨e, he, hname⟩ := List.mem_map.mp (hset (by decide) hpinned)
  exact List.mem_map.mpr ⟨e, List.mem_of_mem_filter he, hname⟩

/-- No redirect so far has made the request a `GET`. -/
def NoChange (done : List HopRecord) : Prop :=
  ∀ earlier ∈ done, ∀ res, earlier.answers.response = .ok res →
    changesMethod res.status earlier.input.method = false

/-- The hop stays in the origin of the request and has its body and its headers, unless a redirect
has taken the body and its type away. -/
structure OnTheWay (req : NormalizedRequest) (done : List HopRecord) (hop : HopInput) : Prop where
  origin : hop.url.origin = req.url.origin
  body : (NoChange done ∧ hop.method = req.method ∧ hop.headers = req.headers ∧
      hop.body = req.body) ∨
    (hop.body = none ∧ contentType ∉ hop.headers.map Prod.fst)

/-- What is promised of a run. -/
structure SafeRun (L : LowerCasing) (parse : JsString → Url → Option Url)
    (opts : GuardedFetchOptions) (req : NormalizedRequest) (run : FetchRun) : Prop where
  /-- a request goes to a validated target in the origin of the first -/
  validated : ∀ record ∈ run.hops, ∀ request, record.sent = some request →
    record.input.url.protocol = https ∧ record.input.url.origin = req.url.origin ∧
      request = hopRequest record.input request.address ∧
      ∃ addresses, record.answers.lookup = .ok addresses ∧ request.address ∈ addresses ∧
        ∀ address ∈ addresses, isForbiddenIp L address = false
  few : (run.hops.filterMap HopRecord.sent).length ≤ opts.redirects + 1
  /-- the body and its type go only where no redirect has changed the method before -/
  body : ∀ done record post request, run.hops = done ++ record :: post →
    record.sent = some request →
      (request.body ≠ none ∨ contentType ∈ request.headers.map Prod.fst) →
        NoChange done ∧ request.method = req.method ∧ request.body = req.body
  /-- the body is cut off where it gets too long, and ends with an error only then -/
  capped : ∀ response body, run.result = .ok response → response.body = some body →
    body.delivered.flatten.length ≤ opts.bytes ∧ ∃ record ∈ run.hops, ∃ res rest,
      record.answers.response = .ok res ∧ res.chunks = body.delivered ++ rest ∧
        (body.errored = false ↔ rest = [])
  /-- a hop that fails a check sends nothing and rejects -/
  rejected : ∀ record ∈ run.hops,
    (¬ ∃ address, Validated L record.input record.answers address) →
      record.sent = none ∧ ∃ error, run.result = .error error
  /-- a redirect too many, or out of the origin, or to no URL rejects before any other hop -/
  refused : ∀ done record post request res location, run.hops = done ++ record :: post →
    record.sent = some request → record.answers.response = .ok res →
    followed req.redirect res = some location →
    (opts.redirects ≤ done.length ∨
      ¬ ∃ next, parse location record.input.url = some next ∧ next.origin = req.url.origin) →
    post = [] ∧ ∃ error, run.result = .error error

theorem onTheWay_step {L : LowerCasing} {parse : JsString → Url → Option Url}
    {opts : GuardedFetchOptions} (hprivate : opts.allowPrivate = false) {req : NormalizedRequest}
    {done : List HopRecord} {hop next : HopInput} {a : HopAnswers} {res : IncomingMessage}
    (h : OnTheWay req done hop) (hissued : (issueGuardedHop L opts.allowPrivate hop a).2 = .ok res)
    (hleads : Leads parse req.redirect hop res next) :
    OnTheWay req (done ++ [recordOf L opts hop a]) next := by
  obtain ⟨location, url, -, -, horigin, rfl⟩ := hleads.exists_url
  rw [hprivate] at hissued
  have hresponse := response_of_issued hissued
  refine ⟨?_, ?_⟩
  · rw [← h.origin, ← horigin, redirected]
    split
    · rfl
    · rfl
  by_cases hchange : changesMethod res.status hop.method = true
  · rw [redirected, if_pos hchange]
    refine .inr ⟨rfl, fun hmem => ?_⟩
    obtain ⟨e, he, hname⟩ := List.mem_map.mp hmem
    have hne := (List.mem_filter.mp he).2
    rw [decide_eq_true_eq] at hne
    exact hne hname
  · rw [redirected, if_neg hchange]
    rcases h.body with ⟨hdone, hsame⟩ | hgone
    · refine .inl ⟨fun earlier hearlier res' hres' => ?_, hsame⟩
      rcases List.mem_append.mp hearlier with hearlier | hearlier
      · exact hdone earlier hearlier res' hres'
      · rw [List.mem_singleton.mp hearlier] at hres' ⊢
        have heq : res' = res := by
          have hboth : Except.ok res' = Except.ok res := hres'.symm.trans hresponse
          exact Except.ok.inj hboth
        rw [heq]
        exact Bool.eq_false_iff.mpr hchange
    · exact .inr hgone

theorem sent_of_recordOf {L : LowerCasing} {opts : GuardedFetchOptions}
    (hprivate : opts.allowPrivate = false) {hop : HopInput} {a : HopAnswers} {request : HopRequest}
    (h : (recordOf L opts hop a).sent = some request) :
    ∃ address, Validated L hop a address ∧ request = hopRequest hop address := by
  rw [recordOf, hprivate] at h
  rcases issueGuardedHop_cases L hop a with ⟨address, hvalid, heq⟩ | ⟨⟨error, heq⟩, -⟩
  · rw [heq] at h
    cases h
    exact ⟨address, hvalid, rfl⟩
  · rw [heq] at h
    cases h

/-- For every request, every chain of responses and every answer of the name server: the run keeps
what is promised of it. -/
theorem guardedFetch_safe (L : LowerCasing) (parse : JsString → Url → Option Url)
    (opts : GuardedFetchOptions) (hprivate : opts.allowPrivate = false) (req : NormalizedRequest)
    (answers : Nat → HopAnswers) :
    SafeRun L parse opts req (guardedFetch L parse opts req answers) := by
  have hfirst : OnTheWay req [] ⟨req.url, req.method, req.headers, req.body⟩ :=
    ⟨rfl, .inl ⟨fun _ h => absurd h List.not_mem_nil, rfl, rfl, rfl⟩⟩
  have hall : ∀ {done record post},
      (guardedFetch L parse opts req answers).hops = done ++ record :: post →
      OnTheWay req done record.input ∧ record = recordOf L opts record.input record.answers ∧
        GoesOn L parse opts req.redirect (opts.redirects - done.length) record post
          (guardedFetch L parse opts req answers).result := fun h =>
    runHops_forall (fun _ _ _ _ _ h hissued hleads => onTheWay_step hprivate h hissued hleads)
      hfirst h
  have hsplit : ∀ {record}, record ∈ (guardedFetch L parse opts req answers).hops →
      ∃ done post, (guardedFetch L parse opts req answers).hops = done ++ record :: post :=
    fun h => List.append_of_mem h
  refine ⟨?_, ?_, ?_, ?_, ?_, ?_⟩
  · intro record hmem request hsent
    obtain ⟨done, post, heq⟩ := hsplit hmem
    obtain ⟨hway, hrecord, -⟩ := hall heq
    obtain ⟨address, hvalid, rfl⟩ := sent_of_recordOf hprivate (hrecord ▸ hsent)
    obtain ⟨rest, hlookup, hallowed⟩ := hvalid.resolved
    exact ⟨hvalid.secure, hway.origin, rfl, _, hlookup, List.mem_cons_self, hallowed⟩
  · exact (List.length_filterMap_le _ _).trans (runHops_length _ _ _)
  · intro done record post request heq hsent hcarries
    obtain ⟨hway, hrecord, -⟩ := hall heq
    obtain ⟨address, -, rfl⟩ := sent_of_recordOf hprivate (hrecord ▸ hsent)
    rcases hway.body with ⟨hdone, hmethod, -, hbody⟩ | ⟨hbody, htype⟩
    · exact ⟨hdone, hmethod, hbody⟩
    · rcases hcarries with hcarries | hcarries
      · exact absurd hbody hcarries
      · exact absurd (contentType_of_outHeaders hcarries) htype
  · intro response body hresult hbody
    rcases List.eq_nil_or_concat (guardedFetch L parse opts req answers).hops with
      hnil | ⟨done, record, heq⟩
    · exact absurd hnil (runHops_ne_nil _ _ _)
    rw [List.concat_eq_append] at heq
    obtain ⟨-, -, hgoes⟩ := hall heq
    cases hgoes with
    | failed error _ hfailed =>
      rw [hresult] at hfailed
      cases hfailed
    | answered res _ hissued _ hfinish =>
      rw [hprivate] at hissued
      obtain ⟨rest, hchunks, herrored⟩ := capChunks_errored opts.bytes res.chunks 0
      have hle := capChunks_le opts.bytes res.chunks 0 (Nat.zero_le _)
      rw [Nat.zero_add] at hle
      rw [finish_body (hfinish.symm.trans hresult) hbody, heq]
      exact ⟨hle, record, List.mem_append_right _ List.mem_cons_self, res, rest,
        response_of_issued hissued, hchunks, herrored⟩
    | redirected _ _ _ hpost => exact absurd rfl hpost
  · intro record hmem hinvalid
    obtain ⟨done, post, heq⟩ := hsplit hmem
    obtain ⟨-, hrecord, hgoes⟩ := hall heq
    rcases issueGuardedHop_cases L record.input record.answers with
      ⟨address, hvalid, -⟩ | ⟨⟨error, hissued⟩, -⟩
    · exact absurd ⟨address, hvalid⟩ hinvalid
    · have hnone : ∀ res, (issueGuardedHop L opts.allowPrivate record.input record.answers).2 ≠
          .ok res := by
        intro res h
        rw [hprivate, hissued] at h
        cases h
      refine ⟨?_, ?_⟩
      · rw [hrecord, recordOf, hprivate, hissued]
      · cases hgoes with
        | failed error _ hresult => exact ⟨error, hresult⟩
        | answered res _ hres => exact absurd hres (hnone res)
        | redirected res _ _ _ hres => exact absurd hres (hnone res)
  · intro done record post request res location heq hsent hres hfollowed hbad
    obtain ⟨hway, hrecord, hgoes⟩ := hall heq
    have hissued :
        (issueGuardedHop L opts.allowPrivate record.input record.answers).2 = .ok res := by
      rw [hrecord, recordOf] at hsent
      rw [hprivate] at hsent ⊢
      rcases issueGuardedHop_cases L record.input record.answers with
        ⟨address, -, hissued⟩ | ⟨⟨error, hissued⟩, -⟩
      · rw [hissued]
        exact hres
      · rw [hissued] at hsent
        cases hsent
    cases hgoes with
    | failed error hpost hresult => exact ⟨hpost, error, hresult⟩
    | answered res' _ hissued' hnone =>
      rw [hissued] at hissued'
      cases hissued'
      rw [hfollowed] at hnone
      cases hnone
    | redirected res' next hleft _ hissued' hleads =>
      rw [hissued] at hissued'
      cases hissued'
      obtain ⟨location', url, hfollowed', hparse, horigin, -⟩ := hleads.exists_url
      rw [hfollowed] at hfollowed'
      cases hfollowed'
      rcases hbad with hbad | hbad
      · exact absurd (Nat.sub_eq_zero_of_le hbad) hleft
      · exact absurd ⟨url, hparse, horigin.trans hway.origin⟩ hbad

/-! ## A name that changes its address -/

def exampleRequest : NormalizedRequest where
  url := ⟨https, ascii "a.test", [], ascii "a.test", ascii "https://a.test", ascii "/", []⟩
  method := ascii "POST"
  headers := [(contentType, ascii "text/plain")]
  body := some [1, 2, 3]
  redirect := .follow

def exampleOptions : GuardedFetchOptions := ⟨false, none, none⟩

/-- The name resolves to a public address first and to the loopback address then; the peer
redirects to the same target. -/
def rebinding (n : Nat) : HopAnswers where
  lookup := .ok [if n = 0 then ascii "8.8.8.8" else ascii "127.0.0.1"]
  response := .ok ⟨some 307, none, [(ascii "location", [ascii "/"])], []⟩

theorem guardedFetch_safe_rebinding :
    SafeRun asciiCasing (fun _ base => some base) exampleOptions exampleRequest
      (guardedFetch asciiCasing (fun _ base => some base) exampleOptions exampleRequest rebinding) ∧
    (guardedFetch asciiCasing (fun _ base => some base) exampleOptions exampleRequest
      rebinding).hops.map (fun record => record.sent.isSome) = [true, false] :=
  ⟨guardedFetch_safe asciiCasing _ exampleOptions rfl exampleRequest rebinding, by decide +kernel⟩

end InvisibleString.Net
