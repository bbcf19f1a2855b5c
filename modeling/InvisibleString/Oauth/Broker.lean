import InvisibleString.Lib.Transition
import InvisibleString.Oauth.Grant
import Mathlib.Data.List.Nodup

/- # `Oauth.Broker` — everybody who works on one connection's grant

Starts, callbacks, token accesses, edits and the deletion of a connection all read rows, wait for
the network and then write.  A step is one statement or one request; between two steps of one
process the others go on, and a process can end at any point: it returns, throws, or dies.

`getAccessToken` locks the grant's row while it waits (`SELECT … FOR UPDATE`).  Nobody else writes
the row then; readers do not wait.

No clock is modelled: the stamp of a write is the number of the writes before it, so two writes
never have the same one.  States are random, so a start draws one that was not drawn before.
-/

namespace InvisibleString.Oauth

open Json (JsString ascii)
open Transition (Move Trace)

/-! ## Processes -/

structure UpdateConnectionInput where
  url : Option JsString
  /-- the type of the new auth -/
  auth : Option AuthType

/-- The grant ends: the connection leaves oauth. -/
def UpdateConnectionInput.leavingOauth (input : UpdateConnectionInput) : Bool :=
  match input.auth with
  | none => false
  | some auth => auth != .oauth

def UpdateConnectionInput.urlChanging (input : UpdateConnectionInput)
    (existing : ConnectionRow) : Bool :=
  match input.url with
  | none => false
  | some url => url != existing.url

/-- The update has to do with the grant, as far as `existing` says. -/
def UpdateConnectionInput.touchesGrant (input : UpdateConnectionInput)
    (existing : ConnectionRow) : Bool :=
  existing.authType == .oauth && (input.leavingOauth || input.urlChanging existing)

def ConnectionRow.patch (row : ConnectionRow) (input : UpdateConnectionInput) : ConnectionRow :=
  { row with
    url := input.url.getD row.url
    authType := input.auth.getD row.authType }

/-- How far a process is. -/
inductive Proc where
  | idle
  /-- `createConnection` has inserted the connection, its grant row is next -/
  | creating (mode : Option ClientIdentityMode)
  /-- `startOauth` has read the connection -/
  | starting (connection : ConnectionRow) (userId : UserId)
  /-- `armConsentFlow` is at discovery and client identity -/
  | discovering (connection : ConnectionRow) (row : OauthRow) (userId : UserId)
  /-- `handleCallback` has found the flow of its state -/
  | found (connection : ConnectionRow) (oauth : OauthRow) (userId : UserId)
  | permitted (connection : ConnectionRow) (oauth : OauthRow) (userId : UserId)
  | claimed (connection : ConnectionRow) (oauth : OauthRow) (userId : UserId) (claimStamp : Nat)
  /-- the code is at the token endpoint -/
  | exchanging (connection : ConnectionRow) (oauth : OauthRow) (userId : UserId) (claimStamp : Nat)
  /-- a tool step or a probe has read a connection with this URL -/
  | reading (url : JsString)
  /-- about to call `getAccessToken` for a request to this URL -/
  | wanting (url : JsString)
  /-- `getAccessToken` has locked the row -/
  | locked (url : JsString) (row : OauthRow)
  /-- the refresh token is at the token endpoint -/
  | refreshing (url : JsString) (row : OauthRow) (refreshToken : Token)
  /-- has an access token to present at this URL -/
  | holding (url : JsString) (token : Token)
  /-- `updateConnection` has read the connection -/
  | updating (existing : ConnectionRow) (input : UpdateConnectionInput)
  /-- it has loaded the grant and revokes it -/
  | revoking (input : UpdateConnectionInput) (grant : OauthRow)
  | revoked (input : UpdateConnectionInput) (grant : OauthRow)
  /-- the connection's row is next -/
  | patching (input : UpdateConnectionInput)
  /-- `deleteConnection`, with the grant it revokes -/
  | deleting (grant : Option OauthRow)

/-- A state that was drawn, for whom, and the flow armed with it. -/
structure ArmedFlow where
  state : JsString
  startedBy : UserId
  flow : PendingFlow

structure BrokerState where
  connection : Option ConnectionRow
  grant : Option OauthRow
  /-- who holds the lock on the grant's row -/
  lock : Option Nat
  /-- the writes on the grant so far -/
  writes : Nat
  /-- the grant rows so far -/
  ids : Nat
  memberships : Memberships
  procs : Nat → Proc
  /-- the URL each published version was generated with -/
  versions : List JsString
  /-- the flows armed so far; no code reads this, nor the next two -/
  flows : List ArmedFlow
  /-- the states claimed so far -/
  claims : List JsString
  /-- the metadata documents starts have read so far -/
  documents : List FoundDocument

inductive BrokerEvent where
  /-- a process reads, or ends -/
  | quiet
  | rowInserted (p : Nat)
  | armed (p : Nat)
  | startFailed (p : Nat)
  | claimed (p : Nat) (state : JsString) (userId : UserId)
  /-- a request to an authorization server -/
  | sent (endpoint : JsString) (clientSecret : Option ClientSecret)
  | promoted (p : Nat)
  | callbackFailed (p : Nat)
  /-- `getAccessToken` has a token to give -/
  | served (p : Nat)
  | refreshed (p : Nat)
  /-- the grant is retired -/
  | expired (p : Nat)
  /-- a request to an MCP server -/
  | dialed (url : JsString) (token : Token)
  | grantDeleted (p : Nat)
  | grantReset (p : Nat)
  | patched (p : Nat)
  | connectionDeleted (p : Nat)
  | published
  | membershipsChanged
  | userDeleted (userId : UserId)

def BrokerState.setProc (s : BrokerState) (p : Nat) (proc : Proc) : BrokerState :=
  { s with procs := fun q => if q = p then proc else s.procs q }

/-- `UPDATE connection_oauth SET … WHERE …`, on the one row there is. -/
def BrokerState.update (s : BrokerState) (row : OauthRow → Bool) (set : OauthRow → OauthRow) :
    BrokerState :=
  { s with
    grant := s.grant.map fun grant => if row grant then set grant else grant
    writes := s.writes + 1 }

def BrokerState.insertGrant (s : BrokerState) (mode : Option ClientIdentityMode) : BrokerState :=
  { s with
    grant := some (.inserted s.ids s.writes mode)
    writes := s.writes + 1
    ids := s.ids + 1 }

/-- The references to a user are cleared with the user; this stamps no row. -/
def OauthRow.forgetUser (row : OauthRow) (userId : UserId) : OauthRow :=
  { row with
    pendingStartedBy := row.pendingStartedBy.filter (· ≠ userId)
    connectedBy := row.connectedBy.filter (· ≠ userId) }

/-! ## Steps -/

section

variable (P : Platform)

def BrokerEnv.identityDeps (env : BrokerEnv) : ClientIdentityDeps where
  publicAppUrl := env.publicAppUrl
  publicAppUrlIsPublic := env.publicAppUrlIsPublic
  preregisteredClients := env.preregisteredClients
  opensEnvelopes := env.opensEnvelopes

/-- The environment is one that a process booted with. -/
def BrokerEnv.Booted (env : BrokerEnv) : Prop :=
  ∃ vars, loadOauthClientRegistrations P vars = .ok env.preregisteredClients

/-- What `armConsentFlow` has to write: what it discovered, and what it stages. -/
inductive Staged (env : BrokerEnv) (connection : ConnectionRow) (row : OauthRow) :
    OauthDiscovery → PendingFlow → Prop
  | mk {answers : Answers} {reply : RegistrationReply} {discovery : OauthDiscovery}
      {resolved : ResolvedClientIdentity × Option Client} :
      discoverOauth P.parseUrl answers connection.url = .ok discovery →
      resolveClientIdentity P env.identityDeps discovery row.client
        (identityContext env.catalog connection) reply = .ok resolved →
      Staged env connection row discovery (stageFlow connection row discovery resolved)

/-- Steps that leave all rows as they are: process `p` reads or sends, and is then at a new
phase. -/
inductive Reads (s : BrokerState) : Nat → BrokerEvent → Proc → Prop
  | startReads {p : Nat} {connection : ConnectionRow} (userId : UserId) : s.procs p = .idle →
      s.connection = some connection → connection.authType = .oauth →
      Reads s p .quiet (.starting connection userId)
  | startFinds {p : Nat} {connection : ConnectionRow} {userId : UserId} {row : OauthRow} :
      s.procs p = .starting connection userId → s.grant = some row →
      Reads s p .quiet (.discovering connection row userId)
  | callbackFinds {p : Nat} {connection : ConnectionRow} {oauth : OauthRow} {state : JsString}
      (userId : UserId) : s.procs p = .idle → s.connection = some connection →
      s.grant = some oauth → oauth.pendingState = some state →
      Reads s p .quiet (.found connection oauth userId)
  | callbackPermitted {p : Nat} {connection : ConnectionRow} {oauth : OauthRow} {userId : UserId} :
      s.procs p = .found connection oauth userId →
      mayManageConnection s.memberships userId connection = true →
      (oauth.pendingStartedBy = none ∨ oauth.pendingStartedBy = some userId) →
      Reads s p .quiet (.permitted connection oauth userId)
  | exchanges {p : Nat} {connection : ConnectionRow} {oauth : OauthRow} {userId : UserId}
      {claimStamp expiresAt now : Nat} {env : BrokerEnv} {query : OauthCallbackQuery}
      {input : ExchangeInput} : s.procs p = .claimed connection oauth userId claimStamp →
      oauth.pendingExpiresAt = some expiresAt → now < expiresAt →
      exchangeInput P.parseUrl env oauth query = .ok input →
      Reads s p (.sent input.tokenEndpoint input.clientSecret)
        (.exchanging connection oauth userId claimStamp)
  | connectionRead {p : Nat} {connection : ConnectionRow} : s.procs p = .idle →
      s.connection = some connection → connection.authType = .oauth →
      Reads s p .quiet (.reading connection.url)
  | statusRead {p : Nat} {url : JsString} {row : OauthRow} : s.procs p = .reading url →
      s.grant = some row → row.status ≠ .pending → Reads s p .quiet (.wanting url)
  | versionRequests {p : Nat} {url : JsString} : s.procs p = .idle → url ∈ s.versions →
      Reads s p .quiet (.wanting url)
  | refreshes {p : Nat} {url : JsString} {row : OauthRow} {env : BrokerEnv} {now : Nat}
      {input : RefreshInput} : s.procs p = .locked url row →
      accessPlan env row now = .refresh input →
      Reads s p (.sent input.tokenEndpoint input.clientSecret)
        (.refreshing url row input.refreshToken)
  | dials {p : Nat} {url : JsString} {token : Token} : s.procs p = .holding url token →
      Reads s p (.dialed url token) (.holding url token)
  | updateReads {p : Nat} {connection : ConnectionRow} (input : UpdateConnectionInput) :
      s.procs p = .idle → s.connection = some connection →
      (connection.source = .custom ∨ input.url = none) →
      Reads s p .quiet (.updating connection input)
  | updatePasses {p : Nat} {existing : ConnectionRow} {input : UpdateConnectionInput} :
      s.procs p = .updating existing input →
      (input.touchesGrant existing = false ∨ s.grant = none) →
      Reads s p .quiet (.patching input)
  | updateLoads {p : Nat} {existing : ConnectionRow} {input : UpdateConnectionInput}
      {grant : OauthRow} : s.procs p = .updating existing input →
      input.touchesGrant existing = true → s.grant = some grant →
      Reads s p .quiet (.revoking input grant)
  | updateRevokes {p : Nat} {input : UpdateConnectionInput} {grant : OauthRow} {env : BrokerEnv}
      {request : RevocationRequest} : s.procs p = .revoking input grant →
      revocationRequest env grant = some request →
      Reads s p (.sent request.revocationEndpoint request.clientSecret) (.revoked input grant)
  | updateCannotRevoke {p : Nat} {input : UpdateConnectionInput} {grant : OauthRow}
      {env : BrokerEnv} : s.procs p = .revoking input grant →
      revocationRequest env grant = none → Reads s p .quiet (.revoked input grant)
  | deleteReads {p : Nat} {connection : ConnectionRow} : s.procs p = .idle →
      s.connection = some connection →
      Reads s p .quiet (.deleting (if connection.authType = .oauth then s.grant else none))
  | deleteRevokes {p : Nat} {grant : OauthRow} {env : BrokerEnv} {request : RevocationRequest} :
      s.procs p = .deleting (some grant) → revocationRequest env grant = some request →
      Reads s p (.sent request.revocationEndpoint request.clientSecret) (.deleting none)

/-- One step of the processes, of the users and their memberships. -/
inductive Step : BrokerState → BrokerEvent → BrokerState → Prop
  | reads {s : BrokerState} {p : Nat} {e : BrokerEvent} {proc : Proc} : Reads P s p e proc →
      Step s e (s.setProc p proc)
  /-- the process returns, throws or dies; a lock it holds is released -/
  | ends {s : BrokerState} (p : Nat) :
      Step s .quiet { s.setProc p .idle with lock := s.lock.filter (· ≠ p) }
  | createInserts {s : BrokerState} {p : Nat} {mode : Option ClientIdentityMode} :
      s.procs p = .creating mode → s.connection ≠ none → s.grant = none →
      Step s (.rowInserted p) ((s.insertGrant mode).setProc p .idle)
  | startInserts {s : BrokerState} {p : Nat} {connection : ConnectionRow} {userId : UserId} :
      s.procs p = .starting connection userId → s.connection ≠ none → s.grant = none →
      Step s (.rowInserted p) ((s.insertGrant none).setProc p
        (.discovering connection (.inserted s.ids s.writes none) userId))
  | arms {s : BrokerState} {p : Nat} {connection : ConnectionRow} {row : OauthRow}
      {userId : UserId} {env : BrokerEnv} {discovery : OauthDiscovery} {flow : PendingFlow}
      {nonces : FlowNonces} : s.procs p = .discovering connection row userId → s.lock = none →
      env.Booted P → Staged P env connection row discovery flow →
      nonces.state ∉ s.flows.map ArmedFlow.state →
      Step s (.armed p)
        { (s.update (·.id == row.id)
            (·.arm s.writes row flow discovery nonces userId)).setProc p .idle with
          flows := ⟨nonces.state, userId, flow⟩ :: s.flows
          documents := discovery.document :: s.documents }
  | startFails {s : BrokerState} {p : Nat} {connection : ConnectionRow} {row : OauthRow}
      {userId : UserId} (code : JsString) : s.procs p = .discovering connection row userId →
      s.lock = none →
      Step s (.startFailed p)
        ((s.update (·.id == row.id) (·.recordFailure s.writes none code)).setProc p .idle)
  | claims {s : BrokerState} {p : Nat} {connection : ConnectionRow} {oauth grant : OauthRow}
      {userId : UserId} {state : JsString} : s.procs p = .permitted connection oauth userId →
      s.lock = none → oauth.pendingState = some state → s.grant = some grant →
      grant.id = oauth.id → grant.pendingState = some state →
      Step s (.claimed p state userId)
        { (s.update (fun _ => true) (·.claim s.writes)).setProc p
            (.claimed connection oauth userId s.writes) with
          claims := state :: s.claims }
  | promotes {s : BrokerState} {p : Nat} {connection : ConnectionRow} {oauth grant : OauthRow}
      {userId : UserId} {claimStamp : Nat} (tokens : TokenResponse) (now : Nat) :
      s.procs p = .exchanging connection oauth userId claimStamp → s.lock = none →
      s.grant = some grant → grant.id = oauth.id → grant.updatedAt = claimStamp →
      Step s (.promoted p)
        ((s.update (fun _ => true)
          (·.promote s.writes oauth connection tokens userId now)).setProc p
            (if connection.authType = .oauth then .reading connection.url else .idle))
  | callbackStops {s : BrokerState} {p : Nat} {connection : ConnectionRow}
      {oauth grant : OauthRow} {userId : UserId} {claimStamp expiresAt now : Nat}
      {env : BrokerEnv} {query : OauthCallbackQuery} {code : JsString} :
      s.procs p = .claimed connection oauth userId claimStamp → s.lock = none →
      oauth.pendingExpiresAt = some expiresAt → now < expiresAt →
      exchangeInput P.parseUrl env oauth query = .error code →
      s.grant = some grant → grant.id = oauth.id → grant.updatedAt = claimStamp →
      Step s (.callbackFailed p)
        ((s.update (fun _ => true)
          (·.recordFailure s.writes (callbackFailureStatus oauth) code)).setProc p .idle)
  | exchangeFails {s : BrokerState} {p : Nat} {connection : ConnectionRow}
      {oauth grant : OauthRow} {userId : UserId} {claimStamp : Nat} (code : JsString) :
      s.procs p = .exchanging connection oauth userId claimStamp → s.lock = none →
      s.grant = some grant → grant.id = oauth.id → grant.updatedAt = claimStamp →
      Step s (.callbackFailed p)
        ((s.update (fun _ => true)
          (·.recordFailure s.writes (callbackFailureStatus oauth) code)).setProc p .idle)
  | locks {s : BrokerState} {p : Nat} {url : JsString} {row : OauthRow} :
      s.procs p = .wanting url → s.lock = none → s.grant = some row →
      Step s .quiet { s.setProc p (.locked url row) with lock := some p }
  | getsStored {s : BrokerState} {p : Nat} {url : JsString} {row : OauthRow} {env : BrokerEnv}
      {now : Nat} {token : Token} : s.procs p = .locked url row →
      accessPlan env row now = .stored token →
      Step s (.served p) { s.setProc p (.holding url token) with lock := none }
  | findsNoMaterial {s : BrokerState} {p : Nat} {url : JsString} {row : OauthRow}
      {env : BrokerEnv} {now : Nat} : s.procs p = .locked url row →
      accessPlan env row now = .noRefreshMaterial →
      Step s (.expired p)
        { (s.update (·.id == row.id)
            (·.markExpired s.writes (ascii "no_refresh_material"))).setProc p .idle with
          lock := none }
  | refreshSucceeds {s : BrokerState} {p : Nat} {url : JsString} {row : OauthRow}
      {refreshToken : Token} (refreshed : TokenResponse) (now : Nat) :
      s.procs p = .refreshing url row refreshToken →
      Step s (.refreshed p)
        { (s.update (·.id == row.id)
            (·.refresh s.writes refreshToken.consent refreshed now)).setProc p
              (.holding url ⟨refreshed.accessToken, refreshToken.consent⟩) with
          lock := none }
  | refreshRejected {s : BrokerState} {p : Nat} {url : JsString} {row : OauthRow}
      {refreshToken : Token} (code : JsString) : s.procs p = .refreshing url row refreshToken →
      Step s (.expired p)
        { (s.update (·.id == row.id) (·.markExpired s.writes code)).setProc p .idle with
          lock := none }
  | updateDeletes {s : BrokerState} {p : Nat} {input : UpdateConnectionInput}
      {grant : OauthRow} : s.procs p = .revoked input grant → input.leavingOauth = true →
      s.lock = none →
      Step s (.grantDeleted p)
        { s.setProc p (.patching input) with grant := s.grant.filter (·.id != grant.id) }
  | updateResets {s : BrokerState} {p : Nat} {input : UpdateConnectionInput}
      {grant : OauthRow} : s.procs p = .revoked input grant → input.leavingOauth = false →
      s.lock = none →
      Step s (.grantReset p)
        ((s.update (·.id == grant.id) (·.reset s.writes)).setProc p (.patching input))
  | patches {s : BrokerState} {p : Nat} {input : UpdateConnectionInput}
      {connection : ConnectionRow} : s.procs p = .patching input →
      s.connection = some connection →
      Step s (.patched p)
        { s.setProc p .idle with connection := some (connection.patch input) }
  | deletes {s : BrokerState} {p : Nat} {grant : Option OauthRow} :
      s.procs p = .deleting grant → s.lock = none →
      Step s (.connectionDeleted p) { s.setProc p .idle with connection := none, grant := none }
  /-- the connection is compiled into a version -/
  | publishes {s : BrokerState} {connection : ConnectionRow} : s.connection = some connection →
      connection.authType = .oauth →
      Step s .published { s with versions := connection.url :: s.versions }
  | membershipsChange {s : BrokerState} (memberships : Memberships) :
      Step s .membershipsChanged { s with memberships }
  | userIsDeleted {s : BrokerState} (userId : UserId) : s.lock = none →
      Step s (.userDeleted userId) { s with grant := s.grant.map (·.forgetUser userId) }

end

/-- The connection is inserted: nobody works on it, but for its creation, which may have its
grant's row still to insert. -/
structure BrokerState.Initial (s : BrokerState) : Prop where
  procs : ∀ p, s.procs p = .idle ∨ ∃ mode, s.procs p = .creating mode
  grant : s.grant = none
  lock : s.lock = none
  versions : s.versions = []
  flows : s.flows = []
  claims : s.claims = []
  documents : s.documents = []

/-! ## What every run keeps -/

/-- What is armed on the row, a start has armed. -/
structure Known (s : BrokerState) (row : OauthRow) : Prop where
  id : row.id < s.ids
  stamp : row.updatedAt < s.writes
  armed : ∀ state, row.pendingState = some state → ∃ flow ∈ s.flows,
    flow.state = state ∧ row.pendingFlow = some flow.flow ∧
      ∀ userId, row.pendingStartedBy = some userId → userId = flow.startedBy

/-- What holds of a process at each phase. -/
def ProcKnown (s : BrokerState) (p : Nat) : Proc → Prop
  | .discovering _ row _ => Known s row
  | .found _ oauth _ | .permitted _ oauth _ => Known s oauth ∧ oauth.pendingState ≠ none
  | .claimed _ oauth _ stamp | .exchanging _ oauth _ stamp =>
    Known s oauth ∧ oauth.pendingState ≠ none ∧ stamp < s.writes
  | .locked _ row => s.lock = some p ∧ s.grant = some row
  | .refreshing _ row token => s.lock = some p ∧ s.grant = some row ∧ row.refreshToken = some token
  | _ => True

/-- Rows, snapshots and locks. -/
structure BrokerInv (s : BrokerState) : Prop where
  grant : ∀ row, s.grant = some row → Known s row
  procs : ∀ p, ProcKnown s p (s.procs p)
  states : (s.flows.map ArmedFlow.state).Nodup

section

variable {P : Platform} {s s' : BrokerState} {p : Nat} {proc : Proc}

/-- Nothing that was drawn or recorded is taken back. -/
structure Grows (s s' : BrokerState) : Prop where
  ids : s.ids ≤ s'.ids
  writes : s.writes ≤ s'.writes
  flows : ∀ flow ∈ s.flows, flow ∈ s'.flows

theorem Grows.same (hids : s'.ids = s.ids) (hwrites : s'.writes = s.writes)
    (hflows : s'.flows = s.flows) : Grows s s' := by
  refine ⟨hids.ge, hwrites.ge, fun flow hflow => ?_⟩
  rw [hflows]
  exact hflow

/-- One write more. -/
theorem Grows.written (hids : s'.ids = s.ids) (hwrites : s'.writes = s.writes + 1)
    (hflows : s'.flows = s.flows) : Grows s s' := by
  refine ⟨hids.ge, ?_, fun flow hflow => ?_⟩
  · rw [hwrites]
    exact Nat.le_succ _
  · rw [hflows]
    exact hflow

theorem Known.mono {row : OauthRow} (h : Known s row) (hgrows : Grows s s') : Known s' row := by
  refine ⟨h.id.trans_le hgrows.ids, h.stamp.trans_le hgrows.writes, ?_⟩
  intro state hstate
  obtain ⟨flow, hflow, hrest⟩ := h.armed state hstate
  exact ⟨flow, hgrows.flows flow hflow, hrest⟩

theorem Known.written {row row' : OauthRow} (h : Known s row) (hgrows : Grows s s')
    (hid : row'.id = row.id) (hstamp : row'.updatedAt < s'.writes)
    (hpending : row'.pendingState = none ∨ (row'.pendingState = row.pendingState ∧
      row'.pendingFlow = row.pendingFlow ∧ row'.pendingStartedBy = row.pendingStartedBy)) :
    Known s' row' := by
  refine ⟨?_, hstamp, ?_⟩
  · rw [hid]
    exact h.id.trans_le hgrows.ids
  · intro state hstate
    rcases hpending with hnone | ⟨hsame, hflow, hstarted⟩
    · rw [hnone] at hstate
      cases hstate
    · rw [hsame] at hstate
      rw [hflow, hstarted]
      exact (h.mono hgrows).armed state hstate

theorem ProcKnown.mono {q : Nat} (h : ProcKnown s q proc) (hgrows : Grows s s')
    (hlock : ∀ row, s.lock = some q → s.grant = some row → s'.lock = some q ∧ s'.grant = some row) :
    ProcKnown s' q proc := by
  cases proc with
  | discovering _ row _ => exact Known.mono h hgrows
  | found _ oauth _ => exact ⟨Known.mono h.1 hgrows, h.2⟩
  | permitted _ oauth _ => exact ⟨Known.mono h.1 hgrows, h.2⟩
  | claimed _ oauth _ stamp => exact ⟨Known.mono h.1 hgrows, h.2.1, h.2.2.trans_le hgrows.writes⟩
  | exchanging _ oauth _ stamp =>
    exact ⟨Known.mono h.1 hgrows, h.2.1, h.2.2.trans_le hgrows.writes⟩
  | locked _ row =>
    exact hlock row h.1 h.2
  | refreshing _ row token =>
    obtain ⟨hheld, hgrant⟩ := hlock row h.1 h.2.1
    exact ⟨hheld, hgrant, h.2.2⟩
  | _ => trivial

theorem procs_of_others {Q : Nat → Proc → Prop} (hp : Q p proc)
    (hothers : ∀ q, q ≠ p → Q q (s.procs q)) (hprocs : s'.procs = (s.setProc p proc).procs) (q : Nat) :
    Q q (s'.procs q) := by
  rw [hprocs]
  show Q q (if q = p then proc else s.procs q)
  split
  · rename_i hq
    rw [hq]
    exact hp
  · rename_i hq
    exact hothers q hq

theorem BrokerInv.after (h : BrokerInv s) (hgrows : Grows s s')
    (hprocs : s'.procs = (s.setProc p proc).procs) (hproc : ProcKnown s' p proc)
    (hlock : ∀ q, q ≠ p → ∀ row, s.lock = some q → s.grant = some row →
      s'.lock = some q ∧ s'.grant = some row)
    (hgrant : ∀ row, s'.grant = some row → Known s' row)
    (hstates : s'.flows = s.flows) : BrokerInv s' := by
  refine ⟨hgrant, procs_of_others hproc (fun q hq => ?_) hprocs, ?_⟩
  · exact (h.procs q).mono hgrows (hlock q hq)
  · rw [hstates]
    exact h.states

theorem update_grant {row : OauthRow → Bool} {set : OauthRow → OauthRow} {Q : OauthRow → Prop}
    (hset : ∀ grant, s.grant = some grant → row grant = true → Q (set grant))
    (hkeep : ∀ grant, s.grant = some grant → row grant = false → Q grant) :
    ∀ grant, (s.update row set).grant = some grant → Q grant := by
  intro grant hgrant
  obtain ⟨before, hbefore, rfl⟩ := Option.map_eq_some_iff.mp hgrant
  split
  · rename_i hrow
    exact hset before hbefore hrow
  · rename_i hrow
    exact hkeep before hbefore (Bool.not_eq_true _ ▸ hrow)

theorem Known.inserted {mode : Option ClientIdentityMode} :
    Known (s.insertGrant mode) (.inserted s.ids s.writes mode) where
  id := Nat.lt_succ_self _
  stamp := Nat.lt_succ_self _
  armed := nofun

theorem Reads.known {e : BrokerEvent} (h : Reads P s p e proc) (hinv : BrokerInv s) :
    ProcKnown (s.setProc p proc) p proc := by
  have hgrows : Grows s (s.setProc p proc) := .same rfl rfl rfl
  have hproc := hinv.procs p
  cases h with
  | startFinds _ hgrant => exact (hinv.grant _ hgrant).mono hgrows
  | callbackFinds _ _ _ hgrant hstate =>
    refine ⟨(hinv.grant _ hgrant).mono hgrows, ?_⟩
    rw [hstate]
    exact Option.some_ne_none _
  | callbackPermitted hp _ _ =>
    rw [hp] at hproc
    exact ⟨hproc.1.mono hgrows, hproc.2⟩
  | exchanges hp _ _ _ =>
    rw [hp] at hproc
    exact ⟨hproc.1.mono hgrows, hproc.2.1, hproc.2.2⟩
  | refreshes hp hplan =>
    rw [hp] at hproc
    refine ⟨hproc.1, hproc.2, ?_⟩
    exact (accessPlan_refresh hplan).1
  | _ => trivial

/-- While the lock is free, or is the process' own, nobody else relies on the row. -/
theorem no_other_lock (hlock : s.lock = none ∨ s.lock = some p) :
    ∀ q, q ≠ p → ∀ row, s.lock = some q → s.grant = some row →
      s'.lock = some q ∧ s'.grant = some row := by
  intro q hq row hheld _
  rcases hlock with hfree | hown
  · rw [hfree] at hheld
    cases hheld
  · rw [hown] at hheld
    exact absurd (Option.some.inj hheld).symm hq

/-- A write on the row by process `p`, while nobody else holds the lock. -/
theorem BrokerInv.update (h : BrokerInv s) {row : OauthRow → Bool} {set : OauthRow → OauthRow}
    (hlock : s.lock = none ∨ s.lock = some p) (hprocs : s'.procs = (s.setProc p proc).procs)
    (hgrant : s'.grant = (s.update row set).grant) (hgrows : Grows s s')
    (hflows : s'.flows = s.flows) (hproc : ProcKnown s' p proc)
    (hset : ∀ grant, s.grant = some grant → row grant = true → Known s' (set grant)) :
    BrokerInv s' := by
  refine h.after hgrows hprocs hproc (no_other_lock hlock) ?_ hflows
  rw [hgrant]
  exact update_grant hset fun grant hsome _ => (h.grant grant hsome).mono hgrows

theorem BrokerInv.step {e : BrokerEvent} (h : BrokerInv s) (hstep : Step P s e s') :
    BrokerInv s' := by
  cases hstep with
  | @reads p e proc hreads =>
    exact h.after (.same rfl rfl rfl) rfl (hreads.known h) (fun q _ row hq hrow => ⟨hq, hrow⟩)
      (fun row hrow => (h.grant row hrow).mono (.same rfl rfl rfl)) rfl
  | ends p =>
    refine h.after (.same rfl rfl rfl) (rfl : _ = (s.setProc p .idle).procs) trivial ?_
      (fun row hrow => (h.grant row hrow).mono (.same rfl rfl rfl)) rfl
    intro q hq row hheld hrow
    refine ⟨?_, hrow⟩
    show s.lock.filter (· ≠ p) = some q
    rw [hheld]
    simp [Option.filter, hq]
  | createInserts hp hconnection hnone =>
    refine h.after ⟨Nat.le_succ _, Nat.le_succ _, fun flow hflow => hflow⟩ rfl trivial ?_ ?_ rfl
    · intro q _ row _ hrow
      rw [hnone] at hrow
      cases hrow
    · intro row hrow
      cases hrow
      exact Known.inserted.mono (.same rfl rfl rfl)
  | startInserts hp hconnection hnone =>
    have hinserted := @Known.inserted s none
    refine h.after ⟨Nat.le_succ _, Nat.le_succ _, fun flow hflow => hflow⟩ rfl
      (hinserted.mono (.same rfl rfl rfl)) ?_ ?_ rfl
    · intro q _ row _ hrow
      rw [hnone] at hrow
      cases hrow
    · intro row hrow
      cases hrow
      exact hinserted.mono (.same rfl rfl rfl)
  | @arms p connection row userId env discovery flow nonces hp hfree _ _ hfresh =>
    have hgrows : Grows s
        { (s.update (·.id == row.id)
            (·.arm s.writes row flow discovery nonces userId)).setProc p .idle with
          flows := ⟨nonces.state, userId, flow⟩ :: s.flows
          documents := discovery.document :: s.documents } :=
      ⟨le_rfl, Nat.le_succ _, fun flow hflow => List.mem_cons_of_mem _ hflow⟩
    refine ⟨?_, procs_of_others (show ProcKnown _ p .idle from trivial) (fun q hq => ?_)
      rfl, ?_⟩
    · refine update_grant (fun grant hsome _ => ?_) fun grant hsome _ =>
        (h.grant grant hsome).mono hgrows
      refine ⟨(h.grant grant hsome).id, Nat.lt_succ_self _, ?_⟩
      intro state hstate
      cases hstate
      refine ⟨_, List.mem_cons_self, rfl, rfl, ?_⟩
      intro started hstarted
      exact (Option.some.inj hstarted).symm
    · exact (h.procs q).mono hgrows (no_other_lock (Or.inl hfree) q hq)
    · exact List.nodup_cons.mpr ⟨hfresh, h.states⟩
  | startFails code hp hfree =>
    refine h.update (Or.inl hfree) rfl rfl (.written rfl rfl rfl) rfl trivial ?_
    intro grant hsome _
    exact (h.grant grant hsome).written (.written rfl rfl rfl) rfl (Nat.lt_succ_self _)
      (Or.inr ⟨rfl, rfl, rfl⟩)
  | @claims p connection oauth grant userId state hp hfree hstate hgrant hid hsame =>
    have hproc := h.procs p
    rw [hp] at hproc
    have hgrows : Grows s
        { (s.update (fun _ => true) (·.claim s.writes)).setProc p
            (.claimed connection oauth userId s.writes) with
          claims := state :: s.claims } := .written rfl rfl rfl
    refine h.update (Or.inl hfree) rfl rfl hgrows rfl
      ⟨hproc.1.mono hgrows, hproc.2, Nat.lt_succ_self _⟩ ?_
    intro grant hsome _
    exact (h.grant grant hsome).written hgrows rfl (Nat.lt_succ_self _) (Or.inl rfl)
  | @promotes p connection oauth grant userId stamp tokens now hp hfree hgrant hid hstamp =>
    refine h.update (Or.inl hfree) rfl rfl (.written rfl rfl rfl) rfl ?_ ?_
    · split <;> trivial
    · intro grant hsome _
      exact (h.grant grant hsome).written (.written rfl rfl rfl) rfl (Nat.lt_succ_self _)
        (Or.inr ⟨rfl, rfl, rfl⟩)
  | callbackStops hp hfree _ _ _ _ _ _ | exchangeFails code hp hfree _ _ _ =>
    refine h.update (Or.inl hfree) rfl rfl (.written rfl rfl rfl) rfl trivial ?_
    intro grant hsome _
    exact (h.grant grant hsome).written (.written rfl rfl rfl) rfl (Nat.lt_succ_self _)
      (Or.inr ⟨rfl, rfl, rfl⟩)
  | @locks p url row hp hfree hgrant =>
    exact h.after (.same rfl rfl rfl) rfl ⟨rfl, hgrant⟩ (no_other_lock (Or.inl hfree))
      (fun row hrow => (h.grant row hrow).mono (.same rfl rfl rfl)) rfl
  | @getsStored p url row env now token hp hplan =>
    have hproc := h.procs p
    rw [hp] at hproc
    exact h.after (.same rfl rfl rfl) rfl trivial (no_other_lock (Or.inr hproc.1))
      (fun row hrow => (h.grant row hrow).mono (.same rfl rfl rfl)) rfl
  | @findsNoMaterial p url row env now hp hplan =>
    have hproc := h.procs p
    rw [hp] at hproc
    refine h.update (Or.inr hproc.1) rfl rfl (.written rfl rfl rfl) rfl trivial ?_
    intro grant hsome _
    exact (h.grant grant hsome).written (.written rfl rfl rfl) rfl (Nat.lt_succ_self _)
      (Or.inr ⟨rfl, rfl, rfl⟩)
  | @refreshSucceeds p url row refreshToken refreshed now hp =>
    have hproc := h.procs p
    rw [hp] at hproc
    refine h.update (Or.inr hproc.1) rfl rfl (.written rfl rfl rfl) rfl trivial ?_
    intro grant hsome _
    exact (h.grant grant hsome).written (.written rfl rfl rfl) rfl (Nat.lt_succ_self _)
      (Or.inr ⟨rfl, rfl, rfl⟩)
  | @refreshRejected p url row refreshToken code hp =>
    have hproc := h.procs p
    rw [hp] at hproc
    refine h.update (Or.inr hproc.1) rfl rfl (.written rfl rfl rfl) rfl trivial ?_
    intro grant hsome _
    exact (h.grant grant hsome).written (.written rfl rfl rfl) rfl (Nat.lt_succ_self _)
      (Or.inr ⟨rfl, rfl, rfl⟩)
  | updateDeletes hp _ hfree =>
    refine h.after (.same rfl rfl rfl) rfl trivial (no_other_lock (Or.inl hfree)) ?_ rfl
    intro row hrow
    exact (h.grant row (Option.filter_eq_some_iff.mp hrow).1).mono (.same rfl rfl rfl)
  | updateResets hp _ hfree =>
    refine h.update (Or.inl hfree) rfl rfl (.written rfl rfl rfl) rfl trivial ?_
    intro grant hsome _
    exact (h.grant grant hsome).written (.written rfl rfl rfl) rfl (Nat.lt_succ_self _) (Or.inl rfl)
  | patches hp hconnection =>
    exact h.after (.same rfl rfl rfl) rfl trivial (fun q _ row hq hrow => ⟨hq, hrow⟩)
      (fun row hrow => (h.grant row hrow).mono (.same rfl rfl rfl)) rfl
  | deletes hp hfree =>
    refine h.after (.same rfl rfl rfl) rfl trivial (no_other_lock (Or.inl hfree)) ?_ rfl
    intro row hrow
    cases hrow
  | publishes _ _ | membershipsChange _ =>
    refine ⟨fun row hrow => (h.grant row hrow).mono (.same rfl rfl rfl), fun q => ?_, h.states⟩
    exact (h.procs q).mono (.same rfl rfl rfl) fun row hq hrow => ⟨hq, hrow⟩
  | userIsDeleted userId hfree =>
    refine ⟨fun row hrow => ?_, fun q => ?_, h.states⟩
    · obtain ⟨before, hbefore, rfl⟩ := Option.map_eq_some_iff.mp hrow
      have hknown := h.grant before hbefore
      refine ⟨hknown.id, hknown.stamp, fun state hstate => ?_⟩
      obtain ⟨flow, hflow, hsame, hpending, hstarted⟩ := hknown.armed state hstate
      refine ⟨flow, hflow, hsame, hpending, fun started hkept => ?_⟩
      exact hstarted started (Option.filter_eq_some_iff.mp hkept).1
    · refine (h.procs q).mono (.same rfl rfl rfl) fun row hq _ => ?_
      rw [hfree] at hq
      cases hq

theorem BrokerState.Initial.inv (h : s.Initial) : BrokerInv s := by
  refine ⟨fun row hrow => ?_, fun p => ?_, ?_⟩
  · rw [h.grant] at hrow
    cases hrow
  · rcases h.procs p with hp | ⟨mode, hp⟩
    · rw [hp]
      trivial
    · rw [hp]
      trivial
  · rw [h.flows]
    exact List.nodup_nil

end

/-! ## A connection and its authorization server -/

/-- `new URL` on a few https URLs: origin and path. -/
def readUrls (urls : List (JsString × JsString)) (raw : JsString) : Option Url :=
  (urls.find? fun url =>
    raw == url.1 ++ url.2 || (url.2 == ascii "/" && raw == url.1)).map fun url =>
    { protocol := ascii "https:"
      username := []
      password := []
      hostname := url.1.drop 8
      origin := url.1
      pathname := url.2
      search := []
      hash := [] }

def sampleUrls : List (JsString × JsString) :=
  [(ascii "https://mcp.example", ascii "/mcp"), (ascii "https://auth.example", ascii "/"),
    (ascii "https://auth.example", ascii "/authorize"),
    (ascii "https://auth.example", ascii "/token"),
    (ascii "https://auth.example", ascii "/register")]

def samplePlatform : Platform where
  parseUrl := readUrls sampleUrls
  toLowerCase := id
  toUpperCase := id
  localeLe _ _ := true

def sampleMetadata : AsMetadata where
  issuer := ascii "https://auth.example"
  authorizationEndpoint := ascii "https://auth.example/authorize"
  tokenEndpoint := ascii "https://auth.example/token"
  registrationEndpoint := some (ascii "https://auth.example/register")
  revocationEndpoint := none
  scopesSupported := none
  codeChallengeMethodsSupported := some [ascii "S256"]
  clientIdMetadataDocumentSupported := none
  authorizationResponseIssParameterSupported := none

def sampleAnswers : Answers where
  challenge := .ok ⟨none, none⟩
  resourceAt _ := .hit (some {
    resource := ascii "https://mcp.example/mcp"
    authorizationServers := some [ascii "https://auth.example"]
    scopesSupported := none })
  serverAt _ := .hit (some sampleMetadata)

def sampleDiscovery : OauthDiscovery where
  resource := ascii "https://mcp.example/mcp"
  authorizationServer := ascii "https://auth.example"
  issuer := ascii "https://auth.example"
  authorizationEndpoint := ascii "https://auth.example/authorize"
  tokenEndpoint := ascii "https://auth.example/token"
  registrationEndpoint := some (ascii "https://auth.example/register")
  revocationEndpoint := none
  scopesSupported := none
  clientIdMetadataDocumentSupported := none
  issParameterSupported := none
  document := ⟨sampleMetadata, ascii "https://auth.example/.well-known/oauth-authorization-server"⟩

def sampleConnection : ConnectionRow where
  url := ascii "https://mcp.example/mcp"
  authType := .oauth
  source := .custom
  catalogSlug := none
  scope := .user 1

def sampleEnv : BrokerEnv where
  publicAppUrl := ascii "https://app.example"
  publicAppUrlIsPublic := false
  preregisteredClients := []
  hasMasterKey := true
  opensEnvelopes := true
  catalog _ := none

def sampleReply : RegistrationReply := .registered (ascii "client") (some (ascii "secret"))

def sampleClient : Client :=
  persistIdentity (ascii "client") (some ⟨ascii "secret", ascii "https://auth.example"⟩) .dcr
    (ascii "https://auth.example")

def sampleFlow : PendingFlow where
  endpoints := {
    authorizationServer := some (ascii "https://auth.example")
    authorizationEndpoint := some (ascii "https://auth.example/authorize")
    tokenEndpoint := some (ascii "https://auth.example/token")
    resource := some (ascii "https://mcp.example/mcp")
    revocationEndpoint := none }
  client := sampleClient
  scopes := none
  startedFor := ascii "https://mcp.example/mcp"

/-- The connection is created, its grant's row is not inserted yet. -/
def sampleState : BrokerState where
  connection := some sampleConnection
  grant := none
  lock := none
  writes := 0
  ids := 0
  memberships _ _ := none
  procs _ := .idle
  versions := []
  flows := []
  claims := []
  documents := []

theorem sample_discovered : discoverOauth samplePlatform.parseUrl sampleAnswers
    sampleConnection.url = .ok sampleDiscovery := by
  decide +kernel

theorem sample_initial : sampleState.Initial := ⟨fun _ => Or.inl rfl, rfl, rfl, rfl, rfl, rfl, rfl⟩

theorem sample_booted : sampleEnv.Booted samplePlatform := 
  ⟨[], by simp [loadOauthClientRegistrations, readRegistrations, sampleEnv]⟩

theorem sample_staged {row : OauthRow} (h : row.client = Client.blank) :
    Staged samplePlatform sampleEnv sampleConnection row sampleDiscovery sampleFlow := by
  have hresolved : resolveClientIdentity samplePlatform sampleEnv.identityDeps sampleDiscovery
      row.client (identityContext sampleEnv.catalog sampleConnection) sampleReply =
      .ok (⟨ascii "client", some ⟨ascii "secret", ascii "https://auth.example"⟩, true, .dcr⟩,
        some sampleClient) := by
    rw [h]
    rfl
  exact Staged.mk sample_discovered hresolved

/-- What the first start draws. -/
def sampleNonces : FlowNonces := ⟨ascii "verifier", ascii "state", 0⟩

def sampleQuery : OauthCallbackQuery := ⟨some (ascii "code"), some (ascii "state"), none, none⟩

def sampleTokens : TokenResponse := ⟨ascii "access", none, none, none⟩

end InvisibleString.Oauth
