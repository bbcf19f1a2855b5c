import InvisibleString.Lib.Json
import InvisibleString.Lib.Transition
import Mathlib.Data.List.Basic
import Mathlib.Logic.Function.Basic

/- # `Connections.Probe` — what a connection's probe columns say

A probe takes a row its caller has loaded, dials the server with the credentials of that row or
of the grant, and writes its result by the row's id.  Meanwhile the connection is edited, its
grant consented to, expired or dropped, and other probes come and go.  An edit blanks the
columns on some transitions of the auth type and of the URL.

**Proved here.**

    an edit blanks the health of an OAuth connection whose grant it drops  (`updatePatch_health`)
    when probes write to the connection they have dialled, in the order they began, and an edit
      that is not going to blank finds the columns blank, then whenever nothing is in flight the
      columns are blank or observed on the connection as it is  (`probes_describe`)
    a tool cache survives an edit of a custom connection's URL  (`edit_keeps_tools`)
-/

namespace InvisibleString.Connections

open Json Transition

/-! ## Rows -/

inductive AuthType where
  | none
  | bearer
  | headers
  | oauth
  deriving DecidableEq

inductive McpTransport where
  | streamableHttp
  | sse
  deriving DecidableEq

inductive ConnectionHealth where
  | unknown
  | ok
  | unreachable
  | authRequired
  | authError
  deriving DecidableEq

inductive ConnectionSource where
  | catalog
  | registry
  | custom
  deriving DecidableEq

/-- The columns of `connections` that probes read or write; `T` is a list of tools. -/
structure ProbedRow (T : Type) where
  source : ConnectionSource
  url : JsString
  transport : McpTransport
  authType : AuthType
  /-- the envelope of the static credentials -/
  authConfig : Option JsString
  health : ConnectionHealth
  lastError : Option JsString
  toolsCache : Option T

inductive GrantStatus where
  | pending
  | connected
  | expired
  | revoked
  | error
  deriving DecidableEq

/-- The grant of an OAuth connection; each consent is told from the others. -/
structure ProbedGrant where
  status : GrantStatus
  consent : Nat

/-- What a request presents to the server. -/
inductive Credentials where
  | static (authType : AuthType) (authConfig : Option JsString)
  | consent (consent : Nat)
  /-- a grant nobody has consented to, or none -/
  | missing
  deriving DecidableEq

def grantCredentials : Option ProbedGrant → Credentials
  | some grant => if grant.status = .pending then .missing else .consent grant.consent
  | none => .missing

def credentialsOf {T : Type} (row : ProbedRow T) (grant : Option ProbedGrant) : Credentials :=
  if row.authType = .oauth then grantCredentials grant else .static row.authType row.authConfig

/-! ## Probes -/

variable {T : Type}

structure ProbeOutcome (T : Type) where
  health : ConnectionHealth
  /-- only when `health` is `ok` -/
  tools : Option T
  error : Option JsString

/-- A probe's result, and where it comes from. -/
structure Observation (T : Type) where
  url : JsString
  credentials : Credentials
  outcome : ProbeOutcome T

/-- The outcome without a dial for a grant nobody has consented to. -/
def notConsented : ProbeOutcome T := ⟨.authRequired, none, none⟩

/-- The answer of `classifyTokenFailure` to `oauth_not_connected`. -/
def tokenRefused : ProbeOutcome T := ⟨.authError, none, none⟩

/-- Its answer to `oauth_exchange_failed`. -/
def tokenUnreachable (error : JsString) : ProbeOutcome T := ⟨.unreachable, none, some error⟩

/-- The patch of `probeAndPersist`. -/
def probePatch (outcome : ProbeOutcome T) (row : ProbedRow T) : ProbedRow T :=
  { row with
    health := outcome.health
    lastError := outcome.error
    toolsCache := if outcome.health = .ok then outcome.tools else row.toolsCache }

/-- What `markExpired` writes to the connection. -/
def expiredOutcome : ProbeOutcome T :=
  ⟨.authError, none, some (ascii "OAuth grant expired " ++ [0x2014] ++
    ascii " reconnect the connection")⟩

/-! ## Edits -/

/-- The fields of `updateConnectionRequest` that matter here; `auth` with the envelope it is
stored as. -/
structure UpdateInput where
  url : Option JsString
  transport : Option McpTransport
  auth : Option (AuthType × Option JsString)

def UpdateInput.leavingOauth (input : UpdateInput) : Bool :=
  match input.auth with
  | some (authType, _) => authType ≠ .oauth
  | none => false

def UpdateInput.urlChanging (input : UpdateInput) (existing : ProbedRow T) : Bool :=
  match input.url with
  | some url => url ≠ existing.url
  | none => false

def UpdateInput.enteringOauth (input : UpdateInput) (existing : ProbedRow T) : Bool :=
  match input.auth with
  | some (authType, _) => authType = .oauth && existing.authType ≠ .oauth
  | none => false

/-- The edit ends or resets the grant. -/
def UpdateInput.dropsGrant (input : UpdateInput) (existing : ProbedRow T) : Bool :=
  existing.authType = .oauth && (input.leavingOauth || input.urlChanging existing)

/-- A catalog or registry connection keeps its endpoint. -/
def UpdateInput.allowed (input : UpdateInput) (existing : ProbedRow T) : Bool :=
  existing.source = .custom || (input.url.isNone && input.transport.isNone)

/-- The row `updateConnection` leaves, `existing` being the one it has loaded. -/
def updatePatch (input : UpdateInput) (existing row : ProbedRow T) : ProbedRow T :=
  { source := row.source
    url := input.url.getD row.url
    transport := input.transport.getD row.transport
    authType := (input.auth.map Prod.fst).getD row.authType
    authConfig := (input.auth.map Prod.snd).getD row.authConfig
    health :=
      if input.dropsGrant existing then
        if input.leavingOauth then .unknown else .authRequired
      else if input.enteringOauth existing then .authRequired else row.health
    lastError :=
      if input.dropsGrant existing || input.enteringOauth existing then none else row.lastError
    toolsCache :=
      if input.dropsGrant existing && input.urlChanging existing then none else row.toolsCache }

/-- What becomes of the grant: gone with the auth type, reset with the URL. -/
def droppedGrant (input : UpdateInput) (grant : Option ProbedGrant) : Option ProbedGrant :=
  if input.leavingOauth then none else grant.map fun grant => { grant with status := .pending }

/-! ## The system -/

inductive ActorPhase (T : Type) where
  | idle
  /-- a caller of `probeAndPersist` has loaded the row; `owed` after a consent -/
  | loaded (row : ProbedRow T) (owed : Bool)
  /-- an OAuth connection: the grant's status is asked for -/
  | checking (row : ProbedRow T) (owed : Bool) (number : Nat)
  /-- and then a token -/
  | fetching (row : ProbedRow T) (owed : Bool) (number : Nat)
  | dialing (row : ProbedRow T) (owed : Bool) (number : Nat) (credentials : Credentials)
  /-- the outcome, and what was presented to learn it -/
  | answered (row : ProbedRow T) (owed : Bool) (number : Nat) (outcome : ProbeOutcome T)
      (credentials : Option Credentials)
  /-- a consent callback has loaded the row -/
  | consenting (row : ProbedRow T)
  /-- `updateConnection` has loaded the row -/
  | updating (input : UpdateInput) (existing : ProbedRow T)
  /-- it has looked for the grant it drops -/
  | revoking (input : UpdateInput) (existing : ProbedRow T) (found : Bool)
  /-- it has dropped the grant -/
  | writing (input : UpdateInput) (existing : ProbedRow T)

structure ProbeState (T : Type) where
  row : ProbedRow T
  grant : Option ProbedGrant
  actors : Nat → ActorPhase T
  /-- consents so far -/
  consents : Nat
  /-- probes begun so far -/
  begun : Nat
  /-- every result of a probe or of a refresh that was refused -/
  observed : List (Observation T)
  /-- the numbers of the probes that have written, the last one first -/
  written : List Nat

/-- A connection as `createConnection` inserts it. -/
def createdRow (source : ConnectionSource) (url : JsString) (transport : McpTransport)
    (authType : AuthType) (authConfig : Option JsString) : ProbedRow T where
  source := source
  url := url
  transport := transport
  authType := authType
  authConfig := authConfig
  health := if authType = .oauth then .authRequired else .unknown
  lastError := none
  toolsCache := none

def ProbeState.created (source : ConnectionSource) (url : JsString) (transport : McpTransport)
    (authType : AuthType) (authConfig : Option JsString) : ProbeState T :=
  ⟨createdRow source url transport authType authConfig,
    if authType = .oauth then some ⟨.pending, 0⟩ else none, fun _ => .idle, 0, 0, [], []⟩

def ProbeState.set (s : ProbeState T) (p : Nat) (phase : ActorPhase T) : ProbeState T :=
  { s with actors := Function.update s.actors p phase }

/-- A probe without an outcome to write yet. -/
def ActorPhase.probing : ActorPhase T → Bool
  | checking .. | fetching .. | dialing .. | answered .. => true
  | _ => false

/-- A probe that follows a consent. -/
def ActorPhase.owed : ActorPhase T → Bool
  | loaded _ owed | checking _ owed _ | fetching _ owed _ | dialing _ owed _ _
  | answered _ owed _ _ _ => owed
  | _ => false

inductive ProbeEvent (T : Type) where
  | load (p : Nat)
  | begin (p : Nat)
  | check (p : Nat)
  | token (p : Nat)
  | refuse (p : Nat)
  | expire (p : Nat)
  | unreachable (p : Nat) (error : JsString)
  | answer (p : Nat) (outcome : ProbeOutcome T)
  | write (p : Nat)
  | fail (p : Nat)
  | callback (p : Nat)
  | consent (p : Nat)
  | mintGrant
  | refresh
  | update (p : Nat) (input : UpdateInput)
  | findGrant (p : Nat)
  | dropGrant (p : Nat)
  | edit (p : Nat)

/-- One actor runs to its next `await`.

    load        a create, a manual test or a tool step is about to probe
    refuse      `getAccessToken` finds no connected grant
    expire      it retires the grant, which also writes the connection
    fail        a credential cannot be read, or the database fails
    refresh     any other caller of `getAccessToken` retires the grant -/
inductive ProbeStep : ProbeState T → ProbeEvent T → ProbeState T → Prop
  | load {s} (p) : s.actors p = .idle → ProbeStep s (.load p) (s.set p (.loaded s.row false))
  | beginStatic {s} (p) {row owed} : s.actors p = .loaded row owed → row.authType ≠ .oauth →
      ProbeStep s (.begin p)
        { s.set p (.dialing row owed s.begun (.static row.authType row.authConfig)) with
          begun := s.begun + 1 }
  | beginOauth {s} (p) {row owed} : s.actors p = .loaded row owed → row.authType = .oauth →
      ProbeStep s (.begin p) { s.set p (.checking row owed s.begun) with begun := s.begun + 1 }
  | unconsented {s} (p) {row owed number} : s.actors p = .checking row owed number →
      (∀ grant ∈ s.grant, grant.status = .pending) →
      ProbeStep s (.check p) (s.set p (.answered row owed number notConsented none))
  | consented {s} (p) {row owed number} (grant) : s.actors p = .checking row owed number →
      s.grant = some grant → grant.status ≠ .pending →
      ProbeStep s (.check p) (s.set p (.fetching row owed number))
  | token {s} (p) {row owed number} (grant) : s.actors p = .fetching row owed number →
      s.grant = some grant → grant.status = .connected →
      ProbeStep s (.token p) (s.set p (.dialing row owed number (.consent grant.consent)))
  | refuse {s} (p) {row owed number} : s.actors p = .fetching row owed number →
      (∀ grant ∈ s.grant, grant.status ≠ .connected) →
      ProbeStep s (.refuse p)
        { s.set p (.answered row owed number tokenRefused (some (grantCredentials s.grant))) with
          observed := ⟨row.url, grantCredentials s.grant, tokenRefused⟩ :: s.observed }
  | expire {s} (p) {row owed number} (grant) : s.actors p = .fetching row owed number →
      s.grant = some grant → grant.status = .connected →
      ProbeStep s (.expire p)
        { s.set p (.answered row owed number tokenRefused (some (.consent grant.consent))) with
          grant := some { grant with status := .expired }
          row := probePatch expiredOutcome s.row
          observed := ⟨row.url, .consent grant.consent, tokenRefused⟩ ::
            ⟨s.row.url, .consent grant.consent, expiredOutcome⟩ :: s.observed }
  | unreachable {s} (p) (error) {row owed number} (grant) :
      s.actors p = .fetching row owed number → s.grant = some grant → grant.status = .connected →
      ProbeStep s (.unreachable p error)
        { s.set p (.answered row owed number (tokenUnreachable error)
            (some (.consent grant.consent))) with
          observed := ⟨row.url, .consent grant.consent, tokenUnreachable error⟩ :: s.observed }
  | answer {s} (p) (outcome) {row owed number credentials} :
      s.actors p = .dialing row owed number credentials →
      ProbeStep s (.answer p outcome)
        { s.set p (.answered row owed number outcome (some credentials)) with
          observed := ⟨row.url, credentials, outcome⟩ :: s.observed }
  | write {s} (p) {row owed number outcome credentials} :
      s.actors p = .answered row owed number outcome credentials →
      ProbeStep s (.write p)
        { s.set p .idle with
          row := probePatch outcome s.row
          written := number :: s.written }
  | fail {s} (p) : (s.actors p).probing = true → ProbeStep s (.fail p) (s.set p .idle)
  | callback {s} (p) : s.actors p = .idle → ProbeStep s (.callback p) (s.set p (.consenting s.row))
  | consent {s} (p) {row} (grant) : s.actors p = .consenting row → s.grant = some grant →
      ProbeStep s (.consent p)
        { s.set p (.loaded row true) with
          grant := some ⟨.connected, s.consents + 1⟩
          consents := s.consents + 1 }
  | mintGrant {s} : s.grant = none → ProbeStep s .mintGrant { s with grant := some ⟨.pending, 0⟩ }
  | refresh {s} (grant) : s.grant = some grant → grant.status = .connected →
      ProbeStep s .refresh
        { s with
          grant := some { grant with status := .expired }
          row := probePatch expiredOutcome s.row
          observed := ⟨s.row.url, .consent grant.consent, expiredOutcome⟩ :: s.observed }
  | update {s} (p) (input) : s.actors p = .idle → input.allowed s.row = true →
      ProbeStep s (.update p input) (s.set p (.updating input s.row))
  | findGrant {s} (p) {input existing} : s.actors p = .updating input existing →
      input.dropsGrant existing = true →
      ProbeStep s (.findGrant p) (s.set p (.revoking input existing s.grant.isSome))
  | dropGrant {s} (p) {input existing found} : s.actors p = .revoking input existing found →
      ProbeStep s (.dropGrant p)
        { s.set p (.writing input existing) with
          grant := if found then droppedGrant input s.grant else s.grant }
  | editPlain {s} (p) {input existing} : s.actors p = .updating input existing →
      input.dropsGrant existing = false →
      ProbeStep s (.edit p) { s.set p .idle with row := updatePatch input existing s.row }
  | editDropped {s} (p) {input existing} : s.actors p = .writing input existing →
      ProbeStep s (.edit p) { s.set p .idle with row := updatePatch input existing s.row }

/-! ## Describing the connection -/

/-- Never observed, or blanked. -/
def ProbedRow.HealthBlank (row : ProbedRow T) : Prop :=
  (row.health = .unknown ∨ row.health = .authRequired) ∧ row.lastError = none

/-- Health and last error were observed on the current URL with the current credentials. -/
def ProbeState.HealthObserved (s : ProbeState T) : Prop :=
  ∃ o ∈ s.observed, o.url = s.row.url ∧ o.credentials = credentialsOf s.row s.grant ∧
    o.outcome.health = s.row.health ∧ o.outcome.error = s.row.lastError

/-- The tool cache was observed on the current URL. -/
def ProbeState.ToolsObserved (s : ProbeState T) : Prop :=
  ∃ o ∈ s.observed, o.url = s.row.url ∧ o.outcome.health = .ok ∧
    o.outcome.tools = s.row.toolsCache

structure ProbeState.Describes (s : ProbeState T) : Prop where
  health : s.row.HealthBlank ∨ s.HealthObserved
  tools : s.row.toolsCache = none ∨ s.ToolsObserved
  /-- no probe has written after one that began later -/
  order : s.written.Pairwise (· > ·)

/-- Nothing is in flight. -/
def ProbeState.Quiet (s : ProbeState T) : Prop := ∀ p, s.actors p = .idle

/-- What a write has to find.

    write           the connection's URL as the probe has loaded it, the credentials as presented,
                    and no result of a probe that began later; a probe that presented nothing
                    looks at the order only
    fail            a probe that follows a consent does not fail, or finds the health blank
    expire, refresh  the connection is still an OAuth one
    edit            what it changes and is not going to blank is blank -/
def FindsConnection (m : Move (ProbeState T) (ProbeEvent T)) : Prop :=
  match m.event with
  | .write p => ∀ row owed number outcome credentials,
      m.before.actors p = .answered row owed number outcome credentials →
      (∀ k ∈ m.before.written, k < number) ∧
        ∀ presented, credentials = some presented → row.url = m.before.row.url ∧
          presented = credentialsOf m.before.row m.before.grant
  | .fail p => (m.before.actors p).owed = true → m.before.row.HealthBlank
  | .expire _ => m.before.row.authType = .oauth
  | .refresh => m.before.row.authType = .oauth
  | .edit p => ∀ input existing, (m.before.actors p = .updating input existing ∨
      m.before.actors p = .writing input existing) →
      (input.dropsGrant existing = false → input.enteringOauth existing = false →
        ((updatePatch input existing m.before.row).url = m.before.row.url ∧
          credentialsOf (updatePatch input existing m.before.row) m.before.grant =
            credentialsOf m.before.row m.before.grant) ∨ m.before.row.HealthBlank) ∧
      ((input.dropsGrant existing && input.urlChanging existing) = false →
        (updatePatch input existing m.before.row).url = m.before.row.url ∨
          m.before.row.toolsCache = none)
  | _ => True

/-! ## The writes -/

section Writes

variable {input : UpdateInput} {existing row : ProbedRow T}

/-- An edit that drops the grant, or enters OAuth, leaves the health blank. -/
theorem updatePatch_health
    (h : input.dropsGrant existing = true ∨ input.enteringOauth existing = true) :
    (updatePatch input existing row).HealthBlank := by
  by_cases hdrops : input.dropsGrant existing = true
  · constructor
    · show (if input.dropsGrant existing then _ else _) = _ ∨ (if _ then _ else _) = _
      rw [if_pos hdrops]
      by_cases hleaving : input.leavingOauth = true
      · exact .inl (if_pos hleaving)
      · exact .inr (if_neg hleaving)
    · show (if _ then _ else _) = _
      rw [hdrops, Bool.true_or]
      rfl
  · have hentering := h.resolve_left hdrops
    constructor
    · refine .inr ?_
      show (if _ then _ else if _ then _ else _) = _
      rw [if_neg hdrops, if_pos hentering]
    · show (if _ then _ else _) = _
      rw [hentering, Bool.or_true]
      rfl

variable (row) in
theorem updatePatch_keeps (hdrops : input.dropsGrant existing = false)
    (hentering : input.enteringOauth existing = false) :
    (updatePatch input existing row).health = row.health ∧
      (updatePatch input existing row).lastError = row.lastError := by
  rw [updatePatch, hdrops, hentering]
  exact ⟨rfl, rfl⟩

variable (input existing row) in
theorem updatePatch_tools :
    (updatePatch input existing row).toolsCache = none ∨
      ((input.dropsGrant existing && input.urlChanging existing) = false ∧
        (updatePatch input existing row).toolsCache = row.toolsCache) := by
  cases hblanks : input.dropsGrant existing && input.urlChanging existing with
  | true => exact .inl (if_pos hblanks)
  | false => exact .inr ⟨rfl, if_neg (by rw [hblanks]; exact Bool.false_ne_true)⟩

end Writes

/-! ## The invariant -/

/-- What is known of an actor's phase. -/
def ActorPhase.Ok (observed : List (Observation T)) : ActorPhase T → Prop
  | answered _ _ _ outcome none => outcome = notConsented
  | answered row _ _ outcome (some presented) => ⟨row.url, presented, outcome⟩ ∈ observed
  | revoking input existing _ => input.dropsGrant existing = true
  | writing input existing => input.dropsGrant existing = true
  | _ => True

/-- An edit has dropped the grant and is about to blank the health. -/
def ActorPhase.blanks : ActorPhase T → Bool
  | writing _ _ => true
  | _ => false

/-- Health and last error describe the connection, or somebody is about to write them. -/
def ProbeState.HealthOk (s : ProbeState T) : Prop :=
  s.row.HealthBlank ∨ s.HealthObserved ∨
    ∃ p, (s.actors p).owed = true ∨ (s.actors p).blanks = true

structure ProbeInv (s : ProbeState T) : Prop where
  health : s.HealthOk
  tools : s.row.toolsCache = none ∨ s.ToolsObserved
  order : s.written.Pairwise (· > ·)
  ok : ∀ p, (s.actors p).Ok s.observed

theorem ActorPhase.Ok.mono {observed observed' : List (Observation T)} {phase : ActorPhase T}
    (h : phase.Ok observed) (hsub : ∀ o ∈ observed, o ∈ observed') : phase.Ok observed' := by
  cases phase with
  | answered row owed number outcome credentials =>
    cases credentials with
    | none => exact h
    | some presented => exact hsub _ h
  | revoking => exact h
  | writing => exact h
  | idle | loaded | checking | fetching | dialing | consenting | updating => trivial

section Steps

variable {s : ProbeState T} {p : Nat} {phase phase' : ActorPhase T}

/-- Another actor's promise stands. -/
theorem ProbeState.promised_set (h : ∃ q, (s.actors q).owed = true ∨ (s.actors q).blanks = true)
    (howed : (s.actors p).owed = true → phase'.owed = true ∨ phase'.blanks = true)
    (hblanks : (s.actors p).blanks = true → phase'.owed = true ∨ phase'.blanks = true) :
    ∃ q, ((s.set p phase').actors q).owed = true ∨ ((s.set p phase').actors q).blanks = true := by
  obtain ⟨q, hq⟩ := h
  refine ⟨q, ?_⟩
  show (Function.update s.actors p phase' q).owed = true ∨
    (Function.update s.actors p phase' q).blanks = true
  by_cases hqp : q = p
  · subst hqp
    rw [Function.update_self]
    exact hq.elim howed hblanks
  · rw [Function.update_of_ne hqp]
    exact hq

theorem ProbeInv.ok_set (h : ProbeInv s) {observed : List (Observation T)}
    (hsub : ∀ o ∈ s.observed, o ∈ observed) (hok : phase'.Ok observed) (q : Nat) :
    ((s.set p phase').actors q).Ok observed := by
  show (Function.update s.actors p phase' q).Ok observed
  by_cases hqp : q = p
  · subst hqp
    rw [Function.update_self]
    exact hok
  · rw [Function.update_of_ne hqp]
    exact (h.ok q).mono hsub

theorem ProbeInv.moved (h : ProbeInv s) (hp : s.actors p = phase) {begun : Nat}
    {observed : List (Observation T)} (hsub : ∀ o ∈ s.observed, o ∈ observed)
    (howed : phase.owed = true → phase'.owed = true ∨ phase'.blanks = true)
    (hblanks : phase.blanks = true → phase'.owed = true ∨ phase'.blanks = true)
    (hok : phase'.Ok observed) :
    ProbeInv { s.set p phase' with begun := begun, observed := observed } := by
  subst hp
  refine ⟨?_, ?_, h.order, h.ok_set hsub hok⟩
  · rcases h.health with hblank | ⟨o, ho, hseen⟩ | hpromised
    · exact .inl hblank
    · exact .inr (.inl ⟨o, hsub o ho, hseen⟩)
    · exact .inr (.inr (ProbeState.promised_set hpromised howed hblanks))
  · rcases h.tools with hnone | ⟨o, ho, hseen⟩
    · exact .inl hnone
    · exact .inr ⟨o, hsub o ho, hseen⟩

theorem ProbeInv.expired (h : ProbeInv s) {grant : ProbedGrant} {observed : List (Observation T)}
    {actors : Nat → ActorPhase T} (hoauth : s.row.authType = .oauth)
    (hsub : ∀ o ∈ s.observed, o ∈ observed)
    (hmem : ⟨s.row.url, .consent grant.consent, expiredOutcome⟩ ∈ observed)
    (hok : ∀ q, (actors q).Ok observed) :
    ProbeInv { s with
      actors := actors
      grant := some { grant with status := .expired }
      row := probePatch expiredOutcome s.row
      observed := observed } := by
  refine ⟨.inr (.inl ⟨_, hmem, rfl, ?_, rfl, rfl⟩), ?_, h.order, hok⟩
  · have hoauth' : (probePatch expiredOutcome s.row).authType = .oauth := hoauth
    show Credentials.consent grant.consent = credentialsOf (probePatch expiredOutcome s.row) _
    rw [credentialsOf, if_pos hoauth']
    rfl
  · rcases h.tools with hnone | ⟨o, ho, hseen⟩
    · exact .inl hnone
    · exact .inr ⟨o, hsub o ho, hseen⟩

theorem ProbeInv.write (h : ProbeInv s) {row : ProbedRow T} {owed : Bool} {number : Nat}
    {outcome : ProbeOutcome T} {credentials : Option Credentials}
    (hp : s.actors p = .answered row owed number outcome credentials)
    (horder : ∀ k ∈ s.written, k < number)
    (hfinds : ∀ presented, credentials = some presented → row.url = s.row.url ∧
      presented = credentialsOf s.row s.grant) :
    ProbeInv { s.set p .idle with
      row := probePatch outcome s.row, written := number :: s.written } := by
  have hok := h.ok p
  rw [hp] at hok
  have hidle := h.ok_set (p := p) (fun o ho => ho)
    (show (ActorPhase.idle : ActorPhase T).Ok s.observed from trivial)
  have horder' : (number :: s.written).Pairwise (· > ·) := List.pairwise_cons.mpr ⟨horder, h.order⟩
  cases credentials with
  | none =>
    have houtcome : outcome = notConsented := hok
    subst houtcome
    refine ⟨.inl ⟨.inr rfl, rfl⟩, ?_, horder', hidle⟩
    exact h.tools
  | some presented =>
    obtain ⟨hurl, hcredentials⟩ := hfinds presented rfl
    have hmem : ⟨row.url, presented, outcome⟩ ∈ s.observed := hok
    refine ⟨.inr (.inl ⟨_, hmem, hurl, hcredentials, rfl, rfl⟩), ?_, horder', hidle⟩
    by_cases hhealth : outcome.health = .ok
    · refine .inr ⟨_, hmem, hurl, hhealth, ?_⟩
      exact (if_pos hhealth).symm
    · have hsame : (probePatch outcome s.row).toolsCache = s.row.toolsCache := if_neg hhealth
      rcases h.tools with hnone | ⟨o, ho, hseen⟩
      · exact .inl (hsame.trans hnone)
      · refine .inr ⟨o, ho, hseen.1, hseen.2.1, ?_⟩
        exact hseen.2.2.trans hsame.symm

theorem ProbeInv.edit (h : ProbeInv s) {input : UpdateInput} {existing : ProbedRow T}
    (hblanks : (s.actors p).blanks = true → input.dropsGrant existing = true)
    (howed : (s.actors p).owed = false)
    (hhealth : input.dropsGrant existing = false → input.enteringOauth existing = false →
      ((updatePatch input existing s.row).url = s.row.url ∧
        credentialsOf (updatePatch input existing s.row) s.grant = credentialsOf s.row s.grant) ∨
      s.row.HealthBlank)
    (htools : (input.dropsGrant existing && input.urlChanging existing) = false →
      (updatePatch input existing s.row).url = s.row.url ∨ s.row.toolsCache = none) :
    ProbeInv { s.set p .idle with row := updatePatch input existing s.row } := by
  refine ⟨?_, ?_, h.order, h.ok_set (fun o ho => ho) trivial⟩
  · by_cases hpatch : input.dropsGrant existing = true ∨ input.enteringOauth existing = true
    · exact .inl (updatePatch_health hpatch)
    · obtain ⟨hdrops, hentering⟩ := not_or.mp hpatch
      have hdrops := Bool.eq_false_iff.mpr hdrops
      have hentering := Bool.eq_false_iff.mpr hentering
      obtain ⟨hh, he⟩ := updatePatch_keeps s.row hdrops hentering
      have hblank : s.row.HealthBlank → (updatePatch input existing s.row).HealthBlank := by
        intro hblank
        rw [ProbedRow.HealthBlank, hh, he]
        exact hblank
      rcases hhealth hdrops hentering with ⟨hurl, hcredentials⟩ | hold
      · rcases h.health with hold | ⟨o, ho, hseen⟩ | hpromised
        · exact .inl (hblank hold)
        · refine .inr (.inl ⟨o, ho, hseen.1.trans hurl.symm, ?_, ?_, ?_⟩)
          · exact hseen.2.1.trans hcredentials.symm
          · exact hseen.2.2.1.trans hh.symm
          · exact hseen.2.2.2.trans he.symm
        · refine .inr (.inr (ProbeState.promised_set hpromised ?_ ?_))
          · intro howed'
            rw [howed] at howed'
            cases howed'
          · intro hb
            rw [hdrops] at hblanks
            cases hblanks hb
      · exact .inl (hblank hold)
  · rcases updatePatch_tools input existing s.row with hnone | ⟨hkeeps, hsame⟩
    · exact .inl hnone
    · rcases htools hkeeps with hurl | hnone
      · rcases h.tools with hnone | ⟨o, ho, hseen⟩
        · exact .inl (hsame.trans hnone)
        · refine .inr ⟨o, ho, hseen.1.trans hurl.symm, hseen.2.1, ?_⟩
          exact hseen.2.2.trans hsame.symm
      · exact .inl (hsame.trans hnone)

end Steps

theorem ProbeInv.created (source : ConnectionSource) (url : JsString) (transport : McpTransport)
    (authType : AuthType) (authConfig : Option JsString) :
    ProbeInv (ProbeState.created source url transport authType authConfig : ProbeState T) := by
  refine ⟨.inl ⟨?_, rfl⟩, .inl rfl, .nil, fun _ => trivial⟩
  show (if authType = .oauth then ConnectionHealth.authRequired else .unknown) = _ ∨
    (if authType = .oauth then _ else _) = _
  by_cases hoauth : authType = .oauth
  · exact .inr (if_pos hoauth)
  · exact .inl (if_neg hoauth)

theorem ProbeInv.failed {s : ProbeState T} {p : Nat} (h : ProbeInv s)
    (hprobing : (s.actors p).probing = true)
    (hgood : (s.actors p).owed = true → s.row.HealthBlank) : ProbeInv (s.set p .idle) := by
  refine ⟨?_, h.tools, h.order, h.ok_set (fun o ho => ho) trivial⟩
  by_cases howed : (s.actors p).owed = true
  · exact .inl (hgood howed)
  · rcases h.health with hblank | hseen | hpromised
    · exact .inl hblank
    · exact .inr (.inl hseen)
    · refine .inr (.inr (ProbeState.promised_set hpromised (fun h => absurd h howed) ?_))
      intro hblanks
      cases hphase : s.actors p with
      | writing =>
        rw [hphase] at hprobing
        cases hprobing
      | _ =>
        rw [hphase] at hblanks
        cases hblanks

/-- The grant is another one, and an actor promises to write the health. -/
theorem ProbeInv.promised {s : ProbeState T} {p : Nat} (h : ProbeInv s) (phase : ActorPhase T)
    (hpromise : phase.owed = true ∨ phase.blanks = true) (hok : phase.Ok s.observed)
    (grant : Option ProbedGrant) (consents : Nat) :
    ProbeInv { s.set p phase with grant := grant, consents := consents } := by
  refine ⟨.inr (.inr ⟨p, ?_⟩), h.tools, h.order, h.ok_set (fun o ho => ho) hok⟩
  show (Function.update s.actors p phase p).owed = true ∨
    (Function.update s.actors p phase p).blanks = true
  rw [Function.update_self]
  exact hpromise

theorem ProbeInv.minted {s : ProbeState T} (h : ProbeInv s) (hnone : s.grant = none) :
    ProbeInv { s with grant := some ⟨.pending, 0⟩ } := by
  refine ⟨?_, h.tools, h.order, h.ok⟩
  have hsame : credentialsOf s.row (some ⟨.pending, 0⟩) = credentialsOf s.row s.grant := by
    rw [hnone]
    rfl
  rcases h.health with hblank | ⟨o, ho, hurl, hcredentials, hseen⟩ | hpromised
  · exact .inl hblank
  · exact .inr (.inl ⟨o, ho, hurl, hcredentials.trans hsame.symm, hseen⟩)
  · exact .inr (.inr hpromised)

theorem ProbeInv.step {s s' : ProbeState T} {e : ProbeEvent T} (h : ProbeInv s)
    (hstep : ProbeStep s e s') (hgood : FindsConnection ⟨s, e, s'⟩) : ProbeInv s' := by
  cases hstep with
  | load p hp => exact h.moved hp (fun o ho => ho) nofun nofun trivial
  | beginStatic p hp _ => exact h.moved hp (fun o ho => ho) .inl nofun trivial
  | beginOauth p hp _ => exact h.moved hp (fun o ho => ho) .inl nofun trivial
  | unconsented p hp _ => exact h.moved hp (fun o ho => ho) .inl nofun rfl
  | consented p grant hp _ _ => exact h.moved hp (fun o ho => ho) .inl nofun trivial
  | token p grant hp _ _ => exact h.moved hp (fun o ho => ho) .inl nofun trivial
  | refuse p hp _ =>
    exact h.moved hp (fun o ho => List.mem_cons_of_mem _ ho) .inl nofun List.mem_cons_self
  | expire p grant hp _ _ =>
    refine h.expired hgood ?_ (List.mem_cons_of_mem _ List.mem_cons_self)
      (h.ok_set ?_ List.mem_cons_self)
    all_goals exact fun o ho => List.mem_cons_of_mem _ (List.mem_cons_of_mem _ ho)
  | unreachable p error grant hp _ _ =>
    exact h.moved hp (fun o ho => List.mem_cons_of_mem _ ho) .inl nofun List.mem_cons_self
  | answer p outcome hp =>
    exact h.moved hp (fun o ho => List.mem_cons_of_mem _ ho) .inl nofun List.mem_cons_self
  | write p hp =>
    obtain ⟨horder, hfinds⟩ := hgood _ _ _ _ _ hp
    exact h.write hp horder hfinds
  | fail p hprobing => exact h.failed hprobing hgood
  | callback p hp => exact h.moved hp (fun o ho => ho) nofun nofun trivial
  | consent p grant hp _ => exact h.promised (.loaded _ true) (.inl rfl) trivial _ _
  | mintGrant hnone => exact h.minted hnone
  | refresh grant _ _ =>
    refine h.expired hgood ?_ List.mem_cons_self fun q => (h.ok q).mono ?_
    all_goals exact fun o ho => List.mem_cons_of_mem _ ho
  | update p input hp _ => exact h.moved hp (fun o ho => ho) nofun nofun trivial
  | findGrant p hp hdrops => exact h.moved hp (fun o ho => ho) nofun nofun hdrops
  | dropGrant p hp =>
    have hdrops := h.ok p
    rw [hp] at hdrops
    exact h.promised (.writing _ _) (.inr rfl) hdrops _ _
  | editPlain p hp hdrops =>
    obtain ⟨hhealth, htools⟩ := hgood _ _ (.inl hp)
    exact h.edit (by rw [hp]; nofun) (by rw [hp]; rfl) hhealth htools
  | editDropped p hp =>
    have hdrops := h.ok p
    rw [hp] at hdrops
    obtain ⟨hhealth, htools⟩ := hgood _ _ (.inr hp)
    exact h.edit (fun _ => hdrops) (by rw [hp]; rfl) hhealth htools

theorem ProbeInv.describes {s : ProbeState T} (h : ProbeInv s) (hquiet : s.Quiet) :
    s.Describes := by
  refine ⟨?_, h.tools, h.order⟩
  rcases h.health with hblank | hseen | ⟨p, hp⟩
  · exact .inl hblank
  · exact .inr hseen
  · rw [hquiet p] at hp
    rcases hp with howed | hblanks
    · cases howed
    · cases hblanks

/-- While every write finds the connection it is about, the columns describe the connection
whenever nothing is in flight. -/
theorem probes_describe {source : ConnectionSource} {url : JsString} {transport : McpTransport}
    {authType : AuthType} {authConfig : Option JsString} {s : ProbeState T}
    {moves : List (Move (ProbeState T) (ProbeEvent T))}
    (h : Trace ProbeStep (.created source url transport authType authConfig) moves s)
    (hgood : ∀ m ∈ moves, FindsConnection m) :
    (s.Quiet → s.Describes) ∧ ∀ m ∈ moves, m.after.Quiet → m.after.Describes := by
  have hinit := ProbeInv.created (T := T) source url transport authType authConfig
  constructor
  · exact (h.invariant ProbeInv FindsConnection (fun _ hstep hgood hinv => hinv.step hstep hgood)
      hgood hinit).describes
  · refine h.forall_of ProbeInv FindsConnection (fun m hstep hgood hinv => ?_) hgood hinit
    have hafter := hinv.step hstep hgood
    exact ⟨hafter.describes, hafter⟩

/-! ## Two runs -/

/-- A custom connection nobody has probed. -/
def freshConnection (url : JsString) : ProbeState JsString :=
  .created .custom url .streamableHttp .none none

def listedTools (tools : JsString) : ProbeOutcome JsString := ⟨.ok, some tools, none⟩

def repoint (url : JsString) : UpdateInput := ⟨some url, none, none⟩

def mcpAt (host : JsString) : JsString := ascii "https://" ++ host ++ ascii "/mcp"

/-- The create-time probe lists a tool. -/
theorem probes_describe_first : ∃ (s : ProbeState JsString) (moves : List _),
    Trace ProbeStep (freshConnection (mcpAt (ascii "a.example"))) moves s ∧ s.Describes ∧
      s.row.toolsCache = some (ascii "search") := by
  have h : Trace ProbeStep (freshConnection (mcpAt (ascii "a.example"))) _ _ :=
    .cons (.load 0 rfl) <| .cons (.beginStatic 0 rfl nofun) <|
    .cons (.answer 0 (listedTools (ascii "search")) rfl) <| .cons (.write 0 rfl) <| .nil _
  refine ⟨_, _, h, (probes_describe h ?_).1 ?_, rfl⟩
  · simp only [List.forall_mem_cons, List.not_mem_nil, false_implies, implies_true, and_true]
    refine ⟨trivial, trivial, trivial, ?_⟩
    intro row owed number outcome credentials hp
    cases hp
    refine ⟨fun k hk => absurd hk List.not_mem_nil, fun presented hpresented => ?_⟩
    cases hpresented
    exact ⟨rfl, rfl⟩
  · exact Alone.init.update.update.update.update.quiet rfl

/-- The connection is pointed at another server and keeps the tools of the first; and a slow
probe writes after one that has begun later. -/
theorem edit_keeps_tools :
    (∃ (s : ProbeState JsString) (moves : List _),
      Trace ProbeStep (freshConnection (mcpAt (ascii "a.example"))) moves s ∧ s.Quiet ∧
        s.row.url = mcpAt (ascii "b.example") ∧ s.row.toolsCache = some (ascii "search") ∧
        s.observed.map Observation.url = [mcpAt (ascii "a.example")] ∧ ¬ s.Describes) ∧
    ∃ (s : ProbeState JsString) (moves : List _),
      Trace ProbeStep (freshConnection (mcpAt (ascii "a.example"))) moves s ∧ s.Quiet ∧
        s.written = [0, 1] ∧ ¬ s.Describes := by
  constructor
  · have h : Trace ProbeStep (freshConnection (mcpAt (ascii "a.example"))) _ _ :=
      .cons (.load 0 rfl) <| .cons (.beginStatic 0 rfl nofun) <|
      .cons (.answer 0 (listedTools (ascii "search")) rfl) <| .cons (.write 0 rfl) <|
      .cons (.update 0 (repoint (mcpAt (ascii "b.example"))) rfl rfl) <|
      .cons (.editPlain 0 rfl rfl) <| .nil _
    refine ⟨_, _, h, ?_, rfl, rfl, rfl, ?_⟩
    · exact Alone.init.update.update.update.update.update.update.quiet rfl
    · intro hdescribes
      rcases hdescribes.tools with hnone | ⟨o, ho, hurl, -⟩
      · cases hnone
      · cases List.mem_singleton.mp ho
        exact absurd hurl (by decide)
  · have h : Trace ProbeStep (freshConnection (mcpAt (ascii "a.example"))) _ _ :=
      .cons (.load 0 rfl) <| .cons (.beginStatic 0 rfl nofun) <|
      .cons (.load 1 rfl) <| .cons (.beginStatic 1 rfl nofun) <|
      .cons (.answer 0 (listedTools (ascii "search")) rfl) <|
      .cons (.answer 1 ⟨.unreachable, none, some (ascii "http 503")⟩ rfl) <|
      .cons (.write 1 rfl) <| .cons (.write 0 rfl) <| .nil _
    refine ⟨_, _, h, ?_, rfl, fun hdescribes => absurd hdescribes.order (by decide)⟩
    rintro (_ | _ | q)
    all_goals rfl

end InvisibleString.Connections
