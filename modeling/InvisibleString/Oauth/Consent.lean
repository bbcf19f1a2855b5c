import InvisibleString.Oauth.Broker

/- # `Oauth.Consent` — a consent that does not complete, and the grant that works

Starts, callbacks and token accesses of one connection, in any order of their steps; edits of the
connection are not among them.

A start leaves the status of a row alone that it read as connected.  It reads the row before
discovery and writes it after, and the write does not look: a callback may have connected the row
in between.

**Proved here.**

    where the live grant lives and as whom changes in promotions only, its tokens in promotions and
      refreshes only; the tokens are those of the flow it lives by; no state is claimed twice
    a connected row ceases to be connected only when it is retired, exactly when every start that
      arms a connected row has read it connected
    a state is claimed by the user it was drawn for, while users are not deleted, and by one who
      may manage the connection, while nobody loses that between the check and the claim
                                                    (`consent_keeps_grant`, `start_disconnects`)
-/

namespace InvisibleString.Oauth

open Json (JsString ascii)
open Transition (Move Trace)

/-- A step of the broker. -/
abbrev BrokerMove := Move BrokerState BrokerEvent

/-- The connection is edited or deleted. -/
def BrokerEvent.edits : BrokerEvent → Bool
  | .grantDeleted _ | .grantReset _ | .patched _ | .connectionDeleted _ => true
  | _ => false

/-! ## What is asked of a step -/

/-- The live columns stay, but for a promotion or, the tokens, a refresh. -/
def GrantKept (m : BrokerMove) : Prop :=
  ∀ row, m.before.grant = some row → ∃ row', m.after.grant = some row' ∧
    (row'.home = row.home ∨ ∃ p, m.event = .promoted p) ∧
    (row'.tokens = row.tokens ∨ (∃ p, m.event = .promoted p) ∨ ∃ p, m.event = .refreshed p)

/-- The tokens are those of the endpoints and the client that stand beside them. -/
def OauthRow.Paired (row : OauthRow) : Prop :=
  ∀ token, row.accessToken = some token ∨ row.refreshToken = some token →
    row.home = (token.consent.endpoints, token.consent.client)

def BrokerState.Paired (s : BrokerState) : Prop := ∀ row, s.grant = some row → row.Paired

/-- A connected row ceases to be connected only when it is retired. -/
def StatusKept (m : BrokerMove) : Prop :=
  ∀ row row', m.before.grant = some row → m.after.grant = some row' →
    row.status = .connected → row'.status ≠ .connected → ∃ p, m.event = .expired p

def ClaimedOnce (m : BrokerMove) : Prop :=
  ∀ p state userId, m.event = .claimed p state userId → state ∉ m.before.claims

def ClaimedByStarter (m : BrokerMove) : Prop :=
  ∀ p state userId, m.event = .claimed p state userId →
    ∃ flow ∈ m.before.flows, flow.state = state ∧ flow.startedBy = userId

def ClaimedWithAccess (m : BrokerMove) : Prop :=
  ∀ p state userId, m.event = .claimed p state userId →
    ∃ connection, m.before.connection = some connection ∧
      mayManageConnection m.before.memberships userId connection = true

/-! ## Conditions on a step -/

/-- A start that arms a connected row has read it connected. -/
def ArmSees (m : BrokerMove) : Prop :=
  ∀ p connection read userId row, m.event = .armed p →
    m.before.procs p = .discovering connection read userId → m.before.grant = some row →
    row.id = read.id → row.status = .connected → read.status = .connected

/-- The flow that is claimed was found with its starter. -/
def StarterKnown (m : BrokerMove) : Prop :=
  ∀ p state userId connection oauth, m.event = .claimed p state userId →
    m.before.procs p = .permitted connection oauth userId → oauth.pendingStartedBy ≠ none

/-- Nobody loses access between the check of a callback and its claim. -/
def AccessKept (m : BrokerMove) : Prop :=
  ∀ p connection oauth userId, m.before.procs p = .permitted connection oauth userId →
    mayManageConnection m.before.memberships userId connection = true →
    mayManageConnection m.after.memberships userId connection = true

/-! ## The invariant -/

/-- A connected row has an access token. -/
def OauthRow.Whole (row : OauthRow) : Prop := row.status = .connected → row.accessToken ≠ none

/-- What a callback relies on, at each phase. -/
def ProcSafe (s : BrokerState) : Proc → Prop
  | .found connection oauth _ => s.connection = some connection ∧ oauth.Whole ∧
    ∀ row, s.grant = some row → row.id = oauth.id → row.pendingState = oauth.pendingState →
      oauth.status ≠ .connected → row.status ≠ .connected
  | .permitted connection oauth userId => (s.connection = some connection ∧ oauth.Whole ∧
    ∀ row, s.grant = some row → row.id = oauth.id → row.pendingState = oauth.pendingState →
      oauth.status ≠ .connected → row.status ≠ .connected) ∧
    (oauth.pendingStartedBy = none ∨ oauth.pendingStartedBy = some userId)
  | .claimed _ oauth _ stamp | .exchanging _ oauth _ stamp => oauth.Whole ∧
    ∀ row, s.grant = some row → row.id = oauth.id → row.updatedAt = stamp →
      row.pendingState = none ∧ (oauth.status ≠ .connected → row.status ≠ .connected)
  | _ => True

structure ConsentInv (s : BrokerState) : Prop where
  known : BrokerInv s
  paired : s.Paired
  whole : ∀ row, s.grant = some row → row.Whole
  procs : ∀ p, ProcSafe s (s.procs p)
  drawn : ∀ state ∈ s.claims, state ∈ s.flows.map ArmedFlow.state
  unclaimed : ∀ row state, s.grant = some row → row.pendingState = some state → state ∉ s.claims

section

variable {P : Platform} {s s' : BrokerState} {p : Nat} {proc : Proc} {row row' : OauthRow}

/-! ### Rows -/

theorem OauthRow.Paired.of_same (h : row.Paired) (hhome : row'.home = row.home)
    (haccess : row'.accessToken = row.accessToken) (hrefresh : row'.refreshToken = row.refreshToken) :
    row'.Paired := by
  intro token htoken
  rw [haccess, hrefresh] at htoken
  rw [hhome]
  exact h token htoken

theorem OauthRow.paired_inserted {id stamp : Nat} {mode : Option ClientIdentityMode} :
    (OauthRow.inserted id stamp mode).Paired := by
  rintro token (h | h)
  · cases h
  · cases h

theorem OauthRow.whole_inserted {id stamp : Nat} {mode : Option ClientIdentityMode} :
    (OauthRow.inserted id stamp mode).Whole := nofun

theorem OauthRow.paired_promote {oauth : OauthRow} {flow : PendingFlow}
    (hflow : oauth.pendingFlow = some flow) {stamp now : Nat} {connection : ConnectionRow}
    {answer : TokenResponse} {userId : UserId} :
    (row.promote stamp oauth connection answer userId now).Paired := by
  have hconsent : oauth.consented connection = flow := by
    rw [OauthRow.consented, hflow]
    rfl
  intro token htoken
  rw [OauthRow.home_promote row oauth stamp now flow userId connection answer hflow]
  rcases htoken with haccess | hrefresh
  · rw [← Option.some.inj haccess, hconsent]
  · obtain ⟨text, _, rfl⟩ := Option.map_eq_some_iff.mp hrefresh
    rw [hconsent]

theorem OauthRow.paired_refresh (h : row.Paired) {token : Token}
    (htoken : row.refreshToken = some token) {stamp now : Nat} {answer : TokenResponse} :
    (row.refresh stamp token.consent answer now).Paired := by
  have hhome : row.home = (token.consent.endpoints, token.consent.client) :=
    h token (Or.inr htoken)
  intro minted hminted
  show row.home = _
  rcases hminted with haccess | hrefresh
  · rw [← Option.some.inj haccess]
    exact hhome
  · rcases OauthRow.refreshToken_refresh hrefresh with hconsent | hkept
    · rw [hconsent]
      exact hhome
    · exact h minted (Or.inr hkept)

/-- The columns a callback compares by are the same. -/
structure OauthRow.Alike (row row' : OauthRow) : Prop where
  id : row'.id = row.id
  stamp : row'.updatedAt = row.updatedAt
  state : row'.pendingState = row.pendingState
  status : row'.status = row.status

theorem OauthRow.Alike.refl : row.Alike row := ⟨rfl, rfl, rfl, rfl⟩

/-- A row that was written in `s`: no callback takes it for a row it has found or claimed, or it
has not become connected. -/
structure Calm (s : BrokerState) (row' : OauthRow) : Prop where
  stamp : row'.updatedAt = s.writes
  state : row'.id = s.ids ∨ row'.pendingState = none ∨
    (∃ state, row'.pendingState = some state ∧ state ∉ s.flows.map ArmedFlow.state) ∨
    ∃ row, s.grant = some row ∧ row'.id = row.id ∧ row'.pendingState = row.pendingState ∧
      (row'.status = .connected → row.status = .connected)

/-! ### Processes -/

theorem not_calm_of_found {oauth : OauthRow} (hknown : Known s oauth)
    (hstate : oauth.pendingState ≠ none)
    (hold : ∀ row, s.grant = some row → row.id = oauth.id →
      row.pendingState = oauth.pendingState → oauth.status ≠ .connected → row.status ≠ .connected)
    (hcalm : Calm s row') (hid : row'.id = oauth.id)
    (hsame : row'.pendingState = oauth.pendingState) (hstatus : oauth.status ≠ .connected) :
    row'.status ≠ .connected := by
  rcases hcalm.state with hnew | hnone | ⟨state, hsome, hfresh⟩ | ⟨row, hrow, hrid, hrs, hkept⟩
  · exact absurd (hnew.symm.trans hid ▸ hknown.id) (lt_irrefl _)
  · exact absurd (hsame.symm.trans hnone) hstate
  · obtain ⟨flow, hflow, rfl, _⟩ := hknown.armed state (hsame.symm.trans hsome)
    exact absurd (List.mem_map.mpr ⟨flow, hflow, rfl⟩) hfresh
  · intro hconnected
    exact hold row hrow (hrid.symm.trans hid) (hrs.symm.trans hsame) hstatus (hkept hconnected)

theorem ProcSafe.mono {q : Nat} (h : ProcSafe s proc) (hknown : ProcKnown s q proc)
    (hconnection : s'.connection = s.connection)
    (hgrant : ∀ row', s'.grant = some row' →
      (∃ row, s.grant = some row ∧ row.Alike row') ∨ Calm s row') : ProcSafe s' proc := by
  have found : ∀ oauth : OauthRow, Known s oauth → oauth.pendingState ≠ none →
      (∀ row, s.grant = some row → row.id = oauth.id →
        row.pendingState = oauth.pendingState → oauth.status ≠ .connected →
        row.status ≠ .connected) →
      ∀ row', s'.grant = some row' → row'.id = oauth.id →
        row'.pendingState = oauth.pendingState → oauth.status ≠ .connected →
        row'.status ≠ .connected := by
    intro oauth hoauth hstate hold row' hrow' hid hsame hstatus
    rcases hgrant row' hrow' with ⟨row, hrow, halike⟩ | hcalm
    · rw [halike.status]
      exact hold row hrow (halike.id.symm.trans hid) (halike.state.symm.trans hsame) hstatus
    · exact not_calm_of_found hoauth hstate hold hcalm hid hsame hstatus
  have claimed : ∀ (oauth : OauthRow) (stamp : Nat), stamp < s.writes →
      (∀ row, s.grant = some row → row.id = oauth.id → row.updatedAt = stamp →
        row.pendingState = none ∧ (oauth.status ≠ .connected → row.status ≠ .connected)) →
      ∀ row', s'.grant = some row' → row'.id = oauth.id → row'.updatedAt = stamp →
        row'.pendingState = none ∧ (oauth.status ≠ .connected → row'.status ≠ .connected) := by
    intro oauth stamp hstamp hold row' hrow' hid hsame
    rcases hgrant row' hrow' with ⟨row, hrow, halike⟩ | hcalm
    · rw [halike.status, halike.state]
      exact hold row hrow (halike.id.symm.trans hid) (halike.stamp.symm.trans hsame)
    · exact absurd (hcalm.stamp.symm.trans hsame ▸ hstamp) (lt_irrefl _)
  cases proc with
  | found connection oauth userId =>
    exact ⟨hconnection.trans h.1, h.2.1, found oauth hknown.1 hknown.2 h.2.2⟩
  | permitted connection oauth userId =>
    exact ⟨⟨hconnection.trans h.1.1, h.1.2.1, found oauth hknown.1 hknown.2 h.1.2.2⟩, h.2⟩
  | claimed _ oauth _ stamp => exact ⟨h.1, claimed oauth stamp hknown.2.2 h.2⟩
  | exchanging _ oauth _ stamp => exact ⟨h.1, claimed oauth stamp hknown.2.2 h.2⟩
  | _ => trivial

theorem Reads.safe {e : BrokerEvent} (h : Reads P s p e proc) (hinv : ConsentInv s) :
    ProcSafe (s.setProc p proc) proc := by
  have hproc := hinv.procs p
  cases h with
  | callbackFinds _ _ hconnection hgrant hstate =>
    refine ⟨hconnection, hinv.whole _ hgrant, ?_⟩
    intro row hrow _ _ hstatus
    rw [Option.some.inj (hrow.symm.trans hgrant)]
    exact hstatus
  | callbackPermitted hp _ hstarted =>
    rw [hp] at hproc
    exact ⟨hproc, hstarted⟩
  | exchanges hp _ _ _ =>
    rw [hp] at hproc
    exact hproc
  | _ => trivial

/-! ### Steps -/

/-- What the invariant asks of the row. -/
structure RowSafe (s : BrokerState) (row : OauthRow) : Prop where
  paired : row.Paired
  whole : row.Whole
  unclaimed : ∀ state, row.pendingState = some state → state ∉ s.claims

theorem ConsentInv.rowSafe (h : ConsentInv s) (hrow : s.grant = some row) : RowSafe s row :=
  ⟨h.paired row hrow, h.whole row hrow, fun state hstate => h.unclaimed row state hrow hstate⟩

/-- A write that leaves home, tokens and pending state of a safe row. -/
theorem RowSafe.of_same (h : RowSafe s row) (hhome : row'.home = row.home)
    (haccess : row'.accessToken = row.accessToken) (hrefresh : row'.refreshToken = row.refreshToken)
    (hstatus : row'.status = .connected → row.status = .connected)
    (hstate : row'.pendingState = row.pendingState) : RowSafe s row' := by
  refine ⟨h.paired.of_same hhome haccess hrefresh, ?_, ?_⟩
  · intro hconnected
    rw [haccess]
    exact h.whole (hstatus hconnected)
  · rw [hstate]
    exact h.unclaimed

theorem recordFailure_status {status : Option OauthStatus} {stamp : Nat} {code : JsString}
    (hstatus : status = none ∨ status = some .error) :
    (row.recordFailure stamp status code).status = .connected → row.status = .connected := by
  rcases hstatus with rfl | rfl
  · exact id
  · nofun

theorem callbackFailureStatus_cases {oauth : OauthRow} :
    callbackFailureStatus oauth = none ∨ callbackFailureStatus oauth = some .error := by
  unfold callbackFailureStatus
  split
  · exact Or.inl rfl
  · exact Or.inr rfl

theorem ConsentInv.after (h : ConsentInv s) (hknown : BrokerInv s')
    (hconnection : s'.connection = s.connection) (hprocs : s'.procs = (s.setProc p proc).procs)
    (hproc : ProcSafe s' proc)
    (hgrant : ∀ row', s'.grant = some row' →
      ((∃ row, s.grant = some row ∧ row.Alike row') ∨ Calm s row') ∧ RowSafe s' row')
    (hdrawn : ∀ state ∈ s'.claims, state ∈ s'.flows.map ArmedFlow.state) : ConsentInv s' where
  known := hknown
  paired row hrow := (hgrant row hrow).2.paired
  whole row hrow := (hgrant row hrow).2.whole
  procs := procs_of_others (Q := fun _ => ProcSafe s') hproc (fun q _ =>
    (h.procs q).mono (h.known.procs q) hconnection fun row hrow => (hgrant row hrow).1) hprocs
  drawn := hdrawn
  unclaimed row state hrow hstate := (hgrant row hrow).2.unclaimed state hstate

theorem ConsentInv.env (h : ConsentInv s) (hknown : BrokerInv s')
    (hconnection : s'.connection = s.connection) (hprocs : s'.procs = s.procs)
    (hgrant : ∀ row', s'.grant = some row' →
      ∃ row, s.grant = some row ∧ row.Alike row' ∧ RowSafe s row')
    (hclaims : s'.claims = s.claims) (hflows : s'.flows = s.flows) : ConsentInv s' where
  known := hknown
  paired row' hrow' := by
    obtain ⟨_, _, _, hsafe⟩ := hgrant row' hrow'
    exact hsafe.paired
  whole row' hrow' := by
    obtain ⟨_, _, _, hsafe⟩ := hgrant row' hrow'
    exact hsafe.whole
  procs q := by
    rw [hprocs]
    refine (h.procs q).mono (h.known.procs q) hconnection fun row' hrow' => ?_
    obtain ⟨row, hrow, halike, _⟩ := hgrant row' hrow'
    exact Or.inl ⟨row, hrow, halike⟩
  drawn := by
    rw [hclaims, hflows]
    exact h.drawn
  unclaimed row' state hrow' hstate := by
    obtain ⟨_, _, _, hsafe⟩ := hgrant row' hrow'
    rw [hclaims]
    exact hsafe.unclaimed state hstate

theorem ConsentInv.kept (h : ConsentInv s) (hknown : BrokerInv s')
    (hconnection : s'.connection = s.connection) (hprocs : s'.procs = (s.setProc p proc).procs)
    (hproc : ProcSafe s' proc) (hgrant : s'.grant = s.grant) (hclaims : s'.claims = s.claims)
    (hflows : s'.flows = s.flows) : ConsentInv s' := by
  refine h.after hknown hconnection hprocs hproc ?_ ?_
  · intro row hrow
    rw [hgrant] at hrow
    refine ⟨Or.inl ⟨row, hrow, .refl⟩, ?_⟩
    have hsafe := h.rowSafe hrow
    refine ⟨hsafe.paired, hsafe.whole, ?_⟩
    rw [hclaims]
    exact hsafe.unclaimed
  · rw [hclaims, hflows]
    exact h.drawn

theorem ConsentInv.update (h : ConsentInv s) {cond : OauthRow → Bool} {set : OauthRow → OauthRow}
    (hknown : BrokerInv s') (hconnection : s'.connection = s.connection)
    (hprocs : s'.procs = (s.setProc p proc).procs) (hproc : ProcSafe s' proc)
    (hgrant : s'.grant = (s.update cond set).grant) (hclaims : s'.claims = s.claims)
    (hflows : ∀ flow ∈ s.flows, flow ∈ s'.flows)
    (hset : ∀ grant, s.grant = some grant → cond grant = true →
      Calm s (set grant) ∧ RowSafe s (set grant)) : ConsentInv s' := by
  have hsafe : ∀ {row : OauthRow}, RowSafe s row → RowSafe s' row := by
    intro row hrow
    refine ⟨hrow.paired, hrow.whole, ?_⟩
    rw [hclaims]
    exact hrow.unclaimed
  refine h.after hknown hconnection hprocs hproc ?_ ?_
  · rw [hgrant]
    refine update_grant (fun grant hsome hcond => ?_) fun grant hsome _ => ?_
    · obtain ⟨hcalm, hrow⟩ := hset grant hsome hcond
      exact ⟨Or.inr hcalm, hsafe hrow⟩
    · exact ⟨Or.inl ⟨grant, hsome, .refl⟩, hsafe (h.rowSafe hsome)⟩
  · rw [hclaims]
    intro state hstate
    obtain ⟨flow, hflow, rfl⟩ := List.mem_map.mp (h.drawn state hstate)
    exact List.mem_map.mpr ⟨flow, hflows flow hflow, rfl⟩

theorem ConsentInv.failure (h : ConsentInv s) {oauth grant : OauthRow} {stamp : Nat}
    (hproc : ∀ row, s.grant = some row → row.id = oauth.id → row.updatedAt = stamp →
      row.pendingState = none ∧ (oauth.status ≠ .connected → row.status ≠ .connected))
    (hgrant : s.grant = some grant) (hid : grant.id = oauth.id) (hstamp : grant.updatedAt = stamp)
    {code : JsString} : ∀ row, s.grant = some row → (fun _ => true) row = true →
      Calm s (row.recordFailure s.writes (callbackFailureStatus oauth) code) ∧
        RowSafe s (row.recordFailure s.writes (callbackFailureStatus oauth) code) := by
  intro row hsome _
  obtain rfl := Option.some.inj (hsome.symm.trans hgrant)
  refine ⟨⟨rfl, Or.inr (Or.inl (hproc row hgrant hid hstamp).1)⟩, ?_⟩
  exact (h.rowSafe hgrant).of_same rfl rfl rfl (recordFailure_status callbackFailureStatus_cases) rfl

theorem ConsentInv.step {e : BrokerEvent} (h : ConsentInv s) (hstep : Step P s e s')
    (hedits : e.edits = false) : ConsentInv s' := by
  have hknown := h.known.step hstep
  cases hstep with
  | reads hreads => exact h.kept hknown rfl rfl (hreads.safe h) rfl rfl rfl
  | ends p => exact h.kept hknown rfl (rfl : _ = (s.setProc p .idle).procs) trivial rfl rfl rfl
  | createInserts hp hconnection hnone | startInserts hp hconnection hnone =>
    refine h.after hknown rfl rfl trivial ?_ h.drawn
    intro row hrow
    obtain rfl := Option.some.inj hrow
    refine ⟨Or.inr ⟨rfl, Or.inl rfl⟩, ?_⟩
    exact ⟨OauthRow.paired_inserted, OauthRow.whole_inserted, nofun⟩
  | @arms p connection row userId env discovery flow nonces hp hfree _ _ hfresh =>
    refine h.update hknown rfl (rfl : _ = (s.setProc p .idle).procs) trivial rfl rfl
      (fun flow hflow => List.mem_cons_of_mem _ hflow) ?_
    intro grant hsome _
    have hrow := h.rowSafe hsome
    refine ⟨⟨rfl, Or.inr (Or.inr (Or.inl ⟨_, rfl, hfresh⟩))⟩, ?_⟩
    refine ⟨hrow.paired.of_same rfl rfl rfl, ?_, ?_⟩
    · intro hconnected
      change (if row.status = .connected then grant.status else .pending) = .connected at hconnected
      split at hconnected
      · exact hrow.whole hconnected
      · cases hconnected
    · intro state hstate hclaimed
      cases hstate
      exact hfresh (h.drawn _ hclaimed)
  | startFails code hp hfree =>
    refine h.update hknown rfl rfl trivial rfl rfl (fun flow hflow => hflow) ?_
    intro grant hsome _
    refine ⟨⟨rfl, Or.inr (Or.inr (Or.inr ⟨grant, hsome, rfl, rfl, ?_⟩))⟩, ?_⟩
    · exact recordFailure_status (Or.inl rfl)
    · exact (h.rowSafe hsome).of_same rfl rfl rfl (recordFailure_status (Or.inl rfl)) rfl
  | @claims p connection oauth grant userId state hp hfree hstate hgrant hid hsame =>
    have hproc := h.procs p
    rw [hp] at hproc
    refine h.after hknown rfl rfl ?_ ?_ ?_
    · refine ⟨hproc.1.2.1, fun row hrow _ _ => ?_⟩
      have hrow' := Option.map_eq_some_iff.mp hrow
      obtain ⟨before, hbefore, rfl⟩ := hrow'
      refine ⟨rfl, fun hstatus => ?_⟩
      obtain rfl := Option.some.inj (hbefore.symm.trans hgrant)
      exact hproc.1.2.2 before hgrant hid (hsame.trans hstate.symm) hstatus
    · refine update_grant (fun row hsome _ => ?_) fun row _ hfalse => by cases hfalse
      refine ⟨Or.inr ⟨rfl, Or.inr (Or.inl rfl)⟩, ?_⟩
      have hrow := h.rowSafe hsome
      exact ⟨hrow.paired.of_same rfl rfl rfl, hrow.whole, nofun⟩
    · intro claimed hclaimed
      rcases List.mem_cons.mp hclaimed with rfl | hold
      · obtain ⟨flow, hflow, rfl, _⟩ := (h.known.grant grant hgrant).armed _ hsame
        exact List.mem_map.mpr ⟨flow, hflow, rfl⟩
      · exact h.drawn claimed hold
  | @promotes p connection oauth grant userId stamp tokens now hp hfree hgrant hid hstamp =>
    have hproc := h.procs p
    rw [hp] at hproc
    have hstate : oauth.pendingState ≠ none := by
      have hknownProc := h.known.procs p
      rw [hp] at hknownProc
      exact hknownProc.2.1
    obtain ⟨flow, hflow⟩ : ∃ flow, oauth.pendingFlow = some flow := by
      have hknownProc := h.known.procs p
      rw [hp] at hknownProc
      obtain ⟨state, hsome⟩ := Option.ne_none_iff_exists'.mp hstate
      obtain ⟨flow, _, _, hpending, _⟩ := hknownProc.1.armed state hsome
      exact ⟨_, hpending⟩
    refine h.update hknown rfl rfl ?_ rfl rfl (fun flow hflow => hflow) ?_
    · split <;> trivial
    · intro row hsome _
      obtain rfl := Option.some.inj (hsome.symm.trans hgrant)
      have hnone := (hproc.2 row hgrant hid hstamp).1
      refine ⟨⟨rfl, Or.inr (Or.inl hnone)⟩, OauthRow.paired_promote hflow, nofun, ?_⟩
      intro state hsome'
      change row.pendingState = some state at hsome'
      rw [hnone] at hsome'
      cases hsome'
  | @callbackStops p connection oauth grant userId stamp expiresAt now env query code hp hfree _ _ _
      hgrant hid hstamp =>
    have hproc := h.procs p
    rw [hp] at hproc
    exact h.update hknown rfl rfl trivial rfl rfl (fun flow hflow => hflow)
      (h.failure hproc.2 hgrant hid hstamp)
  | @exchangeFails p connection oauth grant userId stamp code hp hfree hgrant hid hstamp =>
    have hproc := h.procs p
    rw [hp] at hproc
    exact h.update hknown rfl rfl trivial rfl rfl (fun flow hflow => hflow)
      (h.failure hproc.2 hgrant hid hstamp)
  | locks hp hfree hgrant => exact h.kept hknown rfl rfl trivial rfl rfl rfl
  | getsStored hp hplan => exact h.kept hknown rfl rfl trivial rfl rfl rfl
  | findsNoMaterial hp hplan =>
    refine h.update hknown rfl rfl trivial rfl rfl (fun flow hflow => hflow) ?_
    intro grant hsome _
    exact ⟨⟨rfl, Or.inr (Or.inr (Or.inr ⟨grant, hsome, rfl, rfl, nofun⟩))⟩,
      (h.rowSafe hsome).of_same rfl rfl rfl nofun rfl⟩
  | @refreshSucceeds p url row refreshToken refreshed now hp =>
    have hproc := h.known.procs p
    rw [hp] at hproc
    refine h.update hknown rfl rfl trivial rfl rfl (fun flow hflow => hflow) ?_
    intro grant hsome _
    obtain rfl := Option.some.inj (hsome.symm.trans hproc.2.1)
    have hrow := h.rowSafe hsome
    exact ⟨⟨rfl, Or.inr (Or.inr (Or.inr ⟨grant, hsome, rfl, rfl, id⟩))⟩,
      OauthRow.paired_refresh hrow.paired hproc.2.2, nofun, hrow.unclaimed⟩
  | refreshRejected code hp =>
    refine h.update hknown rfl rfl trivial rfl rfl (fun flow hflow => hflow) ?_
    intro grant hsome _
    exact ⟨⟨rfl, Or.inr (Or.inr (Or.inr ⟨grant, hsome, rfl, rfl, nofun⟩))⟩,
      (h.rowSafe hsome).of_same rfl rfl rfl nofun rfl⟩
  | updateDeletes _ _ _ => cases hedits
  | updateResets _ _ _ => cases hedits
  | patches _ _ => cases hedits
  | deletes _ _ => cases hedits
  | publishes _ _ | membershipsChange _ =>
    exact h.env hknown rfl rfl (fun row hrow => ⟨row, hrow, .refl, h.rowSafe hrow⟩) rfl rfl
  | userIsDeleted userId hfree =>
    refine h.env hknown rfl rfl (fun row' hrow' => ?_) rfl rfl
    obtain ⟨row, hrow, rfl⟩ := Option.map_eq_some_iff.mp hrow'
    exact ⟨row, hrow, ⟨rfl, rfl, rfl, rfl⟩, (h.rowSafe hrow).of_same rfl rfl rfl id rfl⟩

/-! ### What a step does -/

theorem grantKept_same {e : BrokerEvent} (hgrant : s'.grant = s.grant) : GrantKept ⟨s, e, s'⟩ :=
  fun row hrow => ⟨row, hgrant.trans hrow, Or.inl rfl, Or.inl rfl⟩

theorem grantKept_update {e : BrokerEvent} {cond : OauthRow → Bool} {set : OauthRow → OauthRow}
    (hgrant : s'.grant = (s.update cond set).grant)
    (hset : ∀ grant, ((set grant).home = grant.home ∨ ∃ p, e = .promoted p) ∧
      ((set grant).tokens = grant.tokens ∨ (∃ p, e = .promoted p) ∨ ∃ p, e = .refreshed p)) :
    GrantKept ⟨s, e, s'⟩ := by
  intro row hrow
  have hafter : s'.grant = some (if cond row then set row else row) := by
    rw [hgrant]
    show s.grant.map _ = _
    rw [hrow]
    rfl
  refine ⟨_, hafter, ?_⟩
  split
  · exact hset row
  · exact ⟨Or.inl rfl, Or.inl rfl⟩

theorem Step.grantKept {e : BrokerEvent} (hstep : Step P s e s') (hedits : e.edits = false) :
    GrantKept ⟨s, e, s'⟩ := by
  cases hstep with
  | reads _ | ends _ | locks _ _ _ | getsStored _ _ | publishes _ _ | membershipsChange _ =>
    exact grantKept_same rfl
  | createInserts _ _ hnone | startInserts _ _ hnone =>
    intro row hrow
    cases hnone.symm.trans hrow
  | arms | startFails | claims | callbackStops | exchangeFails | findsNoMaterial |
      refreshRejected =>
    exact grantKept_update rfl fun grant => ⟨Or.inl rfl, Or.inl rfl⟩
  | promotes =>
    exact grantKept_update rfl fun grant => ⟨Or.inr ⟨_, rfl⟩, Or.inr (Or.inl ⟨_, rfl⟩)⟩
  | refreshSucceeds =>
    exact grantKept_update rfl fun grant => ⟨Or.inl rfl, Or.inr (Or.inr ⟨_, rfl⟩)⟩
  | updateDeletes _ _ _ => cases hedits
  | updateResets _ _ _ => cases hedits
  | patches _ _ => cases hedits
  | deletes _ _ => cases hedits
  | userIsDeleted userId _ =>
    intro row hrow
    refine ⟨row.forgetUser userId, ?_, Or.inl rfl, Or.inl rfl⟩
    show s.grant.map _ = _
    rw [hrow]
    rfl

theorem Step.claimedOnce {e : BrokerEvent} (h : ConsentInv s) (hstep : Step P s e s') :
    ClaimedOnce ⟨s, e, s'⟩ := by
  intro p state userId he
  cases hstep with
  | claims _ _ _ hgrant _ hsame =>
    cases he
    exact h.unclaimed _ _ hgrant hsame
  | reads hreads => cases hreads <;> cases he
  | _ => cases he

theorem statusKept_update {e : BrokerEvent} {cond : OauthRow → Bool}
    {set : OauthRow → OauthRow} (hgrant : s'.grant = (s.update cond set).grant)
    (hset : ∀ grant, s.grant = some grant → grant.status = .connected →
      (set grant).status = .connected) : StatusKept ⟨s, e, s'⟩ := by
  intro row row' hrow hrow' hconnected hnot
  have hafter : s'.grant = some (if cond row then set row else row) := by
    rw [hgrant]
    show s.grant.map _ = _
    rw [show s.grant = some row from hrow]
    rfl
  obtain rfl := Option.some.inj (hrow'.symm.trans hafter)
  split at hnot
  · exact absurd (hset row hrow hconnected) hnot
  · exact absurd hconnected hnot

theorem statusKept_same {e : BrokerEvent} (hgrant : s'.grant = s.grant) : StatusKept ⟨s, e, s'⟩ := by
  intro row row' hrow hrow' hconnected hnot
  obtain rfl := Option.some.inj (hrow'.symm.trans (hgrant.trans hrow))
  exact absurd hconnected hnot

theorem armSees_of_event {e : BrokerEvent} (he : ∀ p, e ≠ .armed p) : ArmSees ⟨s, e, s'⟩ :=
  fun p _ _ _ _ hevent => absurd hevent (he p)

/-- A failed callback does not disconnect: what it records is what its snapshot calls for. -/
theorem failure_status {oauth grant : OauthRow} {stamp : Nat} {code : JsString}
    (hwhole : oauth.Whole)
    (hproc : ∀ row, s.grant = some row → row.id = oauth.id → row.updatedAt = stamp →
      row.pendingState = none ∧ (oauth.status ≠ .connected → row.status ≠ .connected))
    (hgrant : s.grant = some grant) (hid : grant.id = oauth.id) (hstamp : grant.updatedAt = stamp) :
    ∀ row, s.grant = some row → row.status = .connected →
      (row.recordFailure s.writes (callbackFailureStatus oauth) code).status = .connected := by
  intro row hsome hconnected
  obtain rfl := Option.some.inj (hsome.symm.trans hgrant)
  have hread : oauth.status = .connected := by
    by_contra hne
    exact (hproc row hgrant hid hstamp).2 hne hconnected
  show (callbackFailureStatus oauth).getD row.status = .connected
  rw [callbackFailureStatus, if_pos ⟨hread, hwhole hread⟩]
  exact hconnected

theorem Step.status_iff {e : BrokerEvent} (h : ConsentInv s) (hstep : Step P s e s')
    (hedits : e.edits = false) : StatusKept ⟨s, e, s'⟩ ↔ ArmSees ⟨s, e, s'⟩ := by
  have both : StatusKept ⟨s, e, s'⟩ → (∀ p, e ≠ .armed p) →
      (StatusKept ⟨s, e, s'⟩ ↔ ArmSees ⟨s, e, s'⟩) :=
    fun hkept he => iff_of_true hkept (armSees_of_event he)
  cases hstep with
  | reads hreads =>
    refine both (statusKept_same rfl) fun p he => ?_
    cases hreads <;> cases he
  | ends _ | locks _ _ _ | getsStored _ _ | publishes _ _ | membershipsChange _ =>
    exact both (statusKept_same rfl) nofun
  | createInserts _ _ hnone | startInserts _ _ hnone =>
    refine both (fun row row' hrow => ?_) nofun
    cases hnone.symm.trans hrow
  | @arms p connection read userId env discovery flow nonces hp hfree _ _ hfresh =>
    constructor
    · intro hkept q connection' read' userId' grant he hq hgrant hid hconnected
      cases he
      cases hp.symm.trans hq
      by_contra hne
      have hafter : (s.update (·.id == read.id)
          (·.arm s.writes read flow discovery nonces userId)).grant =
            some (grant.arm s.writes read flow discovery nonces userId) := by
        show s.grant.map _ = _
        rw [show s.grant = some grant from hgrant]
        show some (if (grant.id == read.id) = true then _ else _) = _
        rw [if_pos (beq_iff_eq.mpr hid)]
      obtain ⟨q, hexpired⟩ := hkept grant _ hgrant hafter hconnected (by
        show (if read.status = .connected then grant.status else .pending) ≠ _
        rw [if_neg hne]
        exact nofun)
      cases hexpired
    · intro hsees row row' hrow hrow' hconnected hnot
      refine absurd ?_ hnot
      have hafter : row' = if (row.id == read.id) = true then
          row.arm s.writes read flow discovery nonces userId else row := by
        have hmap : s.grant.map (fun grant => if (grant.id == read.id) = true then
            grant.arm s.writes read flow discovery nonces userId else grant) = some row' := hrow'
        rw [show s.grant = some row from hrow] at hmap
        exact (Option.some.inj hmap).symm
      rw [hafter]
      split
      · rename_i hid
        have hread := hsees p connection read userId row rfl hp hrow (beq_iff_eq.mp hid) hconnected
        show (if read.status = .connected then row.status else .pending) = _
        rw [if_pos hread]
        exact hconnected
      · exact hconnected
  | startFails | claims => exact both (statusKept_update rfl fun _ _ hconnected => hconnected) nofun
  | promotes | refreshSucceeds =>
    exact both (statusKept_update rfl fun _ _ hconnected => by first | rfl | exact hconnected) nofun
  | @callbackStops p connection oauth grant userId stamp expiresAt now env query code hp hfree _ _ _
      hgrant hid hstamp =>
    have hproc := h.procs p
    rw [hp] at hproc
    exact both (statusKept_update rfl (failure_status hproc.1 hproc.2 hgrant hid hstamp)) nofun
  | @exchangeFails p connection oauth grant userId stamp code hp hfree hgrant hid hstamp =>
    have hproc := h.procs p
    rw [hp] at hproc
    exact both (statusKept_update rfl (failure_status hproc.1 hproc.2 hgrant hid hstamp)) nofun
  | findsNoMaterial | refreshRejected => exact both (fun _ _ _ _ _ _ => ⟨_, rfl⟩) nofun
  | updateDeletes _ _ _ => cases hedits
  | updateResets _ _ _ => cases hedits
  | patches _ _ => cases hedits
  | deletes _ _ => cases hedits
  | userIsDeleted userId _ =>
    refine both (fun row row' hrow hrow' hconnected hnot => absurd hconnected ?_) nofun
    have hmap : s.grant.map (·.forgetUser userId) = some row' := hrow'
    rw [show s.grant = some row from hrow] at hmap
    rw [← Option.some.inj hmap] at hnot
    exact hnot

theorem Step.claimedByStarter {e : BrokerEvent} (h : ConsentInv s) (hstep : Step P s e s')
    (hknown : StarterKnown ⟨s, e, s'⟩) : ClaimedByStarter ⟨s, e, s'⟩ := by
  intro p state userId he
  cases hstep with
  | @claims q connection oauth grant userId' state' hp _ hstate _ _ _ =>
    cases he
    have hproc := h.procs p
    have hsnapshot := h.known.procs p
    rw [hp] at hproc hsnapshot
    obtain ⟨flow, hflow, hsame, _, hstarted⟩ := hsnapshot.1.armed state hstate
    refine ⟨flow, hflow, hsame, ?_⟩
    rcases hproc.2 with hnone | hstarter
    · exact absurd hnone (hknown p state userId connection oauth rfl hp)
    · exact (hstarted userId hstarter).symm
  | reads hreads => cases hreads <;> cases he
  | _ => cases he

/-! ### Access -/

/-- A callback that is to claim belongs to a user with access. -/
def AccessInv (s : BrokerState) : Prop :=
  ∀ p connection oauth userId, s.procs p = .permitted connection oauth userId →
    mayManageConnection s.memberships userId connection = true

theorem permitted_of_setProc {q : Nat} {connection : ConnectionRow} {oauth : OauthRow}
    {userId : UserId}
    (h : (s.setProc p proc).procs q = .permitted connection oauth userId) :
    proc = .permitted connection oauth userId ∨ s.procs q = .permitted connection oauth userId := by
  change (if q = p then proc else s.procs q) = _ at h
  split at h
  · exact Or.inl h
  · exact Or.inr h

/-- Who is permitted has been, or is found to have access. -/
theorem Step.permitted {e : BrokerEvent} (hstep : Step P s e s') {q : Nat}
    {connection : ConnectionRow} {oauth : OauthRow} {userId : UserId}
    (h : s'.procs q = .permitted connection oauth userId) :
    s.procs q = .permitted connection oauth userId ∨
      (mayManageConnection s.memberships userId connection = true ∧
        s'.memberships = s.memberships) := by
  cases hstep with
  | reads hreads =>
    rcases permitted_of_setProc h with hproc | hold
    · cases hreads with
      | callbackPermitted _ haccess _ =>
        cases hproc
        exact Or.inr ⟨haccess, rfl⟩
      | _ => cases hproc
    · exact Or.inl hold
  | promotes =>
    rcases permitted_of_setProc h with hproc | hold
    · split at hproc <;> cases hproc
    · exact Or.inl hold
  | publishes | membershipsChange | userIsDeleted => exact Or.inl h
  | _ =>
    rcases permitted_of_setProc h with hproc | hold
    · cases hproc
    · exact Or.inl hold

theorem AccessInv.step {e : BrokerEvent} (h : AccessInv s) (hstep : Step P s e s')
    (hkept : AccessKept ⟨s, e, s'⟩) : AccessInv s' := by
  intro q connection oauth userId hq
  rcases hstep.permitted hq with hold | ⟨haccess, hsame⟩
  · exact hkept q connection oauth userId hold (h q connection oauth userId hold)
  · rw [hsame]
    exact haccess

theorem Step.claimedWithAccess {e : BrokerEvent} (h : ConsentInv s) (haccess : AccessInv s)
    (hstep : Step P s e s') : ClaimedWithAccess ⟨s, e, s'⟩ := by
  intro p state userId he
  cases hstep with
  | @claims q connection oauth grant userId' state' hp _ _ _ _ _ =>
    cases he
    have hproc := h.procs p
    rw [hp] at hproc
    exact ⟨connection, hproc.1.1, haccess p connection oauth userId hp⟩
  | reads hreads => cases hreads <;> cases he
  | _ => cases he

/-! ## Runs -/

theorem BrokerState.Initial.consent (h : s.Initial) : ConsentInv s := by
  refine ⟨h.inv, ?_, ?_, ?_, ?_, ?_⟩
  · intro row hrow
    cases h.grant.symm.trans hrow
  · intro row hrow
    cases h.grant.symm.trans hrow
  · intro p
    rcases h.procs p with hp | ⟨mode, hp⟩
    · rw [hp]
      trivial
    · rw [hp]
      trivial
  · rw [h.claims]
    exact fun state hstate => absurd hstate List.not_mem_nil
  · intro row state hrow
    cases h.grant.symm.trans hrow

theorem BrokerState.Initial.access (h : s.Initial) : AccessInv s := by
  intro p connection oauth userId hp
  rcases h.procs p with hidle | ⟨mode, hcreating⟩
  · cases hidle.symm.trans hp
  · cases hcreating.symm.trans hp

end

/-- In every run of starts, callbacks and token accesses on one connection: the live columns
change in promotions, and tokens in refreshes too; the tokens are always those of the endpoints
and the client beside them; no state is claimed twice.  The row ceases to be connected only when
it is retired, exactly when every start that arms a connected row has read it connected.  States
are claimed by those they were drawn for, and with access, while no user is deleted between and
nobody loses access in the moment before the claim. -/
theorem consent_keeps_grant (P : Platform) {s t : BrokerState} {moves : List BrokerMove}
    (hrun : Trace (Step P) s moves t) (hs : s.Initial)
    (hedits : ∀ m ∈ moves, m.event.edits = false) :
    (∀ m ∈ moves, GrantKept m ∧ m.after.Paired ∧ ClaimedOnce m) ∧
    ((∀ m ∈ moves, StatusKept m) ↔ ∀ m ∈ moves, ArmSees m) ∧
    ((∀ m ∈ moves, StarterKnown m) → ∀ m ∈ moves, ClaimedByStarter m) ∧
    ((∀ m ∈ moves, AccessKept m) → ∀ m ∈ moves, ClaimedWithAccess m) := by
  refine ⟨?_, ?_, ?_, ?_⟩
  · refine hrun.forall_of ConsentInv (fun m => m.event.edits = false) ?_ hedits hs.consent
    intro m hstep hm h
    have hafter := h.step hstep hm
    exact ⟨⟨hstep.grantKept hm, hafter.paired, hstep.claimedOnce h⟩, hafter⟩
  · exact hrun.forall_iff ConsentInv (fun m => m.event.edits = false)
      (fun m hstep hm h => hstep.status_iff h hm) (fun m hstep hm h _ => h.step hstep hm) hedits
      hs.consent
  · intro hknown
    refine hrun.forall_of ConsentInv (fun m => m.event.edits = false ∧ StarterKnown m) ?_
      (fun m hm => ⟨hedits m hm, hknown m hm⟩) hs.consent
    intro m hstep hm h
    exact ⟨hstep.claimedByStarter h hm.2, h.step hstep hm.1⟩
  · intro hkept
    refine hrun.forall_of (fun s => ConsentInv s ∧ AccessInv s)
      (fun m => m.event.edits = false ∧ AccessKept m) ?_ (fun m hm => ⟨hedits m hm, hkept m hm⟩)
      ⟨hs.consent, hs.access⟩
    intro m hstep hm h
    exact ⟨hstep.claimedWithAccess h.1 h.2, h.1.step hstep hm.1, h.2.step hstep hm.2⟩

/-- A first consent, from the start to the promotion. -/
theorem consent_keeps_grant_connected : ∃ moves t,
    Trace (Step samplePlatform) sampleState moves t ∧
      t.grant.map OauthRow.status = some .connected ∧
      ∀ m ∈ moves, GrantKept m ∧ m.after.Paired ∧ ClaimedOnce m := by
  have hrun : ∃ moves t, Trace (Step samplePlatform) sampleState moves t ∧
      (∀ m ∈ moves, m.event.edits = false) ∧ t.grant.map OauthRow.status = some .connected := by
    refine ⟨_, _, .cons (.reads (.startReads (p := 0) 1 rfl rfl rfl))
      (.cons (.startInserts (p := 0) rfl nofun rfl)
      (.cons (@Step.arms _ _ 0 _ _ _ _ _ _ sampleNonces rfl rfl sample_booted (sample_staged rfl) nofun)
      (.cons (.reads (.callbackFinds (p := 2) 1 rfl rfl rfl rfl))
      (.cons (.reads (.callbackPermitted (p := 2) rfl rfl (Or.inr rfl)))
      (.cons (.claims (p := 2) rfl rfl rfl rfl rfl rfl)
      (.cons (.reads (@Reads.exchanges _ _ 2 _ _ _ _ _ 0 sampleEnv sampleQuery _ rfl rfl (by decide) rfl))
      (.cons (.promotes (p := 2) sampleTokens 0 rfl rfl rfl rfl rfl)
      (.nil _)))))))), ?_, rfl⟩
    simp [BrokerEvent.edits]
  obtain ⟨moves, t, htrace, hedits, hconnected⟩ := hrun
  exact ⟨moves, t, htrace, hconnected,
    (consent_keeps_grant samplePlatform htrace sample_initial hedits).1⟩

/-- A start reads the row while the first flow is pending.  The first flow is promoted, and then
the start arms: the grant works and is no longer connected. -/
theorem start_disconnects : ∃ moves t, Trace (Step samplePlatform) sampleState moves t ∧
    (∀ m ∈ moves, m.event.edits = false) ∧ ¬ ∀ m ∈ moves, StatusKept m := by
  refine ⟨_, _, .cons (.reads (.startReads (p := 0) 1 rfl rfl rfl))
    (.cons (.startInserts (p := 0) rfl nofun rfl)
    (.cons (@Step.arms _ _ 0 _ _ _ _ _ _ sampleNonces rfl rfl sample_booted (sample_staged rfl) nofun)
    (.cons (.reads (.startReads (p := 1) 1 rfl rfl rfl))
    (.cons (.reads (.startFinds (p := 1) rfl rfl))
    (.cons (.reads (.callbackFinds (p := 2) 1 rfl rfl rfl rfl))
    (.cons (.reads (.callbackPermitted (p := 2) rfl rfl (Or.inr rfl)))
    (.cons (.claims (p := 2) rfl rfl rfl rfl rfl rfl)
    (.cons (.reads (@Reads.exchanges _ _ 2 _ _ _ _ _ 0 sampleEnv sampleQuery _ rfl rfl (by decide) rfl))
    (.cons (.promotes (p := 2) sampleTokens 0 rfl rfl rfl rfl rfl)
    (.cons (@Step.arms _ _ 1 _ _ _ _ _ _ ⟨ascii "verifier", ascii "again", 0⟩ rfl rfl
      sample_booted (sample_staged rfl) (by decide))
    (.nil _))))))))))), ?_, ?_⟩
  · simp [BrokerEvent.edits]
  · intro h
    obtain ⟨_, hexpired⟩ := h _ (List.mem_of_getElem? (i := 10) rfl) _ _ rfl rfl rfl nofun
    cases hexpired

end InvisibleString.Oauth
