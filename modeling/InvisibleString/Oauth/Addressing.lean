import InvisibleString.Oauth.Broker

/- # `Oauth.Addressing` — which server an access token is sent to

The URL is a column of the connection's row, the grant a row of its own.  An edit resets the grant
first and writes the URL after; a start reads the URL, waits for discovery and then arms the
grant; a tool step, a probe or a published version has its URL from before it asks for a token.
The stamp of a claim guards the grant's row only.

**Proved here.**

    in every run in which starts arm, and tokens are given out, while the connection has the URL
      they have read, and in which an edit that changes the URL finds nothing on the grant's row
      that a consent has put there: every request with a token goes to the URL its consent was
      started for, and no grant of another URL is ever stored  (`tokens_go_home`)
    without that, both happen  (`start_outlives_url`)
-/

namespace InvisibleString.Oauth

open Json (JsString ascii)
open Transition (Move Trace)

/-! ## What is asked -/

/-- A request to an MCP server carries a token of a consent that was started for that URL. -/
def DialedHome (m : Move BrokerState BrokerEvent) : Prop :=
  ∀ url token, m.event = .dialed url token → token.consent.startedFor = url

/-- The tokens on the row are of a consent that was started for the connection's URL. -/
def StoredHome (s : BrokerState) : Prop :=
  ∀ connection row token, s.connection = some connection → s.grant = some row →
    row.accessToken = some token ∨ row.refreshToken = some token →
    token.consent.startedFor = connection.url

/-! ## Conditions on a step -/

/-- A start arms the grant while the connection has the URL it discovered. -/
def ArmAddressed (m : Move BrokerState BrokerEvent) : Prop :=
  ∀ p read row userId connection, m.event = .armed p →
    m.before.procs p = .discovering read row userId → m.before.connection = some connection →
    connection.url = read.url

/-- The callback has claimed the row in the state it is in. -/
def Proc.Claims (proc : Proc) (row : OauthRow) : Prop :=
  ∃ connection oauth userId, oauth.id = row.id ∧
    (proc = .claimed connection oauth userId row.updatedAt ∨
      proc = .exchanging connection oauth userId row.updatedAt)

/-- No consent has put anything on the row, and none is about to. -/
structure Unused (s : BrokerState) (row : OauthRow) : Prop where
  access : row.accessToken = none
  refresh : row.refreshToken = none
  state : row.pendingState = none
  claims : ∀ p, ¬ (s.procs p).Claims row

/-- An edit that changes the URL finds the grant's row unused. -/
def PatchAddressed (m : Move BrokerState BrokerEvent) : Prop :=
  ∀ p connection connection' row, m.event = .patched p → m.before.connection = some connection →
    m.after.connection = some connection' → connection'.url ≠ connection.url →
    m.before.grant = some row → Unused m.before row

/-- A token is given out while the connection has the URL it is asked for. -/
def AccessAddressed (m : Move BrokerState BrokerEvent) : Prop :=
  ∀ p url row connection, (m.event = .served p ∨ m.event = .refreshed p) →
    (m.before.procs p = .locked url row ∨ ∃ token, m.before.procs p = .refreshing url row token) →
    m.before.connection = some connection → connection.url = url

structure Addressed (m : Move BrokerState BrokerEvent) : Prop where
  arm : ArmAddressed m
  patch : PatchAddressed m
  access : AccessAddressed m

/-! ## The invariant -/

/-- The row's tokens, and what is armed on it, are of `url`. -/
structure RowAddressed (url : JsString) (row : OauthRow) : Prop where
  tokens : ∀ token, row.accessToken = some token ∨ row.refreshToken = some token →
    token.consent.startedFor = url
  armed : ∀ flow, row.pendingState ≠ none → row.pendingFlow = some flow → flow.startedFor = url

/-- A claim that can still be promoted is of the connection's URL; a token in hand, of the URL it
is in hand for. -/
def ProcAddressed (s : BrokerState) : Proc → Prop
  | .claimed _ oauth _ stamp | .exchanging _ oauth _ stamp =>
    ∀ connection row flow, s.connection = some connection → s.grant = some row →
      row.id = oauth.id → row.updatedAt = stamp → oauth.pendingFlow = some flow →
      flow.startedFor = connection.url
  | .holding url token => token.consent.startedFor = url
  | _ => True

structure AddressInv (s : BrokerState) : Prop where
  known : BrokerInv s
  connected : s.connection = none → s.grant = none
  row : ∀ connection row, s.connection = some connection → s.grant = some row →
    RowAddressed connection.url row
  procs : ∀ p, ProcAddressed s (s.procs p)

section

variable {P : Platform} {s s' : BrokerState} {p : Nat} {proc : Proc} {row row' : OauthRow}
  {url : JsString}

/-! ### Rows -/

theorem RowAddressed.of_same (h : RowAddressed url row) (haccess : row'.accessToken = row.accessToken)
    (hrefresh : row'.refreshToken = row.refreshToken)
    (hpending : row'.pendingState = none ∨
      (row'.pendingState = row.pendingState ∧ row'.pendingFlow = row.pendingFlow)) :
    RowAddressed url row' := by
  refine ⟨?_, ?_⟩
  · rw [haccess, hrefresh]
    exact h.tokens
  · intro flow hstate hflow
    rcases hpending with hnone | ⟨hsame, hflows⟩
    · exact absurd hnone hstate
    · exact h.armed flow (hsame ▸ hstate) (hflows.symm.trans hflow)

theorem rowAddressed_inserted {id stamp : Nat} {mode : Option ClientIdentityMode} :
    RowAddressed url (.inserted id stamp mode) := by
  refine ⟨?_, nofun⟩
  rintro token (h | h)
  · cases h
  · cases h

theorem RowAddressed.unused (haccess : row.accessToken = none) (hrefresh : row.refreshToken = none)
    (hstate : row.pendingState = none) : RowAddressed url row := by
  refine ⟨?_, fun _ hpending => absurd hstate hpending⟩
  rw [haccess, hrefresh]
  rintro token (h | h)
  · cases h
  · cases h

/-- A row found with a state, and the row with that state now: one flow is armed on both. -/
theorem same_flow {oauth : OauthRow} {state : JsString} (h : BrokerInv s) (hrow : Known s row)
    (hoauth : Known s oauth) (hstate : row.pendingState = some state)
    (hfound : oauth.pendingState = some state) : oauth.pendingFlow = row.pendingFlow := by
  obtain ⟨flow, hflow, hsame, hpending, _⟩ := hrow.armed state hstate
  obtain ⟨flow', hflow', hsame', hpending', _⟩ := hoauth.armed state hfound
  have heq : flow' = flow :=
    List.inj_on_of_nodup_map h.states hflow' hflow (hsame'.trans hsame.symm)
  rw [hpending, hpending', heq]

/-! ### Processes -/

/-- After a write, or while nothing changes, a claim of another process is as good as before. -/
theorem ProcAddressed.mono {q : Nat} (h : ProcAddressed s proc) (hknown : ProcKnown s q proc)
    (hconnection : s'.connection = s.connection)
    (hgrant : ∀ row', s'.grant = some row' → row'.updatedAt = s.writes ∨
      ∃ row, s.grant = some row ∧ row'.id = row.id ∧ row'.updatedAt = row.updatedAt) :
    ProcAddressed s' proc := by
  have claimed : ∀ (oauth : OauthRow) (stamp : Nat), stamp < s.writes →
      (∀ connection row flow, s.connection = some connection → s.grant = some row →
        row.id = oauth.id → row.updatedAt = stamp → oauth.pendingFlow = some flow →
        flow.startedFor = connection.url) →
      ∀ connection row flow, s'.connection = some connection → s'.grant = some row →
        row.id = oauth.id → row.updatedAt = stamp → oauth.pendingFlow = some flow →
        flow.startedFor = connection.url := by
    intro oauth stamp hstamp hold connection row' flow hc hrow' hid hsame hflow
    rcases hgrant row' hrow' with hwritten | ⟨row, hrow, hrid, hrstamp⟩
    · exact absurd (hwritten.symm.trans hsame ▸ hstamp) (lt_irrefl _)
    · exact hold connection row flow (hconnection.symm.trans hc) hrow (hrid.symm.trans hid)
        (hrstamp.symm.trans hsame) hflow
  cases proc with
  | claimed _ oauth _ stamp => exact claimed oauth stamp hknown.2.2 h
  | exchanging _ oauth _ stamp => exact claimed oauth stamp hknown.2.2 h
  | holding url token => exact h
  | _ => trivial

/-- The connection's row is written; a claim is of the same URL, or is no claim on the grant. -/
theorem ProcAddressed.moved {connection connection' : ConnectionRow} (h : ProcAddressed s proc)
    (hconnection : s.connection = some connection) (hafter : s'.connection = some connection')
    (hgrant : s'.grant = s.grant)
    (hclaims : ∀ row, s.grant = some row →
      connection'.url = connection.url ∨ ¬ proc.Claims row) : ProcAddressed s' proc := by
  cases proc with
  | claimed c oauth userId stamp =>
    intro found row flow hc hrow hid hstamp hflow
    cases hafter.symm.trans hc
    rw [hgrant] at hrow
    rcases hclaims row hrow with hurl | hnot
    · rw [hurl]
      exact h connection row flow hconnection hrow hid hstamp hflow
    · exact absurd ⟨c, oauth, userId, hid.symm, Or.inl (hstamp ▸ rfl)⟩ hnot
  | exchanging c oauth userId stamp =>
    intro found row flow hc hrow hid hstamp hflow
    cases hafter.symm.trans hc
    rw [hgrant] at hrow
    rcases hclaims row hrow with hurl | hnot
    · rw [hurl]
      exact h connection row flow hconnection hrow hid hstamp hflow
    · exact absurd ⟨c, oauth, userId, hid.symm, Or.inr (hstamp ▸ rfl)⟩ hnot
  | holding url token => exact h
  | _ => trivial

theorem ProcAddressed.of_deleted (h : ProcAddressed s proc) (hgrant : s'.grant = none) :
    ProcAddressed s' proc := by
  cases proc with
  | claimed _ oauth _ stamp | exchanging _ oauth _ stamp =>
    intro connection row flow _ hrow
    cases hgrant.symm.trans hrow
  | holding url token => exact h
  | _ => trivial

theorem AddressInv.after (h : AddressInv s) (hknown : BrokerInv s')
    (hconnection : s'.connection = s.connection) (hprocs : s'.procs = (s.setProc p proc).procs)
    (hproc : ProcAddressed s' proc)
    (hgrant : ∀ row', s'.grant = some row' →
      (row'.updatedAt = s.writes ∨
        ∃ row, s.grant = some row ∧ row'.id = row.id ∧ row'.updatedAt = row.updatedAt) ∧
      s.connection ≠ none ∧
      ∀ connection, s.connection = some connection → RowAddressed connection.url row') :
    AddressInv s' where
  known := hknown
  connected hnone := by
    cases hrow : s'.grant with
    | none => rfl
    | some row' => exact absurd (hconnection.symm.trans hnone) (hgrant row' hrow).2.1
  row connection row' hc hrow := (hgrant row' hrow).2.2 connection (hconnection.symm.trans hc)
  procs := procs_of_others (Q := fun _ => ProcAddressed s') hproc (fun q _ =>
    (h.procs q).mono (h.known.procs q) hconnection fun row' hrow => (hgrant row' hrow).1) hprocs

theorem AddressInv.connection_some (h : AddressInv s) (hrow : s.grant = some row) :
    s.connection ≠ none := by
  intro hnone
  cases (h.connected hnone).symm.trans hrow

theorem AddressInv.kept (h : AddressInv s) (hknown : BrokerInv s')
    (hconnection : s'.connection = s.connection) (hprocs : s'.procs = (s.setProc p proc).procs)
    (hproc : ProcAddressed s' proc) (hgrant : s'.grant = s.grant) : AddressInv s' := by
  refine h.after hknown hconnection hprocs hproc fun row hrow => ?_
  rw [hgrant] at hrow
  exact ⟨Or.inr ⟨row, hrow, rfl, rfl⟩, h.connection_some hrow,
    fun connection hc => h.row connection row hc hrow⟩

theorem AddressInv.update (h : AddressInv s) {cond : OauthRow → Bool} {set : OauthRow → OauthRow}
    (hknown : BrokerInv s') (hconnection : s'.connection = s.connection)
    (hprocs : s'.procs = (s.setProc p proc).procs) (hproc : ProcAddressed s' proc)
    (hgrant : s'.grant = (s.update cond set).grant) (hstamp : ∀ row, (set row).updatedAt = s.writes)
    (hset : ∀ connection row, s.connection = some connection → s.grant = some row →
      cond row = true → RowAddressed connection.url (set row)) : AddressInv s' := by
  refine h.after hknown hconnection hprocs hproc ?_
  rw [hgrant]
  refine update_grant (fun row hrow hcond => ?_) fun row hrow _ => ?_
  · exact ⟨Or.inl (hstamp row), h.connection_some hrow,
      fun connection hc => hset connection row hc hrow hcond⟩
  · exact ⟨Or.inr ⟨row, hrow, rfl, rfl⟩, h.connection_some hrow,
      fun connection hc => h.row connection row hc hrow⟩

theorem AddressInv.update_same (h : AddressInv s) {cond : OauthRow → Bool}
    {set : OauthRow → OauthRow} (hknown : BrokerInv s') (hconnection : s'.connection = s.connection)
    (hprocs : s'.procs = (s.setProc p proc).procs) (hproc : ProcAddressed s' proc)
    (hgrant : s'.grant = (s.update cond set).grant)
    (hset : ∀ row, (set row).updatedAt = s.writes ∧ (set row).accessToken = row.accessToken ∧
      (set row).refreshToken = row.refreshToken ∧ ((set row).pendingState = none ∨
        ((set row).pendingState = row.pendingState ∧ (set row).pendingFlow = row.pendingFlow))) :
    AddressInv s' := by
  refine h.update hknown hconnection hprocs hproc hgrant (fun row => (hset row).1) ?_
  intro connection row hc hrow _
  obtain ⟨_, haccess, hrefresh, hpending⟩ := hset row
  exact (h.row connection row hc hrow).of_same haccess hrefresh hpending

/-! ### Steps -/

theorem Reads.addressed {e : BrokerEvent} (h : Reads P s p e proc) (hinv : AddressInv s) :
    ProcAddressed (s.setProc p proc) proc := by
  have hproc := hinv.procs p
  cases h with
  | exchanges hp _ _ _ =>
    rw [hp] at hproc
    exact hproc
  | dials hp =>
    rw [hp] at hproc
    exact hproc
  | _ => trivial

theorem Staged.startedFor {env : BrokerEnv} {connection : ConnectionRow}
    {discovery : OauthDiscovery} {flow : PendingFlow}
    (h : Staged P env connection row discovery flow) : flow.startedFor = connection.url := by
  cases h with
  | mk _ _ => rfl

theorem refresh_tokens {token minted : Token} {stamp now : Nat} {answer : TokenResponse}
    (h : (row.refresh stamp token.consent answer now).accessToken = some minted ∨
      (row.refresh stamp token.consent answer now).refreshToken = some minted) :
    minted.consent = token.consent ∨ row.refreshToken = some minted := by
  rcases h with haccess | hrefresh
  · rw [← Option.some.inj haccess]
    exact Or.inl rfl
  · exact OauthRow.refreshToken_refresh hrefresh

theorem AddressInv.step {e : BrokerEvent} (h : AddressInv s) (hstep : Step P s e s')
    (hm : Addressed ⟨s, e, s'⟩) : AddressInv s' := by
  have hknown := h.known.step hstep
  cases hstep with
  | reads hreads => exact h.kept hknown rfl rfl (hreads.addressed h) rfl
  | ends p => exact h.kept hknown rfl (rfl : _ = (s.setProc p .idle).procs) trivial rfl
  | createInserts _ hconnection _ | startInserts _ hconnection _ =>
    refine h.after hknown rfl rfl trivial fun row hrow => ?_
    cases hrow
    exact ⟨Or.inl rfl, hconnection, fun connection _ => rowAddressed_inserted⟩
  | @arms p connection row userId env discovery flow nonces hp hfree _ hstaged hfresh =>
    refine h.update hknown rfl (rfl : _ = (s.setProc p .idle).procs) trivial rfl (fun _ => rfl) ?_
    intro connection' row' hc hrow _
    have hurl := hm.arm p connection row userId connection' rfl hp hc
    refine ⟨(h.row connection' row' hc hrow).tokens, fun armed _ harmed => ?_⟩
    cases harmed
    exact hstaged.startedFor.trans hurl.symm
  | startFails | callbackStops | exchangeFails | findsNoMaterial | refreshRejected =>
    exact h.update_same hknown rfl rfl trivial rfl
      fun row => ⟨rfl, rfl, rfl, Or.inr ⟨rfl, rfl⟩⟩
  | @claims p connection oauth grant userId state hp hfree hstate hgrant hid hsame =>
    refine h.update_same hknown rfl rfl ?_ rfl fun row => ⟨rfl, rfl, rfl, Or.inl rfl⟩
    intro connection' row' flow hc _ _ _ hflow
    have hproc := h.known.procs p
    rw [hp] at hproc
    have hflows := same_flow h.known (h.known.grant grant hgrant) hproc.1 hsame hstate
    refine (h.row connection' grant hc hgrant).armed flow ?_ (hflows.symm.trans hflow)
    rw [hsame]
    exact Option.some_ne_none _
  | @promotes p connection oauth grant userId stamp tokens now hp hfree hgrant hid hstamp =>
    have hproc := h.procs p
    have hsnapshot := h.known.procs p
    rw [hp] at hproc hsnapshot
    obtain ⟨state, hstate⟩ := Option.ne_none_iff_exists'.mp hsnapshot.2.1
    obtain ⟨flow, _, _, hflow, _⟩ := hsnapshot.1.armed state hstate
    have hconsent : oauth.consented connection = flow.flow := by
      rw [OauthRow.consented, hflow]
      rfl
    refine h.update hknown rfl rfl ?_ rfl (fun _ => rfl) ?_
    · split <;> trivial
    · intro connection' row hc hrow _
      obtain rfl := Option.some.inj (hrow.symm.trans hgrant)
      have hurl := hproc connection' row flow.flow hc hrow hid hstamp hflow
      refine ⟨fun token htoken => ?_, (h.row connection' row hc hrow).armed⟩
      rcases htoken with haccess | hrefresh
      · rw [← Option.some.inj haccess, hconsent]
        exact hurl
      · obtain ⟨text, _, rfl⟩ := Option.map_eq_some_iff.mp hrefresh
        rw [hconsent]
        exact hurl
  | locks => exact h.kept hknown rfl rfl trivial rfl
  | @getsStored p url row env now token hp hplan =>
    have hproc := h.known.procs p
    rw [hp] at hproc
    refine h.kept hknown rfl rfl ?_ rfl
    obtain ⟨connection, hc⟩ := Option.ne_none_iff_exists'.mp (h.connection_some hproc.2)
    have hurl := hm.access p url row connection (Or.inl rfl) (Or.inl hp) hc
    exact ((h.row connection row hc hproc.2).tokens token
      (Or.inl (accessPlan_stored hplan))).trans hurl
  | @refreshSucceeds p url row refreshToken refreshed now hp =>
    have hproc := h.known.procs p
    rw [hp] at hproc
    obtain ⟨connection, hc⟩ := Option.ne_none_iff_exists'.mp (h.connection_some hproc.2.1)
    have hurl := hm.access p url row connection (Or.inr rfl) (Or.inr ⟨_, hp⟩) hc
    have hrow := h.row connection row hc hproc.2.1
    have hconsent := hrow.tokens refreshToken (Or.inr hproc.2.2)
    refine h.update hknown rfl rfl (hconsent.trans hurl) rfl (fun _ => rfl) ?_
    intro connection' row' hc' hrow' _
    cases hc'.symm.trans hc
    cases hrow'.symm.trans hproc.2.1
    refine ⟨fun token htoken => ?_, hrow.armed⟩
    rcases refresh_tokens htoken with hsame | hkept
    · rw [hsame]
      exact hconsent
    · exact hrow.tokens token (Or.inr hkept)
  | updateDeletes =>
    refine h.after hknown rfl rfl trivial fun row hrow => ?_
    have hold := (Option.filter_eq_some_iff.mp hrow).1
    exact ⟨Or.inr ⟨row, hold, rfl, rfl⟩, h.connection_some hold,
      fun connection hc => h.row connection row hc hold⟩
  | updateResets =>
    exact h.update hknown rfl rfl trivial rfl (fun _ => rfl)
      fun connection row _ _ _ => rowAddressed_inserted
  | @patches p input connection hp hconnection =>
    have hkept : ∀ row, s.grant = some row →
        (connection.patch input).url = connection.url ∨ Unused s row := by
      intro row hrow
      by_cases hurl : (connection.patch input).url = connection.url
      · exact Or.inl hurl
      · exact Or.inr (hm.patch p connection _ row rfl hconnection rfl hurl hrow)
    refine ⟨hknown, fun hnone => (by cases hnone), fun connection' row hc hrow => ?_, ?_⟩
    · cases hc
      rcases hkept row hrow with hurl | hunused
      · rw [hurl]
        exact h.row connection row hconnection hrow
      · exact .unused hunused.access hunused.refresh hunused.state
    · refine procs_of_others (Q := fun _ => ProcAddressed _)
        (show ProcAddressed _ .idle from trivial) (fun q _ => ?_) (p := p) rfl
      refine (h.procs q).moved hconnection rfl rfl fun row hrow => ?_
      rcases hkept row hrow with hurl | hunused
      · exact Or.inl hurl
      · exact Or.inr (hunused.claims q)
  | @deletes p grant hp hfree =>
    refine ⟨hknown, fun _ => rfl, fun connection row hc _ => (by cases hc), ?_⟩
    exact procs_of_others (Q := fun _ => ProcAddressed _)
      (show ProcAddressed _ .idle from trivial) (fun q _ => (h.procs q).of_deleted rfl) (p := p) rfl
  | publishes | membershipsChange =>
    refine ⟨hknown, h.connected, h.row, fun q => ?_⟩
    exact (h.procs q).mono (h.known.procs q) rfl
      fun row hrow => Or.inr ⟨row, hrow, rfl, rfl⟩
  | userIsDeleted userId hfree =>
    refine ⟨hknown, fun hnone => ?_, fun connection row hc hrow => ?_, fun q => ?_⟩
    · show s.grant.map _ = none
      rw [h.connected hnone]
      rfl
    · obtain ⟨before, hbefore, rfl⟩ := Option.map_eq_some_iff.mp hrow
      exact (h.row connection before hc hbefore).of_same rfl rfl (Or.inr ⟨rfl, rfl⟩)
    · refine (h.procs q).mono (h.known.procs q) rfl fun row hrow => ?_
      obtain ⟨before, hbefore, rfl⟩ := Option.map_eq_some_iff.mp hrow
      exact Or.inr ⟨before, hbefore, rfl, rfl⟩

theorem addressed_of_event {m : Move BrokerState BrokerEvent}
    (h : ∀ p, m.event ≠ .armed p ∧ m.event ≠ .patched p ∧ m.event ≠ .served p ∧
      m.event ≠ .refreshed p) : Addressed m := by
  refine ⟨?_, ?_, ?_⟩
  · intro p _ _ _ _ he
    exact absurd he (h p).1
  · intro p _ _ _ he
    exact absurd he (h p).2.1
  · rintro p _ _ _ (he | he)
    · exact absurd he (h p).2.2.1
    · exact absurd he (h p).2.2.2

theorem Step.dialedHome {e : BrokerEvent} (h : AddressInv s) (hstep : Step P s e s') :
    DialedHome ⟨s, e, s'⟩ := by
  intro url token he
  cases hstep with
  | @reads p e proc hreads =>
    have hproc := h.procs p
    cases hreads with
    | dials hp =>
      cases he
      rw [hp] at hproc
      exact hproc
    | _ => cases he
  | _ => cases he

theorem AddressInv.storedHome (h : AddressInv s) : StoredHome s :=
  fun connection row token hc hrow htoken => (h.row connection row hc hrow).tokens token htoken

theorem BrokerState.Initial.address (h : s.Initial) : AddressInv s := by
  refine ⟨h.inv, fun _ => h.grant, ?_, fun p => ?_⟩
  · intro connection row _ hrow
    cases h.grant.symm.trans hrow
  · rcases h.procs p with hp | ⟨mode, hp⟩
    · rw [hp]
      trivial
    · rw [hp]
      trivial

end

/-- In every run whose steps are addressed, every request with a token goes to the URL the
token's consent was started for, and the tokens that are stored are of the connection's URL. -/
theorem tokens_go_home (P : Platform) {s t : BrokerState}
    {moves : List (Move BrokerState BrokerEvent)} (hrun : Trace (Step P) s moves t)
    (hs : s.Initial) (hmoves : ∀ m ∈ moves, Addressed m) :
    ∀ m ∈ moves, DialedHome m ∧ StoredHome m.after := by
  refine hrun.forall_of AddressInv Addressed (fun m hstep hm h => ?_) hmoves hs.address
  have hafter := h.step hstep hm
  exact ⟨⟨hstep.dialedHome h, hafter.storedHome⟩, hafter⟩

/-- A consent, and a tool step that uses its token. -/
theorem tokens_go_home_tool_step : ∃ moves t,
    Trace (Step samplePlatform) sampleState moves t ∧
      (∃ m ∈ moves, ∃ token, m.event = .dialed (ascii "https://mcp.example/mcp") token) ∧
      ∀ m ∈ moves, DialedHome m ∧ StoredHome m.after := by
  have hrun : ∃ moves t, Trace (Step samplePlatform) sampleState moves t ∧
      (∃ m ∈ moves, ∃ token, m.event = .dialed (ascii "https://mcp.example/mcp") token) ∧
      ∀ m ∈ moves, Addressed m := by
    refine ⟨_, _, .cons (.reads (.startReads (p := 0) 1 rfl rfl rfl))
      (.cons (.startInserts (p := 0) rfl nofun rfl)
      (.cons (@Step.arms _ _ 0 _ _ _ _ _ _ sampleNonces rfl rfl sample_booted (sample_staged rfl) nofun)
      (.cons (.reads (.callbackFinds (p := 2) 1 rfl rfl rfl rfl))
      (.cons (.reads (.callbackPermitted (p := 2) rfl rfl (Or.inr rfl)))
      (.cons (.claims (p := 2) rfl rfl rfl rfl rfl rfl)
      (.cons (.reads (@Reads.exchanges _ _ 2 _ _ _ _ _ 0 sampleEnv sampleQuery _ rfl rfl (by decide) rfl))
      (.cons (.promotes (p := 2) sampleTokens 0 rfl rfl rfl rfl rfl)
      (.cons (.reads (.connectionRead (p := 3) rfl rfl rfl))
      (.cons (.reads (.statusRead (p := 3) rfl rfl nofun))
      (.cons (.locks (p := 3) rfl rfl rfl)
      (.cons (@Step.getsStored _ _ 3 _ _ sampleEnv 0 _ rfl rfl)
      (.cons (.reads (.dials (p := 3) rfl))
      (.nil _))))))))))))), ⟨_, List.mem_of_getElem? (i := 12) rfl, _, rfl⟩, ?_⟩
    simp only [List.forall_mem_cons]
    refine ⟨?_, ?_, ⟨?_, ?_, ?_⟩, ?_, ?_, ?_, ?_, ?_, ?_, ?_, ?_, ⟨?_, ?_, ?_⟩, ?_,
      fun m hm => (by cases hm)⟩
    case refine_3 =>
      intro p read row userId connection he hp hc
      cases he
      cases hp
      cases hc
      rfl
    case refine_16 =>
      rintro p url row connection (he | he) (hp | ⟨token, hp⟩) hc
      · cases he
        cases hp
        cases hc
        rfl
      · cases he
        cases hp
      · cases he
      · cases he
    case refine_4 | refine_15 =>
      intro p connection connection' row he
      cases he
    case refine_5 =>
      rintro p url row connection (he | he)
      · cases he
      · cases he
    case refine_14 =>
      intro p read row userId connection he
      cases he
    all_goals exact addressed_of_event fun p => ⟨nofun, nofun, nofun, nofun⟩
  obtain ⟨moves, t, htrace, hdialed, haddressed⟩ := hrun
  exact ⟨moves, t, htrace, hdialed, tokens_go_home samplePlatform htrace sample_initial haddressed⟩

/-- The URL changes while a start is at discovery.  The start arms its flow on the grant that was
reset, the flow is promoted, and a tool step takes the token of the old server to the new one. -/
theorem start_outlives_url : ∃ moves t, Trace (Step samplePlatform) sampleState moves t ∧
    ¬ StoredHome t ∧ ¬ ∀ m ∈ moves, DialedHome m := by
  refine ⟨_, _, .cons (.reads (.startReads (p := 0) 1 rfl rfl rfl))
    (.cons (.startInserts (p := 0) rfl nofun rfl)
    (.cons (.reads (.updateReads (p := 1) ⟨some (ascii "https://new.example/mcp"), none⟩ rfl rfl
      (Or.inl rfl)))
    (.cons (.reads (.updateLoads (p := 1) rfl (by decide) rfl))
    (.cons (.reads (@Reads.updateCannotRevoke _ _ 1 _ _ sampleEnv rfl rfl))
    (.cons (.updateResets (p := 1) rfl rfl rfl)
    (.cons (.patches (p := 1) rfl rfl)
    (.cons (@Step.arms _ _ 0 _ _ _ _ _ _ sampleNonces rfl rfl sample_booted (sample_staged rfl) nofun)
    (.cons (.reads (.callbackFinds (p := 2) 1 rfl rfl rfl rfl))
    (.cons (.reads (.callbackPermitted (p := 2) rfl rfl (Or.inr rfl)))
    (.cons (.claims (p := 2) rfl rfl rfl rfl rfl rfl)
    (.cons (.reads (@Reads.exchanges _ _ 2 _ _ _ _ _ 0 sampleEnv sampleQuery _ rfl rfl (by decide) rfl))
    (.cons (.promotes (p := 2) sampleTokens 0 rfl rfl rfl rfl rfl)
    (.cons (.reads (.connectionRead (p := 3) rfl rfl rfl))
    (.cons (.reads (.statusRead (p := 3) rfl rfl nofun))
    (.cons (.locks (p := 3) rfl rfl rfl)
    (.cons (@Step.getsStored _ _ 3 _ _ sampleEnv 0 _ rfl rfl)
    (.cons (.reads (.dials (p := 3) rfl))
    (.nil _)))))))))))))))))), ?_, ?_⟩
  · intro h
    have hsame := h _ _ _ rfl rfl (Or.inl rfl)
    revert hsame
    decide
  · intro h
    have hsame := h _ (List.mem_of_getElem? (i := 17) rfl) _ _ rfl
    revert hsame
    decide

end InvisibleString.Oauth
