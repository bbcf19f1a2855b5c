import InvisibleString.Oauth.Broker

/- # `Oauth.Secrets` — where a client secret is sent

A secret reaches a token or revocation endpoint from a row's columns or from a staged flow, long
after the start that put it there.  Nothing is compared then.  What keeps secret and endpoints
together is that they travel together: a start stages them from one metadata document and one
client of that document's issuer, and a promotion moves both.

The connections share nothing but the configuration each process booted with, which every start
may find changed.

**Proved here.**

    in every run on any connections, a client secret is sent only to an endpoint named by a
      metadata document of the issuer it was registered or configured for
                                                                       (`secrets_stay_home`)
-/

namespace InvisibleString.Oauth

open Json (JsString ascii)
open Transition (Move Trace Each)

variable (P : Platform)

/-- The document is one of `issuer`, up to canonical form, found at a well-known place of it. -/
structure FoundDocument.Of (found : FoundDocument) (issuer : JsString) : Prop where
  describesItself : found.DescribesItself P.parseUrl
  canonical : canonicalIssuer P.parseUrl found.metadata.issuer = canonicalIssuer P.parseUrl issuer

/-- A request with a client secret goes where a document of the secret's issuer says. -/
def SecretAtHome (m : Move BrokerState BrokerEvent) : Prop :=
  ∀ endpoint secret, m.event = .sent endpoint (some secret) →
    ∃ document ∈ m.before.documents, document.Of P secret.issuedFor ∧
      (endpoint = document.metadata.tokenEndpoint ∨
        document.metadata.revocationEndpoint = some endpoint)

/-! ## The invariant -/

/-- Token and revocation endpoint are those of a document of the secret's issuer. -/
def AtHome (documents : List FoundDocument) (endpoints : Endpoints) (client : Client) : Prop :=
  ∀ secret, client.clientSecret = some secret →
    ∃ document ∈ documents, document.Of P secret.issuedFor ∧
      (∀ endpoint, endpoints.tokenEndpoint = some endpoint →
        endpoint = document.metadata.tokenEndpoint) ∧
      ∀ endpoint, endpoints.revocationEndpoint = some endpoint →
        document.metadata.revocationEndpoint = some endpoint

/-- A row whose secrets, live and staged, stand beside endpoints of their issuers. -/
structure Homed (documents : List FoundDocument) (row : OauthRow) : Prop where
  live : AtHome P documents row.endpoints row.client
  keyed : row.client.Keyed P
  staged : ∀ flow, row.pendingFlow = some flow →
    AtHome P documents flow.endpoints flow.client ∧ flow.client.Keyed P

/-- The row a process has read. -/
def Proc.row? : Proc → Option OauthRow
  | .discovering _ row _ | .locked _ row | .refreshing _ row _ => some row
  | .found _ oauth _ | .permitted _ oauth _ | .claimed _ oauth _ _ | .exchanging _ oauth _ _ =>
    some oauth
  | .revoking _ grant | .revoked _ grant => some grant
  | .deleting grant => grant
  | _ => none

structure SecretsInv (s : BrokerState) : Prop where
  grant : ∀ row, s.grant = some row → Homed P s.documents row
  procs : ∀ p row, (s.procs p).row? = some row → Homed P s.documents row

section

variable {P : Platform} {s s' : BrokerState} {p : Nat} {proc : Proc} {row row' : OauthRow}
  {documents documents' : List FoundDocument}

theorem AtHome.mono {endpoints : Endpoints} {client : Client}
    (h : AtHome P documents endpoints client)
    (hdocuments : ∀ document ∈ documents, document ∈ documents') :
    AtHome P documents' endpoints client := by
  intro secret hsecret
  obtain ⟨document, hmem, hrest⟩ := h secret hsecret
  exact ⟨document, hdocuments document hmem, hrest⟩

theorem Homed.mono (h : Homed P documents row)
    (hdocuments : ∀ document ∈ documents, document ∈ documents') : Homed P documents' row := by
  refine ⟨h.live.mono hdocuments, h.keyed, fun flow hflow => ?_⟩
  obtain ⟨hhome, hkeyed⟩ := h.staged flow hflow
  exact ⟨hhome.mono hdocuments, hkeyed⟩

/-- A write that leaves endpoints and client, and arms nothing. -/
theorem Homed.of_same (h : Homed P documents row) (hhome : row'.home = row.home)
    (hflow : row'.pendingFlow = none ∨ row'.pendingFlow = row.pendingFlow) :
    Homed P documents row' := by
  obtain ⟨hendpoints, hclient⟩ := Prod.mk.inj hhome
  refine ⟨?_, ?_, ?_⟩
  · rw [hendpoints, hclient]
    exact h.live
  · rw [hclient]
    exact h.keyed
  · intro flow hsome
    rcases hflow with hnone | hsame
    · cases hnone.symm.trans hsome
    · exact h.staged flow (hsame.symm.trans hsome)

theorem homed_inserted {id stamp : Nat} {mode : Option ClientIdentityMode} :
    Homed P documents (.inserted id stamp mode) := ⟨nofun, nofun, nofun⟩

/-- What a start stages: the client is of the issuer whose document it has read. -/
theorem Staged.homed (laws : LawfulUrls P.parseUrl) {env : BrokerEnv} (hbooted : env.Booted P)
    {connection : ConnectionRow} {discovery : OauthDiscovery} {flow : PendingFlow}
    (h : Staged P env connection row discovery flow) (hkeyed : row.client.Keyed P) :
    AtHome P (discovery.document :: documents) flow.endpoints flow.client ∧
      flow.client.Keyed P := by
  cases h with
  | mk hdiscovered hresolved =>
    obtain ⟨vars, hload⟩ := hbooted
    obtain ⟨url, hurl, hhttp⟩ := discoverOauth_issuer hdiscovered
    obtain ⟨hitself, _, hissuer, htoken, hrevocation⟩ := discoverOauth_document hdiscovered
    have hfor := stagedClient_issuedFor laws hload hurl hhttp hkeyed hresolved
    refine ⟨?_, hfor.keyed⟩
    intro secret hsecret
    refine ⟨discovery.document, List.mem_cons_self, ⟨hitself, ?_⟩, ?_, ?_⟩
    · rw [← hissuer]
      exact (hfor secret hsecret).1.symm
    · intro endpoint hendpoint
      exact (Option.some.inj hendpoint).symm.trans htoken
    · intro endpoint hendpoint
      exact hrevocation.symm.trans hendpoint

theorem homed_promote {oauth : OauthRow} (hrow : Homed P documents row)
    (hoauth : Homed P documents oauth) {stamp now : Nat} {connection : ConnectionRow}
    {answer : TokenResponse} {userId : UserId} :
    Homed P documents (row.promote stamp oauth connection answer userId now) := by
  cases hflow : oauth.pendingFlow with
  | none =>
    have hhome : (row.promote stamp oauth connection answer userId now).home = row.home := by
      simp only [OauthRow.home, OauthRow.promote, hflow]
    exact hrow.of_same hhome (Or.inr rfl)
  | some flow =>
    have hhome := OauthRow.home_promote row oauth stamp now flow userId connection answer hflow
    obtain ⟨hendpoints, hclient⟩ := Prod.mk.inj hhome
    obtain ⟨hstaged, hkeyed⟩ := hoauth.staged flow hflow
    refine ⟨?_, ?_, hrow.staged⟩
    · rw [hendpoints, hclient]
      exact hstaged
    · rw [hclient]
      exact hkeyed

/-! ## Requests -/

theorem exchangeInput_eq {parse : JsString → Option Url} {env : BrokerEnv} {oauth : OauthRow}
    {query : OauthCallbackQuery} {input : ExchangeInput}
    (h : exchangeInput parse env oauth query = .ok input) :
    (exchangeMaterial oauth).tokenEndpoint = some input.tokenEndpoint ∧
      (exchangeMaterial oauth).clientSecret = input.clientSecret := by
  unfold exchangeInput at h
  split at h
  · cases h
  · split at h
    · cases h
    · split at h
      · cases h
      · split at h
        · cases h
        · simp only at h
          split at h
          · rename_i endpoint verifier hendpoint _
            split at h
            · cases h
            · cases h
              exact ⟨hendpoint, rfl⟩
          · cases h

theorem Homed.material {oauth : OauthRow} (h : Homed P documents oauth) {endpoint : JsString}
    {secret : ClientSecret} (hendpoint : (exchangeMaterial oauth).tokenEndpoint = some endpoint)
    (hsecret : (exchangeMaterial oauth).clientSecret = some secret) :
    ∃ document ∈ documents, document.Of P secret.issuedFor ∧
      endpoint = document.metadata.tokenEndpoint := by
  cases hflow : oauth.pendingFlow with
  | none =>
    simp only [exchangeMaterial, hflow] at hendpoint hsecret
    obtain ⟨document, hmem, hof, htoken, _⟩ := h.live secret hsecret
    exact ⟨document, hmem, hof, htoken endpoint hendpoint⟩
  | some flow =>
    simp only [exchangeMaterial, hflow] at hendpoint hsecret
    obtain ⟨document, hmem, hof, htoken, _⟩ := (h.staged flow hflow).1 secret hsecret
    exact ⟨document, hmem, hof, htoken endpoint hendpoint⟩

theorem revocationRequest_eq {env : BrokerEnv} {request : RevocationRequest}
    (h : revocationRequest env row = some request) :
    row.endpoints.revocationEndpoint = some request.revocationEndpoint ∧
      row.client.clientSecret = request.clientSecret := by
  unfold revocationRequest at h
  split at h
  · rename_i endpoint token hendpoint _
    split at h
    · cases h
      exact ⟨hendpoint, rfl⟩
    · cases h
  · cases h

theorem Homed.revocation (h : Homed P documents row) {env : BrokerEnv}
    {request : RevocationRequest} (hrequest : revocationRequest env row = some request)
    {secret : ClientSecret} (hsecret : request.clientSecret = some secret) :
    ∃ document ∈ documents, document.Of P secret.issuedFor ∧
      document.metadata.revocationEndpoint = some request.revocationEndpoint := by
  obtain ⟨hendpoint, hclient⟩ := revocationRequest_eq hrequest
  obtain ⟨document, hmem, hof, _, hrevocation⟩ := h.live secret (hclient.trans hsecret)
  exact ⟨document, hmem, hof, hrevocation _ hendpoint⟩

theorem Reads.secretAtHome {e : BrokerEvent} (h : Reads P s p e proc) (hinv : SecretsInv P s) :
    SecretAtHome P ⟨s, e, s.setProc p proc⟩ := by
  intro endpoint secret he
  have hrow := hinv.procs p
  cases h with
  | exchanges hp _ _ hinput =>
    obtain ⟨rfl, hcarried⟩ := BrokerEvent.sent.inj he
    rw [hp] at hrow
    obtain ⟨hendpoint, hsecret⟩ := exchangeInput_eq hinput
    obtain ⟨document, hmem, hof, htoken⟩ :=
      (hrow _ rfl).material hendpoint (hsecret.trans hcarried)
    exact ⟨document, hmem, hof, Or.inl htoken⟩
  | refreshes hp hplan =>
    obtain ⟨rfl, hcarried⟩ := BrokerEvent.sent.inj he
    rw [hp] at hrow
    obtain ⟨_, hendpoint, hsecret, _⟩ := accessPlan_refresh hplan
    obtain ⟨document, hmem, hof, htoken, _⟩ :=
      (hrow _ rfl).live secret (hsecret.symm.trans hcarried)
    exact ⟨document, hmem, hof, Or.inl (htoken _ hendpoint)⟩
  | updateRevokes hp hrequest =>
    obtain ⟨rfl, hcarried⟩ := BrokerEvent.sent.inj he
    rw [hp] at hrow
    obtain ⟨document, hmem, hof, hrevocation⟩ := (hrow _ rfl).revocation hrequest hcarried
    exact ⟨document, hmem, hof, Or.inr hrevocation⟩
  | deleteRevokes hp hrequest =>
    obtain ⟨rfl, hcarried⟩ := BrokerEvent.sent.inj he
    rw [hp] at hrow
    obtain ⟨document, hmem, hof, hrevocation⟩ := (hrow _ rfl).revocation hrequest hcarried
    exact ⟨document, hmem, hof, Or.inr hrevocation⟩
  | _ => cases he

/-! ## Steps -/

theorem SecretsInv.after (h : SecretsInv P s) (hprocs : s'.procs = (s.setProc p proc).procs)
    (hdocuments : ∀ document ∈ s.documents, document ∈ s'.documents)
    (hproc : ∀ row, proc.row? = some row → Homed P s'.documents row)
    (hgrant : ∀ row, s'.grant = some row → Homed P s'.documents row) : SecretsInv P s' where
  grant := hgrant
  procs := procs_of_others
    (Q := fun _ proc => ∀ row, proc.row? = some row → Homed P s'.documents row) hproc
    (fun q _ row hrow => (h.procs q row hrow).mono hdocuments) hprocs

theorem SecretsInv.update (h : SecretsInv P s) {cond : OauthRow → Bool} {set : OauthRow → OauthRow}
    (hprocs : s'.procs = (s.setProc p proc).procs) (hdocuments : s'.documents = s.documents)
    (hproc : ∀ row, proc.row? = some row → Homed P s.documents row)
    (hgrant : s'.grant = (s.update cond set).grant)
    (hset : ∀ row, s.grant = some row → Homed P s.documents (set row)) : SecretsInv P s' := by
  refine h.after hprocs ?_ ?_ ?_
  · rw [hdocuments]
    exact fun document hmem => hmem
  · rw [hdocuments]
    exact hproc
  · rw [hdocuments, hgrant]
    exact update_grant (fun row hrow _ => hset row hrow) fun row hrow _ => h.grant row hrow

/-- The row a reading process has read is the grant's, or one it had read. -/
theorem Reads.readRow {e : BrokerEvent} (h : Reads P s p e proc) (hrow : proc.row? = some row) :
    s.grant = some row ∨ (s.procs p).row? = some row := by
  cases h with
  | startFinds _ hgrant | callbackFinds _ _ _ hgrant _ | updateLoads _ _ hgrant =>
    cases hrow
    exact Or.inl hgrant
  | callbackPermitted hp _ _ | exchanges hp _ _ _ | refreshes hp _ | updateRevokes hp _
  | updateCannotRevoke hp _ =>
    cases hrow
    rw [hp]
    exact Or.inr rfl
  | deleteReads _ _ =>
    change (if _ then _ else _) = some row at hrow
    split at hrow
    · exact Or.inl hrow
    · cases hrow
  | _ => cases hrow

theorem no_row {Q : OauthRow → Prop} (h : proc.row? = none) :
    ∀ row, proc.row? = some row → Q row := by
  intro row hrow
  cases h.symm.trans hrow

theorem SecretsInv.step (laws : LawfulUrls P.parseUrl) {e : BrokerEvent} (h : SecretsInv P s)
    (hstep : Step P s e s') : SecretsInv P s' := by
  have hold : ∀ p row, (s.procs p).row? = some row → Homed P s.documents row := h.procs
  cases hstep with
  | reads hreads =>
    refine h.after rfl (fun _ hmem => hmem) (fun row hrow => ?_) h.grant
    rcases hreads.readRow hrow with hgrant | hread
    · exact h.grant row hgrant
    · exact hold _ row hread
  | ends p => exact h.after (rfl : _ = (s.setProc p .idle).procs) (fun _ hmem => hmem) (no_row rfl) h.grant
  | createInserts =>
    refine h.after rfl (fun _ hmem => hmem) (no_row rfl) fun row hrow => ?_
    cases hrow
    exact homed_inserted
  | startInserts =>
    refine h.after rfl (fun _ hmem => hmem) ?_ ?_
    · intro row hrow
      cases hrow
      exact homed_inserted
    · intro row hrow
      cases hrow
      exact homed_inserted
  | @arms p connection row userId env discovery flow nonces hp hfree hbooted hstaged hfresh =>
    have hread := hold p row (by rw [hp]; rfl)
    have hnew := @Staged.homed P row s.documents laws env hbooted _ _ _ hstaged hread.keyed
    have hdocuments : ∀ document ∈ s.documents, document ∈ discovery.document :: s.documents :=
      fun document hmem => List.mem_cons_of_mem _ hmem
    refine h.after (rfl : _ = (s.setProc p .idle).procs) hdocuments (no_row rfl) ?_
    refine update_grant (fun grant hsome _ => ?_) fun grant hsome _ =>
      (h.grant grant hsome).mono hdocuments
    have hgrant := (h.grant grant hsome).mono hdocuments
    refine ⟨hgrant.live, hgrant.keyed, fun armed harmed => ?_⟩
    cases harmed
    exact hnew
  | startFails | callbackStops | exchangeFails | findsNoMaterial | refreshRejected |
      refreshSucceeds =>
    exact h.update rfl rfl (no_row rfl) rfl fun row hrow => (h.grant row hrow).of_same rfl (Or.inr rfl)
  | @claims p connection oauth grant userId state hp =>
    refine h.update rfl rfl (fun row hrow => ?_) rfl fun row hrow =>
      (h.grant row hrow).of_same rfl (Or.inl rfl)
    cases hrow
    exact hold p oauth (by rw [hp]; rfl)
  | @promotes p connection oauth grant userId stamp tokens now hp =>
    refine h.update rfl rfl (fun row hrow => ?_) rfl fun row hrow =>
      homed_promote (h.grant row hrow) (hold p oauth (by rw [hp]; rfl))
    split at hrow <;> cases hrow
  | @locks p url row hp hfree hgrant =>
    refine h.after rfl (fun _ hmem => hmem) (fun row' hrow => ?_) h.grant
    cases hrow
    exact h.grant row hgrant
  | getsStored => exact h.after rfl (fun _ hmem => hmem) (no_row rfl) h.grant
  | updateDeletes =>
    refine h.after rfl (fun _ hmem => hmem) (no_row rfl) fun row hrow => ?_
    exact h.grant row (Option.filter_eq_some_iff.mp hrow).1
  | updateResets =>
    exact h.update rfl rfl (no_row rfl) rfl fun row hrow => homed_inserted
  | patches => exact h.after rfl (fun _ hmem => hmem) (no_row rfl) h.grant
  | deletes => exact h.after rfl (fun _ hmem => hmem) (no_row rfl) fun row hrow => by cases hrow
  | publishes | membershipsChange => exact ⟨h.grant, h.procs⟩
  | userIsDeleted =>
    refine ⟨fun row hrow => ?_, h.procs⟩
    obtain ⟨before, hbefore, rfl⟩ := Option.map_eq_some_iff.mp hrow
    exact (h.grant before hbefore).of_same rfl (Or.inr rfl)

theorem Step.secretAtHome {e : BrokerEvent} (h : SecretsInv P s) (hstep : Step P s e s') :
    SecretAtHome P ⟨s, e, s'⟩ := by
  cases hstep with
  | reads hreads => exact hreads.secretAtHome h
  | _ => exact nofun

theorem BrokerState.Initial.secrets (h : s.Initial) : SecretsInv P s := by
  refine ⟨fun row hrow => ?_, fun p row hrow => ?_⟩
  · cases h.grant.symm.trans hrow
  · rcases h.procs p with hp | ⟨mode, hp⟩
    · rw [hp] at hrow
      cases hrow
    · rw [hp] at hrow
      cases hrow

end

/-- In every run on any connections, with whatever metadata their servers answer and whatever
clients the processes were configured with at their boots: a request that carries a client secret
goes to the token or the revocation endpoint named by a metadata document of the issuer for which
that secret was registered or configured. -/
theorem secrets_stay_home (laws : LawfulUrls P.parseUrl) {C : Type} [DecidableEq C]
    {s t : C → BrokerState} {moves : List (Move (C → BrokerState) (C × BrokerEvent))}
    (hrun : Trace (Each (Step P)) s moves t) (hs : ∀ c, (s c).Initial) :
    ∀ m ∈ moves, SecretAtHome P m.local :=
  Each.forall_of (SecretsInv P) hrun
    (fun _ hstep h => ⟨Step.secretAtHome h hstep, h.step laws hstep⟩) fun c => (hs c).secrets

theorem readUrls_mem {urls : List (JsString × JsString)} {raw : JsString} {url : Url}
    (h : readUrls urls raw = some url) :
    raw ∈ urls.map (fun url => url.1 ++ url.2) ++ urls.map Prod.fst := by
  obtain ⟨entry, hfound, _⟩ := Option.map_eq_some_iff.mp h
  have hmem := List.mem_of_find?_eq_some hfound
  have heq := List.find?_some hfound
  simp only [Bool.or_eq_true, Bool.and_eq_true, beq_iff_eq] at heq
  rcases heq with hwhole | ⟨_, horigin⟩
  · exact List.mem_append_left _ (List.mem_map.mpr ⟨entry, hmem, hwhole.symm⟩)
  · exact List.mem_append_right _ (List.mem_map.mpr ⟨entry, hmem, horigin.symm⟩)

theorem sample_lawful : LawfulUrls samplePlatform.parseUrl := by
  have hall : ∀ raw ∈ sampleUrls.map (fun url => url.1 ++ url.2) ++ sampleUrls.map Prod.fst,
      (samplePlatform.parseUrl raw).all fun url =>
        (samplePlatform.parseUrl (Json.trim raw)).any Url.isHttp &&
          (samplePlatform.parseUrl (Json.trim url.canonical)).any
            fun again => again.canonical == url.canonical := by
    decide +kernel
  have hread : ∀ raw url, samplePlatform.parseUrl raw = some url →
      (samplePlatform.parseUrl (Json.trim raw)).any Url.isHttp = true ∧
        (samplePlatform.parseUrl (Json.trim url.canonical)).any
          (fun again => again.canonical == url.canonical) = true := by
    intro raw url h
    have hurl := hall raw (readUrls_mem h)
    rw [h] at hurl
    exact Bool.and_eq_true_iff.mp hurl
  constructor
  · intro raw url h _
    exact (Option.any_eq_true _ _).mp (hread raw url h).1
  · intro raw url h _
    obtain ⟨again, hagain, hsame⟩ := (Option.any_eq_true _ _).mp (hread raw url h).2
    exact ⟨again, hagain, beq_iff_eq.mp hsame⟩

/-- A first consent: the registered client's secret goes to the token endpoint. -/
theorem secrets_stay_home_exchange : ∃ moves t,
    Trace (Each (Step samplePlatform)) (fun _ : Unit => sampleState) moves t ∧
      (∃ m ∈ moves, m.event.2 = .sent (ascii "https://auth.example/token")
        (some ⟨ascii "secret", ascii "https://auth.example"⟩)) ∧
      ∀ m ∈ moves, SecretAtHome samplePlatform m.local := by
  have hrun : ∃ moves t, Trace (Step samplePlatform) sampleState moves t ∧
      ∃ m ∈ moves, m.event = .sent (ascii "https://auth.example/token")
        (some ⟨ascii "secret", ascii "https://auth.example"⟩) := by
    refine ⟨_, _, .cons (.reads (.startReads (p := 0) 1 rfl rfl rfl))
      (.cons (.startInserts (p := 0) rfl nofun rfl)
      (.cons (@Step.arms _ _ 0 _ _ _ _ _ _ sampleNonces rfl rfl sample_booted (sample_staged rfl) nofun)
      (.cons (.reads (.callbackFinds (p := 2) 1 rfl rfl rfl rfl))
      (.cons (.reads (.callbackPermitted (p := 2) rfl rfl (Or.inr rfl)))
      (.cons (.claims (p := 2) rfl rfl rfl rfl rfl rfl)
      (.cons (.reads (@Reads.exchanges _ _ 2 _ _ _ _ _ 0 sampleEnv sampleQuery _ rfl rfl (by decide) rfl))
      (.nil _))))))), _, List.mem_of_getElem? (i := 6) rfl, rfl⟩
  obtain ⟨moves, t, htrace, m, hm, hsent⟩ := hrun
  refine ⟨_, _, htrace.single, ⟨_, List.mem_map.mpr ⟨m, hm, rfl⟩, hsent⟩, ?_⟩
  exact secrets_stay_home samplePlatform sample_lawful htrace.single fun _ => sample_initial

end InvisibleString.Oauth
