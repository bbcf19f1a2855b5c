import InvisibleString.Lib.Checks
import InvisibleString.Oauth.Challenge
import Mathlib.Data.List.TakeWhile

/- # `Oauth.Rules` — the rules of discovery

Whatever the MCP server and the authorization servers answer, a discovery keeps the rules the
module owns: what identifies the resource, whose metadata is believed, which URLs may be handed
on, which scopes are asked for.

**Proved here.**

    what discovery returns is admitted by the rules, and an acceptable document about the resource
      is found behind candidates that are not, unless the egress guard refuses one of these
                                                                        (`discovery_admitted`)
    a refused pointer ends a discovery that has an acceptable document, and slashes at the end
      count for nothing  (`discovery_stops`)
-/

namespace InvisibleString.Oauth

open Json

/-! ## Paths -/

/-- A path without one slash at its end. -/
def stripOne (path : JsString) : JsString :=
  if path.getLast? = some (unit '/') then path.dropLast else path

def EndsInSlashes (path : JsString) : Prop := ∃ start, path = start ++ ascii "//"

/-- `ancestor` is the path or above it, up to one slash at the end. -/
def Covers (ancestor path : JsString) : Prop :=
  stripOne path = stripOne ancestor ∨ stripOne ancestor ++ ascii "/" <+: stripOne path

theorem stripOne_append_slash (path : JsString) : stripOne (path ++ ascii "/") = path := by
  have hlast : (path ++ ascii "/").getLast? = some (unit '/') := List.getLast?_concat
  rw [stripOne, if_pos hlast]
  exact List.dropLast_concat

theorem withoutTrailingSlash_concat (path : JsString) :
    withoutTrailingSlash (path ++ ascii "/") = withoutTrailingSlash path := by
  rw [withoutTrailingSlash, List.reverse_append]
  rfl

theorem withoutTrailingSlash_of_last {path : JsString} (h : path.getLast? ≠ some (unit '/')) :
    withoutTrailingSlash path = path := by
  rw [withoutTrailingSlash]
  cases hrev : path.reverse with
  | nil =>
    rw [List.reverse_eq_nil_iff.mp hrev]
    rfl
  | cons c rest =>
    have hc : c ≠ unit '/' := by
      rintro rfl
      rw [← List.head?_reverse, hrev] at h
      exact h rfl
    rw [List.dropWhile_cons_of_neg (by simpa using hc), ← hrev, List.reverse_reverse]

/-- A path ends in a slash, or it does not. -/
theorem path_cases (path : JsString) :
    (∃ start, path = start ++ ascii "/") ∨ path.getLast? ≠ some (unit '/') := by
  by_cases h : path.getLast? = some (unit '/')
  · obtain ⟨start, hstart⟩ := List.getLast?_eq_some_iff.mp h
    exact .inl ⟨start, hstart⟩
  · exact .inr h

theorem stripOne_of_last {path : JsString} (h : path.getLast? ≠ some (unit '/')) :
    stripOne path = path := if_neg h

theorem withoutTrailingSlash_eq_stripOne {path : JsString} (h : ¬ EndsInSlashes path) :
    withoutTrailingSlash path = stripOne path := by
  rcases path_cases path with ⟨start, rfl⟩ | hlast
  · have hstart : start.getLast? ≠ some (unit '/') := by
      intro hlast
      obtain ⟨front, rfl⟩ := List.getLast?_eq_some_iff.mp hlast
      exact h ⟨front, List.append_assoc ..⟩
    rw [withoutTrailingSlash_concat, withoutTrailingSlash_of_last hstart, stripOne_append_slash]
  · rw [withoutTrailingSlash_of_last hlast, stripOne_of_last hlast]

theorem eq_withoutTrailingSlash_append (path : JsString) :
    ∃ n, path = withoutTrailingSlash path ++ List.replicate n (unit '/') := by
  have hsplit := List.takeWhile_append_dropWhile (p := fun c => c == unit '/') (l := path.reverse)
  have hslashes : path.reverse.takeWhile (· == unit '/') =
      List.replicate (path.reverse.takeWhile (· == unit '/')).length (unit '/') := by
    refine List.eq_replicate_iff.mpr ⟨rfl, fun c hc => ?_⟩
    simpa using List.mem_takeWhile_imp hc
  refine ⟨(path.reverse.takeWhile (· == unit '/')).length, ?_⟩
  rw [withoutTrailingSlash, ← List.reverse_replicate, ← List.reverse_append, ← hslashes, hsplit,
    List.reverse_reverse]

theorem stripOne_cases (path : JsString) :
    stripOne path = withoutTrailingSlash path ∨
      withoutTrailingSlash path ++ ascii "/" <+: stripOne path := by
  rcases path_cases path with ⟨start, rfl⟩ | hlast
  · rw [stripOne_append_slash, withoutTrailingSlash_concat]
    obtain ⟨n, hn⟩ := eq_withoutTrailingSlash_append start
    cases n with
    | zero => exact .inl (hn.trans (List.append_nil _))
    | succ n =>
      refine .inr ⟨List.replicate n (unit '/'), ?_⟩
      rw [List.append_assoc]
      exact hn.symm
  · rw [stripOne_of_last hlast, withoutTrailingSlash_of_last hlast]
    exact .inl rfl

/-- The comparison of the code, where the ancestor does not end in slashes. -/
theorem covers_of_withoutTrailingSlash {ancestor path : JsString} (h : ¬ EndsInSlashes ancestor)
    (hpath : withoutTrailingSlash path = withoutTrailingSlash ancestor ∨
      withoutTrailingSlash ancestor ++ ascii "/" <+: withoutTrailingSlash path) :
    Covers ancestor path := by
  rw [withoutTrailingSlash_eq_stripOne h] at hpath
  rcases stripOne_cases path with hone | hmore
  · rw [← hone] at hpath
    exact hpath
  · refine .inr ?_
    rcases hpath with hpath | hpath
    · rw [hpath] at hmore
      exact hmore
    · exact (hpath.trans (List.prefix_append _ _)).trans hmore

/-! ## The rules -/

/-- An absolute https URL, or an http one where that is admitted, without credentials and without
a fragment. -/
structure Url.Usable (url : Url) (allowHttp : Bool) : Prop where
  scheme : url.protocol = ascii "https:" ∨ url.protocol = ascii "http:" ∧ allowHttp = true
  username : url.username = []
  password : url.password = []
  hash : url.hash = []

/-- The first of the candidates is the pointer of the challenge. -/
def resourceCandidates (requested : Url) (pointer : Option JsString) : List JsString :=
  let wellKnown := requested.origin ++ ascii "/.well-known/oauth-protected-resource"
  let resourcePath := trimSlashes requested.pathname
  (pointer.toList ++
    (if resourcePath == [] then [] else [wellKnown ++ ascii "/" ++ resourcePath]) ++
    [wellKnown]).eraseDups

def AsMetadata.endpoints (metadata : AsMetadata) : List JsString :=
  [metadata.authorizationEndpoint, metadata.tokenEndpoint] ++
    metadata.registrationEndpoint.toList ++ metadata.revocationEndpoint.toList

def OauthDiscovery.endpoints (discovery : OauthDiscovery) : List JsString :=
  [discovery.authorizationEndpoint, discovery.tokenEndpoint] ++
    discovery.registrationEndpoint.toList ++ discovery.revocationEndpoint.toList

/-- The scopes of the challenge, else of the resource, else none; `offline_access` comes to a
list at most. -/
def ScopesFrom (challengeScope prmScopes asAdvertised found : Option (List JsString)) : Prop :=
  let offered (scopes : Option (List JsString)) := scopes.filter (· != [])
  ((offered challengeScope).or (offered prmScopes) = none ∧ found = none) ∨
    ∃ chosen, (offered challengeScope).or (offered prmScopes) = some chosen ∧
      (found = some chosen ∨ found = some (chosen ++ [ascii "offline_access"]) ∧
        ascii "offline_access" ∉ chosen ∧ ascii "offline_access" ∈ asAdvertised.getD [])

section Rules

variable {N : Type} (urls : Urls) (network : Network N) (requested : Url)

/-- The document names a usable authorization server, and a resource that the code takes for the
requested one. -/
structure Acceptable (prm : PrmDocument) (server : JsString) : Prop where
  first : ∃ others, prm.authorizationServers = some (server :: others)
  resource : resourceProblemFor urls.parse prm.resource requested requested.allowsHttp = none
  usable : (checkServerUrl urls.parse server requested.allowsHttp).isSome = true

def AcceptableAt (place : JsString) : Prop :=
  ∃ prm server, fetchMetadata prmSchema (network.resourceAt place) = .hit (some prm) ∧
    Acceptable urls requested prm server

/-- Where all of a discovery comes from. -/
structure Admitted (challenge : BearerChallenge) (prm : PrmDocument) (metadata : AsMetadata)
    (discovery : OauthDiscovery) : Prop where
  asked : readChallenge urls requested requested.allowsHttp network.challenge = .ok challenge
  accepted : ∃ candidate ∈ resourceCandidates requested challenge.resourceMetadata,
    fetchMetadata prmSchema (network.resourceAt candidate) = .hit (some prm)
  resource : discovery.resource = prm.resource ∧ ∃ resource,
    urls.parse discovery.resource = some resource ∧ resource.origin = requested.origin ∧
      (¬ EndsInSlashes resource.pathname → Covers resource.pathname requested.pathname)
  issuer : ∃ others claimed server,
    prm.authorizationServers = some (discovery.authorizationServer :: others) ∧
      urls.parse discovery.issuer = some claimed ∧
      urls.parse discovery.authorizationServer = some server ∧
      claimed.origin = server.origin ∧ claimed.search = [] ∧ server.search = [] ∧
      (¬ EndsInSlashes claimed.pathname → ¬ EndsInSlashes server.pathname →
        stripOne claimed.pathname = stripOne server.pathname) ∧
      discovery.issuer = metadata.issuer ∧ ∃ place ∈ wellKnownVariants server,
        fetchMetadata asMetadataSchema (network.serverAt place) = .hit (some metadata)
  endpoints : discovery.endpoints = metadata.endpoints ∧ ∀ endpoint ∈ discovery.endpoints,
    ∃ url, urls.parse endpoint = some url ∧ url.Usable requested.allowsHttp
  pkce : ascii "S256" ∈ metadata.codeChallengeMethodsSupported.getD []
  scopes : ScopesFrom challenge.scope prm.scopesSupported metadata.scopesSupported
    discovery.scopesSupported

end Rules

/-! ## What the checks find -/

section Checks

variable {parse : JsString → Option Url} {allow : Bool}

theorem usable_of_checkServerUrl {raw : JsString} {url : Url}
    (h : checkServerUrl parse raw allow = some url) :
    parse raw = some url ∧ url.Usable allow := by
  obtain ⟨hparse, hhttp⟩ := checkServerUrl_eq parse h
  rw [checkServerUrl, hparse] at h
  simp only [hhttp, Bool.not_true, Bool.false_eq_true, if_false] at h
  split at h
  · cases h
  · next hscheme =>
    split at h
    · cases h
    · next hcredentials =>
      split at h
      · cases h
      · next hhash =>
        simp only [Bool.or_eq_true, bne_iff_ne, ne_eq, not_or, Decidable.not_not] at hcredentials
        refine ⟨hparse, ⟨?_, hcredentials.1, hcredentials.2, by simpa using hhash⟩⟩
        rw [Url.isHttp, Bool.or_eq_true, beq_iff_eq, beq_iff_eq] at hhttp
        rcases hhttp with hhttp | hhttp
        · refine .inr ⟨hhttp, ?_⟩
          simpa [hhttp] using hscheme
        · exact .inl hhttp

theorem resource_of_no_problem {resource : JsString} {requested : Url}
    (h : resourceProblemFor parse resource requested allow = none) :
    ∃ url, parse resource = some url ∧ url.origin = requested.origin ∧
      (withoutTrailingSlash requested.pathname = withoutTrailingSlash url.pathname ∨
        withoutTrailingSlash url.pathname ++ ascii "/" <+:
          withoutTrailingSlash requested.pathname) := by
  rw [resourceProblemFor] at h
  cases hcheck : checkServerUrl parse resource allow with
  | none =>
    rw [hcheck] at h
    cases h
  | some url =>
    simp only [hcheck] at h
    split at h
    · cases h
    · next horigin =>
      split at h
      · cases h
      · next hcovers =>
        refine ⟨url, (usable_of_checkServerUrl hcheck).1, by simpa using horigin, ?_⟩
        rw [Decidable.or_iff_not_imp_left]
        simpa using hcovers

theorem same_of_sameIssuer {claimed requested : JsString}
    (h : sameIssuer parse claimed requested allow = true) :
    ∃ a b, parse claimed = some a ∧ parse requested = some b ∧ a.origin = b.origin ∧
      a.search = [] ∧ b.search = [] ∧
      withoutTrailingSlash a.pathname = withoutTrailingSlash b.pathname := by
  rw [sameIssuer] at h
  cases ha : checkServerUrl parse claimed allow with
  | none =>
    rw [ha] at h
    cases h
  | some a =>
    cases hb : checkServerUrl parse requested allow with
    | none =>
      rw [ha, hb] at h
      cases h
    | some b =>
      simp only [ha, hb] at h
      split at h
      · cases h
      · next hsearch =>
        simp only [Bool.or_eq_true, bne_iff_ne, ne_eq, not_or, Decidable.not_not] at hsearch
        simp only [Bool.and_eq_true, beq_iff_eq] at h
        exact ⟨a, b, (usable_of_checkServerUrl ha).1, (usable_of_checkServerUrl hb).1, h.1,
          hsearch.1, hsearch.2, h.2⟩

theorem usable_of_requireEndpoints {metadata : AsMetadata}
    (h : requireEndpoints parse metadata allow = true) :
    ∀ endpoint ∈ metadata.endpoints, ∃ url, parse endpoint = some url ∧ url.Usable allow := by
  intro endpoint hmem
  rw [requireEndpoints, List.all_eq_true] at h
  have hlisted : some endpoint ∈ [some metadata.authorizationEndpoint, some metadata.tokenEndpoint,
      metadata.registrationEndpoint, metadata.revocationEndpoint] := by
    simp only [AsMetadata.endpoints, List.mem_append, List.mem_cons, List.not_mem_nil, or_false,
      Option.mem_toList] at hmem
    simp only [List.mem_cons, List.not_mem_nil, or_false, Option.some.injEq]
    rcases hmem with ((h | h) | h) | h
    · exact .inl h
    · exact .inr (.inl h)
    · exact .inr (.inr (.inl h.symm))
    · exact .inr (.inr (.inr h.symm))
  obtain ⟨url, hurl⟩ := Option.isSome_iff_exists.mp (h _ hlisted)
  exact ⟨url, usable_of_checkServerUrl hurl⟩

theorem scopesFrom_resolveScopes (challengeScope prmScopes asAdvertised : Option (List JsString)) :
    ScopesFrom challengeScope prmScopes asAdvertised
      (resolveScopes challengeScope prmScopes asAdvertised) := by
  cases hchosen : (challengeScope.filter (· != [])).or (prmScopes.filter (· != [])) with
  | none =>
    refine .inl ⟨hchosen, ?_⟩
    simp only [resolveScopes, hchosen]
  | some chosen =>
    refine .inr ⟨chosen, hchosen, ?_⟩
    simp only [resolveScopes, hchosen]
    split
    · next hoffline =>
      simp only [Bool.and_eq_true, Bool.not_eq_true', List.contains_eq_mem,
        decide_eq_false_iff_not, decide_eq_true_eq] at hoffline
      exact .inr ⟨rfl, hoffline.2, hoffline.1⟩
    · exact .inl rfl

end Checks

/-! ## The search for a document about the resource -/

section Search

variable {N : Type} {urls : Urls} {network : Network N} {requested : Url} {mcpUrl : JsString}

theorem fetchMetadata_blocked {D : Type} {schema : Value N → Option D} {reply : Reply N} :
    fetchMetadata schema reply = .blocked ↔ reply = .refused := by
  cases reply with
  | failed => exact iff_of_false nofun nofun
  | refused => exact iff_of_true rfl rfl
  | response status authenticate json =>
    refine iff_of_false ?_ nofun
    simp only [fetchMetadata]
    split
    · nofun
    · split
      · nofun
      · nofun

variable (urls network requested mcpUrl) in
/-- One candidate: it is accepted, or the guard refuses it, or the next one is tried. -/
theorem tryResources_cons (candidate : JsString) (rest : List JsString)
    (rejection : DiscoveryReason) :
    (∃ prm server,
      fetchMetadata prmSchema (network.resourceAt candidate) = .hit (some prm) ∧
        Acceptable urls requested prm server ∧
        tryResources urls.parse (network.answers urls mcpUrl) requested requested.allowsHttp
          (candidate :: rest) rejection = .ok (prm, server)) ∨
    network.resourceAt candidate = .refused ∧
      tryResources urls.parse (network.answers urls mcpUrl) requested requested.allowsHttp
        (candidate :: rest) rejection = .error .egressBlocked ∨
    (network.resourceAt candidate ≠ .refused ∧ ¬ AcceptableAt urls network requested candidate ∧
      ∃ rejection', tryResources urls.parse (network.answers urls mcpUrl) requested
          requested.allowsHttp (candidate :: rest) rejection =
        tryResources urls.parse (network.answers urls mcpUrl) requested requested.allowsHttp rest
          rejection') := by
  have hnot {prm : PrmDocument}
      (hfetch : fetchMetadata prmSchema (network.resourceAt candidate) = .hit (some prm))
      (h : ∀ server, ¬ Acceptable urls requested prm server) :
      ¬ AcceptableAt urls network requested candidate := by
    rintro ⟨prm', server, hfetch', hacceptable⟩
    rw [hfetch] at hfetch'
    cases hfetch'
    exact h server hacceptable
  have hrefused : fetchMetadata prmSchema (network.resourceAt candidate) ≠ .blocked →
      network.resourceAt candidate ≠ .refused :=
    fun hblocked h => hblocked (fetchMetadata_blocked.mpr h)
  have hreply : (network.answers urls mcpUrl).resourceAt candidate =
      fetchMetadata prmSchema (network.resourceAt candidate) := rfl
  cases hfetch : fetchMetadata prmSchema (network.resourceAt candidate) with
  | blocked =>
    refine .inr (.inl ⟨fetchMetadata_blocked.mp hfetch, ?_⟩)
    simp only [tryResources, hreply, hfetch]
  | miss =>
    refine .inr (.inr ⟨hrefused (by rw [hfetch]; nofun), ?_, rejection, ?_⟩)
    · rintro ⟨prm, server, hhit, -⟩
      rw [hfetch] at hhit
      cases hhit
    · simp only [tryResources, hreply, hfetch]
  | unreadable =>
    refine .inr (.inr ⟨hrefused (by rw [hfetch]; nofun), ?_, rejection, ?_⟩)
    · rintro ⟨prm, server, hhit, -⟩
      rw [hfetch] at hhit
      cases hhit
    · simp only [tryResources, hreply, hfetch]
  | hit doc =>
    have hread := hrefused (by rw [hfetch]; nofun)
    cases doc with
    | none =>
      refine .inr (.inr ⟨hread, ?_, .prmInvalid, ?_⟩)
      · rintro ⟨prm, server, hhit, -⟩
        rw [hfetch] at hhit
        cases hhit
      · simp only [tryResources, hreply, hfetch]
    | some prm =>
      rcases hservers : prm.authorizationServers with _ | _ | ⟨server, others⟩
      · refine .inr (.inr ⟨hread, hnot hfetch fun server hacceptable => ?_, .prmInvalid, ?_⟩)
        · obtain ⟨others, hfirst⟩ := hacceptable.first
          rw [hservers] at hfirst
          cases hfirst
        · simp only [tryResources, hreply, hfetch, hservers]
      · refine .inr (.inr ⟨hread, hnot hfetch fun server hacceptable => ?_, .prmInvalid, ?_⟩)
        · obtain ⟨others, hfirst⟩ := hacceptable.first
          rw [hservers] at hfirst
          cases hfirst
        · simp only [tryResources, hreply, hfetch, hservers]
      · cases hproblem : resourceProblemFor urls.parse prm.resource requested
          requested.allowsHttp with
        | some problem =>
          refine .inr (.inr ⟨hread, hnot hfetch fun server hacceptable => ?_, problem, ?_⟩)
          · have hnone := hacceptable.resource
            rw [hproblem] at hnone
            cases hnone
          · simp only [tryResources, hreply, hfetch, hservers, hproblem]
        | none =>
          by_cases husable : (checkServerUrl urls.parse server requested.allowsHttp).isSome = true
          · refine .inl ⟨prm, server, rfl, ⟨⟨others, hservers⟩, hproblem, husable⟩, ?_⟩
            simp only [tryResources, hreply, hfetch, hservers, hproblem, if_pos husable]
          · refine .inr (.inr ⟨hread, hnot hfetch fun server' hacceptable => ?_,
              .insecureEndpoint, ?_⟩)
            · obtain ⟨others', hfirst⟩ := hacceptable.first
              rw [hservers] at hfirst
              cases hfirst
              exact husable hacceptable.usable
            · simp only [tryResources, hreply, hfetch, hservers, hproblem, if_neg husable]

/-- A document that is accepted is acceptable, and stood at a candidate. -/
theorem tryResources_ok {candidates : List JsString} {prm : PrmDocument} {server : JsString} :
    ∀ {rejection : DiscoveryReason},
    tryResources urls.parse (network.answers urls mcpUrl) requested requested.allowsHttp candidates
      rejection = .ok (prm, server) →
    (∃ candidate ∈ candidates,
      fetchMetadata prmSchema (network.resourceAt candidate) = .hit (some prm)) ∧
      Acceptable urls requested prm server := by
  induction candidates with
  | nil => nofun
  | cons candidate rest ih =>
    intro rejection h
    rcases tryResources_cons urls network requested mcpUrl candidate rest rejection with
      ⟨prm', server', hfetch, hacceptable, hok⟩ | ⟨-, herror⟩ | ⟨-, -, rejection', hrest⟩
    · rw [hok] at h
      cases h
      exact ⟨⟨candidate, List.mem_cons_self, hfetch⟩, hacceptable⟩
    · rw [herror] at h
      cases h
    · rw [hrest] at h
      obtain ⟨⟨found, hmem, hfetch⟩, hacceptable⟩ := ih h
      exact ⟨⟨found, List.mem_cons_of_mem _ hmem, hfetch⟩, hacceptable⟩

/-- A candidate that is not acceptable stands in nobody's way, unless the guard refuses it. -/
theorem tryResources_of_acceptable {before after : List JsString} {candidate : JsString}
    (hbefore : ∀ earlier ∈ before, network.resourceAt earlier ≠ .refused)
    (hcandidate : AcceptableAt urls network requested candidate) :
    ∀ rejection : DiscoveryReason, ∃ found,
      tryResources urls.parse (network.answers urls mcpUrl) requested requested.allowsHttp
        (before ++ candidate :: after) rejection = .ok found := by
  induction before with
  | nil =>
    intro rejection
    rcases tryResources_cons urls network requested mcpUrl candidate after rejection with
      ⟨prm, server, -, -, hok⟩ | ⟨hrefused, -⟩ | ⟨-, hnot, -⟩
    · exact ⟨_, hok⟩
    · obtain ⟨prm, server, hfetch, -⟩ := hcandidate
      rw [hrefused] at hfetch
      cases hfetch
    · exact absurd hcandidate hnot
  | cons earlier before ih =>
    intro rejection
    rw [List.forall_mem_cons] at hbefore
    rcases tryResources_cons urls network requested mcpUrl earlier (before ++ candidate :: after) rejection with
      ⟨prm, server, -, -, hok⟩ | ⟨hrefused, -⟩ | ⟨-, -, rejection', hrest⟩
    · exact ⟨_, hok⟩
    · exact absurd hrefused hbefore.1
    · obtain ⟨found, hfound⟩ := ih hbefore.2 rejection'
      exact ⟨found, hrest.trans hfound⟩

theorem tryResources_of_refused {before after : List JsString} {candidate : JsString}
    (hbefore : ∀ earlier ∈ before, ¬ AcceptableAt urls network requested earlier)
    (hcandidate : network.resourceAt candidate = .refused) :
    ∀ rejection : DiscoveryReason,
      tryResources urls.parse (network.answers urls mcpUrl) requested requested.allowsHttp
        (before ++ candidate :: after) rejection = .error .egressBlocked := by
  induction before with
  | nil =>
    intro rejection
    rcases tryResources_cons urls network requested mcpUrl candidate after rejection with
      ⟨prm, server, hfetch, -⟩ | ⟨-, herror⟩ | ⟨hread, -⟩
    · rw [hcandidate] at hfetch
      cases hfetch
    · exact herror
    · exact absurd hcandidate hread
  | cons earlier before ih =>
    intro rejection
    rw [List.forall_mem_cons] at hbefore
    rcases tryResources_cons urls network requested mcpUrl earlier (before ++ candidate :: after) rejection with
      ⟨prm, server, hfetch, hacceptable, -⟩ | ⟨-, herror⟩ | ⟨-, -, rejection', hrest⟩
    · exact absurd ⟨prm, server, hfetch, hacceptable⟩ hbefore.1
    · exact herror
    · exact hrest.trans (ih hbefore.2 rejection')

theorem discoverProtectedResource_eq (pointer : Option JsString) :
    discoverProtectedResource urls.parse (network.answers urls mcpUrl) requested pointer
      requested.allowsHttp =
    tryResources urls.parse (network.answers urls mcpUrl) requested requested.allowsHttp
      (resourceCandidates requested pointer) .noOauthMetadata := rfl

theorem tryVariants_endpoints {answers : Answers} {issuer : JsString} {allow : Bool}
    {metadata : AsMetadata} {place : JsString} {variants : List JsString} :
    ∀ {mismatched : Bool},
    tryVariants urls.parse answers issuer allow variants mismatched = .ok (metadata, place) →
      requireEndpoints urls.parse metadata allow = true := by
  induction variants with
  | nil => nofun
  | cons variant rest ih =>
    intro mismatched h
    rw [tryVariants] at h
    split at h
    case h_1 => cases h
    case h_2 => exact ih h
    case h_3 => cases h
    case h_4 => cases h
    case h_5 found hhit =>
      split at h
      · exact ih h
      · split at h
        · next hendpoints =>
          cases h
          exact hendpoints
        · cases h

/-! ## Discovery -/

theorem discoverOauth_parts {answers : Answers} {discovery : OauthDiscovery}
    (hparse : urls.parse mcpUrl = some requested)
    (h : discoverOauth urls.parse answers mcpUrl = .ok discovery) :
    ∃ challenge prm metadata place, answers.challenge = .ok challenge ∧
      discoverProtectedResource urls.parse answers requested challenge.resourceMetadata
        requested.allowsHttp = .ok (prm, discovery.authorizationServer) ∧
      discoverAsMetadata urls.parse answers discovery.authorizationServer requested.allowsHttp =
        .ok (metadata, place) ∧
      ascii "S256" ∈ metadata.codeChallengeMethodsSupported.getD [] ∧
      discovery.resource = prm.resource ∧ discovery.issuer = metadata.issuer ∧
      discovery.endpoints = metadata.endpoints ∧
      discovery.scopesSupported = resolveScopes challenge.scope prm.scopesSupported
        metadata.scopesSupported := by
  rw [discoverOauth, hparse] at h
  obtain ⟨challenge, hchallenge, h⟩ := Checks.bind_eq_ok h
  obtain ⟨⟨prm, server⟩, hprm, h⟩ := Checks.bind_eq_ok h
  obtain ⟨⟨metadata, place⟩, hmetadata, h⟩ := Checks.bind_eq_ok h
  dsimp only at h
  split at h
  · cases h
  · next hpkce =>
    cases h
    refine ⟨challenge, prm, metadata, place, hchallenge, hprm, hmetadata, ?_, rfl, rfl, rfl, rfl⟩
    simpa using hpkce

theorem admitted_of_ok {discovery : OauthDiscovery} (hparse : urls.parse mcpUrl = some requested)
    (h : discoverOauth urls.parse (network.answers urls mcpUrl) mcpUrl = .ok discovery) :
    ∃ challenge prm metadata, Admitted urls network requested challenge prm metadata discovery := by
  obtain ⟨challenge, prm, metadata, place, hchallenge, hprm, hmetadata, hpkce, hresource, hissuer,
    hendpoints, hscopes⟩ := discoverOauth_parts hparse h
  have hasked : readChallenge urls requested requested.allowsHttp network.challenge =
      .ok challenge := by
    simpa only [Network.answers, hparse] using hchallenge
  rw [discoverProtectedResource_eq] at hprm
  obtain ⟨hcandidate, hacceptable⟩ := tryResources_ok hprm
  obtain ⟨resource, hread, horigin, hpath⟩ := resource_of_no_problem hacceptable.resource
  obtain ⟨others, hfirst⟩ := hacceptable.first
  rw [discoverAsMetadata] at hmetadata
  cases hserver : urls.parse discovery.authorizationServer with
  | none =>
    rw [hserver] at hmetadata
    cases hmetadata
  | some server =>
    simp only [hserver] at hmetadata
    obtain ⟨hhit, hplace, hsame⟩ :=
      @tryVariants_ok urls.parse _ _ _ ⟨metadata, place⟩ _ _ hmetadata
    obtain ⟨claimed, server', hclaimed, hserver', hsameOrigin, hsearch, hsearch', hsamePath⟩ :=
      same_of_sameIssuer hsame
    rw [hserver] at hserver'
    cases hserver'
    have husable := usable_of_requireEndpoints (tryVariants_endpoints hmetadata)
    refine ⟨challenge, prm, metadata, hasked, hcandidate, ⟨hresource, resource, ?_, horigin, ?_⟩,
      ⟨others, claimed, server, hfirst, ?_, hserver, hsameOrigin, hsearch, hsearch', ?_, hissuer,
        place, List.mem_eraseDups.mp hplace, hhit⟩, ⟨hendpoints, ?_⟩, hpkce, ?_⟩
    · rw [hresource]
      exact hread
    · intro hslashes
      exact covers_of_withoutTrailingSlash hslashes hpath
    · rw [hissuer]
      exact hclaimed
    · intro hclaimedSlashes hserverSlashes
      rw [← withoutTrailingSlash_eq_stripOne hclaimedSlashes,
        ← withoutTrailingSlash_eq_stripOne hserverSlashes]
      exact hsamePath
    · rw [hendpoints]
      exact husable
    · rw [hscopes]
      exact scopesFrom_resolveScopes _ _ _

/-- What discovery returns is admitted by the rules, but for slashes at the end of paths, and a
document that is acceptable is found behind candidates that are not; only the guard's refusal of
one of these ends the search. -/
theorem discovery_admitted (hparse : urls.parse mcpUrl = some requested) :
    (∀ discovery,
      discoverOauth urls.parse (network.answers urls mcpUrl) mcpUrl = .ok discovery →
      ∃ challenge prm metadata,
        Admitted urls network requested challenge prm metadata discovery) ∧
    ∀ pointer before candidate after,
      resourceCandidates requested pointer = before ++ candidate :: after →
      ((∀ earlier ∈ before, network.resourceAt earlier ≠ .refused) →
        AcceptableAt urls network requested candidate →
        ∃ found, discoverProtectedResource urls.parse (network.answers urls mcpUrl) requested
          pointer requested.allowsHttp = .ok found) ∧
      ((∀ earlier ∈ before, ¬ AcceptableAt urls network requested earlier) →
        network.resourceAt candidate = .refused →
        discoverProtectedResource urls.parse (network.answers urls mcpUrl) requested pointer
          requested.allowsHttp = .error .egressBlocked) := by
  refine ⟨fun discovery h => admitted_of_ok hparse h, ?_⟩
  intro pointer before candidate after hcandidates
  rw [discoverProtectedResource_eq, hcandidates]
  exact ⟨fun hbefore hcandidate => tryResources_of_acceptable hbefore hcandidate _,
    fun hbefore hcandidate => tryResources_of_refused hbefore hcandidate _⟩

end Search

/-! ## A server with one resource -/

/-- `new URL` on a few https URLs, by origin and path. -/
def plainUrls : Urls where
  parse raw :=
    ([(ascii "https://mcp.example", ascii "/mcp"), (ascii "https://mcp.example", ascii "/mcp//"),
      (ascii "https://auth.example", ascii "/"), (ascii "https://auth.example", ascii "/authorize"),
      (ascii "https://auth.example", ascii "/token"),
      (ascii "https://10.0.0.1", ascii "/prm")].find? fun parts => raw == parts.1 ++ parts.2).map
      fun parts => {
        protocol := ascii "https:"
        username := []
        password := []
        hostname := parts.1.drop 8
        origin := parts.1
        pathname := parts.2
        search := []
        hash := [] }
  resolve raw _ := some raw
  href url := url.origin ++ url.pathname

def plainRequested : Url where
  protocol := ascii "https:"
  username := []
  password := []
  hostname := ascii "mcp.example"
  origin := ascii "https://mcp.example"
  pathname := ascii "/mcp"
  search := []
  hash := []

/-- The guard refuses a private address. -/
def plainNetwork (challenge : Reply Nat) (resource : String) : Network Nat where
  challenge
  resourceAt place :=
    if place == ascii "https://10.0.0.1/prm" then .refused
    else .response 200 none (some (.obj [(ascii "resource", .str (ascii resource)),
      (ascii "authorization_servers", .arr [.str (ascii "https://auth.example/")])]))
  serverAt _ :=
    .response 200 none (some (.obj [(ascii "issuer", .str (ascii "https://auth.example/")),
      (ascii "authorization_endpoint", .str (ascii "https://auth.example/authorize")),
      (ascii "token_endpoint", .str (ascii "https://auth.example/token")),
      (ascii "code_challenge_methods_supported", .arr [.str (ascii "S256")])]))

def plainDiscovery (resource : String) : OauthDiscovery where
  resource := ascii resource
  authorizationServer := ascii "https://auth.example/"
  issuer := ascii "https://auth.example/"
  authorizationEndpoint := ascii "https://auth.example/authorize"
  tokenEndpoint := ascii "https://auth.example/token"
  registrationEndpoint := none
  revocationEndpoint := none
  scopesSupported := none
  clientIdMetadataDocumentSupported := none
  issParameterSupported := none
  document := {
    metadata := {
      issuer := ascii "https://auth.example/"
      authorizationEndpoint := ascii "https://auth.example/authorize"
      tokenEndpoint := ascii "https://auth.example/token"
      registrationEndpoint := none
      revocationEndpoint := none
      scopesSupported := none
      codeChallengeMethodsSupported := some [ascii "S256"]
      clientIdMetadataDocumentSupported := none
      authorizationResponseIssParameterSupported := none }
    foundAt := ascii "https://auth.example/.well-known/oauth-authorization-server" }

theorem discovery_admitted_plain :
    ∃ discovery,
      discoverOauth plainUrls.parse ((plainNetwork .failed "https://mcp.example/mcp").answers
        plainUrls (ascii "https://mcp.example/mcp")) (ascii "https://mcp.example/mcp") =
        .ok discovery ∧ ∃ challenge prm metadata,
        Admitted plainUrls (plainNetwork .failed "https://mcp.example/mcp") plainRequested challenge
          prm metadata discovery := by
  have hok : discoverOauth plainUrls.parse ((plainNetwork .failed "https://mcp.example/mcp").answers
      plainUrls (ascii "https://mcp.example/mcp")) (ascii "https://mcp.example/mcp") =
      .ok (plainDiscovery "https://mcp.example/mcp") := by decide +kernel
  exact ⟨_, hok, (discovery_admitted (by decide +kernel)).1 _ hok⟩

/-- The challenge points to a private address, and a document at the well-known place of the
resource is acceptable: discovery ends with the refusal.  A document for `/mcp//` is believed to be
about `/mcp`. -/
theorem discovery_stops :
    (AcceptableAt plainUrls
        (plainNetwork (.response 401 (some (ascii
          "Bearer resource_metadata=\"https://10.0.0.1/prm\"")) none) "https://mcp.example/mcp")
        plainRequested
        (ascii "https://mcp.example/.well-known/oauth-protected-resource/mcp") ∧
      discoverOauth plainUrls.parse
        ((plainNetwork (.response 401 (some (ascii
          "Bearer resource_metadata=\"https://10.0.0.1/prm\"")) none)
          "https://mcp.example/mcp").answers plainUrls (ascii "https://mcp.example/mcp"))
        (ascii "https://mcp.example/mcp") = .error .egressBlocked) ∧
    ∃ discovery resource,
      discoverOauth plainUrls.parse ((plainNetwork .failed "https://mcp.example/mcp//").answers
        plainUrls (ascii "https://mcp.example/mcp")) (ascii "https://mcp.example/mcp") =
        .ok discovery ∧
      plainUrls.parse discovery.resource = some resource ∧
      ¬ Covers resource.pathname plainRequested.pathname := by
  refine ⟨⟨⟨⟨ascii "https://mcp.example/mcp", some [ascii "https://auth.example/"], none⟩,
    ascii "https://auth.example/", rfl, ⟨⟨[], rfl⟩, by decide +kernel, by decide +kernel⟩⟩,
    by decide +kernel⟩, plainDiscovery "https://mcp.example/mcp//",
    { plainRequested with pathname := ascii "/mcp//" }, by decide +kernel, by decide +kernel, ?_⟩
  rintro (hsame | hbelow)
  · revert hsame
    decide
  · have hlength := hbelow.length_le
    revert hlength
    decide

end InvisibleString.Oauth
