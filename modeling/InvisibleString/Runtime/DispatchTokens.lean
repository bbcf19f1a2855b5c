import InvisibleString.Lib.Transition
import InvisibleString.Runtime.Workers

/- # `Runtime.DispatchTokens` — what a worker lets in

The control plane mints a token for each call of a worker, and the worker takes a token once: it
checks the claims against its clock, and then looks the token's id up among those it has seen.
The ids it has seen are dropped some time after their tokens have expired.

A request reads the clock twice, once for the claims and once for the ids.

**Proved here.**

    on every run a token is taken at most once, exactly when no token that was taken before and
      still passes the claims check is looked up as late as its id is dropped
                                                              (`dispatch_single_use`)
    a worker whose clock leaps between the two readings takes a token twice
                                                              (`dispatched_twice`)
-/

namespace InvisibleString.Runtime

open Json
open Transition (Move Trace)

variable (T : TokenFormat)

/-! ## Minting -/

def DISPATCH_TOKEN_TTL_SECONDS : Nat := 60

/-- `derivePerWorkerSecret(bootstrapSecret, workerId, "dispatch")`. -/
def dispatchSecret (bootstrapSecret workerId : JsString) : JsString :=
  T.hmacHex bootstrapSecret (ascii "worker-dispatch:" ++ workerId)

def workerDispatchAudience (workerId : JsString) : JsString := ascii "worker:" ++ workerId

/-- One call of `mintDispatchToken`. -/
structure DispatchMint where
  workerId : JsString
  ttlSeconds : Option Nat
  nowMs : Nat
  jti : JsString

def DispatchMint.claims (m : DispatchMint) : WorkerTokenClaims where
  iss := WORKER_TOKEN_ISSUER
  sub := ascii "control-plane"
  aud := workerDispatchAudience m.workerId
  iat := some (m.nowMs / 1000)
  nbf := none
  exp := m.nowMs / 1000 + m.ttlSeconds.getD DISPATCH_TOKEN_TTL_SECONDS
  jti := some m.jti

def mintDispatchToken (bootstrapSecret : JsString) (m : DispatchMint) : MintedToken :=
  mint T (dispatchSecret T bootstrapSecret m.workerId) m.claims

def verifyDispatchToken (bootstrapSecret workerId token : JsString) (nowMs : Nat) :
    Except TokenProblem WorkerTokenClaims :=
  verify T (dispatchSecret T bootstrapSecret workerId) token (workerDispatchAudience workerId) nowMs

/-! ## The worker -/

structure DispatchConfig where
  workerSharedSecret : JsString
  workerId : JsString
  /-- `authMode === "worker-token"` -/
  workerTokenMode : Bool
  secretsEqual : JsString → JsString → Bool

structure InternalRequest where
  /-- `x-worker-secret` -/
  secret : Option JsString
  /-- `x-dispatch-token` -/
  token : Option JsString
  /-- `x-worker-id` -/
  workerId : Option JsString

/-- The ids that were seen, and when each is dropped. -/
abbrev SeenJtis := List (JsString × Nat)

def dispatchJtiFresh (seen : SeenJtis) (jti : Option JsString) (expSeconds nowMs : Nat) :
    Bool × SeenJtis :=
  let kept := seen.filter fun e => !decide (e.2 ≤ nowMs)
  match jti with
  | none => (true, kept)
  | some jti =>
    if (OrderedMap.get? jti kept).isSome then (false, kept)
    else (true, OrderedMap.set jti (expSeconds * 1000 + 60000) kept)

inductive Authorization where
  | bootstrap
  | dispatched
  | refused
  deriving DecidableEq

/-- The bootstrap secret of the request is good here. -/
def bootstrapAccepted (config : DispatchConfig) (request : InternalRequest) : Bool :=
  request.secret.any fun provided =>
    !config.workerTokenMode && config.secretsEqual provided config.workerSharedSecret

/-- The token the request is judged by. -/
def InternalRequest.usedToken (config : DispatchConfig) (request : InternalRequest) :
    Option JsString :=
  if bootstrapAccepted config request then none
  else if request.workerId.all fun id => id = config.workerId then request.token
  else none

/-- The request at the two readings of the clock. -/
def authorized (config : DispatchConfig) (request : InternalRequest) (seen : SeenJtis)
    (verifiedAt checkedAt : Nat) : Authorization × SeenJtis :=
  if bootstrapAccepted config request then (.bootstrap, seen)
  else
    match request.usedToken config with
    | none => (.refused, seen)
    | some token =>
      match verifyDispatchToken T config.workerSharedSecret config.workerId token verifiedAt with
      | .error _ => (.refused, seen)
      | .ok claims =>
        let fresh := dispatchJtiFresh seen claims.jti claims.exp checkedAt
        (if fresh.1 then .dispatched else .refused, fresh.2)

structure WorkerAuth where
  /-- no later reading of the clock is below -/
  now : Nat
  seen : SeenJtis
  /-- the tokens that were taken -/
  accepted : List JsString

/-- A worker process that has just started. -/
def WorkerAuth.started (now : Nat) : WorkerAuth := ⟨now, [], []⟩

structure RequestEvent where
  request : InternalRequest
  verifiedAt : Nat
  checkedAt : Nat

/-- The token that the event has taken. -/
def takenToken (config : DispatchConfig) (s : WorkerAuth) (e : RequestEvent) : Option JsString :=
  match (authorized T config e.request s.seen e.verifiedAt e.checkedAt).1 with
  | .dispatched => e.request.usedToken config
  | .bootstrap | .refused => none

/-- The tokens of the requests were minted by the control plane; `mints` are its calls. -/
def Minted (config : DispatchConfig) (mints : DispatchMint → Prop) (token : JsString) : Prop :=
  ∃ m, mints m ∧ token = (mintDispatchToken T config.workerSharedSecret m).token

inductive AuthStep (config : DispatchConfig) (mints : DispatchMint → Prop) :
    WorkerAuth → RequestEvent → WorkerAuth → Prop
  | request (s : WorkerAuth) (e : RequestEvent) (hverified : s.now ≤ e.verifiedAt)
      (hchecked : e.verifiedAt ≤ e.checkedAt)
      (hminted : ∀ token ∈ e.request.token, Minted T config mints token) :
      AuthStep config mints s e
        { now := e.checkedAt
          seen := (authorized T config e.request s.seen e.verifiedAt e.checkedAt).2
          accepted := s.accepted ++ (takenToken T config s e).toList }

/-! ## Claims of minted tokens -/

theorem verify_minted (secret secret' : JsString) (claims : WorkerTokenClaims) (audience : JsString)
    (nowMs : Nat) {claims' : WorkerTokenClaims}
    (h : verify T secret' (mint T secret claims).token audience nowMs = .ok claims') :
    claims' = claims ∧ verifyWorkerTokenClaims claims audience nowMs = .ok claims := by
  rw [verify, splitOn_mint] at h
  dsimp only at h
  rw [T.decode_encode] at h
  split_ifs at h
  have heq := verifyWorkerTokenClaims_ok h
  rw [heq] at h
  exact ⟨heq, h⟩

theorem verify_minted_own (secret : JsString) (claims : WorkerTokenClaims) (audience : JsString)
    (nowMs : Nat) : verify T secret (mint T secret claims).token audience nowMs =
      verifyWorkerTokenClaims claims audience nowMs := by
  rw [verify, splitOn_mint]
  dsimp only
  rw [if_neg (not_not.mpr rfl), T.decode_encode]

/-- The clock is in the time of the token, give or take the skew. -/
def DispatchMint.ValidAt (m : DispatchMint) (nowMs : Nat) : Prop :=
  m.nowMs / 1000 ≤ nowMs / 1000 + WORKER_TOKEN_CLOCK_SKEW_SECONDS ∧
    nowMs / 1000 ≤ m.claims.exp + WORKER_TOKEN_CLOCK_SKEW_SECONDS

theorem verifyWorkerTokenClaims_minted {m : DispatchMint} {audience : JsString} {nowMs : Nat} :
    verifyWorkerTokenClaims m.claims audience nowMs = .ok m.claims ↔
      workerDispatchAudience m.workerId = audience ∧ m.ValidAt nowMs := by
  have hiss : m.claims.iss = WORKER_TOKEN_ISSUER := rfl
  rw [verifyWorkerTokenClaims, if_neg (not_not.mpr hiss)]
  by_cases haud : m.claims.aud = audience
  · rw [if_neg (not_not.mpr haud)]
    by_cases hexp : m.claims.exp + WORKER_TOKEN_CLOCK_SKEW_SECONDS < nowMs / 1000
    · rw [if_pos hexp]
      refine iff_of_false nofun fun h => ?_
      exact absurd h.2.2 (Nat.not_le_of_lt hexp)
    · rw [if_neg hexp, if_neg (show ¬ m.claims.nbf.any _ = true from Bool.false_ne_true)]
      have hany : m.claims.iat.any (fun iat =>
            nowMs / 1000 + WORKER_TOKEN_CLOCK_SKEW_SECONDS < iat) =
          decide (nowMs / 1000 + WORKER_TOKEN_CLOCK_SKEW_SECONDS < m.nowMs / 1000) := rfl
      rw [hany]
      by_cases hiat : nowMs / 1000 + WORKER_TOKEN_CLOCK_SKEW_SECONDS < m.nowMs / 1000
      · rw [if_pos (decide_eq_true hiat)]
        refine iff_of_false nofun fun h => ?_
        exact absurd h.2.1 (Nat.not_le_of_lt hiat)
      · rw [if_neg fun h => hiat (of_decide_eq_true h)]
        exact iff_of_true rfl ⟨haud, Nat.le_of_not_lt hiat, Nat.le_of_not_lt hexp⟩
  · rw [if_pos haud]
    exact iff_of_false nofun fun h => haud h.1

theorem workerDispatchAudience_inj {workerId workerId' : JsString} :
    workerDispatchAudience workerId = workerDispatchAudience workerId' ↔ workerId = workerId' :=
  List.append_right_inj _

/-- A worker finds the claims of a minted token good when it is the worker's own and valid. -/
theorem verifyDispatchToken_minted {bootstrapSecret workerId : JsString} {m : DispatchMint}
    {nowMs : Nat} {claims : WorkerTokenClaims} :
    verifyDispatchToken T bootstrapSecret workerId (mintDispatchToken T bootstrapSecret m).token
        nowMs = .ok claims ↔
      claims = m.claims ∧ m.workerId = workerId ∧ m.ValidAt nowMs := by
  constructor
  · intro h
    obtain ⟨heq, hclaims⟩ := verify_minted T _ _ _ _ _ h
    obtain ⟨haud, hvalid⟩ := verifyWorkerTokenClaims_minted.mp hclaims
    exact ⟨heq, workerDispatchAudience_inj.mp haud, hvalid⟩
  · rintro ⟨rfl, rfl, hvalid⟩
    refine (verify_minted_own T _ _ _ _).trans ?_
    exact verifyWorkerTokenClaims_minted.mpr ⟨rfl, hvalid⟩

theorem verifyDispatchToken_own (bootstrapSecret : JsString) {workerId : JsString}
    {m : DispatchMint} {nowMs : Nat} (hown : m.workerId = workerId) (hvalid : m.ValidAt nowMs) :
    verifyDispatchToken T bootstrapSecret workerId (mintDispatchToken T bootstrapSecret m).token
      nowMs = .ok m.claims :=
  (verifyDispatchToken_minted T).mpr ⟨rfl, hown, hvalid⟩

theorem verifyWorkerSessionToken_dispatch (bootstrapSecret workerId : JsString) (m : DispatchMint)
    (nowMs : Nat) (claims : WorkerTokenClaims) :
    verifyWorkerSessionToken T bootstrapSecret workerId
      (mintDispatchToken T bootstrapSecret m).token nowMs ≠ .ok claims := by
  intro h
  rw [verifyWorkerSessionToken] at h
  cases hverify : verify T (sessionSecret T bootstrapSecret workerId)
      (mintDispatchToken T bootstrapSecret m).token controlPlaneAudience nowMs with
  | error problem =>
    rw [hverify] at h
    cases h
  | ok claims' =>
    obtain ⟨-, hclaims⟩ := verify_minted T _ _ _ _ _ hverify
    have haud := (verifyWorkerTokenClaims_minted.mp hclaims).1
    have hhead : (workerDispatchAudience m.workerId).head? = controlPlaneAudience.head? :=
      congrArg List.head? haud
    have hfirst : unit 'w' = unit 'c' := Option.some.inj hhead
    exact absurd hfirst (by decide)

/-! ## One request -/

variable {T} {config : DispatchConfig} {mints : DispatchMint → Prop} {s : WorkerAuth}
  {e : RequestEvent}

/-- The id is not among those that are still kept at the second reading. -/
def Unseen (seen : SeenJtis) (jti : JsString) (nowMs : Nat) : Prop :=
  ∀ entry ∈ seen, entry.1 = jti → entry.2 ≤ nowMs

theorem get?_kept (seen : SeenJtis) (jti : JsString) (nowMs : Nat) :
    OrderedMap.get? jti (seen.filter fun e => !decide (e.2 ≤ nowMs)) = none ↔
      Unseen seen jti nowMs := by
  rw [OrderedMap.get?_eq_none]
  constructor
  · intro h entry hentry heq
    by_contra hlate
    refine h (List.mem_map.mpr ⟨entry, List.mem_filter.mpr ⟨hentry, ?_⟩, heq⟩)
    rw [decide_eq_false hlate]
    rfl
  · rintro h hm
    obtain ⟨entry, hentry, heq⟩ := List.mem_map.mp hm
    obtain ⟨hentry, hlate⟩ := List.mem_filter.mp hentry
    rw [decide_eq_true (h entry hentry heq)] at hlate
    cases hlate

theorem dispatchJtiFresh_unseen {seen : SeenJtis} {jti : JsString} {expSeconds nowMs : Nat}
    (h : Unseen seen jti nowMs) : dispatchJtiFresh seen (some jti) expSeconds nowMs =
      (true, (seen.filter fun e => !decide (e.2 ≤ nowMs)) ++
        [(jti, expSeconds * 1000 + 60000)]) := by
  have hnone := (get?_kept seen jti nowMs).mpr h
  have hset := OrderedMap.set_of_not_mem (v := expSeconds * 1000 + 60000)
    (OrderedMap.get?_eq_none.mp hnone)
  show (if (OrderedMap.get? jti _).isSome then _ else _) = _
  rw [hnone, hset]
  rfl

theorem dispatchJtiFresh_seen {seen : SeenJtis} {jti : JsString} {expSeconds nowMs : Nat}
    (h : ¬ Unseen seen jti nowMs) : dispatchJtiFresh seen (some jti) expSeconds nowMs =
      (false, seen.filter fun e => !decide (e.2 ≤ nowMs)) := by
  have hsome : (OrderedMap.get? jti (seen.filter fun e => !decide (e.2 ≤ nowMs))).isSome :=
    Option.isSome_iff_ne_none.mpr fun hnone => h ((get?_kept seen jti nowMs).mp hnone)
  show (if (OrderedMap.get? jti _).isSome then _ else _) = _
  rw [if_pos hsome]

theorem usedToken_of_bootstrap {request : InternalRequest}
    (h : bootstrapAccepted config request = true) : request.usedToken config = none := if_pos h

theorem mem_token_of_used {request : InternalRequest} {token : JsString}
    (h : request.usedToken config = some token) : token ∈ request.token := by
  rw [InternalRequest.usedToken] at h
  split_ifs at h
  exact h

variable (T) in
/-- A request without a token of its own changes nothing. -/
theorem authorized_of_none {request : InternalRequest} (seen : SeenJtis)
    (verifiedAt checkedAt : Nat) (h : request.usedToken config = none) :
    (authorized T config request seen verifiedAt checkedAt).1 ≠ .dispatched ∧
      (authorized T config request seen verifiedAt checkedAt).2 = seen := by
  rw [authorized]
  by_cases hbootstrap : bootstrapAccepted config request = true
  · rw [if_pos hbootstrap]
    exact ⟨Authorization.noConfusion, rfl⟩
  · rw [if_neg hbootstrap, h]
    exact ⟨Authorization.noConfusion, rfl⟩

theorem authorized_of_error {request : InternalRequest} (seen : SeenJtis)
    {verifiedAt : Nat} (checkedAt : Nat) {token : JsString} {problem : TokenProblem}
    (h : request.usedToken config = some token)
    (hverify : verifyDispatchToken T config.workerSharedSecret config.workerId token verifiedAt =
      .error problem) :
    authorized T config request seen verifiedAt checkedAt = (.refused, seen) := by
  have hbootstrap : ¬ bootstrapAccepted config request = true := fun hb => by
    rw [usedToken_of_bootstrap hb] at h
    cases h
  rw [authorized, if_neg hbootstrap, h]
  dsimp only
  rw [hverify]

theorem authorized_of_ok {request : InternalRequest} (seen : SeenJtis)
    {verifiedAt : Nat} (checkedAt : Nat) {token : JsString} {claims : WorkerTokenClaims}
    (h : request.usedToken config = some token)
    (hverify : verifyDispatchToken T config.workerSharedSecret config.workerId token verifiedAt =
      .ok claims) :
    authorized T config request seen verifiedAt checkedAt =
      (if (dispatchJtiFresh seen claims.jti claims.exp checkedAt).1 then .dispatched else .refused,
        (dispatchJtiFresh seen claims.jti claims.exp checkedAt).2) := by
  have hbootstrap : ¬ bootstrapAccepted config request = true := fun hb => by
    rw [usedToken_of_bootstrap hb] at h
    cases h
  rw [authorized, if_neg hbootstrap, h]
  dsimp only
  rw [hverify]

variable (T config) in
/-- The token of a mint. -/
def tokenOf (m : DispatchMint) : JsString := (mintDispatchToken T config.workerSharedSecret m).token

/-- When the id of a token is dropped. -/
def DispatchMint.droppedAt (m : DispatchMint) : Nat := m.claims.exp * 1000 + 60000

variable (T config mints) in
/-- What a request can do: it takes a token of the worker's own that is valid at the first reading
and whose id is not kept at the second, or it takes none and drops some ids. -/
theorem authorized_cases (s : WorkerAuth) (e : RequestEvent)
    (hminted : ∀ token ∈ e.request.token, Minted T config mints token) :
    (∃ m, mints m ∧ e.request.usedToken config = some (tokenOf T config m) ∧
        m.workerId = config.workerId ∧ m.ValidAt e.verifiedAt ∧
        Unseen s.seen m.jti e.checkedAt ∧
        takenToken T config s e = some (tokenOf T config m) ∧
        (authorized T config e.request s.seen e.verifiedAt e.checkedAt).2 =
          (s.seen.filter fun e' => !decide (e'.2 ≤ e.checkedAt)) ++ [(m.jti, m.droppedAt)]) ∨
      takenToken T config s e = none ∧
        (∀ m, mints m → e.request.usedToken config = some (tokenOf T config m) →
          m.workerId = config.workerId → m.ValidAt e.verifiedAt →
            ¬ Unseen s.seen m.jti e.checkedAt) ∧
        ((authorized T config e.request s.seen e.verifiedAt e.checkedAt).2 = s.seen ∨
          (authorized T config e.request s.seen e.verifiedAt e.checkedAt).2 =
            s.seen.filter fun e' => !decide (e'.2 ≤ e.checkedAt)) := by
  cases hused : e.request.usedToken config with
  | none =>
    obtain ⟨hne, hseen⟩ := authorized_of_none T s.seen e.verifiedAt e.checkedAt hused
    refine .inr ⟨?_, fun m _ h => (nomatch h), .inl hseen⟩
    rw [takenToken]
    split
    · contradiction
    · rfl
    · rfl
  | some token =>
    obtain ⟨m, hm, rfl⟩ := hminted token (mem_token_of_used hused)
    have hsame : ∀ m', some (tokenOf T config m) = some (tokenOf T config m') →
        m'.workerId = config.workerId → m'.ValidAt e.verifiedAt →
          verifyDispatchToken T config.workerSharedSecret config.workerId (tokenOf T config m)
            e.verifiedAt = .ok m'.claims := by
      intro m' htoken hown hvalid
      rw [Option.some.inj htoken]
      exact verifyDispatchToken_own T _ hown hvalid
    cases hverify : verifyDispatchToken T config.workerSharedSecret config.workerId
        (tokenOf T config m) e.verifiedAt with
    | error problem =>
      have hauth := authorized_of_error s.seen e.checkedAt hused hverify
      refine .inr ⟨?_, ?_, .inl (congrArg Prod.snd hauth)⟩
      · rw [takenToken, hauth]
      · intro m' _ htoken hown hvalid
        have hok := hsame m' htoken hown hvalid
        rw [hverify] at hok
        cases hok
    | ok claims =>
      obtain ⟨rfl, hown, hvalid⟩ := (verifyDispatchToken_minted T).mp hverify
      have hauth := authorized_of_ok s.seen e.checkedAt hused hverify
      have hjti : m.claims.jti = some m.jti := rfl
      rw [hjti] at hauth
      by_cases hunseen : Unseen s.seen m.jti e.checkedAt
      · rw [dispatchJtiFresh_unseen hunseen] at hauth
        refine .inl ⟨m, hm, rfl, hown, hvalid, hunseen, ?_, congrArg Prod.snd hauth⟩
        rw [takenToken, hauth]
        exact hused
      · rw [dispatchJtiFresh_seen hunseen] at hauth
        refine .inr ⟨?_, ?_, .inr (congrArg Prod.snd hauth)⟩
        · rw [takenToken, hauth]
          rfl
        · intro m' _ htoken hown' hvalid' hunseen'
          have hok := hsame m' htoken hown' hvalid'
          rw [hverify] at hok
          have hclaims : m.claims.jti = m'.claims.jti :=
            congrArg WorkerTokenClaims.jti (Except.ok.inj hok)
          rw [← Option.some.inj (hjti.symm.trans hclaims)] at hunseen'
          exact hunseen hunseen'

/-! ## Runs -/

variable (T config mints) in
/-- What a worker remembers of the tokens it has taken. -/
structure Remembers (s : WorkerAuth) : Prop where
  /-- the ids are those of tokens that were taken -/
  seen : ∀ entry ∈ s.seen, ∃ m, mints m ∧ tokenOf T config m ∈ s.accepted ∧
    entry = (m.jti, m.droppedAt)
  /-- a token that was taken has its id among them until it is dropped -/
  accepted : ∀ token ∈ s.accepted, ∃ m, mints m ∧ token = tokenOf T config m ∧
    m.workerId = config.workerId ∧ ((m.jti, m.droppedAt) ∈ s.seen ∨ m.droppedAt ≤ s.now)

theorem Remembers.started (now : Nat) : Remembers T config mints (.started now) where
  seen _ h := absurd h List.not_mem_nil
  accepted _ h := absurd h List.not_mem_nil

/-- Ids that are still kept at the second reading stay. -/
theorem Remembers.dropped {seen : SeenJtis} {m : DispatchMint} {now checkedAt : Nat}
    (h : (m.jti, m.droppedAt) ∈ seen ∨ m.droppedAt ≤ now) (hnow : now ≤ checkedAt) :
    (m.jti, m.droppedAt) ∈ seen.filter (fun e => !decide (e.2 ≤ checkedAt)) ∨
      m.droppedAt ≤ checkedAt := by
  rcases h with hmem | hdue
  · by_cases hdue : m.droppedAt ≤ checkedAt
    · exact .inr hdue
    · refine .inl (List.mem_filter.mpr ⟨hmem, ?_⟩)
      show (!decide (m.droppedAt ≤ checkedAt)) = true
      rw [decide_eq_false hdue]
      rfl
  · exact .inr (hdue.trans hnow)

theorem Remembers.step {t : WorkerAuth} (h : AuthStep T config mints s e t)
    (hs : Remembers T config mints s) : Remembers T config mints t := by
  cases h with
  | request hverified hchecked hminted =>
    have hnow := hverified.trans hchecked
    rcases authorized_cases T config mints s e hminted with
      ⟨m, hm, -, hown, -, -, htaken, hseen⟩ | ⟨htaken, -, hseen⟩
    · rw [htaken, hseen]
      constructor
      · intro entry hentry
        rcases List.mem_append.mp hentry with hentry | hentry
        · obtain ⟨m', hm', hmem, heq⟩ := hs.seen entry (List.mem_of_mem_filter hentry)
          exact ⟨m', hm', List.mem_append_left _ hmem, heq⟩
        · exact ⟨m, hm, List.mem_append_right _ List.mem_cons_self, List.mem_singleton.mp hentry⟩
      · intro token htoken
        rcases List.mem_append.mp htoken with htoken | htoken
        · obtain ⟨m', hm', heq, hown', hkept⟩ := hs.accepted token htoken
          refine ⟨m', hm', heq, hown', ?_⟩
          rcases Remembers.dropped hkept hnow with hkept | hdue
          · exact .inl (List.mem_append_left _ hkept)
          · exact .inr hdue
        · refine ⟨m, hm, List.mem_singleton.mp htoken, hown, ?_⟩
          exact .inl (List.mem_append_right _ List.mem_cons_self)
    · rw [htaken, Option.toList_none, List.append_nil]
      rcases hseen with hseen | hseen
      · rw [hseen]
        refine ⟨hs.seen, fun token htoken => ?_⟩
        obtain ⟨m', hm', heq, hown', hkept⟩ := hs.accepted token htoken
        exact ⟨m', hm', heq, hown', hkept.imp_right fun hdue => hdue.trans hnow⟩
      · rw [hseen]
        refine ⟨fun entry hentry => hs.seen entry (List.mem_of_mem_filter hentry), ?_⟩
        intro token htoken
        obtain ⟨m', hm', heq, hown', hkept⟩ := hs.accepted token htoken
        exact ⟨m', hm', heq, hown', Remembers.dropped hkept hnow⟩

variable (T config) in
/-- A token that was taken before and still passes is looked up before its id is dropped. -/
def Prompt (m : Move WorkerAuth RequestEvent) : Prop :=
  ∀ token ∈ m.before.accepted, m.event.request.usedToken config = some token →
    ∀ claims, verifyDispatchToken T config.workerSharedSecret config.workerId token
      m.event.verifiedAt = .ok claims → m.event.checkedAt < claims.exp * 1000 + 60000

variable (T config) in
/-- The step takes no token that was taken before. -/
def TakesNew (m : Move WorkerAuth RequestEvent) : Prop :=
  ∀ token, takenToken T config m.before m.event = some token → token ∉ m.before.accepted

theorem takesNew_iff {m : Move WorkerAuth RequestEvent}
    (hfresh : ∀ a b, mints a → mints b → a.jti = b.jti → a = b)
    (h : AuthStep T config mints m.before m.event m.after)
    (hs : Remembers T config mints m.before) : TakesNew T config m ↔ Prompt T config m := by
  rcases m with ⟨s, e, t⟩
  change AuthStep T config mints s e t at h
  cases h with
  | request hverified hchecked hminted =>
    have hnow : s.now ≤ e.checkedAt := hverified.trans hchecked
    constructor
    · intro hnew token hbefore hused claims hverify
      by_contra hlate
      obtain ⟨a, ha, rfl, -⟩ := hs.accepted token hbefore
      obtain ⟨rfl, hown, hvalid⟩ := (verifyDispatchToken_minted T).mp hverify
      rcases authorized_cases T config mints s e hminted with
        ⟨b, -, husedb, -, -, -, htaken, -⟩ | ⟨-, hnone, -⟩
      · rw [hused] at husedb
        rw [← husedb] at htaken
        exact hnew _ htaken hbefore
      · refine hnone a ha hused hown hvalid fun entry hentry hjti => ?_
        obtain ⟨b, hb, -, rfl⟩ := hs.seen entry hentry
        rw [hfresh b a hb ha hjti]
        exact Nat.le_of_not_lt hlate
    · intro hprompt token htoken hbefore
      rcases authorized_cases T config mints s e hminted with
        ⟨b, -, hused, hown, hvalid, hunseen, htaken, -⟩ | ⟨htaken, -, -⟩
      · cases htaken.symm.trans htoken
        have hverify := verifyDispatchToken_own T config.workerSharedSecret hown hvalid
        have hearly : e.checkedAt < b.droppedAt := hprompt _ hbefore hused _ hverify
        obtain ⟨a, ha, heq, -, hkept⟩ := hs.accepted _ hbefore
        have hclaims : b.claims = a.claims := by
          rw [show (mintDispatchToken T config.workerSharedSecret b).token = _ from heq] at hverify
          exact ((verifyDispatchToken_minted T).mp hverify).1
        have hdropped : a.droppedAt = b.droppedAt :=
          congrArg (fun c : WorkerTokenClaims => c.exp * 1000 + 60000) hclaims.symm
        rcases hkept with hkept | hdue
        · have hjti : b.claims.jti = a.claims.jti := congrArg WorkerTokenClaims.jti hclaims
          have hdue := hunseen _ hkept (Option.some.inj hjti).symm
          exact absurd hearly (Nat.not_lt_of_le (hdropped ▸ hdue))
        · exact absurd hearly (Nat.not_lt_of_le (hdropped ▸ hdue.trans hnow))
      · rw [htaken] at htoken
        cases htoken

theorem accepted_step {t : WorkerAuth} (h : AuthStep T config mints s e t) :
    t.accepted = s.accepted ++ (takenToken T config s e).toList := by
  cases h with
  | request => rfl

theorem nodup_step {t : WorkerAuth} (h : AuthStep T config mints s e t) :
    t.accepted.Nodup ↔ s.accepted.Nodup ∧ TakesNew T config ⟨s, e, t⟩ := by
  rw [accepted_step h, List.nodup_append, TakesNew]
  cases htaken : takenToken T config s e with
  | none =>
    refine and_congr_right fun _ => iff_of_true ⟨List.nodup_nil, ?_⟩ ?_
    · exact fun _ _ _ h => absurd h List.not_mem_nil
    · exact fun token h => nomatch h
  | some token =>
    refine and_congr_right fun _ => ⟨fun h token' heq hmem => ?_, fun h => ?_⟩
    · cases heq
      exact h.2 token hmem token List.mem_cons_self rfl
    · refine ⟨List.nodup_singleton token, fun token' hmem token'' hmem' heq => ?_⟩
      rw [heq, List.mem_singleton.mp hmem'] at hmem
      exact h token rfl hmem

theorem nodup_trace {t : WorkerAuth} {moves : List (Move WorkerAuth RequestEvent)}
    (h : Trace (AuthStep T config mints) s moves t) :
    t.accepted.Nodup ↔ s.accepted.Nodup ∧ ∀ m ∈ moves, TakesNew T config m := by
  induction h with
  | nil s => exact ⟨fun h => ⟨h, fun m hm => absurd hm List.not_mem_nil⟩, And.left⟩
  | cons hstep _ ih => rw [ih, nodup_step hstep, List.forall_mem_cons, and_assoc]

theorem Remembers.own (hs : Remembers T config mints s) {m : DispatchMint}
    (hmem : tokenOf T config m ∈ s.accepted) : m.workerId = config.workerId := by
  obtain ⟨a, -, heq, hown, -⟩ := hs.accepted _ hmem
  have hvalid : a.ValidAt a.nowMs := by
    refine ⟨Nat.le_add_right _ _, ?_⟩
    show a.nowMs / 1000 ≤ a.nowMs / 1000 + a.ttlSeconds.getD DISPATCH_TOKEN_TTL_SECONDS + _
    omega
  have hverify := verifyDispatchToken_own T config.workerSharedSecret hown hvalid
  rw [show (mintDispatchToken T config.workerSharedSecret a).token = _ from heq.symm] at hverify
  exact ((verifyDispatchToken_minted T).mp hverify).2.1

theorem Remembers.first (hfresh : ∀ a b, mints a → mints b → a.jti = b.jti → a = b)
    {t : WorkerAuth} (h : AuthStep T config mints s e t) (hs : Remembers T config mints s)
    {m : DispatchMint} (hm : mints m) (hown : m.workerId = config.workerId)
    (hused : e.request.usedToken config = some (tokenOf T config m))
    (hvalid : m.ValidAt e.verifiedAt) (hnew : tokenOf T config m ∉ s.accepted) :
    takenToken T config s e = some (tokenOf T config m) := by
  cases h with
  | request _ _ hminted =>
    rcases authorized_cases T config mints s e hminted with
      ⟨b, -, husedb, -, -, -, htaken, -⟩ | ⟨-, hnone, -⟩
    · rw [htaken]
      exact husedb.symm.trans hused
    · refine absurd (fun entry hentry hjti => ?_) (hnone m hm hused hown hvalid)
      obtain ⟨b, hb, hbefore, rfl⟩ := hs.seen entry hentry
      rw [hfresh b m hb hm hjti] at hbefore
      exact absurd hbefore hnew

variable (T config mints) in
/-- Tokens are taken as they should be on a run that ends in `t`. -/
structure SingleUse (moves : List (Move WorkerAuth RequestEvent)) (t : WorkerAuth) : Prop where
  once : t.accepted.Nodup
  own : ∀ m, tokenOf T config m ∈ t.accepted → m.workerId = config.workerId
  session : ∀ m workerId nowMs claims, verifyWorkerSessionToken T config.workerSharedSecret workerId
    (tokenOf T config m) nowMs ≠ .ok claims
  first : ∀ move ∈ moves, ∀ m, mints m → m.workerId = config.workerId →
    move.event.request.usedToken config = some (tokenOf T config m) →
    m.ValidAt move.event.verifiedAt → tokenOf T config m ∉ move.before.accepted →
      takenToken T config move.before move.event = some (tokenOf T config m)

/-- While the ids of the tokens minted are fresh: tokens are taken as they should be exactly when
every token that was taken before and still passes is looked up before its id is dropped. -/
theorem dispatch_single_use (hfresh : ∀ a b, mints a → mints b → a.jti = b.jti → a = b)
    {now : Nat} {t : WorkerAuth} {moves : List (Move WorkerAuth RequestEvent)}
    (h : Trace (AuthStep T config mints) (.started now) moves t) :
    SingleUse T config mints moves t ↔ ∀ m ∈ moves, Prompt T config m := by
  have hagree : (∀ m ∈ moves, TakesNew T config m) ↔ ∀ m ∈ moves, Prompt T config m :=
    h.forall_iff (Remembers T config mints) (fun _ => True)
      (fun _ hstep _ hs => takesNew_iff hfresh hstep hs) (fun _ hstep _ hs _ => hs.step hstep)
      (fun _ _ => trivial) (.started now)
  have hremembers : Remembers T config mints t :=
    h.invariant (Remembers T config mints) (fun _ => True) (fun _ hstep _ hs => hs.step hstep)
      (fun _ _ => trivial) (.started now)
  rw [← hagree]
  constructor
  · intro hsingle
    exact ((nodup_trace h).mp hsingle.once).2
  · intro hnew
    refine ⟨(nodup_trace h).mpr ⟨List.nodup_nil, hnew⟩, fun m => hremembers.own,
      fun m workerId => verifyWorkerSessionToken_dispatch T _ workerId m, ?_⟩
    refine h.forall_of (Remembers T config mints) (fun _ => True) ?_ (fun _ _ => trivial)
      (.started now)
    intro move hstep _ hs
    exact ⟨fun m hm hown hused hvalid => hs.first hfresh hstep hm hown hused hvalid, hs.step hstep⟩

/-! ## A token that is used twice -/

def openDispatch : DispatchConfig where
  workerSharedSecret := ascii "bootstrap"
  workerId := firstWorker
  workerTokenMode := true
  secretsEqual a b := a = b

def firstMint : DispatchMint := ⟨firstWorker, none, 0, ascii "jti"⟩

def dispatchRequest : InternalRequest where
  secret := none
  token := some (tokenOf openFormat openDispatch firstMint)
  workerId := none

/-- The control plane has minted one token. -/
def oneMint (m : DispatchMint) : Prop := m = firstMint

theorem oneMint_fresh (a b : DispatchMint) (ha : oneMint a) (hb : oneMint b)
    (_ : a.jti = b.jti) : a = b := ha.trans hb.symm

theorem dispatchRequest_minted : ∀ token ∈ dispatchRequest.token,
    Minted openFormat openDispatch oneMint token :=
  fun _ htoken => ⟨firstMint, rfl, (Option.some.inj htoken).symm⟩

def firstUse : RequestEvent := ⟨dispatchRequest, 0, 0⟩

/-- The clock leaps by half a minute between the two readings. -/
def leapingUse : RequestEvent := ⟨dispatchRequest, 90000, 120000⟩

/-- The worker after a request. -/
def WorkerAuth.after (s : WorkerAuth) (e : RequestEvent) : WorkerAuth where
  now := e.checkedAt
  seen := (authorized openFormat openDispatch e.request s.seen e.verifiedAt e.checkedAt).2
  accepted := s.accepted ++ (takenToken openFormat openDispatch s e).toList

theorem firstUse_step : AuthStep openFormat openDispatch oneMint (.started 0) firstUse
    ((WorkerAuth.started 0).after firstUse) :=
  .request _ _ (Nat.le_refl 0) (Nat.le_refl 0) dispatchRequest_minted

theorem leapingUse_step : AuthStep openFormat openDispatch oneMint
    ((WorkerAuth.started 0).after firstUse) leapingUse
      (((WorkerAuth.started 0).after firstUse).after leapingUse) :=
  .request _ _ (Nat.zero_le _) (by decide) dispatchRequest_minted

theorem firstMint_valid : firstMint.ValidAt 0 ∧ firstMint.ValidAt 90000 :=
  ⟨⟨by decide, by decide⟩, by decide, by decide⟩

theorem firstUse_accepted : ((WorkerAuth.started 0).after firstUse).accepted =
    [tokenOf openFormat openDispatch firstMint] := by
  have htaken := (Remembers.started 0).first oneMint_fresh firstUse_step (m := firstMint) rfl rfl
    rfl firstMint_valid.1 List.not_mem_nil
  show [] ++ (takenToken openFormat openDispatch _ firstUse).toList = _
  rw [htaken]
  rfl

theorem leapingUse_late : ¬ Prompt openFormat openDispatch
    ⟨(WorkerAuth.started 0).after firstUse, leapingUse,
      ((WorkerAuth.started 0).after firstUse).after leapingUse⟩ := by
  intro hprompt
  have hmem : tokenOf openFormat openDispatch firstMint ∈
      ((WorkerAuth.started 0).after firstUse).accepted := by
    rw [firstUse_accepted]
    exact List.mem_cons_self
  have hearly := hprompt _ hmem rfl _
    (verifyDispatchToken_own openFormat openDispatch.workerSharedSecret rfl firstMint_valid.2)
  exact absurd hearly (by decide)

theorem dispatch_single_use_first : ∃ t moves,
    Trace (AuthStep openFormat openDispatch oneMint) (.started 0) moves t ∧
      SingleUse openFormat openDispatch oneMint moves t ∧
      t.accepted = [tokenOf openFormat openDispatch firstMint] := by
  have h : Trace (AuthStep openFormat openDispatch oneMint) (.started 0) _ _ :=
    .cons firstUse_step (.nil _)
  refine ⟨_, _, h, (dispatch_single_use oneMint_fresh h).mpr ?_, firstUse_accepted⟩
  simp only [List.forall_mem_cons, List.not_mem_nil, false_implies, implies_true, and_true]
  exact fun token hbefore => absurd hbefore List.not_mem_nil

theorem dispatched_twice : ∃ t moves,
    Trace (AuthStep openFormat openDispatch oneMint) (.started 0) moves t ∧
      moves.map Move.event = [firstUse, leapingUse] ∧
      ¬ SingleUse openFormat openDispatch oneMint moves t := by
  have h : Trace (AuthStep openFormat openDispatch oneMint) (.started 0) _ _ :=
    .cons firstUse_step (.cons leapingUse_step (.nil _))
  refine ⟨_, _, h, rfl, fun hsingle => ?_⟩
  have hnew := ((nodup_trace h).mp hsingle.once).2 _ (List.mem_cons_of_mem _ List.mem_cons_self)
  have hremembers := (Remembers.started 0).step firstUse_step
  exact leapingUse_late ((takesNew_iff oneMint_fresh leapingUse_step hremembers).mp hnew)

end InvisibleString.Runtime
