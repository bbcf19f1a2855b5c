import InvisibleString.Runtime.Workers

/- # `Runtime.Registration` — a worker's registration loop, and its drain

A worker process registers, then sends heartbeats, one request at a time and each with a
timeout; a request that the worker has given up may still arrive.  A heartbeat that is refused
makes the process register anew.  A drain sends a heartbeat of its own that marks the row
`draining`, and deregisters at the end.

**Proved here.**

    an answered heartbeat of a draining worker, or an answered deregister, leaves no live row,
      and no heartbeat and no deregister makes a row live
                                            (`Sent.not_isLiveRow_of_records`, `handle_isLiveRow`)
    a recorded drain stays recorded, as long as the draining process never finds itself
      unregistered and no register of it is on its way when the drain is recorded
                                                                    (`drain_one_way`)
    a draining worker whose row is gone registers anew  (`drain_undone`)
-/

namespace InvisibleString.Runtime

open Json

open Transition (Move Trace)

variable {N : Type}

/-! ## The process -/

structure RegistrationConfig where
  workerId : JsString
  publicUrl : JsString
  workerSharedSecret : JsString
  /-- `shared-secret` or `worker-token` -/
  authMode : WorkerIdentityDeclaration

/-- Where the loop is. -/
inductive TickPhase where
  | idle
  /-- the timer is set -/
  | scheduled
  /-- waiting for the answer to a request -/
  | waiting (request : Nat) (route : WorkerRoute)
  /-- stopping the agents after a 404 -/
  | fencing
  deriving DecidableEq

structure RegistrationProcess where
  started : Bool
  stopped : Bool
  registered : Bool
  draining : Bool
  consecutiveFailures : Nat
  sessionToken : Option JsString
  phase : TickPhase

def createRegistration : RegistrationProcess where
  started := false
  stopped := false
  registered := false
  draining := false
  consecutiveFailures := 0
  sessionToken := none
  phase := .idle

namespace RegistrationProcess

def scheduleNext (process : RegistrationProcess) : RegistrationProcess :=
  { process with phase := if process.stopped then .idle else .scheduled }

def captureToken (config : RegistrationConfig) (token : Option MintedToken)
    (process : RegistrationProcess) : RegistrationProcess :=
  match token with
  | none => process
  | some minted =>
    if config.authMode = .workerToken ∧ minted.token ≠ [] then
      { process with sessionToken := some minted.token }
    else process

/-- A tick that failed. -/
def fail (process : RegistrationProcess) : RegistrationProcess :=
  { process with consecutiveFailures := process.consecutiveFailures + 1 }.scheduleNext

def succeed (process : RegistrationProcess) : RegistrationProcess :=
  { process with consecutiveFailures := 0 }.scheduleNext

/-- The row is lost or the credential is refused. -/
def demote (process : RegistrationProcess) : RegistrationProcess :=
  { process with registered := false, sessionToken := none }

/-- What a tick does with the answer to its request. -/
def answered (config : RegistrationConfig) (route : WorkerRoute) (reply : WorkerReply)
    (process : RegistrationProcess) : RegistrationProcess :=
  match route, reply with
  | .register, .registered _ _ token _ =>
    { process.captureToken config token with registered := true }.succeed
  | .heartbeat, .ok token => (process.captureToken config token).succeed
  | .heartbeat, .error status _ _ =>
    if status = 404 then { process.demote with phase := .fencing }
    else if status = 401 ∨ status = 403 then process.demote.succeed
    else process.fail
  | _, _ => process.fail

end RegistrationProcess

/-! ## Requests under way -/

/-- A request of the process that has not arrived. -/
structure Sent (N : Type) where
  id : Nat
  route : WorkerRoute
  /-- the process was draining when it sent it -/
  draining : Bool
  /-- the session token it carries; the bootstrap secret without one -/
  token : Option JsString
  capacity : List (JsString × Value N)

def modeName : WorkerIdentityDeclaration → JsString
  | .sharedSecret => ascii "shared-secret"
  | .workerToken => ascii "worker-token"
  | .mtls _ => ascii "mtls"

/-- `heartbeatBody`; the body of a deregister has the id only. -/
def Sent.body (config : RegistrationConfig) (sent : Sent N) : Value N :=
  match sent.route with
  | .deregister => .obj [(ascii "id", .str config.workerId)]
  | _ => .obj (
      [(ascii "id", .str config.workerId), (ascii "url", .str config.publicUrl),
        (ascii "capacity", .obj sent.capacity),
        (ascii "identity", .obj [(ascii "mode", .str (modeName config.authMode))])] ++
      if sent.draining then [(ascii "draining", .bool true)] else [])

/-- `authHeaders` and the body. -/
def Sent.request (config : RegistrationConfig) (sent : Sent N) : WorkerRequest N where
  secret := if sent.token.isSome then none else some config.workerSharedSecret
  token := sent.token
  workerId := if sent.token.isSome then some config.workerId else none
  body := sent.body config

/-- The token a request is sent with: a register never has one. -/
def requestToken (config : RegistrationConfig) (process : RegistrationProcess) (route : WorkerRoute) :
    Option JsString :=
  if config.authMode = .workerToken ∧ route ≠ .register then process.sessionToken else none

/-- The process, the control plane and what is under way between them. -/
structure Link (N : Type) where
  now : Nat
  registry : Registry N
  process : RegistrationProcess
  requests : List (Sent N)
  replies : List (Nat × WorkerReply)
  /-- the number of the next request -/
  next : Nat
  /-- the control plane has answered a draining heartbeat or a deregister -/
  recorded : Bool

def Link.send (link : Link N) (config : RegistrationConfig) (route : WorkerRoute)
    (capacity : List (JsString × Value N)) : Link N :=
  { link with
    requests := link.requests ++ [⟨link.next, route, link.process.draining,
      requestToken config link.process route, capacity⟩]
    next := link.next + 1 }

/-- The route of a tick. -/
def RegistrationProcess.tickRoute (process : RegistrationProcess) : WorkerRoute :=
  if process.registered then .heartbeat else .register

/-- A tick begins. -/
def Link.tick (link : Link N) (config : RegistrationConfig)
    (capacity : List (JsString × Value N)) : Link N :=
  let sent := link.send config link.process.tickRoute capacity
  { sent with process :=
      { sent.process with phase := .waiting link.next link.process.tickRoute } }

/-- The answer tells that the drain is recorded. -/
def Sent.records (sent : Sent N) (reply : WorkerReply) : Bool :=
  reply.status = 200 && (sent.route = .deregister || (sent.route = .heartbeat && sent.draining))

inductive LinkEvent (N : Type) where
  | start (capacity : List (JsString × Value N))
  | fire (capacity : List (JsString × Value N))
  | arrive (request : Nat) (jti : JsString)
  | lose (request : Nat)
  | reply (request : Nat)
  | giveUp
  | fenced
  | beginDrain (capacity : List (JsString × Value N))
  | stop
  | deregister
  | deregistered
  | pass (ms : Nat)
  | sweep
  | remove
  | others (registry : Registry N)

section

variable (T : TokenFormat) (registryConfig : RegistryConfig N) (config : RegistrationConfig)

/-- The row of the process. -/
def Link.row? (link : Link N) : Option (WorkerRow N) :=
  OrderedMap.get? (uuidKey config.workerId) link.registry

inductive LinkStep : Link N → LinkEvent N → Link N → Prop
  | start (link : Link N) (capacity : List (JsString × Value N))
      (h : link.process.started = false) :
      LinkStep link (.start capacity)
        ({ link with process := { link.process with started := true, stopped := false } }.tick
          config capacity)
  | fire (link : Link N) (capacity : List (JsString × Value N))
      (h : link.process.phase = .scheduled) :
      LinkStep link (.fire capacity) (link.tick config capacity)
  | arrive (link : Link N) (sent : Sent N) (front back : List (Sent N)) (jti : JsString)
      (h : link.requests = front ++ sent :: back) :
      LinkStep link (.arrive sent.id jti)
        (let handled := handle T registryConfig sent.route (sent.request config) link.now jti
          link.registry
        { link with
          registry := handled.1
          requests := front ++ back
          replies := link.replies ++ [(sent.id, handled.2)]
          recorded := link.recorded || sent.records handled.2 })
  | lose (link : Link N) (sent : Sent N) (front back : List (Sent N))
      (h : link.requests = front ++ sent :: back) :
      LinkStep link (.lose sent.id) { link with requests := front ++ back }
  | reply (link : Link N) (request : Nat) (route : WorkerRoute) (reply : WorkerReply)
      (hphase : link.process.phase = .waiting request route)
      (h : (request, reply) ∈ link.replies) :
      LinkStep link (.reply request)
        { link with process := link.process.answered config route reply }
  | giveUp (link : Link N) (request : Nat) (route : WorkerRoute)
      (h : link.process.phase = .waiting request route) :
      LinkStep link .giveUp { link with process := link.process.fail }
  | fenced (link : Link N) (h : link.process.phase = .fencing) :
      LinkStep link .fenced { link with process := link.process.succeed }
  | beginDrain (link : Link N) (capacity : List (JsString × Value N)) :
      LinkStep link (.beginDrain capacity)
        (let drained : Link N := { link with process := { link.process with draining := true } }
        if link.process.registered then drained.send config .heartbeat capacity else drained)
  | stop (link : Link N) :
      LinkStep link .stop
        { link with process :=
          { link.process with
            stopped := true
            started := false
            phase := if link.process.phase = .scheduled then .idle else link.process.phase } }
  | deregister (link : Link N) (h : link.process.stopped = true) :
      LinkStep link .deregister (link.send config .deregister [])
  | deregistered (link : Link N) (h : link.process.stopped = true) :
      LinkStep link .deregistered { link with process := link.process.demote }
  | pass (link : Link N) (ms : Nat) :
      LinkStep link (.pass ms) { link with now := link.now + ms }
  -- the sweeper: the heartbeat has lapsed
  | sweep (link : Link N) (row : WorkerRow N) (h : link.row? config = some row) :
      LinkStep link .sweep
        { link with
          registry := OrderedMap.set (uuidKey config.workerId) (deadRow link.now row)
            link.registry }
  | remove (link : Link N) :
      LinkStep link .remove
        { link with registry := link.registry.filter fun e => e.1 ≠ uuidKey config.workerId }
  | others (link : Link N) (registry : Registry N)
      (h : OrderedMap.get? (uuidKey config.workerId) registry = link.row? config) :
      LinkStep link (.others registry) { link with registry := registry }

end

/-! ## What a request of the process can do to its row -/

section

variable {T : TokenFormat} {registryConfig : RegistryConfig N} {config : RegistrationConfig}

/-- A row that counts as live. -/
def IsLiveRow (row : Option (WorkerRow N)) : Prop := ∃ r, row = some r ∧ r.status = .live

/-- What the control plane reads in a body of the process. -/
theorem parseWorkerBody_body {sent : Sent N} {requireUrl : Bool} {body : WorkerBody N}
    (h : parseWorkerBody registryConfig (sent.body config) requireUrl = some body) :
    body.id = config.workerId ∧ (sent.route = .heartbeat → body.draining = sent.draining) := by
  rcases sent with ⟨id, route, draining, token, capacity⟩
  have hown {id' : JsString} (hid : some (Value.str (N := N) config.workerId) = some (.str id')) :
      id' = config.workerId := (Value.str.inj (Option.some.inj hid)).symm
  cases route with
  | deregister =>
    exact ⟨hown (parseWorkerBody_obj h).1, fun hroute => by cases hroute⟩
  | register =>
    exact ⟨hown (parseWorkerBody_obj h).1, fun hroute => by cases hroute⟩
  | heartbeat =>
    obtain ⟨hid, hdraining⟩ := parseWorkerBody_obj h
    refine ⟨hown hid, fun _ => hdraining.trans ?_⟩
    cases draining with
    | true => rfl
    | false => rfl

theorem handle_isLiveRow {route : WorkerRoute} {request : WorkerRequest N} {now : Nat}
    {jti : JsString} {registry : Registry N} {key : JsString} (hroute : route ≠ .register)
    (hlive : IsLiveRow (OrderedMap.get? key
      (handle T registryConfig route request now jti registry).1)) :
    IsLiveRow (OrderedMap.get? key registry) := by
  unfold handle at hlive
  split at hlive
  · exact hlive
  · cases route with
    | register => exact absurd rfl hroute
    | heartbeat =>
      change IsLiveRow (OrderedMap.get? key
        (heartbeat T registryConfig request now jti registry).1) at hlive
      rcases heartbeat_cases T registryConfig request now jti registry with
        ⟨_, _, _, -, heq⟩ | ⟨body, row, token, -, hrow, -, heq⟩
      · rw [heq] at hlive
        exact hlive
      · rw [heq] at hlive
        obtain ⟨row', hget, hstatus⟩ := hlive
        rw [OrderedMap.get?_set] at hget
        split at hget
        · next hkey =>
          subst hkey
          cases hget
          exact ⟨row, hrow, (beatenRow_live hstatus).1⟩
        · exact ⟨row', hget, hstatus⟩
    | deregister =>
      change IsLiveRow (OrderedMap.get? key
        (deregister registryConfig request now registry).1) at hlive
      rcases deregister_cases registryConfig request now registry with
        ⟨_, _, _, -, heq⟩ | ⟨body, -, ⟨-, heq⟩ | ⟨row, heq⟩⟩
      · rw [heq] at hlive
        exact hlive
      · rw [heq] at hlive
        exact hlive
      · rw [heq] at hlive
        obtain ⟨row', hget, hstatus⟩ := hlive
        rw [OrderedMap.get?_set] at hget
        split at hget
        · cases hget
          cases hstatus
        · exact ⟨row', hget, hstatus⟩

/-- An answered call that records the drain leaves no live row of the process. -/
theorem Sent.not_isLiveRow_of_records {sent : Sent N} {now : Nat} {jti : JsString}
    {registry : Registry N}
    (h : sent.records (handle T registryConfig sent.route (sent.request config) now jti
      registry).2 = true) :
    ¬ IsLiveRow (OrderedMap.get? (uuidKey config.workerId)
      (handle T registryConfig sent.route (sent.request config) now jti registry).1) := by
  unfold Sent.records at h
  rw [Bool.and_eq_true, Bool.or_eq_true, Bool.and_eq_true] at h
  obtain ⟨hok, hroute⟩ := h
  have hstatus := of_decide_eq_true hok
  unfold handle at hstatus ⊢
  split at hstatus
  · cases hstatus
  · next hauthorized =>
    rw [if_neg hauthorized]
    rintro ⟨row', hget, hlive⟩
    rcases hroute with hroute | ⟨hroute, hdraining⟩
    · rw [of_decide_eq_true hroute] at hstatus hget
      change (deregister registryConfig _ now registry).2.status = 200 at hstatus
      change OrderedMap.get? _ (deregister registryConfig _ now registry).1 = some row' at hget
      rcases deregister_cases registryConfig (sent.request config) now registry with
        ⟨_, _, _, hne, heq⟩ | ⟨body, hbody, ⟨hnone, heq⟩ | ⟨row, heq⟩⟩
      · rw [heq] at hstatus
        exact hne hstatus
      · rw [heq, ← (parseWorkerBody_body hbody).1, hnone] at hget
        cases hget
      · rw [heq, (parseWorkerBody_body hbody).1, OrderedMap.get?_set, if_pos rfl] at hget
        cases hget
        cases hlive
    · have hheartbeat := of_decide_eq_true hroute
      rw [hheartbeat] at hstatus hget
      change (heartbeat T registryConfig _ now jti registry).2.status = 200 at hstatus
      change OrderedMap.get? _ (heartbeat T registryConfig _ now jti registry).1 = some row' at hget
      rcases heartbeat_cases T registryConfig (sent.request config) now jti registry with
        ⟨_, _, _, hne, heq⟩ | ⟨body, row, token, hbody, -, -, heq⟩
      · rw [heq] at hstatus
        exact hne hstatus
      · obtain ⟨hid, hdrains⟩ := parseWorkerBody_body hbody
        rw [heq, hid, OrderedMap.get?_set, if_pos rfl] at hget
        cases hget
        have hidle := (beatenRow_live hlive).2
        rw [hdrains hheartbeat, hdraining] at hidle
        cases hidle

/-! ## Runs -/

/-- Where the drain is recorded, no row of the process is live and no register of it is on its
way. -/
def Drained (config : RegistrationConfig) (link : Link N) : Prop :=
  link.recorded = true →
    ¬ IsLiveRow (link.row? config) ∧ ∀ sent ∈ link.requests, sent.route ≠ .register

/-- A tick that begins after the drain is recorded finds the process registered. -/
def TicksRegistered (m : Move (Link N) (LinkEvent N)) : Prop :=
  ∀ capacity, m.event = .start capacity ∨ m.event = .fire capacity →
    m.before.recorded = true → m.before.process.registered = true

/-- No register is on its way where a draining heartbeat or a deregister arrives. -/
def RecordsAlone (m : Move (Link N) (LinkEvent N)) : Prop :=
  ∀ request jti, m.event = .arrive request jti → ∀ sent ∈ m.before.requests, sent.id = request →
    (sent.route = .deregister ∨ (sent.route = .heartbeat ∧ sent.draining = true)) →
      ∀ other ∈ m.before.requests, other.route ≠ .register

theorem Drained.send {link : Link N} (h : Drained config link) {route : WorkerRoute}
    {capacity : List (JsString × Value N)} (hroute : link.recorded = true → route ≠ .register) :
    Drained config (link.send config route capacity) := by
  intro hrecorded
  obtain ⟨hrow, hrequests⟩ := h hrecorded
  refine ⟨hrow, fun sent hm => ?_⟩
  rcases List.mem_append.mp hm with hm | hm
  · exact hrequests sent hm
  · obtain rfl := List.mem_singleton.mp hm
    exact hroute hrecorded

theorem Drained.tick {link : Link N} (h : Drained config link)
    {capacity : List (JsString × Value N)}
    (hregistered : link.recorded = true → link.process.registered = true) :
    Drained config (link.tick config capacity) := by
  refine h.send fun hrecorded => ?_
  rw [RegistrationProcess.tickRoute, hregistered hrecorded]
  exact WorkerRoute.noConfusion

theorem Drained.arrive {link : Link N} (h : Drained config link) {sent : Sent N}
    {front back : List (Sent N)} (hsent : link.requests = front ++ sent :: back) (jti : JsString)
    (halone : (sent.route = .deregister ∨ (sent.route = .heartbeat ∧ sent.draining = true)) →
      ∀ other ∈ link.requests, other.route ≠ .register) :
    Drained config
      { link with
        registry := (handle T registryConfig sent.route (sent.request config) link.now jti
          link.registry).1
        requests := front ++ back
        replies := link.replies ++ [(sent.id, (handle T registryConfig sent.route
          (sent.request config) link.now jti link.registry).2)]
        recorded := link.recorded || sent.records (handle T registryConfig sent.route
          (sent.request config) link.now jti link.registry).2 } := by
  have hmem : ∀ other ∈ front ++ back, other ∈ link.requests := by
    intro other hm
    rw [hsent]
    rcases List.mem_append.mp hm with hm | hm
    · exact List.mem_append_left _ hm
    · exact List.mem_append_right _ (List.mem_cons_of_mem _ hm)
  have hself : sent ∈ link.requests := by
    rw [hsent]
    exact List.mem_append_right _ List.mem_cons_self
  intro hrecorded
  rcases (Bool.or_eq_true _ _).mp hrecorded with hold | hnew
  · obtain ⟨hrow, hrequests⟩ := h hold
    refine ⟨fun hlive => hrow ?_, fun other hm => hrequests other (hmem other hm)⟩
    exact handle_isLiveRow (hrequests sent hself) hlive
  · refine ⟨Sent.not_isLiveRow_of_records hnew, fun other hm => halone ?_ other (hmem other hm)⟩
    unfold Sent.records at hnew
    rw [Bool.and_eq_true, Bool.or_eq_true, Bool.and_eq_true] at hnew
    rcases hnew.2 with hroute | ⟨hroute, hdraining⟩
    · exact Or.inl (of_decide_eq_true hroute)
    · exact Or.inr ⟨of_decide_eq_true hroute, hdraining⟩

theorem Drained.step (m : Move (Link N) (LinkEvent N))
    (hstep : LinkStep T registryConfig config m.before m.event m.after)
    (hgood : TicksRegistered m ∧ RecordsAlone m) (h : Drained config m.before) :
    Drained config m.after := by
  rcases m with ⟨link, event, link'⟩
  obtain ⟨hticks, halone⟩ := hgood
  change LinkStep T registryConfig config link event link' at hstep
  change Drained config link at h
  show Drained config link'
  cases hstep with
  | start capacity _ =>
    have hstarted : Drained config
        { link with process := { link.process with started := true, stopped := false } } := h
    exact hstarted.tick fun hrecorded => hticks capacity (Or.inl rfl) hrecorded
  | fire capacity _ => exact h.tick fun hrecorded => hticks capacity (Or.inr rfl) hrecorded
  | arrive sent front back jti hsent =>
    refine h.arrive hsent jti (halone sent.id jti rfl sent ?_ rfl)
    show sent ∈ link.requests
    rw [hsent]
    exact List.mem_append_right _ List.mem_cons_self
  | lose sent front back hsent =>
    intro hrecorded
    obtain ⟨hrow, hrequests⟩ := h hrecorded
    refine ⟨hrow, fun other hm => hrequests other ?_⟩
    rw [hsent]
    rcases List.mem_append.mp hm with hm | hm
    · exact List.mem_append_left _ hm
    · exact List.mem_append_right _ (List.mem_cons_of_mem _ hm)
  | beginDrain capacity =>
    have hdraining : Drained config { link with process := { link.process with draining := true } } :=
      h
    dsimp only
    split
    · exact hdraining.send fun _ => WorkerRoute.noConfusion
    · exact hdraining
  | deregister _ => exact h.send fun _ => WorkerRoute.noConfusion
  -- the sweeper and a deletion take the row away
  | sweep row _ =>
    intro hrecorded
    refine ⟨?_, (h hrecorded).2⟩
    rintro ⟨row', hget, hstatus⟩
    change OrderedMap.get? _ (OrderedMap.set _ _ _) = _ at hget
    rw [OrderedMap.get?_set, if_pos rfl] at hget
    cases hget
    cases hstatus
  | remove =>
    intro hrecorded
    refine ⟨?_, (h hrecorded).2⟩
    rintro ⟨row', hget, -⟩
    have hnone : OrderedMap.get? (uuidKey config.workerId)
        (link.registry.filter fun e => e.1 ≠ uuidKey config.workerId) = none := by
      rw [OrderedMap.get?_eq_none]
      intro hm
      obtain ⟨e, he, hkey⟩ := List.mem_map.mp hm
      exact of_decide_eq_true (List.mem_filter.mp he).2 hkey
    change OrderedMap.get? _ (List.filter _ _) = _ at hget
    rw [hnone] at hget
    cases hget
  | others registry hown =>
    intro hrecorded
    refine ⟨?_, (h hrecorded).2⟩
    change ¬ IsLiveRow (OrderedMap.get? (uuidKey config.workerId) registry)
    rw [hown]
    exact (h hrecorded).1
  | reply | giveUp | fenced | stop | deregistered | pass => exact h

end

/-! ## A drain is one-way -/

/-- Once the control plane has recorded the drain, the row of the process is never live again,
in every run in which the draining process is never found unregistered by a tick, and no
register of it is on its way when the drain is recorded. -/
theorem drain_one_way (T : TokenFormat) (registryConfig : RegistryConfig N)
    (config : RegistrationConfig) (link link' : Link N)
    (moves : List (Move (Link N) (LinkEvent N))) (hlink : link.recorded = false)
    (hrun : Trace (LinkStep T registryConfig config) link moves link')
    (hticks : ∀ m ∈ moves, TicksRegistered m) (halone : ∀ m ∈ moves, RecordsAlone m)
    (hrecorded : link'.recorded = true) : ¬ IsLiveRow (link'.row? config) := by
  have hstart : Drained config link := fun h => by rw [hlink] at h; cases h
  have hend := hrun.invariant (Drained config) (fun m => TicksRegistered m ∧ RecordsAlone m)
    Drained.step (fun m hm => ⟨hticks m hm, halone m hm⟩) hstart
  exact (hend hrecorded).1

/-- A worker that nobody has heard of. -/
def freshLink : Link Nat where
  now := 0
  registry := []
  process := createRegistration
  requests := []
  replies := []
  next := 0
  recorded := false

def firstConfig : RegistrationConfig where
  workerId := firstWorker
  publicUrl := ascii "http://worker:8080"
  workerSharedSecret := ascii "bootstrap"
  authMode := .sharedSecret

/-- A register, a drain and a deregister. -/
theorem drain_one_way_clean : ∃ moves link',
    Trace (LinkStep openFormat openConfig firstConfig) freshLink moves link' ∧
      moves.length = 8 ∧ link'.recorded = true ∧ ¬ IsLiveRow (link'.row? firstConfig) := by
  have hrun : ∃ moves link',
      Trace (LinkStep openFormat openConfig firstConfig) freshLink moves link' ∧
        moves.length = 8 ∧ (∀ m ∈ moves, TicksRegistered m) ∧ (∀ m ∈ moves, RecordsAlone m) ∧
          link'.recorded = true := by
    refine ⟨_, _, .cons (.start freshLink [] rfl)
      (.cons (.arrive _ _ [] [] [] rfl)
      (.cons (.reply _ 0 .register _ rfl List.mem_cons_self)
      (.cons (.beginDrain _ [])
      (.cons (.arrive _ _ [] [] [] rfl)
      (.cons (.stop _)
      (.cons (.deregister _ rfl)
      (.cons (.arrive _ _ [] [] [] rfl) (.nil _)))))))), rfl, ?_, ?_, rfl⟩
    · simp only [List.forall_mem_cons]
      refine ⟨?_, ?_, ?_, ?_, ?_, ?_, ?_, ?_, List.forall_mem_nil _⟩
      · rintro _ - ⟨⟩
      all_goals rintro _ (h | h) <;> cases h
    · simp only [List.forall_mem_cons]
      refine ⟨?_, ?_, ?_, ?_, ?_, ?_, ?_, ?_, List.forall_mem_nil _⟩
      · rintro _ _ ⟨⟩
      -- the register itself arrives
      · rintro _ _ - sent hm - (h | ⟨h, -⟩)
        · obtain rfl := List.mem_singleton.mp hm
          cases h
        · obtain rfl := List.mem_singleton.mp hm
          cases h
      · rintro _ _ ⟨⟩
      · rintro _ _ ⟨⟩
      · rintro _ _ - _ - - - other hm
        obtain rfl := List.mem_singleton.mp hm
        exact WorkerRoute.noConfusion
      · rintro _ _ ⟨⟩
      · rintro _ _ ⟨⟩
      · rintro _ _ - _ - - - other hm
        obtain rfl := List.mem_singleton.mp hm
        exact WorkerRoute.noConfusion
  obtain ⟨moves, link', htrace, hlength, hticks, halone, hrecorded⟩ := hrun
  exact ⟨moves, link', htrace, hlength, hrecorded,
    drain_one_way openFormat openConfig firstConfig freshLink link' moves rfl htrace hticks halone
      hrecorded⟩

/-- The row is deleted while the worker drains: the next heartbeat is answered 404, the worker
registers anew, and its row is live. -/
theorem drain_undone : ∃ moves link',
    Trace (LinkStep openFormat openConfig firstConfig) freshLink moves link' ∧
      link'.recorded = true ∧ link'.process.draining = true ∧
        IsLiveRow (link'.row? firstConfig) := by
  refine ⟨_, _, .cons (.start freshLink [] rfl)
    (.cons (.arrive _ _ [] [] [] rfl)
    (.cons (.reply _ 0 .register _ rfl List.mem_cons_self)
    (.cons (.beginDrain _ [])
    (.cons (.arrive _ _ [] [] [] rfl)
    (.cons (.remove _)
    (.cons (.fire _ [] rfl)
    (.cons (.arrive _ _ [] [] [] rfl)
    (.cons (.reply _ 2 .heartbeat 
      (.error 404 "worker_not_registered" "unknown worker id — re-register") rfl
      (List.mem_cons_of_mem _ (List.mem_cons_of_mem _ List.mem_cons_self)))
    (.cons (.fenced _ rfl)
    (.cons (.fire _ [] rfl)
    (.cons (.arrive _ _ [] [] [] rfl) (.nil _)))))))))))), rfl, rfl, ?_⟩
  exact ⟨_, rfl, rfl⟩

end InvisibleString.Runtime
