import InvisibleString.Lib.Checks
import InvisibleString.Lib.Text
import InvisibleString.Lib.Transition
import InvisibleString.Triggers.Rows
import Mathlib.Data.Finset.Card
import Mathlib.Data.List.Basic
import Mathlib.Logic.Function.Basic

/- # `Triggers.Ingress` — webhook deliveries and their idempotency keys

`POST /t/:token` resolves its token, looks the idempotency key up in a cache of the process,
starts a pipeline run and records the run under the key.  The lookup and the record are
synchronous, between them the start is awaited; what other deliveries do meanwhile is theirs
to decide.

**Proved here.**

    a trigger's id and a key are told from the cache key  (`cacheKey_inj`)
    while the keys fit in, the cache forgets none  (`rememberIdempotent_eq`)
    deliveries of one trigger and key start at most one run, and each that is answered with
      success reports it, when no delivery comes to its lookup while another one with its key is
      between lookup and record  (`deliveries_idempotent`)
    two deliveries that look their key up before either has recorded start two runs
                                                                        (`redelivery_starts_twice`)
-/

namespace InvisibleString.Triggers

open Checks Json Transition

variable {N Config : Type} (F : NumberFormat N)

/-! ## Answers -/

def triggerNotFound : ApiError := ⟨404, "trigger_not_found", "no trigger matches this token"⟩

def triggerDisabled : ApiError := ⟨403, "trigger_disabled", "this trigger is disabled"⟩

def workflowNotPublished : ApiError :=
  ⟨409, "workflow_not_published", "workflow has no published version — publish it first"⟩

def formValidationFailed (reason : String) : ApiError := ⟨422, "form_validation_failed", reason⟩

def pipelineLockPoolExhausted : ApiError :=
  ⟨503, "pipeline_lock_pool_exhausted",
    "the control plane is driving its maximum number of concurrent pipeline runs — retry shortly"⟩

/-- Ids of runs are drawn at random. -/
abbrev RunId := Nat

inductive IngressAnswer where
  /-- 202 `{accepted: true, runId}` -/
  | accepted (runId : RunId)
  /-- 202 `{accepted: false, reason: "overlap_skipped"}` -/
  | overlapSkipped
  | error (error : ApiError)
  deriving DecidableEq

/-! ## One delivery -/

structure IngressRequest where
  raw : JsString
  /-- `Idempotency-Key` -/
  idempotencyKey : Option JsString
  /-- `X-Idempotency-Key` -/
  xIdempotencyKey : Option JsString

/-- The key the source sent; an empty one is none. -/
def IngressRequest.idemKey (request : IngressRequest) : Option JsString :=
  (request.idempotencyKey.or request.xIdempotencyKey).filter fun key => key ≠ []

/-- A trigger and the key of a delivery to it. -/
abbrev Slot := Uuid × JsString

/-- `${trigger.id}:${idemKey}`. -/
def cacheKey (slot : Slot) : JsString := slot.1.text ++ unit ':' :: slot.2

/-- The process's cache, oldest entry first. -/
abbrev IdempotencyCache := List (JsString × RunId)

def IDEMPOTENCY_MAX : Nat := 10000

def rememberIdempotent (key : JsString) (runId : RunId) (idempotency : IdempotencyCache) :
    IdempotencyCache :=
  let entries := OrderedMap.set key runId idempotency
  if IDEMPOTENCY_MAX < entries.length then entries.tail else entries

def publishedPipelineConfigOf (workflow : WorkflowRow Config) : Except ApiError Config :=
  match workflow.published with
  | some (some config) => .ok config
  | some none | none => .error workflowNotPublished

/-- Kill switch first, then the published snapshot. -/
def resolveEnabledPipeline (workflow : WorkflowRow Config) : Except ApiError Config :=
  if workflow.enabled then publishedPipelineConfigOf workflow else .error triggerDisabled

/-- A member of an object. -/
def member (key : String) (members : List (JsString × Value N)) : Option (Value N) :=
  OrderedMap.get? (ascii key) members

/-- The message and the data of a webhook's body; `form` is what a form's schema makes of it. -/
def mapIngressBody (form : Option (Value N) → Value N → Except ApiError (JsString × Value N))
    (trigger : TriggerRow N) (body : Value N) : Except ApiError (JsString × Value N) :=
  match trigger.type with
  | .webhook =>
    match body with
    | .obj members =>
      match member "message" members with
      | some (.str message) =>
        if message ≠ [] then .ok (message, body) else .ok (ascii "Incoming webhook event.", body)
      | _ => .ok (ascii "Incoming webhook event.", body)
    | _ => .error (formValidationFailed "webhook body must be a JSON object")
  | _ => form trigger.formSchema body

/-- What `startPipelineRun` is given. -/
structure PipelineStart (N Config : Type) where
  organizationId : JsString
  workflowId : Uuid
  config : Config
  origin : TriggerType
  message : JsString
  data : Value N

/-- How a delivery goes on after its token is resolved. -/
inductive Admitted (N Config : Type) where
  | prior (runId : RunId)
  | start (input : PipelineStart N Config)

/-- `JSON.parse` of a body, `{}` for an empty one. -/
def parseIngressBody (raw : JsString) : Except ApiError (Value N) :=
  if trim raw = [] then .ok (.obj [])
  else match parse F raw with
    | some body => .ok body
    | none => .error (formValidationFailed "request body is not valid JSON")

/-- The handler from the resolved token to its next `await`. -/
def admitDelivery (form : Option (Value N) → Value N → Except ApiError (JsString × Value N))
    (idempotency : IdempotencyCache) (request : IngressRequest)
    (found : Option (TriggerRow N × WorkflowRow Config)) : Except ApiError (Admitted N Config) :=
  match found with
  | none => .error triggerNotFound
  | some (trigger, workflow) =>
    if !trigger.enabled then .error triggerNotFound
    else if trigger.type ≠ .webhook ∧ trigger.type ≠ .form then .error triggerNotFound
    else do
      let body ← parseIngressBody F request.raw
      match request.idemKey.bind fun key =>
        OrderedMap.get? (cacheKey (trigger.id, key)) idempotency with
      | some runId => return .prior runId
      | none =>
        let config ← resolveEnabledPipeline workflow
        let (message, data) ← mapIngressBody form trigger body
        return .start
          { organizationId := workflow.organizationId, workflowId := workflow.id, config
            origin := trigger.type, message, data }

variable {F} {form : Option (Value N) → Value N → Except ApiError (JsString × Value N)}

/-- A known run is answered with, and a start is made only where the cache has none. -/
theorem admitDelivery_cases {idempotency : IdempotencyCache} {request : IngressRequest}
    {trigger : TriggerRow N} {workflow : WorkflowRow Config} {admitted : Admitted N Config}
    (h : admitDelivery F form idempotency request (some (trigger, workflow)) = .ok admitted) :
    (∃ runId, admitted = .prior runId ∧ request.idemKey.bind (fun key =>
      OrderedMap.get? (cacheKey (trigger.id, key)) idempotency) = some runId) ∨
    ∃ input, admitted = .start input ∧ request.idemKey.bind (fun key =>
      OrderedMap.get? (cacheKey (trigger.id, key)) idempotency) = none := by
  rw [admitDelivery] at h
  split at h
  · cases h
  split at h
  · cases h
  obtain ⟨body, _, h⟩ := bind_eq_ok h
  split at h
  · next runId hlookup =>
    cases h
    exact Or.inl ⟨runId, rfl, hlookup⟩
  · next hlookup =>
    obtain ⟨config, _, h⟩ := bind_eq_ok h
    obtain ⟨mapped, _, h⟩ := bind_eq_ok h
    cases h
    exact Or.inr ⟨_, rfl, hlookup⟩

/-! ## Deliveries side by side -/

/-- How far a delivery is. -/
inductive Delivery where
  | idle
  /-- `resolveTriggerByTokenHash` -/
  | resolving (request : IngressRequest)
  /-- `startPipelineRun`, no run so far -/
  | starting (triggerId : Uuid) (idemKey : Option JsString)
  /-- `startPipelineRun`, its run committed -/
  | created (triggerId : Uuid) (idemKey : Option JsString) (runId : RunId)
  | answered (triggerId : Option Uuid) (idemKey : Option JsString) (answer : IngressAnswer)

def slotOf (triggerId : Uuid) (idemKey : Option JsString) : Option Slot :=
  idemKey.map fun key => (triggerId, key)

/-- The delivery is between its lookup and its record. -/
def Delivery.inFlight : Delivery → Option Slot
  | .starting triggerId idemKey | .created triggerId idemKey _ => slotOf triggerId idemKey
  | .idle | .resolving _ | .answered _ _ _ => none

/-- A run and the delivery it was started for. -/
structure IngressRun where
  id : RunId
  triggerId : Uuid
  idemKey : Option JsString

structure IngressState where
  idempotency : IdempotencyCache
  deliveries : Nat → Delivery
  runs : List IngressRun

def IngressState.empty : IngressState where
  idempotency := []
  deliveries _ := .idle
  runs := []

def IngressState.setDelivery (s : IngressState) (p : Nat) (delivery : Delivery) : IngressState :=
  { s with deliveries := Function.update s.deliveries p delivery }

theorem IngressState.setDelivery_self (s : IngressState) (p : Nat) (delivery : Delivery) :
    (s.setDelivery p delivery).deliveries p = delivery := Function.update_self ..

theorem IngressState.setDelivery_of_ne (s : IngressState) {p q : Nat} (h : q ≠ p)
    (delivery : Delivery) : (s.setDelivery p delivery).deliveries q = s.deliveries q :=
  Function.update_of_ne h _ _

/-- The runs started for a trigger and key. -/
def IngressState.runsOf (s : IngressState) (slot : Slot) : List RunId :=
  (s.runs.filter fun run => slotOf run.triggerId run.idemKey = some slot).map IngressRun.id

/-- A delivery with no key records nothing. -/
def recordRun (triggerId : Uuid) (idemKey : Option JsString) (runId : RunId)
    (idempotency : IdempotencyCache) : IdempotencyCache :=
  match slotOf triggerId idemKey with
  | some slot => rememberIdempotent (cacheKey slot) runId idempotency
  | none => idempotency

inductive IngressEvent (N Config : Type) where
  | receive (p : Nat) (request : IngressRequest)
  | turnAway (p : Nat) (request : IngressRequest) (error : ApiError)
  | resolve (p : Nat) (found : Option (TriggerRow N × WorkflowRow Config))
  | create (p : Nat) (runId : RunId)
  | refuse (p : Nat) (answer : IngressAnswer)
  | fail (p : Nat) (error : ApiError)
  | record (p : Nat)

/-- What a start that creates no run is answered with. -/
def IngressAnswer.IsRefusal (answer : IngressAnswer) : Prop :=
  answer = .overlapSkipped ∨ answer = .error pipelineLockPoolExhausted

variable (F form)

/-- One delivery runs to its next `await`.

    turnAway     the body is too large, or a rate limiter says no
    resolve      the rows are whatever the database has for the token
    refuse       `overlap: "skip"`, or no connection for the run's lock
    fail         the start throws before its row is committed -/
inductive DeliveryStep : IngressState → IngressEvent N Config → IngressState → Prop
  | receive {s} (p) (request) : s.deliveries p = .idle →
      DeliveryStep s (.receive p request) (s.setDelivery p (.resolving request))
  | turnAway {s} (p) (request) (error) : s.deliveries p = .idle →
      DeliveryStep s (.turnAway p request error)
        (s.setDelivery p (.answered none request.idemKey (.error error)))
  | reject {s} (p) (found) {request error} : s.deliveries p = .resolving request →
      admitDelivery F form s.idempotency request found = .error error →
      DeliveryStep s (.resolve p found)
        (s.setDelivery p (.answered (found.map fun row => row.1.id) request.idemKey (.error error)))
  | prior {s} (p) (trigger) (workflow) {request runId} : s.deliveries p = .resolving request →
      admitDelivery F form s.idempotency request (some (trigger, workflow)) = .ok (.prior runId) →
      DeliveryStep s (.resolve p (some (trigger, workflow)))
        (s.setDelivery p (.answered (some trigger.id) request.idemKey (.accepted runId)))
  | start {s} (p) (trigger) (workflow) {request input} : s.deliveries p = .resolving request →
      admitDelivery F form s.idempotency request (some (trigger, workflow)) = .ok (.start input) →
      DeliveryStep s (.resolve p (some (trigger, workflow)))
        (s.setDelivery p (.starting trigger.id request.idemKey))
  | create {s} (p) (runId) {triggerId idemKey} : s.deliveries p = .starting triggerId idemKey →
      DeliveryStep s (.create p runId)
        { s.setDelivery p (.created triggerId idemKey runId) with
          runs := s.runs ++ [⟨runId, triggerId, idemKey⟩] }
  | refuse {s} (p) (answer) {triggerId idemKey} : s.deliveries p = .starting triggerId idemKey →
      answer.IsRefusal →
      DeliveryStep s (.refuse p answer)
        (s.setDelivery p (.answered (some triggerId) idemKey answer))
  | fail {s} (p) (error) {triggerId idemKey} : s.deliveries p = .starting triggerId idemKey →
      DeliveryStep s (.fail p error)
        (s.setDelivery p (.answered (some triggerId) idemKey (.error error)))
  | record {s} (p) {triggerId idemKey runId} : s.deliveries p = .created triggerId idemKey runId →
      DeliveryStep s (.record p)
        { s.setDelivery p (.answered (some triggerId) idemKey (.accepted runId)) with
          idempotency := recordRun triggerId idemKey runId s.idempotency }

/-- At most one run for the slot, and every success reports it. -/
def IngressState.IdempotentAt (s : IngressState) (slot : Slot) : Prop :=
  (s.runsOf slot).length ≤ 1 ∧
    ∀ p triggerId idemKey runId,
      s.deliveries p = .answered (some triggerId) idemKey (.accepted runId) →
      slotOf triggerId idemKey = some slot → s.runsOf slot = [runId]

/-- The keys recorded are among `window`. -/
def InWindow (window : Finset Slot) (m : Move IngressState (IngressEvent N Config)) : Prop :=
  ∀ p, m.event = .record p → ∀ slot, (m.before.deliveries p).inFlight = some slot → slot ∈ window

/-- A delivery that comes to its lookup finds no other one with its trigger and key between
lookup and record. -/
def LooksUpAlone (m : Move IngressState (IngressEvent N Config)) : Prop :=
  ∀ p request trigger workflow, m.event = .resolve p (some (trigger, workflow)) →
    m.before.deliveries p = .resolving request →
    ∀ slot, slotOf trigger.id request.idemKey = some slot →
      ∀ q, (m.before.deliveries q).inFlight ≠ some slot

/-! ## The cache -/

theorem cacheKey_inj {slot slot' : Slot} (h : cacheKey slot = cacheKey slot') : slot = slot' := by
  have htext : ∀ t : Uuid, ∀ k : JsString,
      (t.text ++ unit ':' :: k).takeWhile (· ≠ unit ':') = t.text := by
    intro t k
    rw [List.takeWhile_append_of_pos]
    · rw [List.takeWhile_cons_of_neg (by simp), List.append_nil]
    · intro c hc
      exact decide_eq_true fun hcolon => t.plain (hcolon ▸ hc)
  have hid : slot.1.text = slot'.1.text := by
    rw [← htext slot.1 slot.2, ← htext slot'.1 slot'.2]
    exact congrArg _ h
  have hkey : slot.2 = slot'.2 := by
    rw [cacheKey, cacheKey, hid] at h
    exact (List.cons.inj (List.append_cancel_left h)).2
  rcases slot with ⟨⟨t, ht⟩, k⟩
  rcases slot' with ⟨⟨t', ht'⟩, k'⟩
  cases hid
  cases hkey
  rfl

/-- The keys of the cache are different, and those of slots of the window. -/
structure CacheWithin (window : Finset Slot) (idempotency : IdempotencyCache) : Prop where
  unique : OrderedMap.UniqueKeys idempotency
  within : ∀ key ∈ idempotency.map Prod.fst, ∃ slot ∈ window, key = cacheKey slot

theorem CacheWithin.length_le {window : Finset Slot} {idempotency : IdempotencyCache}
    (h : CacheWithin window idempotency) : idempotency.length ≤ window.card := by
  have hsub : (idempotency.map Prod.fst).toFinset ⊆ window.image cacheKey := by
    intro key hkey
    obtain ⟨slot, hslot, rfl⟩ := h.within key (List.mem_toFinset.mp hkey)
    exact Finset.mem_image_of_mem _ hslot
  calc idempotency.length = (idempotency.map Prod.fst).length := (List.length_map _).symm
    _ = (idempotency.map Prod.fst).toFinset.card := (List.toFinset_card_of_nodup h.unique).symm
    _ ≤ (window.image cacheKey).card := Finset.card_le_card hsub
    _ ≤ window.card := Finset.card_image_le

/-- One more key of the window is remembered, and none is forgotten. -/
theorem rememberIdempotent_eq {window : Finset Slot} {idempotency : IdempotencyCache} {slot : Slot}
    (h : CacheWithin window idempotency) (hslot : slot ∈ window)
    (hcard : window.card ≤ IDEMPOTENCY_MAX) (runId : RunId) :
    rememberIdempotent (cacheKey slot) runId idempotency =
        OrderedMap.set (cacheKey slot) runId idempotency ∧
      CacheWithin window (OrderedMap.set (cacheKey slot) runId idempotency) := by
  have hwithin : CacheWithin window (OrderedMap.set (cacheKey slot) runId idempotency) := by
    refine ⟨h.unique.set, fun key hkey => ?_⟩
    rw [OrderedMap.keys_set] at hkey
    split at hkey
    · exact h.within key hkey
    · rcases List.mem_append.mp hkey with hkey | hkey
      · exact h.within key hkey
      · exact ⟨slot, hslot, List.mem_singleton.mp hkey⟩
  exact ⟨if_neg (Nat.not_lt.mpr (Nat.le_trans hwithin.length_le hcard)), hwithin⟩

/-! ## The invariant -/

variable {F form} {s s' : IngressState} {window : Finset Slot}

theorem runsOf_append (runId : RunId) (triggerId : Uuid) (idemKey : Option JsString)
    (deliveries : Nat → Delivery) (slot : Slot) :
    IngressState.runsOf
        { s with deliveries, runs := s.runs ++ [⟨runId, triggerId, idemKey⟩] } slot =
      s.runsOf slot ++ if slotOf triggerId idemKey = some slot then [runId] else [] := by
  rw [IngressState.runsOf, IngressState.runsOf, List.filter_append, List.map_append]
  congr 1
  by_cases h : slotOf triggerId idemKey = some slot
  · simp [h]
  · simp [h]

/-- What the tables say of one delivery: in flight, its slot is not in the cache, and has its run
once there is one; after a success the cache names its run. -/
def Delivery.Ok (s : IngressState) : Delivery → Prop
  | .idle | .resolving _ => True
  | .starting triggerId idemKey => ∀ slot, slotOf triggerId idemKey = some slot →
      OrderedMap.get? (cacheKey slot) s.idempotency = none
  | .created triggerId idemKey runId => ∀ slot, slotOf triggerId idemKey = some slot →
      OrderedMap.get? (cacheKey slot) s.idempotency = none ∧ s.runsOf slot = [runId]
  | .answered (some triggerId) idemKey (.accepted runId) =>
      ∀ slot, slotOf triggerId idemKey = some slot →
        OrderedMap.get? (cacheKey slot) s.idempotency = some runId
  | .answered _ _ _ => True

/-- What the tables say of a delivery they go on saying while its slot, if it is in flight, keeps
its run and its entry, and entries stay. -/
theorem Delivery.Ok.congr {delivery : Delivery} (h : delivery.Ok s)
    (hentry : ∀ slot, delivery.inFlight = some slot →
      OrderedMap.get? (cacheKey slot) s'.idempotency =
        OrderedMap.get? (cacheKey slot) s.idempotency)
    (hruns : ∀ slot, delivery.inFlight = some slot → s'.runsOf slot = s.runsOf slot)
    (hkept : ∀ slot runId, OrderedMap.get? (cacheKey slot) s.idempotency = some runId →
      OrderedMap.get? (cacheKey slot) s'.idempotency = some runId) : delivery.Ok s' := by
  cases delivery with
  | idle | resolving => trivial
  | starting triggerId idemKey => exact fun slot hslot => (hentry slot hslot).trans (h slot hslot)
  | created triggerId idemKey runId =>
    exact fun slot hslot => ⟨(hentry slot hslot).trans (h slot hslot).1,
      (hruns slot hslot).trans (h slot hslot).2⟩
  | answered triggerId idemKey answer =>
    cases triggerId with
    | none => trivial
    | some triggerId =>
      cases answer with
      | overlapSkipped | error => trivial
      | accepted runId => exact fun slot hslot => hkept slot runId (h slot hslot)

/-- The slot whose run is there and not recorded. -/
def Delivery.unrecorded : Delivery → Option Slot
  | .created triggerId idemKey _ => slotOf triggerId idemKey
  | .idle | .resolving _ | .starting _ _ | .answered _ _ _ => none

/-- A slot has the run its cache entry names, or that of the one delivery that has not recorded
it yet, or none. -/
structure IdempotencyInv (window : Finset Slot) (s : IngressState) : Prop where
  cache : CacheWithin window s.idempotency
  alone : ∀ p q slot, (s.deliveries p).inFlight = some slot →
    (s.deliveries q).inFlight = some slot → p = q
  each : ∀ p, (s.deliveries p).Ok s
  cached : ∀ slot runId, OrderedMap.get? (cacheKey slot) s.idempotency = some runId →
    s.runsOf slot = [runId]
  fresh : ∀ slot, OrderedMap.get? (cacheKey slot) s.idempotency = none →
    (∀ p, (s.deliveries p).unrecorded ≠ some slot) → s.runsOf slot = []

theorem IdempotencyInv.empty : IdempotencyInv window .empty where
  cache := ⟨List.nodup_nil, fun _ h => absurd h List.not_mem_nil⟩
  alone _ _ _ h := by cases h
  each _ := trivial
  cached _ _ h := by cases h
  fresh _ _ _ := rfl

theorem IdempotencyInv.idempotentAt (h : IdempotencyInv window s) (slot : Slot) :
    s.IdempotentAt slot := by
  constructor
  · cases hcached : OrderedMap.get? (cacheKey slot) s.idempotency with
    | some runId => rw [h.cached slot runId hcached, List.length_singleton]
    | none =>
      by_cases hcreated : ∃ p, (s.deliveries p).unrecorded = some slot
      · obtain ⟨p, hp⟩ := hcreated
        have hok := h.each p
        cases hdelivery : s.deliveries p with
        | created triggerId idemKey runId =>
          rw [hdelivery] at hok hp
          rw [(hok slot hp).2, List.length_singleton]
        | idle | resolving | starting | answered =>
          rw [hdelivery] at hp
          cases hp
      · rw [h.fresh slot hcached fun p hp => hcreated ⟨p, hp⟩]
        exact Nat.zero_le 1
  · intro p triggerId idemKey runId hp hslot
    have hok := h.each p
    rw [hp] at hok
    exact h.cached slot runId (hok slot hslot)

/-- The deliveries in flight afterwards were so before, each with its slot. -/
theorem IdempotencyInv.alone_of (h : IdempotencyInv window s) {p : Nat} {delivery : Delivery}
    (hflight : ∀ slot, delivery.inFlight = some slot → (s.deliveries p).inFlight = some slot) :
    ∀ q q' slot, (Function.update s.deliveries p delivery q).inFlight = some slot →
      (Function.update s.deliveries p delivery q').inFlight = some slot → q = q' := by
  have hwas : ∀ q slot, (Function.update s.deliveries p delivery q).inFlight = some slot →
      (s.deliveries q).inFlight = some slot := by
    intro q slot hq
    by_cases hqp : q = p
    · subst hqp
      rw [Function.update_self] at hq
      exact hflight slot hq
    · rwa [Function.update_of_ne hqp] at hq
  exact fun q q' slot hq hq' => h.alone q q' slot (hwas q slot hq) (hwas q' slot hq')

theorem IdempotencyInv.settled (h : IdempotencyInv window s) {p : Nat} {delivery : Delivery}
    (hout : delivery.inFlight = none) (hrun : (s.deliveries p).unrecorded = none)
    (hok : delivery.Ok s) : IdempotencyInv window (s.setDelivery p delivery) where
  cache := h.cache
  alone := h.alone_of fun slot hslot => by
    rw [hout] at hslot
    cases hslot
  each := (Function.forall_update_iff s.deliveries fun _ delivery => delivery.Ok s).mpr
    ⟨hok, fun q _ => h.each q⟩
  cached := h.cached
  fresh slot hcached hnone := by
    refine h.fresh slot hcached fun q hq => ?_
    by_cases hqp : q = p
    · rw [hqp, hrun] at hq
      cases hq
    · exact hnone q (by rw [← hq]; exact congrArg _ (s.setDelivery_of_ne hqp _))

theorem IdempotencyInv.start (h : IdempotencyInv window s) {p : Nat} {request : IngressRequest}
    {triggerId : Uuid} (hp : s.deliveries p = .resolving request)
    (hmiss : ∀ slot, slotOf triggerId request.idemKey = some slot →
      OrderedMap.get? (cacheKey slot) s.idempotency = none)
    (halone : ∀ slot, slotOf triggerId request.idemKey = some slot →
      ∀ q, (s.deliveries q).inFlight ≠ some slot) :
    IdempotencyInv window (s.setDelivery p (.starting triggerId request.idemKey)) where
  cache := h.cache
  alone q q' slot hq hq' := by
    by_cases hqp : q = p <;> by_cases hqp' : q' = p
    · rw [hqp, hqp']
    · rw [hqp, s.setDelivery_self] at hq
      rw [s.setDelivery_of_ne hqp'] at hq'
      exact absurd hq' (halone slot hq q')
    · rw [s.setDelivery_of_ne hqp] at hq
      rw [hqp', s.setDelivery_self] at hq'
      exact absurd hq (halone slot hq' q)
    · rw [s.setDelivery_of_ne hqp] at hq
      rw [s.setDelivery_of_ne hqp'] at hq'
      exact h.alone q q' slot hq hq'
  each := (Function.forall_update_iff s.deliveries fun _ delivery => delivery.Ok s).mpr
    ⟨hmiss, fun q _ => h.each q⟩
  cached := h.cached
  fresh slot hcached hnone := by
    refine h.fresh slot hcached fun q hq => ?_
    by_cases hqp : q = p
    · rw [hqp, hp] at hq
      cases hq
    · exact hnone q (by rw [← hq]; exact congrArg _ (s.setDelivery_of_ne hqp _))

theorem IdempotencyInv.create (h : IdempotencyInv window s) {p : Nat} {triggerId : Uuid}
    {idemKey : Option JsString} (hp : s.deliveries p = .starting triggerId idemKey)
    (runId : RunId) :
    IdempotencyInv window
      { s.setDelivery p (.created triggerId idemKey runId) with
        runs := s.runs ++ [⟨runId, triggerId, idemKey⟩] } := by
  have hpending := h.each p
  rw [hp] at hpending
  have hflight : (s.deliveries p).inFlight = slotOf triggerId idemKey := by rw [hp]; rfl
  have hruns : ∀ slot, slotOf triggerId idemKey ≠ some slot →
      IngressState.runsOf { s.setDelivery p (.created triggerId idemKey runId) with
        runs := s.runs ++ [⟨runId, triggerId, idemKey⟩] } slot = s.runsOf slot := by
    intro slot hslot
    show IngressState.runsOf { s with
      deliveries := _, runs := s.runs ++ [⟨runId, triggerId, idemKey⟩] } slot = _
    rw [runsOf_append, if_neg hslot, List.append_nil]
  have hown : ∀ slot, slotOf triggerId idemKey = some slot →
      IngressState.runsOf { s.setDelivery p (.created triggerId idemKey runId) with
        runs := s.runs ++ [⟨runId, triggerId, idemKey⟩] } slot = [runId] := by
    intro slot hslot
    show IngressState.runsOf { s with
      deliveries := _, runs := s.runs ++ [⟨runId, triggerId, idemKey⟩] } slot = _
    rw [runsOf_append, if_pos hslot, h.fresh slot (hpending slot hslot), List.nil_append]
    intro q hq
    have hqp : q = p := by
      refine h.alone q p slot ?_ (hflight.trans hslot)
      cases hdelivery : s.deliveries q with
      | created t k id =>
        rw [hdelivery] at hq
        exact hq
      | idle | resolving | starting | answered =>
        rw [hdelivery] at hq
        cases hq
    rw [hqp, hp] at hq
    cases hq
  constructor
  case cache => exact h.cache
  case alone =>
    exact h.alone_of fun slot hslot => hflight.trans hslot
  case each =>
    refine (Function.forall_update_iff s.deliveries fun _ delivery => delivery.Ok _).mpr
      ⟨fun slot hslot => ⟨hpending slot hslot, hown slot hslot⟩, fun q hqp => ?_⟩
    refine (h.each q).congr (fun _ _ => rfl) (fun slot hslot => hruns slot fun hsame => ?_)
      (fun _ _ h => h)
    exact hqp (h.alone q p slot hslot (hflight.trans hsame))
  case cached =>
    intro slot id hcached
    change OrderedMap.get? (cacheKey slot) s.idempotency = some id at hcached
    rw [hruns]
    · exact h.cached slot id hcached
    · intro hslot
      rw [hpending slot hslot] at hcached
      cases hcached
  case fresh =>
    intro slot hcached hnone
    have hslot : slotOf triggerId idemKey ≠ some slot := by
      intro hslot
      refine hnone p ?_
      rw [← hslot]
      exact congrArg Delivery.unrecorded (s.setDelivery_self p _)
    rw [hruns slot hslot]
    refine h.fresh slot hcached fun q hq => ?_
    by_cases hqp : q = p
    · rw [hqp, hp] at hq
      cases hq
    · exact hnone q (by rw [← hq]; exact congrArg _ (s.setDelivery_of_ne hqp _))

theorem IdempotencyInv.record (h : IdempotencyInv window s) (hcard : window.card ≤ IDEMPOTENCY_MAX)
    {p : Nat} {triggerId : Uuid} {idemKey : Option JsString} {runId : RunId}
    (hp : s.deliveries p = .created triggerId idemKey runId)
    (hwindow : ∀ slot, slotOf triggerId idemKey = some slot → slot ∈ window) :
    IdempotencyInv window
      { s.setDelivery p (.answered (some triggerId) idemKey (.accepted runId)) with
        idempotency := recordRun triggerId idemKey runId s.idempotency } := by
  have hcreated := h.each p
  rw [hp] at hcreated
  cases hslot : slotOf triggerId idemKey with
  | none =>
    rw [recordRun, hslot]
    refine h.settled rfl (by rw [hp]; exact hslot) fun slot hsome => ?_
    rw [hslot] at hsome
    cases hsome
  | some slot =>
    obtain ⟨hpending, hruns⟩ := hcreated slot hslot
    obtain ⟨hremember, hwithin⟩ :=
      rememberIdempotent_eq h.cache (hwindow slot hslot) hcard runId
    have hget : ∀ slot', OrderedMap.get? (cacheKey slot')
        (OrderedMap.set (cacheKey slot) runId s.idempotency) =
        if slot' = slot then some runId else OrderedMap.get? (cacheKey slot') s.idempotency := by
      intro slot'
      rw [OrderedMap.get?_set]
      by_cases hsame : slot' = slot
      · rw [if_pos hsame, if_pos (congrArg cacheKey hsame)]
      · rw [if_neg hsame, if_neg fun hkey => hsame (cacheKey_inj hkey)]
    have hflight : (s.deliveries p).inFlight = some slot := by rw [hp]; exact hslot
    rw [show recordRun triggerId idemKey runId s.idempotency =
      OrderedMap.set (cacheKey slot) runId s.idempotency by rw [recordRun, hslot]; exact hremember]
    constructor
    case cache => exact hwithin
    case alone => exact h.alone_of fun slot' hslot' => by cases hslot'
    case each =>
      refine (Function.forall_update_iff s.deliveries fun _ delivery => delivery.Ok _).mpr
        ⟨fun slot' hslot' => ?_, fun q hqp => ?_⟩
      · rw [hslot] at hslot'
        show OrderedMap.get? (cacheKey slot') _ = some runId
        rw [hget, if_pos (Option.some.inj hslot').symm]
      refine (h.each q).congr (fun slot' hslot' => ?_) (fun _ _ => rfl) (fun slot' id hid => ?_)
      · show OrderedMap.get? (cacheKey slot') _ = _
        rw [hget, if_neg]
        rintro rfl
        exact hqp (h.alone q p slot' hslot' hflight)
      · show OrderedMap.get? (cacheKey slot') _ = _
        rw [hget, if_neg]
        · exact hid
        · rintro rfl
          rw [hpending] at hid
          cases hid
    case cached =>
      intro slot' id hcached
      rw [hget] at hcached
      split at hcached
      · next hsame =>
        rw [hsame, ← Option.some.inj hcached]
        exact hruns
      · exact h.cached slot' id hcached
    case fresh =>
      intro slot' hcached hnone
      rw [hget] at hcached
      split at hcached
      · cases hcached
      · next hne =>
        refine h.fresh slot' hcached fun q hq => ?_
        by_cases hqp : q = p
        · rw [hqp, hp] at hq
          exact hne (Option.some.inj (hq.symm.trans hslot))
        · exact hnone q (by rw [← hq]; exact congrArg _ (s.setDelivery_of_ne hqp _))

theorem IdempotencyInv.step {e : IngressEvent N Config} (h : IdempotencyInv window s)
    (hstep : DeliveryStep F form s e s') (hcard : window.card ≤ IDEMPOTENCY_MAX)
    (hwindow : InWindow window ⟨s, e, s'⟩) (halone : LooksUpAlone ⟨s, e, s'⟩) :
    IdempotencyInv window s' := by
  cases hstep with
  | receive p request hp => exact h.settled rfl (by rw [hp]; rfl) trivial
  | turnAway p request error hp => exact h.settled rfl (by rw [hp]; rfl) trivial
  | reject p found hp _ =>
    refine h.settled rfl (by rw [hp]; rfl) ?_
    cases found with
    | none => trivial
    | some => trivial
  | @prior p trigger workflow request runId hp hadmit =>
    refine h.settled rfl (by rw [hp]; rfl) fun slot hslot => ?_
    rcases admitDelivery_cases hadmit with ⟨_, heq, hlookup⟩ | ⟨_, heq, _⟩
    · cases heq
      obtain ⟨key, hkey, hget⟩ := Option.bind_eq_some_iff.mp hlookup
      rw [slotOf, hkey] at hslot
      rw [← Option.some.inj hslot]
      exact hget
    · cases heq
  | @start p trigger workflow request input hp hadmit =>
    refine h.start hp (fun slot hslot => ?_) (halone p request trigger workflow rfl hp)
    rcases admitDelivery_cases hadmit with ⟨_, heq, _⟩ | ⟨_, _, hlookup⟩
    · cases heq
    · obtain ⟨key, hkey, rfl⟩ := Option.map_eq_some_iff.mp hslot
      rw [hkey] at hlookup
      exact hlookup
  | create p runId hp => exact h.create hp runId
  | refuse p answer hp hrefusal =>
    refine h.settled rfl (by rw [hp]; rfl) ?_
    rcases hrefusal with rfl | rfl
    · trivial
    · trivial
  | fail p error hp => exact h.settled rfl (by rw [hp]; rfl) trivial
  | @record p triggerId idemKey runId hp =>
    exact h.record hcard hp fun slot hslot => hwindow p rfl slot (by rw [hp]; exact hslot)

/-- Deliveries of one trigger and key start at most one run, and their successes report it. -/
theorem deliveries_idempotent {moves : List (Move IngressState (IngressEvent N Config))}
    (h : Trace (DeliveryStep F form) .empty moves s) (window : Finset Slot)
    (hcard : window.card ≤ IDEMPOTENCY_MAX) (hwindow : ∀ m ∈ moves, InWindow window m)
    (halone : ∀ m ∈ moves, LooksUpAlone m) (slot : Slot) : s.IdempotentAt slot := by
  have hinv : IdempotencyInv window s :=
    h.invariant (IdempotencyInv window) (fun m => InWindow window m ∧ LooksUpAlone m)
      (fun m hstep hm hinv => hinv.step hstep hcard hm.1 hm.2)
      (fun m hm => ⟨hwindow m hm, halone m hm⟩) .empty
  exact hinv.idempotentAt slot

/-! ## A delivery and its retry -/

def sampleTrigger : TriggerRow Int where
  id := .t
  workflowId := .w
  type := .webhook
  tokenHash := some (ascii "hash")
  formSchema := none
  integrationId := none
  binding := none
  cron := none
  nextFireAt := none
  enabled := true

def sampleWorkflow : WorkflowRow Unit where
  id := .w
  organizationId := ascii "org"
  enabled := true
  draft := none
  published := some (some ())

def sampleRequest : IngressRequest where
  raw := []
  idempotencyKey := some (ascii "k")
  xIdempotencyKey := none

def sampleSlot : Slot := (sampleTrigger.id, ascii "k")

def noForms (_ : Option (Value Int)) (_ : Value Int) : Except ApiError (JsString × Value Int) :=
  .error (formValidationFailed "no forms")

theorem card_sampleSlot : ({sampleSlot} : Finset Slot).card ≤ IDEMPOTENCY_MAX := by
  rw [Finset.card_singleton]
  decide

/-- A retry that arrives after the first answer is given the same run. -/
theorem deliveries_idempotent_retry : ∃ s : IngressState,
    s.deliveries 1 = .answered (some sampleTrigger.id) (some (ascii "k")) (.accepted 7) ∧
      s.IdempotentAt sampleSlot := by
  have h : Trace (DeliveryStep decimal noForms) .empty _ _ :=
    .cons (.receive 0 sampleRequest rfl) <|
    .cons (.start 0 sampleTrigger sampleWorkflow rfl rfl) <|
    .cons (.create 0 7 rfl) <| .cons (.record 0 rfl) <|
    .cons (.receive 1 sampleRequest rfl) <|
    .cons (.prior 1 sampleTrigger sampleWorkflow rfl rfl) <| .nil _
  refine ⟨_, rfl, deliveries_idempotent h {sampleSlot} card_sampleSlot ?_ ?_ sampleSlot⟩
  · simp only [List.forall_mem_cons, List.not_mem_nil, false_implies, implies_true, and_true]
    refine ⟨?_, ?_, ?_, ?_, ?_, ?_⟩
    all_goals
      intro p he slot hslot
      cases he
    exact Finset.mem_singleton.mpr (Option.some.inj hslot).symm
  · simp only [List.forall_mem_cons, List.not_mem_nil, false_implies, implies_true, and_true]
    refine ⟨?_, ?_, ?_, ?_, ?_, ?_⟩
    all_goals
      intro p request trigger workflow he hp slot hslot
      cases he
    all_goals
      rintro (_ | _ | q) hq
      all_goals cases hq

/-- Two deliveries with one key look it up before either has recorded its run: two runs, and two
successes that report different ones. -/
theorem redelivery_starts_twice :
    ∃ (s : IngressState) (moves : List (Move IngressState (IngressEvent Int Unit))),
    Trace (DeliveryStep decimal noForms) .empty moves s ∧
      (∀ m ∈ moves, InWindow {sampleSlot} m) ∧
      s.deliveries 0 = .answered (some sampleTrigger.id) (some (ascii "k")) (.accepted 7) ∧
      s.deliveries 1 = .answered (some sampleTrigger.id) (some (ascii "k")) (.accepted 8) ∧
      s.runsOf sampleSlot = [7, 8] ∧ ¬ s.IdempotentAt sampleSlot := by
  have h : Trace (DeliveryStep decimal noForms) .empty _ _ :=
    .cons (.receive 0 sampleRequest rfl) <| .cons (.receive 1 sampleRequest rfl) <|
    .cons (.start 0 sampleTrigger sampleWorkflow rfl rfl) <|
    .cons (.start 1 sampleTrigger sampleWorkflow rfl rfl) <|
    .cons (.create 0 7 rfl) <| .cons (.create 1 8 rfl) <|
    .cons (.record 0 rfl) <| .cons (.record 1 rfl) <| .nil _
  refine ⟨_, _, h, ?_, rfl, rfl, by decide, fun hone => ?_⟩
  · simp only [List.forall_mem_cons, List.not_mem_nil, false_implies, implies_true, and_true]
    refine ⟨?_, ?_, ?_, ?_, ?_, ?_, ?_, ?_⟩
    all_goals
      intro p he slot hslot
      cases he
    all_goals exact Finset.mem_singleton.mpr (Option.some.inj hslot).symm
  · exact absurd hone.1 (by decide)

end InvisibleString.Triggers
