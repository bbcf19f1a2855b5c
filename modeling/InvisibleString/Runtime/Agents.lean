import InvisibleString.Lib.OrderedMap
import InvisibleString.Lib.Transition
import Mathlib.Algebra.Ring.Nat
import Mathlib.Data.List.Sort
import Mathlib.Order.Lattice

/- # `Runtime.Agents` — the agent processes of a worker

A worker boots an agent from its extracted artifact, one boot of a version at a time, and keeps
it in `running` until it is stopped or exits.  A stop takes the agent out of `running` first and
then waits for the process, at most for its two timeouts.  The artifact cache evicts the
artifacts that no agent of `running` and no boot of `pending` uses.

**Proved here.**

    in every run, at most one process of a version is alive at a time and the artifact of a
      process stays in the cache while it is alive, exactly when a process that is in neither
      map has exited wherever its version spawns anew or its artifact would be evicted
                                                                          (`one_agent_iff`)
    an agent that is ensured while it is being stopped runs twice  (`stopped_runs_twice`)
-/

namespace InvisibleString.Runtime

open Transition (Move Trace)

variable {H : Type} [DecidableEq H]

/-! ## The state of the manager -/

inductive AgentState where
  | ready
  | stopping
  deriving DecidableEq

structure AgentHandle where
  port : Nat
  pid : Nat
  state : AgentState
  lastActivityAt : Nat
  inflight : Nat

/-- Where a boot is. -/
inductive BootPhase where
  | downloading
  | cached
  | probing (port : Nat)
  | polling (port pid deadline : Nat)
  /-- killed, and not known to have exited -/
  | killing (port pid deadline : Nat)
  /-- it has returned or thrown, and is still in `pending` -/
  | settled
  deriving DecidableEq

structure Boot where
  id : Nat
  phase : BootPhase

/-- A `stopAgent` that waits for the exit. -/
structure Stop (H : Type) where
  hash : H
  port : Nat
  pid : Nat
  /-- the SIGKILL is sent -/
  escalated : Bool
  deadline : Nat

/-- A process that was spawned. -/
structure Child (H : Type) where
  pid : Nat
  hash : H
  alive : Bool
  /-- its `exited` has resolved -/
  exited : Bool
  /-- the cleanup of an unexpected exit is still to run -/
  watched : Bool

structure CacheEntry where
  bytes : Nat
  lastUsedAt : Nat

structure AgentConfig (H : Type) where
  agentIdleStopMs : Nat
  agentReadyTimeoutMs : Nat
  agentStopTimeoutMs : Nat
  artifactCacheMaxBytes : Nat
  portMin : Nat
  portMax : Nat
  /-- `HASH_RE` -/
  validHash : H → Bool

structure AgentManager (H : Type) where
  now : Nat
  running : List (H × AgentHandle)
  pending : List (H × Boot)
  stops : List (Stop H)
  /-- the boots that each `stopAll` waits for -/
  stopAlls : List (List Nat)
  children : List (Child H)
  /-- the ports that are allocated -/
  allocated : List Nat
  /-- the extracted artifacts -/
  cache : List (H × CacheEntry)
  next : Nat

/-- A worker that has just started, with the artifacts it found. -/
def createAgentManager (now : Nat) (cache : List (H × CacheEntry)) : AgentManager H where
  now := now
  running := []
  pending := []
  stops := []
  stopAlls := []
  children := []
  allocated := []
  cache := cache
  next := 0

/-! ## The artifact cache -/

/-- The artifacts that go, in this order, until the rest fits. -/
def evicted (maxBytes : Nat) (isActive : H → Bool) : List (H × CacheEntry) → Nat → List H
  | [], _ => []
  | (hash, entry) :: rest, total =>
    if total ≤ maxBytes then []
    else if isActive hash then evicted maxBytes isActive rest total
    else hash :: evicted maxBytes isActive rest (total - entry.bytes)

def totalBytes (cache : List (H × CacheEntry)) : Nat := (cache.map fun e => e.2.bytes).sum

/-- The least recently used first. -/
def byRecency (cache : List (H × CacheEntry)) : List (H × CacheEntry) :=
  cache.insertionSort fun a b => a.2.lastUsedAt ≤ b.2.lastUsedAt

namespace AgentManager

/-- Running, or booting. -/
def isActive (m : AgentManager H) (hash : H) : Bool :=
  (OrderedMap.get? hash m.running).isSome || (OrderedMap.get? hash m.pending).isSome

def touch (m : AgentManager H) (hash : H) : AgentManager H :=
  match OrderedMap.get? hash m.cache with
  | some entry =>
    { m with cache := OrderedMap.set hash { entry with lastUsedAt := m.now } m.cache }
  | none => m

/-- What `evictIfNeeded` removes. -/
def victims (m : AgentManager H) (maxBytes : Nat) : List H :=
  evicted maxBytes m.isActive (byRecency m.cache) (totalBytes m.cache)

def evictIfNeeded (m : AgentManager H) (maxBytes : Nat) : AgentManager H :=
  { m with cache := m.cache.filter fun e => e.1 ∉ m.victims maxBytes }

/-- The extracted artifact is put in the cache. -/
def extracted (m : AgentManager H) (hash : H) (bytes : Nat) : AgentManager H :=
  { m with cache := OrderedMap.set hash ⟨bytes, m.now⟩ m.cache }

/-! ## Processes and ports -/

def setHandle (m : AgentManager H) (hash : H) (handle : AgentHandle) : AgentManager H :=
  { m with running := OrderedMap.set hash handle m.running }

def setBoot (m : AgentManager H) (hash : H) (id : Nat) (phase : BootPhase) : AgentManager H :=
  { m with pending := OrderedMap.set hash ⟨id, phase⟩ m.pending }

def release (m : AgentManager H) (port : Nat) : AgentManager H :=
  { m with allocated := m.allocated.filter fun p => p ≠ port }

/-- A port for a boot; without one it throws. -/
def allocatePort (m : AgentManager H) (config : AgentConfig H) (hash : H) (id : Nat) :
    AgentManager H :=
  match (List.range' config.portMin (config.portMax + 1 - config.portMin)).find?
      fun port => port ∉ m.allocated with
  | some port => { m with allocated := m.allocated ++ [port] }.setBoot hash id (.probing port)
  | none => m.setBoot hash id .settled

/-- The process starts; `started` is false where the spawn itself fails. -/
def spawn (m : AgentManager H) (config : AgentConfig H) (hash : H) (id port : Nat)
    (started : Bool) : AgentManager H :=
  let child : Child H := ⟨m.next, hash, started, !started, false⟩
  let spawned : AgentManager H :=
    { m with children := m.children ++ [child], next := m.next + 1 }
  spawned.setBoot hash id (.polling port m.next (m.now + config.agentReadyTimeoutMs))

def updateChild (m : AgentManager H) (pid : Nat) (f : Child H → Child H) : AgentManager H :=
  { m with children := m.children.map fun c => if c.pid = pid then f c else c }

/-- The health route has answered. -/
def ready (m : AgentManager H) (hash : H) (id port pid : Nat) : AgentManager H :=
  ((m.setHandle hash ⟨port, pid, .ready, m.now, 0⟩).updateChild pid fun c =>
    { c with watched := true }).setBoot hash id .settled

/-- The process of an agent has exited. -/
def cleanup (m : AgentManager H) (c : Child H) : AgentManager H :=
  let seen := m.updateChild c.pid fun c => { c with watched := false }
  match OrderedMap.get? c.hash m.running with
  | some handle =>
    if handle.pid = c.pid then
      { seen with running := OrderedMap.erase c.hash m.running }.release handle.port
    else seen
  | none => seen

/-! ## Calls -/

/-- A boot begins. -/
def bootAgent (m : AgentManager H) (config : AgentConfig H) (hash : H) : AgentManager H :=
  let started : AgentManager H := { m with next := m.next + 1 }
  if !config.validHash hash then started.setBoot hash m.next .settled
  else if (OrderedMap.get? hash m.cache).isSome then
    (started.touch hash).setBoot hash m.next .cached
  else started.setBoot hash m.next .downloading

def ensureAgent (m : AgentManager H) (config : AgentConfig H) (hash : H) : AgentManager H :=
  match OrderedMap.get? hash m.running with
  | some handle =>
    if handle.state = .ready then
      (m.setHandle hash { handle with lastActivityAt := m.now }).touch hash
    else if (OrderedMap.get? hash m.pending).isSome then m
    else m.bootAgent config hash
  | none =>
    if (OrderedMap.get? hash m.pending).isSome then m
    else m.bootAgent config hash

/-- The part of a stop before it waits: a SIGTERM is sent. -/
def stopAgent (m : AgentManager H) (config : AgentConfig H) (hash : H) : AgentManager H :=
  match OrderedMap.get? hash m.running with
  | none => m
  | some handle =>
    let stop : Stop H := ⟨hash, handle.port, handle.pid, false, m.now + config.agentStopTimeoutMs⟩
    let stopping : AgentManager H :=
      { m with running := OrderedMap.erase hash m.running, stops := m.stops ++ [stop] }
    stopping.touch hash

def stopEach (m : AgentManager H) (config : AgentConfig H) (hashes : List H) : AgentManager H :=
  hashes.foldl (fun m hash => m.stopAgent config hash) m

def sweepIdle (m : AgentManager H) (config : AgentConfig H) : AgentManager H :=
  m.stopEach config ((m.running.filter fun e =>
    e.2.state = .ready && e.2.inflight = 0 &&
      decide (config.agentIdleStopMs ≤ m.now - e.2.lastActivityAt)).map Prod.fst)

def beginRequest (m : AgentManager H) (hash : H) : AgentManager H :=
  match OrderedMap.get? hash m.running with
  | some handle =>
    if handle.state = .ready then
      m.setHandle hash { handle with inflight := handle.inflight + 1, lastActivityAt := m.now }
    else m
  | none => m

def endRequest (m : AgentManager H) (hash : H) : AgentManager H :=
  match OrderedMap.get? hash m.running with
  | some handle =>
    m.setHandle hash { handle with inflight := handle.inflight - 1, lastActivityAt := m.now }
  | none => m

/-- A stop waits no longer: the process has exited, or its time is over. -/
def stopWaited (m : AgentManager H) (stop : Stop H) (exited : Bool) : AgentManager H :=
  let others := m.stops.filter fun s => s.pid ≠ stop.pid
  if exited || stop.escalated then { m with stops := others }.release stop.port
  else
    let escalated : Stop H := { stop with escalated := true, deadline := m.now + 5000 }
    { m with stops := others ++ [escalated] }

end AgentManager

/-! ## The steps of a worker -/

inductive AgentEvent (H : Type) where
  | ensureAgent (hash : H)
  | stopAgent (hash : H)
  | stopAll
  /-- the boots that a `stopAll` waited for are over -/
  | stopRunning
  | sweepIdle
  | beginRequest (hash : H)
  | endRequest (hash : H)
  | downloaded (hash : H) (bytes : Nat)
  | downloadFailed (hash : H)
  | cached (hash : H)
  | portBusy (hash : H)
  | portFree (hash : H) (started : Bool)
  | healthy (hash : H)
  | unready (hash : H)
  | killed (hash : H)
  | settled (hash : H)
  | stopWaited (hash : H) (exited : Bool)
  | exit (pid : Nat)
  | exited (pid : Nat)
  | cleanup (pid : Nat)
  | pass (ms : Nat)

/-- The `exited` of a process has resolved. -/
def AgentManager.hasExited (m : AgentManager H) (pid : Nat) : Prop :=
  ∃ c ∈ m.children, c.pid = pid ∧ c.exited = true

inductive AgentStep (config : AgentConfig H) :
    AgentManager H → AgentEvent H → AgentManager H → Prop
  | ensureAgent (m : AgentManager H) (hash : H) :
      AgentStep config m (.ensureAgent hash) (m.ensureAgent config hash)
  | stopAgent (m : AgentManager H) (hash : H) :
      AgentStep config m (.stopAgent hash) (m.stopAgent config hash)
  | stopAll (m : AgentManager H) :
      AgentStep config m .stopAll
        { m with stopAlls := m.stopAlls ++ [m.pending.map fun e => e.2.id] }
  | stopRunning (m : AgentManager H) (boots : List Nat) (front back : List (List Nat))
      (h : m.stopAlls = front ++ boots :: back)
      (hsettled : ∀ e ∈ m.pending, e.2.id ∉ boots) :
      AgentStep config m .stopRunning
        ({ m with stopAlls := front ++ back }.stopEach config (m.running.map Prod.fst))
  | sweepIdle (m : AgentManager H) : AgentStep config m .sweepIdle (m.sweepIdle config)
  | beginRequest (m : AgentManager H) (hash : H) :
      AgentStep config m (.beginRequest hash) (m.beginRequest hash)
  | endRequest (m : AgentManager H) (hash : H) :
      AgentStep config m (.endRequest hash) (m.endRequest hash)
  | downloaded (m : AgentManager H) (hash : H) (id bytes : Nat)
      (h : OrderedMap.get? hash m.pending = some ⟨id, .downloading⟩) :
      AgentStep config m (.downloaded hash bytes)
        (((m.extracted hash bytes).evictIfNeeded config.artifactCacheMaxBytes).setBoot hash id
          .cached)
  | downloadFailed (m : AgentManager H) (hash : H) (id : Nat)
      (h : OrderedMap.get? hash m.pending = some ⟨id, .downloading⟩) :
      AgentStep config m (.downloadFailed hash) (m.setBoot hash id .settled)
  | cached (m : AgentManager H) (hash : H) (id : Nat)
      (h : OrderedMap.get? hash m.pending = some ⟨id, .cached⟩) :
      AgentStep config m (.cached hash) (m.allocatePort config hash id)
  -- the port stays allocated
  | portBusy (m : AgentManager H) (hash : H) (id port : Nat)
      (h : OrderedMap.get? hash m.pending = some ⟨id, .probing port⟩) :
      AgentStep config m (.portBusy hash) (m.allocatePort config hash id)
  | portFree (m : AgentManager H) (hash : H) (id port : Nat) (started : Bool)
      (h : OrderedMap.get? hash m.pending = some ⟨id, .probing port⟩) :
      AgentStep config m (.portFree hash started) (m.spawn config hash id port started)
  -- what answers on the port may be anybody
  | healthy (m : AgentManager H) (hash : H) (id port pid deadline : Nat)
      (h : OrderedMap.get? hash m.pending = some ⟨id, .polling port pid deadline⟩) :
      AgentStep config m (.healthy hash) (m.ready hash id port pid)
  | unready (m : AgentManager H) (hash : H) (id port pid deadline : Nat)
      (h : OrderedMap.get? hash m.pending = some ⟨id, .polling port pid deadline⟩)
      (hover : m.hasExited pid ∨ deadline ≤ m.now) :
      AgentStep config m (.unready hash)
        (m.setBoot hash id (.killing port pid (m.now + 5000)))
  | killed (m : AgentManager H) (hash : H) (id port pid deadline : Nat)
      (h : OrderedMap.get? hash m.pending = some ⟨id, .killing port pid deadline⟩)
      (hover : m.hasExited pid ∨ deadline ≤ m.now) :
      AgentStep config m (.killed hash) ((m.release port).setBoot hash id .settled)
  | settled (m : AgentManager H) (hash : H) (id : Nat)
      (h : OrderedMap.get? hash m.pending = some ⟨id, .settled⟩) :
      AgentStep config m (.settled hash)
        { m with pending := OrderedMap.erase hash m.pending }
  | stopWaited (m : AgentManager H) (stop : Stop H) (exited : Bool) (h : stop ∈ m.stops)
      (hover : if exited then m.hasExited stop.pid else stop.deadline ≤ m.now) :
      AgentStep config m (.stopWaited stop.hash exited) (m.stopWaited stop exited)
  | exit (m : AgentManager H) (pid : Nat) :
      AgentStep config m (.exit pid) (m.updateChild pid fun c => { c with alive := false })
  | exited (m : AgentManager H) (c : Child H) (h : c ∈ m.children) (hexit : c.alive = false) :
      AgentStep config m (.exited c.pid) (m.updateChild c.pid fun c => { c with exited := true })
  | cleanup (m : AgentManager H) (c : Child H) (h : c ∈ m.children) (hexited : c.exited = true)
      (hwatched : c.watched = true) : AgentStep config m (.cleanup c.pid) (m.cleanup c)
  | pass (m : AgentManager H) (ms : Nat) :
      AgentStep config m (.pass ms) { m with now := m.now + ms }

/-! ## What is to hold -/

/-- The process of a boot. -/
def BootPhase.pid? : BootPhase → Option Nat
  | .polling _ pid _ | .killing _ pid _ => some pid
  | _ => none

namespace AgentManager

/-- A process of an agent that runs, or of a boot. -/
def Holds (m : AgentManager H) (c : Child H) : Prop :=
  (∃ handle, OrderedMap.get? c.hash m.running = some handle ∧ handle.pid = c.pid) ∨
    ∃ boot, OrderedMap.get? c.hash m.pending = some boot ∧ boot.phase.pid? = some c.pid

/-- At most one process of a version is alive, and its artifact is there. -/
def OneAgent (m : AgentManager H) : Prop :=
  (∀ c ∈ m.children, ∀ c' ∈ m.children, c.alive = true → c'.alive = true → c.hash = c'.hash →
    c.pid = c'.pid) ∧
  ∀ c ∈ m.children, c.alive = true → c.hash ∈ m.cache.map Prod.fst

end AgentManager

/-- Where a process starts, or artifacts are evicted, a live process of the version that neither
map holds is in the way. -/
def LetGoExited (config : AgentConfig H) (move : Move (AgentManager H) (AgentEvent H)) : Prop :=
  match move.event with
  | .portFree hash true => ∀ c ∈ move.before.children, c.hash = hash → c.alive = true →
      move.before.Holds c
  | .downloaded hash bytes => ∀ c ∈ move.before.children, c.alive = true →
      c.hash ∈ (move.before.extracted hash bytes).victims config.artifactCacheMaxBytes →
        move.before.Holds c
  | _ => True

/-! ## Eviction -/

omit [DecidableEq H] in
theorem not_mem_evicted {maxBytes : Nat} {isActive : H → Bool} {hash : H}
    (h : isActive hash = true) (entries : List (H × CacheEntry)) (total : Nat) :
    hash ∉ evicted maxBytes isActive entries total := by
  induction entries generalizing total with
  | nil => exact List.not_mem_nil
  | cons e rest ih =>
    rw [evicted]
    split
    · exact List.not_mem_nil
    · split
      · exact ih total
      · next hidle =>
        intro hm
        rcases List.mem_cons.mp hm with heq | hm
        · exact hidle (heq ▸ h)
        · exact ih _ hm

namespace AgentManager

variable {m m' : AgentManager H} {config : AgentConfig H} {hash : H}

theorem not_mem_victims (h : m.isActive hash = true) (maxBytes : Nat) :
    hash ∉ m.victims maxBytes :=
  not_mem_evicted h _ _

theorem Holds.isActive {c : Child H} (h : m.Holds c) : m.isActive c.hash = true := by
  rw [AgentManager.isActive, Bool.or_eq_true]
  rcases h with ⟨handle, hget, -⟩ | ⟨boot, hget, -⟩
  · exact Or.inl (by rw [hget]; rfl)
  · exact Or.inr (by rw [hget]; rfl)

theorem mem_keys_evictIfNeeded {maxBytes : Nat} :
    hash ∈ (m.evictIfNeeded maxBytes).cache.map Prod.fst ↔
      hash ∈ m.cache.map Prod.fst ∧ hash ∉ m.victims maxBytes := by
  constructor
  · intro h
    obtain ⟨e, he, rfl⟩ := List.mem_map.mp h
    obtain ⟨hm, hkept⟩ := List.mem_filter.mp he
    exact ⟨List.mem_map_of_mem hm, of_decide_eq_true hkept⟩
  · rintro ⟨h, hkept⟩
    obtain ⟨e, he, rfl⟩ := List.mem_map.mp h
    exact List.mem_map_of_mem (List.mem_filter.mpr ⟨he, decide_eq_true hkept⟩)

/-! ## Steps that start nothing and evict nothing -/

/-- Nothing starts, nothing is evicted and neither map gains a version. -/
structure Quiet (m m' : AgentManager H) : Prop where
  children : ∀ c' ∈ m'.children, ∃ c ∈ m.children, c.pid = c'.pid ∧ c.hash = c'.hash ∧
    (c'.alive = true → c.alive = true)
  cache : ∀ hash ∈ m.cache.map Prod.fst, hash ∈ m'.cache.map Prod.fst
  next : m.next ≤ m'.next
  running : ∀ hash handle, OrderedMap.get? hash m'.running = some handle →
    ∃ old, OrderedMap.get? hash m.running = some old ∧ (old.state = .ready → handle.state = .ready)
  pending : ∀ hash boot, OrderedMap.get? hash m'.pending = some boot →
    OrderedMap.get? hash m.pending = some boot

theorem Quiet.refl (m : AgentManager H) : Quiet m m where
  children c hc := ⟨c, hc, rfl, rfl, id⟩
  cache _ h := h
  next := Nat.le_refl _
  running _ handle h := ⟨handle, h, id⟩
  pending _ _ h := h

theorem Quiet.trans {m₁ m₂ m₃ : AgentManager H} (h : Quiet m₁ m₂) (h' : Quiet m₂ m₃) :
    Quiet m₁ m₃ where
  children c hc := by
    obtain ⟨c', hc', hpid', hhash', halive'⟩ := h'.children c hc
    obtain ⟨c'', hc'', hpid, hhash, halive⟩ := h.children c' hc'
    exact ⟨c'', hc'', hpid.trans hpid', hhash.trans hhash', fun ha => halive (halive' ha)⟩
  cache hash hm := h'.cache hash (h.cache hash hm)
  next := Nat.le_trans h.next h'.next
  running hash handle hget := by
    obtain ⟨old, hold, hready⟩ := h'.running hash handle hget
    obtain ⟨older, holder, hready'⟩ := h.running hash old hold
    exact ⟨older, holder, fun hr => hready (hready' hr)⟩
  pending hash boot hget := h.pending hash boot (h'.pending hash boot hget)

/-- The clock, the ports, the stops and the numbers are free to change. -/
theorem Quiet.of_eq (hchildren : m'.children = m.children) (hcache : m'.cache = m.cache)
    (hnext : m.next ≤ m'.next) (hrunning : m'.running = m.running)
    (hpending : m'.pending = m.pending) : Quiet m m' where
  children c hc := ⟨c, hchildren ▸ hc, rfl, rfl, id⟩
  cache _ h := hcache ▸ h
  next := hnext
  running _ handle h := ⟨handle, hrunning ▸ h, id⟩
  pending _ _ h := hpending ▸ h

theorem keys_subset_set {V : Type} {entries : List (H × V)} {v : V} {k : H}
    (h : k ∈ entries.map Prod.fst) : k ∈ (OrderedMap.set hash v entries).map Prod.fst := by
  rw [OrderedMap.keys_set]
  split
  · exact h
  · exact List.mem_append_left _ h

theorem quiet_touch (m : AgentManager H) (hash : H) : Quiet m (m.touch hash) := by
  unfold touch
  split
  · exact { Quiet.refl m with cache := fun _ h => keys_subset_set h }
  · exact Quiet.refl m

theorem quiet_release (m : AgentManager H) (port : Nat) : Quiet m (m.release port) :=
  .of_eq rfl rfl (Nat.le_refl _) rfl rfl

theorem quiet_extracted (m : AgentManager H) (hash : H) (bytes : Nat) :
    Quiet m (m.extracted hash bytes) :=
  { Quiet.refl m with cache := fun _ h => keys_subset_set h }

theorem quiet_updateChild (m : AgentManager H) (pid : Nat) {f : Child H → Child H}
    (hf : ∀ c, (f c).pid = c.pid ∧ (f c).hash = c.hash ∧ ((f c).alive = true → c.alive = true)) :
    Quiet m (m.updateChild pid f) :=
  { Quiet.refl m with
    children := by
      intro c' hc'
      obtain ⟨c, hc, rfl⟩ := List.mem_map.mp hc'
      refine ⟨c, hc, ?_⟩
      split
      · exact ⟨(hf c).1.symm, (hf c).2.1.symm, (hf c).2.2⟩
      · exact ⟨rfl, rfl, id⟩ }

theorem quiet_erase_running (m : AgentManager H) (hash : H) :
    Quiet m { m with running := OrderedMap.erase hash m.running } :=
  { Quiet.refl m with
    running := by
      intro hash' handle hget
      change OrderedMap.get? hash' (OrderedMap.erase hash m.running) = some handle at hget
      rw [OrderedMap.get?_erase] at hget
      split at hget
      · cases hget
      · exact ⟨handle, hget, id⟩ }

theorem quiet_erase_pending (m : AgentManager H) (hash : H) :
    Quiet m { m with pending := OrderedMap.erase hash m.pending } :=
  { Quiet.refl m with
    pending := by
      intro hash' boot hget
      change OrderedMap.get? hash' (OrderedMap.erase hash m.pending) = some boot at hget
      rw [OrderedMap.get?_erase] at hget
      split at hget
      · cases hget
      · exact hget }

theorem quiet_setHandle {handle old : AgentHandle}
    (hold : OrderedMap.get? hash m.running = some old)
    (hready : old.state = .ready → handle.state = .ready) : Quiet m (m.setHandle hash handle) :=
  { Quiet.refl m with
    running := by
      intro hash' handle' hget
      change OrderedMap.get? hash' (OrderedMap.set hash handle m.running) = some handle' at hget
      rw [OrderedMap.get?_set] at hget
      split at hget
      · next heq =>
        cases hget
        exact ⟨old, heq ▸ hold, hready⟩
      · exact ⟨handle', hget, id⟩ }

theorem quiet_stopAgent (m : AgentManager H) (config : AgentConfig H) (hash : H) :
    Quiet m (m.stopAgent config hash) := by
  unfold stopAgent
  split
  · exact Quiet.refl m
  · refine Quiet.trans ?_ (quiet_touch _ hash)
    exact (quiet_erase_running m hash).trans (.of_eq rfl rfl (Nat.le_refl _) rfl rfl)

theorem quiet_stopEach (config : AgentConfig H) (hashes : List H) :
    ∀ m : AgentManager H, Quiet m (m.stopEach config hashes) := by
  induction hashes with
  | nil => exact Quiet.refl
  | cons hash hashes ih =>
    intro m
    exact (quiet_stopAgent m config hash).trans (ih _)

theorem quiet_beginRequest (m : AgentManager H) (hash : H) : Quiet m (m.beginRequest hash) := by
  unfold beginRequest
  split
  · next handle hget =>
    split
    · exact quiet_setHandle hget id
    · exact Quiet.refl m
  · exact Quiet.refl m

theorem quiet_endRequest (m : AgentManager H) (hash : H) : Quiet m (m.endRequest hash) := by
  unfold endRequest
  split
  · next handle hget => exact quiet_setHandle hget id
  · exact Quiet.refl m

theorem quiet_cleanup (m : AgentManager H) (c : Child H) : Quiet m (m.cleanup c) := by
  have hseen : Quiet m (m.updateChild c.pid fun c => { c with watched := false }) :=
    quiet_updateChild m _ fun _ => ⟨rfl, rfl, id⟩
  unfold cleanup
  dsimp only
  split
  · split
    · exact hseen.trans ((quiet_erase_running _ c.hash).trans (quiet_release _ _))
    · exact hseen
  · exact hseen

theorem quiet_stopWaited (m : AgentManager H) (stop : Stop H) (exited : Bool) :
    Quiet m (m.stopWaited stop exited) := by
  unfold stopWaited
  dsimp only
  split
  · exact .of_eq rfl rfl (Nat.le_refl _) rfl rfl
  · exact .of_eq rfl rfl (Nat.le_refl _) rfl rfl

/-! ## What holds in every state -/

structure Sound (m : AgentManager H) : Prop where
  fresh : ∀ c ∈ m.children, c.pid < m.next
  ready : ∀ hash handle, OrderedMap.get? hash m.running = some handle → handle.state = .ready
  /-- a boot and an agent that runs are never of one version -/
  alone : ∀ hash boot, OrderedMap.get? hash m.pending = some boot → boot.phase ≠ .settled →
    OrderedMap.get? hash m.running = none
  cached : ∀ hash boot, OrderedMap.get? hash m.pending = some boot →
    (boot.phase = .cached ∨ ∃ port, boot.phase = .probing port) → hash ∈ m.cache.map Prod.fst

theorem sound_create (now : Nat) (cache : List (H × CacheEntry)) :
    Sound (createAgentManager now cache) where
  fresh _ hc := absurd hc List.not_mem_nil
  ready _ _ hget := by cases hget
  alone _ _ hget := by cases hget
  cached _ _ hget := by cases hget

theorem Quiet.sound (h : Quiet m m') (hm : Sound m) : Sound m' where
  fresh c hc := by
    obtain ⟨c', hc', hpid, -⟩ := h.children c hc
    exact hpid ▸ Nat.lt_of_lt_of_le (hm.fresh c' hc') h.next
  ready hash handle hget := by
    obtain ⟨old, hold, hready⟩ := h.running hash handle hget
    exact hready (hm.ready hash old hold)
  alone hash boot hget hphase := by
    have hnone := hm.alone hash boot (h.pending hash boot hget) hphase
    cases hnow : OrderedMap.get? hash m'.running with
    | none => rfl
    | some handle =>
      obtain ⟨old, hold, -⟩ := h.running hash handle hnow
      rw [hnone] at hold
      cases hold
  cached hash boot hget hphase :=
    h.cache hash (hm.cached hash boot (h.pending hash boot hget) hphase)

theorem Quiet.oneAgent (h : Quiet m m') (hm : OneAgent m) : OneAgent m' := by
  refine ⟨fun c hc c' hc' halive halive' heq => ?_, fun c hc halive => ?_⟩
  · obtain ⟨d, hd, hpid, hhash, hdead⟩ := h.children c hc
    obtain ⟨d', hd', hpid', hhash', hdead'⟩ := h.children c' hc'
    rw [← hpid, ← hpid']
    exact hm.1 d hd d' hd' (hdead halive) (hdead' halive') (by rw [hhash, hhash', heq])
  · obtain ⟨d, hd, -, hhash, hdead⟩ := h.children c hc
    exact h.cache _ (hhash ▸ hm.2 d hd (hdead halive))

theorem Sound.setBoot (hm : Sound m) {id : Nat} {phase : BootPhase}
    (halone : phase ≠ .settled → OrderedMap.get? hash m.running = none)
    (hcached : (phase = .cached ∨ ∃ port, phase = .probing port) →
      hash ∈ m.cache.map Prod.fst) : Sound (m.setBoot hash id phase) where
  fresh := hm.fresh
  ready := hm.ready
  alone hash' boot hget hphase := by
    change OrderedMap.get? hash' (OrderedMap.set hash _ m.pending) = some boot at hget
    rw [OrderedMap.get?_set] at hget
    split at hget
    · next heq =>
      subst heq
      cases hget
      exact halone hphase
    · exact hm.alone hash' boot hget hphase
  cached hash' boot hget hphase := by
    change OrderedMap.get? hash' (OrderedMap.set hash _ m.pending) = some boot at hget
    rw [OrderedMap.get?_set] at hget
    split at hget
    · next heq =>
      subst heq
      cases hget
      exact hcached hphase
    · exact hm.cached hash' boot hget hphase

theorem setBoot_oneAgent {id : Nat} {phase : BootPhase} :
    OneAgent (m.setBoot hash id phase) ↔ OneAgent m := Iff.rfl

def Kept (m m' : AgentManager H) : Prop := (OneAgent m → OneAgent m') ∧ (Sound m → Sound m')

theorem Quiet.kept (h : Quiet m m') : Kept m m' := ⟨h.oneAgent, h.sound⟩

theorem kept_settled (m : AgentManager H) (hash : H) (id : Nat) :
    Kept m (m.setBoot hash id .settled) :=
  ⟨fun hm => hm, fun hm => hm.setBoot (fun h => absurd rfl h) (by rintro (h | ⟨_, h⟩) <;> cases h)⟩

theorem kept_allocatePort (config : AgentConfig H) (id : Nat)
    (halone : OrderedMap.get? hash m.running = none) (hcached : hash ∈ m.cache.map Prod.fst) :
    Kept m (m.allocatePort config hash id) := by
  unfold allocatePort
  split
  · next port _ =>
    have hquiet : Quiet m { m with allocated := m.allocated ++ [port] } :=
      .of_eq rfl rfl (Nat.le_refl _) rfl rfl
    exact ⟨hquiet.oneAgent, fun hm =>
      (hquiet.sound hm).setBoot (fun _ => halone) (fun _ => hcached)⟩
  · exact kept_settled m hash id

theorem kept_bootAgent (config : AgentConfig H)
    (halone : OrderedMap.get? hash m.running = none) : Kept m (m.bootAgent config hash) := by
  have hstarted : Quiet m { m with next := m.next + 1 } :=
    .of_eq rfl rfl (Nat.le_succ _) rfl rfl
  unfold bootAgent
  dsimp only
  split
  · obtain ⟨hone, hsound⟩ := kept_settled { m with next := m.next + 1 } hash m.next
    exact ⟨fun hm => hone (hstarted.oneAgent hm), fun hm => hsound (hstarted.sound hm)⟩
  · split
    · next hhit =>
      have htouched := hstarted.trans (quiet_touch _ hash)
      refine ⟨htouched.oneAgent, fun hm => (htouched.sound hm).setBoot ?_ fun _ => ?_⟩
      · intro _
        cases hget : OrderedMap.get? hash
            (AgentManager.touch { m with next := m.next + 1 } hash).running with
        | none => rfl
        | some handle =>
          obtain ⟨old, hold, -⟩ := htouched.running hash handle hget
          rw [halone] at hold
          cases hold
      · refine htouched.cache hash ?_
        by_contra hmiss
        rw [OrderedMap.get?_eq_none.mpr hmiss] at hhit
        cases hhit
    · refine ⟨hstarted.oneAgent, fun hm => (hstarted.sound hm).setBoot (fun _ => halone) ?_⟩
      rintro (h | ⟨_, h⟩) <;> cases h

theorem kept_ensureAgent (config : AgentConfig H) (hm : Sound m) :
    Kept m (m.ensureAgent config hash) := by
  unfold ensureAgent
  split
  · next handle hget =>
    rw [if_pos (hm.ready hash handle hget)]
    have hset : Quiet m (m.setHandle hash { handle with lastActivityAt := m.now }) :=
      quiet_setHandle hget id
    exact (hset.trans (quiet_touch _ hash)).kept
  · next hnone =>
    split
    · exact (Quiet.refl m).kept
    · exact kept_bootAgent config hnone

theorem sound_ready (hm : Sound m) {id port pid : Nat} : Sound (m.ready hash id port pid) := by
  have hset : OrderedMap.get? hash (m.ready hash id port pid).pending = some ⟨id, .settled⟩ := by
    change OrderedMap.get? hash (OrderedMap.set hash _ m.pending) = _
    rw [OrderedMap.get?_set, if_pos rfl]
  constructor
  case fresh =>
    intro c hc
    obtain ⟨c', hc', rfl⟩ := List.mem_map.mp hc
    have hlt := hm.fresh c' hc'
    split
    · exact hlt
    · exact hlt
  case ready =>
    intro hash' handle hget
    change OrderedMap.get? hash' (OrderedMap.set hash _ m.running) = _ at hget
    rw [OrderedMap.get?_set] at hget
    split at hget
    · cases hget
      rfl
    · exact hm.ready hash' handle hget
  case alone =>
    intro hash' boot hget hphase
    by_cases heq : hash' = hash
    · subst heq
      rw [hset] at hget
      cases hget
      exact absurd rfl hphase
    · change OrderedMap.get? hash' (OrderedMap.set hash _ m.pending) = _ at hget
      rw [OrderedMap.get?_set, if_neg heq] at hget
      change OrderedMap.get? hash' (OrderedMap.set hash _ m.running) = none
      rw [OrderedMap.get?_set, if_neg heq]
      exact hm.alone hash' boot hget hphase
  case cached =>
    intro hash' boot hget hphase
    by_cases heq : hash' = hash
    · subst heq
      rw [hset] at hget
      cases hget
      rcases hphase with h | ⟨_, h⟩
      · cases h
      · cases h
    · change OrderedMap.get? hash' (OrderedMap.set hash _ m.pending) = _ at hget
      rw [OrderedMap.get?_set, if_neg heq] at hget
      exact hm.cached hash' boot hget hphase

theorem kept_ready {id port pid : Nat} : Kept m (m.ready hash id port pid) := by
  refine ⟨fun hm => ?_, fun hm => sound_ready hm⟩
  exact (quiet_updateChild (f := fun c => { c with watched := true }) m pid
    fun _ => ⟨rfl, rfl, fun h => h⟩).oneAgent hm

/-! ## The two steps that matter -/

theorem oneAgent_spawn {config : AgentConfig H} {id port : Nat} {started : Bool}
    (hm : Sound m) (hone : OneAgent m)
    (hboot : OrderedMap.get? hash m.pending = some ⟨id, .probing port⟩) :
    OneAgent (m.spawn config hash id port started) ↔
      (started = true → ∀ c ∈ m.children, c.hash = hash → c.alive = true → m.Holds c) := by
  have halone := hm.alone hash _ hboot BootPhase.noConfusion
  constructor
  -- the new process is alive beside the old one
  · rintro ⟨hsingle, -⟩ rfl c hc hhash halive
    have heq : c.pid = m.next := hsingle c (List.mem_append_left _ hc) ⟨m.next, hash, true, false, false⟩
      (List.mem_append_right _ (List.mem_singleton.mpr rfl)) halive rfl hhash
    exact absurd (hm.fresh c hc) (by rw [heq]; exact Nat.lt_irrefl _)
  · intro hheld
    -- the boot has no process yet, and no agent of the version runs
    have hdead : started = true → ∀ c ∈ m.children, c.hash = hash → c.alive ≠ true := by
      intro hstarted c hc hhash halive
      rcases hheld hstarted c hc hhash halive with ⟨handle, hget, -⟩ | ⟨boot, hget, hpid⟩
      · rw [hhash, halone] at hget
        cases hget
      · rw [hhash, hboot] at hget
        cases hget
        cases hpid
    refine ⟨fun c hc c' hc' halive halive' heq => ?_, fun c hc halive => ?_⟩
    · rcases List.mem_append.mp hc with hc | hc
      · rcases List.mem_append.mp hc' with hc' | hc'
        · exact hone.1 c hc c' hc' halive halive' heq
        · obtain rfl := List.mem_singleton.mp hc'
          exact absurd halive (hdead halive' c hc heq)
      · obtain rfl := List.mem_singleton.mp hc
        rcases List.mem_append.mp hc' with hc' | hc'
        · exact absurd halive' (hdead halive c' hc' heq.symm)
        · obtain rfl := List.mem_singleton.mp hc'
          rfl
    · rcases List.mem_append.mp hc with hc | hc
      · exact hone.2 c hc halive
      · obtain rfl := List.mem_singleton.mp hc
        exact hm.cached hash _ hboot (Or.inr ⟨port, rfl⟩)

theorem sound_spawn {config : AgentConfig H} {id port : Nat} {started : Bool} (hm : Sound m)
    (hboot : OrderedMap.get? hash m.pending = some ⟨id, .probing port⟩) :
    Sound (m.spawn config hash id port started) := by
  let spawned : AgentManager H :=
    { m with children := m.children ++ [⟨m.next, hash, started, !started, false⟩], next := m.next + 1 }
  have hspawned : Sound spawned := { hm with
    fresh := by
      intro c hc
      rcases List.mem_append.mp hc with hc | hc
      · exact Nat.lt_succ_of_lt (hm.fresh c hc)
      · obtain rfl := List.mem_singleton.mp hc
        exact Nat.lt_succ_self _ }
  refine hspawned.setBoot (fun _ => hm.alone hash _ hboot BootPhase.noConfusion) ?_
  rintro (h | ⟨_, h⟩) <;> cases h

theorem oneAgent_evict {maxBytes : Nat} (hone : OneAgent m) :
    OneAgent (m.evictIfNeeded maxBytes) ↔
      ∀ c ∈ m.children, c.alive = true → c.hash ∈ m.victims maxBytes → m.Holds c := by
  constructor
  · rintro ⟨-, hcached⟩ c hc halive hvictim
    exact absurd hvictim (mem_keys_evictIfNeeded.mp (hcached c hc halive)).2
  · intro hheld
    refine ⟨hone.1, fun c hc halive => mem_keys_evictIfNeeded.mpr ⟨hone.2 c hc halive, ?_⟩⟩
    intro hvictim
    exact not_mem_victims (hheld c hc halive hvictim).isActive maxBytes hvictim

theorem sound_evict {maxBytes : Nat} (hm : Sound m) : Sound (m.evictIfNeeded maxBytes) where
  fresh := hm.fresh
  ready := hm.ready
  alone := hm.alone
  cached hash boot hget hphase := by
    refine mem_keys_evictIfNeeded.mpr ⟨hm.cached hash boot hget hphase, ?_⟩
    refine not_mem_victims ?_ maxBytes
    change OrderedMap.get? hash m.pending = some boot at hget
    rw [AgentManager.isActive, hget, Option.isSome_some, Bool.or_true]

theorem sound_downloaded {id bytes maxBytes : Nat} (hm : Sound m)
    (hboot : OrderedMap.get? hash m.pending = some ⟨id, .downloading⟩) :
    Sound (((m.extracted hash bytes).evictIfNeeded maxBytes).setBoot hash id .cached) := by
  have hextracted := (quiet_extracted m hash bytes).sound hm
  refine (sound_evict hextracted).setBoot ?_ fun _ => ?_
  · exact fun _ => hm.alone hash _ hboot BootPhase.noConfusion
  · refine mem_keys_evictIfNeeded.mpr ⟨?_, not_mem_victims ?_ maxBytes⟩
    · change hash ∈ (OrderedMap.set hash _ m.cache).map Prod.fst
      rw [OrderedMap.keys_set]
      split
      · next h => exact h
      · exact List.mem_append_right _ (List.mem_singleton.mpr rfl)
    · change OrderedMap.get? hash (m.extracted hash bytes).pending = _ at hboot
      rw [AgentManager.isActive, hboot, Option.isSome_some, Bool.or_true]

end AgentManager

/-! ## Runs -/

variable {config : AgentConfig H}

open AgentManager

theorem AgentManager.Kept.iff {m m' : AgentManager H} {P : Prop} (h : Kept m m') (hm : Sound m)
    (hp : P) : Sound m' ∧ (OneAgent m → (OneAgent m' ↔ P)) :=
  ⟨h.2 hm, fun hone => ⟨fun _ => hp, fun _ => h.1 hone⟩⟩

theorem AgentStep.oneAgent_iff {m m' : AgentManager H} {event : AgentEvent H}
    (hstep : AgentStep config m event m') (hm : Sound m) :
    Sound m' ∧ (OneAgent m → (OneAgent m' ↔ LetGoExited config ⟨m, event, m'⟩)) := by
  cases hstep with
  | portFree hash id port started h =>
    refine ⟨sound_spawn hm h, fun hone => (oneAgent_spawn hm hone h).trans ?_⟩
    cases started with
    | true => exact ⟨fun h => h rfl, fun h _ => h⟩
    | false => exact ⟨fun _ => trivial, fun _ h => by cases h⟩
  | downloaded hash id bytes h =>
    refine ⟨sound_downloaded hm h, fun hone => ?_⟩
    have hextracted := (quiet_extracted m hash bytes).oneAgent hone
    exact setBoot_oneAgent.trans (oneAgent_evict hextracted)
  | ensureAgent hash => exact (kept_ensureAgent config hm).iff hm trivial
  | stopAgent hash => exact (quiet_stopAgent m config hash).kept.iff hm trivial
  | stopAll =>
    have hquiet : Quiet m { m with stopAlls := m.stopAlls ++ [m.pending.map fun e => e.2.id] } :=
      .of_eq rfl rfl (Nat.le_refl _) rfl rfl
    exact hquiet.kept.iff hm trivial
  | stopRunning boots front back _ _ =>
    have hwaited : Quiet m { m with stopAlls := front ++ back } :=
      .of_eq rfl rfl (Nat.le_refl _) rfl rfl
    exact (hwaited.trans (quiet_stopEach config _ _)).kept.iff hm trivial
  | sweepIdle => exact (quiet_stopEach config _ m).kept.iff hm trivial
  | beginRequest hash => exact (quiet_beginRequest m hash).kept.iff hm trivial
  | endRequest hash => exact (quiet_endRequest m hash).kept.iff hm trivial
  | downloadFailed hash id _ => exact (kept_settled m hash id).iff hm trivial
  | cached hash id h =>
    have halone := hm.alone hash _ h BootPhase.noConfusion
    exact (kept_allocatePort config id halone (hm.cached hash _ h (Or.inl rfl))).iff hm
      trivial
  | portBusy hash id port h =>
    have halone := hm.alone hash _ h BootPhase.noConfusion
    exact (kept_allocatePort config id halone (hm.cached hash _ h (Or.inr ⟨port, rfl⟩))).iff hm
      trivial
  | healthy => exact kept_ready.iff hm trivial
  | unready hash id port pid deadline h _ =>
    refine ⟨hm.setBoot ?_ ?_, fun hone => ⟨fun _ => trivial, fun _ => hone⟩⟩
    · exact fun _ => hm.alone hash _ h BootPhase.noConfusion
    · rintro (h | ⟨_, h⟩) <;> cases h
  | killed hash id port pid deadline _ _ =>
    have hreleased := quiet_release m port
    obtain ⟨hone, hsound⟩ := kept_settled (m.release port) hash id
    exact Kept.iff ⟨fun h => hone (hreleased.oneAgent h), fun h => hsound (hreleased.sound h)⟩ hm
      trivial
  | settled hash id _ => exact (quiet_erase_pending m hash).kept.iff hm trivial
  | stopWaited stop exited _ _ => exact (quiet_stopWaited m stop exited).kept.iff hm trivial
  | exit pid =>
    have hquiet := quiet_updateChild m pid (f := fun c => { c with alive := false })
      fun _ => ⟨rfl, rfl, Bool.noConfusion⟩
    exact hquiet.kept.iff hm trivial
  | exited c _ _ =>
    have hquiet := quiet_updateChild m c.pid (f := fun c => { c with exited := true })
      fun _ => ⟨rfl, rfl, fun h => h⟩
    exact hquiet.kept.iff hm trivial
  | cleanup c _ _ _ => exact (quiet_cleanup m c).kept.iff hm trivial
  | pass ms =>
    have hquiet : Quiet m { m with now := m.now + ms } := .of_eq rfl rfl (Nat.le_refl _) rfl rfl
    exact hquiet.kept.iff hm trivial

/-- In every run of a worker, at most one process of a version is alive at a time and its
artifact stays in the cache, if and only if a process that neither map holds has exited wherever
its version spawns or its artifact would be evicted. -/
theorem one_agent_iff (config : AgentConfig H) (now : Nat) (cache : List (H × CacheEntry))
    (moves : List (Move (AgentManager H) (AgentEvent H))) (m : AgentManager H)
    (hrun : Trace (AgentStep config) (createAgentManager now cache) moves m) :
    (∀ move ∈ moves, move.after.OneAgent) ↔ ∀ move ∈ moves, LetGoExited config move := by
  refine hrun.forall_iff (fun m => Sound m ∧ OneAgent m) (fun _ => True) ?_ ?_ (fun _ _ => trivial)
    ?_
  · rintro move hstep - ⟨hm, hone⟩
    exact (hstep.oneAgent_iff hm).2 hone
  · rintro move hstep - ⟨hm, hone⟩ hafter
    exact ⟨(hstep.oneAgent_iff hm).1, hafter⟩
  · refine ⟨sound_create now cache, ?_, ?_⟩
    · exact fun c hc => absurd hc List.not_mem_nil
    · exact fun c hc => absurd hc List.not_mem_nil

/-- A worker with room for two agents. -/
def smallConfig : AgentConfig Nat where
  agentIdleStopMs := 900000
  agentReadyTimeoutMs := 30000
  agentStopTimeoutMs := 10000
  artifactCacheMaxBytes := 1000
  portMin := 4000
  portMax := 4001
  validHash _ := true

/-- An agent is stopped, exits, and is ensured again. -/
theorem one_agent_iff_restart : ∃ moves m,
    Trace (AgentStep smallConfig) (createAgentManager 0 []) moves m ∧ moves.length = 13 ∧
      ∀ move ∈ moves, move.after.OneAgent := by
  have hrun : ∃ moves m, Trace (AgentStep smallConfig) (createAgentManager 0 []) moves m ∧
      moves.length = 13 ∧ ∀ move ∈ moves, LetGoExited smallConfig move := by
    refine ⟨_, _, .cons (.ensureAgent _ 7)
      (.cons (.downloaded _ 7 0 100 rfl)
      (.cons (.cached _ 7 0 rfl)
      (.cons (.portFree _ 7 0 4000 true rfl)
      (.cons (.healthy _ 7 0 4000 1 30000 rfl)
      (.cons (.settled _ 7 0 rfl)
      (.cons (.stopAgent _ 7)
      (.cons (.exit _ 1)
      (.cons (.exited _ _ List.mem_cons_self rfl)
      (.cons (.stopWaited _ _ true List.mem_cons_self ⟨_, List.mem_cons_self, rfl, rfl⟩)
      (.cons (.ensureAgent _ 7)
      (.cons (.cached _ 7 2 rfl)
      (.cons (.portFree _ 7 2 4000 true rfl) (.nil _))))))))))))), rfl, ?_⟩
    simp only [List.forall_mem_cons]
    refine ⟨trivial, ?_, trivial, ?_, trivial, trivial, trivial, trivial, trivial, trivial,
      trivial, trivial, ?_, List.forall_mem_nil _⟩
    · exact fun c hc => absurd hc List.not_mem_nil
    · exact fun c hc => absurd hc List.not_mem_nil
    · intro c hc _ halive
      obtain rfl := List.mem_singleton.mp hc
      cases halive
  obtain ⟨moves, m, htrace, hlength, hgone⟩ := hrun
  exact ⟨moves, m, htrace, hlength, (one_agent_iff smallConfig 0 [] moves m htrace).mpr hgone⟩

/-- An agent is ensured while the process that was stopped still runs. -/
theorem stopped_runs_twice : ∃ moves m,
    Trace (AgentStep smallConfig) (createAgentManager 0 []) moves m ∧ ¬ m.OneAgent := by
  refine ⟨_, _, .cons (.ensureAgent _ 7)
    (.cons (.downloaded _ 7 0 100 rfl)
    (.cons (.cached _ 7 0 rfl)
    (.cons (.portFree _ 7 0 4000 true rfl)
    (.cons (.healthy _ 7 0 4000 1 30000 rfl)
    (.cons (.settled _ 7 0 rfl)
    (.cons (.stopAgent _ 7)
    (.cons (.ensureAgent _ 7)
    (.cons (.cached _ 7 2 rfl)
    (.cons (.portFree _ 7 2 4001 true rfl) (.nil _)))))))))), ?_⟩
  intro hone
  have heq := hone.1 _ List.mem_cons_self _ (List.mem_cons_of_mem _ List.mem_cons_self) rfl rfl rfl
  cases heq

end InvisibleString.Runtime
