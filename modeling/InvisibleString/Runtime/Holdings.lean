import InvisibleString.Runtime.Agents
import Mathlib.Algebra.Order.Group.Multiset

/- # `Runtime.Holdings` — which boots and processes hold a port

A port is held by a boot from the allocation on, by an agent that runs, and by a stop until it
waits no longer.  The process it was given to, if there is one by now, is held with it.  Each step
of a worker changes what is held in one of six ways.

**Proved here.**

    what a step does to the holdings and to the pool  (`AgentStep.effect`)
    no process is held twice, and every process that is held was spawned  (`processes_kept`)
-/

namespace InvisibleString.Runtime

open Transition (Move Trace)

variable {H : Type} [DecidableEq H]

/-! ## Holdings -/

/-- A port, and the process it was given to. -/
abbrev Holding := Nat × Option Nat

def BootPhase.holding : BootPhase → Option Holding
  | .probing port => some (port, none)
  | .polling port pid _ | .killing port pid _ => some (port, some pid)
  | .downloading | .cached | .settled => none

def AgentHandle.holding (handle : AgentHandle) : Holding := (handle.port, some handle.pid)

def Stop.holding (stop : Stop H) : Holding := (stop.port, some stop.pid)

namespace AgentManager

/-- What a boot holds in a phase. -/
def booting (phase : BootPhase) : Multiset Holding := (phase.holding.toList : List Holding)

def bootHoldings (pending : List (H × Boot)) : Multiset Holding :=
  (pending.filterMap fun e => e.2.phase.holding : List Holding)

def agentHoldings (running : List (H × AgentHandle)) : Multiset Holding :=
  (running.map fun e => e.2.holding : List Holding)

def stopHoldings (stops : List (Stop H)) : Multiset Holding :=
  (stops.map Stop.holding : List Holding)

/-- What boots hold, what agents that run hold, and what stops hold. -/
def holdings (m : AgentManager H) : Multiset Holding :=
  bootHoldings m.pending + agentHoldings m.running + stopHoldings m.stops

variable {m m' : AgentManager H} {config : AgentConfig H} {hash : H} {boot : Boot}
  {handle : AgentHandle}

theorem booting_none {phase : BootPhase} (h : phase.holding = none) : booting phase = 0 := by
  rw [booting, h]
  rfl

theorem booting_some {phase : BootPhase} {x : Holding} (h : phase.holding = some x) :
    booting phase = {x} := by
  rw [booting, h]
  rfl

omit [DecidableEq H] in
theorem bootHoldings_cons (entries : List (H × Boot)) :
    bootHoldings ((hash, boot) :: entries) = booting boot.phase + bootHoldings entries := by
  cases h : boot.phase.holding with
  | none =>
    have hrest : ((hash, boot) :: entries).filterMap (fun e => e.2.phase.holding) =
        entries.filterMap fun e => e.2.phase.holding := List.filterMap_cons_none h
    rw [booting_none h, zero_add, bootHoldings, hrest]
    rfl
  | some x =>
    have hrest : ((hash, boot) :: entries).filterMap (fun e => e.2.phase.holding) =
        x :: entries.filterMap fun e => e.2.phase.holding := List.filterMap_cons_some h
    rw [booting_some h, bootHoldings, hrest]
    rfl

omit [DecidableEq H] in
theorem bootHoldings_perm {entries entries' : List (H × Boot)} (h : entries.Perm entries') :
    bootHoldings entries = bootHoldings entries' := Multiset.coe_eq_coe.mpr (h.filterMap _)

omit [DecidableEq H] in
theorem agentHoldings_perm {entries entries' : List (H × AgentHandle)}
    (h : entries.Perm entries') : agentHoldings entries = agentHoldings entries' :=
  Multiset.coe_eq_coe.mpr (h.map _)

omit [DecidableEq H] in
theorem agentHoldings_cons (entries : List (H × AgentHandle)) :
    agentHoldings ((hash, handle) :: entries) = {handle.holding} + agentHoldings entries := rfl

/-- A boot goes on to another phase. -/
theorem holdings_setBoot (hunique : OrderedMap.UniqueKeys m.pending)
    (hget : OrderedMap.get? hash m.pending = some boot) (id : Nat) (phase : BootPhase) :
    (m.setBoot hash id phase).holdings + booting boot.phase = m.holdings + booting phase := by
  have hbefore := bootHoldings_perm (OrderedMap.perm_erase hunique hget)
  have hafter := bootHoldings_perm (OrderedMap.perm_set (v := ⟨id, phase⟩) (k := hash) hunique)
  show bootHoldings (OrderedMap.set hash ⟨id, phase⟩ m.pending) + agentHoldings m.running +
    stopHoldings m.stops + _ = bootHoldings m.pending + _ + _ + _
  rw [hbefore, hafter, bootHoldings_cons, bootHoldings_cons]
  show booting phase + _ + _ + _ + _ = _
  ac_rfl

theorem holdings_setBoot_new (hget : OrderedMap.get? hash m.pending = none) (id : Nat)
    {phase : BootPhase} (hphase : phase.holding = none) :
    (m.setBoot hash id phase).holdings = m.holdings := by
  show bootHoldings (OrderedMap.set hash ⟨id, phase⟩ m.pending) + _ + _ =
    bootHoldings m.pending + _ + _
  rw [OrderedMap.set_of_none hget, bootHoldings_perm (List.perm_append_singleton _ _),
    bootHoldings_cons, booting_none hphase, zero_add]
  rfl

theorem holdings_erase_pending (hunique : OrderedMap.UniqueKeys m.pending)
    (hget : OrderedMap.get? hash m.pending = some boot) (hphase : boot.phase.holding = none) :
    ({ m with pending := OrderedMap.erase hash m.pending } : AgentManager H).holdings =
      m.holdings := by
  have hbefore := bootHoldings_perm (OrderedMap.perm_erase hunique hget)
  show bootHoldings (OrderedMap.erase hash m.pending) + _ + _ = bootHoldings m.pending + _ + _
  rw [hbefore, bootHoldings_cons, booting_none hphase, zero_add]

theorem holdings_setHandle_new (hget : OrderedMap.get? hash m.running = none) :
    (m.setHandle hash handle).holdings = m.holdings + {handle.holding} := by
  show _ + agentHoldings (OrderedMap.set hash handle m.running) + _ =
    bootHoldings m.pending + agentHoldings m.running + stopHoldings m.stops + _
  rw [OrderedMap.set_of_none hget, agentHoldings_perm (List.perm_append_singleton _ _),
    agentHoldings_cons]
  show bootHoldings m.pending + _ + stopHoldings m.stops = _
  ac_rfl

theorem holdings_setHandle {old : AgentHandle} (hunique : OrderedMap.UniqueKeys m.running)
    (hget : OrderedMap.get? hash m.running = some old) (hsame : handle.holding = old.holding) :
    (m.setHandle hash handle).holdings = m.holdings := by
  have hbefore := agentHoldings_perm (OrderedMap.perm_erase hunique hget)
  have hafter := agentHoldings_perm (OrderedMap.perm_set (v := handle) (k := hash) hunique)
  show _ + agentHoldings (OrderedMap.set hash handle m.running) + _ =
    bootHoldings m.pending + agentHoldings m.running + stopHoldings m.stops
  rw [hbefore, hafter, agentHoldings_cons, agentHoldings_cons, hsame]
  rfl

theorem holdings_erase_running (hunique : OrderedMap.UniqueKeys m.running)
    (hget : OrderedMap.get? hash m.running = some handle) :
    bootHoldings m.pending + agentHoldings (OrderedMap.erase hash m.running) +
      stopHoldings m.stops + {handle.holding} = m.holdings := by
  have hbefore := agentHoldings_perm (OrderedMap.perm_erase hunique hget)
  show _ = bootHoldings m.pending + agentHoldings m.running + stopHoldings m.stops
  rw [hbefore, agentHoldings_cons]
  ac_rfl

/-! ## Keys -/

/-- Each version has one entry of a map at most. -/
structure Keyed (m : AgentManager H) : Prop where
  running : OrderedMap.UniqueKeys m.running
  pending : OrderedMap.UniqueKeys m.pending

theorem Keyed.setBoot (h : Keyed m) (id : Nat) (phase : BootPhase) :
    Keyed (m.setBoot hash id phase) := ⟨h.running, h.pending.set⟩

theorem Keyed.setHandle (h : Keyed m) : Keyed (m.setHandle hash handle) :=
  ⟨h.running.set, h.pending⟩

theorem Keyed.touch (h : Keyed m) : Keyed (m.touch hash) := by
  rw [AgentManager.touch]
  split
  · exact ⟨h.running, h.pending⟩
  · exact h

theorem Keyed.bootAgent (h : Keyed m) : Keyed (m.bootAgent config hash) := by
  have hstarted : Keyed { m with next := m.next + 1 } := ⟨h.running, h.pending⟩
  rw [AgentManager.bootAgent]
  split
  · exact hstarted.setBoot _ _
  · split
    · exact hstarted.touch.setBoot _ _
    · exact hstarted.setBoot _ _

theorem Keyed.ensureAgent (h : Keyed m) : Keyed (m.ensureAgent config hash) := by
  rw [AgentManager.ensureAgent]
  split
  · split
    · exact h.setHandle.touch
    · split
      · exact h
      · exact h.bootAgent
  · split
    · exact h
    · exact h.bootAgent

theorem Keyed.stopAgent (h : Keyed m) : Keyed (m.stopAgent config hash) := by
  rw [AgentManager.stopAgent]
  split
  · exact h
  · have hstopping : ∀ stop, Keyed { m with
        running := OrderedMap.erase hash m.running, stops := m.stops ++ [stop] } :=
      fun _ => ⟨h.running.erase, h.pending⟩
    exact (hstopping _).touch

theorem Keyed.stopEach (hashes : List H) (h : Keyed m) : Keyed (m.stopEach config hashes) := by
  induction hashes generalizing m with
  | nil => exact h
  | cons hash hashes ih => exact ih h.stopAgent

theorem Keyed.beginRequest (h : Keyed m) : Keyed (m.beginRequest hash) := by
  rw [AgentManager.beginRequest]
  split
  · split
    · exact h.setHandle
    · exact h
  · exact h

theorem Keyed.endRequest (h : Keyed m) : Keyed (m.endRequest hash) := by
  rw [AgentManager.endRequest]
  split
  · exact h.setHandle
  · exact h

theorem Keyed.allocatePort (h : Keyed m) (id : Nat) : Keyed (m.allocatePort config hash id) := by
  rw [AgentManager.allocatePort]
  split
  · exact ⟨h.running, h.pending.set⟩
  · exact h.setBoot _ _

theorem Keyed.cleanup (h : Keyed m) (c : Child H) : Keyed (m.cleanup c) := by
  rw [AgentManager.cleanup]
  split
  · split
    · exact ⟨h.running.erase, h.pending⟩
    · exact ⟨h.running, h.pending⟩
  · exact ⟨h.running, h.pending⟩

omit [DecidableEq H] in
theorem Keyed.stopWaited (h : Keyed m) (stop : Stop H) (exited : Bool) :
    Keyed (m.stopWaited stop exited) := by
  rw [AgentManager.stopWaited]
  split
  · exact ⟨h.running, h.pending⟩
  · exact ⟨h.running, h.pending⟩

theorem Keyed.step {e : AgentEvent H} (hstep : AgentStep config m e m') (h : Keyed m) :
    Keyed m' := by
  cases hstep with
  | ensureAgent => exact h.ensureAgent
  | stopAgent => exact h.stopAgent
  | stopAll => exact ⟨h.running, h.pending⟩
  | stopRunning boots front back =>
    have hwaited : Keyed { m with stopAlls := front ++ back } := ⟨h.running, h.pending⟩
    exact hwaited.stopEach _
  | sweepIdle => exact h.stopEach _
  | beginRequest => exact h.beginRequest
  | endRequest => exact h.endRequest
  | downloaded => exact ⟨h.running, h.pending.set⟩
  | downloadFailed => exact h.setBoot _ _
  | cached => exact h.allocatePort _
  | portBusy => exact h.allocatePort _
  | portFree => exact ⟨h.running, h.pending.set⟩
  | healthy => exact ⟨h.running.set, h.pending.set⟩
  | unready => exact h.setBoot _ _
  | killed => exact ⟨h.running, h.pending.set⟩
  | settled => exact ⟨h.running, h.pending.erase⟩
  | stopWaited stop exited => exact h.stopWaited stop exited
  | exit => exact ⟨h.running, h.pending⟩
  | exited => exact ⟨h.running, h.pending⟩
  | cleanup c => exact h.cleanup c
  | pass => exact ⟨h.running, h.pending⟩

/-! ## What the calls do to the holdings -/

theorem holdings_touch (m : AgentManager H) (hash : H) : (m.touch hash).holdings = m.holdings := by
  rw [touch]
  split
  · rfl
  · rfl

theorem allocated_touch (m : AgentManager H) (hash : H) :
    (m.touch hash).allocated = m.allocated := by
  rw [touch]
  split
  · rfl
  · rfl

theorem next_touch (m : AgentManager H) (hash : H) : (m.touch hash).next = m.next := by
  rw [touch]
  split
  · rfl
  · rfl

/-- The holdings and the pool stay, and numbers are only drawn. -/
structure Unmoved (m m' : AgentManager H) : Prop where
  held : m'.holdings = m.holdings
  ports : m'.allocated = m.allocated
  next : m.next ≤ m'.next

omit [DecidableEq H] in
theorem Unmoved.refl (m : AgentManager H) : Unmoved m m := ⟨rfl, rfl, Nat.le_refl _⟩

omit [DecidableEq H] in
theorem Unmoved.trans {m₁ m₂ m₃ : AgentManager H} (h : Unmoved m₁ m₂) (h' : Unmoved m₂ m₃) :
    Unmoved m₁ m₃ :=
  ⟨h'.held.trans h.held, h'.ports.trans h.ports, h.next.trans h'.next⟩

theorem unmoved_touch (m : AgentManager H) (hash : H) : Unmoved m (m.touch hash) :=
  ⟨holdings_touch m hash, allocated_touch m hash, (next_touch m hash).ge⟩

theorem unmoved_bootAgent (hget : OrderedMap.get? hash m.pending = none) :
    Unmoved m (m.bootAgent config hash) := by
  have hstarted : Unmoved m { m with next := m.next + 1 } := ⟨rfl, rfl, Nat.le_succ _⟩
  have hboot : ∀ (m₁ : AgentManager H) (phase : BootPhase), m₁.pending = m.pending →
      phase.holding = none → Unmoved m₁ (m₁.setBoot hash m.next phase) :=
    fun m₁ phase hpending hphase =>
      ⟨holdings_setBoot_new (hpending ▸ hget) _ hphase, rfl, Nat.le_refl _⟩
  rw [bootAgent]
  split
  · exact hstarted.trans (hboot _ _ rfl rfl)
  · split
    · refine (hstarted.trans (unmoved_touch _ hash)).trans (hboot _ _ ?_ rfl)
      rw [touch]
      split
      · rfl
      · rfl
    · exact hstarted.trans (hboot _ _ rfl rfl)

theorem unmoved_setHandle {old : AgentHandle} (hkeyed : Keyed m)
    (hget : OrderedMap.get? hash m.running = some old) (hsame : handle.holding = old.holding) :
    Unmoved m (m.setHandle hash handle) :=
  ⟨holdings_setHandle hkeyed.running hget hsame, rfl, Nat.le_refl _⟩

theorem unmoved_ensureAgent (hkeyed : Keyed m) : Unmoved m (m.ensureAgent config hash) := by
  have hboot : Unmoved m (if (OrderedMap.get? hash m.pending).isSome then m
      else m.bootAgent config hash) := by
    split
    · exact .refl m
    · next hnone => exact unmoved_bootAgent (Option.not_isSome_iff_eq_none.mp hnone)
  rw [ensureAgent]
  split
  · next handle hget =>
    split
    · have hset : Unmoved m (m.setHandle hash { handle with lastActivityAt := m.now }) :=
        unmoved_setHandle hkeyed hget rfl
      exact hset.trans (unmoved_touch _ hash)
    · exact hboot
  · exact hboot

/-- An agent that runs becomes one that is stopped. -/
theorem unmoved_stopAgent (hkeyed : Keyed m) : Unmoved m (m.stopAgent config hash) := by
  rw [stopAgent]
  split
  · exact .refl m
  · next handle hget =>
    have hstop : ∀ stop : Stop H, stop.holding = handle.holding → Unmoved m { m with
        running := OrderedMap.erase hash m.running, stops := m.stops ++ [stop] } := by
      intro stop hsame
      refine ⟨?_, rfl, Nat.le_refl _⟩
      rw [← holdings_erase_running hkeyed.running hget, ← hsame]
      show bootHoldings m.pending + _ + stopHoldings (m.stops ++ [stop]) = _
      rw [stopHoldings, List.map_append, ← Multiset.coe_add, ← add_assoc]
      rfl
    exact (hstop _ rfl).trans (unmoved_touch _ hash)

theorem unmoved_stopEach (hashes : List H) (hkeyed : Keyed m) :
    Unmoved m (m.stopEach config hashes) := by
  induction hashes generalizing m with
  | nil => exact .refl m
  | cons hash hashes ih => exact (unmoved_stopAgent hkeyed).trans (ih hkeyed.stopAgent)

theorem unmoved_beginRequest (hkeyed : Keyed m) : Unmoved m (m.beginRequest hash) := by
  rw [beginRequest]
  split
  · next handle hget =>
    split
    · exact unmoved_setHandle hkeyed hget rfl
    · exact .refl m
  · exact .refl m

theorem unmoved_endRequest (hkeyed : Keyed m) : Unmoved m (m.endRequest hash) := by
  rw [endRequest]
  split
  · next handle hget => exact unmoved_setHandle hkeyed hget rfl
  · exact .refl m

theorem unmoved_setBoot (hkeyed : Keyed m) (hget : OrderedMap.get? hash m.pending = some boot)
    {id : Nat} {phase : BootPhase} (hsame : phase.holding = boot.phase.holding) :
    Unmoved m (m.setBoot hash id phase) := by
  refine ⟨?_, rfl, Nat.le_refl _⟩
  have hset := holdings_setBoot hkeyed.pending hget id phase
  have heq : booting phase = booting boot.phase := by
    rw [booting, booting, hsame]
  rw [heq] at hset
  exact add_right_cancel hset

theorem unmoved_ready {id port pid deadline : Nat} (hkeyed : Keyed m)
    (hget : OrderedMap.get? hash m.pending = some ⟨id, .polling port pid deadline⟩)
    (halone : OrderedMap.get? hash m.running = none) : Unmoved m (m.ready hash id port pid) := by
  let handle : AgentHandle := ⟨port, pid, .ready, m.now, 0⟩
  refine ⟨?_, rfl, Nat.le_refl _⟩
  have hrunning : (m.setHandle hash handle).holdings = m.holdings + {(port, some pid)} :=
    holdings_setHandle_new halone
  have hset := holdings_setBoot (m := m.setHandle hash handle) hkeyed.pending hget id .settled
  have hsettled : booting .settled = 0 := rfl
  rw [hsettled, add_zero, hrunning] at hset
  exact add_right_cancel hset

/-- The port that the pool hands out next. -/
def firstFree (m : AgentManager H) (config : AgentConfig H) : Option Nat :=
  (List.range' config.portMin (config.portMax + 1 - config.portMin)).find?
    fun port => port ∉ m.allocated

omit [DecidableEq H] in
theorem firstFree_some {port : Nat} (h : m.firstFree config = some port) :
    port ∉ m.allocated ∧ config.portMin ≤ port ∧ port ≤ config.portMax := by
  have hrange := List.mem_range'_1.mp (List.mem_of_find?_eq_some h)
  have hfree := List.find?_some (p := fun port => decide (port ∉ m.allocated)) h
  exact ⟨of_decide_eq_true hfree, hrange.1, by omega⟩

/-- What a boot held is exchanged for a port of the pool, if there is one. -/
theorem holdings_allocatePort (config : AgentConfig H) (hkeyed : Keyed m)
    (hget : OrderedMap.get? hash m.pending = some boot) (id : Nat) :
    (∃ port, m.firstFree config = some port ∧
        (m.allocatePort config hash id).allocated = m.allocated ++ [port] ∧
        (m.allocatePort config hash id).holdings + booting boot.phase =
          m.holdings + {(port, none)}) ∨
      m.firstFree config = none ∧ (m.allocatePort config hash id).allocated = m.allocated ∧
        (m.allocatePort config hash id).holdings + booting boot.phase = m.holdings := by
  rw [allocatePort]
  split
  · next port hfind =>
    refine .inl ⟨port, hfind, rfl, ?_⟩
    exact holdings_setBoot (m := { m with allocated := m.allocated ++ [port] }) hkeyed.pending hget
      id (.probing port)
  · next hfind =>
    refine .inr ⟨hfind, rfl, ?_⟩
    exact (holdings_setBoot hkeyed.pending hget id .settled).trans (add_zero _)

theorem next_allocatePort (id : Nat) : (m.allocatePort config hash id).next = m.next := by
  rw [allocatePort]
  split
  · rfl
  · rfl

theorem holdings_spawn {id port : Nat} {started : Bool} (hkeyed : Keyed m)
    (hget : OrderedMap.get? hash m.pending = some ⟨id, .probing port⟩) :
    (m.spawn config hash id port started).holdings + {(port, none)} =
      m.holdings + {(port, some m.next)} := by
  let child : Child H := ⟨m.next, hash, started, !started, false⟩
  exact holdings_setBoot
    (m := { m with children := m.children ++ [child], next := m.next + 1 }) hkeyed.pending hget id
    (.polling port m.next (m.now + config.agentReadyTimeoutMs))

theorem holdings_release_boot {x : Holding} (hkeyed : Keyed m)
    (hget : OrderedMap.get? hash m.pending = some boot) (hphase : boot.phase.holding = some x)
    (id : Nat) : ((m.release x.1).setBoot hash id .settled).holdings + {x} = m.holdings := by
  have hset := holdings_setBoot (m := m.release x.1) hkeyed.pending hget id .settled
  rw [booting_some hphase] at hset
  exact hset.trans (add_zero _)

/-- The processes that are held. -/
def pids (m : AgentManager H) : Multiset Nat := m.holdings.filterMap Prod.snd

omit [DecidableEq H] in
theorem stops_nodup (hpids : m.pids.Nodup) : (m.stops.map Stop.pid).Nodup := by
  have hle : (stopHoldings m.stops).filterMap Prod.snd ≤ m.pids :=
    Multiset.filterMap_le_filterMap _ (Multiset.le_add_left _ _)
  have heq : (stopHoldings m.stops).filterMap Prod.snd =
      ((m.stops.map Stop.pid : List Nat) : Multiset Nat) := by
    rw [stopHoldings, Multiset.filterMap_coe, List.filterMap_map]
    exact congrArg _ (congrFun (List.filterMap_eq_map (f := Stop.pid)) m.stops)
  exact Multiset.coe_nodup.mp (heq ▸ Multiset.nodup_of_le hle hpids)

omit [DecidableEq H] in
theorem perm_stops {stops : List (Stop H)} {stop : Stop H} (hstop : stop ∈ stops)
    (hnodup : (stops.map Stop.pid).Nodup) :
    stops.Perm (stop :: stops.filter fun s => s.pid ≠ stop.pid) := by
  induction stops with
  | nil => exact absurd hstop List.not_mem_nil
  | cons s rest ih =>
    obtain ⟨hnot, hrest⟩ := List.nodup_cons.mp hnodup
    rcases List.mem_cons.mp hstop with rfl | hstop
    · have hothers : rest.filter (fun s => s.pid ≠ stop.pid) = rest := by
        refine List.filter_eq_self.mpr fun s hs => decide_eq_true fun heq => ?_
        exact hnot (heq ▸ List.mem_map_of_mem hs)
      rw [List.filter_cons, if_neg (by rw [decide_eq_true_eq]; exact fun h => h rfl), hothers]
    · have hne : s.pid ≠ stop.pid := fun heq => hnot (heq ▸ List.mem_map_of_mem hstop)
      rw [List.filter_cons, if_pos (decide_eq_true hne)]
      exact ((ih hstop hrest).cons s).trans (.swap _ _ _)

omit [DecidableEq H] in
theorem stopHoldings_others {stop : Stop H} (hstop : stop ∈ m.stops) (hpids : m.pids.Nodup) :
    stopHoldings m.stops =
      stopHoldings (m.stops.filter fun s => s.pid ≠ stop.pid) + {stop.holding} := by
  have hperm := (perm_stops hstop (stops_nodup hpids)).map Stop.holding
  refine (Multiset.coe_eq_coe.mpr hperm).trans ?_
  rw [add_comm]
  rfl

omit [DecidableEq H] in
/-- A stop that is over gives its port back. -/
theorem holdings_stopWaited {stop : Stop H} {exited : Bool} (hstop : stop ∈ m.stops)
    (hpids : m.pids.Nodup) (hover : (exited || stop.escalated) = true) :
    (m.stopWaited stop exited).holdings + {stop.holding} = m.holdings ∧
      (m.stopWaited stop exited).allocated = m.allocated.filter fun p => p ≠ stop.port := by
  rw [stopWaited, if_pos hover]
  refine ⟨?_, rfl⟩
  show _ = _ + _ + stopHoldings m.stops
  rw [stopHoldings_others hstop hpids]
  exact add_assoc _ _ _

omit [DecidableEq H] in
theorem unmoved_stopWaited {stop : Stop H} {exited : Bool} (hstop : stop ∈ m.stops)
    (hpids : m.pids.Nodup) (hover : ¬ (exited || stop.escalated) = true) :
    Unmoved m (m.stopWaited stop exited) := by
  rw [stopWaited, if_neg hover]
  refine ⟨?_, rfl, Nat.le_refl _⟩
  show _ + stopHoldings (_ ++ [_]) = _ + _ + stopHoldings m.stops
  rw [stopHoldings_others hstop hpids, stopHoldings, List.map_append, ← Multiset.coe_add]
  rfl

/-- The process of the agent that runs under its version. -/
def IsCurrent (m : AgentManager H) (c : Child H) (handle : AgentHandle) : Prop :=
  OrderedMap.get? c.hash m.running = some handle ∧ handle.pid = c.pid

/-- An agent whose process has exited gives its port back. -/
theorem holdings_cleanup {c : Child H} (hkeyed : Keyed m) (hcurrent : m.IsCurrent c handle) :
    (m.cleanup c).holdings + {handle.holding} = m.holdings ∧
      (m.cleanup c).allocated = m.allocated.filter fun p => p ≠ handle.port := by
  rw [cleanup, hcurrent.1]
  dsimp only
  rw [if_pos hcurrent.2]
  exact ⟨holdings_erase_running hkeyed.running hcurrent.1, rfl⟩

theorem next_cleanup (m : AgentManager H) (c : Child H) : (m.cleanup c).next = m.next := by
  rw [cleanup]
  split
  · split
    · rfl
    · rfl
  · rfl

theorem unmoved_cleanup {c : Child H} (hgone : ∀ handle, ¬ m.IsCurrent c handle) :
    Unmoved m (m.cleanup c) := by
  rw [cleanup]
  split
  · next handle hget =>
    rw [if_neg fun hpid => hgone handle ⟨hget, hpid⟩]
    exact ⟨rfl, rfl, Nat.le_refl _⟩
  · exact ⟨rfl, rfl, Nat.le_refl _⟩

/-! ## One step -/

/-- What a step does: the pool is called only where it says so. -/
inductive Effect (m : AgentManager H) (pool : Bool) (m' : AgentManager H) : Prop
  | unmoved (h : Unmoved m m')
  /-- a process is spawned -/
  | spawned (port : Nat) (held : m'.holdings + {(port, none)} = m.holdings + {(port, some m.next)})
      (ports : m'.allocated = m.allocated) (next : m'.next = m.next + 1)
  | pooled (hpool : pool = true) (taken dropped : Multiset Holding)
      (held : m'.holdings + dropped = m.holdings + taken) (fresh : taken.filterMap Prod.snd = 0)
      (next : m'.next = m.next)

end AgentManager

/-- The events at which a port may be taken or given back. -/
def AgentEvent.callsPool : AgentEvent H → Bool
  | .cached _ | .portBusy _ | .killed _ | .stopWaited _ _ | .cleanup _ => true
  | _ => false

namespace AgentManager

variable {m m' : AgentManager H} {config : AgentConfig H}

/-- No process is held twice, and every process that is held was spawned. -/
structure Held (m : AgentManager H) : Prop where
  sound : Sound m
  keyed : Keyed m
  pids : m.pids.Nodup
  spawned : ∀ pid ∈ m.pids, pid < m.next

end AgentManager

open AgentManager

variable {m m' : AgentManager H} {config : AgentConfig H}

theorem AgentStep.effect {e : AgentEvent H} (hstep : AgentStep config m e m') (hm : Held m) :
    Effect m e.callsPool m' := by
  have hallocate : ∀ hash boot id, OrderedMap.get? hash m.pending = some boot →
      Effect m true (m.allocatePort config hash id) := by
    intro hash boot id hget
    rcases holdings_allocatePort config hm.keyed hget id with
      ⟨port, -, -, hheld⟩ | ⟨-, -, hheld⟩
    · exact .pooled rfl _ _ hheld rfl (next_allocatePort id)
    · exact .pooled rfl 0 _ (hheld.trans (add_zero _).symm) rfl (next_allocatePort id)
  cases hstep with
  | ensureAgent => exact .unmoved (unmoved_ensureAgent hm.keyed)
  | stopAgent => exact .unmoved (unmoved_stopAgent hm.keyed)
  | stopAll => exact .unmoved ⟨rfl, rfl, Nat.le_refl _⟩
  | stopRunning boots front back =>
    have hwaited : Unmoved m { m with stopAlls := front ++ back } := ⟨rfl, rfl, Nat.le_refl _⟩
    exact .unmoved (hwaited.trans (unmoved_stopEach _ ⟨hm.keyed.running, hm.keyed.pending⟩))
  | sweepIdle => exact .unmoved (unmoved_stopEach _ hm.keyed)
  | beginRequest => exact .unmoved (unmoved_beginRequest hm.keyed)
  | endRequest => exact .unmoved (unmoved_endRequest hm.keyed)
  | downloaded hash id bytes h =>
    let cached := (m.extracted hash bytes).evictIfNeeded config.artifactCacheMaxBytes
    have hcached : Unmoved m cached := ⟨rfl, rfl, Nat.le_refl _⟩
    have hkeyed : Keyed cached := ⟨hm.keyed.running, hm.keyed.pending⟩
    exact .unmoved (hcached.trans (unmoved_setBoot hkeyed h rfl))
  | downloadFailed hash id h => exact .unmoved (unmoved_setBoot hm.keyed h rfl)
  | cached hash id h => exact hallocate hash _ id h
  | portBusy hash id port h => exact hallocate hash _ id h
  | portFree hash id port started h => exact .spawned port (holdings_spawn hm.keyed h) rfl rfl
  | healthy hash id port pid deadline h =>
    exact .unmoved (unmoved_ready hm.keyed h (hm.sound.alone hash _ h BootPhase.noConfusion))
  | unready hash id port pid deadline h => exact .unmoved (unmoved_setBoot hm.keyed h rfl)
  | killed hash id port pid deadline h =>
    exact .pooled rfl 0 {(port, some pid)}
      ((holdings_release_boot hm.keyed h rfl id).trans (add_zero _).symm) rfl rfl
  | settled hash id h =>
    exact .unmoved ⟨holdings_erase_pending hm.keyed.pending h rfl, rfl, Nat.le_refl _⟩
  | stopWaited stop exited hstop =>
    by_cases hover : (exited || stop.escalated) = true
    · have hheld := (holdings_stopWaited hstop hm.pids hover).1
      refine .pooled rfl 0 {stop.holding} (hheld.trans (add_zero _).symm) rfl ?_
      rw [AgentManager.stopWaited, if_pos hover]
      rfl
    · exact .unmoved (unmoved_stopWaited hstop hm.pids hover)
  | exit => exact .unmoved ⟨rfl, rfl, Nat.le_refl _⟩
  | exited => exact .unmoved ⟨rfl, rfl, Nat.le_refl _⟩
  | cleanup c =>
    by_cases hcurrent : ∃ handle, m.IsCurrent c handle
    · obtain ⟨handle, hcurrent⟩ := hcurrent
      have hheld := (holdings_cleanup hm.keyed hcurrent).1
      exact .pooled rfl 0 {handle.holding} (hheld.trans (add_zero _).symm) rfl (next_cleanup m c)
    · exact .unmoved (unmoved_cleanup fun handle h => hcurrent ⟨handle, h⟩)
  | pass => exact .unmoved ⟨rfl, rfl, Nat.le_refl _⟩

/-- A step that spawns nothing holds no new process. -/
theorem AgentManager.Effect.pids {pool : Bool} (h : Effect m pool m') (hm : Held m) :
    m'.pids.Nodup ∧ ∀ pid ∈ m'.pids, pid < m'.next := by
  cases h with
  | unmoved h =>
    rw [AgentManager.pids, h.held]
    exact ⟨hm.pids, fun pid hpid => (hm.spawned pid hpid).trans_le h.next⟩
  | spawned port held ports next =>
    have hpids := congrArg (Multiset.filterMap Prod.snd) held
    rw [Multiset.filterMap_add, Multiset.filterMap_add] at hpids
    change m'.pids + 0 = m.pids + {m.next} at hpids
    have heq : m'.pids = m.next ::ₘ m.pids := by
      rw [← Multiset.singleton_add, add_comm, ← hpids, add_zero]
    rw [heq, next]
    have hnew : m.next ∉ m.pids := fun h => absurd (hm.spawned _ h) (Nat.lt_irrefl _)
    refine ⟨Multiset.nodup_cons.mpr ⟨hnew, hm.pids⟩, ?_⟩
    intro pid hpid
    rcases Multiset.mem_cons.mp hpid with rfl | hpid
    · exact Nat.lt_succ_self _
    · exact (hm.spawned pid hpid).trans (Nat.lt_succ_self _)
  | pooled hpool taken dropped held fresh next =>
    have hpids := congrArg (Multiset.filterMap Prod.snd) held
    rw [Multiset.filterMap_add, Multiset.filterMap_add, fresh, add_zero] at hpids
    change m'.pids + _ = m.pids at hpids
    have hle : m'.pids ≤ m.pids := by
      rw [← hpids]
      exact Multiset.le_add_right _ _
    rw [next]
    exact ⟨Multiset.nodup_of_le hle hm.pids,
      fun pid hpid => hm.spawned pid (Multiset.mem_of_le hle hpid)⟩

theorem AgentStep.held {e : AgentEvent H} (hstep : AgentStep config m e m') (hm : Held m) :
    Held m' where
  sound := (hstep.oneAgent_iff hm.sound).1
  keyed := hm.keyed.step hstep
  pids := ((hstep.effect hm).pids hm).1
  spawned := ((hstep.effect hm).pids hm).2

theorem AgentManager.held_create (now : Nat) (cache : List (H × CacheEntry)) :
    Held (createAgentManager now cache) where
  sound := sound_create now cache
  keyed := ⟨List.nodup_nil, List.nodup_nil⟩
  pids := Multiset.nodup_zero
  spawned _ hpid := absurd hpid (Multiset.notMem_zero _)

/-- In every run of a worker no process is held twice, by boots, agents and stops together, and
each that is held was spawned; the table has agents that are ready only; and a version whose boot
goes on has no agent in the table. -/
theorem processes_kept (config : AgentConfig H) (now : Nat) (cache : List (H × CacheEntry))
    (moves : List (Move (AgentManager H) (AgentEvent H))) (m : AgentManager H)
    (hrun : Trace (AgentStep config) (createAgentManager now cache) moves m) :
    m.pids.Nodup ∧ (∀ pid ∈ m.pids, pid < m.next) ∧
    (∀ hash handle, OrderedMap.get? hash m.running = some handle → handle.state = .ready) ∧
    ∀ hash boot, OrderedMap.get? hash m.pending = some boot → boot.phase ≠ .settled →
      OrderedMap.get? hash m.running = none := by
  have hm : Held m := hrun.invariant Held (fun _ => True) (fun _ hstep _ hm => hstep.held hm)
    (fun _ _ => trivial) (AgentManager.held_create now cache)
  exact ⟨hm.pids, hm.spawned, hm.sound.ready, hm.sound.alone⟩

theorem processes_kept_two : ∃ moves m,
    Trace (AgentStep smallConfig) (createAgentManager 0 []) moves m ∧ m.pids = {1, 3} ∧
      m.pids.Nodup := by
  have hrun : Trace (AgentStep smallConfig) (createAgentManager 0 []) _ _ :=
    .cons (.ensureAgent _ 7) (.cons (.downloaded _ 7 0 100 rfl) (.cons (.cached _ 7 0 rfl)
      (.cons (.portFree _ 7 0 4000 true rfl) (.cons (.healthy _ 7 0 4000 1 30000 rfl)
      (.cons (.ensureAgent _ 8) (.cons (.downloaded _ 8 2 100 rfl) (.cons (.cached _ 8 2 rfl)
      (.cons (.portFree _ 8 2 4001 true rfl) (.nil _)))))))))
  exact ⟨_, _, hrun, by decide, (processes_kept smallConfig 0 [] _ _ hrun).1⟩

end InvisibleString.Runtime
