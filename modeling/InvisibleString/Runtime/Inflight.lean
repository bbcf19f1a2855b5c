import InvisibleString.Runtime.Holdings
import Mathlib.Algebra.BigOperators.Group.List.Basic

/- # `Runtime.Inflight` — the proxied requests of a worker

A request is counted at the agent of its version when it begins, and counted off at the agent of
its version when it ends.  By then the process it was sent to may be gone and another process of
the version may run.  The idle reaper looks at the counts.

**Proved here.**

    in every run the counts are those of the processes and the reaper spares the processes with
      open requests, exactly when no request ends while its own process is gone, another one of
      its version runs and some process has an open request  (`inflight_follows_process`)
    a request that ends late is counted off at the wrong process  (`late_end_miscounts`)
-/

namespace InvisibleString.Runtime

open Transition (Move Trace)
open AgentManager

variable {H : Type} [DecidableEq H]

/-! ## Counting -/

/-- A request that has begun and not ended, with the process it was sent to. -/
structure OpenRequest (H : Type) where
  hash : H
  pid : Nat

structure RequestLedger (H : Type) where
  manager : AgentManager H
  inflightTotal : Int
  opened : List (OpenRequest H)

inductive InflightEvent (H : Type) where
  | agent (e : AgentEvent H)
  | finish (request : OpenRequest H)

/-- The events at which the total may change. -/
def AgentEvent.countsRequests : AgentEvent H → Bool
  | .stopAgent _ | .stopRunning | .sweepIdle | .beginRequest _ | .endRequest _ | .cleanup _ => true
  | _ => false

/-- The agents that `sweepIdle` stops. -/
def AgentManager.idleAgents (m : AgentManager H) (config : AgentConfig H) : List H :=
  (m.running.filter fun e =>
    e.2.state = .ready && e.2.inflight = 0 &&
      decide (config.agentIdleStopMs ≤ m.now - e.2.lastActivityAt)).map Prod.fst

namespace RequestLedger

/-- A worker that has just started. -/
def started (now : Nat) (cache : List (H × CacheEntry)) : RequestLedger H where
  manager := createAgentManager now cache
  inflightTotal := 0
  opened := []

def beginRequest (l : RequestLedger H) (hash : H) : RequestLedger H :=
  match OrderedMap.get? hash l.manager.running with
  | some handle =>
    if handle.state = .ready then
      { manager := l.manager.beginRequest hash
        inflightTotal := l.inflightTotal + 1
        opened := l.opened ++ [⟨hash, handle.pid⟩] }
    else l
  | none => l

def endRequest (l : RequestLedger H) (hash : H) : RequestLedger H :=
  match OrderedMap.get? hash l.manager.running with
  | some _ =>
    { l with
      manager := l.manager.endRequest hash
      inflightTotal := max 0 (l.inflightTotal - 1) }
  | none => l

def stopAgent (l : RequestLedger H) (config : AgentConfig H) (hash : H) : RequestLedger H :=
  match OrderedMap.get? hash l.manager.running with
  | some handle =>
    { l with
      manager := l.manager.stopAgent config hash
      inflightTotal := l.inflightTotal - handle.inflight }
  | none => l

def stopEach (l : RequestLedger H) (config : AgentConfig H) (hashes : List H) :
    RequestLedger H :=
  hashes.foldl (fun l hash => l.stopAgent config hash) l

def cleanup (l : RequestLedger H) (c : Child H) : RequestLedger H :=
  match OrderedMap.get? c.hash l.manager.running with
  | some handle =>
    if handle.pid = c.pid then
      { l with
        manager := l.manager.cleanup c
        inflightTotal := l.inflightTotal - handle.inflight }
    else { l with manager := l.manager.cleanup c }
  | none => { l with manager := l.manager.cleanup c }

end RequestLedger

inductive RequestStep (config : AgentConfig H) :
    RequestLedger H → InflightEvent H → RequestLedger H → Prop
  | other (l : RequestLedger H) (e : AgentEvent H) (m : AgentManager H)
      (h : AgentStep config l.manager e m) (hquiet : e.countsRequests = false) :
      RequestStep config l (.agent e) { l with manager := m }
  | stopAgent (l : RequestLedger H) (hash : H) :
      RequestStep config l (.agent (.stopAgent hash)) (l.stopAgent config hash)
  | stopRunning (l : RequestLedger H) (boots : List Nat) (front back : List (List Nat))
      (h : l.manager.stopAlls = front ++ boots :: back)
      (hsettled : ∀ e ∈ l.manager.pending, e.2.id ∉ boots) :
      RequestStep config l (.agent .stopRunning)
        ({ l with manager := { l.manager with stopAlls := front ++ back } }.stopEach config
          (l.manager.running.map Prod.fst))
  | sweepIdle (l : RequestLedger H) :
      RequestStep config l (.agent .sweepIdle) (l.stopEach config (l.manager.idleAgents config))
  | beginRequest (l : RequestLedger H) (hash : H) :
      RequestStep config l (.agent (.beginRequest hash)) (l.beginRequest hash)
  -- the caller has kept the version, not the process
  | finish (l : RequestLedger H) (request : OpenRequest H) (front back : List (OpenRequest H))
      (h : l.opened = front ++ request :: back) :
      RequestStep config l (.finish request)
        ({ l with opened := front ++ back }.endRequest request.hash)
  | cleanup (l : RequestLedger H) (c : Child H) (h : c ∈ l.manager.children)
      (hexited : c.exited = true) (hwatched : c.watched = true) :
      RequestStep config l (.agent (.cleanup c.pid)) (l.cleanup c)

/-! ## What is to hold -/

namespace RequestLedger

/-- How many open requests were sent to the process. -/
def openAt (l : RequestLedger H) (pid : Nat) : Nat := l.opened.countP fun r => r.pid = pid

/-- An agent that runs has the process. -/
def Live (l : RequestLedger H) (pid : Nat) : Prop :=
  ∃ hash handle, OrderedMap.get? hash l.manager.running = some handle ∧ handle.pid = pid

/-- The counts are those of the processes that are live. -/
structure Accounted (l : RequestLedger H) : Prop where
  own : ∀ hash handle, OrderedMap.get? hash l.manager.running = some handle →
    handle.inflight = l.openAt handle.pid
  total : l.inflightTotal = ((l.manager.running.map fun e => e.2.inflight).sum : Nat)

end RequestLedger

/-- The idle reaper stops no process that has an open request. -/
def SparesOpen (move : Move (RequestLedger H) (InflightEvent H)) : Prop :=
  match move.event with
  | .agent .sweepIdle => ∀ r ∈ move.before.opened, move.before.Live r.pid → move.after.Live r.pid
  | _ => True

/-- A request ends while its process is live, while no process of its version is live, or while
no live process has an open request. -/
def OwnEnd (move : Move (RequestLedger H) (InflightEvent H)) : Prop :=
  match move.event with
  | .finish request =>
    (∀ handle, OrderedMap.get? request.hash move.before.manager.running = some handle →
        handle.pid = request.pid) ∨
      ∀ r ∈ move.before.opened, ¬ move.before.Live r.pid
  | _ => True

/-! ## Agents and their processes -/

section Agents

variable {m m' : AgentManager H} {config : AgentConfig H}

def inflightSum (running : List (H × AgentHandle)) : Nat :=
  (running.map fun e => e.2.inflight).sum

omit [DecidableEq H] in
theorem inflightSum_perm {running running' : List (H × AgentHandle)} (h : running.Perm running') :
    inflightSum running = inflightSum running' := (h.map _).sum_eq

theorem inflightSum_erase {hash : H} {handle : AgentHandle} {running : List (H × AgentHandle)}
    (hunique : OrderedMap.UniqueKeys running)
    (hget : OrderedMap.get? hash running = some handle) :
    inflightSum running = handle.inflight + inflightSum (OrderedMap.erase hash running) :=
  inflightSum_perm (OrderedMap.perm_erase hunique hget)

theorem inflightSum_set {hash : H} {old : AgentHandle} (handle : AgentHandle)
    {running : List (H × AgentHandle)}
    (hunique : OrderedMap.UniqueKeys running)
    (hget : OrderedMap.get? hash running = some old) :
    inflightSum (OrderedMap.set hash handle running) + old.inflight =
      inflightSum running + handle.inflight := by
  have hbefore := inflightSum_erase hunique hget
  have hafter : inflightSum (OrderedMap.set hash handle running) =
      handle.inflight + inflightSum (OrderedMap.erase hash running) :=
    inflightSum_perm (OrderedMap.perm_set hunique)
  omega

theorem inflightSum_set_new {hash : H} (handle : AgentHandle) {running : List (H × AgentHandle)}
    (hget : OrderedMap.get? hash running = none) :
    inflightSum (OrderedMap.set hash handle running) = inflightSum running + handle.inflight := by
  rw [OrderedMap.set_of_none hget, inflightSum, List.map_append, List.sum_append]
  rfl

/-- The agents that run have different processes. -/
theorem AgentManager.Held.agents_nodup (hm : Held m) :
    (m.running.map fun e => e.2.pid).Nodup := by
  have hle : (agentHoldings m.running).filterMap Prod.snd ≤ m.pids := by
    refine Multiset.filterMap_le_filterMap _ ?_
    exact (Multiset.le_add_left _ _).trans (Multiset.le_add_right _ _)
  have heq : (agentHoldings m.running).filterMap Prod.snd =
      ((m.running.map fun e => e.2.pid : List Nat) : Multiset Nat) := by
    rw [agentHoldings, Multiset.filterMap_coe, List.filterMap_map]
    exact congrArg _ (congrFun (List.filterMap_eq_map (f := fun e => e.2.pid)) m.running)
  exact Multiset.coe_nodup.mp (heq ▸ Multiset.nodup_of_le hle hm.pids)

theorem AgentManager.Held.eq_of_pid (hm : Held m) {hash hash' : H} {handle handle' : AgentHandle}
    (hget : OrderedMap.get? hash m.running = some handle)
    (hget' : OrderedMap.get? hash' m.running = some handle') (hpid : handle.pid = handle'.pid) :
    hash = hash' :=
  congrArg Prod.fst (List.inj_on_of_nodup_map hm.agents_nodup (OrderedMap.mem_of_get? hget)
    (OrderedMap.mem_of_get? hget') hpid)

/-- The process of the boot of a version. -/
def AgentManager.bootPid (m : AgentManager H) (hash : H) : Option Nat :=
  (OrderedMap.get? hash m.pending).bind fun boot => boot.phase.pid?

theorem AgentManager.bootPid_setBoot {hash : H} (hash' : H) (id : Nat) (phase : BootPhase) :
    (m.setBoot hash id phase).bootPid hash' =
      if hash' = hash then phase.pid? else m.bootPid hash' := by
  show (OrderedMap.get? hash' (OrderedMap.set hash ⟨id, phase⟩ m.pending)).bind _ = _
  rw [OrderedMap.get?_set]
  split
  · rfl
  · rfl

/-- No boot has got a process. -/
def KeepsBoots (m m' : AgentManager H) : Prop :=
  ∀ hash pid, m'.bootPid hash = some pid → m.bootPid hash = some pid

theorem AgentManager.Quiet.keepsBoots (h : Quiet m m') : KeepsBoots m m' := by
  intro hash pid hpid
  obtain ⟨boot, hget, hphase⟩ := Option.bind_eq_some_iff.mp hpid
  exact Option.bind_eq_some_iff.mpr ⟨boot, h.pending hash boot hget, hphase⟩

theorem KeepsBoots.setBoot {hash : H} {id : Nat} {phase : BootPhase} (h : KeepsBoots m m')
    (hphase : phase.pid? = none ∨ phase.pid? = m.bootPid hash) :
    KeepsBoots m (m'.setBoot hash id phase) := by
  intro hash' pid hpid
  rw [bootPid_setBoot] at hpid
  split at hpid
  · next heq =>
    rw [heq]
    rcases hphase with hphase | hphase
    · rw [hphase] at hpid
      cases hpid
    · exact hphase.symm.trans hpid
  · exact h hash' pid hpid

theorem keepsBoots_bootAgent (m : AgentManager H) (hash : H) :
    KeepsBoots m (m.bootAgent config hash) := by
  have hstarted : Quiet m { m with next := m.next + 1 } :=
    .of_eq rfl rfl (Nat.le_succ _) rfl rfl
  rw [bootAgent]
  split
  · exact hstarted.keepsBoots.setBoot (.inl rfl)
  · split
    · exact (hstarted.trans (quiet_touch _ hash)).keepsBoots.setBoot (.inl rfl)
    · exact hstarted.keepsBoots.setBoot (.inl rfl)

theorem keepsBoots_ensureAgent (m : AgentManager H) (hash : H) :
    KeepsBoots m (m.ensureAgent config hash) := by
  have hboot : KeepsBoots m (if (OrderedMap.get? hash m.pending).isSome then m
      else m.bootAgent config hash) := by
    split
    · exact (Quiet.refl m).keepsBoots
    · exact keepsBoots_bootAgent m hash
  rw [ensureAgent]
  split
  · next handle hget =>
    split
    · have hset : Quiet m (m.setHandle hash { handle with lastActivityAt := m.now }) :=
        quiet_setHandle hget id
      exact (hset.trans (quiet_touch _ hash)).keepsBoots
    · exact hboot
  · exact hboot

theorem keepsBoots_allocatePort (m : AgentManager H) (hash : H) (id : Nat) :
    KeepsBoots m (m.allocatePort config hash id) := by
  rw [allocatePort]
  split
  · next port _ =>
    have hquiet : Quiet m { m with allocated := m.allocated ++ [port] } :=
      .of_eq rfl rfl (Nat.le_refl _) rfl rfl
    exact hquiet.keepsBoots.setBoot (.inl rfl)
  · exact (Quiet.refl m).keepsBoots.setBoot (.inl rfl)

/-- A boot gets the process that is spawned. -/
theorem AgentStep.boots {e : AgentEvent H} (hstep : AgentStep config m e m') (hash : H) (pid : Nat)
    (hpid : m'.bootPid hash = some pid) : m.bootPid hash = some pid ∨ pid = m.next := by
  cases hstep with
  | portFree hash' id port started h =>
    rw [spawn, bootPid_setBoot] at hpid
    split at hpid
    · cases hpid
      exact .inr rfl
    · exact .inl hpid
  | ensureAgent hash' => exact .inl (keepsBoots_ensureAgent m hash' hash pid hpid)
  | stopAgent hash' => exact .inl ((quiet_stopAgent m config hash').keepsBoots hash pid hpid)
  | stopAll => exact .inl hpid
  | stopRunning boots front back =>
    exact .inl ((quiet_stopEach config _ { m with stopAlls := front ++ back }).keepsBoots hash pid
      hpid)
  | sweepIdle => exact .inl ((quiet_stopEach config _ m).keepsBoots hash pid hpid)
  | beginRequest hash' => exact .inl ((quiet_beginRequest m hash').keepsBoots hash pid hpid)
  | endRequest hash' => exact .inl ((quiet_endRequest m hash').keepsBoots hash pid hpid)
  | downloaded hash' id bytes h =>
    have hkeeps : KeepsBoots m ((m.extracted hash' bytes).evictIfNeeded
      config.artifactCacheMaxBytes) := fun _ _ h => h
    exact .inl (hkeeps.setBoot (.inl rfl) hash pid hpid)
  | downloadFailed hash' id h =>
    exact .inl ((Quiet.refl m).keepsBoots.setBoot (.inl rfl) hash pid hpid)
  | cached hash' id h => exact .inl (keepsBoots_allocatePort m hash' id hash pid hpid)
  | portBusy hash' id port h => exact .inl (keepsBoots_allocatePort m hash' id hash pid hpid)
  | healthy hash' id port pid' deadline h =>
    have hkeeps : KeepsBoots m ((m.setHandle hash' ⟨port, pid', .ready, m.now, 0⟩).updateChild pid'
      fun c => { c with watched := true }) := fun _ _ h => h
    exact .inl (hkeeps.setBoot (.inl rfl) hash pid hpid)
  | unready hash' id port pid' deadline h _ =>
    refine .inl ((Quiet.refl m).keepsBoots.setBoot (.inr ?_) hash pid hpid)
    rw [bootPid, h]
    rfl
  | killed hash' id port pid' deadline h _ =>
    exact .inl ((quiet_release m port).keepsBoots.setBoot (.inl rfl) hash pid hpid)
  | settled hash' id h => exact .inl ((quiet_erase_pending m hash').keepsBoots hash pid hpid)
  | stopWaited stop exited _ _ =>
    exact .inl ((quiet_stopWaited m stop exited).keepsBoots hash pid hpid)
  | exit pid' => exact .inl hpid
  | exited c _ _ => exact .inl hpid
  | cleanup c _ _ _ => exact .inl ((quiet_cleanup m c).keepsBoots hash pid hpid)
  | pass ms => exact .inl hpid

theorem BootPhase.holding_of_pid {phase : BootPhase} {pid : Nat} (h : phase.pid? = some pid) :
    ∃ port, phase.holding = some (port, some pid) := by
  cases phase with
  | polling port pid' deadline =>
    cases h
    exact ⟨port, rfl⟩
  | killing port pid' deadline =>
    cases h
    exact ⟨port, rfl⟩
  | downloading => cases h
  | cached => cases h
  | probing port => cases h
  | settled => cases h

theorem AgentManager.Held.boot_ne (hm : Held m) {hash hash' : H} {handle : AgentHandle} {pid : Nat}
    (hboot : m.bootPid hash = some pid) (hget : OrderedMap.get? hash' m.running = some handle) :
    handle.pid ≠ pid := by
  rintro rfl
  have hpids : ((bootHoldings m.pending).filterMap Prod.snd + (agentHoldings m.running).filterMap
      Prod.snd + (stopHoldings m.stops).filterMap Prod.snd).Nodup := by
    rw [← Multiset.filterMap_add, ← Multiset.filterMap_add]
    exact hm.pids
  obtain ⟨hfirst, -, -⟩ := Multiset.nodup_add.mp hpids
  obtain ⟨-, -, hdisjoint⟩ := Multiset.nodup_add.mp hfirst
  obtain ⟨boot, hpending, hphase⟩ := Option.bind_eq_some_iff.mp hboot
  obtain ⟨port, hholding⟩ := BootPhase.holding_of_pid hphase
  have hmem : (port, some handle.pid) ∈ bootHoldings m.pending :=
    Multiset.mem_coe.mpr (List.mem_filterMap.mpr
      ⟨(hash, boot), OrderedMap.mem_of_get? hpending, hholding⟩)
  have hmem' : handle.holding ∈ agentHoldings m.running :=
    Multiset.mem_coe.mpr (List.mem_map_of_mem (OrderedMap.mem_of_get? hget))
  exact Multiset.disjoint_left.mp hdisjoint ((Multiset.mem_filterMap _ _).mpr ⟨_, hmem, rfl⟩)
    ((Multiset.mem_filterMap _ _).mpr ⟨_, hmem', rfl⟩)

theorem AgentManager.Held.agent_spawned (hm : Held m) {hash : H} {handle : AgentHandle}
    (hget : OrderedMap.get? hash m.running = some handle) : handle.pid < m.next := by
  have hmem : handle.holding ∈ agentHoldings m.running :=
    Multiset.mem_coe.mpr (List.mem_map_of_mem (OrderedMap.mem_of_get? hget))
  have hmem' : handle.holding ∈ m.holdings :=
    Multiset.mem_add.mpr (.inl (Multiset.mem_add.mpr (.inr hmem)))
  exact hm.spawned _ ((Multiset.mem_filterMap _ _).mpr ⟨_, hmem', rfl⟩)

theorem AgentStep.next_le {e : AgentEvent H} (hstep : AgentStep config m e m') (hm : Held m) :
    m.next ≤ m'.next := by
  rcases hstep.effect hm with hunmoved | ⟨-, -, -, hnext⟩ | ⟨-, -, -, -, -, hnext⟩
  · exact hunmoved.next
  · rw [hnext]
    exact Nat.le_succ _
  · rw [hnext]

/-! ## Agents that stay -/

/-- What counts of an agent. -/
def AgentHandle.counts (handle : AgentHandle) : Nat × Nat := (handle.pid, handle.inflight)

/-- The agents that run stay, with their processes and counts. -/
structure SameAgents (m m' : AgentManager H) : Prop where
  running : ∀ hash, (OrderedMap.get? hash m'.running).map AgentHandle.counts =
    (OrderedMap.get? hash m.running).map AgentHandle.counts
  sum : inflightSum m'.running = inflightSum m.running

theorem SameAgents.of_eq (h : m'.running = m.running) : SameAgents m m' :=
  ⟨fun _ => by rw [h], by rw [h]⟩

theorem running_touch (m : AgentManager H) (hash : H) : (m.touch hash).running = m.running := by
  rw [touch]
  split
  · rfl
  · rfl

theorem running_bootAgent (m : AgentManager H) (hash : H) :
    (m.bootAgent config hash).running = m.running := by
  rw [bootAgent]
  split
  · rfl
  · split
    · exact running_touch _ hash
    · rfl

theorem running_allocatePort (m : AgentManager H) (hash : H) (id : Nat) :
    (m.allocatePort config hash id).running = m.running := by
  rw [allocatePort]
  split
  · rfl
  · rfl

omit [DecidableEq H] in
theorem running_stopWaited (m : AgentManager H) (stop : Stop H) (exited : Bool) :
    (m.stopWaited stop exited).running = m.running := by
  rw [stopWaited]
  split
  · rfl
  · rfl

theorem sameAgents_ensureAgent (hm : Held m) (hash : H) :
    SameAgents m (m.ensureAgent config hash) := by
  have hboot : SameAgents m (if (OrderedMap.get? hash m.pending).isSome then m
      else m.bootAgent config hash) := by
    split
    · exact .of_eq rfl
    · exact .of_eq (running_bootAgent m hash)
  rw [ensureAgent]
  split
  · next handle hget =>
    split
    · refine ⟨fun hash' => ?_, ?_⟩
      · rw [running_touch]
        show (OrderedMap.get? hash' (OrderedMap.set hash _ m.running)).map _ = _
        rw [OrderedMap.get?_set]
        split
        · next heq =>
          rw [heq, hget]
          rfl
        · rfl
      · rw [running_touch]
        have hsum := inflightSum_set { handle with lastActivityAt := m.now } hm.keyed.running hget
        exact Nat.add_right_cancel hsum
    · exact hboot
  · exact hboot

/-- A step that counts nothing leaves the agents as they are, or an agent begins to run. -/
theorem AgentStep.agents {e : AgentEvent H} (hstep : AgentStep config m e m') (hm : Held m)
    (hquiet : e.countsRequests = false) :
    SameAgents m m' ∨ ∃ hash id port pid deadline,
      OrderedMap.get? hash m.pending = some ⟨id, .polling port pid deadline⟩ ∧
        m' = m.ready hash id port pid := by
  cases hstep with
  | ensureAgent hash => exact .inl (sameAgents_ensureAgent hm hash)
  | healthy hash id port pid deadline h => exact .inr ⟨hash, id, port, pid, deadline, h, rfl⟩
  | cached hash id h => exact .inl (.of_eq (running_allocatePort m hash id))
  | portBusy hash id port h => exact .inl (.of_eq (running_allocatePort m hash id))
  | stopWaited stop exited _ _ => exact .inl (.of_eq (running_stopWaited m stop exited))
  | stopAll => exact .inl (.of_eq rfl)
  | downloaded => exact .inl (.of_eq rfl)
  | downloadFailed => exact .inl (.of_eq rfl)
  | portFree => exact .inl (.of_eq rfl)
  | unready => exact .inl (.of_eq rfl)
  | killed => exact .inl (.of_eq rfl)
  | settled => exact .inl (.of_eq rfl)
  | exit => exact .inl (.of_eq rfl)
  | exited => exact .inl (.of_eq rfl)
  | pass => exact .inl (.of_eq rfl)
  | stopAgent => cases hquiet
  | stopRunning => cases hquiet
  | sweepIdle => cases hquiet
  | beginRequest => cases hquiet
  | endRequest => cases hquiet
  | cleanup => cases hquiet

end Agents

/-! ## Open requests -/

open RequestLedger

variable {config : AgentConfig H} {l l' : RequestLedger H} {m : AgentManager H}

/-- The open requests were sent to processes of their versions. -/
structure SentOpen (l : RequestLedger H) : Prop where
  held : Held l.manager
  spawned : ∀ r ∈ l.opened, r.pid < l.manager.next
  booted : ∀ r ∈ l.opened, ∀ hash, l.manager.bootPid hash ≠ some r.pid
  own : ∀ r ∈ l.opened, ∀ hash handle, OrderedMap.get? hash l.manager.running = some handle →
    handle.pid = r.pid → hash = r.hash

theorem SentOpen.started (now : Nat) (cache : List (H × CacheEntry)) :
    SentOpen (.started now cache) where
  held := held_create now cache
  spawned _ h := absurd h List.not_mem_nil
  booted _ h := absurd h List.not_mem_nil
  own _ h := absurd h List.not_mem_nil

/-- A step of the worker, whatever it does to the counts. -/
theorem SentOpen.step {e : AgentEvent H} (h : SentOpen l) (hstep : AgentStep config l.manager e m)
    (hagents : ∀ hash handle, OrderedMap.get? hash m.running = some handle →
      l.manager.bootPid hash = some handle.pid ∨
        ∃ old, OrderedMap.get? hash l.manager.running = some old ∧ old.pid = handle.pid)
    (total : Int) : SentOpen ⟨m, total, l.opened⟩ where
  held := hstep.held h.held
  spawned r hr := (h.spawned r hr).trans_le (hstep.next_le h.held)
  booted r hr hash hpid := by
    rcases hstep.boots hash r.pid hpid with hbefore | hnew
    · exact h.booted r hr hash hbefore
    · exact absurd (h.spawned r hr) (by rw [hnew]; exact Nat.lt_irrefl _)
  own r hr hash handle hget hpid := by
    rcases hagents hash handle hget with hboot | ⟨old, hold, hsame⟩
    · exact absurd (hpid ▸ hboot) (h.booted r hr hash)
    · exact h.own r hr hash old hold (hsame.trans hpid)

theorem SameAgents.old {m m' : AgentManager H} (h : SameAgents m m') {hash : H}
    {handle : AgentHandle} (hget : OrderedMap.get? hash m'.running = some handle) :
    ∃ old, OrderedMap.get? hash m.running = some old ∧ old.counts = handle.counts := by
  have hsame := h.running hash
  rw [hget] at hsame
  exact Option.map_eq_some_iff.mp hsame.symm

theorem RequestLedger.Accounted.started (now : Nat) (cache : List (H × CacheEntry)) :
    Accounted (.started now cache) where
  own _ _ hget := by cases hget
  total := rfl

theorem RequestLedger.Accounted.same (h : Accounted l) (hsame : SameAgents l.manager m) :
    Accounted { l with manager := m } where
  own hash handle hget := by
    obtain ⟨old, hold, hcounts⟩ := hsame.old hget
    have hinflight : old.inflight = handle.inflight := congrArg Prod.snd hcounts
    have hpid : old.pid = handle.pid := congrArg Prod.fst hcounts
    rw [← hinflight, ← hpid]
    exact h.own hash old hold
  total := h.total.trans (congrArg Nat.cast hsame.sum.symm)

theorem RequestLedger.Accounted.ready {hash : H} {id port pid deadline : Nat} (h : Accounted l)
    (hsent : SentOpen l)
    (hget : OrderedMap.get? hash l.manager.pending = some ⟨id, .polling port pid deadline⟩) :
    Accounted { l with manager := l.manager.ready hash id port pid } where
  own hash' handle hget' := by
    change OrderedMap.get? hash' (OrderedMap.set hash _ l.manager.running) = some handle at hget'
    rw [OrderedMap.get?_set] at hget'
    split at hget'
    · cases hget'
      have hboot : l.manager.bootPid hash = some pid := by
        rw [bootPid, hget]
        rfl
      refine (List.countP_eq_zero.mpr fun r hr hpid => ?_).symm
      exact hsent.booted r hr hash (hboot.trans (congrArg some (of_decide_eq_true hpid).symm))
    · exact h.own hash' handle hget'
  total := by
    have hnone := hsent.held.sound.alone hash _ hget BootPhase.noConfusion
    have hsum := inflightSum_set_new ⟨port, pid, .ready, l.manager.now, 0⟩ hnone
    exact h.total.trans (congrArg Nat.cast hsum.symm)

theorem SentOpen.other {e : AgentEvent H} (hsent : SentOpen l)
    (hstep : AgentStep config l.manager e m) (hquiet : e.countsRequests = false) :
    SentOpen { l with manager := m } ∧ (Accounted l → Accounted { l with manager := m }) := by
  rcases hstep.agents hsent.held hquiet with hsame | ⟨hash, id, port, pid, deadline, hget, rfl⟩
  · refine ⟨hsent.step hstep (fun hash handle hget => .inr ?_) _, fun h => h.same hsame⟩
    obtain ⟨old, hold, hcounts⟩ := hsame.old hget
    exact ⟨old, hold, congrArg Prod.fst hcounts⟩
  · refine ⟨hsent.step hstep (fun hash' handle hget' => ?_) _, fun h => h.ready hsent hget⟩
    change OrderedMap.get? hash' (OrderedMap.set hash _ l.manager.running) = some handle at hget'
    rw [OrderedMap.get?_set] at hget'
    split at hget'
    · next heq =>
      cases hget'
      left
      rw [heq, bootPid, hget]
      rfl
    · exact .inr ⟨handle, hget', rfl⟩

theorem RequestLedger.Accounted.erase {hash : H} {handle : AgentHandle} (h : Accounted l)
    (hsent : SentOpen l) (hget : OrderedMap.get? hash l.manager.running = some handle)
    (hrunning : m.running = OrderedMap.erase hash l.manager.running) :
    Accounted ⟨m, l.inflightTotal - handle.inflight, l.opened⟩ where
  own hash' handle' hget' := by
    change OrderedMap.get? hash' m.running = some handle' at hget'
    rw [hrunning, OrderedMap.get?_erase] at hget'
    split at hget'
    · cases hget'
    · exact h.own hash' handle' hget'
  total := by
    have hsum := inflightSum_erase hsent.held.keyed.running hget
    show l.inflightTotal - handle.inflight = (inflightSum m.running : Nat)
    have htotal : l.inflightTotal = (inflightSum l.manager.running : Nat) := h.total
    rw [hrunning]
    omega

theorem running_stopAgent (config : AgentConfig H) {hash : H} {handle : AgentHandle}
    (hget : OrderedMap.get? hash m.running = some handle) :
    (m.stopAgent config hash).running = OrderedMap.erase hash m.running := by
  rw [AgentManager.stopAgent, hget]
  exact running_touch _ hash

theorem SentOpen.stopAgent (config : AgentConfig H) (hsent : SentOpen l) (hash : H) :
    SentOpen (l.stopAgent config hash) ∧ (Accounted l → Accounted (l.stopAgent config hash)) := by
  rw [RequestLedger.stopAgent]
  split
  · next handle hget =>
    have hrunning := running_stopAgent config hget
    refine ⟨hsent.step (.stopAgent l.manager hash) (fun hash' handle' hget' => .inr ?_) _,
      fun h => h.erase hsent hget hrunning⟩
    rw [hrunning, OrderedMap.get?_erase] at hget'
    split at hget'
    · cases hget'
    · exact ⟨handle', hget', rfl⟩
  · exact ⟨hsent, id⟩

theorem SentOpen.stopEach (config : AgentConfig H) (hashes : List H) (hsent : SentOpen l) :
    SentOpen (l.stopEach config hashes) ∧ (Accounted l → Accounted (l.stopEach config hashes)) := by
  induction hashes generalizing l with
  | nil => exact ⟨hsent, id⟩
  | cons hash hashes ih =>
    obtain ⟨hstopped, hcounts⟩ := hsent.stopAgent config hash
    obtain ⟨hrest, hcounts'⟩ := ih hstopped
    exact ⟨hrest, fun h => hcounts' (hcounts h)⟩

theorem running_cleanup_of_current {c : Child H} {handle : AgentHandle}
    (hget : OrderedMap.get? c.hash m.running = some handle) (hpid : handle.pid = c.pid) :
    (m.cleanup c).running = OrderedMap.erase c.hash m.running := by
  rw [AgentManager.cleanup, hget]
  dsimp only
  rw [if_pos hpid]
  rfl

theorem running_cleanup {c : Child H}
    (hgone : ∀ handle, OrderedMap.get? c.hash m.running = some handle → handle.pid ≠ c.pid) :
    (m.cleanup c).running = m.running := by
  rw [AgentManager.cleanup]
  split
  · next handle hget =>
    rw [if_neg (hgone handle hget)]
    rfl
  · rfl

theorem SentOpen.cleanup {c : Child H} (hsent : SentOpen l)
    (hstep : AgentStep config l.manager (.cleanup c.pid) (l.manager.cleanup c)) :
    SentOpen (l.cleanup c) ∧ (Accounted l → Accounted (l.cleanup c)) := by
  have hkept : (l.manager.cleanup c).running = l.manager.running →
      SentOpen { l with manager := l.manager.cleanup c } ∧
        (Accounted l → Accounted { l with manager := l.manager.cleanup c }) := by
    intro hrunning
    refine ⟨hsent.step hstep (fun hash handle hget => .inr ⟨handle, hrunning ▸ hget, rfl⟩) _, ?_⟩
    exact fun h => h.same (.of_eq hrunning)
  rw [RequestLedger.cleanup]
  split
  · next handle hget =>
    split
    · next hpid =>
      have hrunning := running_cleanup_of_current hget hpid
      refine ⟨hsent.step hstep (fun hash' handle' hget' => .inr ?_) _,
        fun h => h.erase hsent hget hrunning⟩
      rw [hrunning, OrderedMap.get?_erase] at hget'
      split at hget'
      · cases hget'
      · exact ⟨handle', hget', rfl⟩
    · next hpid =>
      refine hkept (running_cleanup fun handle' hget' => ?_)
      cases hget.symm.trans hget'
      exact hpid
  · next hget =>
    refine hkept (running_cleanup fun handle' hget' => ?_)
    cases hget.symm.trans hget'

/-! ## Requests that begin and end -/

theorem SentOpen.add {hash : H} {handle : AgentHandle} (hsent : SentOpen l)
    (hget : OrderedMap.get? hash l.manager.running = some handle) :
    SentOpen { l with opened := l.opened ++ [⟨hash, handle.pid⟩] } where
  held := hsent.held
  spawned r hr := by
    rcases List.mem_append.mp hr with hr | hr
    · exact hsent.spawned r hr
    · rw [List.mem_singleton.mp hr]
      exact hsent.held.agent_spawned hget
  booted r hr hash' hboot := by
    rcases List.mem_append.mp hr with hr | hr
    · exact hsent.booted r hr hash' hboot
    · rw [List.mem_singleton.mp hr] at hboot
      exact hsent.held.boot_ne hboot hget rfl
  own r hr hash' handle' hget' hpid := by
    rcases List.mem_append.mp hr with hr | hr
    · exact hsent.own r hr hash' handle' hget' hpid
    · rw [List.mem_singleton.mp hr] at hpid ⊢
      exact hsent.held.eq_of_pid hget' hget hpid

theorem SentOpen.drop {front back : List (OpenRequest H)} {request : OpenRequest H}
    (hsent : SentOpen l) (hopened : l.opened = front ++ request :: back) :
    SentOpen { l with opened := front ++ back } := by
  have hmem : ∀ r ∈ front ++ back, r ∈ l.opened := by
    intro r hr
    rw [hopened]
    rcases List.mem_append.mp hr with hr | hr
    · exact List.mem_append_left _ hr
    · exact List.mem_append_right _ (List.mem_cons_of_mem _ hr)
  exact ⟨hsent.held, fun r hr => hsent.spawned r (hmem r hr),
    fun r hr => hsent.booted r (hmem r hr), fun r hr => hsent.own r (hmem r hr)⟩

theorem setHandle_pids {hash : H} {old handle : AgentHandle}
    (hget : OrderedMap.get? hash m.running = some old) (hpid : handle.pid = old.pid) (hash' : H)
    (handle' : AgentHandle)
    (hget' : OrderedMap.get? hash' (m.setHandle hash handle).running = some handle') :
    ∃ old', OrderedMap.get? hash' m.running = some old' ∧ old'.pid = handle'.pid := by
  change OrderedMap.get? hash' (OrderedMap.set hash handle m.running) = some handle' at hget'
  rw [OrderedMap.get?_set] at hget'
  split at hget'
  · next heq =>
    cases hget'
    exact ⟨old, heq ▸ hget, hpid.symm⟩
  · exact ⟨handle', hget', rfl⟩

omit [DecidableEq H] in
theorem openAt_append (requests : List (OpenRequest H)) (r : OpenRequest H) (pid : Nat) :
    (requests ++ [r]).countP (fun r => r.pid = pid) =
      requests.countP (fun r => r.pid = pid) + if r.pid = pid then 1 else 0 := by
  rw [List.countP_append, List.countP_singleton]
  simp only [decide_eq_true_eq]

/-- The count of an agent is written, and is the number of the open requests of its process. -/
theorem RequestLedger.Accounted.set {hash : H} {old handle : AgentHandle} {total : Int}
    {opened : List (OpenRequest H)} (h : Accounted l) (hsent : SentOpen l)
    (hget : OrderedMap.get? hash l.manager.running = some old) (hpid : handle.pid = old.pid)
    (hown : handle.inflight = opened.countP fun r => r.pid = old.pid)
    (hothers : ∀ hash' handle', OrderedMap.get? hash' l.manager.running = some handle' →
      handle'.pid ≠ old.pid → opened.countP (fun r => r.pid = handle'.pid) = l.openAt handle'.pid)
    (htotal : total + old.inflight = l.inflightTotal + handle.inflight) :
    Accounted ⟨l.manager.setHandle hash handle, total, opened⟩ where
  own hash' handle' hget' := by
    change OrderedMap.get? hash' (OrderedMap.set hash handle l.manager.running) = _ at hget'
    rw [OrderedMap.get?_set] at hget'
    split at hget'
    · cases hget'
      show handle.inflight = opened.countP fun r => r.pid = handle.pid
      rw [hpid]
      exact hown
    · next hne =>
      refine (h.own hash' handle' hget').trans (hothers hash' handle' hget' fun heq => ?_).symm
      exact hne (hsent.held.eq_of_pid hget' hget heq)
  total := by
    have hsum := inflightSum_set handle hsent.held.keyed.running hget
    have hbefore : l.inflightTotal = (inflightSum l.manager.running : Nat) := h.total
    show total = (inflightSum (OrderedMap.set hash handle l.manager.running) : Nat)
    omega

theorem SentOpen.beginRequest (config : AgentConfig H) (hsent : SentOpen l) (hash : H) :
    SentOpen (l.beginRequest hash) ∧ (Accounted l → Accounted (l.beginRequest hash)) := by
  rw [RequestLedger.beginRequest]
  split
  · next handle hget =>
    split
    · next hready =>
      have hmanager : l.manager.beginRequest hash = l.manager.setHandle hash
          { handle with inflight := handle.inflight + 1, lastActivityAt := l.manager.now } := by
        rw [AgentManager.beginRequest, hget]
        exact if_pos hready
      refine ⟨?_, fun h => ?_⟩
      · have hstep : AgentStep config l.manager (.beginRequest hash) _ :=
          .beginRequest l.manager hash
        rw [hmanager] at hstep ⊢
        exact (hsent.add hget).step hstep
          (fun hash' handle' hget' => .inr (setHandle_pids hget (by rfl) hash' handle' hget')) _
      · rw [hmanager]
        refine h.set hsent hget rfl ?_ (fun _ _ _ hne => ?_) ?_
        · rw [openAt_append, if_pos rfl, ← openAt, ← h.own hash handle hget]
        · rw [openAt_append, if_neg (Ne.symm hne), add_zero]
          rfl
        · show l.inflightTotal + 1 + (handle.inflight : Int) =
            l.inflightTotal + ((handle.inflight + 1 : Nat) : Int)
          omega
    · exact ⟨hsent, id⟩
  · exact ⟨hsent, id⟩

theorem inflight_le_sum {hash : H} {handle : AgentHandle} (hm : Held m)
    (hget : OrderedMap.get? hash m.running = some handle) :
    handle.inflight ≤ inflightSum m.running := by
  rw [inflightSum_erase hm.keyed.running hget]
  exact Nat.le_add_right _ _

theorem inflightSum_eq_zero (hm : Held m) (h : ∀ hash handle,
    OrderedMap.get? hash m.running = some handle → handle.inflight = 0) :
    inflightSum m.running = 0 := by
  refine List.sum_eq_zero fun n hn => ?_
  obtain ⟨e, he, rfl⟩ := List.mem_map.mp hn
  exact h e.1 e.2 (OrderedMap.get?_of_mem hm.keyed.running he)

/-- No live process has an open request exactly when the sum of the counts is zero. -/
theorem RequestLedger.Accounted.idle_iff (h : Accounted l) (hsent : SentOpen l) :
    (∀ r ∈ l.opened, ¬ l.Live r.pid) ↔ inflightSum l.manager.running = 0 := by
  constructor
  · intro hidle
    refine inflightSum_eq_zero hsent.held fun hash handle hget => ?_
    rw [h.own hash handle hget]
    refine List.countP_eq_zero.mpr fun r hr hpid => hidle r hr ⟨hash, handle, hget, ?_⟩
    exact (of_decide_eq_true hpid).symm
  · rintro hzero r hr ⟨hash, handle, hget, hpid⟩
    have hle := inflight_le_sum hsent.held hget
    rw [hzero, h.own hash handle hget] at hle
    have hnone := List.countP_eq_zero.mp (Nat.le_zero.mp hle) r hr
    exact hnone (decide_eq_true hpid.symm)

omit [DecidableEq H] in
theorem openAt_finish {front back : List (OpenRequest H)} {request : OpenRequest H}
    (hopened : l.opened = front ++ request :: back) (pid : Nat) :
    l.openAt pid = (front ++ back).countP (fun r => r.pid = pid) +
      if request.pid = pid then 1 else 0 := by
  rw [openAt, hopened, List.countP_append, List.countP_append, List.countP_cons]
  simp only [decide_eq_true_eq]
  omega

theorem endRequest_of_some {hash : H} {handle : AgentHandle}
    (hget : OrderedMap.get? hash l.manager.running = some handle) :
    l.endRequest hash =
      ⟨l.manager.setHandle hash { handle with
        inflight := handle.inflight - 1, lastActivityAt := l.manager.now },
        max 0 (l.inflightTotal - 1), l.opened⟩ := by
  rw [RequestLedger.endRequest, hget]
  show (⟨l.manager.endRequest hash, _, _⟩ : RequestLedger H) = _
  rw [AgentManager.endRequest, hget]

theorem SentOpen.finish (config : AgentConfig H) {front back : List (OpenRequest H)}
    {request : OpenRequest H} (hsent : SentOpen l) (hopened : l.opened = front ++ request :: back) :
    SentOpen ({ l with opened := front ++ back }.endRequest request.hash) := by
  have hdropped := hsent.drop hopened
  cases hget : OrderedMap.get? request.hash l.manager.running with
  | none =>
    rw [RequestLedger.endRequest, hget]
    exact hdropped
  | some handle =>
    rw [endRequest_of_some (l := { l with opened := front ++ back }) hget]
    have hstep : AgentStep config l.manager (.endRequest request.hash) _ :=
      .endRequest l.manager request.hash
    rw [AgentManager.endRequest, hget] at hstep
    exact hdropped.step hstep
      (fun hash' handle' hget' => .inr (setHandle_pids hget (by rfl) hash' handle' hget')) _

/-- A request that ends keeps the counts those of the processes exactly when its end is its own
process's, or changes nothing. -/
theorem RequestLedger.Accounted.finish_iff {front back : List (OpenRequest H)}
    {request : OpenRequest H} (h : Accounted l) (hsent : SentOpen l)
    (hopened : l.opened = front ++ request :: back) :
    Accounted ({ l with opened := front ++ back }.endRequest request.hash) ↔
      OwnEnd ⟨l, .finish request,
        { l with opened := front ++ back }.endRequest request.hash⟩ := by
  have hcount := openAt_finish hopened
  cases hget : OrderedMap.get? request.hash l.manager.running with
  | none =>
    rw [RequestLedger.endRequest, hget]
    refine iff_of_true ⟨fun hash handle hget' => ?_, h.total⟩ (.inl fun handle hget' => ?_)
    · have hne : request.pid ≠ handle.pid := by
        intro hpid
        have hmem : request ∈ l.opened := hopened ▸ List.mem_append_right _ List.mem_cons_self
        have hhash := hsent.own request hmem hash handle hget' hpid.symm
        rw [hhash, hget] at hget'
        cases hget'
      have hsame := hcount handle.pid
      rw [if_neg hne, add_zero] at hsame
      exact (h.own hash handle hget').trans hsame
    · cases hget.symm.trans hget'
  | some handle =>
    rw [endRequest_of_some (l := { l with opened := front ++ back }) hget]
    have hinflight := h.own request.hash handle hget
    have hsum := inflight_le_sum hsent.held hget
    have htotal : l.inflightTotal = (inflightSum l.manager.running : Nat) := h.total
    have hothers : ∀ hash' handle', OrderedMap.get? hash' l.manager.running = some handle' →
        handle'.pid ≠ handle.pid →
          (front ++ back).countP (fun r => r.pid = handle'.pid) = l.openAt handle'.pid := by
      intro hash' handle' hget' hne
      have hsame := hcount handle'.pid
      rw [if_neg, add_zero] at hsame
      · exact hsame.symm
      · intro hpid
        have hmem : request ∈ l.opened := hopened ▸ List.mem_append_right _ List.mem_cons_self
        have hhash := hsent.own request hmem hash' handle' hget' hpid.symm
        rw [hhash, hget] at hget'
        cases hget'
        exact hne rfl
    have hone := hcount handle.pid
    by_cases hpid : handle.pid = request.pid
    · rw [if_pos hpid.symm] at hone
      refine iff_of_true (h.set hsent hget rfl ?_ hothers ?_) (.inl fun handle' hget' => ?_)
      · show handle.inflight - 1 = (front ++ back).countP fun r => r.pid = handle.pid
        omega
      · show max 0 (l.inflightTotal - 1) + (handle.inflight : Int) =
          l.inflightTotal + ((handle.inflight - 1 : Nat) : Int)
        omega
      · cases hget.symm.trans hget'
        exact hpid
    · rw [if_neg fun heq => hpid heq.symm, add_zero] at hone
      refine Iff.trans ?_ ((h.idle_iff hsent).symm.trans (or_iff_right ?_).symm)
      · constructor
        · intro hafter
          let counted : AgentHandle := { handle with
            inflight := handle.inflight - 1, lastActivityAt := l.manager.now }
          have hset : inflightSum (OrderedMap.set request.hash counted l.manager.running) +
              handle.inflight = inflightSum l.manager.running + (handle.inflight - 1) :=
            inflightSum_set counted hsent.held.keyed.running hget
          have hown : handle.inflight - 1 = (front ++ back).countP fun r => r.pid = handle.pid :=
            hafter.own request.hash counted
              (by rw [AgentManager.setHandle, OrderedMap.get?_set, if_pos rfl])
          have htotal' : max 0 (l.inflightTotal - 1) =
              (inflightSum (OrderedMap.set request.hash counted l.manager.running) : Nat) :=
            hafter.total
          omega
        · intro hzero
          refine h.set hsent hget rfl ?_ hothers ?_
          · show handle.inflight - 1 = (front ++ back).countP fun r => r.pid = handle.pid
            omega
          · show max 0 (l.inflightTotal - 1) + (handle.inflight : Int) =
              l.inflightTotal + ((handle.inflight - 1 : Nat) : Int)
            omega
      · exact fun hown => hpid (hown handle hget)

/-! ## The reaper -/

theorem get?_stopEach {hash : H} (hashes : List H) (hnot : hash ∉ hashes) :
    OrderedMap.get? hash (l.stopEach config hashes).manager.running =
      OrderedMap.get? hash l.manager.running := by
  induction hashes generalizing l with
  | nil => rfl
  | cons hash' hashes ih =>
    rw [List.mem_cons, not_or] at hnot
    refine (ih (l := l.stopAgent config hash') hnot.2).trans ?_
    rw [RequestLedger.stopAgent]
    split
    · next handle hget =>
      rw [running_stopAgent config hget, OrderedMap.get?_erase, if_neg hnot.1]
    · rfl

theorem RequestLedger.Accounted.spares (h : Accounted l) (hsent : SentOpen l) {r : OpenRequest H}
    (hr : r ∈ l.opened) (hlive : l.Live r.pid) :
    (l.stopEach config (l.manager.idleAgents config)).Live r.pid := by
  obtain ⟨hash, handle, hget, hpid⟩ := hlive
  refine ⟨hash, handle, (get?_stopEach _ fun hidle => ?_).trans hget, hpid⟩
  obtain ⟨e, he, rfl⟩ := List.mem_map.mp hidle
  obtain ⟨hmem, hcond⟩ := List.mem_filter.mp he
  have hsame := OrderedMap.get?_of_mem hsent.held.keyed.running hmem
  cases hsame.symm.trans hget
  rw [Bool.and_eq_true, Bool.and_eq_true, decide_eq_true_eq, decide_eq_true_eq] at hcond
  have hnone := List.countP_eq_zero.mp ((h.own e.1 e.2 hget).symm.trans hcond.1.2) r hr
  exact hnone (decide_eq_true hpid.symm)

/-! ## Runs -/

/-- The counts are right after the step, and the reaper has spared the open requests. -/
def KeepsCounts (move : Move (RequestLedger H) (InflightEvent H)) : Prop :=
  Accounted move.after ∧ SparesOpen move

/-- What a step does to the open requests and to the counts. -/
theorem RequestStep.counts {e : InflightEvent H} (hstep : RequestStep config l e l')
    (hsent : SentOpen l) :
    SentOpen l' ∧ (Accounted l → (KeepsCounts ⟨l, e, l'⟩ ↔ OwnEnd ⟨l, e, l'⟩)) := by
  have hkept : SentOpen l' ∧ (Accounted l → Accounted l') → SparesOpen ⟨l, e, l'⟩ →
      OwnEnd ⟨l, e, l'⟩ →
      SentOpen l' ∧ (Accounted l → (KeepsCounts ⟨l, e, l'⟩ ↔ OwnEnd ⟨l, e, l'⟩)) :=
    fun hboth hspares hown => ⟨hboth.1, fun h => iff_of_true ⟨hboth.2 h, hspares⟩ hown⟩
  cases hstep with
  | other e m h hquiet =>
    have hspares : SparesOpen ⟨l, .agent e, { l with manager := m }⟩ := by
      cases h with
      | sweepIdle => cases hquiet
      | _ => exact trivial
    exact hkept (hsent.other h hquiet) hspares trivial
  | stopAgent hash => exact hkept (hsent.stopAgent config hash) trivial trivial
  | stopRunning boots front back =>
    have hwaited : SentOpen { l with manager := { l.manager with stopAlls := front ++ back } } :=
      ⟨⟨⟨hsent.held.sound.fresh, hsent.held.sound.ready, hsent.held.sound.alone,
        hsent.held.sound.cached⟩, ⟨hsent.held.keyed.running, hsent.held.keyed.pending⟩,
        hsent.held.pids, hsent.held.spawned⟩, hsent.spawned, hsent.booted, hsent.own⟩
    obtain ⟨hstopped, hcounts⟩ := hwaited.stopEach config
      (l.manager.running.map Prod.fst)
    exact hkept ⟨hstopped, fun h => hcounts ⟨h.own, h.total⟩⟩ trivial trivial
  | sweepIdle =>
    obtain ⟨hstopped, hcounts⟩ := hsent.stopEach config (l.manager.idleAgents config)
    exact ⟨hstopped, fun h =>
      iff_of_true ⟨hcounts h, fun r hr hlive => h.spares hsent hr hlive⟩ trivial⟩
  | beginRequest hash => exact hkept (hsent.beginRequest config hash) trivial trivial
  | finish request front back hopened =>
    refine ⟨hsent.finish config hopened, fun h => ?_⟩
    exact (and_iff_left trivial).trans (h.finish_iff hsent hopened)
  | cleanup c h hexited hwatched =>
    have hagent : AgentStep config l.manager _ _ := .cleanup l.manager c h hexited hwatched
    exact hkept (hsent.cleanup hagent) trivial trivial

/-- In every run of a worker: the counts are those of the processes in every state and the reaper
spares the processes with open requests, if and only if every request that ends finds its own
process live, no process of its version live, or no open request at a live process. -/
theorem inflight_follows_process {now : Nat} {cache : List (H × CacheEntry)}
    {moves : List (Move (RequestLedger H) (InflightEvent H))}
    (h : Trace (RequestStep config) (.started now cache) moves l) :
    (∀ move ∈ moves, KeepsCounts move) ↔ ∀ move ∈ moves, OwnEnd move := by
  refine h.forall_iff (fun l => SentOpen l ∧ Accounted l) (fun _ => True) ?_ ?_
    (fun _ _ => trivial) ?_
  · rintro move hstep - ⟨hsent, haccounted⟩
    exact (hstep.counts hsent).2 haccounted
  · rintro move hstep - ⟨hsent, -⟩ hkeeps
    exact ⟨(hstep.counts hsent).1, hkeeps.1⟩
  · exact ⟨.started now cache, .started now cache⟩

/-- A request begins and ends while its process is live. -/
theorem inflight_follows_process_pair : ∃ moves l,
    Trace (RequestStep smallConfig) (.started 0 []) moves l ∧ moves.length = 8 ∧
      ∀ move ∈ moves, KeepsCounts move := by
  have h : Trace (RequestStep smallConfig) (.started 0 []) _ _ :=
    .cons (.other _ _ _ (.ensureAgent _ 7) rfl)
    (.cons (.other _ _ _ (.downloaded _ 7 0 100 rfl) rfl)
    (.cons (.other _ _ _ (.cached _ 7 0 rfl) rfl)
    (.cons (.other _ _ _ (.portFree _ 7 0 4000 true rfl) rfl)
    (.cons (.other _ _ _ (.healthy _ 7 0 4000 1 30000 rfl) rfl)
    (.cons (.other _ _ _ (.settled _ 7 0 rfl) rfl)
    (.cons (.beginRequest _ 7)
    (.cons (.finish _ ⟨7, 1⟩ [] [] rfl) (.nil _))))))))
  refine ⟨_, _, h, rfl, (inflight_follows_process h).mpr ?_⟩
  simp only [List.forall_mem_cons, List.not_mem_nil, false_implies, implies_true, and_true]
  refine ⟨trivial, trivial, trivial, trivial, trivial, trivial, trivial, .inl fun handle hget => ?_⟩
  cases hget
  rfl

/-- The process of a first request crashes and the agent is booted again; a second request begins,
the first one ends, and the reaper stops the process of the second. -/
theorem late_end_miscounts : ∃ moves l,
    Trace (RequestStep smallConfig) (.started 0 []) moves l ∧
      l.manager.running = [] ∧ l.opened = [⟨7, 3⟩] ∧ ¬ ∀ move ∈ moves, SparesOpen move := by
  have h : Trace (RequestStep smallConfig) (.started 0 []) _ _ :=
    .cons (.other _ _ _ (.ensureAgent _ 7) rfl)
    (.cons (.other _ _ _ (.downloaded _ 7 0 100 rfl) rfl)
    (.cons (.other _ _ _ (.cached _ 7 0 rfl) rfl)
    (.cons (.other _ _ _ (.portFree _ 7 0 4000 true rfl) rfl)
    (.cons (.other _ _ _ (.healthy _ 7 0 4000 1 30000 rfl) rfl)
    (.cons (.other _ _ _ (.settled _ 7 0 rfl) rfl)
    (.cons (.beginRequest _ 7)
    (.cons (.other _ _ _ (.exit _ 1) rfl)
    (.cons (.other _ _ _ (.exited _ _ List.mem_cons_self rfl) rfl)
    (.cons (.cleanup _ _ List.mem_cons_self rfl rfl)
    (.cons (.other _ _ _ (.ensureAgent _ 7) rfl)
    (.cons (.other _ _ _ (.cached _ 7 2 rfl) rfl)
    (.cons (.other _ _ _ (.portFree _ 7 2 4000 true rfl) rfl)
    (.cons (.other _ _ _ (.healthy _ 7 2 4000 3 30000 rfl) rfl)
    (.cons (.other _ _ _ (.settled _ 7 2 rfl) rfl)
    (.cons (.beginRequest _ 7)
    (.cons (.finish _ ⟨7, 1⟩ [] [⟨7, 3⟩] rfl)
    (.cons (.other _ _ _ (.pass _ 900000) rfl)
    (.cons (.sweepIdle _) (.nil _)))))))))))))))))))
  refine ⟨_, _, h, rfl, rfl, fun hspares => ?_⟩
  have hlast := hspares _ (List.getLast_mem (List.cons_ne_nil _ _))
  obtain ⟨hash, handle, hget, -⟩ := hlast ⟨7, 3⟩ List.mem_cons_self ⟨7, _, rfl, rfl⟩
  cases hget

end InvisibleString.Runtime
