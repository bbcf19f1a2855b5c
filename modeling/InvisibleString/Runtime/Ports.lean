import InvisibleString.Runtime.Holdings

/- # `Runtime.Ports` — the port pool of a worker

A boot takes a port from the pool and probes it.  A port on which somebody else listens stays
allocated and is never tried again: it is burned.  A port is given back at one of three places:
where the boot fails, where the process of a running agent exits, and where a stop is over.

**Proved here.**

    in every run a port is free, burned or held by one boot or one process that is not released,
      each port is given back once for each time it was taken, and while nothing boots, runs or is
      being stopped, the ports that are not burned are free  (`ports_kept`)
    while an agent is being stopped, neither map has it and its port is not free
                                                                             (`stopped_keeps_port`)
-/

namespace InvisibleString.Runtime

open Transition (Move Trace)
open AgentManager

variable {H : Type} [DecidableEq H]

/-! ## Calls of the pool -/

/-- A worker, the ports that were found in use, and how often each port was taken and given
back. -/
structure PortLedger (H : Type) where
  manager : AgentManager H
  burned : List Nat
  allocations : Nat → Nat
  releases : Nat → Nat

/-- What happens at a worker; the spawn itself may throw. -/
inductive PortEvent (H : Type) where
  | agent (e : AgentEvent H)
  | spawnFailed (hash : H)

namespace PortLedger

/-- A worker that has just started. -/
def started (now : Nat) (cache : List (H × CacheEntry)) : PortLedger H where
  manager := createAgentManager now cache
  burned := []
  allocations _ := 0
  releases _ := 0

def countUp (counts : Nat → Nat) (port : Nat) : Nat → Nat :=
  Function.update counts port (counts port + 1)

def allocatePort (l : PortLedger H) (config : AgentConfig H) (hash : H) (id : Nat) :
    PortLedger H :=
  { l with
    manager := l.manager.allocatePort config hash id
    allocations := (l.manager.firstFree config).elim l.allocations (countUp l.allocations) }

/-- The step that leads to `m` gives the port back. -/
def release (l : PortLedger H) (port : Nat) (m : AgentManager H) : PortLedger H :=
  { l with manager := m, releases := countUp l.releases port }

def stopWaited (l : PortLedger H) (stop : Stop H) (exited : Bool) : PortLedger H :=
  if exited || stop.escalated then l.release stop.port (l.manager.stopWaited stop exited)
  else { l with manager := l.manager.stopWaited stop exited }

def cleanup (l : PortLedger H) (c : Child H) : PortLedger H :=
  match OrderedMap.get? c.hash l.manager.running with
  | some handle =>
    if handle.pid = c.pid then l.release handle.port (l.manager.cleanup c)
    else { l with manager := l.manager.cleanup c }
  | none => { l with manager := l.manager.cleanup c }

end PortLedger

inductive PortStep (config : AgentConfig H) : PortLedger H → PortEvent H → PortLedger H → Prop
  | other (l : PortLedger H) (e : AgentEvent H) (m : AgentManager H)
      (h : AgentStep config l.manager e m) (hpool : e.callsPool = false) :
      PortStep config l (.agent e) { l with manager := m }
  | cached (l : PortLedger H) (hash : H) (id : Nat)
      (h : OrderedMap.get? hash l.manager.pending = some ⟨id, .cached⟩) :
      PortStep config l (.agent (.cached hash)) (l.allocatePort config hash id)
  | portBusy (l : PortLedger H) (hash : H) (id port : Nat)
      (h : OrderedMap.get? hash l.manager.pending = some ⟨id, .probing port⟩) :
      PortStep config l (.agent (.portBusy hash))
        ({ l with burned := l.burned ++ [port] }.allocatePort config hash id)
  | spawnFailed (l : PortLedger H) (hash : H) (id port : Nat)
      (h : OrderedMap.get? hash l.manager.pending = some ⟨id, .probing port⟩) :
      PortStep config l (.spawnFailed hash)
        (l.release port ((l.manager.release port).setBoot hash id .settled))
  | killed (l : PortLedger H) (hash : H) (id port pid deadline : Nat)
      (h : OrderedMap.get? hash l.manager.pending = some ⟨id, .killing port pid deadline⟩)
      (hover : l.manager.hasExited pid ∨ deadline ≤ l.manager.now) :
      PortStep config l (.agent (.killed hash))
        (l.release port ((l.manager.release port).setBoot hash id .settled))
  | stopWaited (l : PortLedger H) (stop : Stop H) (exited : Bool) (h : stop ∈ l.manager.stops)
      (hover : if exited then l.manager.hasExited stop.pid else stop.deadline ≤ l.manager.now) :
      PortStep config l (.agent (.stopWaited stop.hash exited)) (l.stopWaited stop exited)
  | cleanup (l : PortLedger H) (c : Child H) (h : c ∈ l.manager.children)
      (hexited : c.exited = true) (hwatched : c.watched = true) :
      PortStep config l (.agent (.cleanup c.pid)) (l.cleanup c)

/-! ## What is to hold -/

/-- How many boots in progress and processes that are not released hold the port. -/
def AgentManager.holders (m : AgentManager H) (port : Nat) : Nat :=
  (m.holdings.map Prod.fst).count port

structure PortsKept (config : AgentConfig H) (l : PortLedger H) : Prop where
  one : ∀ port,
    port ∉ l.manager.allocated ∧ port ∉ l.burned ∧ l.manager.holders port = 0 ∨
    port ∈ l.manager.allocated ∧ port ∈ l.burned ∧ l.manager.holders port = 0 ∨
    port ∈ l.manager.allocated ∧ port ∉ l.burned ∧ l.manager.holders port = 1
  range : ∀ port ∈ l.manager.allocated, config.portMin ≤ port ∧ port ≤ config.portMax
  releases : ∀ port,
    l.allocations port = l.releases port + if port ∈ l.manager.allocated then 1 else 0
  idle : l.manager.running = [] → l.manager.pending = [] → l.manager.stops = [] →
    ∀ port, port ∉ l.burned → port ∉ l.manager.allocated

/-- The ports that are allocated are those held and those burned, each of them once. -/
structure Pooled (config : AgentConfig H) (l : PortLedger H) : Prop where
  held : Held l.manager
  pool : (l.manager.allocated : Multiset Nat) = l.manager.holdings.map Prod.fst + l.burned
  nodup : l.manager.allocated.Nodup
  range : ∀ port ∈ l.manager.allocated, config.portMin ≤ port ∧ port ≤ config.portMax
  releases : ∀ port,
    l.allocations port = l.releases port + if port ∈ l.manager.allocated then 1 else 0

variable {config : AgentConfig H} {l l' : PortLedger H} {m : AgentManager H}

theorem Pooled.kept (h : Pooled config l) : PortsKept config l where
  one port := by
    have hcount := congrArg (Multiset.count port) h.pool
    rw [Multiset.count_add] at hcount
    change _ = l.manager.holders port + Multiset.count port l.burned at hcount
    have hburned : Multiset.count port (l.burned : Multiset Nat) = 0 ↔ port ∉ l.burned :=
      Multiset.count_eq_zero
    have hle := Multiset.nodup_iff_count_le_one.mp (Multiset.coe_nodup.mpr h.nodup) port
    have hallocated : Multiset.count port (l.manager.allocated : Multiset Nat) = 0 ↔
      port ∉ l.manager.allocated := Multiset.count_eq_zero
    by_cases hport : port ∈ l.manager.allocated
    · have hone : Multiset.count port (l.manager.allocated : Multiset Nat) ≠ 0 :=
        fun h0 => hallocated.mp h0 hport
      by_cases hburn : port ∈ l.burned
      · have hpos := mt hburned.mp (not_not.mpr hburn)
        exact .inr (.inl ⟨hport, hburn, by omega⟩)
      · have hzero := hburned.mpr hburn
        exact .inr (.inr ⟨hport, hburn, by omega⟩)
    · have hzero := hallocated.mpr hport
      exact .inl ⟨hport, hburned.mp (by omega), by omega⟩
  range := h.range
  releases := h.releases
  idle hrunning hpending hstops port hburned hport := by
    have hnone : l.manager.holdings = 0 := by
      rw [holdings, hrunning, hpending, hstops]
      rfl
    have hmem : port ∈ (l.manager.allocated : Multiset Nat) := hport
    rw [h.pool, hnone] at hmem
    exact hburned hmem

theorem Pooled.started (now : Nat) (cache : List (H × CacheEntry)) :
    Pooled config (.started now cache) where
  held := held_create now cache
  pool := rfl
  nodup := List.nodup_nil
  range _ h := absurd h List.not_mem_nil
  releases _ := rfl

/-! ## One step -/

theorem Pooled.unmoved (h : Pooled config l) (hheld : Held m) (hunmoved : Unmoved l.manager m) :
    Pooled config { l with manager := m } where
  held := hheld
  pool := by
    show (m.allocated : Multiset Nat) = _
    rw [hunmoved.ports, hunmoved.held]
    exact h.pool
  nodup := hunmoved.ports ▸ h.nodup
  range := hunmoved.ports ▸ h.range
  releases := hunmoved.ports ▸ h.releases

/-- Nobody calls the pool. -/
theorem Pooled.other {e : AgentEvent H} (h : Pooled config l)
    (hstep : AgentStep config l.manager e m) (hpool : e.callsPool = false) :
    Pooled config { l with manager := m } := by
  have hheld := hstep.held h.held
  rcases hstep.effect h.held with hunmoved | ⟨port, held, ports, -⟩ | ⟨hcalls, -⟩
  · exact h.unmoved hheld hunmoved
  · have hports := congrArg (Multiset.map Prod.fst) held
    rw [Multiset.map_add, Multiset.map_add] at hports
    refine ⟨hheld, ?_, ?_, ?_, ?_⟩
    · show (m.allocated : Multiset Nat) = _
      rw [ports, h.pool, add_right_cancel hports]
    · exact ports ▸ h.nodup
    · exact ports ▸ h.range
    · exact ports ▸ h.releases
  · rw [hpool] at hcalls
    cases hcalls

theorem Pooled.release {x : Holding} (h : Pooled config l) (hheld : Held m)
    (hdropped : m.holdings + {x} = l.manager.holdings)
    (hports : m.allocated = l.manager.allocated.filter fun p => p ≠ x.1) :
    Pooled config (l.release x.1 m) := by
  have hpool : (l.manager.allocated : Multiset Nat) =
      x.1 ::ₘ (m.holdings.map Prod.fst + l.burned) := by
    rw [h.pool, ← hdropped, Multiset.map_add, ← Multiset.singleton_add]
    show _ + {x.1} + _ = _
    ac_rfl
  have hmem : x.1 ∈ l.manager.allocated := by
    have : x.1 ∈ (l.manager.allocated : Multiset Nat) := hpool ▸ Multiset.mem_cons_self _ _
    exact this
  have hstay : ∀ port, port ∈ m.allocated ↔ port ∈ l.manager.allocated ∧ port ≠ x.1 := by
    intro port
    rw [hports, List.mem_filter, decide_eq_true_eq]
  constructor
  case held => exact hheld
  case pool =>
    have herase := congrArg (fun s => Multiset.erase s x.1) hpool
    rw [Multiset.erase_cons_head, Multiset.coe_erase, h.nodup.erase_eq_filter] at herase
    refine Eq.trans ?_ herase
    show (m.allocated : Multiset Nat) = _
    rw [hports]
    refine congrArg _ (List.filter_congr fun p _ => ?_)
    rw [Bool.eq_iff_iff, bne_iff_ne, decide_eq_true_eq]
  case nodup =>
    show m.allocated.Nodup
    rw [hports]
    exact h.nodup.filter _
  case range => exact fun port hport => h.range port ((hstay port).mp hport).1
  case releases =>
    intro port
    have hbefore := h.releases port
    show l.allocations port =
      PortLedger.countUp l.releases x.1 port + if port ∈ m.allocated then 1 else 0
    by_cases heq : port = x.1
    · rw [heq, if_pos hmem] at hbefore
      rw [heq, hbefore, if_neg fun hport => ((hstay _).mp hport).2 rfl, PortLedger.countUp,
        Function.update_self]
    · rw [PortLedger.countUp, Function.update_of_ne heq, hbefore]
      congr 1
      exact if_congr (by rw [hstay]; exact (and_iff_left heq).symm) rfl rfl

/-- What a boot held is burned, and the next port is taken if there is one. -/
theorem Pooled.allocatePort {hash : H} {boot : Boot} (burned : List Nat) (h : Pooled config l)
    (hget : OrderedMap.get? hash l.manager.pending = some boot)
    (hburned : (burned : Multiset Nat) = (booting boot.phase).map Prod.fst)
    (hheld : Held (l.manager.allocatePort config hash boot.id)) :
    Pooled config ({ l with burned := l.burned ++ burned }.allocatePort config hash boot.id) := by
  have hpool : ∀ taken : Multiset Nat,
      ((l.manager.allocatePort config hash boot.id).holdings.map Prod.fst +
        (booting boot.phase).map Prod.fst = l.manager.holdings.map Prod.fst + taken) →
      (l.manager.allocated : Multiset Nat) + taken =
        (l.manager.allocatePort config hash boot.id).holdings.map Prod.fst +
          ((l.burned ++ burned : List Nat) : Multiset Nat) := by
    intro taken heq
    rw [h.pool, ← Multiset.coe_add, hburned, add_right_comm, ← heq]
    ac_rfl
  rcases holdings_allocatePort config h.held.keyed hget boot.id with
    ⟨port, hfirst, hports, hholdings⟩ | ⟨hfirst, hports, hholdings⟩
  · obtain ⟨hfree, hrange⟩ := firstFree_some hfirst
    have hmap := congrArg (Multiset.map Prod.fst) hholdings
    rw [Multiset.map_add, Multiset.map_add] at hmap
    constructor
    case held => exact hheld
    case pool =>
      refine Eq.trans ?_ (hpool {port} hmap)
      show ((l.manager.allocatePort config hash boot.id).allocated : Multiset Nat) = _
      rw [hports]
      rfl
    case nodup =>
      show (l.manager.allocatePort config hash boot.id).allocated.Nodup
      rw [hports, List.nodup_append]
      refine ⟨h.nodup, List.nodup_singleton port, fun p hp p' hp' heq => ?_⟩
      rw [heq, List.mem_singleton.mp hp'] at hp
      exact hfree hp
    case range =>
      intro p hp
      change p ∈ (l.manager.allocatePort config hash boot.id).allocated at hp
      rw [hports] at hp
      rcases List.mem_append.mp hp with hp | hp
      · exact h.range p hp
      · rw [List.mem_singleton.mp hp]
        exact hrange
    case releases =>
      intro p
      have hbefore := h.releases p
      show (l.manager.firstFree config).elim l.allocations (PortLedger.countUp l.allocations) p =
        l.releases p + if p ∈ (l.manager.allocatePort config hash boot.id).allocated then 1 else 0
      rw [hfirst, hports]
      show PortLedger.countUp l.allocations port p = _
      by_cases heq : p = port
      · rw [heq, if_neg hfree] at hbefore
        rw [heq, if_pos (List.mem_append_right _ List.mem_cons_self), PortLedger.countUp,
          Function.update_self, hbefore]
      · rw [PortLedger.countUp, Function.update_of_ne heq, hbefore]
        congr 1
        refine if_congr ?_ rfl rfl
        rw [List.mem_append, List.mem_singleton, or_iff_left heq]
  · have hmap := congrArg (Multiset.map Prod.fst) hholdings
    rw [Multiset.map_add] at hmap
    refine ⟨hheld, ?_, ?_, ?_, ?_⟩
    · refine Eq.trans ?_ (hpool 0 (hmap.trans (add_zero _).symm))
      show ((l.manager.allocatePort config hash boot.id).allocated : Multiset Nat) = _
      rw [hports, add_zero]
    · show (l.manager.allocatePort config hash boot.id).allocated.Nodup
      exact hports ▸ h.nodup
    · show ∀ p ∈ (l.manager.allocatePort config hash boot.id).allocated, _
      exact hports ▸ h.range
    · intro p
      show (l.manager.firstFree config).elim l.allocations (PortLedger.countUp l.allocations) p =
        l.releases p + if p ∈ (l.manager.allocatePort config hash boot.id).allocated then 1 else 0
      rw [hfirst, hports]
      exact h.releases p

theorem AgentManager.Held.spawnFailed {hash : H} {id port : Nat} (hm : Held m)
    (hget : OrderedMap.get? hash m.pending = some ⟨id, .probing port⟩) :
    Held ((m.release port).setBoot hash id .settled) := by
  have hdropped := holdings_release_boot (x := (port, none)) hm.keyed hget rfl id
  have heffect : Effect m true ((m.release port).setBoot hash id .settled) :=
    .pooled rfl 0 {(port, none)} (hdropped.trans (add_zero _).symm) rfl rfl
  constructor
  case sound =>
    exact (kept_settled (m.release port) hash id).2 ((quiet_release m port).sound hm.sound)
  case keyed => exact ⟨hm.keyed.running, hm.keyed.pending.set⟩
  case pids => exact (heffect.pids hm).1
  case spawned => exact (heffect.pids hm).2

theorem Pooled.step {e : PortEvent H} (h : Pooled config l) (hstep : PortStep config l e l') :
    Pooled config l' := by
  cases hstep with
  | other e m hstep hpool => exact h.other hstep hpool
  | cached hash id hget =>
    have hagent : AgentStep config l.manager _ _ := .cached l.manager hash id hget
    have hburned := h.allocatePort [] hget rfl (hagent.held h.held)
    rw [List.append_nil] at hburned
    exact hburned
  | portBusy hash id port hget =>
    have hagent : AgentStep config l.manager _ _ := .portBusy l.manager hash id port hget
    exact h.allocatePort [port] hget rfl (hagent.held h.held)
  | spawnFailed hash id port hget =>
    have hdropped := holdings_release_boot h.held.keyed hget rfl id
    exact h.release (h.held.spawnFailed hget) hdropped rfl
  | killed hash id port pid deadline hget hover =>
    have hagent : AgentStep config l.manager _ _ :=
      .killed l.manager hash id port pid deadline hget hover
    have hdropped := holdings_release_boot h.held.keyed hget rfl id
    exact h.release (hagent.held h.held) hdropped rfl
  | stopWaited stop exited hstop hover =>
    have hagent : AgentStep config l.manager _ _ := .stopWaited l.manager stop exited hstop hover
    rw [PortLedger.stopWaited]
    split
    · next hlast =>
      obtain ⟨hdropped, hports⟩ := holdings_stopWaited hstop h.held.pids hlast
      exact h.release (hagent.held h.held) hdropped hports
    · next hmore =>
      exact h.unmoved (hagent.held h.held) (unmoved_stopWaited hstop h.held.pids hmore)
  | cleanup c hc hexited hwatched =>
    have hagent : AgentStep config l.manager _ _ := .cleanup l.manager c hc hexited hwatched
    have hheld := hagent.held h.held
    rw [PortLedger.cleanup]
    split
    · next handle hget =>
      split
      · next hpid =>
        obtain ⟨hdropped, hports⟩ := holdings_cleanup h.held.keyed ⟨hget, hpid⟩
        exact h.release hheld hdropped hports
      · next hpid =>
        refine h.unmoved hheld (unmoved_cleanup fun handle' hcurrent => ?_)
        cases hget.symm.trans hcurrent.1
        exact hpid hcurrent.2
    · next hget =>
      refine h.unmoved hheld (unmoved_cleanup fun handle hcurrent => ?_)
      cases hget.symm.trans hcurrent.1

/-! ## Runs -/

/-- In every run of a worker, each port is free, burned or held once, is given back once for each
time it was taken, and is free or burned while nothing boots, runs or is being stopped. -/
theorem ports_kept {now : Nat} {cache : List (H × CacheEntry)}
    {moves : List (Move (PortLedger H) (PortEvent H))}
    (h : Trace (PortStep config) (.started now cache) moves l) : PortsKept config l :=
  Pooled.kept <| h.invariant (Pooled config) (fun _ => True)
    (fun _ hstep _ hinv => hinv.step hstep) (fun _ _ => trivial) (.started now cache)

/-- The port of an agent is burned, the next one is taken, and the spawn throws. -/
theorem ports_kept_spawnFailed : ∃ moves l,
    Trace (PortStep smallConfig) (.started 0 []) moves l ∧ PortsKept smallConfig l ∧
      l.burned = [4000] ∧ l.manager.allocated = [4000] := by
  have h : Trace (PortStep smallConfig) (.started 0 []) _ _ :=
    .cons (.other _ _ _ (.ensureAgent _ 7) rfl)
    (.cons (.other _ _ _ (.downloaded _ 7 0 100 rfl) rfl)
    (.cons (.cached _ 7 0 rfl)
    (.cons (.portBusy _ 7 0 4000 rfl)
    (.cons (.spawnFailed _ 7 0 4001 rfl) (.nil _)))))
  exact ⟨_, _, h, ports_kept h, rfl, rfl⟩

/-- An agent is stopped and its process has exited, and the stop still waits. -/
theorem stopped_keeps_port : ∃ moves l,
    Trace (PortStep smallConfig) (.started 0 []) moves l ∧ l.manager.running = [] ∧
      l.manager.pending = [] ∧ (∀ c ∈ l.manager.children, c.alive = false) ∧ l.burned = [] ∧
        l.manager.allocated = [4000] := by
  have h : Trace (PortStep smallConfig) (.started 0 []) _ _ :=
    .cons (.other _ _ _ (.ensureAgent _ 7) rfl)
    (.cons (.other _ _ _ (.downloaded _ 7 0 100 rfl) rfl)
    (.cons (.cached _ 7 0 rfl)
    (.cons (.other _ _ _ (.portFree _ 7 0 4000 true rfl) rfl)
    (.cons (.other _ _ _ (.healthy _ 7 0 4000 1 30000 rfl) rfl)
    (.cons (.other _ _ _ (.settled _ 7 0 rfl) rfl)
    (.cons (.other _ _ _ (.stopAgent _ 7) rfl)
    (.cons (.other _ _ _ (.exit _ 1) rfl) (.nil _))))))))
  refine ⟨_, _, h, rfl, rfl, fun c hc => ?_, rfl, rfl⟩
  obtain rfl := List.mem_singleton.mp hc
  rfl

end InvisibleString.Runtime
