import InvisibleString.Lib.OrderedMap
import InvisibleString.Lib.Transition
import Mathlib.Data.Nat.Basic
import Mathlib.Order.Lattice

/- # `Runtime.Scheduler` — which worker boots a version

`selectWorker` reads the registry, and picks from the rows it got: the session's own worker,
a worker whose last heartbeat reports the version, the least occupied worker.  Between the
pick and the heartbeat that reports the booted agent a reservation stands in for it.

The registry's answer may be old by the time the pick is made, the reservations are those of
the moment of the pick.

**Proved here.**

    counting the reservations throws lapsed ones out and changes no count  (`pickWorker_eq`)
    in every run, no version is placed beside a worker that runs it or is to boot it, exactly
      when every pick finds that worker first in its order  (`single_writer_iff`)
-/

namespace InvisibleString.Runtime

variable {W H : Type} [LinearOrder W] [DecidableEq H]

/-! ## Workers and their reservations -/

/-- Live capacity a worker reports on every heartbeat. -/
structure WorkerCapacitySnapshot (H : Type) where
  maxAgents : Option Nat
  runningAgents : Option Nat
  activeRequests : Option Nat
  /-- content hashes running on the worker -/
  runningHashes : Option (List H)

inductive WorkerStatus where
  | live
  | draining
  | dead
  deriving DecidableEq

structure SchedulableWorker (W H : Type) where
  id : W
  status : WorkerStatus
  lastHeartbeatAt : Nat
  capacity : WorkerCapacitySnapshot H

structure SelectWorkerOptions (W H : Type) where
  heartbeatTtlMs : Nat
  /-- the cap of workers that report none -/
  defaultMaxAgents : Nat
  versionHash : Option H
  /-- the worker the session is on -/
  affinityWorkerId : Option W

def SchedulableWorker.runningHashes (worker : SchedulableWorker W H) : List H :=
  worker.capacity.runningHashes.getD []

/-- Boots under way, with the time at which they stop to count. -/
abbrev Reservations (W H : Type) := List ((W × H) × Nat)

def reserveAgentSlot (workerId : W) (versionHash : H) (now ttlMs : Nat) :
    Reservations W H → Reservations W H :=
  OrderedMap.set (workerId, versionHash) (now + ttlMs)

/-- A reservation of the worker that is expired, or that its heartbeat reports by now. -/
def lapsed (worker : SchedulableWorker W H) (now : Nat) (entry : (W × H) × Nat) : Bool :=
  entry.1.1 = worker.id && (entry.2 ≤ now || entry.1.2 ∈ worker.runningHashes)

/-- Live reservations of one worker; the lapsed ones are dropped on the way. -/
def reservedAgentsOf (worker : SchedulableWorker W H) (now : Nat) :
    StateM (Reservations W H) Nat := do
  modify fun reservations => reservations.filter fun entry => !lapsed worker now entry
  let reservations ← get
  return reservations.countP fun entry => entry.1.1 = worker.id

/-! ## The pick -/

inductive PickReason where
  | affinity
  | warm
  | cold
  deriving DecidableEq

inductive PickResult (W H : Type) where
  | ok (worker : SchedulableWorker W H) (reason : PickReason)
  | noLiveWorker
  | noCapacity

def isWorkerLive (worker : SchedulableWorker W H) (now heartbeatTtlMs : Nat) : Bool :=
  worker.status = .live && now - worker.lastHeartbeatAt < heartbeatTtlMs

def maxAgentsOf (worker : SchedulableWorker W H) (fallback : Nat) : Nat :=
  match worker.capacity.maxAgents with
  | some reported => if 0 < reported then reported else fallback
  | none => fallback

def runningAgentsOf (worker : SchedulableWorker W H) : Nat :=
  worker.capacity.runningAgents.getD 0

/-- The worker reports the hash. -/
def isWarmOn (worker : SchedulableWorker W H) (versionHash : Option H) : Bool :=
  versionHash.any fun hash => hash ∈ worker.runningHashes

def occupiedAgentsOf (worker : SchedulableWorker W H) (now : Nat) :
    StateM (Reservations W H) Nat := do
  return runningAgentsOf worker + (← reservedAgentsOf worker now)

/-- Freshest heartbeat first, the id decides between equals. -/
def freshest (a b : SchedulableWorker W H) : SchedulableWorker W H :=
  if a.lastHeartbeatAt ≠ b.lastHeartbeatAt then
    if b.lastHeartbeatAt < a.lastHeartbeatAt then a else b
  else if a.id < b.id then a
  else b

def pickFreshest : List (SchedulableWorker W H) → Option (SchedulableWorker W H)
  | [] => none
  | worker :: workers => some (workers.foldl freshest worker)

def lessOccupied (now : Nat) (a b : SchedulableWorker W H) :
    StateM (Reservations W H) (SchedulableWorker W H) := do
  let oa ← occupiedAgentsOf a now
  let ob ← occupiedAgentsOf b now
  return if oa ≠ ob then if oa < ob then a else b else freshest a b

def pickLeastOccupied (workers : List (SchedulableWorker W H)) (now : Nat) :
    StateM (Reservations W H) (Option (SchedulableWorker W H)) :=
  match workers with
  | [] => return none
  | worker :: workers => do return some (← workers.foldlM (lessOccupied now) worker)

def hasHeadroom (options : SelectWorkerOptions W H) (now : Nat) (worker : SchedulableWorker W H) :
    StateM (Reservations W H) Bool := do
  return decide ((← occupiedAgentsOf worker now) < maxAgentsOf worker options.defaultMaxAgents)

/-- `workers.filter(hasHeadroom)`. -/
def withHeadroom (options : SelectWorkerOptions W H) (now : Nat) :
    List (SchedulableWorker W H) → StateM (Reservations W H) (List (SchedulableWorker W H))
  | [] => return []
  | worker :: workers => do
    let fits ← hasHeadroom options now worker
    let rest ← withHeadroom options now workers
    return if fits then worker :: rest else rest

/-- The session's own worker, when it can host the session. -/
def pickSticky (options : SelectWorkerOptions W H) (now : Nat)
    (live : List (SchedulableWorker W H)) :
    StateM (Reservations W H) (Option (SchedulableWorker W H)) :=
  match live.find? fun worker => options.affinityWorkerId = some worker.id with
  | none => return none
  | some sticky => do
    if isWarmOn sticky options.versionHash then return some sticky
    else if ← hasHeadroom options now sticky then return some sticky
    else return none

def pickWorker (workers : List (SchedulableWorker W H)) (options : SelectWorkerOptions W H)
    (now : Nat) : StateM (Reservations W H) (PickResult W H) := do
  let live := workers.filter fun worker => isWorkerLive worker now options.heartbeatTtlMs
  if live.isEmpty then return .noLiveWorker
  else
    match ← pickSticky options now live with
    | some sticky => return .ok sticky .affinity
    | none =>
      match pickFreshest (live.filter fun worker => isWarmOn worker options.versionHash) with
      | some warm => return .ok warm .warm
      | none =>
        match ← pickLeastOccupied (← withHeadroom options now live) now with
        | some cold => return .ok cold .cold
        | none => return .noCapacity

/-- The placement will boot an agent, unless the worker is warm on the hash: the slot is
reserved. -/
def reserveFor (reservationTtlMs : Nat) (options : SelectWorkerOptions W H) (now : Nat)
    (result : PickResult W H) (reservations : Reservations W H) : Reservations W H :=
  match result, options.versionHash with
  | .ok worker _, some hash =>
    if hash ∈ worker.runningHashes then reservations
    else reserveAgentSlot worker.id hash now reservationTtlMs reservations
  | _, _ => reservations

/-- What `selectWorker` does with the rows it has read. -/
def selectWorker (reservationTtlMs : Nat) (rows : List (SchedulableWorker W H))
    (options : SelectWorkerOptions W H) (now : Nat) :
    StateM (Reservations W H) (PickResult W H) := do
  let result ← pickWorker rows options now
  modify (reserveFor reservationTtlMs options now result)
  return result

/-- The live rows, freshest heartbeat first, at most 200. -/
def IsQueried (workers rows : List (SchedulableWorker W H)) : Prop :=
  ∃ sorted : List (SchedulableWorker W H),
    sorted.Perm (workers.filter fun worker => worker.status = .live) ∧
      (sorted.Pairwise fun a b => b.lastHeartbeatAt ≤ a.lastHeartbeatAt) ∧ rows = sorted.take 200

/-! ## What the pick looks at -/

/-- Slots of a worker that boots under way take up, as its row lets one see them. -/
def heldSlots (reservations : Reservations W H) (now : Nat) (worker : SchedulableWorker W H) : Nat :=
  reservations.countP fun entry => entry.1.1 = worker.id && !lapsed worker now entry

def occupied (reservations : Reservations W H) (now : Nat) (worker : SchedulableWorker W H) : Nat :=
  runningAgentsOf worker + heldSlots reservations now worker

/-- Entries are only dropped that have lapsed for one of the rows. -/
def Pruned (rows : List (SchedulableWorker W H)) (now : Nat)
    (reservations reservations' : Reservations W H) : Prop :=
  ∃ keep : (W × H) × Nat → Bool, reservations' = reservations.filter keep ∧
    ∀ entry ∈ reservations, keep entry = false → ∃ row ∈ rows, lapsed row now entry = true

/-- The procedure returns `a`, whatever lapsed entries were dropped before, and drops only
lapsed ones. -/
def Gives {A : Type} (rows : List (SchedulableWorker W H)) (now : Nat)
    (reservations : Reservations W H) (m : StateM (Reservations W H) A) (a : A) : Prop :=
  ∀ pruned, Pruned rows now reservations pruned →
    ∃ pruned', m.run pruned = (a, pruned') ∧ Pruned rows now reservations pruned'

section

variable {rows : List (SchedulableWorker W H)} {now : Nat} {reservations : Reservations W H}
  {row : SchedulableWorker W H} {A B : Type}

theorem Pruned.refl : Pruned rows now reservations reservations :=
  ⟨fun _ => true, (List.filter_true _).symm, fun _ _ h => by cases h⟩

theorem Gives.pure (a : A) : Gives rows now reservations (Pure.pure a) a :=
  fun pruned h => ⟨pruned, rfl, h⟩

theorem Gives.bind {m : StateM (Reservations W H) A} {f : A → StateM (Reservations W H) B} {a : A}
    {b : B} (hm : Gives rows now reservations m a) (hf : Gives rows now reservations (f a) b) :
    Gives rows now reservations (m >>= f) b := by
  intro pruned h
  obtain ⟨pruned', hrun, h'⟩ := hm pruned h
  obtain ⟨pruned'', hrun', h''⟩ := hf pruned' h'
  refine ⟨pruned'', ?_, h''⟩
  rw [StateT.run_bind, hrun]
  exact hrun'

/-- Rows of different workers. -/
def UniqueIds (rows : List (SchedulableWorker W H)) : Prop :=
  (rows.map SchedulableWorker.id).Nodup

omit [LinearOrder W] [DecidableEq H] in
theorem UniqueIds.eq (h : UniqueIds rows) {row row' : SchedulableWorker W H} (hm : row ∈ rows)
    (hm' : row' ∈ rows) (hid : row.id = row'.id) : row = row' :=
  List.inj_on_of_nodup_map h hm hm' hid

theorem reservedAgentsOf_gives (hids : UniqueIds rows) (hrow : row ∈ rows) :
    Gives rows now reservations (reservedAgentsOf row now) (heldSlots reservations now row) := by
  rintro pruned ⟨keep, rfl, hkeep⟩
  refine ⟨(reservations.filter keep).filter fun entry => !lapsed row now entry, ?_, ?_⟩
  · refine Prod.ext ?_ rfl
    show ((reservations.filter keep).filter fun entry => !lapsed row now entry).countP
      (fun entry => entry.1.1 = row.id) = heldSlots reservations now row
    rw [List.filter_filter, List.countP_filter, heldSlots]
    refine List.countP_congr fun entry hm => ?_
    -- an entry of this worker that was dropped before has lapsed for its row
    have hdropped : entry.1.1 = row.id → keep entry = false → lapsed row now entry = true := by
      intro hid hk
      obtain ⟨row', hrow', hl⟩ := hkeep entry hm hk
      have hid' : entry.1.1 = row'.id := by
        rw [lapsed, Bool.and_eq_true] at hl
        exact of_decide_eq_true hl.1
      obtain rfl := hids.eq hrow hrow' (hid.symm.trans hid')
      exact hl
    cases hk : keep entry with
    | true => simp
    | false =>
      by_cases hid : entry.1.1 = row.id
      · simp [hdropped hid hk]
      · simp [hid]
  · refine ⟨fun entry => !lapsed row now entry && keep entry, ?_, fun entry hm hdrop => ?_⟩
    · rw [List.filter_filter]
    · cases hk : keep entry with
      | false => exact hkeep entry hm hk
      | true =>
        change (!lapsed row now entry && keep entry) = false at hdrop
        rw [hk, Bool.and_true, Bool.not_eq_false'] at hdrop
        exact ⟨row, hrow, hdrop⟩

theorem occupiedAgentsOf_gives (hids : UniqueIds rows) (hrow : row ∈ rows) :
    Gives rows now reservations (occupiedAgentsOf row now) (occupied reservations now row) :=
  (reservedAgentsOf_gives hids hrow).bind (Gives.pure _)

/-- `worker` has a slot left. -/
def fits (reservations : Reservations W H) (options : SelectWorkerOptions W H) (now : Nat)
    (worker : SchedulableWorker W H) : Bool :=
  occupied reservations now worker < maxAgentsOf worker options.defaultMaxAgents

/-- The less occupied of two workers. -/
def leaner (reservations : Reservations W H) (now : Nat) (a b : SchedulableWorker W H) :
    SchedulableWorker W H :=
  if occupied reservations now a ≠ occupied reservations now b then
    if occupied reservations now a < occupied reservations now b then a else b
  else freshest a b

theorem lessOccupied_gives (hids : UniqueIds rows) {a b : SchedulableWorker W H} (ha : a ∈ rows)
    (hb : b ∈ rows) :
    Gives rows now reservations (lessOccupied now a b) (leaner reservations now a b) :=
  (occupiedAgentsOf_gives hids ha).bind ((occupiedAgentsOf_gives hids hb).bind (Gives.pure _))

theorem leaner_eq_or (a b : SchedulableWorker W H) :
    leaner reservations now a b = a ∨ leaner reservations now a b = b := by
  unfold leaner freshest
  split_ifs <;> simp

theorem foldlM_lessOccupied_gives (hids : UniqueIds rows) {worker : SchedulableWorker W H}
    {workers : List (SchedulableWorker W H)} (hw : worker ∈ rows) (hsub : workers ⊆ rows) :
    Gives rows now reservations (workers.foldlM (lessOccupied now) worker)
      (workers.foldl (leaner reservations now) worker) := by
  induction workers generalizing worker with
  | nil => exact Gives.pure _
  | cons other workers ih =>
    rw [List.foldlM_cons]
    have hother : other ∈ rows := hsub List.mem_cons_self
    have hleaner : leaner reservations now worker other ∈ rows := by
      rcases leaner_eq_or worker other with h | h
      · rw [h]
        exact hw
      · rw [h]
        exact hother
    exact (lessOccupied_gives hids hw hother).bind
      (ih hleaner fun _ h => hsub (List.mem_cons_of_mem _ h))

def leanest (reservations : Reservations W H) (now : Nat) :
    List (SchedulableWorker W H) → Option (SchedulableWorker W H)
  | [] => none
  | worker :: workers => some (workers.foldl (leaner reservations now) worker)

theorem pickLeastOccupied_gives (hids : UniqueIds rows)
    {workers : List (SchedulableWorker W H)} (hsub : workers ⊆ rows) :
    Gives rows now reservations (pickLeastOccupied workers now)
      (leanest reservations now workers) := by
  cases workers with
  | nil => exact Gives.pure _
  | cons worker workers =>
    exact (foldlM_lessOccupied_gives hids (hsub List.mem_cons_self)
      fun _ h => hsub (List.mem_cons_of_mem _ h)).bind (Gives.pure _)

theorem hasHeadroom_gives (options : SelectWorkerOptions W H) (hids : UniqueIds rows)
    (hrow : row ∈ rows) :
    Gives rows now reservations (hasHeadroom options now row) (fits reservations options now row) :=
  (occupiedAgentsOf_gives hids hrow).bind (Gives.pure _)

theorem withHeadroom_gives (options : SelectWorkerOptions W H) (hids : UniqueIds rows)
    {workers : List (SchedulableWorker W H)} (hsub : workers ⊆ rows) :
    Gives rows now reservations (withHeadroom options now workers)
      (workers.filter (fits reservations options now)) := by
  induction workers with
  | nil => exact Gives.pure _
  | cons worker workers ih =>
    rw [List.filter_cons]
    refine (hasHeadroom_gives options hids (hsub List.mem_cons_self)).bind ?_
    exact (ih fun _ h => hsub (List.mem_cons_of_mem _ h)).bind (Gives.pure _)

/-- The session's own worker, if it can host the session. -/
def stickyHost (reservations : Reservations W H) (options : SelectWorkerOptions W H) (now : Nat)
    (live : List (SchedulableWorker W H)) : Option (SchedulableWorker W H) :=
  (live.find? fun worker => options.affinityWorkerId = some worker.id).filter fun sticky =>
    isWarmOn sticky options.versionHash || fits reservations options now sticky

/-- The pick among live rows. -/
def pickAmong (reservations : Reservations W H) (options : SelectWorkerOptions W H) (now : Nat)
    (live : List (SchedulableWorker W H)) : PickResult W H :=
  match stickyHost reservations options now live with
  | some sticky => .ok sticky .affinity
  | none =>
    match pickFreshest (live.filter fun worker => isWarmOn worker options.versionHash) with
    | some warm => .ok warm .warm
    | none =>
      match leanest reservations now (live.filter (fits reservations options now)) with
      | some cold => .ok cold .cold
      | none => .noCapacity

/-- The pick, without the bookkeeping. -/
def pick (reservations : Reservations W H) (rows : List (SchedulableWorker W H))
    (options : SelectWorkerOptions W H) (now : Nat) : PickResult W H :=
  let live := rows.filter fun worker => isWorkerLive worker now options.heartbeatTtlMs
  if live.isEmpty then .noLiveWorker else pickAmong reservations options now live

theorem pickSticky_gives (options : SelectWorkerOptions W H) (hids : UniqueIds rows)
    {live : List (SchedulableWorker W H)} (hsub : live ⊆ rows) :
    Gives rows now reservations (pickSticky options now live)
      (stickyHost reservations options now live) := by
  unfold pickSticky stickyHost
  cases hfind : live.find? fun worker => options.affinityWorkerId = some worker.id with
  | none => exact Gives.pure none
  | some sticky =>
    have hsticky : sticky ∈ rows := hsub (List.mem_of_find?_eq_some hfind)
    have hfits : Gives rows now reservations (hasHeadroom options now sticky)
        (fits reservations options now sticky) := hasHeadroom_gives options hids hsticky
    show Gives rows now reservations
      (if isWarmOn sticky options.versionHash = true then pure (some sticky)
        else hasHeadroom options now sticky >>= fun headroom =>
          if headroom = true then pure (some sticky) else pure none) _
    rw [Option.filter_some]
    cases isWarmOn sticky options.versionHash with
    | true => exact Gives.pure (some sticky)
    | false =>
      refine hfits.bind ?_
      cases fits reservations options now sticky with
      | true => exact Gives.pure (some sticky)
      | false => exact Gives.pure none

/-- Counting the reservations throws lapsed ones out and changes no count. -/
theorem pickWorker_eq (options : SelectWorkerOptions W H) (hids : UniqueIds rows) :
    Gives rows now reservations (pickWorker rows options now)
      (pick reservations rows options now) := by
  unfold pickWorker pick
  have hlive : (rows.filter fun worker => isWorkerLive worker now options.heartbeatTtlMs) ⊆ rows :=
    List.filter_subset_self _
  revert hlive
  generalize rows.filter (fun worker => isWorkerLive worker now options.heartbeatTtlMs) = live
  intro hlive
  by_cases hempty : live.isEmpty = true
  · rw [if_pos hempty, if_pos hempty]
    exact Gives.pure _
  · rw [if_neg hempty, if_neg hempty]
    refine (pickSticky_gives options hids hlive).bind ?_
    unfold pickAmong
    cases stickyHost reservations options now live with
    | some sticky => exact Gives.pure _
    | none =>
      cases hwarm : pickFreshest (live.filter fun worker => isWarmOn worker options.versionHash) with
      | some warm => exact Gives.pure _
      | none =>
        have hfit : live.filter (fits reservations options now) ⊆ rows := fun _ h =>
          hlive (List.mem_filter.mp h).1
        refine (withHeadroom_gives options hids hlive).bind ?_
        refine (pickLeastOccupied_gives hids hfit).bind ?_
        cases leanest reservations now (live.filter (fits reservations options now)) with
        | some cold => exact Gives.pure _
        | none => exact Gives.pure _

/-! ## The order of the pick -/

/-- `a` stands before `b`, or is `b`: fewer slots taken, then the fresher heartbeat, then the
id. -/
def ComesFirst (slots : SchedulableWorker W H → Nat) (a b : SchedulableWorker W H) : Prop :=
  slots a < slots b ∨ (slots a = slots b ∧
    (b.lastHeartbeatAt < a.lastHeartbeatAt ∨ (b.lastHeartbeatAt = a.lastHeartbeatAt ∧ a.id ≤ b.id)))

section

omit [DecidableEq H]

variable {slots : SchedulableWorker W H → Nat} {a b c : SchedulableWorker W H}

theorem ComesFirst.refl : ComesFirst slots a a := Or.inr ⟨rfl, Or.inr ⟨rfl, le_rfl⟩⟩

theorem ComesFirst.trans (h : ComesFirst slots a b) (h' : ComesFirst slots b c) :
    ComesFirst slots a c := by
  rcases h with h | ⟨hab, h⟩
  · rcases h' with h' | ⟨hbc, -⟩
    · exact Or.inl (h.trans h')
    · exact Or.inl (hbc ▸ h)
  · rcases h' with h' | ⟨hbc, h'⟩
    · exact Or.inl (hab ▸ h')
    · refine Or.inr ⟨hab.trans hbc, ?_⟩
      rcases h with h | ⟨hab', h⟩
      · rcases h' with h' | ⟨hbc', -⟩
        · exact Or.inl (h'.trans h)
        · exact Or.inl (hbc' ▸ h)
      · rcases h' with h' | ⟨hbc', h'⟩
        · exact Or.inl (hab' ▸ h')
        · exact Or.inr ⟨hbc'.trans hab', h.trans h'⟩

theorem ComesFirst.antisymm (h : ComesFirst slots a b) (h' : ComesFirst slots b a) :
    a.id = b.id := by
  rcases h with h | ⟨hab, h⟩
  · rcases h' with h' | ⟨hba, -⟩
    · exact absurd (h.trans h') (lt_irrefl _)
    · exact absurd h (hba ▸ lt_irrefl _)
  · rcases h' with h' | ⟨-, h'⟩
    · exact absurd h' (hab ▸ lt_irrefl _)
    · rcases h with h | ⟨hab', h⟩
      · rcases h' with h' | ⟨hba', -⟩
        · exact absurd (h.trans h') (lt_irrefl _)
        · exact absurd h (hba' ▸ lt_irrefl _)
      · rcases h' with h' | ⟨-, h'⟩
        · exact absurd h' (hab' ▸ lt_irrefl _)
        · exact le_antisymm h h'

/-- A choice of the one that comes first. -/
def Chooses (slots : SchedulableWorker W H → Nat)
    (choose : SchedulableWorker W H → SchedulableWorker W H → SchedulableWorker W H) : Prop :=
  ∀ a b, (choose a b = a ∧ ComesFirst slots a b) ∨ (choose a b = b ∧ ComesFirst slots b a)

/-- Among all of them. -/
theorem Chooses.foldl
    {choose : SchedulableWorker W H → SchedulableWorker W H → SchedulableWorker W H}
    (h : Chooses slots choose) (workers : List (SchedulableWorker W H)) (worker) :
    workers.foldl choose worker ∈ worker :: workers ∧
      ∀ other ∈ worker :: workers, ComesFirst slots (workers.foldl choose worker) other := by
  induction workers generalizing worker with
  | nil =>
    refine ⟨List.mem_cons_self, fun other hm => ?_⟩
    obtain rfl := List.mem_singleton.mp hm
    exact ComesFirst.refl
  | cons next workers ih =>
    rw [List.foldl_cons]
    obtain ⟨hmem, hfirst⟩ := ih (choose worker next)
    have hhead := hfirst _ List.mem_cons_self
    have hrest : ∀ other ∈ workers, ComesFirst slots (workers.foldl choose (choose worker next))
        other := fun other hm => hfirst other (List.mem_cons_of_mem _ hm)
    rcases h worker next with ⟨heq, hle⟩ | ⟨heq, hle⟩
    · rw [heq] at hmem hhead hrest ⊢
      refine ⟨?_, fun other hm => ?_⟩
      · rcases List.mem_cons.mp hmem with hmem | hmem
        · rw [hmem]
          exact List.mem_cons_self
        · exact List.mem_cons_of_mem _ (List.mem_cons_of_mem _ hmem)
      · rcases List.mem_cons.mp hm with rfl | hm
        · exact hhead
        · rcases List.mem_cons.mp hm with rfl | hm
          · exact hhead.trans hle
          · exact hrest other hm
    · rw [heq] at hmem hhead hrest ⊢
      refine ⟨List.mem_cons_of_mem _ hmem, fun other hm => ?_⟩
      rcases List.mem_cons.mp hm with rfl | hm
      · exact hhead.trans hle
      · rcases List.mem_cons.mp hm with rfl | hm
        · exact hhead
        · exact hrest other hm

theorem freshest_chooses : Chooses (fun _ => 0) (freshest (W := W) (H := H)) := by
  intro a b
  unfold freshest
  split
  · next hne =>
    split
    · next hlt => exact Or.inl ⟨rfl, Or.inr ⟨rfl, Or.inl hlt⟩⟩
    · next hlt =>
      exact Or.inr ⟨rfl, Or.inr ⟨rfl, Or.inl (lt_of_le_of_ne (not_lt.mp hlt) hne)⟩⟩
  · next heq =>
    have heq' : a.lastHeartbeatAt = b.lastHeartbeatAt := not_not.mp heq
    split
    · next hlt => exact Or.inl ⟨rfl, Or.inr ⟨rfl, Or.inr ⟨heq'.symm, hlt.le⟩⟩⟩
    · next hlt => exact Or.inr ⟨rfl, Or.inr ⟨rfl, Or.inr ⟨heq', not_lt.mp hlt⟩⟩⟩

end

theorem leaner_chooses (reservations : Reservations W H) (now : Nat) :
    Chooses (occupied reservations now) (leaner reservations now) := by
  intro a b
  unfold leaner
  split
  · next hne =>
    split
    · next hlt => exact Or.inl ⟨rfl, Or.inl hlt⟩
    · next hlt => exact Or.inr ⟨rfl, Or.inl (lt_of_le_of_ne (not_lt.mp hlt) (Ne.symm hne))⟩
  · next heq =>
    have heq' := not_not.mp heq
    rcases freshest_chooses a b with ⟨h, h'⟩ | ⟨h, h'⟩
    · refine Or.inl ⟨h, Or.inr ⟨heq', ?_⟩⟩
      exact (h'.resolve_left (lt_irrefl _)).2
    · refine Or.inr ⟨h, Or.inr ⟨heq'.symm, ?_⟩⟩
      exact (h'.resolve_left (lt_irrefl _)).2

/-- No worker fails, and every one is below its capacity. -/
structure Healthy (reservations : Reservations W H) (rows : List (SchedulableWorker W H))
    (options : SelectWorkerOptions W H) (now : Nat) : Prop where
  live : ∀ row ∈ rows, isWorkerLive row now options.heartbeatTtlMs = true
  room : ∀ row ∈ rows, fits reservations options now row = true

/-- The row the order of the pick puts first: the session's own worker; failing that, one that
reports the version; failing that, the least occupied one. -/
def First (reservations : Reservations W H) (rows : List (SchedulableWorker W H))
    (options : SelectWorkerOptions W H) (now : Nat) (row : SchedulableWorker W H) : Prop :=
  options.affinityWorkerId = some row.id ∨
    ((∀ other ∈ rows, options.affinityWorkerId ≠ some other.id) ∧
      (isWarmOn row options.versionHash = true ∨
        ((∀ other ∈ rows, isWarmOn other options.versionHash = false) ∧
          ∀ other ∈ rows, ComesFirst (occupied reservations now) row other)))

/-- Among healthy workers the pick is a row that comes first. -/
theorem pick_healthy {options : SelectWorkerOptions W H} (hne : rows ≠ [])
    (h : Healthy reservations rows options now) :
    ∃ row ∈ rows, ∃ reason, pick reservations rows options now = .ok row reason ∧
      First reservations rows options now row := by
  obtain ⟨head, tail, rfl⟩ := List.exists_cons_of_ne_nil hne
  have hlive : ((head :: tail).filter fun worker =>
      isWorkerLive worker now options.heartbeatTtlMs) = head :: tail :=
    List.filter_eq_self.mpr h.live
  have hroom : (head :: tail).filter (fits reservations options now) = head :: tail :=
    List.filter_eq_self.mpr h.room
  have hpick : pick reservations (head :: tail) options now =
      pickAmong reservations options now (head :: tail) := by
    unfold pick
    rw [hlive]
    rfl
  rw [hpick, pickAmong, hroom]
  cases hfind : (head :: tail).find? fun worker => options.affinityWorkerId = some worker.id with
  | some sticky =>
    have hsticky : sticky ∈ head :: tail := List.mem_of_find?_eq_some hfind
    have hhost : stickyHost reservations options now (head :: tail) = some sticky := by
      rw [stickyHost, hfind, Option.filter_some, h.room sticky hsticky, Bool.or_true]
      rfl
    rw [hhost]
    have hnamed := List.find?_some hfind
    exact ⟨sticky, hsticky, .affinity, rfl, Or.inl (of_decide_eq_true hnamed)⟩
  | none =>
    have hnone : ∀ other ∈ head :: tail, options.affinityWorkerId ≠ some other.id :=
      fun other hm heq => List.find?_eq_none.mp hfind other hm (decide_eq_true heq)
    have hhost : stickyHost reservations options now (head :: tail) = none := by
      rw [stickyHost, hfind]
      rfl
    rw [hhost]
    cases hwarm : (head :: tail).filter fun worker => isWarmOn worker options.versionHash with
    | cons worker workers =>
      have hmem := (freshest_chooses.foldl workers worker).1
      rw [← hwarm] at hmem
      obtain ⟨hrow, hreports⟩ := List.mem_filter.mp hmem
      exact ⟨_, hrow, .warm, rfl, Or.inr ⟨hnone, Or.inl hreports⟩⟩
    | nil =>
      have hcold : ∀ other ∈ head :: tail, isWarmOn other options.versionHash = false :=
        fun other hm => Bool.eq_false_iff.mpr (List.filter_eq_nil_iff.mp hwarm other hm)
      obtain ⟨hmem, hfirst⟩ := (leaner_chooses reservations now).foldl tail head
      exact ⟨_, hmem, .cold, rfl, Or.inr ⟨hnone, Or.inr ⟨hcold, hfirst⟩⟩⟩

/-- Two rows that come first are one, if no two rows report the version. -/
theorem First.unique {options : SelectWorkerOptions W H}
    {row row' : SchedulableWorker W H} (hm : row ∈ rows) (hm' : row' ∈ rows)
    (h : First reservations rows options now row) (h' : First reservations rows options now row')
    (hwarm : isWarmOn row options.versionHash = true → isWarmOn row' options.versionHash = true →
      row.id = row'.id) : row.id = row'.id := by
  rcases h with h | ⟨hno, h⟩
  · rcases h' with h' | ⟨hno', -⟩
    · exact Option.some.inj (h.symm.trans h')
    · exact absurd h (hno' row hm)
  · rcases h' with h' | ⟨-, h'⟩
    · exact absurd h' (hno row' hm')
    · rcases h with h | ⟨hcold, h⟩
      · rcases h' with h' | ⟨hcold', -⟩
        · exact hwarm h h'
        · exact absurd h (Bool.eq_false_iff.mp (hcold' row hm))
      · rcases h' with h' | ⟨-, h'⟩
        · exact absurd h' (Bool.eq_false_iff.mp (hcold row' hm'))
        · exact (h row' hm').antisymm (h' row hm)

end

/-! ## The fleet -/

/-- The control plane's view of the fleet, and what the workers really do. -/
structure Fleet (W H : Type) where
  now : Nat
  workers : List (SchedulableWorker W H)
  reservations : Reservations W H
  /-- calls of `selectWorker`, each with the rows it was answered -/
  calls : List (SelectWorkerOptions W H × List (SchedulableWorker W H))
  running : W → List H
  booting : List (W × H)

inductive FleetEvent (W H : Type) where
  | tick (ms : Nat)
  | heartbeat (id : W) (maxAgents activeRequests : Option Nat)
  | query (options : SelectWorkerOptions W H) (rows : List (SchedulableWorker W H))
  | place (options : SelectWorkerOptions W H) (rows : List (SchedulableWorker W H))
      (result : PickResult W H)
  | booted (id : W) (hash : H)

/-- A row after the worker's heartbeat. -/
def report (fleet : Fleet W H) (maxAgents activeRequests : Option Nat)
    (row : SchedulableWorker W H) : SchedulableWorker W H :=
  { row with
    lastHeartbeatAt := fleet.now
    capacity :=
      { maxAgents := maxAgents
        runningAgents := some (fleet.running row.id).length
        activeRequests := activeRequests
        runningHashes := some (fleet.running row.id) } }

/-- The worker is asked to ensure the agent: it boots one, unless it has it or is at it. -/
def ensure (fleet : Fleet W H) (options : SelectWorkerOptions W H) (result : PickResult W H) :
    List (W × H) :=
  match result, options.versionHash with
  | .ok worker _, some hash =>
    if hash ∈ fleet.running worker.id ∨ (worker.id, hash) ∈ fleet.booting then fleet.booting
    else (worker.id, hash) :: fleet.booting
  | _, _ => fleet.booting

inductive FleetStep (reservationTtlMs : Nat) : Fleet W H → FleetEvent W H → Fleet W H → Prop
  | tick (fleet : Fleet W H) (ms : Nat) :
      FleetStep reservationTtlMs fleet (.tick ms) { fleet with now := fleet.now + ms }
  | heartbeat (fleet : Fleet W H) (id : W) (maxAgents activeRequests : Option Nat) :
      FleetStep reservationTtlMs fleet (.heartbeat id maxAgents activeRequests)
        { fleet with workers := fleet.workers.map fun row =>
            if row.id = id then report fleet maxAgents activeRequests row else row }
  | query (fleet : Fleet W H) (options : SelectWorkerOptions W H)
      (rows : List (SchedulableWorker W H)) (h : IsQueried fleet.workers rows) :
      FleetStep reservationTtlMs fleet (.query options rows)
        { fleet with calls := fleet.calls ++ [(options, rows)] }
  | place (fleet : Fleet W H) (options : SelectWorkerOptions W H)
      (rows : List (SchedulableWorker W H)) (result : PickResult W H)
      (reservations : Reservations W H)
      (front back : List (SelectWorkerOptions W H × List (SchedulableWorker W H)))
      (hcall : fleet.calls = front ++ (options, rows) :: back)
      (h : (selectWorker reservationTtlMs rows options fleet.now).run fleet.reservations =
        (result, reservations)) :
      FleetStep reservationTtlMs fleet (.place options rows result)
        { fleet with
          reservations := reservations
          calls := front ++ back
          booting := ensure fleet options result }
  | booted (fleet : Fleet W H) (id : W) (hash : H) (h : (id, hash) ∈ fleet.booting) :
      FleetStep reservationTtlMs fleet (.booted id hash)
        { fleet with
          running := Function.update fleet.running id (hash :: fleet.running id)
          booting := fleet.booting.filter fun boot => boot ≠ (id, hash) }

/-- The registry has a live row of the worker. -/
def Fleet.IsLive (fleet : Fleet W H) (id : W) : Prop :=
  ∃ row ∈ fleet.workers, row.id = id ∧ row.status = .live

/-- A live worker that runs the version or holds an unexpired reservation to boot it. -/
def Fleet.Holds (fleet : Fleet W H) (hash : H) (id : W) : Prop :=
  fleet.IsLive id ∧ (hash ∈ fleet.running id ∨
    ∃ expiresAt, ((id, hash), expiresAt) ∈ fleet.reservations ∧ fleet.now < expiresAt)

/-- The worker runs the version or boots it. -/
def Fleet.Committed (fleet : Fleet W H) (hash : H) (id : W) : Prop :=
  hash ∈ fleet.running id ∨ (id, hash) ∈ fleet.booting

/-- Nothing is under way, the heartbeats report what runs, and no version runs twice. -/
structure Fleet.Settled (fleet : Fleet W H) : Prop where
  reservations : fleet.reservations = []
  calls : fleet.calls = []
  booting : fleet.booting = []
  ids : UniqueIds fleet.workers
  reports : ∀ row ∈ fleet.workers, ∀ hash ∈ row.runningHashes, hash ∈ fleet.running row.id
  sole : ∀ hash id id', fleet.IsLive id → fleet.IsLive id' → hash ∈ fleet.running id →
    hash ∈ fleet.running id' → id = id'

/-- What holds as long as no version was placed beside its holder. -/
structure Fleet.Sound (fleet : Fleet W H) : Prop where
  ids : UniqueIds fleet.workers
  reports : ∀ row ∈ fleet.workers, ∀ hash ∈ row.runningHashes, hash ∈ fleet.running row.id
  calls : ∀ call ∈ fleet.calls, UniqueIds call.2 ∧ ∀ row ∈ call.2, fleet.IsLive row.id ∧
    ∀ hash ∈ row.runningHashes, hash ∈ fleet.running row.id
  keys : OrderedMap.UniqueKeys fleet.reservations
  reserved : ∀ id hash expiresAt, ((id, hash), expiresAt) ∈ fleet.reservations →
    fleet.Committed hash id
  booting : ∀ id hash, (id, hash) ∈ fleet.booting → hash ∉ fleet.running id ∧
    ∃ expiresAt, ((id, hash), expiresAt) ∈ fleet.reservations ∧ fleet.now < expiresAt
  sole : ∀ hash id id', fleet.IsLive id → fleet.IsLive id' → fleet.Committed hash id →
    fleet.Committed hash id' → id = id'

open Transition (Move Trace)

/-- The claim's fleet: at every pick the workers are healthy. -/
def HealthyMove (m : Move (Fleet W H) (FleetEvent W H)) : Prop :=
  ∀ options rows result, m.event = .place options rows result →
    Healthy m.before.reservations rows options m.before.now

/-- No reservation expires under the boot it stands for. -/
def InTime (m : Move (Fleet W H) (FleetEvent W H)) : Prop :=
  ∀ ms, m.event = .tick ms → ∀ key ∈ m.before.booting, ∀ expiresAt,
    (key, expiresAt) ∈ m.before.reservations → m.before.now + ms < expiresAt

/-- The step places no version beside a worker that holds it. -/
def SoleHolder (m : Move (Fleet W H) (FleetEvent W H)) : Prop :=
  ∀ options rows worker reason hash, m.event = .place options rows (.ok worker reason) →
    options.versionHash = some hash → ∀ id, m.before.Holds hash id → id = worker.id

/-- Whoever holds the version is among the rows that the pick goes by, and comes first. -/
def HolderFirst (m : Move (Fleet W H) (FleetEvent W H)) : Prop :=
  ∀ options rows result hash, m.event = .place options rows result →
    options.versionHash = some hash → rows ≠ [] → ∀ id, m.before.Holds hash id →
      ∃ row ∈ rows, row.id = id ∧ First m.before.reservations rows options m.before.now row

section

variable {fleet : Fleet W H} {rows : List (SchedulableWorker W H)} {now : Nat}
  {reservations : Reservations W H} {options : SelectWorkerOptions W H}

/-- What a call of `selectWorker` returns and leaves. -/
theorem selectWorker_eq (reservationTtlMs : Nat) (options : SelectWorkerOptions W H) (now : Nat)
    (reservations : Reservations W H) (hids : UniqueIds rows) :
    ∃ pruned, Pruned rows now reservations pruned ∧
      (selectWorker reservationTtlMs rows options now).run reservations =
        (pick reservations rows options now,
          reserveFor reservationTtlMs options now (pick reservations rows options now) pruned) := by
  obtain ⟨pruned, hrun, hpruned⟩ := pickWorker_eq options hids reservations Pruned.refl
  refine ⟨pruned, hpruned, ?_⟩
  rw [selectWorker, StateT.run_bind, hrun]
  rfl

theorem Pruned.mem {pruned : Reservations W H} (h : Pruned rows now reservations pruned)
    {entry : (W × H) × Nat} (hm : entry ∈ reservations)
    (hkept : ∀ row ∈ rows, lapsed row now entry = false) : entry ∈ pruned := by
  obtain ⟨keep, rfl, hkeep⟩ := h
  refine List.mem_filter.mpr ⟨hm, ?_⟩
  cases hk : keep entry with
  | true => rfl
  | false =>
    obtain ⟨row, hrow, hlapsed⟩ := hkeep entry hm hk
    rw [hkept row hrow] at hlapsed
    cases hlapsed

theorem Pruned.subset {pruned : Reservations W H} (h : Pruned rows now reservations pruned) :
    pruned ⊆ reservations := by
  obtain ⟨keep, rfl, -⟩ := h
  exact List.filter_subset_self _

theorem Pruned.keys {pruned : Reservations W H} (h : Pruned rows now reservations pruned)
    (hkeys : OrderedMap.UniqueKeys reservations) : OrderedMap.UniqueKeys pruned := by
  obtain ⟨keep, rfl, -⟩ := h
  exact hkeys.filter keep

theorem place_call {reservationTtlMs : Nat} {event : FleetEvent W H} {fleet' : Fleet W H}
    {result : PickResult W H} (hstep : FleetStep reservationTtlMs fleet event fleet')
    (hevent : event = .place options rows result) : (options, rows) ∈ fleet.calls := by
  subst hevent
  cases hstep with
  | place options rows result reservations front back hcall _ =>
    rw [hcall]
    exact List.mem_append_right _ List.mem_cons_self

theorem place_result {reservationTtlMs : Nat} {event : FleetEvent W H} {fleet' : Fleet W H}
    {result : PickResult W H} (hstep : FleetStep reservationTtlMs fleet event fleet')
    (hevent : event = .place options rows result) (hsound : fleet.Sound) :
    result = pick fleet.reservations rows options fleet.now := by
  have hids := (hsound.calls _ (place_call hstep hevent)).1
  subst hevent
  cases hstep with
  | place options rows result reservations front back _ hrun =>
    obtain ⟨pruned, -, hrun'⟩ :=
      selectWorker_eq reservationTtlMs options fleet.now fleet.reservations hids
    exact (Prod.mk.inj (hrun.symm.trans hrun')).1

omit [LinearOrder W] in
theorem isWarmOn_iff {row : SchedulableWorker W H} {hash : H} :
    isWarmOn row (some hash) = true ↔ hash ∈ row.runningHashes :=
  decide_eq_true_iff

/-- While no version has been placed beside its holder, a pick places one so exactly when the
holder does not come first. -/
theorem soleHolder_iff {reservationTtlMs : Nat} (m : Move (Fleet W H) (FleetEvent W H))
    (hstep : FleetStep reservationTtlMs m.before m.event m.after) (hhealthy : HealthyMove m)
    (hsound : m.before.Sound) : SoleHolder m ↔ HolderFirst m := by
  constructor
  · rintro hsole options rows result hash hevent hhash hne id hholds
    obtain ⟨row, hrow, reason, hpick, hfirst⟩ :=
      pick_healthy hne (hhealthy options rows result hevent)
    have hresult : result = .ok row reason := by
      rw [← hpick]
      exact place_result hstep hevent hsound
    rw [hresult] at hevent
    exact ⟨row, hrow, (hsole options rows row reason hash hevent hhash id hholds).symm, hfirst⟩
  · rintro hfirst options rows worker reason hash hevent hhash id hholds
    have hpick := place_result hstep hevent hsound
    have hne : rows ≠ [] := by
      rintro rfl
      cases hpick
    obtain ⟨row, hrow, reason', hpick', hfirst'⟩ :=
      pick_healthy hne (hhealthy options rows _ hevent)
    obtain ⟨rfl, -⟩ := PickResult.ok.inj (hpick.trans hpick')
    obtain ⟨row', hrow', rfl, hfirst''⟩ := hfirst options rows _ hash hevent hhash hne id hholds
    have hcall := hsound.calls _ (place_call hstep hevent)
    refine hfirst''.unique hrow' hrow hfirst' fun hwarm' hwarm => ?_
    rw [hhash, isWarmOn_iff] at hwarm hwarm'
    exact hsound.sole hash _ _ (hcall.2 _ hrow').1 (hcall.2 _ hrow).1
      (Or.inl ((hcall.2 _ hrow').2 hash hwarm')) (Or.inl ((hcall.2 _ hrow).2 hash hwarm))

/-! ## Runs -/

omit [LinearOrder W] [DecidableEq H] in
theorem Fleet.Settled.sound (h : fleet.Settled) : fleet.Sound where
  ids := h.ids
  reports := h.reports
  calls call hm := by
    rw [h.calls] at hm
    cases hm
  keys := by
    rw [h.reservations]
    exact List.nodup_nil
  reserved id hash expiresAt hm := by
    rw [h.reservations] at hm
    cases hm
  booting id hash hm := by
    rw [h.booting] at hm
    cases hm
  sole hash id id' hlive hlive' hc hc' := by
    rcases hc with hc | hc
    · rcases hc' with hc' | hc'
      · exact h.sole hash id id' hlive hlive' hc hc'
      · rw [h.booting] at hc'
        cases hc'
    · rw [h.booting] at hc
      cases hc

omit [LinearOrder W] [DecidableEq H] in
theorem Fleet.Sound.tick (h : fleet.Sound) {ms : Nat}
    (hintime : ∀ key ∈ fleet.booting, ∀ expiresAt, (key, expiresAt) ∈ fleet.reservations →
      fleet.now + ms < expiresAt) : ({ fleet with now := fleet.now + ms } : Fleet W H).Sound where
  ids := h.ids
  reports := h.reports
  calls := h.calls
  keys := h.keys
  reserved := h.reserved
  booting id hash hm := by
    obtain ⟨hidle, expiresAt, hmem, -⟩ := h.booting id hash hm
    exact ⟨hidle, expiresAt, hmem, hintime _ hm _ hmem⟩
  sole := h.sole

omit [DecidableEq H] in
theorem isLive_heartbeat {id : W} {maxAgents activeRequests : Option Nat} {id' : W} :
    ({ fleet with workers := fleet.workers.map fun row =>
        if row.id = id then report fleet maxAgents activeRequests row else row } :
      Fleet W H).IsLive id' ↔ fleet.IsLive id' := by
  constructor
  · rintro ⟨row, hm, hid, hstatus⟩
    obtain ⟨row₀, hm₀, rfl⟩ := List.mem_map.mp hm
    refine ⟨row₀, hm₀, ?_⟩
    split at hid
    · next hrow =>
      rw [if_pos hrow] at hstatus
      exact ⟨hid, hstatus⟩
    · next hrow =>
      rw [if_neg hrow] at hstatus
      exact ⟨hid, hstatus⟩
  · rintro ⟨row, hm, hid, hstatus⟩
    refine ⟨_, List.mem_map_of_mem hm, ?_⟩
    split
    · exact ⟨hid, hstatus⟩
    · exact ⟨hid, hstatus⟩

omit [DecidableEq H] in
theorem Fleet.Sound.heartbeat (h : fleet.Sound) (id : W) (maxAgents activeRequests : Option Nat) :
    ({ fleet with workers := fleet.workers.map fun row =>
        if row.id = id then report fleet maxAgents activeRequests row else row } :
      Fleet W H).Sound where
  ids := by
    have hids : (fleet.workers.map fun row =>
        if row.id = id then report fleet maxAgents activeRequests row else row).map
          SchedulableWorker.id = fleet.workers.map SchedulableWorker.id := by
      rw [List.map_map]
      refine List.map_congr_left fun row _ => ?_
      show SchedulableWorker.id (if row.id = id then _ else row) = row.id
      split
      · rfl
      · rfl
    show (List.map SchedulableWorker.id _).Nodup
    rw [hids]
    exact h.ids
  reports row hm hash hh := by
    obtain ⟨row₀, hm₀, rfl⟩ := List.mem_map.mp hm
    split at hh
    · next hrow =>
      rw [if_pos hrow]
      exact hh
    · next hrow =>
      rw [if_neg hrow]
      exact h.reports row₀ hm₀ hash hh
  calls call hm := by
    obtain ⟨hids, hrows⟩ := h.calls call hm
    exact ⟨hids, fun row hrow => ⟨isLive_heartbeat.mpr (hrows row hrow).1, (hrows row hrow).2⟩⟩
  keys := h.keys
  reserved := h.reserved
  booting := h.booting
  sole hash id id' hlive hlive' :=
    h.sole hash id id' (isLive_heartbeat.mp hlive) (isLive_heartbeat.mp hlive')

omit [LinearOrder W] [DecidableEq H] in
theorem IsQueried.mem {workers : List (SchedulableWorker W H)} {row : SchedulableWorker W H}
    (h : IsQueried workers rows) (hrow : row ∈ rows) : row ∈ workers ∧ row.status = .live := by
  obtain ⟨sorted, hperm, -, rfl⟩ := h
  have hfilter := hperm.mem_iff.mp (List.mem_of_mem_take hrow)
  exact ⟨(List.mem_filter.mp hfilter).1, of_decide_eq_true (List.mem_filter.mp hfilter).2⟩

omit [LinearOrder W] [DecidableEq H] in
theorem IsQueried.ids {workers : List (SchedulableWorker W H)} (h : IsQueried workers rows)
    (hids : UniqueIds workers) : UniqueIds rows := by
  obtain ⟨sorted, hperm, -, rfl⟩ := h
  have hsorted : UniqueIds sorted := by
    refine ((hperm.map _).nodup_iff).mpr ?_
    exact hids.sublist (List.filter_sublist.map _)
  exact hsorted.sublist ((List.take_sublist 200 sorted).map _)

omit [LinearOrder W] [DecidableEq H] in
theorem Fleet.Sound.query (h : fleet.Sound) (options : SelectWorkerOptions W H)
    (hrows : IsQueried fleet.workers rows) :
    ({ fleet with calls := fleet.calls ++ [(options, rows)] } : Fleet W H).Sound where
  ids := h.ids
  reports := h.reports
  calls call hm := by
    rcases List.mem_append.mp hm with hm | hm
    · exact h.calls call hm
    · obtain rfl := List.mem_singleton.mp hm
      refine ⟨hrows.ids h.ids, fun row hrow => ?_⟩
      obtain ⟨hmem, hlive⟩ := hrows.mem hrow
      exact ⟨⟨row, hmem, rfl, hlive⟩, h.reports row hmem⟩
  keys := h.keys
  reserved := h.reserved
  booting := h.booting
  sole := h.sole

omit [DecidableEq H] in
theorem mem_booted {running : W → List H} {id id' : W} {hash hash' : H} :
    hash' ∈ Function.update running id (hash :: running id) id' ↔
      hash' ∈ running id' ∨ (id', hash') = (id, hash) := by
  by_cases hid : id' = id
  · subst hid
    rw [Function.update_self, List.mem_cons, Prod.mk.injEq, or_comm]
    exact or_congr_right ⟨fun h => ⟨rfl, h⟩, fun h => h.2⟩
  · rw [Function.update_of_ne hid]
    exact ⟨Or.inl, fun h => h.resolve_right fun heq => hid (Prod.mk.inj heq).1⟩

theorem Fleet.committed_booted {id id' : W} {hash hash' : H} (hboot : (id, hash) ∈ fleet.booting) :
    ({ fleet with
        running := Function.update fleet.running id (hash :: fleet.running id)
        booting := fleet.booting.filter fun boot => boot ≠ (id, hash) } :
      Fleet W H).Committed hash' id' ↔ fleet.Committed hash' id' := by
  constructor
  · rintro (hm | hm)
    · rcases mem_booted.mp hm with hm | heq
      · exact Or.inl hm
      · exact Or.inr (heq ▸ hboot)
    · exact Or.inr (List.mem_filter.mp hm).1
  · rintro (hm | hm)
    · exact Or.inl (mem_booted.mpr (Or.inl hm))
    · by_cases heq : (id', hash') = (id, hash)
      · exact Or.inl (mem_booted.mpr (Or.inr heq))
      · exact Or.inr (List.mem_filter.mpr ⟨hm, decide_eq_true heq⟩)

theorem Fleet.Sound.booted (h : fleet.Sound) {id : W} {hash : H} (hboot : (id, hash) ∈ fleet.booting) :
    ({ fleet with
        running := Function.update fleet.running id (hash :: fleet.running id)
        booting := fleet.booting.filter fun boot => boot ≠ (id, hash) } : Fleet W H).Sound := by
  have hgrows : ∀ hash' id', hash' ∈ fleet.running id' →
      hash' ∈ Function.update fleet.running id (hash :: fleet.running id) id' :=
    fun _ _ hm => mem_booted.mpr (Or.inl hm)
  exact
    { ids := h.ids
      reports := fun row hm hash' hh => hgrows hash' _ (h.reports row hm hash' hh)
      calls := fun call hm => ⟨(h.calls call hm).1, fun row hrow =>
        ⟨((h.calls call hm).2 row hrow).1, fun hash' hh =>
          hgrows hash' _ (((h.calls call hm).2 row hrow).2 hash' hh)⟩⟩
      keys := h.keys
      reserved := fun id' hash' expiresAt hm =>
        (Fleet.committed_booted hboot).mpr (h.reserved id' hash' expiresAt hm)
      booting := fun id' hash' hm => by
        obtain ⟨hold, hne⟩ := List.mem_filter.mp hm
        refine ⟨fun hr => ?_, (h.booting id' hash' hold).2⟩
        rcases mem_booted.mp hr with hr | heq
        · exact (h.booting id' hash' hold).1 hr
        · exact of_decide_eq_true hne heq
      sole := fun hash' id' id'' hlive hlive' hc hc' =>
        h.sole hash' id' id'' hlive hlive' ((Fleet.committed_booted hboot).mp hc)
          ((Fleet.committed_booted hboot).mp hc') }

theorem Fleet.Sound.pruned (h : fleet.Sound)
    {front back : List (SelectWorkerOptions W H × List (SchedulableWorker W H))}
    (hcall : fleet.calls = front ++ (options, rows) :: back) {pruned : Reservations W H}
    (hpruned : Pruned rows fleet.now fleet.reservations pruned) :
    ({ fleet with reservations := pruned, calls := front ++ back } : Fleet W H).Sound where
  ids := h.ids
  reports := h.reports
  calls call hm := by
    refine h.calls call ?_
    rw [hcall]
    rcases List.mem_append.mp hm with hm | hm
    · exact List.mem_append_left _ hm
    · exact List.mem_append_right _ (List.mem_cons_of_mem _ hm)
  keys := hpruned.keys h.keys
  reserved id hash expiresAt hm := h.reserved id hash expiresAt (hpruned.subset hm)
  booting id hash hm := by
    obtain ⟨hidle, expiresAt, hmem, hlater⟩ := h.booting id hash hm
    refine ⟨hidle, expiresAt, hpruned.mem hmem fun row hrow => ?_, hlater⟩
    -- a row that reports the agent is one of a worker that runs it
    have hreports : id = row.id → hash ∉ row.runningHashes := by
      rintro rfl hh
      have hmemcall : (options, rows) ∈ fleet.calls := by
        rw [hcall]
        exact List.mem_append_right _ List.mem_cons_self
      exact hidle (((h.calls _ hmemcall).2 row hrow).2 hash hh)
    by_cases hid : id = row.id
    · simp [lapsed, hreports hid, Nat.not_le.mpr hlater]
    · simp [lapsed, hid]
  sole := h.sole

theorem Fleet.Sound.reserve (h : fleet.Sound) {reservationTtlMs : Nat} (httl : 0 < reservationTtlMs)
    {worker : W} {hash : H} {booting : List (W × H)} (hlive : fleet.IsLive worker)
    (hsole : ∀ id, fleet.Holds hash id → id = worker)
    (hboot : (booting = fleet.booting ∧ fleet.Committed hash worker) ∨
      (booting = (worker, hash) :: fleet.booting ∧ hash ∉ fleet.running worker)) :
    ({ fleet with
        reservations := reserveAgentSlot worker hash fleet.now reservationTtlMs fleet.reservations
        booting := booting } : Fleet W H).Sound := by
  have hmem : ∀ id hash' expiresAt, ((id, hash'), expiresAt) ∈
      reserveAgentSlot worker hash fleet.now reservationTtlMs fleet.reservations ↔
        if (id, hash') = (worker, hash) then expiresAt = fleet.now + reservationTtlMs
        else ((id, hash'), expiresAt) ∈ fleet.reservations := fun _ _ _ => OrderedMap.mem_set h.keys
  have hbooting : ∀ boot ∈ booting, boot ∈ fleet.booting ∨
      (boot = (worker, hash) ∧ hash ∉ fleet.running worker) := by
    intro boot hm
    rcases hboot with ⟨rfl, -⟩ | ⟨rfl, hidle⟩
    · exact Or.inl hm
    · rcases List.mem_cons.mp hm with rfl | hm
      · exact Or.inr ⟨rfl, hidle⟩
      · exact Or.inl hm
  have hgrows : ∀ boot ∈ fleet.booting, boot ∈ booting := by
    intro boot hm
    rcases hboot with ⟨rfl, -⟩ | ⟨rfl, -⟩
    · exact hm
    · exact List.mem_cons_of_mem _ hm
  have hnew : hash ∈ fleet.running worker ∨ (worker, hash) ∈ booting := by
    rcases hboot with ⟨rfl, hc⟩ | ⟨rfl, -⟩
    · exact hc
    · exact Or.inr List.mem_cons_self
  -- whoever is committed to the version holds it, and is this worker
  have hheld : ∀ id, fleet.IsLive id → fleet.Committed hash id → id = worker := by
    intro id hl hc
    refine hsole id ⟨hl, ?_⟩
    rcases hc with hc | hc
    · exact Or.inl hc
    · exact Or.inr (h.booting id hash hc).2
  have hcommitted : ∀ hash' id, (hash' ∈ fleet.running id ∨ (id, hash') ∈ booting) →
      fleet.Committed hash' id ∨ (id, hash') = (worker, hash) := by
    rintro hash' id (hc | hc)
    · exact Or.inl (Or.inl hc)
    · rcases hbooting _ hc with hc | ⟨heq, -⟩
      · exact Or.inl (Or.inr hc)
      · exact Or.inr heq
  exact
    { ids := h.ids
      reports := h.reports
      calls := h.calls
      keys := h.keys.set
      reserved := fun id hash' expiresAt hm => by
        have hm' := (hmem id hash' expiresAt).mp hm
        by_cases heq : (id, hash') = (worker, hash)
        · obtain ⟨rfl, rfl⟩ := Prod.mk.inj heq
          exact hnew
        · rw [if_neg heq] at hm'
          rcases h.reserved id hash' expiresAt hm' with hc | hc
          · exact Or.inl hc
          · exact Or.inr (hgrows _ hc)
      booting := fun id hash' hm => by
        by_cases heq : (id, hash') = (worker, hash)
        · obtain ⟨rfl, rfl⟩ := Prod.mk.inj heq
          refine ⟨?_, fleet.now + reservationTtlMs, (hmem _ _ _).mpr (by rw [if_pos rfl]),
            Nat.lt_add_of_pos_right httl⟩
          rcases hbooting _ hm with hm | ⟨-, hidle⟩
          · exact (h.booting _ _ hm).1
          · exact hidle
        · rcases hbooting _ hm with hm | ⟨heq', -⟩
          · obtain ⟨hidle, expiresAt, hentry, hlater⟩ := h.booting _ _ hm
            exact ⟨hidle, expiresAt, (hmem _ _ _).mpr (by rw [if_neg heq]; exact hentry), hlater⟩
          · exact absurd heq' heq
      sole := fun hash' id id' hl hl' hc hc' => by
        rcases hcommitted hash' id hc with hold | heq
        · rcases hcommitted hash' id' hc' with hold' | heq'
          · exact h.sole hash' id id' hl hl' hold hold'
          · obtain ⟨rfl, rfl⟩ := Prod.mk.inj heq'
            exact hheld id hl hold
        · obtain ⟨rfl, rfl⟩ := Prod.mk.inj heq
          rcases hcommitted hash' id' hc' with hold' | heq'
          · exact (hheld id' hl' hold').symm
          · exact (Prod.mk.inj heq').1.symm }

theorem Fleet.Sound.place (h : fleet.Sound) {reservationTtlMs : Nat} (httl : 0 < reservationTtlMs)
    {front back : List (SelectWorkerOptions W H × List (SchedulableWorker W H))}
    {result : PickResult W H} (hcall : fleet.calls = front ++ (options, rows) :: back)
    (hrun : (selectWorker reservationTtlMs rows options fleet.now).run fleet.reservations =
      (result, reservations))
    (hworker : ∀ worker reason, result = .ok worker reason → worker ∈ rows)
    (hsole : ∀ worker reason hash, result = .ok worker reason → options.versionHash = some hash →
      ∀ id, fleet.Holds hash id → id = worker.id) :
    ({ fleet with
        reservations := reservations
        calls := front ++ back
        booting := ensure fleet options result } : Fleet W H).Sound := by
  have hmem : (options, rows) ∈ fleet.calls := by
    rw [hcall]
    exact List.mem_append_right _ List.mem_cons_self
  obtain ⟨hids, hrows⟩ := h.calls _ hmem
  obtain ⟨pruned, hpruned, hrun'⟩ :=
    selectWorker_eq reservationTtlMs options fleet.now fleet.reservations hids
  obtain ⟨rfl, rfl⟩ := Prod.mk.inj (hrun'.symm.trans hrun)
  have hrest := h.pruned hcall hpruned
  revert hworker hsole
  cases pick fleet.reservations rows options fleet.now with
  | noLiveWorker => exact fun _ _ => hrest
  | noCapacity => exact fun _ _ => hrest
  | ok worker reason =>
    intro hworker hsole
    cases hhash : options.versionHash with
    | none =>
      have hres : reserveFor reservationTtlMs options fleet.now (.ok worker reason) pruned =
          pruned := by
        simp only [reserveFor, hhash]
      have hens : ensure fleet options (.ok worker reason) = fleet.booting := by
        simp only [ensure, hhash]
      rw [hres, hens]
      exact hrest
    | some hash =>
      obtain ⟨hlive, hreports⟩ := hrows worker (hworker worker reason rfl)
      have hres : reserveFor reservationTtlMs options fleet.now (.ok worker reason) pruned =
          if hash ∈ worker.runningHashes then pruned
          else reserveAgentSlot worker.id hash fleet.now reservationTtlMs pruned := by
        simp only [reserveFor, hhash]
      have hens : ensure fleet options (.ok worker reason) =
          if hash ∈ fleet.running worker.id ∨ (worker.id, hash) ∈ fleet.booting then fleet.booting
          else (worker.id, hash) :: fleet.booting := by
        simp only [ensure, hhash]
      rw [hres, hens]
      by_cases hwarm : hash ∈ worker.runningHashes
      · rw [if_pos hwarm, if_pos (Or.inl (hreports hash hwarm))]
        exact hrest
      · rw [if_neg hwarm]
        refine hrest.reserve httl hlive (fun id hholds => ?_) ?_
        · refine hsole worker reason hash rfl hhash id ⟨hholds.1, ?_⟩
          rcases hholds.2 with hr | ⟨expiresAt, hm, hlater⟩
          · exact Or.inl hr
          · exact Or.inr ⟨expiresAt, hpruned.subset hm, hlater⟩
        · by_cases hcommitted : hash ∈ fleet.running worker.id ∨ (worker.id, hash) ∈ fleet.booting
          · exact Or.inl ⟨if_pos hcommitted, hcommitted⟩
          · exact Or.inr ⟨if_neg hcommitted, fun hr => hcommitted (Or.inl hr)⟩

theorem Fleet.Sound.step {reservationTtlMs : Nat} (httl : 0 < reservationTtlMs)
    (m : Move (Fleet W H) (FleetEvent W H))
    (hstep : FleetStep reservationTtlMs m.before m.event m.after) (hhealthy : HealthyMove m)
    (hintime : InTime m) (h : m.before.Sound) (hsole : SoleHolder m) : m.after.Sound := by
  rcases m with ⟨fleet, event, fleet'⟩
  have hresult : ∀ options rows result, event = .place options rows result →
      result = pick fleet.reservations rows options fleet.now := fun _ _ _ hevent =>
    place_result hstep hevent h
  change FleetStep reservationTtlMs fleet event fleet' at hstep
  cases hstep with
  | tick ms => exact h.tick (hintime ms rfl)
  | heartbeat id maxAgents activeRequests => exact h.heartbeat id maxAgents activeRequests
  | query options rows hrows => exact h.query options hrows
  | booted id hash hboot => exact h.booted hboot
  | place options rows result reservations front back hcall hrun =>
    refine h.place httl hcall hrun (fun worker reason hok => ?_) fun worker reason hash hok =>
      hsole options rows worker reason hash (by rw [hok])
    have hpick := hresult options rows result rfl
    rw [hok] at hpick
    have hne : rows ≠ [] := by
      rintro rfl
      cases hpick
    obtain ⟨row, hrow, reason', hpick', -⟩ := pick_healthy hne (hhealthy options rows result rfl)
    obtain ⟨rfl, -⟩ := PickResult.ok.inj (hpick.trans hpick')
    exact hrow

end

/-! ## One writer per version -/

/-- A live worker with nothing to do. -/
def idleWorker (id : Nat) : SchedulableWorker Nat Nat where
  id := id
  status := .live
  lastHeartbeatAt := 0
  capacity :=
    { maxAgents := some 20
      runningAgents := some 0
      activeRequests := some 0
      runningHashes := some [] }

def idleFleet : Fleet Nat Nat where
  now := 0
  workers := [idleWorker 1, idleWorker 2]
  reservations := []
  calls := []
  running := fun _ => []
  booting := []

/-- A call for version 7, of a session that is on no worker. -/
def coldCall : SelectWorkerOptions Nat Nat where
  heartbeatTtlMs := 30000
  defaultMaxAgents := 20
  versionHash := some 7
  affinityWorkerId := none

theorem idleFleet_settled : idleFleet.Settled where
  reservations := rfl
  calls := rfl
  booting := rfl
  ids := List.nodup_cons.mpr ⟨by decide, List.nodup_singleton _⟩
  reports := by decide
  sole hash id id' _ _ h := by cases h

/-- The worker that has booted version 7, as its next heartbeat reports it. -/
def warmWorker : SchedulableWorker Nat Nat where
  id := 1
  status := .live
  lastHeartbeatAt := 1000
  capacity :=
    { maxAgents := some 20
      runningAgents := some 1
      activeRequests := some 0
      runningHashes := some [7] }

/-- In every run among healthy workers: no version is placed beside a live worker that runs it
or holds a reservation to boot it, exactly when every pick for a version finds its holder first
in its order. -/
theorem single_writer_iff (reservationTtlMs : Nat) (fleet fleet' : Fleet W H)
    (moves : List (Move (Fleet W H) (FleetEvent W H))) (httl : 0 < reservationTtlMs)
    (hfleet : fleet.Settled) (hrun : Trace (FleetStep reservationTtlMs) fleet moves fleet')
    (hhealthy : ∀ m ∈ moves, HealthyMove m) (hintime : ∀ m ∈ moves, InTime m) :
    (∀ m ∈ moves, SoleHolder m) ↔ ∀ m ∈ moves, HolderFirst m := by
  exact hrun.forall_iff Fleet.Sound (fun m => HealthyMove m ∧ InTime m)
    (fun m hstep hgood hsound => soleHolder_iff m hstep hgood.1 hsound)
    (fun m hstep hgood hsound hsole => hsound.step httl m hstep hgood.1 hgood.2 hsole)
    (fun m hm => ⟨hhealthy m hm, hintime m hm⟩) hfleet.sound

/-- A call, a boot, a heartbeat, and a call that finds the version there. -/
theorem single_writer_iff_warm : ∃ moves fleet', Trace (FleetStep 60000) idleFleet moves fleet' ∧
    moves.length = 7 ∧ ∀ m ∈ moves, SoleHolder m := by
  have hqueried : IsQueried idleFleet.workers [idleWorker 1, idleWorker 2] :=
    ⟨_, List.Perm.refl _, by decide, rfl⟩
  have hqueried' : IsQueried [warmWorker, idleWorker 2] [warmWorker, idleWorker 2] :=
    ⟨_, List.Perm.refl _, by decide, rfl⟩
  have hrun : ∃ moves fleet', Trace (FleetStep 60000) idleFleet moves fleet' ∧
      moves.length = 7 ∧ (∀ m ∈ moves, HealthyMove m) ∧ (∀ m ∈ moves, InTime m) ∧
        ∀ m ∈ moves, HolderFirst m := by
    refine ⟨_, _, .cons (.query idleFleet coldCall _ hqueried)
      (.cons (.place _ coldCall [idleWorker 1, idleWorker 2] (.ok (idleWorker 1) .cold)
        [((1, 7), 60000)] [] [] rfl rfl)
      (.cons (.tick _ 1000)
      (.cons (.booted _ 1 7 List.mem_cons_self)
      (.cons (.heartbeat _ 1 (some 20) (some 0))
      (.cons (.query _ coldCall _ hqueried')
      (.cons (.place _ coldCall [warmWorker, idleWorker 2] (.ok warmWorker .warm)
        [((1, 7), 60000)] [] [] rfl rfl) (.nil _))))))), rfl, ?_, ?_, ?_⟩
    · simp only [List.forall_mem_cons]
      refine ⟨?_, ?_, ?_, ?_, ?_, ?_, ?_, fun _ hm => absurd hm List.not_mem_nil⟩
      · rintro _ _ _ ⟨⟩
      · rintro _ _ _ ⟨⟩
        exact ⟨by decide, by decide⟩
      · rintro _ _ _ ⟨⟩
      · rintro _ _ _ ⟨⟩
      · rintro _ _ _ ⟨⟩
      · rintro _ _ _ ⟨⟩
      · rintro _ _ _ ⟨⟩
        exact ⟨by decide, by decide⟩
    · simp only [List.forall_mem_cons]
      refine ⟨?_, ?_, ?_, ?_, ?_, ?_, ?_, fun _ hm => absurd hm List.not_mem_nil⟩
      · rintro _ ⟨⟩
      · rintro _ ⟨⟩
      · rintro _ ⟨⟩ key hkey expiresAt hm
        obtain ⟨rfl, rfl⟩ := Prod.mk.inj (List.mem_singleton.mp hm)
        decide
      · rintro _ ⟨⟩
      · rintro _ ⟨⟩
      · rintro _ ⟨⟩
      · rintro _ ⟨⟩
    · simp only [List.forall_mem_cons]
      refine ⟨?_, ?_, ?_, ?_, ?_, ?_, ?_, fun _ hm => absurd hm List.not_mem_nil⟩
      · rintro _ _ _ _ ⟨⟩
      · rintro _ _ _ _ ⟨⟩ _ _ id ⟨_, hholds⟩
        rcases hholds with hr | ⟨_, hm, _⟩
        · cases hr
        · cases hm
      · rintro _ _ _ _ ⟨⟩
      · rintro _ _ _ _ ⟨⟩
      · rintro _ _ _ _ ⟨⟩
      · rintro _ _ _ _ ⟨⟩
      · rintro _ _ _ _ ⟨⟩ hhash _ id ⟨_, hholds⟩
        obtain rfl := Option.some.inj hhash
        have hid : id = 1 := by
          rcases hholds with hr | ⟨_, hm, _⟩
          · by_contra hne
            change 7 ∈ Function.update (fun _ => []) 1 [7] id at hr
            rw [Function.update_of_ne hne] at hr
            cases hr
          · exact congrArg (fun entry => entry.1.1) (List.mem_singleton.mp hm)
        subst hid
        exact ⟨warmWorker, List.mem_cons_self, rfl, Or.inr ⟨by decide, Or.inl rfl⟩⟩
  obtain ⟨moves, fleet', htrace, hlength, hhealthy, hintime, hfirst⟩ := hrun
  exact ⟨moves, fleet', htrace, hlength, (single_writer_iff 60000 idleFleet fleet' moves (by decide)
    idleFleet_settled htrace hhealthy hintime).mpr hfirst⟩

/-- The first of two calls reserves worker 1; the reservation makes worker 1 look fuller, and
the second call boots the version on worker 2. -/
theorem single_writer_burst : ∃ moves fleet', Trace (FleetStep 60000) idleFleet moves fleet' ∧
    (∀ m ∈ moves, HealthyMove m) ∧ (∀ m ∈ moves, InTime m) ∧ ¬ ∀ m ∈ moves, SoleHolder m := by
  have hqueried : IsQueried idleFleet.workers [idleWorker 1, idleWorker 2] :=
    ⟨_, List.Perm.refl _, by decide, rfl⟩
  refine ⟨_, _, .cons (.query idleFleet coldCall _ hqueried)
    (.cons (.place _ coldCall [idleWorker 1, idleWorker 2] (.ok (idleWorker 1) .cold)
      [((1, 7), 60000)] [] [] rfl rfl)
    (.cons (.query _ coldCall _ hqueried)
    (.cons (.place _ coldCall [idleWorker 1, idleWorker 2] (.ok (idleWorker 2) .cold)
      [((1, 7), 60000), ((2, 7), 60000)] [] [] rfl rfl) (.nil _)))), ?_, ?_, ?_⟩
  · simp only [List.forall_mem_cons]
    refine ⟨?_, ?_, ?_, ?_, fun _ hm => absurd hm List.not_mem_nil⟩
    · rintro _ _ _ ⟨⟩
    · rintro _ _ _ ⟨⟩
      exact ⟨by decide, by decide⟩
    · rintro _ _ _ ⟨⟩
    · rintro _ _ _ ⟨⟩
      exact ⟨by decide, by decide⟩
  · simp only [List.forall_mem_cons]
    refine ⟨?_, ?_, ?_, ?_, fun _ hm => absurd hm List.not_mem_nil⟩
    · rintro _ ⟨⟩
    · rintro _ ⟨⟩
    · rintro _ ⟨⟩
    · rintro _ ⟨⟩
  · intro hall
    simp only [List.forall_mem_cons] at hall
    have hsecond := hall.2.2.2.1 coldCall _ (idleWorker 2) .cold 7 rfl rfl 1
      ⟨⟨idleWorker 1, List.mem_cons_self, rfl, rfl⟩, Or.inr ⟨60000, List.mem_cons_self, by decide⟩⟩
    exact absurd hsecond (by decide)

end InvisibleString.Runtime
