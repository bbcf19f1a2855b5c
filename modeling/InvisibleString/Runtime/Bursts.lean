import InvisibleString.Runtime.Scheduler
import Mathlib.Data.Finset.Card
import Mathlib.Data.Finset.Option

/- # `Runtime.Bursts` — the capacity of workers under many picks at once

Calls of `selectWorker` between heartbeats, on the steps of `Runtime.Scheduler`.  A heartbeat
takes what runs when it is sent and reaches the registry later, the rows of a call are as old as
its query, and the count of a pick drops the reservations that its own rows report.

**Proved here.**

    the result of a pick does not depend on the order of its rows  (`pick_perm`)
    in every run whose picks count every agent of their workers no worker is over its capacity;
      they do when no pick goes by a row that is behind one an earlier pick went by, or behind
      the lifetime of a reservation  (`placement_within_capacity`)
    a pick by an older row, after one by a newer row, fills a worker twice
                                                                          (`stale_row_overfills`)
-/

namespace InvisibleString.Runtime

open Transition (Move Trace)

variable {W H : Type} [LinearOrder W] [DecidableEq H]

/-! ## The order of the rows -/

section

variable {rows rows' : List (SchedulableWorker W H)} {now : Nat} {reservations : Reservations W H}
  {options : SelectWorkerOptions W H}

omit [LinearOrder W] [DecidableEq H] in
theorem UniqueIds.filter (h : UniqueIds rows) (p : SchedulableWorker W H → Bool) :
    UniqueIds (rows.filter p) := h.sublist (List.filter_sublist.map _)

omit [LinearOrder W] [DecidableEq H] in
theorem UniqueIds.perm (h : UniqueIds rows) (hperm : rows.Perm rows') : UniqueIds rows' :=
  (hperm.map _).nodup_iff.mp h

omit [DecidableEq H] in
theorem Chooses.perm {slots : SchedulableWorker W H → Nat}
    {choose : SchedulableWorker W H → SchedulableWorker W H → SchedulableWorker W H}
    (h : Chooses slots choose) {a b : SchedulableWorker W H} {as bs : List (SchedulableWorker W H)}
    (hids : UniqueIds (a :: as)) (hperm : (a :: as).Perm (b :: bs)) :
    as.foldl choose a = bs.foldl choose b := by
  obtain ⟨hmem, hfirst⟩ := h.foldl as a
  obtain ⟨hmem', hfirst'⟩ := h.foldl bs b
  refine hids.eq hmem (hperm.mem_iff.mpr hmem') ?_
  exact (hfirst _ (hperm.mem_iff.mpr hmem')).antisymm (hfirst' _ (hperm.mem_iff.mp hmem))

omit [DecidableEq H] in
theorem pickFreshest_perm (hids : UniqueIds rows) (hperm : rows.Perm rows') :
    pickFreshest rows = pickFreshest rows' := by
  cases rows with
  | nil =>
    rw [List.nil_perm.mp hperm]
  | cons a as =>
    cases rows' with
    | nil => exact absurd (List.perm_nil.mp hperm) (List.cons_ne_nil _ _)
    | cons b bs => exact congrArg some (freshest_chooses.perm hids hperm)

theorem leanest_perm (hids : UniqueIds rows) (hperm : rows.Perm rows') :
    leanest reservations now rows = leanest reservations now rows' := by
  cases rows with
  | nil =>
    rw [List.nil_perm.mp hperm]
  | cons a as =>
    cases rows' with
    | nil => exact absurd (List.perm_nil.mp hperm) (List.cons_ne_nil _ _)
    | cons b bs => exact congrArg some ((leaner_chooses reservations now).perm hids hperm)

omit [DecidableEq H] in
theorem find?_id_perm (wanted : Option W) (hids : UniqueIds rows) (hperm : rows.Perm rows') :
    (rows.find? fun worker => wanted = some worker.id) =
      rows'.find? fun worker => wanted = some worker.id := by
  cases hfind : rows.find? fun worker => wanted = some worker.id with
  | none =>
    refine (List.find?_eq_none.mpr fun worker hm => ?_).symm
    exact List.find?_eq_none.mp hfind worker (hperm.mem_iff.mpr hm)
  | some worker =>
    have hnamed := List.find?_some hfind
    have hwanted : wanted = some worker.id := of_decide_eq_true hnamed
    have hm := List.mem_of_find?_eq_some hfind
    cases hfind' : rows'.find? fun worker => wanted = some worker.id with
    | none =>
      have hno := List.find?_eq_none.mp hfind' worker (hperm.mem_iff.mp hm)
      exact absurd (decide_eq_true hwanted) hno
    | some worker' =>
      have hnamed' := List.find?_some hfind'
      have hwanted' : wanted = some worker'.id := of_decide_eq_true hnamed'
      have hm' := hperm.mem_iff.mpr (List.mem_of_find?_eq_some hfind')
      exact congrArg some (hids.eq hm hm' (Option.some.inj (hwanted.symm.trans hwanted')))

theorem pickAmong_perm (hids : UniqueIds rows) (hperm : rows.Perm rows') :
    pickAmong reservations options now rows = pickAmong reservations options now rows' := by
  rw [pickAmong, pickAmong, stickyHost, stickyHost, find?_id_perm _ hids hperm,
    pickFreshest_perm (hids.filter _) (hperm.filter _),
    leanest_perm (hids.filter _) (hperm.filter _)]

theorem pick_perm (hids : UniqueIds rows) (hperm : rows.Perm rows') :
    pick reservations rows options now = pick reservations rows' options now := by
  have hlive := hperm.filter fun worker => isWorkerLive worker now options.heartbeatTtlMs
  show (if List.isEmpty _ then _ else _) = if List.isEmpty _ then _ else _
  rw [hlive.isEmpty_eq, pickAmong_perm (hids.filter _) hlive]

theorem pickWorker_perm (hids : UniqueIds rows) (hperm : rows.Perm rows') :
    ((pickWorker rows options now).run reservations).1 =
      ((pickWorker rows' options now).run reservations).1 := by
  obtain ⟨_, hrun, -⟩ := pickWorker_eq options hids reservations Pruned.refl
  obtain ⟨_, hrun', -⟩ := pickWorker_eq options (hids.perm hperm) reservations Pruned.refl
  rw [hrun, hrun', pick_perm hids hperm]

theorem pick_room {worker : SchedulableWorker W H} {reason : PickReason}
    (h : pick reservations rows options now = .ok worker reason) : worker ∈ rows ∧
      (isWarmOn worker options.versionHash = true ∨
        fits reservations options now worker = true) := by
  rw [pick] at h
  have hlive : ∀ row ∈ rows.filter fun worker => isWorkerLive worker now options.heartbeatTtlMs,
      row ∈ rows := fun row hm => (List.mem_filter.mp hm).1
  revert h hlive
  generalize rows.filter (fun worker => isWorkerLive worker now options.heartbeatTtlMs) = live
  intro h hlive
  split at h
  · cases h
  · rw [pickAmong] at h
    split at h
    · next hsticky =>
      cases h
      obtain ⟨hfind, hhost⟩ := Option.filter_eq_some_iff.mp hsticky
      exact ⟨hlive _ (List.mem_of_find?_eq_some hfind), by rwa [Bool.or_eq_true] at hhost⟩
    · split at h
      · next hfreshest =>
        cases h
        cases hwarm : live.filter fun worker => isWarmOn worker options.versionHash with
        | nil =>
          rw [hwarm] at hfreshest
          cases hfreshest
        | cons head tail =>
          rw [hwarm] at hfreshest
          cases hfreshest
          have hmem := (freshest_chooses.foldl tail head).1
          rw [← hwarm] at hmem
          obtain ⟨hm, hreports⟩ := List.mem_filter.mp hmem
          exact ⟨hlive _ hm, Or.inl hreports⟩
      · split at h
        · next hleanest =>
          cases h
          cases hfits : live.filter (fits reservations options now) with
          | nil =>
            rw [hfits] at hleanest
            cases hleanest
          | cons head tail =>
            rw [hfits] at hleanest
            cases hleanest
            have hmem := ((leaner_chooses reservations now).foldl tail head).1
            rw [← hfits] at hmem
            obtain ⟨hm, hroom⟩ := List.mem_filter.mp hmem
            exact ⟨hlive _ hm, Or.inr hroom⟩
        · cases h

end

/-! ## Heartbeats under way -/

/-- The settings of the control plane, and what its workers report of theirs. -/
structure BurstConfig (W : Type) where
  reservationTtlMs : Nat
  defaultMaxAgents : Nat
  limits : W → Option Nat

/-- The `maxAgents` of a worker. -/
def BurstConfig.maxAgents (config : BurstConfig W) (id : W) : Nat :=
  match config.limits id with
  | some reported => if 0 < reported then reported else config.defaultMaxAgents
  | none => config.defaultMaxAgents

/-- The fleet and the heartbeats on their way.  `seen` and `made` are records of the run that
no step reads. -/
structure Burst (W H : Type) where
  fleet : Fleet W H
  /-- heartbeats that were sent, with what ran then -/
  sent : List (W × List H)
  /-- what the rows of the picks so far have reported -/
  seen : List (W × H)
  /-- every reservation so far, with the end of the last one -/
  made : Reservations W H

def createBurst (fleet : Fleet W H) : Burst W H := ⟨fleet, [], [], []⟩

inductive BurstEvent (W H : Type) where
  | fleet (event : FleetEvent W H)
  | heartbeatSent (id : W)
  | heartbeat (id : W) (hashes : List H) (activeRequests : Option Nat)
  | bootFailed (id : W) (hash : H)

/-- Heartbeats and picks have steps of their own. -/
def FleetEvent.IsPlain : FleetEvent W H → Prop
  | .tick _ | .query _ _ | .booted _ _ => True
  | .heartbeat _ _ _ | .place _ _ _ => False

/-- The row of a worker whose heartbeat has arrived. -/
def arrived (config : BurstConfig W) (now : Nat) (hashes : List H) (activeRequests : Option Nat)
    (row : SchedulableWorker W H) : SchedulableWorker W H :=
  { row with
    lastHeartbeatAt := now
    capacity :=
      { maxAgents := config.limits row.id
        runningAgents := some hashes.length
        activeRequests := activeRequests
        runningHashes := some hashes } }

/-- What the rows report, each for its worker. -/
def reported (rows : List (SchedulableWorker W H)) : List (W × H) :=
  rows.flatMap fun row => row.runningHashes.map fun hash => (row.id, hash)

inductive BurstStep (config : BurstConfig W) : Burst W H → BurstEvent W H → Burst W H → Prop
  | plain (b : Burst W H) {event : FleetEvent W H} {fleet' : Fleet W H}
      (hstep : FleetStep config.reservationTtlMs b.fleet event fleet') (h : event.IsPlain) :
      BurstStep config b (.fleet event) { b with fleet := fleet' }
  | place (b : Burst W H) {options : SelectWorkerOptions W H}
      {rows : List (SchedulableWorker W H)} {result : PickResult W H} {fleet' : Fleet W H}
      (hdefault : options.defaultMaxAgents = config.defaultMaxAgents)
      (hstep : FleetStep config.reservationTtlMs b.fleet (.place options rows result) fleet') :
      BurstStep config b (.fleet (.place options rows result))
        { b with
          fleet := fleet'
          seen := b.seen ++ reported rows
          made := reserveFor config.reservationTtlMs options b.fleet.now result b.made }
  | heartbeatSent (b : Burst W H) (id : W) :
      BurstStep config b (.heartbeatSent id)
        { b with sent := b.sent ++ [(id, b.fleet.running id)] }
  | heartbeat (b : Burst W H) (id : W) (hashes : List H) (activeRequests : Option Nat)
      (front back : List (W × List H)) (h : b.sent = front ++ (id, hashes) :: back) :
      BurstStep config b (.heartbeat id hashes activeRequests)
        { b with
          fleet := { b.fleet with workers := b.fleet.workers.map fun row =>
            if row.id = id then arrived config b.fleet.now hashes activeRequests row else row }
          sent := front ++ back }
  | bootFailed (b : Burst W H) (id : W) (hash : H) :
      BurstStep config b (.bootFailed id hash)
        { b with fleet := { b.fleet with
            booting := b.fleet.booting.filter fun boot => boot ≠ (id, hash) } }

/-! ## What is to hold -/

/-- The versions that run on a worker or are placed there and still boot. -/
def Fleet.agents (fleet : Fleet W H) (id : W) : Finset H :=
  (fleet.running id ++ (fleet.booting.filter fun boot => boot.1 = id).map Prod.snd).toFinset

def Fleet.WithinCapacity (config : BurstConfig W) (fleet : Fleet W H) : Prop :=
  ∀ id, (fleet.agents id).card ≤ config.maxAgents id

/-- Every agent of the workers is in their rows, or in a reservation that has not expired. -/
def Fleet.Counts (fleet : Fleet W H) (rows : List (SchedulableWorker W H)) : Prop :=
  ∀ row ∈ rows, ∀ hash ∈ fleet.agents row.id, hash ∈ row.runningHashes ∨
    ∃ expiresAt, ((row.id, hash), expiresAt) ∈ fleet.reservations ∧ fleet.now < expiresAt

/-- A pick counts every agent of the workers it has to choose from. -/
def Counted (m : Move (Burst W H) (BurstEvent W H)) : Prop :=
  ∀ options rows result, m.event = .fleet (.place options rows result) →
    m.before.fleet.Counts rows

/-- The rows of a pick report all that the rows of an earlier pick have reported of their
workers, and all that was placed on them a lifetime of a reservation ago. -/
def Fresh (m : Move (Burst W H) (BurstEvent W H)) : Prop :=
  ∀ options rows result, m.event = .fleet (.place options rows result) → ∀ row ∈ rows,
    (∀ hash, (row.id, hash) ∈ m.before.seen → hash ∈ row.runningHashes) ∧
    ∀ hash expiresAt, ((row.id, hash), expiresAt) ∈ m.before.made →
      expiresAt ≤ m.before.fleet.now → hash ∈ row.runningHashes

/-- Nothing is under way, and the rows report what runs, within the capacities. -/
structure Rested (config : BurstConfig W) (fleet : Fleet W H) : Prop where
  reservations : fleet.reservations = []
  calls : fleet.calls = []
  booting : fleet.booting = []
  ids : UniqueIds fleet.workers
  agents : ∀ row ∈ fleet.workers, runningAgentsOf row = row.runningHashes.length
  running : ∀ row ∈ fleet.workers, row.runningHashes = fleet.running row.id
  limits : ∀ row ∈ fleet.workers, row.capacity.maxAgents = config.limits row.id
  capacity : fleet.WithinCapacity config

/-! ## One pick -/

section

variable {config : BurstConfig W} {fleet : Fleet W H} {id : W} {hash : H}
  {row : SchedulableWorker W H} {rows : List (SchedulableWorker W H)}
  {options : SelectWorkerOptions W H} {result : PickResult W H}

theorem Fleet.mem_agents : hash ∈ fleet.agents id ↔ fleet.Committed hash id := by
  rw [Fleet.agents, List.mem_toFinset, List.mem_append]
  refine or_congr_right ?_
  constructor
  · intro h
    obtain ⟨⟨id', hash'⟩, hboot, rfl⟩ := List.mem_map.mp h
    obtain ⟨hmem, hid⟩ := List.mem_filter.mp hboot
    obtain rfl : id' = id := of_decide_eq_true hid
    exact hmem
  · intro h
    exact List.mem_map.mpr ⟨(id, hash), List.mem_filter.mpr ⟨h, decide_eq_true rfl⟩, rfl⟩

/-- A row whose worker is counted shows all its agents. -/
theorem Fleet.Counts.card_le (h : fleet.Counts rows) (hrow : row ∈ rows)
    (hagents : runningAgentsOf row = row.runningHashes.length) :
    (fleet.agents row.id).card ≤ occupied fleet.reservations fleet.now row := by
  let held := fleet.reservations.filter fun entry =>
    entry.1.1 = row.id && !lapsed row fleet.now entry
  have hsub : fleet.agents row.id ⊆
      row.runningHashes.toFinset ∪ (held.map fun entry => entry.1.2).toFinset := by
    intro hash hhash
    rw [Finset.mem_union, List.mem_toFinset, List.mem_toFinset]
    by_cases hreports : hash ∈ row.runningHashes
    · exact Or.inl hreports
    · obtain ⟨expiresAt, hmem, hlater⟩ := (h row hrow hash hhash).resolve_left hreports
      refine Or.inr (List.mem_map.mpr ⟨((row.id, hash), expiresAt), ?_, rfl⟩)
      refine List.mem_filter.mpr ⟨hmem, ?_⟩
      have hexpires : ¬ expiresAt ≤ fleet.now := Nat.not_le_of_lt hlater
      simp [lapsed, hreports, hexpires]
  calc (fleet.agents row.id).card
      ≤ (row.runningHashes.toFinset ∪ (held.map fun entry => entry.1.2).toFinset).card :=
        Finset.card_le_card hsub
    _ ≤ row.runningHashes.toFinset.card + (held.map fun entry => entry.1.2).toFinset.card :=
        Finset.card_union_le _ _
    _ ≤ row.runningHashes.length + (held.map fun entry => entry.1.2).length :=
        Nat.add_le_add (List.toFinset_card_le _) (List.toFinset_card_le _)
    _ = occupied fleet.reservations fleet.now row := by
        rw [List.length_map, occupied, hagents, heldSlots, List.countP_eq_length_filter]

/-- A worker that is asked to ensure an agent is committed to nothing else. -/
theorem committed_ensure
    (h : ({ fleet with booting := ensure fleet options result } : Fleet W H).Committed hash id) :
    fleet.Committed hash id ∨
      ∃ worker reason, result = .ok worker reason ∧ id = worker.id ∧
        options.versionHash = some hash := by
  rcases h with hrunning | hboot
  · exact Or.inl (Or.inl hrunning)
  · change (id, hash) ∈ ensure fleet options result at hboot
    rw [ensure.eq_def] at hboot
    split at hboot
    · next worker reason version hversion =>
      split at hboot
      · exact Or.inl (Or.inr hboot)
      · rcases List.mem_cons.mp hboot with heq | hboot
        · cases heq
          exact Or.inr ⟨worker, reason, rfl, rfl, hversion⟩
        · exact Or.inl (Or.inr hboot)
    · exact Or.inl (Or.inr hboot)

theorem agents_ensure_subset {worker : SchedulableWorker W H} {reason : PickReason} (id : W) :
    ({ fleet with booting := ensure fleet options (.ok worker reason) } : Fleet W H).agents id ⊆
      if id = worker.id then options.versionHash.toFinset ∪ fleet.agents id
      else fleet.agents id := by
  intro hash hhash
  rw [Fleet.mem_agents] at hhash
  have hcases := committed_ensure hhash
  split
  · rw [Finset.mem_union, Option.mem_toFinset, Fleet.mem_agents]
    rcases hcases with h | ⟨_, _, -, -, h⟩
    · exact Or.inr h
    · exact Or.inl h
  · next hne =>
    rw [Fleet.mem_agents]
    refine hcases.resolve_right ?_
    rintro ⟨_, _, hok, hid, -⟩
    cases hok
    exact hne hid

/-- A pick that counts every agent fills no worker beyond its capacity. -/
theorem Fleet.WithinCapacity.ensure (h : fleet.WithinCapacity config) (hcounts : fleet.Counts rows)
    (hrows : ∀ row ∈ rows, runningAgentsOf row = row.runningHashes.length ∧
      row.capacity.maxAgents = config.limits row.id ∧
      ∀ hash ∈ row.runningHashes, hash ∈ fleet.running row.id)
    (hdefault : options.defaultMaxAgents = config.defaultMaxAgents) :
    ({ fleet with
        booting := Runtime.ensure fleet options (pick fleet.reservations rows options fleet.now) } :
      Fleet W H).WithinCapacity config := by
  intro id
  cases hpick : pick fleet.reservations rows options fleet.now with
  | noLiveWorker => exact h id
  | noCapacity => exact h id
  | ok worker reason =>
    refine Nat.le_trans (Finset.card_le_card (agents_ensure_subset id)) ?_
    split
    · next hid =>
      subst hid
      obtain ⟨hrow, hroom⟩ := pick_room hpick
      obtain ⟨hagents, hlimit, hrunning⟩ := hrows worker hrow
      by_cases hknown : options.versionHash.toFinset ⊆ fleet.agents worker.id
      · rw [Finset.union_eq_right.mpr hknown]
        exact h worker.id
      · rcases hroom with hwarm | hfits
        -- a worker that reports the version runs it
        · refine absurd (fun hash hhash => ?_) hknown
          rw [Option.mem_toFinset] at hhash
          rw [hhash, isWarmOn_iff] at hwarm
          exact Fleet.mem_agents.mpr (Or.inl (hrunning hash hwarm))
        · have hcap : maxAgentsOf worker options.defaultMaxAgents = config.maxAgents worker.id := by
            cases hreported : config.limits worker.id with
            | none => simp only [maxAgentsOf, BurstConfig.maxAgents, hlimit, hdefault, hreported]
            | some _ => simp only [maxAgentsOf, BurstConfig.maxAgents, hlimit, hdefault, hreported]
          have hone : options.versionHash.toFinset.card ≤ 1 := by
            cases options.versionHash with
            | none => exact Nat.zero_le _
            | some hash => exact Nat.le_refl _
          have hfits' := of_decide_eq_true hfits
          calc (options.versionHash.toFinset ∪ fleet.agents worker.id).card
              ≤ options.versionHash.toFinset.card + (fleet.agents worker.id).card :=
                Finset.card_union_le _ _
            _ ≤ 1 + occupied fleet.reservations fleet.now worker :=
                Nat.add_le_add hone (hcounts.card_le hrow hagents)
            _ ≤ config.maxAgents worker.id := by
                rw [← hcap, Nat.add_comm]
                exact hfits'
    · exact h id

end

/-! ## Runs -/

/-- The row reports what ran at some time of the run, with `base` from the start. -/
structure TrueRow (config : BurstConfig W) (base running : W → List H)
    (row : SchedulableWorker W H) : Prop where
  agents : runningAgentsOf row = row.runningHashes.length
  running : ∀ hash ∈ row.runningHashes, hash ∈ running row.id
  old : ∀ hash ∈ base row.id, hash ∈ row.runningHashes
  limit : row.capacity.maxAgents = config.limits row.id

/-- What holds of every run.  A reservation that was made is still there, or has expired, or a
pick has gone by a row that reported it. -/
structure Burst.Sound (config : BurstConfig W) (base : W → List H) (b : Burst W H) : Prop where
  ids : UniqueIds b.fleet.workers
  rows : ∀ row ∈ b.fleet.workers, TrueRow config base b.fleet.running row
  calls : ∀ call ∈ b.fleet.calls, UniqueIds call.2 ∧
    ∀ row ∈ call.2, TrueRow config base b.fleet.running row
  sent : ∀ message ∈ b.sent, (∀ hash ∈ message.2, hash ∈ b.fleet.running message.1) ∧
    ∀ hash ∈ base message.1, hash ∈ message.2
  started : ∀ id, ∀ hash ∈ base id, hash ∈ b.fleet.running id
  keys : OrderedMap.UniqueKeys b.fleet.reservations
  madeKeys : OrderedMap.UniqueKeys b.made
  made : ∀ id hash expiresAt, ((id, hash), expiresAt) ∈ b.made →
    ((id, hash), expiresAt) ∈ b.fleet.reservations ∨ expiresAt ≤ b.fleet.now ∨
      (id, hash) ∈ b.seen
  placed : ∀ id hash, b.fleet.Committed hash id → hash ∈ base id ∨
    ∃ expiresAt, ((id, hash), expiresAt) ∈ b.made

section

variable {config : BurstConfig W} {base running running' : W → List H} {b : Burst W H}
  {fleet : Fleet W H} {options : SelectWorkerOptions W H} {rows : List (SchedulableWorker W H)}

omit [LinearOrder W] [DecidableEq H] in
theorem TrueRow.grow {row : SchedulableWorker W H} (h : TrueRow config base running row)
    (hgrows : ∀ id, ∀ hash ∈ running id, hash ∈ running' id) :
    TrueRow config base running' row :=
  { h with running := fun hash hm => hgrows _ hash (h.running hash hm) }

theorem Rested.sound (h : Rested config fleet) :
    (createBurst fleet).Sound config fleet.running where
  ids := h.ids
  rows row hrow :=
    { agents := h.agents row hrow
      running := fun hash hm => h.running row hrow ▸ hm
      old := fun hash hm => (h.running row hrow).symm ▸ hm
      limit := h.limits row hrow }
  calls call hm := by
    change call ∈ fleet.calls at hm
    rw [h.calls] at hm
    cases hm
  sent message hm := by cases hm
  started _ _ hm := hm
  keys := by
    show OrderedMap.UniqueKeys fleet.reservations
    rw [h.reservations]
    exact List.nodup_nil
  madeKeys := List.nodup_nil
  made _ _ _ hm := by cases hm
  placed id hash hm := by
    rcases hm with hm | hm
    · exact Or.inl hm
    · change (id, hash) ∈ fleet.booting at hm
      rw [h.booting] at hm
      cases hm

theorem Burst.Sound.plain (h : b.Sound config base) {event : FleetEvent W H}
    {fleet' : Fleet W H} (hstep : FleetStep config.reservationTtlMs b.fleet event fleet')
    (hplain : event.IsPlain) : Burst.Sound config base { b with fleet := fleet' } := by
  cases hstep with
  | heartbeat => cases hplain
  | place => cases hplain
  | tick ms =>
    refine { h with made := fun id hash expiresAt hm => ?_ }
    rcases h.made id hash expiresAt hm with hheld | hover | hseen
    · exact Or.inl hheld
    · exact Or.inr (Or.inl (Nat.le_trans hover (Nat.le_add_right _ _)))
    · exact Or.inr (Or.inr hseen)
  | query options rows hrows =>
    refine { h with calls := fun call hm => ?_ }
    rcases List.mem_append.mp hm with hm | hm
    · exact h.calls call hm
    · obtain rfl := List.mem_singleton.mp hm
      exact ⟨hrows.ids h.ids, fun row hrow => h.rows row (hrows.mem hrow).1⟩
  | booted id hash hboot =>
    have hgrows : ∀ id', ∀ hash' ∈ b.fleet.running id',
        hash' ∈ Function.update b.fleet.running id (hash :: b.fleet.running id) id' :=
      fun _ _ hm => mem_booted.mpr (Or.inl hm)
    exact { h with
      rows := fun row hrow => (h.rows row hrow).grow hgrows
      calls := fun call hm => ⟨(h.calls call hm).1, fun row hrow =>
        ((h.calls call hm).2 row hrow).grow hgrows⟩
      sent := fun message hm => ⟨fun hash' hh => hgrows _ hash' ((h.sent message hm).1 hash' hh),
        (h.sent message hm).2⟩
      started := fun id' hash' hm => hgrows id' hash' (h.started id' hash' hm)
      placed := fun id' hash' hm => h.placed id' hash' ((Fleet.committed_booted hboot).mp hm) }

omit [DecidableEq H] in
theorem Burst.Sound.heartbeat (h : b.Sound config base) {id : W} {hashes : List H}
    (activeRequests : Option Nat) {front back : List (W × List H)}
    (hsent : b.sent = front ++ (id, hashes) :: back) :
    Burst.Sound config base
      { b with
        fleet := { b.fleet with workers := b.fleet.workers.map fun row =>
          if row.id = id then arrived config b.fleet.now hashes activeRequests row else row }
        sent := front ++ back } := by
  have hmessage := h.sent (id, hashes) (hsent ▸ List.mem_append_right _ List.mem_cons_self)
  refine { h with ids := ?_, rows := fun row hrow => ?_, sent := fun message hm => ?_ }
  · have hsame : (b.fleet.workers.map fun row => if row.id = id
        then arrived config b.fleet.now hashes activeRequests row else row).map
          SchedulableWorker.id = b.fleet.workers.map SchedulableWorker.id := by
      rw [List.map_map]
      refine List.map_congr_left fun row _ => ?_
      show (if row.id = id then _ else row).id = row.id
      split
      · rfl
      · rfl
    show (List.map _ _).Nodup
    rw [hsame]
    exact h.ids
  · obtain ⟨old, hold, rfl⟩ := List.mem_map.mp hrow
    split
    · next hid =>
      subst hid
      exact ⟨rfl, hmessage.1, hmessage.2, rfl⟩
    · exact h.rows old hold
  · refine h.sent message ?_
    rw [hsent]
    rcases List.mem_append.mp hm with hm | hm
    · exact List.mem_append_left _ hm
    · exact List.mem_append_right _ (List.mem_cons_of_mem _ hm)

/-- A pick reserves nothing, or the slot of the version on its worker. -/
theorem reserveFor_cases (options : SelectWorkerOptions W H) (ttlMs now : Nat) (result : PickResult W H) :
    (∀ reservations, reserveFor ttlMs options now result reservations = reservations) ∨
      ∃ worker reason hash, result = .ok worker reason ∧ options.versionHash = some hash ∧
        ∀ reservations, reserveFor ttlMs options now result reservations =
          reserveAgentSlot worker.id hash now ttlMs reservations := by
  cases result with
  | noLiveWorker => exact Or.inl fun _ => rfl
  | noCapacity => exact Or.inl fun _ => rfl
  | ok worker reason =>
    cases hversion : options.versionHash with
    | none =>
      refine Or.inl fun reservations => ?_
      simp only [reserveFor, hversion]
    | some hash =>
      by_cases hwarm : hash ∈ worker.runningHashes
      · refine Or.inl fun reservations => ?_
        simp only [reserveFor, hversion, if_pos hwarm]
      · refine Or.inr ⟨worker, reason, hash, rfl, rfl, fun reservations => ?_⟩
        simp only [reserveFor, hversion, if_neg hwarm]

theorem reserveFor_keys {ttlMs now : Nat} {result : PickResult W H}
    {reservations : Reservations W H} (h : OrderedMap.UniqueKeys reservations) :
    OrderedMap.UniqueKeys (reserveFor ttlMs options now result reservations) := by
  rcases reserveFor_cases options ttlMs now result with hsame | ⟨_, _, _, -, -, hset⟩
  · rw [hsame]
    exact h
  · rw [hset]
    exact h.set

/-- What a record has of the reservations that are left, it has once the slot is reserved. -/
theorem mem_reserveFor {ttlMs now : Nat} {result : PickResult W H} {key : W × H} {expiresAt : Nat}
    {record reservations : Reservations W H} (hrecord : OrderedMap.UniqueKeys record)
    (hkeys : OrderedMap.UniqueKeys reservations)
    (hm : (key, expiresAt) ∈ reserveFor ttlMs options now result record) :
    (key, expiresAt) ∈ record ∧ ((key, expiresAt) ∈ reservations →
        (key, expiresAt) ∈ reserveFor ttlMs options now result reservations) ∨
      (key, expiresAt) ∈ reserveFor ttlMs options now result reservations := by
  rcases reserveFor_cases options ttlMs now result with hsame | ⟨_, _, _, -, -, hset⟩
  · rw [hsame] at hm ⊢
    exact Or.inl ⟨hm, fun h => h⟩
  · rw [hset] at hm ⊢
    rw [reserveAgentSlot, OrderedMap.mem_set hrecord] at hm
    rw [reserveAgentSlot, OrderedMap.mem_set hkeys]
    split at hm
    · next heq =>
      rw [if_pos heq]
      exact Or.inr hm
    · next hne =>
      rw [if_neg hne]
      exact Or.inl ⟨hm, fun h => h⟩

theorem reserveFor_grows {ttlMs now : Nat} {result : PickResult W H} {key : W × H}
    {record : Reservations W H} (hrecord : OrderedMap.UniqueKeys record)
    (h : ∃ expiresAt, (key, expiresAt) ∈ record) :
    ∃ expiresAt, (key, expiresAt) ∈ reserveFor ttlMs options now result record := by
  obtain ⟨expiresAt, hm⟩ := h
  rcases reserveFor_cases options ttlMs now result with
    hsame | ⟨worker, _, hash, -, -, hset⟩
  · exact ⟨expiresAt, by rw [hsame]; exact hm⟩
  · rw [hset]
    by_cases heq : key = (worker.id, hash)
    · exact ⟨now + ttlMs, (OrderedMap.mem_set hrecord).mpr (by rw [if_pos heq])⟩
    · exact ⟨expiresAt, (OrderedMap.mem_set hrecord).mpr (by rw [if_neg heq]; exact hm)⟩

/-- A placement on a worker that does not report the version is on record. -/
theorem reserveFor_cold {ttlMs now : Nat} {worker : SchedulableWorker W H} {reason : PickReason}
    {hash : H} {record : Reservations W H} (hrecord : OrderedMap.UniqueKeys record)
    (hversion : options.versionHash = some hash) (hcold : hash ∉ worker.runningHashes) :
    ((worker.id, hash), now + ttlMs) ∈
      reserveFor ttlMs options now (.ok worker reason) record := by
  simp only [reserveFor, hversion, if_neg hcold]
  exact (OrderedMap.mem_set hrecord).mpr (by rw [if_pos rfl])

theorem Pruned.mem_or {now : Nat} {reservations pruned : Reservations W H}
    (h : Pruned rows now reservations pruned) {entry : (W × H) × Nat} (hm : entry ∈ reservations) :
    entry ∈ pruned ∨ ∃ row ∈ rows, lapsed row now entry = true := by
  by_cases hkept : ∃ row ∈ rows, lapsed row now entry = true
  · exact Or.inr hkept
  · refine Or.inl (h.mem hm fun row hrow => ?_)
    rw [← Bool.not_eq_true]
    exact fun hlapsed => hkept ⟨row, hrow, hlapsed⟩

theorem Burst.Sound.place (h : b.Sound config base) {result : PickResult W H}
    {fleet' : Fleet W H}
    (hstep : FleetStep config.reservationTtlMs b.fleet (.place options rows result) fleet') :
    result = pick b.fleet.reservations rows options b.fleet.now ∧
      (∀ row ∈ rows, TrueRow config base b.fleet.running row) ∧
      Burst.Sound config base
        { b with
          fleet := fleet'
          seen := b.seen ++ reported rows
          made := reserveFor config.reservationTtlMs options b.fleet.now result b.made } := by
  obtain ⟨hids, hrows⟩ := h.calls _ (place_call hstep rfl)
  cases hstep with
  | place options rows result reservations front back hcall hrun =>
    obtain ⟨pruned, hpruned, hrun'⟩ :=
      selectWorker_eq config.reservationTtlMs options b.fleet.now b.fleet.reservations hids
    obtain ⟨rfl, rfl⟩ := Prod.mk.inj (hrun.symm.trans hrun')
    have hkeys := hpruned.keys h.keys
    refine ⟨rfl, hrows, { h with
      calls := fun call hm => h.calls call ?_
      keys := reserveFor_keys hkeys
      madeKeys := reserveFor_keys h.madeKeys
      made := fun id hash expiresAt hm => ?_
      placed := fun id hash hm => ?_ }⟩
    · rw [hcall]
      rcases List.mem_append.mp hm with hm | hm
      · exact List.mem_append_left _ hm
      · exact List.mem_append_right _ (List.mem_cons_of_mem _ hm)
    · rcases mem_reserveFor h.madeKeys hkeys hm with ⟨hold, hstays⟩ | hnew
      · rcases h.made id hash expiresAt hold with hheld | hover | hseen
        · rcases hpruned.mem_or hheld with hkept | ⟨row, hrow, hlapsed⟩
          · exact Or.inl (hstays hkept)
          · rw [lapsed, Bool.and_eq_true, Bool.or_eq_true] at hlapsed
            obtain ⟨hid, hover | hreports⟩ := hlapsed
            · exact Or.inr (Or.inl (of_decide_eq_true hover))
            · refine Or.inr (Or.inr (List.mem_append_right _ ?_))
              refine List.mem_flatMap.mpr ⟨row, hrow, List.mem_map.mpr ?_⟩
              exact ⟨hash, of_decide_eq_true hreports, by rw [← of_decide_eq_true hid]⟩
        · exact Or.inr (Or.inl hover)
        · exact Or.inr (Or.inr (List.mem_append_left _ hseen))
      · exact Or.inl hnew
    · have hplaced : b.fleet.Committed hash id ∨ ∃ expiresAt, ((id, hash), expiresAt) ∈
          reserveFor config.reservationTtlMs options b.fleet.now
            (pick b.fleet.reservations rows options b.fleet.now) b.made := by
        rcases committed_ensure hm with hold | ⟨worker, reason, hok, rfl, hversion⟩
        · exact Or.inl hold
        · rw [hok]
          by_cases hwarm : hash ∈ worker.runningHashes
          · exact Or.inl (Or.inl ((hrows worker (pick_room hok).1).running hash hwarm))
          · exact Or.inr ⟨_, reserveFor_cold h.madeKeys hversion hwarm⟩
      rcases hplaced with hold | hnew
      · rcases h.placed id hash hold with hstarted | hmade
        · exact Or.inl hstarted
        · exact Or.inr (reserveFor_grows h.madeKeys hmade)
      · exact Or.inr hnew

/-- Rows that are behind no earlier pick's and no expired reservation show every agent. -/
theorem Burst.Sound.counts (h : b.Sound config base)
    (hrows : ∀ row ∈ rows, TrueRow config base b.fleet.running row)
    (hfresh : ∀ row ∈ rows, (∀ hash, (row.id, hash) ∈ b.seen → hash ∈ row.runningHashes) ∧
      ∀ hash expiresAt, ((row.id, hash), expiresAt) ∈ b.made → expiresAt ≤ b.fleet.now →
        hash ∈ row.runningHashes) : b.fleet.Counts rows := by
  intro row hrow hash hagent
  obtain ⟨hseen, htimely⟩ := hfresh row hrow
  rcases h.placed row.id hash (Fleet.mem_agents.mp hagent) with hstarted | ⟨expiresAt, hmade⟩
  · exact Or.inl ((hrows row hrow).old hash hstarted)
  · by_cases hover : expiresAt ≤ b.fleet.now
    · exact Or.inl (htimely hash expiresAt hmade hover)
    · rcases h.made row.id hash expiresAt hmade with hheld | hover' | hreported
      · exact Or.inr ⟨expiresAt, hheld, Nat.lt_of_not_le hover⟩
      · exact absurd hover' hover
      · exact Or.inl (hseen hash hreported)

theorem BurstStep.sound {b' : Burst W H} {event : BurstEvent W H}
    (hstep : BurstStep config b event b') (h : b.Sound config base) : b'.Sound config base := by
  cases hstep with
  | plain hstep hplain => exact h.plain hstep hplain
  | place _ hstep => exact (h.place hstep).2.2
  | heartbeatSent id =>
    refine { h with sent := fun message hm => ?_ }
    rcases List.mem_append.mp hm with hm | hm
    · exact h.sent message hm
    · obtain rfl := List.mem_singleton.mp hm
      exact ⟨fun _ hh => hh, h.started id⟩
  | heartbeat id hashes activeRequests front back hsent => exact h.heartbeat activeRequests hsent
  | bootFailed id hash =>
    refine { h with placed := fun id' hash' hm => h.placed id' hash' ?_ }
    exact hm.imp_right fun hboot => (List.mem_filter.mp hboot).1

theorem Fleet.WithinCapacity.of_committed {fleet' : Fleet W H} (h : fleet.WithinCapacity config)
    (hcommitted : ∀ id hash, fleet'.Committed hash id → fleet.Committed hash id) :
    fleet'.WithinCapacity config := by
  intro id
  refine Nat.le_trans (Finset.card_le_card fun hash hm => ?_) (h id)
  exact Fleet.mem_agents.mpr (hcommitted id hash (Fleet.mem_agents.mp hm))

theorem BurstStep.withinCapacity {b' : Burst W H} {event : BurstEvent W H}
    (hstep : BurstStep config b event b') (h : b.Sound config base)
    (hcounted : Counted ⟨b, event, b'⟩) (hwithin : b.fleet.WithinCapacity config) :
    b'.fleet.WithinCapacity config := by
  cases hstep with
  | plain hstep hplain =>
    refine hwithin.of_committed fun id hash hm => ?_
    cases hstep with
    | heartbeat => cases hplain
    | place => cases hplain
    | tick ms => exact hm
    | query options rows _ => exact hm
    | booted id' hash' hboot => exact (Fleet.committed_booted hboot).mp hm
  | @place options rows result fleet' hdefault hstep =>
    obtain ⟨hresult, hrows, -⟩ := h.place hstep
    have hcounts : b.fleet.Counts rows := hcounted options rows result rfl
    have hroom := hwithin.ensure hcounts (fun row hrow => ⟨(hrows row hrow).agents,
      (hrows row hrow).limit, (hrows row hrow).running⟩) hdefault
    rw [← hresult] at hroom
    cases hstep with
    | place => exact hroom
  | heartbeatSent id => exact hwithin
  | heartbeat => exact hwithin
  | bootFailed id hash =>
    exact hwithin.of_committed fun id' hash' hm =>
      hm.imp_right fun hboot => (List.mem_filter.mp hboot).1

theorem BurstStep.counted {b' : Burst W H} {event : BurstEvent W H}
    (hstep : BurstStep config b event b') (h : b.Sound config base)
    (hfresh : Fresh ⟨b, event, b'⟩) : Counted ⟨b, event, b'⟩ := by
  rintro options rows result ⟨⟩
  cases hstep with
  | plain _ hplain => cases hplain
  | place _ hstep => exact h.counts (h.place hstep).2.1 (hfresh options rows result rfl)

end

/-- In every run whose picks count every agent of the workers they choose from, no worker is
over its capacity; they do when their rows are behind no row an earlier pick went by and no
expired reservation.  A pick does not depend on the order of its rows. -/
theorem placement_within_capacity (config : BurstConfig W) (fleet : Fleet W H) (b : Burst W H)
    (moves : List (Move (Burst W H) (BurstEvent W H))) (hfleet : Rested config fleet)
    (hrun : Trace (BurstStep config) (createBurst fleet) moves b) :
    ((∀ m ∈ moves, Counted m) → ∀ m ∈ moves, m.after.fleet.WithinCapacity config) ∧
    ((∀ m ∈ moves, Fresh m) → ∀ m ∈ moves, Counted m) ∧
    ∀ (rows rows' : List (SchedulableWorker W H)) (options : SelectWorkerOptions W H) (now : Nat)
      (reservations : Reservations W H), UniqueIds rows → rows.Perm rows' →
        ((pickWorker rows options now).run reservations).1 =
          ((pickWorker rows' options now).run reservations).1 := by
  refine ⟨fun hcounted => ?_, fun hfresh => ?_, fun _ _ _ _ _ => pickWorker_perm⟩
  · refine hrun.forall_of
      (fun b => b.Sound config fleet.running ∧ b.fleet.WithinCapacity config) Counted ?_ hcounted
      ⟨hfleet.sound, hfleet.capacity⟩
    rintro m hstep hcounts ⟨hsound, hwithin⟩
    have hafter := hstep.withinCapacity hsound hcounts hwithin
    exact ⟨hafter, hstep.sound hsound, hafter⟩
  · refine hrun.forall_of (fun b => b.Sound config fleet.running) Fresh ?_ hfresh hfleet.sound
    intro m hstep hm hsound
    exact ⟨hstep.counted hsound hm, hstep.sound hsound⟩

/-- A worker for one agent. -/
def oneAgentWorker : SchedulableWorker Nat Nat where
  id := 1
  status := .live
  lastHeartbeatAt := 0
  capacity :=
    { maxAgents := some 1
      runningAgents := some 0
      activeRequests := some 0
      runningHashes := some [] }

/-- The same worker, with version 7. -/
def fullWorker : SchedulableWorker Nat Nat where
  id := 1
  status := .live
  lastHeartbeatAt := 0
  capacity :=
    { maxAgents := some 1
      runningAgents := some 1
      activeRequests := some 0
      runningHashes := some [7] }

def oneAgentFleet : Fleet Nat Nat where
  now := 0
  workers := [oneAgentWorker]
  reservations := []
  calls := []
  running := fun _ => []
  booting := []

def oneAgentConfig : BurstConfig Nat where
  reservationTtlMs := 60000
  defaultMaxAgents := 20
  limits := fun _ => some 1

/-- A call for a version, of a session that is on no worker. -/
def callFor (hash : Nat) : SelectWorkerOptions Nat Nat := { coldCall with versionHash := some hash }

theorem oneAgentFleet_rested : Rested oneAgentConfig oneAgentFleet where
  reservations := rfl
  calls := rfl
  booting := rfl
  ids := List.nodup_singleton _
  agents := by decide
  running := by decide
  limits := by decide
  capacity _ := Nat.zero_le _

theorem isQueried_oneAgent (worker : SchedulableWorker Nat Nat) (h : worker.status = .live) :
    IsQueried [worker] [worker] := by
  refine ⟨[worker], ?_, List.pairwise_singleton _ _, rfl⟩
  rw [List.filter_cons, if_pos (decide_eq_true h)]
  exact .refl _

/-- Two calls for two versions: the second finds the slot reserved. -/
theorem placement_within_capacity_twice : ∃ moves b,
    Trace (BurstStep oneAgentConfig) (createBurst oneAgentFleet) moves b ∧ moves.length = 4 ∧
      ∀ m ∈ moves, m.after.fleet.WithinCapacity oneAgentConfig := by
  have hqueried := isQueried_oneAgent oneAgentWorker rfl
  have hrun : Trace (BurstStep oneAgentConfig) (createBurst oneAgentFleet) _ _ :=
    .cons (.plain _ (.query _ (callFor 7) _ hqueried) trivial) <|
    .cons (.place _ rfl (.place _ (callFor 7) [oneAgentWorker] (.ok oneAgentWorker .cold)
      [((1, 7), 60000)] [] [] rfl rfl)) <|
    .cons (.plain _ (.query _ (callFor 8) _ hqueried) trivial) <|
    .cons (.place _ rfl (.place _ (callFor 8) [oneAgentWorker] .noCapacity
      [((1, 7), 60000)] [] [] rfl rfl)) <| .nil _
  obtain ⟨hwithin, hcounted, -⟩ :=
    placement_within_capacity oneAgentConfig oneAgentFleet _ _ oneAgentFleet_rested hrun
  refine ⟨_, _, hrun, rfl, hwithin (hcounted ?_)⟩
  simp only [List.forall_mem_cons, List.not_mem_nil, false_implies, implies_true, and_true]
  refine ⟨?_, ?_, ?_, ?_⟩
  · rintro _ _ _ ⟨⟩
  · rintro _ _ _ ⟨⟩ row _
    exact ⟨fun _ h => (List.not_mem_nil h).elim, fun _ _ h => (List.not_mem_nil h).elim⟩
  · rintro _ _ _ ⟨⟩
  · rintro _ _ _ ⟨⟩ row _
    refine ⟨fun _ h => (List.not_mem_nil h).elim, fun _ _ h hover => ?_⟩
    obtain ⟨-, rfl⟩ := Prod.mk.inj (List.mem_singleton.mp h)
    exact absurd hover (by decide)

theorem fullWorker_drops : (selectWorker 60000 [fullWorker] (callFor 9) 0).run [((1, 7), 60000)] =
    (.noCapacity, []) := rfl

theorem oneAgentWorker_placed : (selectWorker 60000 [oneAgentWorker] (callFor 8) 0).run [] =
    (.ok oneAgentWorker .cold, [((1, 8), 60000)]) := rfl

/-- Three calls at once.  The rows of the first are from before the second one's boot; the third
drops its reservation, as its own rows report the version; then the first one places a second
agent on a worker for one. -/
theorem stale_row_overfills : ∃ moves b,
    Trace (BurstStep oneAgentConfig) (createBurst oneAgentFleet) moves b ∧
      b.fleet.now < oneAgentConfig.reservationTtlMs ∧
        ¬ b.fleet.WithinCapacity oneAgentConfig := by
  have hrun : Trace (BurstStep oneAgentConfig) (createBurst oneAgentFleet) _ _ :=
    .cons (.plain _ (.query _ (callFor 8) _ (isQueried_oneAgent oneAgentWorker rfl)) trivial) <|
    .cons (.plain _ (.query _ (callFor 7) _ (isQueried_oneAgent oneAgentWorker rfl)) trivial) <|
    .cons (.place _ rfl (.place _ (callFor 7) [oneAgentWorker] (.ok oneAgentWorker .cold)
      [((1, 7), 60000)] [(callFor 8, [oneAgentWorker])] [] rfl rfl)) <|
    .cons (.plain _ (.booted _ 1 7 List.mem_cons_self) trivial) <|
    .cons (.heartbeatSent _ 1) <|
    .cons (.heartbeat _ 1 [7] (some 0) [] [] rfl) <|
    .cons (.plain _ (.query _ (callFor 9) _ (isQueried_oneAgent fullWorker rfl)) trivial) <|
    .cons (.place _ rfl (.place _ (callFor 9) [fullWorker] .noCapacity []
      [(callFor 8, [oneAgentWorker])] [] rfl fullWorker_drops)) <|
    .cons (.place _ rfl (.place _ (callFor 8) [oneAgentWorker] (.ok oneAgentWorker .cold)
      [((1, 8), 60000)] [] [] rfl oneAgentWorker_placed)) <| .nil _
  refine ⟨_, _, hrun, by decide, fun hwithin => ?_⟩
  exact absurd (hwithin 1) (by decide)

end InvisibleString.Runtime
