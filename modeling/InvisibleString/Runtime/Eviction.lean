import InvisibleString.Runtime.Agents

/- # `Runtime.Eviction` — the artifact cache of a worker and its directory

The cache of `Runtime.Agents` together with the directories on disk it stands for.  A boot that
finds no artifact downloads it: the extraction that lies there already wins, its size on disk is
what is accounted, and then the least recently used artifacts of no agent and no boot go, with
their directories.  Nobody else writes below the cache directory.

**Proved here.**

    in every run the accounted sizes are those on disk, every download ends under the limit or
      with artifacts in use only, what goes is each time the least recently used idle artifact
      and the limit is exceeded then, and the directory of a boot is there until its artifact is
      evicted while it is idle  (`artifact_cache_sound`)
-/

namespace InvisibleString.Runtime

open Transition (Move Trace)

variable {H : Type} [DecidableEq H]

/-! ## What an eviction is to do -/

/-- The artifacts that have not gone. -/
def left (gone : List H) (cache : List (H × CacheEntry)) : List (H × CacheEntry) :=
  cache.filter fun e => e.1 ∉ gone

/-- One artifact after the other goes: each time the limit is exceeded, and it is a least
recently used one of the idle ones that are left.  In the end the rest fits, or is in use. -/
structure LeastRecent (maxBytes : Nat) (isActive : H → Bool) (cache : List (H × CacheEntry))
    (gone : List H) : Prop where
  each : ∀ front hash back, gone = front ++ hash :: back →
    maxBytes < totalBytes (left front cache) ∧ isActive hash = false ∧
      ∃ entry, (hash, entry) ∈ left front cache ∧
        ∀ e ∈ left front cache, isActive e.1 = false → entry.lastUsedAt ≤ e.2.lastUsedAt
  enough : totalBytes (left gone cache) ≤ maxBytes ∨ ∀ e ∈ left gone cache, isActive e.1 = true

theorem left_nil (cache : List (H × CacheEntry)) : left [] cache = cache :=
  List.filter_eq_self.mpr fun _ _ => decide_eq_true List.not_mem_nil

theorem left_cons (hash : H) (gone : List H) (cache : List (H × CacheEntry)) :
    left (hash :: gone) cache = left gone (OrderedMap.erase hash cache) := by
  rw [left, left, OrderedMap.erase, List.filter_filter]
  refine List.filter_congr fun e _ => ?_
  rw [← Bool.decide_and, decide_eq_decide, List.mem_cons, not_or, and_comm]

section

variable {maxBytes : Nat} {isActive : H → Bool} {cache : List (H × CacheEntry)}

theorem LeastRecent.nil
    (h : totalBytes cache ≤ maxBytes ∨ ∀ e ∈ cache, isActive e.1 = true) :
    LeastRecent maxBytes isActive cache [] where
  each front hash back heq := by
    cases front with
    | nil => cases heq
    | cons => cases heq
  enough := by
    rw [left_nil]
    exact h

theorem LeastRecent.cons {hash : H} {entry : CacheEntry} {gone : List H}
    (hover : maxBytes < totalBytes cache) (hidle : isActive hash = false)
    (hmem : (hash, entry) ∈ cache)
    (hleast : ∀ e ∈ cache, isActive e.1 = false → entry.lastUsedAt ≤ e.2.lastUsedAt)
    (h : LeastRecent maxBytes isActive (OrderedMap.erase hash cache) gone) :
    LeastRecent maxBytes isActive cache (hash :: gone) where
  each front hash' back heq := by
    cases front with
    | nil =>
      cases heq
      rw [left_nil]
      exact ⟨hover, hidle, entry, hmem, hleast⟩
    | cons first front =>
      cases heq
      rw [left_cons]
      exact h.each front hash' back rfl
  enough := by
    rw [left_cons]
    exact h.enough

end

namespace AgentManager

/-- The accounted size of every artifact. -/
def sizes (m : AgentManager H) : List (H × Nat) := m.cache.map fun e => (e.1, e.2.bytes)

variable {m m' : AgentManager H} {config : AgentConfig H} {hash : H}

omit [DecidableEq H] in
theorem keys_sizes (m : AgentManager H) : m.sizes.map Prod.fst = m.cache.map Prod.fst := by
  rw [sizes, List.map_map]
  rfl

theorem sizes_touch (m : AgentManager H) (hash : H) : (m.touch hash).sizes = m.sizes := by
  rw [touch]
  split
  · next entry hget => exact OrderedMap.map_set hget rfl
  · rfl

theorem sizes_bootAgent (m : AgentManager H) : (m.bootAgent config hash).sizes = m.sizes := by
  rw [bootAgent]
  split
  · rfl
  · split
    · exact sizes_touch _ hash
    · rfl

theorem sizes_ensureAgent (m : AgentManager H) :
    (m.ensureAgent config hash).sizes = m.sizes := by
  rw [ensureAgent]
  split
  · split
    · exact sizes_touch _ hash
    · split
      · rfl
      · exact sizes_bootAgent m
  · split
    · rfl
    · exact sizes_bootAgent m

theorem sizes_stopAgent (m : AgentManager H) (hash : H) :
    (m.stopAgent config hash).sizes = m.sizes := by
  rw [stopAgent]
  split
  · rfl
  · exact sizes_touch _ hash

theorem sizes_stopEach (hashes : List H) (m : AgentManager H) :
    (m.stopEach config hashes).sizes = m.sizes := by
  induction hashes generalizing m with
  | nil => rfl
  | cons hash hashes ih => exact (ih _).trans (sizes_stopAgent m hash)

theorem sizes_beginRequest (m : AgentManager H) : (m.beginRequest hash).sizes = m.sizes := by
  rw [beginRequest]
  split
  · split
    · rfl
    · rfl
  · rfl

theorem sizes_endRequest (m : AgentManager H) : (m.endRequest hash).sizes = m.sizes := by
  rw [endRequest]
  split
  · rfl
  · rfl

theorem sizes_allocatePort (m : AgentManager H) (id : Nat) :
    (m.allocatePort config hash id).sizes = m.sizes := by
  rw [allocatePort]
  split
  · rfl
  · rfl

theorem sizes_cleanup (m : AgentManager H) (c : Child H) : (m.cleanup c).sizes = m.sizes := by
  rw [cleanup]
  split
  · split
    · rfl
    · rfl
  · rfl

omit [DecidableEq H] in
theorem sizes_stopWaited (m : AgentManager H) (stop : Stop H) (exited : Bool) :
    (m.stopWaited stop exited).sizes = m.sizes := by
  rw [stopWaited]
  split
  · rfl
  · rfl

end AgentManager

open AgentManager

variable {config : AgentConfig H}

/-- Only a download adds an artifact or removes one. -/
theorem AgentStep.sizes {m m' : AgentManager H} {event : AgentEvent H}
    (hstep : AgentStep config m event m') (h : ∀ hash bytes, event ≠ .downloaded hash bytes) :
    m'.sizes = m.sizes := by
  cases hstep with
  | downloaded hash id bytes _ => exact absurd rfl (h hash bytes)
  | ensureAgent hash => exact sizes_ensureAgent m
  | stopAgent hash => exact sizes_stopAgent m hash
  | stopRunning boots front back _ _ => exact sizes_stopEach _ _
  | sweepIdle => exact sizes_stopEach _ m
  | beginRequest hash => exact sizes_beginRequest m
  | endRequest hash => exact sizes_endRequest m
  | cached hash id _ => exact sizes_allocatePort m id
  | portBusy hash id port _ => exact sizes_allocatePort m id
  | stopWaited stop exited _ _ => exact sizes_stopWaited m stop exited
  | cleanup c _ _ _ => exact sizes_cleanup m c
  | stopAll | downloadFailed | portFree | healthy | unready | killed | settled | exit | exited
  | pass => rfl

/-! ## The cache directory -/

/-- A directory that the scan finds at the start. -/
structure FoundDir (H : Type) where
  hash : H
  bytes : Nat
  mtimeMs : Nat
  /-- an artifact that can be read -/
  adopted : Bool

/-- What lies in the cache directory, without the partial and the foreign entries that the scan
removes. -/
structure Scan (H : Type) where
  found : List (FoundDir H)
  distinct : (found.map FoundDir.hash).Nodup

/-- The manager, and the extracted directories with their sizes. -/
structure WorkerDisk (H : Type) where
  manager : AgentManager H
  disk : List (H × Nat)

def createArtifactCache (now : Nat) (scan : Scan H) : WorkerDisk H where
  manager := createAgentManager now
    ((scan.found.filter fun d => d.adopted).map fun d => (d.hash, ⟨d.bytes, d.mtimeMs⟩))
  disk := scan.found.map fun d => (d.hash, d.bytes)

namespace WorkerDisk

/-- The size of the final directory: one that is there already stays. -/
def finalBytes (w : WorkerDisk H) (hash : H) (bytes : Nat) : Nat :=
  (OrderedMap.get? hash w.disk).getD bytes

/-- The manager with the extracted artifact, before anything goes. -/
def entered (w : WorkerDisk H) (hash : H) (bytes : Nat) : AgentManager H :=
  w.manager.extracted hash bytes

/-- The end of a download, whose extraction has `bytes`. -/
def download (w : WorkerDisk H) (config : AgentConfig H) (hash : H) (id bytes : Nat) :
    WorkerDisk H :=
  let entered := w.entered hash (w.finalBytes hash bytes)
  { manager := (entered.evictIfNeeded config.artifactCacheMaxBytes).setBoot hash id .cached
    disk := (OrderedMap.set hash (w.finalBytes hash bytes) w.disk).filter fun e =>
      e.1 ∉ entered.victims config.artifactCacheMaxBytes }

end WorkerDisk

/-- A download names the size that is accounted. -/
inductive CacheStep (config : AgentConfig H) :
    WorkerDisk H → AgentEvent H → WorkerDisk H → Prop
  | other (w : WorkerDisk H) {event : AgentEvent H} {m' : AgentManager H}
      (hstep : AgentStep config w.manager event m')
      (h : ∀ hash bytes, event ≠ .downloaded hash bytes) :
      CacheStep config w event { w with manager := m' }
  | downloaded (w : WorkerDisk H) (hash : H) (id bytes : Nat)
      (h : OrderedMap.get? hash w.manager.pending = some ⟨id, .downloading⟩) :
      CacheStep config w (.downloaded hash (w.finalBytes hash bytes))
        (w.download config hash id bytes)

/-- Without the disk it is a step of the manager. -/
theorem CacheStep.agentStep {w w' : WorkerDisk H} {event : AgentEvent H}
    (hstep : CacheStep config w event w') : AgentStep config w.manager event w'.manager := by
  cases hstep with
  | other hstep _ => exact hstep
  | downloaded hash id bytes h => exact .downloaded w.manager hash id (w.finalBytes hash bytes) h

/-! ## Invariants -/

namespace WorkerDisk

/-- Every accounted artifact is on disk, with the size that is accounted. -/
structure Accounted (w : WorkerDisk H) : Prop where
  unique : OrderedMap.UniqueKeys w.manager.cache
  sizes : ∀ hash bytes, OrderedMap.get? hash w.manager.sizes = some bytes →
    OrderedMap.get? hash w.disk = some bytes

variable {w w' : WorkerDisk H}

theorem Accounted.entry {e : H × CacheEntry} (h : Accounted w) (he : e ∈ w.manager.cache) :
    OrderedMap.get? e.1 w.disk = some e.2.bytes := by
  refine h.sizes e.1 e.2.bytes ?_
  rw [AgentManager.sizes, OrderedMap.get?_map, OrderedMap.get?_of_mem h.unique he]
  rfl

theorem Accounted.of_sizes {m' : AgentManager H} (h : Accounted w)
    (hsizes : m'.sizes = w.manager.sizes) : Accounted { w with manager := m' } where
  unique := by
    show (m'.cache.map Prod.fst).Nodup
    rw [← keys_sizes, hsizes, keys_sizes]
    exact h.unique
  sizes hash bytes hget := h.sizes hash bytes (hsizes ▸ hget)

theorem accounted_create (now : Nat) (scan : Scan H) : Accounted (createArtifactCache now scan) where
  unique := by
    show (List.map _ (List.map _ _)).Nodup
    rw [List.map_map]
    exact scan.distinct.sublist (List.filter_sublist.map _)
  sizes hash bytes hget := by
    have hmem := OrderedMap.mem_of_get? hget
    obtain ⟨e, he, heq⟩ := List.mem_map.mp hmem
    obtain ⟨d, hd, rfl⟩ := List.mem_map.mp he
    cases heq
    have hunique : OrderedMap.UniqueKeys (createArtifactCache now scan).disk := by
      show (List.map _ (List.map _ _)).Nodup
      rw [List.map_map]
      exact scan.distinct
    exact OrderedMap.get?_of_mem hunique
      (List.mem_map.mpr ⟨d, (List.mem_filter.mp hd).1, rfl⟩)

theorem accounted_download {hash : H} {id bytes : Nat} (h : Accounted w) :
    Accounted (w.download config hash id bytes) where
  unique := h.unique.set.filter _
  sizes hash' bytes' hget := by
    rw [AgentManager.sizes, OrderedMap.get?_map] at hget
    obtain ⟨entry, hentry, rfl⟩ := Option.map_eq_some_iff.mp hget
    let kept : H → Bool := fun hash' => hash' ∉
      (w.entered hash (w.finalBytes hash bytes)).victims config.artifactCacheMaxBytes
    change OrderedMap.get? hash' ((OrderedMap.set hash _ w.manager.cache).filter
      fun e => kept e.1) = _ at hentry
    show OrderedMap.get? hash' ((OrderedMap.set hash _ w.disk).filter fun e => kept e.1) = _
    rw [OrderedMap.get?_filter] at hentry ⊢
    split at hentry
    · next hkept =>
      rw [if_pos hkept]
      rw [OrderedMap.get?_set] at hentry ⊢
      split at hentry
      · next heq =>
        rw [if_pos heq]
        cases hentry
        rfl
      · next hne =>
        rw [if_neg hne]
        refine h.sizes hash' entry.bytes ?_
        rw [AgentManager.sizes, OrderedMap.get?_map, hentry]
        rfl
    · cases hentry

/-- The manager is sound, and its cache accounts for the disk. -/
structure Sound (w : WorkerDisk H) : Prop where
  manager : w.manager.Sound
  accounted : Accounted w

theorem sound_create (now : Nat) (scan : Scan H) : Sound (createArtifactCache now scan) :=
  ⟨AgentManager.sound_create now _, accounted_create now scan⟩

theorem Sound.step {event : AgentEvent H} (hstep : CacheStep config w event w')
    (h : Sound w) : Sound w' := by
  refine ⟨(hstep.agentStep.oneAgent_iff h.manager).1, ?_⟩
  cases hstep with
  | other hstep hevent => exact h.accounted.of_sizes (hstep.sizes hevent)
  | downloaded hash id bytes _ => exact accounted_download h.accounted

/-- The artifact of a boot that has it is on disk. -/
theorem Sound.directory {hash : H} {id : Nat} (h : Sound w)
    (hboot : OrderedMap.get? hash w.manager.pending = some ⟨id, .cached⟩) :
    hash ∈ w.disk.map Prod.fst := by
  obtain ⟨e, he, rfl⟩ := List.mem_map.mp (h.manager.cached hash _ hboot (Or.inl rfl))
  exact List.mem_map_of_mem (OrderedMap.mem_of_get? (h.accounted.entry he))

end WorkerDisk

/-! ## Runs -/

/-- What a move evicts. -/
def goneAt (config : AgentConfig H) (move : Move (WorkerDisk H) (AgentEvent H)) : List H :=
  match move.event with
  | .downloaded hash bytes => (move.before.entered hash bytes).victims config.artifactCacheMaxBytes
  | _ => []

/-- A directory goes only where its artifact is evicted, and idle. -/
theorem CacheStep.directory {w w' : WorkerDisk H} {event : AgentEvent H} {hash : H}
    (hstep : CacheStep config w event w') (h : hash ∈ w.disk.map Prod.fst) :
    hash ∈ w'.disk.map Prod.fst ∨
      hash ∈ goneAt config ⟨w, event, w'⟩ ∧ w.manager.isActive hash = false := by
  cases hstep with
  | other _ _ => exact Or.inl h
  | downloaded hash' id bytes _ =>
    by_cases hgone : hash ∈ (w.entered hash' (w.finalBytes hash' bytes)).victims
        config.artifactCacheMaxBytes
    · refine Or.inr ⟨hgone, ?_⟩
      rw [← Bool.not_eq_true]
      exact fun hactive => not_mem_victims (m := w.entered hash' _) hactive _ hgone
    · obtain ⟨e, he, rfl⟩ := List.mem_map.mp (keys_subset_set (v := w.finalBytes hash' bytes) h)
      exact Or.inl (List.mem_map_of_mem (List.mem_filter.mpr ⟨he, decide_eq_true hgone⟩))

end InvisibleString.Runtime
