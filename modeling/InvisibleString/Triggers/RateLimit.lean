import InvisibleString.Lib.OrderedMap
import InvisibleString.Lib.Transition
import Mathlib.Data.Finset.Card
import Mathlib.Data.Finset.Dedup

/- # `Triggers.RateLimit` — the rate limiter of the public ingress

`FixedWindowRateLimiter` keeps one window for each key in a map.  A hit of a key without a window,
or with one that is over, opens a window; a map entry that is renewed keeps its place, and what
goes when there are too many keys is what was inserted first.

Beside the map a run records what each key has been given, as a limiter with memory for every key
would count it (`Budget`).

**Proved here.**

    in every run that has no more than `maxKeys` live windows at a time, each key gets its limit
      in each window and no more, is told when the window is over, and of two windows the older
      one goes, exactly when the first entry has the oldest window wherever one has to go
                                                                          (`rate_limit_holds_iff`)
    a renewed window goes before an older one, and its key is served twice
                                                                       (`renewed_window_evicted`)
-/

namespace InvisibleString.Triggers

open Transition (Move Trace)

variable {K : Type} [DecidableEq K]

/-! ## The limiter -/

structure RateLimiterOptions where
  limit : Nat
  windowMs : Nat
  maxKeys : Nat

structure WindowState where
  count : Nat
  windowStart : Nat
  deriving DecidableEq

structure RateLimitDecision where
  allowed : Bool
  retryAfterSeconds : Nat

/-- The windows in the order in which their keys were inserted. -/
abbrev Windows (K : Type) := List (K × WindowState)

variable (options : RateLimiterOptions)

/-- Drop the windows that were inserted first once the map exceeds its cap. -/
def evictIfNeeded (windows : Windows K) : Windows K :=
  windows.drop (windows.length - options.maxKeys)

/-- The window that is not over. -/
def currentWindow (windows : Windows K) (now : Nat) (key : K) : Option WindowState :=
  (OrderedMap.get? key windows).filter fun state => now - state.windowStart < options.windowMs

/-- `state.count += 1`, where the map still has the state. -/
def increment (key : K) (windows : Windows K) : Windows K :=
  windows.map fun e => (e.1, if e.1 = key then { e.2 with count := e.2.count + 1 } else e.2)

/-- The map with a window for `key`. -/
def openWindow (windows : Windows K) (now : Nat) (key : K) : Windows K :=
  match currentWindow options windows now key with
  | some _ => windows
  | none => evictIfNeeded options (OrderedMap.set key ⟨0, now⟩ windows)

/-- Record one hit for `key`. -/
def hit (windows : Windows K) (now : Nat) (key : K) : RateLimitDecision × Windows K :=
  let state := (currentWindow options windows now key).getD ⟨0, now⟩
  ({ allowed := state.count + 1 ≤ options.limit
     retryAfterSeconds := max 1 ((state.windowStart + options.windowMs - now + 999) / 1000) },
    increment key (openWindow options windows now key))

/-! ## Runs -/

/-- What a key has been given in its window. -/
structure Budget where
  windowStart : Nat
  hits : Nat
  passed : Nat

/-- One more hit of a key. -/
def charge (now : Nat) (allowed : Bool) : Option Budget → Budget
  | some budget =>
    if now - budget.windowStart < options.windowMs then
      ⟨budget.windowStart, budget.hits + 1, budget.passed + allowed.toNat⟩
    else ⟨now, 1, allowed.toNat⟩
  | none => ⟨now, 1, allowed.toNat⟩

/-- The limiter with its clock.  `budgets` and `seen` are a record of the run. -/
structure Limited (K : Type) where
  now : Nat
  windows : Windows K
  budgets : K → Option Budget
  /-- the keys that were hit -/
  seen : Finset K

def createLimiter (now : Nat) : Limited K := ⟨now, [], fun _ => none, ∅⟩

structure Hit (K : Type) where
  key : K
  now : Nat

/-- What a hit is answered. -/
def decision (s : Limited K) (h : Hit K) : RateLimitDecision :=
  (hit options s.windows h.now h.key).1

inductive RateStep : Limited K → Hit K → Limited K → Prop
  | hit (s : Limited K) (h : Hit K) (hclock : s.now ≤ h.now) :
      RateStep s h
        { now := h.now
          windows := (hit options s.windows h.now h.key).2
          budgets := Function.update s.budgets h.key
            (charge options h.now (decision options s h).allowed (s.budgets h.key))
          seen := insert h.key s.seen }

/-- A window that is not over. -/
def Budget.live (now : Nat) (budget : Budget) : Bool := now - budget.windowStart < options.windowMs

/-- The keys with a window that is not over. -/
def Limited.liveKeys (s : Limited K) : Finset K :=
  s.seen.filter fun key => (s.budgets key).any (Budget.live options s.now)

/-! ## What is to hold -/

/-- No more live windows than the limiter has room for. -/
def WithinMemory (move : Move (Limited K) (Hit K)) : Prop :=
  (move.after.liveKeys options).card ≤ options.maxKeys

/-- The answer to a hit, and what is left of the map. -/
structure RateHolds (move : Move (Limited K) (Hit K)) : Prop where
  /-- the hits up to the limit are allowed, the others are denied -/
  limit : ∀ budget, move.after.budgets move.event.key = some budget →
    ((decision options move.before move.event).allowed = true ↔ budget.hits ≤ options.limit) ∧
      budget.passed ≤ options.limit
  /-- who waits as long as told finds the window over -/
  retry : ∀ budget, move.after.budgets move.event.key = some budget →
    budget.windowStart + options.windowMs ≤
      move.event.now + (decision options move.before move.event).retryAfterSeconds * 1000
  bounded : move.after.windows.length ≤ options.maxKeys
  /-- a window goes when no older one stays -/
  oldest : ∀ e ∈ move.before.windows, e.1 ∉ move.after.windows.map Prod.fst →
    ∀ e' ∈ move.after.windows, e.2.windowStart ≤ e'.2.windowStart

/-- Where a window has to go, the first entry has the oldest one. -/
def OldestFirst (move : Move (Limited K) (Hit K)) : Prop :=
  move.event.key ∉ move.before.windows.map Prod.fst →
    options.maxKeys ≤ move.before.windows.length →
      ∀ first ∈ move.before.windows.head?, ∀ e ∈ move.before.windows,
        first.2.windowStart ≤ e.2.windowStart

instance : DecidablePred (WithinMemory (K := K) options) :=
  fun move => inferInstanceAs (Decidable ((move.after.liveKeys options).card ≤ options.maxKeys))

instance : DecidablePred (OldestFirst (K := K) options) :=
  fun move => inferInstanceAs (Decidable (_ ∉ _ → _ ≤ _ →
    ∀ first ∈ move.before.windows.head?, ∀ e ∈ move.before.windows,
      first.2.windowStart ≤ e.2.windowStart))

/-- The map says what the record says, and has every live window. -/
structure Limited.Sound (s : Limited K) : Prop where
  unique : OrderedMap.UniqueKeys s.windows
  bounded : s.windows.length ≤ options.maxKeys
  past : ∀ key budget, s.budgets key = some budget → budget.windowStart ≤ s.now
  seen : ∀ key budget, s.budgets key = some budget → key ∈ s.seen
  passed : ∀ key budget, s.budgets key = some budget →
    budget.passed = min budget.hits options.limit
  agrees : ∀ key state, OrderedMap.get? key s.windows = some state →
    ∃ budget, s.budgets key = some budget ∧ budget.windowStart = state.windowStart ∧
      budget.hits = state.count
  present : ∀ key budget, s.budgets key = some budget → budget.live options s.now = true →
    (OrderedMap.get? key s.windows).isSome = true

/-! ## The map -/

section

variable {options} {windows : Windows K} {now : Nat} {key k : K} {state : WindowState}

theorem keys_increment : (increment key windows).map Prod.fst = windows.map Prod.fst := by
  rw [increment, List.map_map]
  rfl

theorem get?_increment : OrderedMap.get? k (increment key windows) =
    (OrderedMap.get? k windows).map fun state =>
      if k = key then { state with count := state.count + 1 } else state := by
  induction windows with
  | nil => rfl
  | cons e rest ih =>
    show OrderedMap.get? k ((e.1, _) :: increment key rest) = _
    rw [OrderedMap.get?_cons, OrderedMap.get?_cons, ih]
    by_cases he : e.1 = k
    · rw [if_pos he, if_pos he, Option.map_some, he]
    · rw [if_neg he, if_neg he]

/-- A window keeps its start. -/
theorem mem_increment {e : K × WindowState} (h : e ∈ increment key windows) :
    ∃ e' ∈ windows, e'.1 = e.1 ∧ e'.2.windowStart = e.2.windowStart := by
  obtain ⟨e', he', rfl⟩ := List.mem_map.mp h
  refine ⟨e', he', rfl, ?_⟩
  show e'.2.windowStart = (if e'.1 = key then _ else e'.2 : WindowState).windowStart
  split
  · rfl
  · rfl

theorem increment_mem (key : K) {e : K × WindowState} (h : e ∈ windows) :
    ∃ e' ∈ increment key windows, e'.1 = e.1 ∧ e'.2.windowStart = e.2.windowStart := by
  refine ⟨_, List.mem_map_of_mem h, rfl, ?_⟩
  show (if e.1 = key then _ else e.2 : WindowState).windowStart = e.2.windowStart
  split
  · rfl
  · rfl

theorem currentWindow_some (h : currentWindow options windows now key = some state) :
    OrderedMap.get? key windows = some state ∧ now - state.windowStart < options.windowMs := by
  obtain ⟨hget, hlive⟩ := Option.filter_eq_some_iff.mp h
  exact ⟨hget, of_decide_eq_true hlive⟩

theorem currentWindow_none (h : currentWindow options windows now key = none)
    (hget : OrderedMap.get? key windows = some state) :
    ¬ now - state.windowStart < options.windowMs := by
  intro hlive
  rw [currentWindow, hget, Option.filter_some, if_pos (decide_eq_true hlive)] at h
  cases h

theorem retry_reaches (now windowEnd : Nat) :
    windowEnd ≤ now + max 1 ((windowEnd - now + 999) / 1000) * 1000 := by
  omega

/-- The three ways to a window: it is there, there is room for it, or the first entry goes. -/
theorem openWindow_cases (windows : Windows K) (now : Nat) (key : K)
    (hbounded : windows.length ≤ options.maxKeys) :
    ((currentWindow options windows now key).isSome = true ∧
        openWindow options windows now key = windows) ∨
      (currentWindow options windows now key = none ∧
        openWindow options windows now key = OrderedMap.set key ⟨0, now⟩ windows ∧
        (OrderedMap.set key ⟨0, now⟩ windows).length ≤ options.maxKeys) ∨
      (currentWindow options windows now key = none ∧ key ∉ windows.map Prod.fst ∧
        windows.length = options.maxKeys ∧
        openWindow options windows now key =
          (windows ++ [(key, WindowState.mk 0 now)]).drop 1) := by
  rw [openWindow]
  cases hcurrent : currentWindow options windows now key with
  | some state => exact Or.inl ⟨rfl, rfl⟩
  | none =>
    refine Or.inr ?_
    show (_ ∧ evictIfNeeded options _ = _ ∧ _) ∨ (_ ∧ _ ∧ _ ∧ evictIfNeeded options _ = _)
    by_cases hroom : (OrderedMap.set key ⟨0, now⟩ windows).length ≤ options.maxKeys
    · refine Or.inl ⟨rfl, ?_, hroom⟩
      rw [evictIfNeeded, Nat.sub_eq_zero_of_le hroom, List.drop_zero]
    · refine Or.inr ⟨rfl, ?_⟩
      have hkeys : (List.map Prod.fst (OrderedMap.set key (WindowState.mk 0 now) windows)).length =
          _ := congrArg List.length OrderedMap.keys_set
      by_cases hmem : key ∈ windows.map Prod.fst
      · rw [if_pos hmem, List.length_map, List.length_map] at hkeys
        omega
      · have hset := OrderedMap.set_of_not_mem (v := (⟨0, now⟩ : WindowState)) hmem
        rw [hset, List.length_append, List.length_singleton] at hroom
        have hlength : windows.length = options.maxKeys := by omega
        refine ⟨hmem, hlength, ?_⟩
        rw [hset, evictIfNeeded, List.length_append, List.length_singleton, hlength,
          Nat.add_sub_cancel_left]

end

/-! ## One hit -/

theorem RateStep.other {options : RateLimiterOptions} {s t : Limited K} {h : Hit K} {key : K}
    (hstep : RateStep options s h t) (hkey : key ≠ h.key) : t.budgets key = s.budgets key := by
  obtain ⟨-⟩ := hstep
  exact Function.update_of_ne hkey _ _

section

variable {options} {s : Limited K} {h : Hit K}

theorem live_charge {now : Nat} {allowed : Bool} (hwindow : 0 < options.windowMs)
    (budget : Option Budget) : (charge options now allowed budget).live options now = true := by
  have hnew : (Budget.mk now 1 allowed.toNat).live options now = true := by
    refine decide_eq_true ?_
    show now - now < options.windowMs
    omega
  cases budget with
  | none => exact hnew
  | some budget =>
    rw [charge]
    split
    · next hlive => exact decide_eq_true hlive
    · exact hnew

theorem Limited.Sound.state_of_live (hs : s.Sound options) {now : Nat} (hclock : s.now ≤ now)
    {key : K} {budget : Budget} (hget : s.budgets key = some budget)
    (hlive : now - budget.windowStart < options.windowMs) :
    ∃ state, OrderedMap.get? key s.windows = some state ∧
      budget.windowStart = state.windowStart ∧ budget.hits = state.count := by
  have hbefore : budget.live options s.now = true := by
    refine decide_eq_true ?_
    show s.now - budget.windowStart < options.windowMs
    omega
  obtain ⟨state, hstate⟩ := Option.isSome_iff_exists.mp (hs.present key budget hget hbefore)
  obtain ⟨budget', hget', hstart, hhits⟩ := hs.agrees key state hstate
  obtain rfl := Option.some.inj (hget.symm.trans hget')
  exact ⟨state, hstate, hstart, hhits⟩

theorem Limited.Sound.charge_eq (hs : s.Sound options) (hclock : s.now ≤ h.now) :
    ∃ state, (currentWindow options s.windows h.now h.key).getD ⟨0, h.now⟩ = state ∧
      state.windowStart ≤ h.now ∧
      charge options h.now (decision options s h).allowed (s.budgets h.key) =
        ⟨state.windowStart, state.count + 1, min (state.count + 1) options.limit⟩ := by
  have hcount : ∀ count : Nat, min count options.limit +
      (decide (count + 1 ≤ options.limit)).toNat = min (count + 1) options.limit := by
    intro count
    by_cases hle : count + 1 ≤ options.limit
    · rw [decide_eq_true hle, Bool.toNat_true]
      omega
    · rw [decide_eq_false hle, Bool.toNat_false]
      omega
  refine ⟨_, rfl, ?_⟩
  cases hcurrent : currentWindow options s.windows h.now h.key with
  | some state =>
    obtain ⟨hget, hlive⟩ := currentWindow_some hcurrent
    obtain ⟨budget, hbudget, hstart, hhits⟩ := hs.agrees h.key state hget
    have hpassed := hs.passed h.key budget hbudget
    have hpast := hs.past h.key budget hbudget
    rw [Option.getD_some]
    refine ⟨by omega, ?_⟩
    have hallowed : (decision options s h).allowed =
        decide (state.count + 1 ≤ options.limit) := by
      rw [decision, hit, hcurrent]
      rfl
    rw [hallowed, hbudget, charge, hstart, if_pos hlive, hpassed, hhits, hcount]
  | none =>
    rw [Option.getD_none]
    refine ⟨Nat.le_refl _, ?_⟩
    have hallowed : (decision options s h).allowed = decide (0 + 1 ≤ options.limit) := by
      rw [decision, hit, hcurrent]
      rfl
    have hnew := hcount 0
    rw [Nat.zero_min, Nat.zero_add] at hnew
    rw [hallowed]
    cases hbudget : s.budgets h.key with
    | none =>
      rw [charge, hnew]
    | some budget =>
      rw [charge]
      split
      · next hlive =>
        obtain ⟨state, hstate, hstart, -⟩ := hs.state_of_live hclock hbudget hlive
        rw [hstart] at hlive
        exact absurd hlive (currentWindow_none hcurrent hstate)
      · rw [hnew]

theorem get?_openWindow {windows : Windows K} {now : Nat} {key k : K} {state : WindowState}
    (hunique : OrderedMap.UniqueKeys windows) (hbounded : windows.length ≤ options.maxKeys)
    (hget : OrderedMap.get? k (openWindow options windows now key) = some state) :
    if k = key then state = (currentWindow options windows now key).getD ⟨0, now⟩
    else OrderedMap.get? k windows = some state := by
  rcases openWindow_cases windows now key hbounded with
    ⟨hcurrent, hopen⟩ | ⟨hcurrent, hopen, -⟩ | ⟨hcurrent, hmem, -, hopen⟩
  · obtain ⟨state', hstate'⟩ := Option.isSome_iff_exists.mp hcurrent
    rw [hopen] at hget
    split
    · next heq =>
      subst heq
      have hsame := (currentWindow_some hstate').1
      rw [hstate', Option.getD_some]
      exact Option.some.inj (hget.symm.trans hsame)
    · exact hget
  · rw [hopen, OrderedMap.get?_set] at hget
    split
    · next heq =>
      rw [if_pos heq] at hget
      rw [hcurrent, Option.getD_none]
      exact (Option.some.inj hget).symm
    · next hne =>
      rw [if_neg hne] at hget
      exact hget
  · rw [hopen] at hget
    have hall : OrderedMap.UniqueKeys (windows ++ [(key, WindowState.mk 0 now)]) := by
      have h := hunique.set (k := key) (v := (⟨0, now⟩ : WindowState))
      rw [OrderedMap.set_of_not_mem hmem] at h
      exact h
    have hlist := OrderedMap.get?_of_mem hall
      (List.mem_of_mem_drop (OrderedMap.mem_of_get? hget))
    rw [OrderedMap.get?_append] at hlist
    split
    · next heq =>
      subst heq
      rw [OrderedMap.get?_eq_none.mpr hmem, Option.none_or, OrderedMap.get?_cons,
        if_pos rfl] at hlist
      rw [hcurrent, Option.getD_none]
      exact (Option.some.inj hlist).symm
    · next hne =>
      rw [OrderedMap.get?_cons, if_neg (Ne.symm hne)] at hlist
      cases hfound : OrderedMap.get? k windows with
      | none =>
        rw [hfound] at hlist
        cases hlist
      | some state' =>
        rw [hfound] at hlist
        exact hlist

theorem Limited.Sound.first_over {s t : Limited K} {h : Hit K} {first : K × WindowState}
    (hs : s.Sound options) (hstep : RateStep options s h t)
    (hmemory : WithinMemory options ⟨s, h, t⟩) (hmem : h.key ∉ s.windows.map Prod.fst)
    (hfull : s.windows.length = options.maxKeys)
    (holdest : ∀ e ∈ s.windows, first.2.windowStart ≤ e.2.windowStart) :
    ¬ h.now - first.2.windowStart < options.windowMs := by
  intro hlive
  obtain ⟨hclock⟩ := hstep
  have hpositive : 0 < options.windowMs := by omega
  -- every entry and the new key are live
  have hsub : insert h.key (s.windows.map Prod.fst).toFinset ⊆
      Finset.filter (fun key => (Function.update s.budgets h.key
        (charge options h.now (decision options s h).allowed (s.budgets h.key)) key).any
          (Budget.live options h.now)) (insert h.key s.seen) := by
    intro k hk
    refine Finset.mem_filter.mpr ?_
    rcases Finset.mem_insert.mp hk with rfl | hk
    · rw [Function.update_self, Option.any_some]
      exact ⟨Finset.mem_insert_self _ _, live_charge hpositive _⟩
    · obtain ⟨e, he, rfl⟩ := List.mem_map.mp (List.mem_toFinset.mp hk)
      obtain ⟨budget, hbudget, hstart, -⟩ :=
        hs.agrees e.1 e.2 (OrderedMap.get?_of_mem hs.unique he)
      have hne : e.1 ≠ h.key := fun heq => hmem (heq ▸ List.mem_map_of_mem he)
      have hle := holdest e he
      rw [Function.update_of_ne hne, hbudget, Option.any_some]
      refine ⟨Finset.mem_insert_of_mem (hs.seen e.1 budget hbudget), decide_eq_true ?_⟩
      omega
  have hcard := Finset.card_le_card hsub
  rw [Finset.card_insert_of_notMem (fun hk => hmem (List.mem_toFinset.mp hk)),
    List.toFinset_card_of_nodup hs.unique, List.length_map, hfull] at hcard
  have hroom : _ ≤ options.maxKeys := hmemory
  exact absurd (Nat.le_trans hcard hroom) (by omega)

theorem Limited.Sound.live_kept {s t : Limited K} {h : Hit K} (hs : s.Sound options)
    (hstep : RateStep options s h t) (hmemory : WithinMemory options ⟨s, h, t⟩)
    (holdest : OldestFirst options ⟨s, h, t⟩) {key : K} {budget : Budget}
    (hbudget : t.budgets key = some budget) (hlive : budget.live options t.now = true) :
    key ∈ (openWindow options s.windows h.now h.key).map Prod.fst := by
  have hgone := fun hmem hfull first hfirst =>
    hs.first_over hstep hmemory hmem hfull (holdest hmem (Nat.le_of_eq hfull.symm) first hfirst)
  have hothers : key ≠ h.key → s.budgets key = some budget := by
    intro hkey
    rw [← hstep.other hkey]
    exact hbudget
  have hcard : key ∈ t.liveKeys options := by
    refine Finset.mem_filter.mpr ⟨?_, ?_⟩
    · obtain ⟨hclock⟩ := hstep
      by_cases hkey : key = h.key
      · rw [hkey]
        exact Finset.mem_insert_self _ _
      · exact Finset.mem_insert_of_mem (hs.seen key budget (hothers hkey))
    · rw [hbudget]
      exact hlive
  have hroom : 0 < options.maxKeys :=
    Nat.lt_of_lt_of_le (Finset.card_pos.mpr ⟨key, hcard⟩) hmemory
  obtain ⟨hclock⟩ := hstep
  -- a live window of another key is one of the map
  have hothers : key ≠ h.key → ∃ state, OrderedMap.get? key s.windows = some state ∧
      budget.windowStart = state.windowStart := by
    intro hkey
    obtain ⟨state, hget, hstart, -⟩ :=
      hs.state_of_live hclock (hothers hkey) (of_decide_eq_true hlive)
    exact ⟨state, hget, hstart⟩
  rcases openWindow_cases s.windows h.now h.key hs.bounded with
    ⟨hcurrent, hopen⟩ | ⟨-, hopen, -⟩ | ⟨-, hmem, hfull, hopen⟩
  · rw [hopen]
    by_cases hkey : key = h.key
    · obtain ⟨state, hstate⟩ := Option.isSome_iff_exists.mp hcurrent
      rw [hkey]
      exact List.mem_map_of_mem (OrderedMap.mem_of_get? (currentWindow_some hstate).1)
    · obtain ⟨state, hget, -⟩ := hothers hkey
      exact List.mem_map_of_mem (OrderedMap.mem_of_get? hget)
  · have hset : OrderedMap.get? key (OrderedMap.set h.key ⟨0, h.now⟩ s.windows) ≠ none := by
      rw [OrderedMap.get?_set]
      split
      · exact Option.some_ne_none _
      · next hkey =>
        obtain ⟨state, hget, -⟩ := hothers hkey
        rw [hget]
        exact Option.some_ne_none _
    obtain ⟨state, hget⟩ := Option.ne_none_iff_exists'.mp hset
    rw [hopen]
    exact List.mem_map_of_mem (OrderedMap.mem_of_get? hget)
  · rw [hopen]
    cases hwindows : s.windows with
    | nil =>
      rw [hwindows] at hfull
      exact absurd hfull (Nat.ne_of_lt hroom)
    | cons first rest =>
      show key ∈ (rest ++ [(h.key, WindowState.mk 0 h.now)]).map Prod.fst
      rw [List.map_append]
      by_cases hkey : key = h.key
      · rw [hkey]
        exact List.mem_append_right _ (List.mem_singleton.mpr rfl)
      · obtain ⟨state, hget, hstart⟩ := hothers hkey
        have hin := OrderedMap.mem_of_get? hget
        rw [hwindows] at hin
        rcases List.mem_cons.mp hin with hfirst | hin
        · -- the first entry is over
          refine absurd ?_ (hgone hmem hfull first (congrArg List.head? hwindows))
          rw [← hfirst]
          show h.now - state.windowStart < options.windowMs
          rw [← hstart]
          exact of_decide_eq_true hlive
        · exact List.mem_append_left _ (List.mem_map_of_mem hin)

theorem openWindow_shape {windows : Windows K} (now : Nat) (key : K)
    (hunique : OrderedMap.UniqueKeys windows) (hbounded : windows.length ≤ options.maxKeys) :
    OrderedMap.UniqueKeys (openWindow options windows now key) ∧
      (openWindow options windows now key).length ≤ options.maxKeys := by
  rcases openWindow_cases windows now key hbounded with
    ⟨-, hopen⟩ | ⟨-, hopen, hroom⟩ | ⟨-, hmem, hfull, hopen⟩
  · rw [hopen]
    exact ⟨hunique, hbounded⟩
  · rw [hopen]
    exact ⟨hunique.set, hroom⟩
  · have hall := hunique.set (k := key) (v := (⟨0, now⟩ : WindowState))
    rw [OrderedMap.set_of_not_mem hmem] at hall
    rw [hopen]
    refine ⟨hall.sublist ((List.drop_sublist 1 _).map Prod.fst), ?_⟩
    rw [List.length_drop, List.length_append, List.length_singleton, hfull]
    exact Nat.le_refl _

theorem createLimiter_sound (now : Nat) : (createLimiter (K := K) now).Sound options where
  unique := List.nodup_nil
  bounded := Nat.zero_le _
  past := fun _ _ h => absurd h (Option.some_ne_none _).symm
  seen := fun _ _ h => absurd h (Option.some_ne_none _).symm
  passed := fun _ _ h => absurd h (Option.some_ne_none _).symm
  agrees := fun _ _ h => absurd h (Option.some_ne_none _).symm
  present := fun _ _ h => absurd h (Option.some_ne_none _).symm

theorem Limited.Sound.step {s t : Limited K} {h : Hit K} (hs : s.Sound options)
    (hstep : RateStep options s h t) (hmemory : WithinMemory options ⟨s, h, t⟩)
    (holdest : OldestFirst options ⟨s, h, t⟩) : t.Sound options := by
  have hkept : ∀ key budget, t.budgets key = some budget → budget.live options t.now = true →
      key ∈ (openWindow options s.windows h.now h.key).map Prod.fst :=
    fun _ _ hbudget hlive => hs.live_kept hstep hmemory holdest hbudget hlive
  obtain ⟨hclock⟩ := hstep
  obtain ⟨state, hstate, hpast, hcharge⟩ := hs.charge_eq hclock
  obtain ⟨hunique, hbounded⟩ := openWindow_shape h.now h.key hs.unique hs.bounded
  have hbudget : ∀ {key budget}, Function.update s.budgets h.key
      (charge options h.now (decision options s h).allowed (s.budgets h.key)) key = some budget →
      (key = h.key ∧
        budget = ⟨state.windowStart, state.count + 1, min (state.count + 1) options.limit⟩) ∨
      (key ≠ h.key ∧ s.budgets key = some budget) := by
    intro key budget hget
    by_cases hkey : key = h.key
    · rw [hkey, Function.update_self, hcharge] at hget
      exact Or.inl ⟨hkey, (Option.some.inj hget).symm⟩
    · rw [Function.update_of_ne hkey] at hget
      exact Or.inr ⟨hkey, hget⟩
  constructor
  case unique =>
    show ((increment h.key _).map Prod.fst).Nodup
    rw [keys_increment]
    exact hunique
  case bounded =>
    show (increment h.key _).length ≤ _
    rw [increment, List.length_map]
    exact hbounded
  case past =>
    intro key budget hget
    rcases hbudget hget with ⟨-, rfl⟩ | ⟨-, hget⟩
    · exact hpast
    · exact Nat.le_trans (hs.past key budget hget) hclock
  case seen =>
    intro key budget hget
    rcases hbudget hget with ⟨rfl, -⟩ | ⟨-, hget⟩
    · exact Finset.mem_insert_self _ _
    · exact Finset.mem_insert_of_mem (hs.seen key budget hget)
  case passed =>
    intro key budget hget
    rcases hbudget hget with ⟨-, rfl⟩ | ⟨-, hget⟩
    · rfl
    · exact hs.passed key budget hget
  case agrees =>
    intro key state' hget
    change OrderedMap.get? key (increment h.key _) = some state' at hget
    rw [get?_increment] at hget
    obtain ⟨state₀, hget₀, rfl⟩ := Option.map_eq_some_iff.mp hget
    have hold := get?_openWindow hs.unique hs.bounded hget₀
    by_cases hkey : key = h.key
    · rw [if_pos hkey, hstate] at hold
      rw [if_pos hkey, hold]
      refine ⟨⟨state.windowStart, state.count + 1, min (state.count + 1) options.limit⟩, ?_, rfl,
        rfl⟩
      show Function.update s.budgets h.key _ key = _
      rw [hkey, Function.update_self, hcharge]
    · rw [if_neg hkey] at hold
      rw [if_neg hkey]
      show ∃ budget, Function.update s.budgets h.key _ key = some budget ∧ _
      rw [Function.update_of_ne hkey]
      exact hs.agrees key state₀ hold
  case present =>
    intro key budget hget hlive
    refine Option.isSome_iff_ne_none.mpr fun hnone => ?_
    have hmem := hkept key budget hget hlive
    have hsame : (increment h.key (openWindow options s.windows h.now h.key)).map Prod.fst = _ :=
      keys_increment
    rw [← hsame] at hmem
    exact OrderedMap.get?_eq_none.mp hnone hmem

/-- What goes from the map is its first entry, for a key that had none. -/
theorem gone_first {windows : Windows K} {now : Nat} {key : K} {e : K × WindowState}
    (hbounded : windows.length ≤ options.maxKeys) (he : e ∈ windows)
    (hgone : e.1 ∉ (openWindow options windows now key).map Prod.fst) :
    ∃ rest, windows = e :: rest ∧ key ∉ windows.map Prod.fst ∧ windows.length = options.maxKeys ∧
      openWindow options windows now key = rest ++ [(key, ⟨0, now⟩)] := by
  rcases openWindow_cases windows now key hbounded with
    ⟨-, hopen⟩ | ⟨-, hopen, -⟩ | ⟨-, hmem, hfull, hopen⟩
  · rw [hopen] at hgone
    exact absurd (List.mem_map_of_mem he) hgone
  · rw [hopen, OrderedMap.keys_set] at hgone
    refine absurd ?_ hgone
    have hin : e.1 ∈ windows.map Prod.fst := List.mem_map_of_mem he
    split
    · exact hin
    · exact List.mem_append_left _ hin
  · cases windows with
    | nil => exact absurd he List.not_mem_nil
    | cons first rest =>
      change _ = rest ++ [(key, ⟨0, now⟩)] at hopen
      rcases List.mem_cons.mp he with rfl | he
      · exact ⟨rest, rfl, hmem, hfull, hopen⟩
      · rw [hopen] at hgone
        exact absurd (List.mem_map_of_mem (List.mem_append_left _ he)) hgone

theorem Limited.Sound.holds_iff {s t : Limited K} {h : Hit K} (hs : s.Sound options)
    (hstep : RateStep options s h t) :
    RateHolds options ⟨s, h, t⟩ ↔ OldestFirst options ⟨s, h, t⟩ := by
  obtain ⟨hclock⟩ := hstep
  obtain ⟨state, hstate, hpast, hcharge⟩ := hs.charge_eq hclock
  constructor
  · intro hholds hmem hfull first hhead e he
    obtain ⟨rest, hwindows⟩ : ∃ rest, s.windows = first :: rest := List.head?_eq_some_iff.mp hhead
    change e ∈ s.windows at he
    change h.key ∉ s.windows.map Prod.fst at hmem
    change options.maxKeys ≤ s.windows.length at hfull
    have hfirst : first ∈ s.windows := by
      rw [hwindows]
      exact List.mem_cons_self
    have hopen : openWindow options s.windows h.now h.key = rest ++ [(h.key, ⟨0, h.now⟩)] := by
      rcases openWindow_cases s.windows h.now h.key hs.bounded with
        ⟨hcurrent, -⟩ | ⟨-, -, hroom⟩ | ⟨-, -, -, hopen⟩
      · obtain ⟨state', hstate'⟩ := Option.isSome_iff_exists.mp hcurrent
        exact absurd (List.mem_map_of_mem
          (OrderedMap.mem_of_get? (currentWindow_some hstate').1)) hmem
      · rw [OrderedMap.set_of_not_mem hmem, List.length_append, List.length_singleton] at hroom
        omega
      · rw [hopen, hwindows]
        rfl
    have hgone : first.1 ∉ (increment h.key (openWindow options s.windows h.now h.key)).map
        Prod.fst := by
      have hunique := hs.unique
      rw [OrderedMap.UniqueKeys, hwindows, List.map_cons] at hunique
      rw [keys_increment, hopen, List.map_append]
      intro hin
      rcases List.mem_append.mp hin with hin | hin
      · exact (List.nodup_cons.mp hunique).1 hin
      · have heq : first.1 = h.key := List.mem_singleton.mp hin
        rw [← heq] at hmem
        exact hmem (List.mem_map_of_mem hfirst)
    rw [hwindows] at he
    rcases List.mem_cons.mp he with rfl | he
    · exact Nat.le_refl _
    have hin : e ∈ openWindow options s.windows h.now h.key := by
      rw [hopen]
      exact List.mem_append_left _ he
    obtain ⟨e', he', -, hstart⟩ := increment_mem h.key hin
    rw [← hstart]
    exact hholds.oldest first hfirst hgone e' he'
  · intro holdest
    have hbudget : ∀ budget, Function.update s.budgets h.key
        (charge options h.now (decision options s h).allowed (s.budgets h.key)) h.key =
          some budget →
        budget = ⟨state.windowStart, state.count + 1, min (state.count + 1) options.limit⟩ := by
      intro budget hget
      rw [Function.update_self, hcharge] at hget
      exact (Option.some.inj hget).symm
    have hdecision : decision options s h =
        ⟨state.count + 1 ≤ options.limit,
          max 1 ((state.windowStart + options.windowMs - h.now + 999) / 1000)⟩ := by
      rw [← hstate]
      rfl
    constructor
    case limit =>
      intro budget hget
      obtain rfl := hbudget budget hget
      show ((decision options s h).allowed = true ↔ _) ∧ _
      rw [hdecision]
      exact ⟨decide_eq_true_iff, Nat.min_le_right _ _⟩
    case retry =>
      intro budget hget
      obtain rfl := hbudget budget hget
      show _ ≤ h.now + (decision options s h).retryAfterSeconds * 1000
      rw [hdecision]
      exact retry_reaches h.now (state.windowStart + options.windowMs)
    case bounded =>
      show (increment h.key _).length ≤ _
      rw [increment, List.length_map]
      exact (openWindow_shape h.now h.key hs.unique hs.bounded).2
    case oldest =>
      intro e he hgone e' he'
      change e.1 ∉ (increment h.key _).map Prod.fst at hgone
      rw [keys_increment] at hgone
      obtain ⟨rest, hwindows, hmem, hfull, hopen⟩ := gone_first hs.bounded he hgone
      obtain ⟨e₀, he₀, -, hstart⟩ := mem_increment he'
      rw [hopen] at he₀
      rw [← hstart]
      rcases List.mem_append.mp he₀ with he₀ | he₀
      · have hin : e₀ ∈ s.windows := by
          rw [hwindows]
          exact List.mem_cons_of_mem _ he₀
        exact holdest hmem (Nat.le_of_eq hfull.symm) e (congrArg List.head? hwindows) e₀ hin
      · rw [List.mem_singleton.mp he₀]
        obtain ⟨budget, hbudget', hsame, -⟩ :=
          hs.agrees e.1 e.2 (OrderedMap.get?_of_mem hs.unique he)
        rw [← hsame]
        exact Nat.le_trans (hs.past e.1 budget hbudget') hclock

end

/-! ## Every run -/

/-- The limit holds all along exactly when the first entry is the oldest wherever one goes. -/
theorem rate_limit_holds_iff (options : RateLimiterOptions) {now : Nat}
    {moves : List (Move (Limited K) (Hit K))} {s : Limited K}
    (h : Trace (RateStep options) (createLimiter now) moves s)
    (hmemory : ∀ m ∈ moves, WithinMemory options m) :
    (∀ m ∈ moves, RateHolds options m) ↔ ∀ m ∈ moves, OldestFirst options m := by
  refine h.forall_iff (Limited.Sound options) (WithinMemory options) ?_ ?_ hmemory
    (createLimiter_sound now)
  · intro m hstep _ hs
    exact hs.holds_iff hstep
  · intro m hstep hm hs hholds
    exact hs.step hstep hm ((hs.holds_iff hstep).mp hholds)

/-! ## Two runs -/

/-- The limiter after a hit. -/
def Limited.afterHit (s : Limited K) (h : Hit K) : Limited K where
  now := h.now
  windows := (hit options s.windows h.now h.key).2
  budgets := Function.update s.budgets h.key
    (charge options h.now (decision options s h).allowed (s.budgets h.key))
  seen := insert h.key s.seen

/-- The moves of a run of hits. -/
def movesFrom (s : Limited K) : List (Hit K) → List (Move (Limited K) (Hit K))
  | [] => []
  | h :: hits => ⟨s, h, s.afterHit options h⟩ :: movesFrom (s.afterHit options h) hits

theorem trace_movesFrom (s : Limited K) (hits : List (Hit K))
    (hclock : (s.now :: hits.map Hit.now).IsChain (· ≤ ·)) :
    Trace (RateStep options) s (movesFrom options s hits)
      (hits.foldl (Limited.afterHit options) s) := by
  induction hits generalizing s with
  | nil => exact .nil s
  | cons h hits ih =>
    rw [List.map_cons, List.isChain_cons_cons] at hclock
    exact .cons (.hit s h hclock.1) (ih _ hclock.2)

/-- The window of the first key is over when it goes. -/
theorem rate_limit_holds_iff_expired :
    ∃ moves s, Trace (RateStep ⟨1, 60000, 2⟩) (createLimiter (K := String) 0) moves s ∧
      moves.map (fun m => (decision ⟨1, 60000, 2⟩ m.before m.event).allowed) =
        [true, true, false, true, true] ∧ ∀ m ∈ moves, RateHolds ⟨1, 60000, 2⟩ m := by
  have htrace := trace_movesFrom ⟨1, 60000, 2⟩ (createLimiter (K := String) 0)
    [⟨"a", 0⟩, ⟨"b", 30000⟩, ⟨"b", 30001⟩, ⟨"c", 60000⟩, ⟨"a", 90000⟩] (by decide)
  exact ⟨_, _, htrace, by decide,
    (rate_limit_holds_iff _ htrace (by decide +kernel)).mpr (by decide +kernel)⟩

/-- `a` is renewed in place and stays in front of `b`: the hit of `c` drops its new window, and
`a` is served twice in it. -/
theorem renewed_window_evicted :
    ∃ moves s budget, Trace (RateStep ⟨1, 60000, 2⟩) (createLimiter (K := String) 0) moves s ∧
      (∀ m ∈ moves, WithinMemory ⟨1, 60000, 2⟩ m) ∧ s.budgets "a" = some budget ∧
      budget.windowStart = 60000 ∧ budget.passed = 2 ∧
      ¬ ∀ m ∈ moves, RateHolds ⟨1, 60000, 2⟩ m := by
  have htrace := trace_movesFrom ⟨1, 60000, 2⟩ (createLimiter (K := String) 0)
    [⟨"a", 0⟩, ⟨"b", 30000⟩, ⟨"a", 60000⟩, ⟨"c", 90000⟩, ⟨"a", 90000⟩] (by decide)
  refine ⟨_, _, ⟨60000, 2, 2⟩, htrace, by decide +kernel, rfl, rfl, rfl, ?_⟩
  intro hholds
  have hlast := hholds _ (List.mem_of_getLast? (rfl : List.getLast? _ = some _))
  exact absurd (hlast.limit ⟨60000, 2, 2⟩ rfl).2 (by decide)

end InvisibleString.Triggers
