import InvisibleString.Lib.Transition
import InvisibleString.Triggers.Cron
import InvisibleString.Triggers.Rows
import Mathlib.Data.List.Basic
import Mathlib.Logic.Function.Basic

/- # `Triggers.Ticker` — schedule windows and who fires them

Every replica ticks on its own clock: it scans for due triggers, and claims each in a
transaction under the trigger's advisory lock.  The claim reads the row again, advances
`next_fire_at` from the clock's reading, commits, and only then is the window that stood there
dispatched.  A replica may die at any point.

The rows are those the last publish left; what is told of a schedule here is told of it until
it is published again, switched off or on.

**Proved here.**

    a claim takes a window that is due and leaves a later instant than its reading, or none
                                                                (`claimDueScheduleFire_spec`)
    for all clocks of all replicas and all crashes, the windows claimed of one schedule are
      strictly increasing instants its expression matches, no window starts two runs, and of
      the windows that are over at an instant one at most is claimed from then on
                                                                        (`windows_fire_once`)
-/

namespace InvisibleString.Triggers

open Transition

variable {N Replica : Type}

/-! ## The claim -/

/-- `nextFire` for a cursor: an expression the parser rejects disarms the trigger. -/
def nextCursor (cron : Json.JsString) (now : Nat) : Option Nat :=
  match nextFire cron now with
  | .ok next => next
  | .error _ => none

/-- The window that fires and the next cursor; `none` when the trigger is not due. -/
def claimDueScheduleFire (row : Option (TriggerRow N)) (now : Nat) : Option (Nat × Option Nat) :=
  match row with
  | none => none
  | some trigger =>
    if trigger.type ≠ .schedule ∨ trigger.enabled = false then none
    else match trigger.cron, trigger.nextFireAt with
      | some cron, some window =>
        if now < window then none else some (window, nextCursor cron now)
      | _, _ => none

/-- The due scan of a tick. -/
def TriggerRow.isDue (trigger : TriggerRow N) (now : Nat) : Bool :=
  trigger.type = .schedule && trigger.enabled && trigger.nextFireAt.any (· ≤ now)

/-- The cursor is an instant the expression of the row matches. -/
def TriggerRow.CursorMatches (trigger : TriggerRow N) : Prop :=
  ∀ window, trigger.nextFireAt = some window →
    ∃ cron, trigger.cron = some cron ∧ CronMatches cron window

theorem nextCursor_spec {cron : Json.JsString} {now next : Nat}
    (h : nextCursor cron now = some next) : now < next ∧ CronMatches cron next := by
  rw [nextCursor] at h
  split at h
  · next found hfire =>
    rw [h] at hfire
    exact nextFire_spec hfire
  · cases h

theorem claimDueScheduleFire_spec {row : Option (TriggerRow N)} {now window : Nat}
    {next : Option Nat} (h : claimDueScheduleFire row now = some (window, next)) :
    ∃ trigger cron, row = some trigger ∧ trigger.cron = some cron ∧
      trigger.nextFireAt = some window ∧ window ≤ now ∧ next = nextCursor cron now := by
  cases row with
  | none => cases h
  | some trigger =>
    rw [claimDueScheduleFire] at h
    split at h
    · cases h
    split at h
    · next cron due hcron hdue =>
      split at h
      · cases h
      next hle =>
        cases h
        exact ⟨trigger, cron, rfl, hcron, hdue, Nat.le_of_not_lt hle, rfl⟩
    · cases h

/-! ## Ticks -/

/-- A committed claim. -/
structure Claim (Replica : Type) where
  triggerId : Uuid
  replica : Replica
  /-- the reading of the replica's clock -/
  now : Nat
  window : Nat

/-- How far a replica's tick is. -/
inductive TickPhase where
  | idle
  /-- the due rows that are left -/
  | ticking (now : Nat) (due : List Uuid)
  | locked (now : Nat) (triggerId : Uuid) (due : List Uuid)
  /-- the cursor is advanced, the transaction open -/
  | claiming (now : Nat) (triggerId : Uuid) (window : Nat) (next : Option Nat) (due : List Uuid)
  /-- committed, not dispatched yet -/
  | claimed (now : Nat) (triggerId : Uuid) (window : Nat) (due : List Uuid)

structure TickerState (N Replica : Type) where
  rows : Uuid → Option (TriggerRow N)
  locks : Int → Option Replica
  ticks : Replica → TickPhase
  /-- the claims so far, in the order of their commits -/
  claims : List (Claim Replica)
  /-- the runs started so far, each with its window -/
  runs : List (Uuid × Nat)

variable [DecidableEq Replica] (hashtext : Uuid → Int) (rows : Uuid → Option (TriggerRow N))

/-- No replica has ticked. -/
def TickerState.init : TickerState N Replica where
  rows := rows
  locks _ := none
  ticks _ := .idle
  claims := []
  runs := []

def TickerState.setTick (s : TickerState N Replica) (r : Replica) (phase : TickPhase) :
    TickerState N Replica :=
  { s with ticks := Function.update s.ticks r phase }

/-- The end of the replica's transaction. -/
def TickerState.unlock (s : TickerState N Replica) (r : Replica) (phase : TickPhase) :
    TickerState N Replica :=
  { s.setTick r phase with locks := fun key => if s.locks key = some r then none else s.locks key }

/-- The claim's `UPDATE`. -/
def TickerState.advance (s : TickerState N Replica) (triggerId : Uuid) (next : Option Nat) :
    Uuid → Option (TriggerRow N) :=
  Function.update s.rows triggerId
    ((s.rows triggerId).map fun trigger => { trigger with nextFireAt := next })

inductive TickerEvent (Replica : Type) where
  | tick (r : Replica) (now : Nat) (due : List Uuid)
  | lock (r : Replica)
  | read (r : Replica)
  | commit (r : Replica)
  | claimFails (r : Replica)
  | start (r : Replica)
  | drop (r : Replica)
  | finish (r : Replica)
  | crash (r : Replica)

/-- One statement of a replica's tick.

    tick          the due rows of enabled, published workflows, any of them, in any order
    skipped       not due any more
    claimFails    a statement throws, the transaction is taken back
    drop          the dispatch throws, or `overlap: "skip"` refuses it
    crash         the database takes the open transaction back -/
inductive TickerStep :
    TickerState N Replica → TickerEvent Replica → TickerState N Replica → Prop
  | tick {s} (r) (now) (due) : s.ticks r = .idle →
      (∀ id ∈ due, ∃ trigger, s.rows id = some trigger ∧ trigger.isDue now = true) →
      TickerStep s (.tick r now due) (s.setTick r (.ticking now due))
  | lock {s} (r) {now id due} : s.ticks r = .ticking now (id :: due) →
      s.locks (hashtext id) = none →
      TickerStep s (.lock r)
        { s.setTick r (.locked now id due) with
          locks := Function.update s.locks (hashtext id) (some r) }
  | skipped {s} (r) {now id due} : s.ticks r = .locked now id due →
      claimDueScheduleFire (s.rows id) now = none →
      TickerStep s (.read r) (s.unlock r (.ticking now due))
  | read {s} (r) {now id due window next} : s.ticks r = .locked now id due →
      claimDueScheduleFire (s.rows id) now = some (window, next) →
      TickerStep s (.read r) (s.setTick r (.claiming now id window next due))
  | commit {s} (r) {now id window next due} : s.ticks r = .claiming now id window next due →
      TickerStep s (.commit r)
        { s.unlock r (.claimed now id window due) with
          rows := s.advance id next
          claims := s.claims ++ [⟨id, r, now, window⟩] }
  | claimFails {s} (r) {now id due} : s.ticks r = .locked now id due →
      TickerStep s (.claimFails r) (s.unlock r (.ticking now due))
  | updateFails {s} (r) {now id window next due} : s.ticks r = .claiming now id window next due →
      TickerStep s (.claimFails r) (s.unlock r (.ticking now due))
  | start {s} (r) {now id window due} : s.ticks r = .claimed now id window due →
      TickerStep s (.start r)
        { s.setTick r (.ticking now due) with runs := s.runs ++ [(id, window)] }
  | drop {s} (r) {now id window due} : s.ticks r = .claimed now id window due →
      TickerStep s (.drop r) (s.setTick r (.ticking now due))
  | finish {s} (r) {now} : s.ticks r = .ticking now [] →
      TickerStep s (.finish r) (s.setTick r .idle)
  | crash {s} (r) : TickerStep s (.crash r) (s.unlock r .idle)

/-- The claims of one schedule. -/
def TickerState.claimsOf (s : TickerState N Replica) (triggerId : Uuid) : List (Claim Replica) :=
  s.claims.filter fun claim => claim.triggerId = triggerId

/-- Each window fires at most once.

    matched      a window claimed is matched by the schedule's expression
    increasing   one after the other, so no window is claimed twice
    once         a window starts at most one run, and only after its claim
    overdue      of the windows up to an instant, one at most is claimed on clocks that show
                 the instant or a later one -/
structure WindowsFireOnce (s : TickerState N Replica) : Prop where
  matched : ∀ claim ∈ s.claims, ∃ trigger cron, rows claim.triggerId = some trigger ∧
    trigger.cron = some cron ∧ CronMatches cron claim.window
  increasing : ∀ triggerId, ((s.claimsOf triggerId).map Claim.window).Pairwise (· < ·)
  once : s.runs.Nodup ∧ ∀ run ∈ s.runs, ∃ claim ∈ s.claims, run = (claim.triggerId, claim.window)
  overdue : ∀ triggerId instant, ((s.claimsOf triggerId).filter fun claim =>
    claim.window ≤ instant ∧ instant ≤ claim.now).length ≤ 1

/-! ## The invariant -/

variable {hashtext rows} {s s' : TickerState N Replica} {r : Replica}

/-- The window a replica has claimed and not dispatched. -/
def TickPhase.pending : TickPhase → Option (Uuid × Nat)
  | .claimed _ triggerId window _ => some (triggerId, window)
  | .idle | .ticking _ _ | .locked _ _ _ | .claiming _ _ _ _ _ => none

/-- The trigger whose row a replica has read and not written. -/
def TickPhase.reading : TickPhase → Option Uuid
  | .claiming _ triggerId _ _ _ => some triggerId
  | .idle | .ticking _ _ | .locked _ _ _ | .claimed _ _ _ _ => none

omit [DecidableEq Replica] in
/-- What a replica knows: the lock is its own, and under it the row it has read is the row there;
a claimed window is recorded, and has no run. -/
def TickPhase.Ok (hashtext : Uuid → Int) (s : TickerState N Replica) (r : Replica) :
    TickPhase → Prop
  | .idle | .ticking _ _ => True
  | .locked _ id _ => s.locks (hashtext id) = some r
  | .claiming now id window next _ => s.locks (hashtext id) = some r ∧
      ∃ trigger cron, s.rows id = some trigger ∧ trigger.cron = some cron ∧
        trigger.nextFireAt = some window ∧ window ≤ now ∧ next = nextCursor cron now
  | .claimed _ id window _ =>
      (∃ claim ∈ s.claims, claim.triggerId = id ∧ claim.window = window) ∧ (id, window) ∉ s.runs

omit [DecidableEq Replica] in
theorem TickPhase.Ok.congr {phase : TickPhase} (h : phase.Ok hashtext s r)
    (hlocks : ∀ key, s.locks key = some r → s'.locks key = some r)
    (hrows : ∀ id, phase.reading = some id → s'.rows id = s.rows id)
    (hclaims : ∀ claim ∈ s.claims, claim ∈ s'.claims)
    (hruns : ∀ run, phase.pending = some run → run ∉ s.runs → run ∉ s'.runs) :
    phase.Ok hashtext s' r := by
  cases phase with
  | idle | ticking => trivial
  | locked => exact hlocks _ h
  | claiming now id window next due =>
    obtain ⟨hlock, trigger, cron, hrow, hrest⟩ := h
    exact ⟨hlocks _ hlock, trigger, cron, (hrows id rfl).trans hrow, hrest⟩
  | claimed now id window due =>
    obtain ⟨⟨claim, hclaim, heq⟩, hrun⟩ := h
    exact ⟨⟨claim, hclaims claim hclaim, heq⟩, hruns _ rfl hrun⟩

/-- The cursor of every row is ahead of every clock its schedule was claimed on. -/
structure TickerInv (hashtext : Uuid → Int) (rows : Uuid → Option (TriggerRow N))
    (s : TickerState N Replica) : Prop where
  each : ∀ r, (s.ticks r).Ok hashtext s r
  sole : ∀ r r' run, (s.ticks r).pending = some run → (s.ticks r').pending = some run → r = r'
  cron : ∀ id trigger, s.rows id = some trigger →
    ∃ trigger₀, rows id = some trigger₀ ∧ trigger₀.cron = trigger.cron
  cursor : ∀ id trigger, s.rows id = some trigger → trigger.CursorMatches
  ahead : ∀ id trigger window, s.rows id = some trigger → trigger.nextFireAt = some window →
    ∀ claim ∈ s.claims, claim.triggerId = id → claim.now < window
  due : ∀ claim ∈ s.claims, claim.window ≤ claim.now
  order : s.claims.Pairwise fun claim claim' =>
    claim.triggerId = claim'.triggerId → claim.now < claim'.window
  matched : ∀ claim ∈ s.claims, ∃ trigger cron, rows claim.triggerId = some trigger ∧
    trigger.cron = some cron ∧ CronMatches cron claim.window
  runs : s.runs.Nodup ∧ ∀ run ∈ s.runs, ∃ claim ∈ s.claims, run = (claim.triggerId, claim.window)

omit [DecidableEq Replica] in
theorem TickerInv.init (h : ∀ id trigger, rows id = some trigger → trigger.CursorMatches) :
    TickerInv hashtext rows (.init rows : TickerState N Replica) where
  each _ := trivial
  sole _ _ _ h := by cases h
  cron _ trigger hrow := ⟨trigger, hrow, rfl⟩
  cursor := h
  ahead _ _ _ _ _ _ hclaim := absurd hclaim List.not_mem_nil
  due _ hclaim := absurd hclaim List.not_mem_nil
  order := .nil
  matched _ hclaim := absurd hclaim List.not_mem_nil
  runs := ⟨.nil, fun _ hrun => absurd hrun List.not_mem_nil⟩

/-- The windows that are pending afterwards were so before, each with its replica. -/
theorem TickerInv.sole_of (h : TickerInv hashtext rows s) {phase : TickPhase}
    (hpending : ∀ run, phase.pending = some run → (s.ticks r).pending = some run) :
    ∀ q q' run, (Function.update s.ticks r phase q).pending = some run →
      (Function.update s.ticks r phase q').pending = some run → q = q' := by
  have hwas : ∀ q run, (Function.update s.ticks r phase q).pending = some run →
      (s.ticks q).pending = some run := by
    intro q run hq
    by_cases hqr : q = r
    · subst hqr
      rw [Function.update_self] at hq
      exact hpending run hq
    · rwa [Function.update_of_ne hqr] at hq
  exact fun q q' run hq hq' => h.sole q q' run (hwas q run hq) (hwas q' run hq')

/-- A replica goes on, no row is written: the locks of the others stay theirs. -/
theorem TickerInv.moved (h : TickerInv hashtext rows s) {phase : TickPhase}
    {locks : Int → Option Replica}
    (hlocks : ∀ key q, q ≠ r → s.locks key = some q → locks key = some q)
    (hpending : phase.pending = none)
    (hok : phase.Ok hashtext { s.setTick r phase with locks } r) :
    TickerInv hashtext rows { s.setTick r phase with locks } where
  each := (Function.forall_update_iff s.ticks fun q phase =>
      phase.Ok hashtext { s.setTick r phase with locks } q).mpr
    ⟨hok, fun q hq => (h.each q).congr (fun key => hlocks key q hq) (fun _ _ => rfl)
      (fun _ hclaim => hclaim) (fun _ _ hrun => hrun)⟩
  sole := h.sole_of fun run hrun => by
    rw [hpending] at hrun
    cases hrun
  cron := h.cron
  cursor := h.cursor
  ahead := h.ahead
  due := h.due
  order := h.order
  matched := h.matched
  runs := h.runs

omit [DecidableEq Replica] in
theorem TickerInv.new_window (h : TickerInv hashtext rows s) {id : Uuid} {trigger : TriggerRow N}
    {window : Nat} (hrow : s.rows id = some trigger) (hdue : trigger.nextFireAt = some window) :
    ∀ claim ∈ s.claims, claim.triggerId = id → claim.window ≠ window := by
  intro claim hclaim hid heq
  have hahead := h.ahead id trigger window hrow hdue claim hclaim hid
  have hle := h.due claim hclaim
  omega

theorem TickerInv.commit (h : TickerInv hashtext rows s) {now : Nat} {id : Uuid} {window : Nat}
    {next : Option Nat} {due : List Uuid} (hr : s.ticks r = .claiming now id window next due) :
    TickerInv hashtext rows
      { s.unlock r (.claimed now id window due) with
        rows := s.advance id next
        claims := s.claims ++ [⟨id, r, now, window⟩] } := by
  have hok := h.each r
  rw [hr] at hok
  obtain ⟨hlock, trigger, cron, hrow, hcron, hdue, hle, hnext⟩ := hok
  have hother : ∀ id', id' ≠ id → s.advance id next id' = s.rows id' := fun id' hne =>
    Function.update_of_ne hne _ _
  have hrows : ∀ id' trigger', s.advance id next id' = some trigger' →
      (id' = id ∧ trigger' = { trigger with nextFireAt := next }) ∨
        (id' ≠ id ∧ s.rows id' = some trigger') := by
    intro id' trigger' hrow'
    by_cases hid : id' = id
    · rw [hid, TickerState.advance, Function.update_self, hrow] at hrow'
      exact Or.inl ⟨hid, (Option.some.inj hrow').symm⟩
    · exact Or.inr ⟨hid, (hother id' hid).symm.trans hrow'⟩
  have hnew := h.new_window hrow hdue
  constructor
  case each =>
    refine (Function.forall_update_iff s.ticks fun q phase => phase.Ok hashtext _ q).mpr
      ⟨⟨⟨_, List.mem_append_right _ List.mem_cons_self, rfl, rfl⟩, fun hrun => ?_⟩, fun q hq => ?_⟩
    · obtain ⟨claim, hclaim, heq⟩ := h.runs.2 _ hrun
      exact hnew claim hclaim (congrArg Prod.fst heq).symm (congrArg Prod.snd heq).symm
    · refine (h.each q).congr (fun key hkey => ?_) (fun id' hreading => hother id' ?_)
        (fun _ hclaim => List.mem_append_left _ hclaim) (fun _ _ hrun => hrun)
      · show (if s.locks key = some r then none else s.locks key) = some q
        rw [hkey, if_neg fun heq => hq (Option.some.inj heq)]
      · rintro rfl
        have hq' := h.each q
        cases hphase : s.ticks q with
        | claiming now' id' window' next' due' =>
          rw [hphase] at hreading hq'
          cases hreading
          exact hq (Option.some.inj (hq'.1.symm.trans hlock))
        | idle | ticking | locked | claimed =>
          rw [hphase] at hreading
          cases hreading
  case sole =>
    have hfresh : ∀ q, (s.ticks q).pending ≠ some (id, window) := by
      intro q hq
      have hq' := h.each q
      cases hphase : s.ticks q with
      | claimed now' id' window' due' =>
        rw [hphase] at hq hq'
        cases hq
        obtain ⟨⟨claim, hclaim, hid, hwindow⟩, _⟩ := hq'
        exact hnew claim hclaim hid hwindow
      | idle | ticking | locked | claiming =>
        rw [hphase] at hq
        cases hq
    intro q q' run hq hq'
    change (Function.update s.ticks r _ q).pending = some run at hq
    change (Function.update s.ticks r _ q').pending = some run at hq'
    by_cases hqr : q = r <;> by_cases hqr' : q' = r
    · rw [hqr, hqr']
    · rw [hqr, Function.update_self] at hq
      rw [Function.update_of_ne hqr', ← hq] at hq'
      exact absurd hq' (hfresh q')
    · rw [hqr', Function.update_self] at hq'
      rw [Function.update_of_ne hqr, ← hq'] at hq
      exact absurd hq (hfresh q)
    · rw [Function.update_of_ne hqr] at hq
      rw [Function.update_of_ne hqr'] at hq'
      exact h.sole q q' run hq hq'
  case cron =>
    intro id' trigger' hrow'
    rcases hrows id' trigger' hrow' with ⟨rfl, rfl⟩ | ⟨_, hrow'⟩
    · exact h.cron id' trigger hrow
    · exact h.cron id' trigger' hrow'
  case cursor =>
    intro id' trigger' hrow'
    rcases hrows id' trigger' hrow' with ⟨rfl, rfl⟩ | ⟨_, hrow'⟩
    · exact fun window' hwindow' => ⟨cron, hcron, (nextCursor_spec (hnext ▸ hwindow')).2⟩
    · exact h.cursor id' trigger' hrow'
  case ahead =>
    intro id' trigger' window' hrow' hwindow' claim hclaim hsame
    rcases hrows id' trigger' hrow' with ⟨rfl, rfl⟩ | ⟨hid, hrow'⟩
    · have hlt : now < window' := (nextCursor_spec (hnext ▸ hwindow')).1
      rcases List.mem_append.mp hclaim with hclaim | hclaim
      · have := h.ahead id' trigger window hrow hdue claim hclaim hsame
        omega
      · rw [List.mem_singleton.mp hclaim]
        exact hlt
    · rcases List.mem_append.mp hclaim with hclaim | hclaim
      · exact h.ahead id' trigger' window' hrow' hwindow' claim hclaim hsame
      · rw [List.mem_singleton.mp hclaim] at hsame
        exact absurd hsame.symm hid
  case due =>
    intro claim hclaim
    rcases List.mem_append.mp hclaim with hclaim | hclaim
    · exact h.due claim hclaim
    · rw [List.mem_singleton.mp hclaim]
      exact hle
  case order =>
    refine List.pairwise_append.mpr ⟨h.order, List.pairwise_singleton _ _, ?_⟩
    intro claim hclaim claim' hclaim' hsame
    rw [List.mem_singleton.mp hclaim'] at hsame ⊢
    exact h.ahead id trigger window hrow hdue claim hclaim hsame
  case matched =>
    intro claim hclaim
    rcases List.mem_append.mp hclaim with hclaim | hclaim
    · exact h.matched claim hclaim
    · rw [List.mem_singleton.mp hclaim]
      obtain ⟨trigger₀, hrow₀, hcron₀⟩ := h.cron id trigger hrow
      obtain ⟨cron', hcron', hmatches⟩ := h.cursor id trigger hrow window hdue
      exact ⟨trigger₀, cron', hrow₀, hcron₀.trans hcron', hmatches⟩
  case runs =>
    refine ⟨h.runs.1, fun run hrun => ?_⟩
    obtain ⟨claim, hclaim, heq⟩ := h.runs.2 run hrun
    exact ⟨claim, List.mem_append_left _ hclaim, heq⟩

theorem TickerInv.start (h : TickerInv hashtext rows s) {now : Nat} {id : Uuid} {window : Nat}
    {due : List Uuid} (hr : s.ticks r = .claimed now id window due) :
    TickerInv hashtext rows
      { s.setTick r (.ticking now due) with runs := s.runs ++ [(id, window)] } := by
  have hok := h.each r
  rw [hr] at hok
  obtain ⟨⟨claim, hclaim, hid, hwindow⟩, hrun⟩ := hok
  have hpending : (s.ticks r).pending = some (id, window) := by rw [hr]; rfl
  constructor
  case each =>
    refine (Function.forall_update_iff s.ticks fun q phase => phase.Ok hashtext _ q).mpr
      ⟨trivial, fun q hq => ?_⟩
    refine (h.each q).congr (fun _ hkey => hkey) (fun _ _ => rfl) (fun _ hclaim => hclaim) ?_
    intro run hpending' hnot hmem
    rcases List.mem_append.mp hmem with hmem | hmem
    · exact hnot hmem
    · rw [List.mem_singleton.mp hmem] at hpending'
      exact hq (h.sole q r _ hpending' hpending)
  case sole => exact h.sole_of fun run hrun => by cases hrun
  case cron => exact h.cron
  case cursor => exact h.cursor
  case ahead => exact h.ahead
  case due => exact h.due
  case order => exact h.order
  case matched => exact h.matched
  case runs =>
    refine ⟨List.nodup_append.mpr ⟨h.runs.1, List.nodup_singleton _, ?_⟩, fun run hmem => ?_⟩
    · rintro run hmem run' hmem' rfl
      rw [List.mem_singleton.mp hmem'] at hmem
      exact hrun hmem
    · rcases List.mem_append.mp hmem with hmem | hmem
      · exact h.runs.2 run hmem
      · exact ⟨claim, hclaim, by rw [List.mem_singleton.mp hmem, hid, hwindow]⟩

theorem TickerInv.step {e : TickerEvent Replica} (h : TickerInv hashtext rows s)
    (hstep : TickerStep hashtext s e s') : TickerInv hashtext rows s' := by
  have hunlock : ∀ r key q, q ≠ r → s.locks key = some q →
      (if s.locks key = some r then none else s.locks key) = some q := by
    intro r key q hq hkey
    rw [hkey, if_neg fun heq => hq (Option.some.inj heq)]
  cases hstep with
  | tick r now due _ _ => exact h.moved (fun _ _ _ hkey => hkey) rfl trivial
  | @lock r now id due _ hfree =>
    refine h.moved (fun key q _ hkey => ?_) rfl (Function.update_self ..)
    rw [Function.update_of_ne]
    · exact hkey
    · rintro rfl
      rw [hfree] at hkey
      cases hkey
  | skipped r _ _ | claimFails r _ | updateFails r _ | crash r =>
    exact h.moved (hunlock r) rfl trivial
  | @read r now id due window next hr hclaim =>
    have hok := h.each r
    rw [hr] at hok
    exact h.moved (fun _ _ _ hkey => hkey) rfl ⟨hok, claimDueScheduleFire_spec hclaim⟩
  | commit r hr => exact h.commit hr
  | start r hr => exact h.start hr
  | drop r _ | finish r _ => exact h.moved (fun _ _ _ hkey => hkey) rfl trivial

omit [DecidableEq Replica] in
theorem TickerInv.windowsFireOnce (h : TickerInv hashtext rows s) : WindowsFireOnce rows s where
  matched := h.matched
  increasing triggerId := by
    have horder := (h.order.filter fun claim => decide (claim.triggerId = triggerId)).imp_of_mem
      (S := fun claim claim' => claim.window < claim'.window) ?_
    · exact List.pairwise_map.mpr horder
    · intro claim claim' hclaim hclaim' hlt
      obtain ⟨hmem, hid⟩ := List.mem_filter.mp hclaim
      obtain ⟨_, hid'⟩ := List.mem_filter.mp hclaim'
      have hsame := (of_decide_eq_true hid).trans (of_decide_eq_true hid').symm
      exact Nat.lt_of_le_of_lt (h.due claim hmem) (hlt hsame)
  once := h.runs
  overdue triggerId instant := by
    have horder := (h.order.filter fun claim => decide (claim.triggerId = triggerId)).filter
      fun claim => decide (claim.window ≤ instant ∧ instant ≤ claim.now)
    rw [TickerState.claimsOf]
    generalize hleft : List.filter _ (List.filter _ s.claims) = left at horder
    rcases left with _ | ⟨first, _ | ⟨second, rest⟩⟩
    · exact Nat.zero_le 1
    · exact Nat.le_refl 1
    · -- the first was claimed at `instant` or later, so the cursor went beyond `instant`
      have hmem : ∀ claim ∈ first :: second :: rest, claim.triggerId = triggerId ∧
          claim.window ≤ instant ∧ instant ≤ claim.now := by
        intro claim hclaim
        rw [← hleft] at hclaim
        obtain ⟨hclaim, hinstant⟩ := List.mem_filter.mp hclaim
        exact ⟨of_decide_eq_true (List.mem_filter.mp hclaim).2, of_decide_eq_true hinstant⟩
      obtain ⟨hid, _, hnow⟩ := hmem first List.mem_cons_self
      obtain ⟨hid', hwindow, _⟩ := hmem second (List.mem_cons_of_mem _ List.mem_cons_self)
      have hlt := List.rel_of_pairwise_cons horder List.mem_cons_self (hid.trans hid'.symm)
      omega

/-- Each window of a schedule fires at most once. -/
theorem windows_fire_once (hrows : ∀ id trigger, rows id = some trigger → trigger.CursorMatches)
    {moves : List (Move (TickerState N Replica) (TickerEvent Replica))}
    (h : Trace (TickerStep hashtext) (.init rows) moves s) : WindowsFireOnce rows s := by
  have hinv : TickerInv hashtext rows s :=
    h.invariant (TickerInv hashtext rows) (fun _ => True) (fun _ hstep _ hinv => hinv.step hstep)
      (fun _ _ => trivial) (.init hrows)
  exact hinv.windowsFireOnce

/-! ## Two replicas at one window -/

/-- A schedule that fires every minute, published at the epoch. -/
def everyMinute : TriggerRow Int where
  id := .t
  workflowId := .w
  type := .schedule
  tokenHash := none
  formSchema := none
  integrationId := none
  binding := none
  cron := some (Json.ascii "* * * * *")
  nextFireAt := some 60000
  enabled := true

/-- The published schedule of one workflow. -/
def scheduleRows (id : Uuid) : Option (TriggerRow Int) :=
  if id = everyMinute.id then some everyMinute else none

theorem cursorMatches_scheduleRows (id : Uuid) (trigger : TriggerRow Int)
    (h : scheduleRows id = some trigger) : trigger.CursorMatches := by
  rw [scheduleRows] at h
  split at h
  · cases h
    intro window hwindow
    cases hwindow
    have hfire : nextFire (Json.ascii "* * * * *") 0 = .ok (some 60000) := rfl
    exact ⟨_, rfl, (nextFire_spec hfire).2⟩
  · cases h

theorem nextCursor_everyMinute : nextCursor (Json.ascii "* * * * *") 60500 = some 120000 := by
  have hfire : nextFire (Json.ascii "* * * * *") 60500 = .ok (some 120000) := rfl
  rw [nextCursor, hfire]

/-- Two replicas find the window due on clocks that differ; the first one claims it, the second one
finds the cursor advanced. -/
theorem windows_fire_once_twice : ∃ s : TickerState Int Nat,
    s.claims = [⟨everyMinute.id, 0, 60500, 60000⟩] ∧ s.runs = [(everyMinute.id, 60000)] ∧
      WindowsFireOnce scheduleRows s := by
  have hdue : ∀ now, 60000 ≤ now → ∀ id ∈ [everyMinute.id],
      ∃ trigger, scheduleRows id = some trigger ∧ trigger.isDue now = true := by
    intro now hnow id hid
    rw [List.mem_singleton.mp hid]
    exact ⟨everyMinute, if_pos rfl, by simpa [TriggerRow.isDue, everyMinute] using hnow⟩
  have hclaim : claimDueScheduleFire (scheduleRows everyMinute.id) 60500 =
      some (60000, some 120000) := by
    rw [← nextCursor_everyMinute]
    rfl
  have h : Trace (TickerStep fun _ => 0) (.init scheduleRows) _ _ :=
    .cons (.tick 0 60500 [everyMinute.id] rfl (hdue 60500 (by decide))) <|
    .cons (.tick 1 61700 [everyMinute.id] rfl (hdue 61700 (by decide))) <|
    .cons (.lock 0 rfl rfl) <| .cons (.read 0 rfl (by exact hclaim)) <| .cons (.commit 0 rfl) <|
    .cons (.start 0 rfl) <| .cons (.lock 1 rfl rfl) <| .cons (.skipped 1 rfl (by rfl)) <| .nil _
  exact ⟨_, rfl, rfl, windows_fire_once cursorMatches_scheduleRows h⟩

end InvisibleString.Triggers
