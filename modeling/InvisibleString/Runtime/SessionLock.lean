import InvisibleString.Lib.Endless
import Mathlib.Logic.Function.Basic

/- # `Runtime.SessionLock` — the dispatch lock of a session

`acquire` reserves a connection for each attempt and waits for it a bounded time only; a
reservation that comes later is handed straight back.  It asks for the lock on the connection and
keeps it for as long as the lock is held; otherwise it gives it back and tries again, until its
deadline is over.

**Proved here.**

    in every run a reserved connection is given back once or is the one that the returned lock
      owns; the lock unlocks once and gives its connection back once, however often it is released;
      and where time goes on and what can happen happens, `acquire` comes to an end
                                                                    (`reservations_accounted`)
-/

namespace InvisibleString.Runtime

open Transition (Move Trace Endless)

/-! ## Attempts -/

structure LockOptions where
  waitMs : Nat
  pollMs : Nat
  reserveTimeoutMs : Nat

/-- Where a reservation of the lock pool stands. -/
inductive ReservationPlace where
  | unissued
  /-- `reserve` is under way and the race waits for it -/
  | queued
  /-- it lost the race: `pending.then((late) => late.release())` -/
  | abandoned
  | failed
  /-- an attempt asks for the lock on it -/
  | held
  /-- the returned lock has it -/
  | owned
  /-- the returned lock was released and unlocks on it -/
  | unlocking
  | returned
  deriving DecidableEq

/-- A reservation, with a record of the unlock queries on it and of the calls of its `release`. -/
structure LockReservation where
  place : ReservationPlace
  unlocks : Nat
  releases : Nat

inductive AcquirePhase where
  /-- the race of `reserveBounded`, up to its timer -/
  | reserving (timer : Nat)
  /-- `pg_try_advisory_lock` is under way -/
  | trying
  | sleeping (wake : Nat)
  /-- it returned null -/
  | contended
  /-- it returned a lock, which was released or not -/
  | acquired (released : Bool)
  | threw
  deriving DecidableEq

structure AcquireState where
  now : Nat
  deadline : Nat
  exhaustedBackoffMs : Nat
  phase : AcquirePhase
  /-- the attempt under way, or the last one; its reservation has the same number -/
  attempt : Nat
  reservations : Nat → LockReservation

/-- `SESSION_LOCK_EXHAUSTED_BACKOFF_MAX_MS`. -/
def exhaustedBackoffMaxMs : Nat := 1000

namespace AcquireState

variable (o : LockOptions) (s : AcquireState)

def put (i : Nat) (r : LockReservation) : AcquireState :=
  { s with reservations := Function.update s.reservations i r }

/-- The reservation `i` is now at `place`. -/
def move (i : Nat) (place : ReservationPlace) : AcquireState :=
  s.put i { s.reservations i with place := place }

/-- `release()` of the reservation `i`. -/
def giveBack (i : Nat) : AcquireState :=
  let r := s.reservations i
  s.put i { r with place := .returned, releases := r.releases + 1 }

/-- The top of the loop: `reserveBounded(lockSql, reserveTimeoutMs)`. -/
def reserveBounded (attempt : Nat) : AcquireState :=
  { s with phase := .reserving (s.now + o.reserveTimeoutMs), attempt := attempt }.move attempt
    .queued

/-- `acquire` up to its first await. -/
def acquire (now : Nat) : AcquireState :=
  reserveBounded o
    { now := now
      deadline := now + o.waitMs
      exhaustedBackoffMs := o.pollMs
      phase := .trying
      attempt := 0
      reservations := fun _ => ⟨.unissued, 0, 0⟩ } 0

/-- No connection came in time. -/
def exhausted : AcquireState :=
  if s.deadline ≤ s.now then { s with phase := .contended }
  else
    { s with
      phase := .sleeping (s.now + s.exhaustedBackoffMs)
      exhaustedBackoffMs := min (s.exhaustedBackoffMs * 2) exhaustedBackoffMaxMs }

/-- Somebody else has the lock. -/
def notLocked : AcquireState :=
  if s.deadline ≤ s.now then { s with phase := .contended }
  else { s with phase := .sleeping (s.now + o.pollMs) }

/-- `release()` of the returned lock, up to its first await. -/
def release : AcquireState :=
  let r := s.reservations s.attempt
  { s with phase := .acquired true }.put s.attempt
    { r with place := .unlocking, unlocks := r.unlocks + 1 }

/-- The call returned or threw. -/
def Settled : Prop :=
  s.phase = .contended ∨ s.phase = .threw ∨ ∃ released, s.phase = .acquired released

end AcquireState

/-! ## Runs -/

inductive LockEvent where
  | tick
  /-- `reserve` answers in time, or fails in time -/
  | reserved
  | reserveFailed
  | timedOut
  /-- `reserve` answers or fails after its race -/
  | late (i : Nat)
  | lateFailed (i : Nat)
  /-- the lock query answers, or throws -/
  | answered (locked : Option Bool)
  | woke
  /-- `release()` of the returned lock is called -/
  | released
  /-- the unlock query answers or throws -/
  | unlocked

inductive LockStep (o : LockOptions) : AcquireState → LockEvent → AcquireState → Prop
  | tick (s : AcquireState) (now : Nat) (hclock : s.now ≤ now) :
      LockStep o s .tick { s with now := now }
  | reserved (s : AcquireState) (timer : Nat) (h : s.phase = .reserving timer) :
      LockStep o s .reserved ({ s with phase := .trying }.move s.attempt .held)
  | reserveFailed (s : AcquireState) (timer : Nat) (h : s.phase = .reserving timer) :
      LockStep o s .reserveFailed ({ s with phase := .threw }.move s.attempt .failed)
  | timedOut (s : AcquireState) (timer : Nat) (h : s.phase = .reserving timer)
      (htimer : timer ≤ s.now) : LockStep o s .timedOut (s.move s.attempt .abandoned).exhausted
  | late (s : AcquireState) (i : Nat) (h : (s.reservations i).place = .abandoned) :
      LockStep o s (.late i) (s.giveBack i)
  | lateFailed (s : AcquireState) (i : Nat) (h : (s.reservations i).place = .abandoned) :
      LockStep o s (.lateFailed i) (s.move i .failed)
  | locked (s : AcquireState) (h : s.phase = .trying) :
      LockStep o s (.answered (some true))
        ({ s with phase := .acquired false }.move s.attempt .owned)
  | notLocked (s : AcquireState) (h : s.phase = .trying) :
      LockStep o s (.answered (some false)) ((s.giveBack s.attempt).notLocked o)
  | queryThrew (s : AcquireState) (h : s.phase = .trying) :
      LockStep o s (.answered none) ({ s with phase := .threw }.giveBack s.attempt)
  | woke (s : AcquireState) (wake : Nat) (h : s.phase = .sleeping wake) (hwake : wake ≤ s.now) :
      LockStep o s .woke (s.reserveBounded o (s.attempt + 1))
  | released (s : AcquireState) (h : s.phase = .acquired false) : LockStep o s .released s.release
  | releasedAgain (s : AcquireState) (h : s.phase = .acquired true) : LockStep o s .released s
  | unlocked (s : AcquireState) (i : Nat) (h : (s.reservations i).place = .unlocking) :
      LockStep o s .unlocked (s.giveBack i)

/-! ## What is to hold -/

/-- The connection of the reservation was handed out. -/
def LockReservation.Arrived (r : LockReservation) : Prop :=
  r.place = .held ∨ r.place = .owned ∨ r.place = .unlocking ∨ r.place = .returned

/-- The returned lock has the reservation. -/
def LockReservation.OwnedByLock (r : LockReservation) : Prop :=
  r.place = .owned ∨ r.place = .unlocking

/-- Where the connections are. -/
structure ReservationsAccounted (s : AcquireState) : Prop where
  once : ∀ i, (s.reservations i).releases ≤ 1
  /-- after the call, each connection is back or the lock's -/
  settled : s.Settled → ∀ i, (s.reservations i).Arrived →
    (s.reservations i).place = .returned ∧ (s.reservations i).releases = 1 ∨
      (s.reservations i).OwnedByLock ∧ (s.reservations i).releases = 0
  /-- a lock owns one connection, and there is one lock if any -/
  owner : ∀ i, (s.reservations i).OwnedByLock →
    i = s.attempt ∧ ∃ released, s.phase = .acquired released
  /-- a lock that is not released has its connection -/
  unreleased : s.phase = .acquired false → (s.reservations s.attempt).place = .owned ∧
    (s.reservations s.attempt).unlocks = 0
  /-- a released one unlocks once and gives the connection back when that is over -/
  released : s.phase = .acquired true → (s.reservations s.attempt).unlocks = 1 ∧
    ((s.reservations s.attempt).place = .unlocking ∨
      (s.reservations s.attempt).place = .returned ∧ (s.reservations s.attempt).releases = 1)

/-- The call waits for nothing but its turn, or for the answer of the lock query. -/
def AcquireState.Ready (s : AcquireState) : Prop :=
  s.phase = .trying ∨ (∃ timer, s.phase = .reserving timer ∧ timer ≤ s.now) ∨
    ∃ wake, s.phase = .sleeping wake ∧ wake ≤ s.now

/-- The call goes on. -/
def LockEvent.ofCall : LockEvent → Bool
  | .reserved | .reserveFailed | .timedOut | .answered _ | .woke => true
  | _ => false

/-- Time goes on forever, and what is ready has its turn sometime. -/
structure CallGoesOn {o : LockOptions} (ρ : Endless (LockStep o)) : Prop where
  time : ∀ t, ∃ n, t ≤ (ρ.state n).now
  turn : ∀ n, (ρ.state n).Ready → ∃ m, n ≤ m ∧ (ρ.event m).ofCall = true

/-! ## Every run -/

/-- A reservation that no attempt waits for or has. -/
def ReservationPlace.Loose (place : ReservationPlace) : Prop :=
  place = .abandoned ∨ place = .failed ∨ place = .returned

/-- Where the reservation of the last attempt stands in a phase. -/
def AcquirePhase.Fits : AcquirePhase → ReservationPlace → Prop
  | .reserving _, place => place = .queued
  | .trying, place => place = .held
  | .acquired false, place => place = .owned
  | .acquired true, place => place = .unlocking ∨ place = .returned
  | .sleeping _, place => place.Loose
  | .contended, place => place.Loose
  | .threw, place => place.Loose

namespace AcquireState

variable {o : LockOptions} {s t : AcquireState}

/-- Where the reservation `i` stands. -/
def Fits (s : AcquireState) (i : Nat) (place : ReservationPlace) : Prop :=
  if i < s.attempt then place.Loose
  else if i = s.attempt then s.phase.Fits place
  else place = .unissued

structure Sound (s : AcquireState) : Prop where
  counts : ∀ i, (s.reservations i).releases =
    if (s.reservations i).place = .returned then 1 else 0
  unlocks : ∀ i, (s.reservations i).unlocks =
    if i = s.attempt ∧ s.phase = .acquired true then 1 else 0
  fits : ∀ i, s.Fits i (s.reservations i).place

theorem put_self (i : Nat) (r : LockReservation) : (s.put i r).reservations i = r := by
  show Function.update s.reservations i r i = r
  rw [Function.update_self]

theorem put_of_ne {i j : Nat} (r : LockReservation) (h : j ≠ i) :
    (s.put i r).reservations j = s.reservations j := by
  show Function.update s.reservations i r j = _
  rw [Function.update_of_ne h]

theorem fits_attempt {place : ReservationPlace} : s.Fits s.attempt place ↔ s.phase.Fits place := by
  rw [Fits, if_neg (Nat.lt_irrefl _), if_pos rfl]

theorem fits_of_attempt {i : Nat} {place : ReservationPlace} (h : s.attempt = i)
    (hfits : s.phase.Fits place) : s.Fits i place := by
  rw [← h]
  exact fits_attempt.mpr hfits

theorem Sound.current (hs : s.Sound) : s.phase.Fits (s.reservations s.attempt).place :=
  fits_attempt.mp (hs.fits s.attempt)

/-- One reservation changes; the phase changes with that of the attempt only. -/
theorem Sound.change (hs : s.Sound) (i : Nat) (hattempt : t.attempt = s.attempt)
    (hphase : i = s.attempt ∨ t.phase = s.phase)
    (hothers : ∀ j, j ≠ i → t.reservations j = s.reservations j)
    (hcounts : (t.reservations i).releases =
      if (t.reservations i).place = .returned then 1 else 0)
    (hunlocks : (t.reservations i).unlocks =
      if i = s.attempt ∧ t.phase = .acquired true then 1 else 0)
    (hfits : t.Fits i (t.reservations i).place) : t.Sound where
  counts := by
    intro j
    rcases eq_or_ne j i with rfl | hne
    · exact hcounts
    · rw [hothers j hne]
      exact hs.counts j
  unlocks := by
    intro j
    rw [hattempt]
    rcases eq_or_ne j i with rfl | hne
    · exact hunlocks
    · rw [hothers j hne, hs.unlocks j]
      rcases hphase with rfl | hphase
      · rw [if_neg (fun h => hne h.1), if_neg (fun h => hne h.1)]
      · rw [hphase]
  fits := by
    intro j
    rcases eq_or_ne j i with rfl | hne
    · exact hfits
    · have hold := hs.fits j
      rw [hothers j hne]
      rw [Fits] at hold ⊢
      rw [hattempt]
      rcases hphase with rfl | hphase
      · rw [if_neg hne] at hold ⊢
        exact hold
      · rw [hphase]
        exact hold

/-- The attempt's reservation is put somewhere else, the counts left as they are. -/
theorem Sound.moved (hs : s.Sound) {phase : AcquirePhase} {place : ReservationPlace}
    (hattempt : t.attempt = s.attempt) (hphase : t.phase = phase)
    (hreservations : t.reservations = (s.move s.attempt place).reservations)
    (hlive : s.phase ≠ .acquired true) (hplace : (s.reservations s.attempt).place ≠ .returned)
    (hnew : place ≠ .returned) (hphase' : phase ≠ .acquired true) (hfits : phase.Fits place) :
    t.Sound := by
  have hself : t.reservations s.attempt =
      { s.reservations s.attempt with place := place } := by
    rw [hreservations, move, put_self]
  refine hs.change s.attempt hattempt (Or.inl rfl) ?_ ?_ ?_ ?_
  · intro j hj
    rw [hreservations, move, put_of_ne _ hj]
  · have hcounts := hs.counts s.attempt
    rw [if_neg hplace] at hcounts
    rw [hself, if_neg hnew]
    exact hcounts
  · have hunlocks := hs.unlocks s.attempt
    rw [if_neg (fun h => hlive h.2)] at hunlocks
    rw [hself, hphase, if_neg (fun h => hphase' h.2)]
    exact hunlocks
  · rw [hself, ← hattempt, fits_attempt, hphase]
    exact hfits

theorem Sound.gaveBack (hs : s.Sound) (i : Nat) (hattempt : t.attempt = s.attempt)
    (hphase : i = s.attempt ∧ s.phase ≠ .acquired true ∧ t.phase ≠ .acquired true ∨
      t.phase = s.phase)
    (hreservations : t.reservations = (s.giveBack i).reservations)
    (hplace : (s.reservations i).place ≠ .returned) (hfits : t.Fits i .returned) : t.Sound := by
  have hself : t.reservations i = ⟨.returned, (s.reservations i).unlocks,
      (s.reservations i).releases + 1⟩ := by
    rw [hreservations, giveBack, put_self]
  refine hs.change i hattempt ?_ ?_ ?_ ?_ ?_
  · rcases hphase with ⟨hi, -⟩ | hphase
    · exact Or.inl hi
    · exact Or.inr hphase
  · intro j hj
    rw [hreservations, giveBack, put_of_ne _ hj]
  · have hcounts := hs.counts i
    rw [if_neg hplace] at hcounts
    rw [hself, if_pos rfl]
    show _ + 1 = 1
    rw [hcounts]
  · rw [hself]
    show (s.reservations i).unlocks = _
    rw [hs.unlocks i]
    rcases hphase with ⟨-, hold, hnew⟩ | hphase
    · rw [if_neg (fun h => hold h.2), if_neg (fun h => hnew h.2)]
    · rw [hphase]
  · rw [hself]
    exact hfits

theorem Sound.fits_of_abandoned (hs : s.Sound) {i : Nat} {place : ReservationPlace}
    (h : (s.reservations i).place = .abandoned) (hplace : place.Loose) : s.Fits i place := by
  have hold := hs.fits i
  rw [h] at hold
  rw [Fits] at hold ⊢
  by_cases hlt : i < s.attempt
  · rw [if_pos hlt]
    exact hplace
  · rw [if_neg hlt] at hold ⊢
    by_cases heq : i = s.attempt
    · rw [if_pos heq] at hold ⊢
      generalize s.phase = phase at hold ⊢
      cases phase with
      | reserving timer => cases hold
      | trying => cases hold
      | acquired released =>
        cases released with
        | false => cases hold
        | true => rcases hold with hold | hold <;> cases hold
      | sleeping wake | contended | threw => exact hplace
    · rw [if_neg heq] at hold
      cases hold

theorem Sound.of_unlocking (hs : s.Sound) {i : Nat}
    (h : (s.reservations i).place = .unlocking) :
    i = s.attempt ∧ s.phase = .acquired true := by
  have hold := hs.fits i
  rw [h, Fits] at hold
  by_cases hlt : i < s.attempt
  · rw [if_pos hlt] at hold
    rcases hold with hold | hold | hold <;> cases hold
  · rw [if_neg hlt] at hold
    by_cases heq : i = s.attempt
    · rw [if_pos heq] at hold
      refine ⟨heq, ?_⟩
      generalize s.phase = phase at hold ⊢
      cases phase with
      | reserving timer => cases hold
      | trying => cases hold
      | acquired released =>
        cases released with
        | false => cases hold
        | true => rfl
      | sleeping wake | contended | threw => rcases hold with hold | hold | hold <;> cases hold
    · rw [if_neg heq] at hold
      cases hold

/-- Neither the end of an attempt nor its pause touches the reservations. -/
theorem exhausted_reservations (s : AcquireState) : s.exhausted.reservations = s.reservations ∧
    s.exhausted.attempt = s.attempt ∧
    (s.exhausted.phase = .contended ∨ ∃ wake, s.exhausted.phase = .sleeping wake) := by
  rw [exhausted]
  split
  · exact ⟨rfl, rfl, Or.inl rfl⟩
  · exact ⟨rfl, rfl, Or.inr ⟨_, rfl⟩⟩

theorem notLocked_reservations (o : LockOptions) (s : AcquireState) :
    (s.notLocked o).reservations = s.reservations ∧ (s.notLocked o).attempt = s.attempt ∧
    ((s.notLocked o).phase = .contended ∨ ∃ wake, (s.notLocked o).phase = .sleeping wake) := by
  rw [notLocked]
  split
  · exact ⟨rfl, rfl, Or.inl rfl⟩
  · exact ⟨rfl, rfl, Or.inr ⟨_, rfl⟩⟩

/-- A phase between two attempts, or after the last one without a lock. -/
theorem fits_loose {phase : AcquirePhase} {place : ReservationPlace} (hplace : place.Loose)
    (hphase : phase = .contended ∨ ∃ wake, phase = .sleeping wake) :
    phase.Fits place ∧ phase ≠ .acquired true := by
  rcases hphase with rfl | ⟨wake, rfl⟩
  · exact ⟨hplace, AcquirePhase.noConfusion⟩
  · exact ⟨hplace, AcquirePhase.noConfusion⟩

theorem Sound.reserved (hs : s.Sound)
    (hloose : (s.reservations s.attempt).place.Loose) (hphase : s.phase ≠ .acquired true) :
    (s.reserveBounded o (s.attempt + 1)).Sound := by
  have hnext : s.Fits (s.attempt + 1) (s.reservations (s.attempt + 1)).place := hs.fits _
  rw [Fits, if_neg (by omega), if_neg (by omega)] at hnext
  have hnone : ∀ i, (s.reservations i).unlocks = 0 := by
    intro i
    rw [hs.unlocks i, if_neg (fun h => hphase h.2)]
  have hself : (s.reserveBounded o (s.attempt + 1)).reservations (s.attempt + 1) =
      { s.reservations (s.attempt + 1) with place := .queued } := put_self _ _
  have hothers : ∀ j, j ≠ s.attempt + 1 →
      (s.reserveBounded o (s.attempt + 1)).reservations j = s.reservations j :=
    fun j hj => put_of_ne _ hj
  constructor
  case counts =>
    intro j
    rcases eq_or_ne j (s.attempt + 1) with rfl | hne
    · have hcounts := hs.counts (s.attempt + 1)
      rw [hnext] at hcounts
      rw [hself]
      exact hcounts
    · rw [hothers j hne]
      exact hs.counts j
  case unlocks =>
    intro j
    rw [if_neg (fun h => AcquirePhase.noConfusion h.2)]
    rcases eq_or_ne j (s.attempt + 1) with rfl | hne
    · rw [hself]
      exact hnone _
    · rw [hothers j hne]
      exact hnone j
  case fits =>
    intro j
    show if j < s.attempt + 1 then _ else if j = s.attempt + 1 then _ else _
    rcases eq_or_ne j (s.attempt + 1) with rfl | hne
    · rw [if_neg (Nat.lt_irrefl _), if_pos rfl, hself]
      rfl
    · have hold := hs.fits j
      rw [if_neg hne, hothers j hne]
      rw [Fits] at hold
      by_cases hlt : j < s.attempt
      · rw [if_pos hlt] at hold
        rw [if_pos (by omega)]
        exact hold
      · by_cases heq : j = s.attempt
        · rw [if_pos (by omega), heq]
          exact hloose
        · rw [if_neg hlt, if_neg heq] at hold
          rw [if_neg (by omega)]
          exact hold

theorem Sound.step {e : LockEvent} (hs : s.Sound) (h : LockStep o s e t) : t.Sound := by
  have hcurrent := hs.current
  cases h with
  | tick now hclock => exact ⟨hs.counts, hs.unlocks, hs.fits⟩
  | reserved timer h =>
    rw [h] at hcurrent
    have hplace : (s.reservations s.attempt).place = .queued := hcurrent
    refine hs.moved rfl rfl rfl ?_ ?_ ?_ ?_ rfl
    · rw [h]
      exact AcquirePhase.noConfusion
    · rw [hplace]
      decide
    · decide
    · exact AcquirePhase.noConfusion
  | reserveFailed timer h =>
    rw [h] at hcurrent
    have hplace : (s.reservations s.attempt).place = .queued := hcurrent
    refine hs.moved rfl rfl rfl ?_ ?_ ?_ ?_ (Or.inr (Or.inl rfl))
    · rw [h]
      exact AcquirePhase.noConfusion
    · rw [hplace]
      decide
    · decide
    · exact AcquirePhase.noConfusion
  | timedOut timer h htimer =>
    rw [h] at hcurrent
    have hplace : (s.reservations s.attempt).place = .queued := hcurrent
    obtain ⟨hreservations, hattempt, hphase⟩ :=
      exhausted_reservations (s.move s.attempt .abandoned)
    have habandoned : ReservationPlace.abandoned.Loose := Or.inl rfl
    obtain ⟨hfits, hne⟩ := fits_loose habandoned hphase
    refine hs.moved hattempt rfl hreservations ?_ ?_ ?_ hne hfits
    · rw [h]
      exact AcquirePhase.noConfusion
    · rw [hplace]
      decide
    · decide
  | late i h =>
    refine hs.gaveBack i rfl (Or.inr rfl) rfl ?_ ?_
    · rw [h]
      decide
    · exact hs.fits_of_abandoned h (Or.inr (Or.inr rfl))
  | lateFailed i h =>
    have hself : (s.move i .failed).reservations i =
        { s.reservations i with place := .failed } := put_self _ _
    refine hs.change i rfl (Or.inr rfl) (fun j hj => put_of_ne _ hj) ?_ ?_ ?_
    · have hcounts := hs.counts i
      rw [h] at hcounts
      rw [hself]
      exact hcounts
    · rw [hself]
      exact hs.unlocks i
    · rw [hself]
      exact hs.fits_of_abandoned h (Or.inr (Or.inl rfl))
  | locked h =>
    rw [h] at hcurrent
    have hplace : (s.reservations s.attempt).place = .held := hcurrent
    refine hs.moved rfl rfl rfl ?_ ?_ ?_ ?_ rfl
    · rw [h]
      exact AcquirePhase.noConfusion
    · rw [hplace]
      decide
    · decide
    · intro hphase
      cases hphase
  | notLocked h =>
    rw [h] at hcurrent
    have hplace : (s.reservations s.attempt).place = .held := hcurrent
    obtain ⟨hreservations, hattempt, hphase⟩ := notLocked_reservations o (s.giveBack s.attempt)
    have hreturned : ReservationPlace.returned.Loose := Or.inr (Or.inr rfl)
    obtain ⟨hfits, hne⟩ := fits_loose hreturned hphase
    refine hs.gaveBack s.attempt hattempt (Or.inl ⟨rfl, ?_, hne⟩) hreservations ?_ ?_
    · rw [h]
      exact AcquirePhase.noConfusion
    · rw [hplace]
      decide
    · exact fits_of_attempt hattempt hfits
  | queryThrew h =>
    rw [h] at hcurrent
    have hplace : (s.reservations s.attempt).place = .held := hcurrent
    refine hs.gaveBack s.attempt rfl (Or.inl ⟨rfl, ?_, AcquirePhase.noConfusion⟩) rfl ?_ ?_
    · rw [h]
      exact AcquirePhase.noConfusion
    · rw [hplace]
      decide
    · exact fits_attempt.mpr (Or.inr (Or.inr rfl))
  | woke wake h hwake =>
    rw [h] at hcurrent
    refine hs.reserved hcurrent ?_
    rw [h]
    exact AcquirePhase.noConfusion
  | released h =>
    rw [h] at hcurrent
    have hplace : (s.reservations s.attempt).place = .owned := hcurrent
    have hself : s.release.reservations s.attempt = ⟨.unlocking,
        (s.reservations s.attempt).unlocks + 1, (s.reservations s.attempt).releases⟩ :=
      put_self _ _
    refine hs.change s.attempt rfl (Or.inl rfl) (fun j hj => put_of_ne _ hj) ?_ ?_ ?_
    · have hcounts := hs.counts s.attempt
      rw [hplace] at hcounts
      rw [hself]
      exact hcounts
    · have hunlocks := hs.unlocks s.attempt
      rw [h, if_neg (fun hand => by cases hand.2)] at hunlocks
      rw [hself, if_pos ⟨rfl, rfl⟩, hunlocks]
    · rw [hself]
      exact fits_attempt.mpr (Or.inl rfl)
  | releasedAgain h => exact hs
  | unlocked i h =>
    obtain ⟨rfl, hphase⟩ := hs.of_unlocking h
    refine hs.gaveBack s.attempt rfl (Or.inr rfl) rfl ?_ ?_
    · rw [h]
      decide
    · refine fits_of_attempt rfl ?_
      show s.phase.Fits _
      rw [hphase]
      exact Or.inr rfl

theorem Sound.accounted (hs : s.Sound) : ReservationsAccounted s where
  once := by
    intro i
    rw [hs.counts i]
    split
    · exact Nat.le_refl 1
    · exact Nat.zero_le 1
  settled := by
    intro hsettled i harrived
    have hcounts := hs.counts i
    have hfits := hs.fits i
    rcases harrived with h | h | h | h
    · -- a call that is over holds nothing
      rw [h, Fits] at hfits
      split at hfits
      · rcases hfits with hfits | hfits | hfits <;> cases hfits
      · split at hfits
        · rcases hsettled with hphase | hphase | ⟨released, hphase⟩
          · rw [hphase] at hfits
            rcases hfits with hfits | hfits | hfits <;> cases hfits
          · rw [hphase] at hfits
            rcases hfits with hfits | hfits | hfits <;> cases hfits
          · rw [hphase] at hfits
            cases released with
            | false => cases hfits
            | true => rcases hfits with hfits | hfits <;> cases hfits
        · cases hfits
    · rw [h] at hcounts
      exact Or.inr ⟨Or.inl h, hcounts⟩
    · rw [h] at hcounts
      exact Or.inr ⟨Or.inr h, hcounts⟩
    · rw [h] at hcounts
      exact Or.inl ⟨h, hcounts⟩
  owner := by
    intro i howned
    rcases howned with h | h
    · have hfits := hs.fits i
      rw [h, Fits] at hfits
      split at hfits
      · rcases hfits with hfits | hfits | hfits <;> cases hfits
      · split at hfits
        · next heq =>
          refine ⟨heq, ?_⟩
          generalize s.phase = phase at hfits ⊢
          cases phase with
          | reserving timer => cases hfits
          | trying => cases hfits
          | acquired released => exact ⟨released, rfl⟩
          | sleeping wake | contended | threw =>
            rcases hfits with hfits | hfits | hfits <;> cases hfits
        · cases hfits
    · obtain ⟨heq, hphase⟩ := hs.of_unlocking h
      exact ⟨heq, true, hphase⟩
  unreleased := by
    intro hphase
    have hcurrent := hs.current
    have hunlocks := hs.unlocks s.attempt
    rw [hphase] at hcurrent hunlocks
    rw [if_neg (fun hand => by cases hand.2)] at hunlocks
    exact ⟨hcurrent, hunlocks⟩
  released := by
    intro hphase
    have hcurrent := hs.current
    have hunlocks := hs.unlocks s.attempt
    have hcounts := hs.counts s.attempt
    rw [hphase] at hcurrent
    rw [if_pos ⟨rfl, hphase⟩] at hunlocks
    refine ⟨hunlocks, hcurrent.imp_right fun h => ⟨h, ?_⟩⟩
    rw [h] at hcounts
    exact hcounts

end AcquireState

/-! ## The end of a call -/

/-- How many phases are ahead of a call whose deadline is over. -/
def AcquirePhase.ahead : AcquirePhase → Nat
  | .sleeping _ => 3
  | .reserving _ => 2
  | .trying => 1
  | _ => 0

namespace LockStep

variable {o : LockOptions} {s t : AcquireState} {e : LockEvent}

theorem time (h : LockStep o s e t) : s.now ≤ t.now ∧ t.deadline = s.deadline := by
  cases h with
  | tick now hclock => exact ⟨hclock, rfl⟩
  | timedOut timer h htimer =>
    rw [AcquireState.exhausted]
    split
    · exact ⟨Nat.le_refl _, rfl⟩
    · exact ⟨Nat.le_refl _, rfl⟩
  | notLocked h =>
    rw [AcquireState.notLocked]
    split
    · exact ⟨Nat.le_refl _, rfl⟩
    · exact ⟨Nat.le_refl _, rfl⟩
  | _ => exact ⟨Nat.le_refl _, rfl⟩

/-- Only the call itself changes its phase before it is over. -/
theorem phase_eq (h : LockStep o s e t) (he : e.ofCall = false) (hs : ¬ s.Settled) :
    t.phase = s.phase := by
  cases h with
  | tick | late | lateFailed | unlocked | releasedAgain => rfl
  | released h => exact absurd (Or.inr (Or.inr ⟨false, h⟩)) hs
  | reserved | reserveFailed | timedOut | locked | notLocked | queryThrew | woke => cases he

theorem ahead (h : LockStep o s e t) (hover : s.deadline ≤ s.now) :
    t.phase.ahead ≤ s.phase.ahead ∧ (e.ofCall = true → t.phase.ahead < s.phase.ahead) := by
  have hless : t.phase.ahead < s.phase.ahead → t.phase.ahead ≤ s.phase.ahead ∧
      (e.ofCall = true → t.phase.ahead < s.phase.ahead) :=
    fun hlt => ⟨Nat.le_of_lt hlt, fun _ => hlt⟩
  cases h with
  | tick | late | lateFailed | unlocked | releasedAgain => exact ⟨Nat.le_refl _, Bool.noConfusion⟩
  | released h => exact ⟨Nat.zero_le _, Bool.noConfusion⟩
  | reserved timer h =>
    refine hless ?_
    rw [h]
    exact Nat.lt_succ_self 1
  | reserveFailed timer h =>
    refine hless ?_
    rw [h]
    exact Nat.zero_lt_succ 1
  | timedOut timer h htimer =>
    refine hless ?_
    have hover' : (s.move s.attempt .abandoned).deadline ≤
        (s.move s.attempt .abandoned).now := hover
    rw [AcquireState.exhausted, if_pos hover', h]
    exact Nat.zero_lt_succ 1
  | locked h =>
    refine hless ?_
    rw [h]
    exact Nat.zero_lt_succ 0
  | notLocked h =>
    refine hless ?_
    have hover' : (s.giveBack s.attempt).deadline ≤ (s.giveBack s.attempt).now := hover
    rw [AcquireState.notLocked, if_pos hover', h]
    exact Nat.zero_lt_succ 0
  | queryThrew h =>
    refine hless ?_
    rw [h]
    exact Nat.zero_lt_succ 0
  | woke wake h hwake =>
    refine hless ?_
    rw [h]
    exact Nat.lt_succ_self 2

end LockStep

section

variable {o : LockOptions} {ρ : Endless (LockStep o)}

theorem now_mono {n m : Nat} (hle : n ≤ m) : (ρ.state n).now ≤ (ρ.state m).now :=
  ρ.stays (P := fun s => (ρ.state n).now ≤ s.now)
    (fun k hk => Nat.le_trans hk (ρ.step k).time.1) hle (Nat.le_refl _)

theorem CallGoesOn.next (h : CallGoesOn ρ) {n : Nat} (hn : ¬ (ρ.state n).Settled) :
    ∃ m, n ≤ m ∧ (ρ.event m).ofCall = true := by
  by_contra hnone
  have hquiet : ∀ m, n ≤ m → (ρ.event m).ofCall = false := by
    intro m hm
    cases he : (ρ.event m).ofCall with
    | false => rfl
    | true => exact absurd ⟨m, hm, he⟩ hnone
  have hphase : ∀ m, n ≤ m → (ρ.state m).phase = (ρ.state n).phase := by
    intro m hm
    induction hm with
    | refl => rfl
    | @step m hm ih =>
      have hsettled : ¬ (ρ.state m).Settled := by
        rw [AcquireState.Settled, ih]
        exact hn
      rw [(ρ.step m).phase_eq (hquiet m hm) hsettled, ih]
  -- its timer is over sometime
  have hready : ∃ m, n ≤ m ∧ (ρ.state m).Ready := by
    cases hcase : (ρ.state n).phase with
    | trying => exact ⟨n, Nat.le_refl n, Or.inl hcase⟩
    | reserving timer =>
      obtain ⟨k, hk⟩ := h.time timer
      refine ⟨max n k, Nat.le_max_left n k, Or.inr (Or.inl ⟨timer, ?_, ?_⟩)⟩
      · rw [hphase _ (Nat.le_max_left n k), hcase]
      · exact Nat.le_trans hk (now_mono (Nat.le_max_right n k))
    | sleeping wake =>
      obtain ⟨k, hk⟩ := h.time wake
      refine ⟨max n k, Nat.le_max_left n k, Or.inr (Or.inr ⟨wake, ?_, ?_⟩)⟩
      · rw [hphase _ (Nat.le_max_left n k), hcase]
      · exact Nat.le_trans hk (now_mono (Nat.le_max_right n k))
    | contended => exact absurd (Or.inl hcase) hn
    | threw => exact absurd (Or.inr (Or.inl hcase)) hn
    | acquired released => exact absurd (Or.inr (Or.inr ⟨released, hcase⟩)) hn
  obtain ⟨m, hm, hready⟩ := hready
  obtain ⟨m', hm', hturn⟩ := h.turn m hready
  exact hnone ⟨m', Nat.le_trans hm hm', hturn⟩

theorem CallGoesOn.settles (h : CallGoesOn ρ) : ∃ n, (ρ.state n).Settled := by
  obtain ⟨start, hstart⟩ := h.time (ρ.state 0).deadline
  have hdeadline : ∀ n, (ρ.state n).deadline = (ρ.state 0).deadline :=
    fun n => ρ.stays (P := fun s => s.deadline = (ρ.state 0).deadline)
      (fun k hk => (ρ.step k).time.2.trans hk) (Nat.zero_le n) rfl
  have hover : ∀ n, start ≤ n → (ρ.state n).deadline ≤ (ρ.state n).now := by
    intro n hn
    rw [hdeadline n]
    exact Nat.le_trans hstart (now_mono hn)
  obtain ⟨n, -, hn⟩ := ρ.reaches (f := fun s => s.phase.ahead) (P := AcquireState.Settled) start
    (fun n hn => ((ρ.step n).ahead (hover n hn)).1) fun n hn hsettled => by
      obtain ⟨m, hm, hcall⟩ := h.next hsettled
      exact ⟨m, hm, ((ρ.step m).ahead (hover m (Nat.le_trans hn hm))).2 hcall⟩
  exact ⟨n, hn⟩

end

end InvisibleString.Runtime
