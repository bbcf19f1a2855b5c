import InvisibleString.Tailer.Tail

/- # `Tailer.Verdict` — the classifier's latches as a fold over the stream

What the reader of a live run makes of a stream on which it is alone: an opening whose
correlator is the run's own starts the per-turn latches over, every other event drives
them, and the first session boundary is the verdict.  An opening is decided by the event
behind it, so the fold looks one event ahead (`opensOwn`).

A tail that is resumed behind the first `k` events folds over the rest from latches that
are down again (`Latches.resumed`).

**Proved here.**

    the latches after `n` events, by the stretch since the last own opening  (`Latches.after_of_own`)
    resumed verdict = uninterrupted verdict  ⟺  the stretch before the death
      holds nothing the boundary still reads  (`verdict_resumed_iff`)
-/

namespace InvisibleString.Tailer

/-- The digest of the message behind an opening of `turnId`; `none` for a content-less
turn. -/
def openingContent (turnId : TurnId) : EveEvent → Option MessageHash
  | .messageReceived turnId' message =>
    if turnId' = turnId then some (hashTurnMessage message) else none
  | _ => none

/-- The stretch starts with a decided opening that carries the correlator `hash`. -/
def opensOwn (hash : Option MessageHash) : List EveEvent → Bool
  | .turnStarted turnId :: next :: _ => openingContent turnId next == hash
  | _ => false

def EveEvent.isTurnCancelled : EveEvent → Bool
  | .turnCancelled _ => true
  | _ => false

/-- A reply: `message.completed` with `finishReason: "stop"` and a text. -/
def EveEvent.reply? : EveEvent → Option String
  | .messageCompleted finishReason (some message) =>
    if finishReason = "stop" then some message else none
  | _ => none

/-- The observations a session boundary is classified with, and the reply recorded so
far. -/
structure Latches where
  sawOwnTurn : Bool
  pendingInput : Bool
  pendingAuthorization : Bool
  canceledTurn : Bool
  lastAssistantMessage : Option String
  deriving DecidableEq, Repr

def TailMem.latches (m : TailMem) : Latches :=
  ⟨m.sawOwnTurn, m.pendingInput, m.pendingAuthorization, m.canceledTurn, m.lastAssistantMessage⟩

namespace Latches

/-- The latches of a tail that starts to read: only the own turn may be known. -/
def resumed (sawOwnTurn : Bool) : Latches := ⟨sawOwnTurn, false, false, false, none⟩

/-- The own turn opens. -/
def openOwn (x : Latches) : Latches := ⟨true, false, false, false, x.lastAssistantMessage⟩

/-- An event is persisted. -/
def see (x : Latches) (e : EveEvent) : Latches where
  sawOwnTurn := x.sawOwnTurn
  pendingInput := nextPendingInputRequest x.pendingInput e
  pendingAuthorization := nextPendingAuthorization x.pendingAuthorization e
  canceledTurn := x.canceledTurn || (x.sawOwnTurn && e.isTurnCancelled)
  lastAssistantMessage := if x.sawOwnTurn then e.reply?.or x.lastAssistantMessage
    else x.lastAssistantMessage

/-- The first event of the stretch, read. -/
def step (hash : Option MessageHash) (x : Latches) (es : List EveEvent) (e : EveEvent) :
    Latches :=
  (if opensOwn hash es then x.openOwn else x).see e

/-- The latches after the first `n` events. -/
def after (hash : Option MessageHash) (x : Latches) : Nat → List EveEvent → Latches
  | 0, _ => x
  | _ + 1, [] => x
  | n + 1, e :: rest => after hash (x.step hash (e :: rest) e) n rest

/-- What the boundary `e` says under these latches. -/
def classify (x : Latches) (e : EveEvent) : Option TerminalDecision :=
  if x.sawOwnTurn || e.isSessionFailed then
    classifyTerminal e ⟨x.pendingInput, x.pendingAuthorization, x.canceledTurn⟩
  else none

/-- The run's status and its recorded output. -/
def verdict (x : Latches) (e : EveEvent) : Option (RunStatus × Option String) :=
  (x.classify e).map fun d => (d.runStatus, x.lastAssistantMessage)

end Latches

/-! ## Stretches -/

section

variable (hash : Option MessageHash)

/-- Of the first `n` events those behind the last own opening; `none` without one. -/
def sinceOwn : Nat → List EveEvent → Option (List EveEvent)
  | 0, _ => none
  | _ + 1, [] => none
  | n + 1, e :: rest =>
    (sinceOwn n rest).or (if opensOwn hash (e :: rest) then some (rest.take n) else none)

/-- Of the first `n` events those behind the first own opening. -/
def ownEvents : Nat → List EveEvent → List EveEvent
  | 0, _ => []
  | _ + 1, [] => []
  | n + 1, e :: rest => if opensOwn hash (e :: rest) then rest.take n else ownEvents n rest

end

/-- The last reply of a stretch. -/
def lastReply : List EveEvent → Option String
  | [] => none
  | e :: es => (lastReply es).or e.reply?

theorem lastReply_isSome (es : List EveEvent) :
    (lastReply es).isSome = es.any (·.reply?.isSome) := by
  induction es with
  | nil => rfl
  | cons e es ih => rw [lastReply, Option.isSome_or, ih, List.any_cons, Bool.or_comm]

variable {hash : Option MessageHash}

theorem Latches.after_add (x : Latches) (k n : Nat) (es : List EveEvent) :
    x.after hash (k + n) es = (x.after hash k es).after hash n (es.drop k) := by
  induction k generalizing x es with
  | zero => rw [Nat.zero_add, List.drop_zero]; rfl
  | succ k ih =>
    cases es with
    | nil => cases n <;> rfl
    | cons e rest =>
      rw [Nat.succ_add, List.drop_succ_cons]
      exact ih _ rest

/-- The latches after one more event. -/
theorem Latches.after_succ (x : Latches) {n : Nat} {es : List EveEvent} {e : EveEvent}
    (he : es[n]? = some e) :
    x.after hash (n + 1) es = (x.after hash n es).step hash (es.drop n) e := by
  rw [Latches.after_add]
  obtain ⟨hn, rfl⟩ := List.getElem?_eq_some_iff.mp he
  rw [List.drop_eq_getElem_cons hn]
  rfl

theorem opensOwn_turnStarted {e : EveEvent} {rest : List EveEvent}
    (h : opensOwn hash (e :: rest) = true) : ∃ turnId, e = .turnStarted turnId := by
  cases e with
  | turnStarted turnId => exact ⟨turnId, rfl⟩
  | _ => cases h

theorem Latches.see_turnStarted (x : Latches) (turnId : TurnId) :
    x.see (.turnStarted turnId) = x := by
  cases x with
  | mk s i a c l =>
    simp [Latches.see, nextPendingInputRequest, nextPendingAuthorization,
      EveEvent.isTurnCancelled, EveEvent.reply?]

theorem Latches.after_of_no_own {n : Nat} {es : List EveEvent} (x : Latches)
    (h : sinceOwn hash n es = none) :
    (x.after hash n es).sawOwnTurn = x.sawOwnTurn ∧
      (x.after hash n es).pendingInput =
        (es.take n).foldl nextPendingInputRequest x.pendingInput ∧
      (x.after hash n es).pendingAuthorization =
        (es.take n).foldl nextPendingAuthorization x.pendingAuthorization ∧
      (x.after hash n es).canceledTurn =
        (x.canceledTurn || (x.sawOwnTurn && (es.take n).any EveEvent.isTurnCancelled)) := by
  induction n generalizing x es with
  | zero => simp [Latches.after]
  | succ n ih =>
    cases es with
    | nil => simp [Latches.after]
    | cons e rest =>
      rw [sinceOwn, Option.or_eq_none_iff] at h
      obtain ⟨hrest, hhead⟩ := h
      have hno : opensOwn hash (e :: rest) = false := by
        by_contra hne
        rw [Bool.not_eq_false] at hne
        rw [if_pos hne] at hhead
        cases hhead
      obtain ⟨h1, h2, h3, h4⟩ := ih (x.step hash (e :: rest) e) hrest
      have hstep : x.step hash (e :: rest) e = x.see e := by
        rw [Latches.step, hno]
        rfl
      rw [Latches.after, h1, h2, h3, h4, hstep, List.take_succ_cons]
      refine ⟨rfl, rfl, rfl, ?_⟩
      simp only [Latches.see, List.any_cons]
      cases x.canceledTurn <;> cases x.sawOwnTurn <;> simp

/-- The latches after `n` events, by the stretch since the last own opening. -/
theorem Latches.after_of_own {n : Nat} {es own : List EveEvent} (x : Latches)
    (h : sinceOwn hash n es = some own) :
    (x.after hash n es).sawOwnTurn = true ∧
      (x.after hash n es).pendingInput = leavesInput own ∧
      (x.after hash n es).pendingAuthorization = leavesAuthorization own ∧
      (x.after hash n es).canceledTurn = own.any EveEvent.isTurnCancelled := by
  induction n generalizing x es with
  | zero => cases h
  | succ n ih =>
    cases es with
    | nil => cases h
    | cons e rest =>
      rw [sinceOwn] at h
      rw [Latches.after]
      cases hrest : sinceOwn hash n rest with
      | some own' =>
        rw [hrest, Option.some_or, Option.some.injEq] at h
        exact ih _ (h ▸ hrest)
      | none =>
        rw [hrest, Option.none_or] at h
        split at h
        · -- the last own opening: from here on the latches are the stretch's own
          rename_i hopen
          cases h
          obtain ⟨turnId, rfl⟩ := opensOwn_turnStarted hopen
          obtain ⟨h1, h2, h3, h4⟩ := Latches.after_of_no_own
            (x.step hash (.turnStarted turnId :: rest) (.turnStarted turnId)) hrest
          rw [Latches.step, if_pos hopen, Latches.see_turnStarted] at h1 h2 h3 h4
          rw [Latches.step, if_pos hopen, Latches.see_turnStarted]
          refine ⟨h1, ?_, ?_, ?_⟩
          · rw [h2, foldl_nextPendingInput]
            simp [Latches.openOwn]
          · rw [h3, foldl_nextPendingAuthorization]
            simp [Latches.openOwn]
          · rw [h4]
            simp [Latches.openOwn]
        · cases h

theorem Latches.after_lastAssistantMessage (x : Latches) (n : Nat) (es : List EveEvent) :
    (x.after hash n es).lastAssistantMessage =
      (lastReply (if x.sawOwnTurn then es.take n else ownEvents hash n es)).or
        x.lastAssistantMessage := by
  induction n generalizing x es with
  | zero => cases h : x.sawOwnTurn <;> simp [Latches.after, ownEvents, lastReply]
  | succ n ih =>
    cases es with
    | nil => cases h : x.sawOwnTurn <;> simp [Latches.after, ownEvents, lastReply]
    | cons e rest =>
      rw [Latches.after, ih, ownEvents, List.take_succ_cons]
      by_cases hopen : opensOwn hash (e :: rest) = true
      · obtain ⟨turnId, rfl⟩ := opensOwn_turnStarted hopen
        rw [Latches.step, if_pos hopen, Latches.see_turnStarted, if_pos hopen]
        cases h : x.sawOwnTurn <;> simp [Latches.openOwn, lastReply, EveEvent.reply?]
      · rw [Latches.step, if_neg hopen, if_neg hopen]
        cases h : x.sawOwnTurn <;> simp [Latches.see, h, lastReply, Option.or_assoc]

theorem sinceOwn_isSome_iff {n : Nat} {es : List EveEvent} :
    (sinceOwn hash n es).isSome = true ↔ ∃ i < n, opensOwn hash (es.drop i) = true := by
  induction n generalizing es with
  | zero => simp [sinceOwn]
  | succ n ih =>
    cases es with
    | nil => simp [sinceOwn, opensOwn]
    | cons e rest =>
      rw [sinceOwn, Option.isSome_or, Bool.or_eq_true, ih]
      constructor
      · rintro (⟨i, hi, hopen⟩ | hopen)
        · exact ⟨i + 1, by omega, hopen⟩
        · refine ⟨0, Nat.zero_lt_succ n, ?_⟩
          by_contra hne
          rw [List.drop_zero] at hne
          rw [if_neg hne] at hopen
          cases hopen
      · rintro ⟨i, hi, hopen⟩
        cases i with
        | zero =>
          right
          rw [List.drop_zero] at hopen
          rw [if_pos hopen]
          rfl
        | succ i => exact Or.inl ⟨i, by omega, hopen⟩

theorem ownEvents_of_no_own {n : Nat} {es : List EveEvent} (h : sinceOwn hash n es = none) :
    ownEvents hash n es = [] := by
  induction n generalizing es with
  | zero => rfl
  | succ n ih =>
    cases es with
    | nil => rfl
    | cons e rest =>
      rw [sinceOwn, Option.or_eq_none_iff] at h
      rw [ownEvents, ih h.1]
      split
      · rename_i hopen
        rw [if_pos hopen] at h
        cases h.2
      · rfl

theorem Latches.after_sawOwnTurn (x : Latches) (n : Nat) (es : List EveEvent) :
    (x.after hash n es).sawOwnTurn = (x.sawOwnTurn || (sinceOwn hash n es).isSome) := by
  cases h : sinceOwn hash n es with
  | none => rw [(x.after_of_no_own h).1]; simp
  | some own => rw [(x.after_of_own h).1]; simp

/-- At an own opening it does not matter whether the own turn was known before. -/
theorem Latches.after_resumed_of_opens {es : List EveEvent} (h : opensOwn hash es = true)
    (b b' : Bool) (n : Nat) :
    (resumed b).after hash (n + 1) es = (resumed b').after hash (n + 1) es := by
  cases es with
  | nil => cases h
  | cons e rest =>
    rw [Latches.after, Latches.after, Latches.step, Latches.step, if_pos h, if_pos h]
    rfl

/-! ## The verdict of a resumed tail -/

/-- The status a `session.waiting` gives. -/
def Latches.waitingStatus (x : Latches) : RunStatus :=
  if x.canceledTurn then .canceled
  else if x.pendingInput || x.pendingAuthorization then .waiting
  else .succeeded

theorem Latches.verdict_eq_iff {x y : Latches} {b : EveEvent} {v : RunStatus × Option String}
    (hsaw : x.sawOwnTurn = y.sawOwnTurn) (hx : x.verdict b = some v) :
    y.verdict b = some v ↔ y.lastAssistantMessage = x.lastAssistantMessage ∧
      (b = .sessionWaiting → y.waitingStatus = x.waitingStatus) := by
  unfold Latches.verdict Latches.classify at hx ⊢
  rw [← hsaw]
  split at hx
  · rename_i hseen
    rw [if_pos hseen]
    cases b <;> simp only [classifyTerminal, Option.map_none, reduceCtorEq] at hx
    case sessionWaiting =>
      simp only [Latches.waitingStatus, classifyTerminal]
      cases hc : x.canceledTurn <;> cases hp : (x.pendingInput || x.pendingAuthorization) <;>
        cases hc' : y.canceledTurn <;>
        cases hp' : (y.pendingInput || y.pendingAuthorization) <;>
        simp_all <;> subst hx <;> simp [eq_comm]
    all_goals
      simp only [Option.map_some, Option.some.injEq] at hx
      subst hx
      simp [classifyTerminal]
  · cases hx

theorem Latches.waitingStatus_congr {x y : Latches} (hi : x.pendingInput = y.pendingInput)
    (ha : x.pendingAuthorization = y.pendingAuthorization)
    (hc : x.canceledTurn = y.canceledTurn) : x.waitingStatus = y.waitingStatus := by
  rw [Latches.waitingStatus, Latches.waitingStatus, hi, ha, hc]

/-- Every request `own` leaves open is raised again or settled in `later`. -/
def Settles (own later : List EveEvent) : Prop :=
  (leavesInput own = true → later.any EveEvent.touchesInput = true) ∧
    (leavesAuthorization own = true → later.any EveEvent.touchesAuthorization = true)

/-- A `session.waiting` at the end of `later` means the same with `own` before it and
without. -/
def WaitsAlike (own later : List EveEvent) : Prop :=
  later.any EveEvent.isTurnCancelled = true ∨
    (own.any EveEvent.isTurnCancelled = false ∧
      (leavesInput later = true ∨ leavesAuthorization later = true ∨ Settles own later))

/-- The process died behind the first `k` events, and nothing among them that the boundary
still reads is lost: the boundary is not among them; a reply among them is followed by
another; and a `session.waiting` means the same behind the rest alone, unless the rest
opens the own turn. -/
def ResumesAlike (hash : Option MessageHash) (events : List EveEvent) (k : Nat) : Prop :=
  k < events.length ∧ ∀ own, sinceOwn hash k events = some own →
    ((ownEvents hash k events).any (·.reply?.isSome) = true →
      (events.drop k).any (·.reply?.isSome) = true) ∧
    (events.getLast? = some .sessionWaiting →
      sinceOwn hash (events.length - k) (events.drop k) = none →
        WaitsAlike own (events.drop k))

/-- Without another own opening a `session.waiting` behind `later` reads the latches the
stretch `own` left. -/
theorem waitingStatus_after_iff {x : Latches} {n : Nat} {own later : List EveEvent}
    (hno : sinceOwn hash n later = none) (hlen : later.length ≤ n) (hsaw : x.sawOwnTurn = true)
    (hi : x.pendingInput = leavesInput own)
    (ha : x.pendingAuthorization = leavesAuthorization own)
    (hc : x.canceledTurn = own.any EveEvent.isTurnCancelled) :
    ((Latches.resumed true).after hash n later).waitingStatus =
      (x.after hash n later).waitingStatus ↔ WaitsAlike own later := by
  obtain ⟨-, hyi, hya, hyc⟩ := (Latches.resumed true).after_of_no_own hno
  obtain ⟨-, hxi, hxa, hxc⟩ := x.after_of_no_own hno
  rw [List.take_of_length_le hlen] at hyi hya hyc hxi hxa hxc
  rw [foldl_nextPendingInput] at hyi hxi
  rw [foldl_nextPendingAuthorization] at hya hxa
  unfold Latches.waitingStatus WaitsAlike Settles
  rw [hyi, hya, hyc, hxi, hxa, hxc, hsaw, hi, ha, hc]
  simp only [Latches.resumed]
  cases later.any EveEvent.isTurnCancelled <;> cases own.any EveEvent.isTurnCancelled <;>
    cases leavesInput later <;> cases leavesAuthorization later <;>
    cases leavesInput own <;> cases leavesAuthorization own <;>
    cases later.any EveEvent.touchesInput <;> cases later.any EveEvent.touchesAuthorization <;>
    decide

theorem or_lastReply_iff {own later : List EveEvent} :
    (lastReply later).or none = (lastReply later).or (lastReply own) ↔
      (own.any (·.reply?.isSome) = true → later.any (·.reply?.isSome) = true) := by
  rw [← lastReply_isSome, ← lastReply_isSome]
  cases lastReply later <;> cases lastReply own <;> simp

/-- The verdict of the tail that was resumed behind the first `k` events is the verdict of
the tail that read them all iff `ResumesAlike`. -/
theorem verdict_resumed_iff (hash : Option MessageHash) {events : List EveEvent} {b : EveEvent} {k : Nat}
    {v : RunStatus × Option String} (hk : k < events.length)
    (hb : events.getLast? = some b)
    (hv : ((Latches.resumed false).after hash events.length events).verdict b = some v) :
    ((Latches.resumed (sinceOwn hash k events).isSome).after hash (events.length - k)
      (events.drop k)).verdict b = some v ↔ ResumesAlike hash events k := by
  have hsplit : events.length = k + (events.length - k) := by omega
  have hlen : (events.drop k).length ≤ events.length - k := (List.length_drop ..).le
  rw [hsplit, Latches.after_add] at hv
  unfold ResumesAlike
  rw [hb]
  simp only [hk, true_and]
  generalize events.length - k = n at *
  generalize events.drop k = later at *
  generalize hxk : (Latches.resumed false).after hash k events = xk at *
  have hsawk : xk.sawOwnTurn = (sinceOwn hash k events).isSome := by
    rw [← hxk, Latches.after_sawOwnTurn]
    rfl
  have hlastk : xk.lastAssistantMessage = lastReply (ownEvents hash k events) := by
    rw [← hxk, Latches.after_lastAssistantMessage]
    simp [Latches.resumed]
  have hsaw : (xk.after hash n later).sawOwnTurn =
      ((Latches.resumed (sinceOwn hash k events).isSome).after hash n later).sawOwnTurn := by
    rw [Latches.after_sawOwnTurn, Latches.after_sawOwnTurn, hsawk]
    rfl
  rw [Latches.verdict_eq_iff hsaw hv, Latches.after_lastAssistantMessage,
    Latches.after_lastAssistantMessage, hlastk, hsawk]
  have reopened : ∀ own', sinceOwn hash n later = some own' →
      ((Latches.resumed (sinceOwn hash k events).isSome).after hash n later).waitingStatus =
        (xk.after hash n later).waitingStatus := by
    intro own' hown'
    obtain ⟨-, hyi, hya, hyc⟩ := (Latches.resumed (sinceOwn hash k events).isSome).after_of_own hown'
    obtain ⟨-, hxi, hxa, hxc⟩ := xk.after_of_own hown'
    exact Latches.waitingStatus_congr (hyi.trans hxi.symm) (hya.trans hxa.symm)
      (hyc.trans hxc.symm)
  cases hk' : sinceOwn hash k events with
  | none =>
    -- before the own turn the latches decide nothing
    rw [hk'] at reopened
    rw [ownEvents_of_no_own hk']
    refine iff_of_true ⟨rfl, ?_⟩ (fun own h => by cases h)
    rintro rfl
    cases hn : sinceOwn hash n later with
    | some own' => exact reopened own' hn
    | none =>
      exfalso
      rw [Latches.verdict, Latches.classify, Latches.after_sawOwnTurn, hsawk, hk', hn] at hv
      cases hv
  | some own =>
    rw [hk'] at reopened hsawk
    obtain ⟨-, hi, ha, hc⟩ := (Latches.resumed false).after_of_own hk'
    rw [hxk] at hi ha hc
    simp only [Option.isSome_some, if_true, Option.some.injEq, forall_eq']
    rw [List.take_of_length_le hlen]
    refine and_congr or_lastReply_iff (imp_congr_right fun _ => ?_)
    cases hn : sinceOwn hash n later with
    | some own' => exact iff_of_true (reopened own' hn) (fun h => by cases h)
    | none =>
      rw [waitingStatus_after_iff hn hlen hsawk hi ha hc]
      simp

end InvisibleString.Tailer
