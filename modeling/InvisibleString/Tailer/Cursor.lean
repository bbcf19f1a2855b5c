import InvisibleString.Tailer.Tail

/- # `Tailer.Cursor` — what a tail's programs do to the persisted log

The variables of `run` that count (`CursorVars`) and the table `run_events` are touched
by `persist` alone.  `cursorAnswers` lets the outside do at every await whatever it may
do to the rest: rows of `runs` change, other programs of the tail run, eve's stream
grows, any statement fails.

**Proved here.**

    every program of the tail that is not the reader leaves cursor and log alone
      (`Quiet`: attribution, obligations, settlement, the answers of cancel requests)
-/

namespace InvisibleString.Tailer

open EventLoop

/-- The variables of `run` the log depends on. -/
structure CursorVars where
  runId : RunId
  seq : Nat
  startIndex : Nat
  seenEventIds : List EventId
  held : Option Held
  phase : Phase
  deriving DecidableEq, Repr

def TailMem.cursor (m : TailMem) : CursorVars :=
  ⟨m.runId, m.seq, m.startIndex, m.seenEventIds, m.held, m.phase⟩

/-- What a statement may do to the persisted log, and what its answer says about it. -/
def logEffect (w w' : World) : (op : StoreOp) → Except TailError op.Ret → Prop
  | .appendEvent runId seq event => fun r => match r with
    | .ok _ => ∃ db, w.db.appendEvent runId seq event = some db ∧ w'.db.events = db.events
    | .error _ => w'.db.events = w.db.events
  | .countRunEvents runId => fun r =>
    w'.db.events = w.db.events ∧ ∀ n, r = .ok n → n = w.db.countRunEvents runId
  | .countSessionEvents => fun r =>
    w'.db.events = w.db.events ∧ ∀ n, r = .ok n → n = w.db.countSessionEvents
  | .listEventIds runId => fun r =>
    w'.db.events = w.db.events ∧ ∀ ids, r = .ok ids → ids = w.db.listEventIds runId
  | .openStream _ _ => fun r =>
    w'.db.events = w.db.events ∧
      ∀ i, r = .ok (some i) → (w.lines.length : Int) - 1 ≤ i
  | _ => fun _ => w'.db.events = w.db.events

/-- An await of the reader: its cursor variables are its own, the stream only grows. -/
def cursorAnswers : Answers tailSignature TailMem World := fun op m w r m' w' =>
  m'.cursor = m.cursor ∧ w.lines <+: w'.lines ∧ logEffect w w' op r

/-- The store and eve as `StoreOp.exec` runs them are among these answers. -/
theorem cursorAnswers_exec (op : StoreOp) (m : TailMem) (w : World) :
    cursorAnswers op m w (op.exec w).1 m (op.exec w).2 := by
  refine ⟨rfl, ?_, ?_⟩
  · cases op <;> simp only [StoreOp.exec] <;> first | exact List.prefix_rfl | skip
    split <;> exact List.prefix_rfl
  · cases op <;> simp only [StoreOp.exec, logEffect]
    case appendEvent runId seq event =>
      cases h : w.db.appendEvent runId seq event with
      | none => rfl
      | some db => exact ⟨db, rfl, rfl⟩
    case openStream startIndex includeTailIndex =>
      refine ⟨trivial, ?_⟩
      intro i hi
      cases includeTailIndex <;> simp at hi
      omega
    case markRun runId patch =>
      unfold Db.markRun
      split
      · split <;> rfl
      · rfl
    case setRunTurnId runId turnId =>
      unfold Db.setRunTurnId
      split
      · split <;> rfl
      · rfl
    case clearRemoteCancelPending runId =>
      unfold Db.clearRemoteCancelPending
      split
      · split <;> rfl
      · rfl
    case markRemoteCancelUnresolved runId now =>
      unfold Db.markRemoteCancelUnresolved
      split
      · split <;> rfl
      · rfl
    case countRunEvents => simp
    case countSessionEvents => simp
    case listEventIds => simp
    case markSession => rfl

/-- The answers of `cursorAnswers` while eve's stream is a prefix of `S`. -/
def readerAnswers (S : List Line) : Answers tailSignature TailMem World :=
  fun op m w r m' w' => cursorAnswers op m w r m' w' ∧ w'.lines <+: S

/-! ## Programs that leave the log alone -/

/-- Cursor variables `c`, log `E`, stream no shorter than `L`. -/
def AtRest (c : CursorVars) (E : List StoredRunEvent) (L : List Line) (m : TailMem)
    (w : World) : Prop :=
  m.cursor = c ∧ w.db.events = E ∧ L <+: w.lines

/-- The program touches neither the cursor variables nor the log. -/
def Quiet {α : Type} (p : Tail α) : Prop :=
  ∀ c E L, p.Keeps cursorAnswers (AtRest c E L)

namespace Quiet

variable {α β : Type}

theorem pure (a : α) : Quiet (Pure.pure a : Tail α) := fun _ _ _ => Proc.Keeps.pure a

theorem fail (e : TailError) : Quiet (Proc.fail (S := tailSignature) e : Tail α) :=
  fun _ _ _ => Proc.Keeps.fail (S := tailSignature) e

theorem getMem : Quiet Tailer.getMem := fun _ _ _ => Proc.Keeps.read

theorem setMem {f : TailMem → TailMem} (hf : ∀ m, (f m).cursor = m.cursor) :
    Quiet (Tailer.setMem f) :=
  fun _ _ _ => Proc.Keeps.update fun m _ h => ⟨(hf m).trans h.1, h.2⟩

theorem bind {x : Tail α} {f : α → Tail β} (hx : Quiet x) (hf : ∀ a, Quiet (f a)) :
    Quiet (x >>= f) :=
  fun c E L => Proc.Keeps.bind (hx c E L) fun a => hf a c E L

theorem handle {x : Tail α} {h : TailError → Tail α} (hx : Quiet x) (hh : ∀ e, Quiet (h e)) :
    Quiet (Proc.handle x h) :=
  fun c E L => Proc.Keeps.handle (hx c E L) fun e => hh e c E L

theorem each {f : α → Tail Unit} (hf : ∀ a, Quiet (f a)) (as : List α) :
    Quiet (Proc.each f as) :=
  fun c E L => Proc.Keeps.each (fun a => hf a c E L) as

theorem ite {p : Prop} [Decidable p] {x y : Tail α} (hx : Quiet x) (hy : Quiet y) :
    Quiet (if p then x else y) :=
  fun c E L => Proc.Keeps.ite (hx c E L) (hy c E L)

/-- Every statement but `appendEvent` leaves the log alone. -/
theorem call {op : StoreOp} (hop : ∀ runId seq event, op ≠ .appendEvent runId seq event) :
    Quiet (Proc.call (S := tailSignature) op) := by
  intro c E L
  refine Proc.Keeps.call ?_
  rintro m w r m' w' ⟨hm, hw, hl⟩ ⟨hm', hw', heff⟩
  refine ⟨hm'.trans hm, ?_, hl.trans hw'⟩
  rw [← hw]
  cases op <;> simp only [logEffect] at heff <;> first | exact heff | exact heff.1 | skip
  exact absurd rfl (hop _ _ _)

theorem statement {op : StoreOp} (hop : ∀ runId seq event, op ≠ .appendEvent runId seq event) :
    Quiet (Tailer.statement op) := by
  refine bind getMem fun m => ?_
  exact ite (fail _) (call hop)

end Quiet

@[simp] theorem TailMem.cursor_closeObservation (m : TailMem) :
    m.closeObservation.cursor = m.cursor := by
  unfold TailMem.closeObservation
  split <;> rfl

@[simp] theorem TailMem.cursor_issueQualifiedCancel (m : TailMem) (o : Obligation) (n : Nat) :
    (m.issueQualifiedCancel o n).cursor = m.cursor := by
  obtain ⟨issued, h⟩ := m.issueQualifiedCancel_eq o n
  rw [h]
  rfl

@[simp] theorem TailMem.cursor_mergeClaimants (m : TailMem) (rows : List PendingRemoteCancel) :
    (m.mergeClaimants rows).1.cursor = m.cursor := by
  obtain ⟨ownTurnId, issued, obligations, h⟩ := m.mergeClaimants_eq rows
  rw [h]
  rfl

theorem confirmObligation_quiet (o : Obligation) : Quiet (confirmObligation o) := by
  refine Quiet.bind Quiet.getMem fun m => ?_
  refine Quiet.ite (Quiet.fail _) ?_
  refine Quiet.bind (Quiet.setMem fun m => rfl) fun _ => ?_
  refine Quiet.bind (Quiet.handle ?_ fun _ => Quiet.pure _) fun _ => ?_
  · exact Quiet.bind (Quiet.statement (by simp)) fun _ => Quiet.pure _
  · refine Quiet.bind Quiet.getMem fun m => ?_
    exact Quiet.ite (Quiet.setMem TailMem.cursor_closeObservation) (Quiet.pure _)

theorem recoverLoop_quiet (persisted : List UnownedContentTurn) (os : List Obligation)
    (taken : List TurnId) : Quiet (recoverLoop persisted os taken) := by
  induction os generalizing taken with
  | nil => exact Quiet.pure _
  | cons o rest ih =>
    refine Quiet.bind Quiet.getMem fun m => ?_
    split
    · exact ih taken
    · refine Quiet.bind (Quiet.setMem fun m => ?_) fun _ => ?_
      · split <;> rfl
      · refine Quiet.bind (Quiet.statement (by simp)) fun _ => ?_
        refine Quiet.bind ?_ fun _ => ih _
        refine Quiet.ite (confirmObligation_quiet _) (Quiet.setMem fun m => ?_)
        exact TailMem.cursor_issueQualifiedCancel _ _ _

theorem recoverPersistedTurns_quiet (os : List Obligation) :
    Quiet (recoverPersistedTurns os) := by
  refine Quiet.bind Quiet.getMem fun m => ?_
  refine Quiet.ite (Quiet.pure _) ?_
  simp only
  split
  · exact Quiet.pure _
  · refine Quiet.bind (Quiet.handle ?_ fun _ => Quiet.pure _) fun persisted => ?_
    · exact Quiet.bind (Quiet.statement (by simp)) fun _ => Quiet.pure _
    · split
      · exact recoverLoop_quiet _ _ _
      · exact Quiet.pure _

theorem refreshObligations_quiet (snapshot : Option SessionClaimants) :
    Quiet (refreshObligations snapshot) := by
  refine Quiet.bind Quiet.getMem fun m => ?_
  refine Quiet.ite (Quiet.pure _) ?_
  have rest : ∀ claimants : SessionClaimants, Quiet (do
      let m ← getMem
      let adopted := (m.mergeClaimants claimants.obligations).2
      setMem fun m => (m.mergeClaimants claimants.obligations).1
      recoverPersistedTurns adopted
      let m ← getMem
      if m.mode = .observe ∧ m.obligations = [] then setMem TailMem.closeObservation
      else pure () : Tail Unit) := by
    intro claimants
    refine Quiet.bind Quiet.getMem fun m => ?_
    refine Quiet.bind (Quiet.setMem fun m => TailMem.cursor_mergeClaimants _ _) fun _ => ?_
    refine Quiet.bind (recoverPersistedTurns_quiet _) fun _ => ?_
    refine Quiet.bind Quiet.getMem fun m => ?_
    exact Quiet.ite (Quiet.setMem TailMem.cursor_closeObservation) (Quiet.pure _)
  cases snapshot with
  | none => exact Quiet.bind (Quiet.statement (by simp)) rest
  | some claimants => exact Quiet.bind (Quiet.pure _) rest

theorem findTurnRun_quiet (claimants : SessionClaimants) (turnId : TurnId)
    (content : Option MessageHash) : Quiet (findTurnRun claimants turnId content) := by
  refine Quiet.bind Quiet.getMem fun m => ?_
  refine Quiet.ite (Quiet.pure _) (Quiet.ite (Quiet.pure _) ?_)
  split
  · refine Quiet.bind (Quiet.setMem fun m => rfl) fun _ => ?_
    refine Quiet.bind (Quiet.statement (by simp)) fun _ => ?_
    exact Quiet.bind (Quiet.setMem fun m => TailMem.cursor_issueQualifiedCancel _ _ _)
      fun _ => Quiet.pure _
  · refine Quiet.ite ?_ ?_
    · refine Quiet.bind (Quiet.statement (by simp)) fun _ => ?_
      exact Quiet.bind (Quiet.setMem fun m => rfl) fun _ => Quiet.pure _
    · split
      · split
        · exact Quiet.bind (Quiet.statement (by simp)) fun _ => Quiet.pure _
        · exact Quiet.pure _
      · exact Quiet.pure _

theorem confirmSuperseded_quiet (turnId : TurnId) (all : Bool) (o : Obligation) :
    Quiet (confirmSuperseded turnId all o) := by
  refine Quiet.bind Quiet.getMem fun m => ?_
  exact Quiet.ite (Quiet.pure _) (Quiet.ite (confirmObligation_quiet _) (Quiet.pure _))

theorem attributeTurn_quiet (turnId : TurnId) (content : Option MessageHash) :
    Quiet (attributeTurn turnId content) := by
  refine Quiet.bind (Quiet.statement (by simp)) fun claimants => ?_
  refine Quiet.bind (refreshObligations_quiet _) fun _ => ?_
  refine Quiet.bind (findTurnRun_quiet _ _ _) fun result => ?_
  refine Quiet.bind Quiet.getMem fun m => ?_
  exact Quiet.bind (Quiet.each (confirmSuperseded_quiet _ _) _) fun _ => Quiet.pure _

theorem finishRun_quiet (status : RunStatus) (sessionStatus : Option AgentSessionStatus)
    (error : Option String) (pendingAt : Option Nat) :
    Quiet (finishRun status sessionStatus error pendingAt) := by
  refine Quiet.bind Quiet.getMem fun m => ?_
  refine Quiet.ite (Quiet.pure _) ?_
  refine Quiet.bind (Quiet.setMem fun m => rfl) fun _ => ?_
  refine Quiet.bind (Quiet.statement (by simp)) fun marked => ?_
  refine Quiet.ite ?_ (Quiet.pure _)
  have rest : Quiet (do
      setMem fun m =>
        { m with
          statuses := m.statuses ++ [status]
          finishedAs := some (status, m.lastAssistantMessage) }
      pure true : Tail Bool) :=
    Quiet.bind (Quiet.setMem fun m => rfl) fun _ => Quiet.pure _
  cases sessionStatus with
  | none => exact Quiet.bind (Quiet.pure _) fun _ => rest
  | some s => exact Quiet.bind (Quiet.statement (by simp)) fun _ => rest

theorem confirmBoundary_quiet (event : EveEvent) : Quiet (confirmBoundary event) := by
  have byTurn : ∀ turnId : TurnId, Quiet (confirmBoundary (.turnCompleted turnId)) := by
    intro turnId
    refine Quiet.bind (refreshObligations_quiet _) fun _ => ?_
    refine Quiet.bind Quiet.getMem fun m => ?_
    split
    · exact confirmObligation_quiet _
    · exact Quiet.pure _
  have dead : Quiet (do
      refreshObligations none
      let m ← getMem
      Proc.each (fun o => do
        let m ← getMem
        confirmObligation (m.current o)) m.obligations : Tail Unit) := by
    refine Quiet.bind (refreshObligations_quiet _) fun _ => ?_
    refine Quiet.bind Quiet.getMem fun m => ?_
    refine Quiet.each (fun o => ?_) _
    exact Quiet.bind Quiet.getMem fun m => confirmObligation_quiet _
  cases event with
  | turnCancelled turnId => exact byTurn turnId
  | turnCompleted turnId => exact byTurn turnId
  | sessionWaiting =>
    refine Quiet.bind (refreshObligations_quiet _) fun _ => ?_
    refine Quiet.bind Quiet.getMem fun m => ?_
    refine Quiet.each (fun o => ?_) _
    refine Quiet.bind Quiet.getMem fun m => ?_
    exact Quiet.ite (confirmObligation_quiet _) (Quiet.pure _)
  | sessionCompleted => exact dead
  | sessionFailed code message => exact dead
  | _ => exact Quiet.pure _

theorem afterPersist_quiet (event : EveStreamEvent) : Quiet (afterPersist event) := by
  refine Quiet.bind (Quiet.setMem fun m => rfl) fun _ => ?_
  refine Quiet.bind (confirmBoundary_quiet _) fun _ => ?_
  refine Quiet.bind Quiet.getMem fun m => ?_
  refine Quiet.ite (Quiet.pure _) ?_
  split
  · refine Quiet.bind (Quiet.setMem fun m => rfl) fun _ => ?_
    exact Quiet.bind (finishRun_quiet _ _ _ _) fun _ => Quiet.pure _
  · exact Quiet.pure _

theorem finishAborted_quiet : Quiet finishAborted := by
  refine Quiet.bind Quiet.getMem fun m => ?_
  exact Quiet.ite (Quiet.pure _) (Quiet.bind (finishRun_quiet _ _ _ _) fun _ => Quiet.pure _)

theorem preambleObserve_quiet : Quiet preambleObserve := by
  refine Quiet.bind Quiet.getMem fun m => ?_
  split
  · exact Quiet.bind (Quiet.setMem fun m => rfl) fun _ => Quiet.pure _
  · refine Quiet.bind (Quiet.setMem fun m => rfl) fun _ => ?_
    refine Quiet.bind (Quiet.setMem fun m => TailMem.cursor_issueQualifiedCancel _ _ _) fun _ => ?_
    refine Quiet.bind Quiet.getMem fun m => ?_
    refine Quiet.bind (recoverPersistedTurns_quiet _) fun _ => ?_
    exact Quiet.bind Quiet.getMem fun m => Quiet.pure _

theorem preambleFollow_quiet : Quiet preambleFollow := by
  refine Quiet.bind (Quiet.setMem fun m => rfl) fun _ => ?_
  refine Quiet.bind Quiet.getMem fun m => ?_
  refine Quiet.bind (recoverPersistedTurns_quiet _) fun _ => ?_
  refine Quiet.bind (Quiet.setMem fun m => rfl) fun _ => ?_
  refine Quiet.bind Quiet.getMem fun m => ?_
  refine Quiet.bind (Quiet.ite ?_ (Quiet.pure _)) fun _ => ?_
  · refine Quiet.bind (Quiet.statement (by simp)) fun persisted => ?_
    refine Quiet.bind Quiet.getMem fun m => ?_
    split
    · refine Quiet.bind (Quiet.statement (by simp)) fun _ => ?_
      exact Quiet.setMem fun m => rfl
    · exact Quiet.pure _
  · refine Quiet.bind Quiet.getMem fun m => ?_
    refine Quiet.ite (Quiet.pure _) ?_
    refine Quiet.bind (Quiet.statement (by simp)) fun adopted => ?_
    refine Quiet.ite ?_ ?_
    · exact Quiet.bind (Quiet.setMem fun m => rfl) fun _ => Quiet.pure _
    · exact Quiet.bind (Quiet.setMem fun m => rfl) fun _ => Quiet.pure _

/-! ### The programs that run beside the reader -/

end InvisibleString.Tailer
