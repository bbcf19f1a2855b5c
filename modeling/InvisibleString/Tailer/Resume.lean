import InvisibleString.Tailer.Session
import InvisibleString.Tailer.Verdict
import InvisibleString.Tailer.ExactlyOnce

/- # `Tailer.Resume` — the verdict of a tail that was resumed

-/

namespace InvisibleString.Tailer

open EventLoop

/-- What eve guarantees of the order of its events: a `message.received` stands right
behind the opening of its turn, and a turn opens once. -/
structure EveOrder (es : List EveEvent) : Prop where
  message : ∀ (i : Nat) (turnId : TurnId) (message : String),
    es[i]? = some (.messageReceived turnId message) →
      ∃ j : Nat, i = j + 1 ∧ es[j]? = some (.turnStarted turnId)
  once : ∀ (i j : Nat) (turnId : TurnId), es[i]? = some (.turnStarted turnId) →
    es[j]? = some (.turnStarted turnId) → i = j

/-- One run alone on its session: `events` is what eve's stream holds from the run's
initial cursor on. -/
structure Solo where
  r : RunId
  hash : Option MessageHash
  base : List StoredRunEvent
  lines : List Line
  events : List EveStreamEvent
  stream : lines.drop base.length = events.map some
  cursor : base.length ≤ lines.length
  fresh : ∀ row ∈ base, row.runId ≠ r
  ids : UniqueIds (events.map some)
  order : EveOrder (events.map EveStreamEvent.event)

namespace Solo

variable (x : Solo)

/-- What the tail reads of the events. -/
def kinds : List EveEvent := x.events.map EveStreamEvent.event

/-- Every opening of the turn that is decided on the stream is the run's own. -/
def OwnTurn (turnId : TurnId) : Prop :=
  ∀ i : Nat, x.kinds[i]? = some (.turnStarted turnId) → i + 1 < x.kinds.length →
    opensOwn x.hash (x.kinds.drop i) = true

/-- The store holds the first `k` events under the run, and the rest of the session is
settled and owes nothing. -/
structure Recorded (k : Nat) (w : World) : Prop where
  lines : w.lines = x.lines
  events : w.db.events = x.base ++ (x.events.take k).mapIdx fun i e => ⟨x.r, i, e⟩
  quiet : ∀ row ∈ w.db.runs, row.remoteCancelPendingAt = none ∧
    (row.id ≠ x.r → row.status.terminal = true)
  row : ∃ row, w.db.run? x.r = some row ∧ (row.status = .queued ∨ row.status = .running) ∧
    row.messageHash = x.hash ∧
    ((sinceOwn x.hash k x.kinds).isSome = true → row.turnId.isSome = true) ∧
    ∀ turnId, row.turnId = some turnId →
      x.OwnTurn turnId ∧ (sinceOwn x.hash (k + 1) x.kinds).isSome = true

variable {x} {k : Nat} {w : World}

/-- A run whose send was just armed. -/
theorem Recorded.init (hl : w.lines = x.lines) (he : w.db.events = x.base)
    (hq : ∀ row ∈ w.db.runs, row.remoteCancelPendingAt = none ∧
      (row.id ≠ x.r → row.status.terminal = true))
    (row : RunRow) (hrow : w.db.run? x.r = some row) (hst : row.status = .queued)
    (hhash : row.messageHash = x.hash) (hturn : row.turnId = none) : x.Recorded 0 w := by
  refine ⟨hl, ?_, hq, row, hrow, Or.inl hst, hhash, ?_, ?_⟩
  · rw [he, List.take_zero, List.mapIdx_nil, List.append_nil]
  · intro h
    cases h
  · intro turnId ht
    rw [hturn] at ht
    cases ht

theorem Recorded.runEvents (h : x.Recorded k w) : w.db.runEvents x.r = x.events.take k := by
  have hbase : x.base.filter (·.runId == x.r) = [] := by
    rw [List.filter_eq_nil_iff]
    intro row hrow
    simpa using x.fresh row hrow
  have hnew : ((x.events.take k).mapIdx fun i e => (⟨x.r, i, e⟩ : StoredRunEvent)).filter
      (·.runId == x.r) = (x.events.take k).mapIdx fun i e => ⟨x.r, i, e⟩ := by
    rw [List.filter_eq_self]
    intro row hrow
    obtain ⟨i, hi, rfl⟩ := List.mem_mapIdx.mp hrow
    exact beq_self_eq_true _
  rw [Db.runEvents, h.events, List.filter_append, hbase, hnew, List.nil_append]
  refine List.ext_getElem? fun i => ?_
  simp [Function.comp_def]

theorem Recorded.countRunEvents (h : x.Recorded k w) (hk : k ≤ x.events.length) :
    w.db.countRunEvents x.r = k := by
  rw [Db.countRunEvents, h.runEvents, List.length_take, Nat.min_eq_left hk]

theorem Recorded.countSessionEvents (h : x.Recorded k w) (hk : k ≤ x.events.length) :
    w.db.countSessionEvents = x.base.length + k := by
  rw [Db.countSessionEvents, h.events, List.length_append, List.length_mapIdx, List.length_take,
    Nat.min_eq_left hk]

theorem Recorded.obligations (h : x.Recorded k w) :
    w.db.listSessionClaimants.obligations = [] := by
  have hp : w.db.runs.filterMap Db.toPending = [] := by
    rw [List.filterMap_eq_nil_iff]
    intro row hrow
    rw [Db.toPending, (h.quiet row hrow).1]
    rfl
  simp [Db.listSessionClaimants, hp]

theorem Recorded.live (h : x.Recorded k w) :
    ∀ run ∈ w.db.listSessionClaimants.live, run.runId = x.r := by
  intro run hrun
  obtain ⟨row, hrow, hlive⟩ := List.mem_filterMap.mp hrun
  unfold Db.toLive at hlive
  split at hlive
  · rename_i hcond
    cases hlive
    by_contra hne
    rw [(h.quiet row hrow).2 hne] at hcond
    cases hcond.2.1
  · cases hlive

theorem Recorded.updateRun (h : x.Recorded k w) {f : RunRow → RunRow}
    (hid : ∀ row, (f row).id = row.id)
    (hpend : ∀ row, (f row).remoteCancelPendingAt = row.remoteCancelPendingAt)
    (hhash : ∀ row, (f row).messageHash = row.messageHash)
    (hstatus : ∀ row, row.status = .queued ∨ row.status = .running →
      (f row).status = .queued ∨ (f row).status = .running)
    (hkeep : ∀ row, row.turnId.isSome = true → (f row).turnId.isSome = true)
    (hturn : ∀ row turnId, (f row).turnId = some turnId → row.turnId = some turnId ∨
      x.OwnTurn turnId ∧ (sinceOwn x.hash (k + 1) x.kinds).isSome = true) :
    x.Recorded k { w with db := w.db.updateRun x.r f } := by
  refine ⟨h.lines, h.events, ?_, ?_⟩
  · intro row hrow
    obtain ⟨row₀, hrow₀, rfl⟩ := List.mem_map.mp hrow
    obtain ⟨hp, hq⟩ := h.quiet row₀ hrow₀
    split
    · rename_i hr
      rw [beq_iff_eq] at hr
      exact ⟨(hpend row₀).trans hp, fun hne => absurd ((hid row₀).trans hr) hne⟩
    · exact ⟨hp, hq⟩
  · obtain ⟨row, hrow, hst, hh, hsome, hown⟩ := h.row
    refine ⟨f row, ?_, hstatus row hst, (hhash row).trans hh, fun ho => hkeep row (hsome ho), ?_⟩
    · rw [Db.run?_updateRun _ _ hid, if_pos rfl, hrow]
      rfl
    · intro turnId ht
      rcases hturn row turnId ht with ht | ht
      · exact hown turnId ht
      · exact ht

theorem Recorded.markRun (h : x.Recorded k w) (patch : RunStatusPatch) :
    w.db.markRun x.r patch = (true, w.db.updateRun x.r (Db.applyPatch patch)) := by
  obtain ⟨row, hrow, hst, -⟩ := h.row
  unfold Db.markRun
  rw [hrow]
  simp only
  rw [if_neg]
  rcases hst with hst | hst <;> rw [hst] <;> decide

theorem Recorded.markRunning (h : x.Recorded k w) (startedAt : Option Nat) :
    x.Recorded k { w with db := (w.db.markRun x.r
      { RunStatusPatch.ofStatus .running with startedAt := startedAt }).2 } := by
  rw [h.markRun]
  refine h.updateRun (fun _ => rfl) (fun _ => rfl) (fun _ => rfl) (fun _ _ => Or.inr rfl)
    (fun _ h => h) (fun _ _ h => Or.inl h)

theorem Recorded.setRunTurnId (h : x.Recorded k w) {turnId : TurnId} (ht : x.OwnTurn turnId)
    (hopen : (sinceOwn x.hash (k + 1) x.kinds).isSome = true) :
    x.Recorded k { w with db := (w.db.setRunTurnId x.r turnId).2 } := by
  obtain ⟨row, hrow, -⟩ := h.row
  unfold Db.setRunTurnId
  rw [hrow]
  simp only
  split
  · refine h.updateRun (fun _ => rfl) (fun _ => rfl) (fun _ => rfl) (fun _ h => h)
      (fun _ _ => rfl) ?_
    rintro row' turnId' ht'
    cases ht'
    exact Or.inr ⟨ht, hopen⟩
  · exact h

theorem Recorded.appendEvent (h : x.Recorded k w) {e : EveStreamEvent}
    (he : x.events[k]? = some e)
    (hopen : opensOwn x.hash (x.kinds.drop k) = true →
      ∃ row, w.db.run? x.r = some row ∧ row.turnId.isSome = true) :
    ∃ db, w.db.appendEvent x.r k e = some db ∧ x.Recorded (k + 1) { w with db := db } := by
  have hk : k < x.events.length := (List.getElem?_eq_some_iff.mp he).1
  have hfree : w.db.events.any (fun row => row.runId == x.r && row.seq == k) = false := by
    rw [List.any_eq_false, h.events]
    intro row hrow
    rw [List.mem_append] at hrow
    rcases hrow with hrow | hrow
    · simp [x.fresh row hrow]
    · obtain ⟨i, hi, rfl⟩ := List.mem_mapIdx.mp hrow
      rw [List.length_take] at hi
      have : i ≠ k := by omega
      simp [this]
  refine ⟨{ w.db with events := w.db.events ++ [⟨x.r, k, e⟩] }, ?_, h.lines, ?_, h.quiet, ?_⟩
  · rw [Db.appendEvent, hfree]
    rfl
  · show w.db.events ++ [⟨x.r, k, e⟩] = _
    rw [h.events, List.take_add_one, he, Option.toList_some, List.mapIdx_concat,
      List.length_take, Nat.min_eq_left hk.le, List.append_assoc]
  · obtain ⟨row, hrow, hst, hh, hsome, hown⟩ := h.row
    refine ⟨row, hrow, hst, hh, ?_, ?_⟩
    · intro hs
      obtain ⟨i, hi, hopens⟩ := sinceOwn_isSome_iff.mp hs
      rcases Nat.lt_succ_iff_lt_or_eq.mp hi with hi | rfl
      · exact hsome (sinceOwn_isSome_iff.mpr ⟨i, hi, hopens⟩)
      · obtain ⟨row', hrow', hsome'⟩ := hopen hopens
        rw [hrow] at hrow'
        cases hrow'
        exact hsome'
    · intro turnId ht
      obtain ⟨hT, hs⟩ := hown turnId ht
      obtain ⟨i, hi, hopens⟩ := sinceOwn_isSome_iff.mp hs
      exact ⟨hT, sinceOwn_isSome_iff.mpr ⟨i, by omega, hopens⟩⟩

/-! ## The programs of a run alone on its session -/

/-- What a crash leaves: the first events recorded, or the run settled. -/
def Left (x : Solo) (w : World) : Prop :=
  (∃ k ≤ x.events.length, x.Recorded k w) ∨
    ∃ row, w.db.run? x.r = some row ∧ row.status ≠ .queued ∧ row.status ≠ .running

/-- The memory of a live tail that follows no obligation. -/
structure Alone (x : Solo) (m : TailMem) : Prop where
  runId : m.runId = x.r
  mode : m.mode = .follow
  closed : m.closed = false
  seized : m.seized = false
  finished : m.finished = false
  detaching : m.detaching = false
  obligations : m.obligations = []
  ownMessageHash : m.ownMessageHash = x.hash
  finishedAs : m.finishedAs = none
  ownTurn : ∀ turnId, m.ownTurnId = some turnId → x.OwnTurn turnId

variable {m : TailMem}

theorem TailMem.mergeClaimants_nil (h : m.obligations = []) : m.mergeClaimants [] = (m, []) := by
  cases m
  cases h
  rfl

theorem refreshObligations_alone (hm : x.Alone m) (hw : x.Recorded k w)
    (hk : k ≤ x.events.length) (snapshot : Option SessionClaimants)
    (hs : ∀ c, snapshot = some c → c.obligations = []) :
    (refreshObligations snapshot).Sat (Answers.of StoreOp.exec) (fun _ w' => x.Left w') m w
      (fun res m' w' => res = .ok () ∧ m' = m ∧ w' = w) := by
  have hrest : ∀ c : SessionClaimants, c.obligations = [] →
      (do
        let m ← getMem
        let adopted := (m.mergeClaimants c.obligations).2
        setMem fun m => (m.mergeClaimants c.obligations).1
        recoverPersistedTurns adopted
        let m ← getMem
        if m.mode = .observe ∧ m.obligations = [] then setMem TailMem.closeObservation
        else pure () : Tail Unit).Sat (Answers.of StoreOp.exec) (fun _ w' => x.Left w') m w
        (fun res m' w' => res = .ok () ∧ m' = m ∧ w' = w) := by
    intro c hc
    rw [hc, Proc.sat_bind, sat_getMem]
    simp only
    rw [TailMem.mergeClaimants_nil hm.obligations, Proc.sat_bind, sat_setMem,
      TailMem.mergeClaimants_nil hm.obligations]
    simp only
    unfold recoverPersistedTurns
    rw [Proc.sat_bind, Proc.sat_bind, sat_getMem]
    simp only [hm.closed]
    rw [if_neg Bool.false_ne_true]
    simp only [List.filter_nil, List.insertionSort_nil]
    rw [Proc.sat_pure]
    simp only
    rw [Proc.sat_bind, sat_getMem]
    simp only [hm.mode]
    rw [if_neg (by simp)]
    exact ⟨rfl, rfl, rfl⟩
  unfold refreshObligations
  rw [Proc.sat_bind, sat_getMem]
  simp only [hm.closed]
  rw [if_neg Bool.false_ne_true, Proc.sat_bind]
  cases hsnap : snapshot with
  | some c => exact hrest c (hs c hsnap)
  | none =>
    rw [sat_statement_of hm.seized]
    exact ⟨Or.inl ⟨k, hk, hw⟩, hrest _ hw.obligations⟩

/-- The run's row carries a turn id. -/
def Attributed (x : Solo) (w : World) : Prop :=
  ∃ row, w.db.run? x.r = some row ∧ row.turnId.isSome = true

theorem Recorded.attributed (h : x.Recorded k w) (turnId : TurnId) :
    x.Attributed { w with db := (w.db.setRunTurnId x.r turnId).2 } := by
  obtain ⟨row, hrow, -⟩ := h.row
  unfold Db.setRunTurnId
  rw [hrow]
  simp only
  split
  · refine ⟨{ row with turnId := some turnId }, ?_, rfl⟩
    have hrun := Db.run?_updateRun w.db x.r (f := fun row => { row with turnId := some turnId })
      (fun _ => rfl) x.r
    rw [if_pos rfl, hrow] at hrun
    exact hrun
  · rename_i hne
    refine ⟨row, hrow, ?_⟩
    cases hrt : row.turnId with
    | none => exact absurd (Or.inl hrt) hne
    | some t => rfl

theorem attributeTurn_alone {turnId : TurnId} {content : Option MessageHash} (hm : x.Alone m)
    (hw : x.Recorded k w) (hk : k ≤ x.events.length)
    (hknown : m.ownTurnId = some turnId → content = x.hash ∧ x.Attributed w)
    (hopens : content = x.hash →
      x.OwnTurn turnId ∧ (sinceOwn x.hash (k + 1) x.kinds).isSome = true)
    {Q : Except TailError TurnAttribution → TailMem → World → Prop}
    (hown : content = x.hash → ∀ w', x.Recorded k w' → x.Attributed w' →
      Q (.ok .own) { m with ownTurnId := some turnId } w')
    (hforeign : content ≠ x.hash → Q (.ok .foreign) m w) :
    (attributeTurn turnId content).Sat (Answers.of StoreOp.exec) (fun _ w' => x.Left w') m w
      Q := by
  have hleft : x.Left w := Or.inl ⟨k, hk, hw⟩
  -- what `findTurnRun` answers, followed by the confirmation of no obligation
  have hend : ∀ (res : TurnAttribution) (m' : TailMem) (w' : World), m'.obligations = [] →
      Q (.ok res) m' w' →
      (do
        let m ← getMem
        Proc.each (confirmSuperseded turnId (res == .own || res == .successor)) m.obligations
        pure res : Tail TurnAttribution).Sat (Answers.of StoreOp.exec) (fun _ w' => x.Left w')
        m' w' Q := by
    intro res m' w' hobl hQ
    rw [Proc.sat_bind, sat_getMem]
    simp only [hobl]
    exact hQ
  unfold attributeTurn
  rw [Proc.sat_bind, sat_statement_of hm.seized]
  refine ⟨hleft, ?_⟩
  have hrefresh := refreshObligations_alone hm hw hk
    (some w.db.listSessionClaimants) (fun c hc => by cases hc; exact hw.obligations)
  show (_ >>= _ : Tail _).Sat _ _ m w _
  refine hrefresh.bind ?_ ?_
  · rintro - m₁ w₁ ⟨-, rfl, rfl⟩
    unfold findTurnRun
    rw [Proc.sat_bind, Proc.sat_bind, sat_getMem]
    simp only
    by_cases hT : m₁.ownTurnId = some turnId
    · -- the row carries the turn already
      obtain ⟨hc, hatt⟩ := hknown hT
      rw [if_pos hT, Proc.sat_pure]
      have hQ := hown hc w₁ hw hatt
      rw [← hT] at hQ
      exact hend .own m₁ w₁ hm.obligations hQ
    rw [if_neg hT, hm.obligations, List.any_nil, if_neg Bool.false_ne_true]
    have hclaim : m₁.claimant content = none := by
      simp [TailMem.claimant, hm.obligations]
    rw [hclaim]
    simp only [hm.mode, hm.ownMessageHash, true_and]
    by_cases hc : content = x.hash
    · rw [if_pos hc.symm, Proc.sat_bind, sat_statement_of hm.seized]
      refine ⟨hleft, ?_⟩
      obtain ⟨hT', hopen⟩ := hopens hc
      rw [Proc.sat_bind, hm.runId]
      exact hend .own _ _ hm.obligations
        (hown hc _ (hw.setRunTurnId hT' hopen) (hw.attributed turnId))
    · rw [if_neg (fun h => hc h.symm)]
      have hrest := hend .foreign m₁ w₁ hm.obligations (hforeign hc)
      cases content with
      | none => exact hrest
      | some hash =>
        have hnone : w₁.db.listSessionClaimants.live.find? (fun run =>
            run.runId != m₁.runId && run.messageHash == some hash) = none := by
          rw [List.find?_eq_none]
          intro run hrun
          simp [hw.live run hrun, hm.runId]
        simp only [hnone]
        exact hrest
  · rintro err m' w' ⟨h, -⟩
    cases h

/-- The reader of a tail that was started behind the first `k₀` events and has recorded
the first `s`; `o` says whether it knew its own turn at the start. -/
structure Reads (x : Solo) (k₀ : Nat) (o : Bool) (s : Nat) (m : TailMem) (w : World) :
    Prop where
  alone : x.Alone m
  recorded : x.Recorded s w
  known : m.ownTurnId.isSome = true → x.Attributed w
  start : k₀ ≤ s
  le : s ≤ x.events.length
  seq : m.seq = s
  startIndex : m.startIndex = x.base.length + s
  seen : m.seenEventIds = (x.events.take s).filterMap EveStreamEvent.id
  latches : m.latches = (Latches.resumed o).after x.hash (s - k₀) (x.kinds.drop k₀)

variable {k₀ s : Nat} {o : Bool} {e : EveStreamEvent}

theorem kinds_getElem? {i : Nat} (he : x.events[i]? = some e) :
    x.kinds[i]? = some e.event := by
  rw [kinds, List.getElem?_map, he]
  rfl

theorem Reads.left (h : x.Reads k₀ o s m w) : x.Left w := Or.inl ⟨s, h.le, h.recorded⟩

/-- An event not recorded yet is no duplicate. -/
theorem Reads.isDuplicate (h : x.Reads k₀ o s m w) {j : Nat} (hj : s ≤ j)
    (he : x.events[j]? = some e) : m.isDuplicate e = false := by
  unfold TailMem.isDuplicate
  cases hid : e.id with
  | none => rfl
  | some id =>
    simp only
    rw [h.seen, List.contains_eq_mem, decide_eq_false_iff_not, List.mem_filterMap]
    rintro ⟨e', he', hid'⟩
    obtain ⟨i, hi⟩ := List.mem_iff_getElem?.mp he'
    rw [List.getElem?_take] at hi
    split at hi
    · rename_i his
      have h1 : (x.events.map some)[i]? = some (some e') := by
        rw [List.getElem?_map, hi]; rfl
      have h2 : (x.events.map some)[j]? = some (some e) := by
        rw [List.getElem?_map, he]; rfl
      have := x.ids.index_eq h1 h2 (hid'.trans hid.symm)
      omega
    · cases hi

theorem Reads.after_succ (h : x.Reads k₀ o s m w) (he : x.events[s]? = some e) :
    (Latches.resumed o).after x.hash (s + 1 - k₀) (x.kinds.drop k₀) =
      m.latches.step x.hash (x.kinds.drop s) e.event := by
  have hs : s + 1 - k₀ = (s - k₀) + 1 := by have := h.start; omega
  have hdrop : (x.kinds.drop k₀)[s - k₀]? = some e.event := by
    rw [List.getElem?_drop, Nat.add_sub_cancel' h.start]
    exact kinds_getElem? he
  rw [hs, Latches.after_succ _ hdrop, h.latches, List.drop_drop, Nat.add_sub_cancel' h.start]

theorem persist_alone (h : x.Reads k₀ o s m w) (he : x.events[s]? = some e)
    (hopen : opensOwn x.hash (x.kinds.drop s) = true → x.Attributed w)
    {Q : Except TailError Unit → TailMem → World → Prop}
    (hQ : ∀ m' w', x.Alone m' → x.Recorded (s + 1) w' →
      (m'.ownTurnId.isSome = true → x.Attributed w') → m'.seq = s + 1 →
      m'.startIndex = x.base.length + (s + 1) →
      m'.seenEventIds = (x.events.take (s + 1)).filterMap EveStreamEvent.id →
      m'.latches = m.latches → m'.phase = m.phase → m'.held = m.held → Q (.ok ()) m' w') :
    (persist e false).Sat (Answers.of StoreOp.exec) (fun _ w' => x.Left w') m w Q := by
  obtain ⟨db, hdb, hrec⟩ := h.recorded.appendEvent he hopen
  have hatt : ∀ {w'}, w'.db.runs = w.db.runs → x.Attributed w → x.Attributed w' := by
    rintro w' hruns ⟨row, hrow, hsome⟩
    exact ⟨row, by rw [Db.run?, hruns]; exact hrow, hsome⟩
  have hruns : db.runs = w.db.runs := by
    unfold Db.appendEvent at hdb
    split at hdb
    · cases hdb
    · cases hdb; rfl
  unfold persist
  rw [Proc.sat_bind, sat_getMem]
  simp only [Bool.false_eq_true, if_false]
  rw [Proc.sat_bind, Proc.sat_bind, sat_statement_of h.alone.seized]
  refine ⟨h.left, ?_⟩
  rw [h.alone.runId, h.seq]
  simp only [StoreOp.exec, hdb]
  rw [sat_setMem]
  simp only
  rw [sat_setMem]
  refine hQ _ _ ?_ hrec (fun hsome => hatt hruns (h.known hsome)) ?_ ?_ ?_ rfl rfl rfl
  · exact ⟨h.alone.runId, h.alone.mode, h.alone.closed, h.alone.seized, h.alone.finished,
      h.alone.detaching, h.alone.obligations, h.alone.ownMessageHash, h.alone.finishedAs,
      h.alone.ownTurn⟩
  · show m.seq + 1 = s + 1
    rw [h.seq]
  · show m.startIndex + 1 = _
    rw [h.startIndex]
    omega
  · show m.seenEventIds ++ e.id.toList = _
    rw [h.seen, List.take_add_one, he, List.filterMap_append]
    rfl

theorem TailMem.latches_latch (m : TailMem) (e : EveEvent) :
    (m.latch e).latches = m.latches.see e := by
  cases hsaw : m.sawOwnTurn <;> cases e <;>
    simp [TailMem.latch, TailMem.latches, Latches.see, EveEvent.isTurnCancelled,
      EveEvent.reply?, hsaw]
  case true.messageCompleted finishReason message =>
    cases message with
    | none => rfl
    | some text =>
      by_cases h : finishReason = "stop" <;> simp [h]
  case false.messageCompleted finishReason message => cases message <;> rfl

theorem confirmBoundary_alone (hm : x.Alone m) (hw : x.Recorded k w)
    (hk : k ≤ x.events.length) (ev : EveEvent) :
    (confirmBoundary ev).Sat (Answers.of StoreOp.exec) (fun _ w' => x.Left w') m w
      (fun res m' w' => res = .ok () ∧ m' = m ∧ w' = w) := by
  have hrefresh := refreshObligations_alone hm hw hk none (fun c hc => by cases hc)
  have hthen : ∀ f : TailMem → Tail Unit,
      ((f m).Sat (Answers.of StoreOp.exec) (fun _ w' => x.Left w') m w
        (fun res m' w' => res = .ok () ∧ m' = m ∧ w' = w)) →
      (do refreshObligations none; let m ← getMem; f m : Tail Unit).Sat
        (Answers.of StoreOp.exec) (fun _ w' => x.Left w') m w
        (fun res m' w' => res = .ok () ∧ m' = m ∧ w' = w) := by
    intro f hf
    refine hrefresh.bind ?_ ?_
    · rintro - m' w' ⟨-, rfl, rfl⟩
      rw [Proc.sat_bind, sat_getMem]
      exact hf
    · rintro err m' w' ⟨h, -⟩
      cases h
  cases ev with
  | turnCancelled turnId =>
    refine hthen _ ?_
    rw [hm.obligations]
    exact ⟨rfl, rfl, rfl⟩
  | turnCompleted turnId =>
    refine hthen _ ?_
    rw [hm.obligations]
    exact ⟨rfl, rfl, rfl⟩
  | sessionWaiting =>
    refine hthen _ ?_
    rw [hm.obligations]
    exact ⟨rfl, rfl, rfl⟩
  | sessionCompleted =>
    refine hthen _ ?_
    rw [hm.obligations]
    exact ⟨rfl, rfl, rfl⟩
  | sessionFailed code message =>
    refine hthen _ ?_
    rw [hm.obligations]
    exact ⟨rfl, rfl, rfl⟩
  | _ => exact ⟨rfl, rfl, rfl⟩

/-- The run's row has left `queued` and `running`. -/
def Ended (x : Solo) (w : World) : Prop :=
  ∃ row, w.db.run? x.r = some row ∧ row.status ≠ .queued ∧ row.status ≠ .running

theorem Recorded.ended (h : x.Recorded k w) (patch : RunStatusPatch)
    (hq : patch.status ≠ .queued) (hr : patch.status ≠ .running) :
    x.Ended { w with db := (w.db.markRun x.r patch).2 } := by
  obtain ⟨row, hrow, -⟩ := h.row
  rw [h.markRun]
  refine ⟨Db.applyPatch patch row, ?_, hq, hr⟩
  have hrun := Db.run?_updateRun w.db x.r (f := Db.applyPatch patch) (fun _ => rfl) x.r
  rw [if_pos rfl, hrow] at hrun
  exact hrun

theorem classifyTerminal_status {ev : EveEvent} {context : TerminalContext}
    {d : TerminalDecision} (h : classifyTerminal ev context = some d) :
    d.runStatus ≠ .queued ∧ d.runStatus ≠ .running := by
  cases ev <;> simp only [classifyTerminal, reduceCtorEq, Option.some.injEq] at h
  case sessionWaiting =>
    split at h
    · cases h
      exact ⟨by decide, by decide⟩
    · split at h <;> cases h <;> exact ⟨by decide, by decide⟩
  all_goals
    subst h
    exact ⟨by simp, by simp⟩

/-- The terminal transition of a run that is still live. -/
theorem finishRun_alone (hrun : m.runId = x.r) (hs : m.seized = false)
    (hfin : m.finished = false) (hw : x.Recorded k w) (hk : k ≤ x.events.length)
    {status : RunStatus} (hq : status ≠ .queued) (hr : status ≠ .running)
    (sessionStatus : AgentSessionStatus) (error : Option String)
    {Q : Except TailError Bool → TailMem → World → Prop}
    (hQ : ∀ m' w', m'.phase = m.phase → m'.finishedAs = some (status, m.lastAssistantMessage) →
      x.Ended w' → Q (.ok true) m' w') :
    (finishRun status (some sessionStatus) error none).Sat (Answers.of StoreOp.exec)
      (fun _ w' => x.Left w') m w Q := by
  unfold finishRun
  rw [Proc.sat_bind, sat_getMem]
  simp only [hfin, Bool.false_eq_true, if_false]
  rw [Proc.sat_bind, sat_setMem]
  simp only
  rw [Proc.sat_bind, sat_statement_of (by exact hs)]
  refine ⟨Or.inl ⟨k, hk, hw⟩, ?_⟩
  have hended := hw.ended { RunStatusPatch.ofStatus status with
    error := some error
    completedAt := if status = .waiting then none else some m.now
    remoteCancelPendingAt := none } hq hr
  have hmark : (w.db.markRun m.runId { RunStatusPatch.ofStatus status with
      error := some error
      completedAt := if status = .waiting then none else some m.now
      remoteCancelPendingAt := none }).1 = true := by
    rw [hrun, hw.markRun]
  rw [← hrun] at hended
  simp only [StoreOp.exec, Option.getD_none]
  rw [hmark]
  simp only [if_true]
  rw [Proc.sat_bind, sat_statement_of (by exact hs)]
  refine ⟨Or.inr hended, ?_⟩
  simp only [StoreOp.exec]
  rw [Proc.sat_bind, sat_setMem]
  exact hQ _ _ rfl rfl hended

/-- What follows the persist of an event that is no opening: the latches see it, and a
session boundary settles the run. -/
theorem afterPersist_alone (hm : x.Alone m) (hw : x.Recorded k w) (hk : k ≤ x.events.length)
    {Q : Except TailError Bool → TailMem → World → Prop}
    (hcont : (m.latches.see e.event).verdict e.event = none → Q (.ok false) (m.latch e.event) w)
    (hend : ∀ v m' w', (m.latches.see e.event).verdict e.event = some v →
      m'.phase = m.phase → m'.finishedAs = some v → x.Ended w' → Q (.ok true) m' w') :
    (afterPersist e).Sat (Answers.of StoreOp.exec) (fun _ w' => x.Left w') m w Q := by
  have hm' : x.Alone (m.latch e.event) :=
    ⟨hm.runId, hm.mode, hm.closed, hm.seized, hm.finished, hm.detaching, hm.obligations,
      hm.ownMessageHash, hm.finishedAs, hm.ownTurn⟩
  unfold afterPersist
  rw [Proc.sat_bind, sat_setMem]
  simp only
  refine (confirmBoundary_alone hm' hw hk e.event).bind ?_ ?_
  · rintro - m₁ w₁ ⟨-, rfl, rfl⟩
    rw [Proc.sat_bind, sat_getMem]
    simp only [hm'.mode]
    rw [if_neg (by simp)]
    have hclass : (m.latch e.event).classify e.event = (m.latches.see e.event).classify e.event := by
      rw [← TailMem.latches_latch]
      rfl
    cases hc : (m.latch e.event).classify e.event with
    | none =>
      refine hcont ?_
      rw [Latches.verdict, ← hclass, hc]
      rfl
    | some d =>
      have hv : (m.latches.see e.event).verdict e.event =
          some (d.runStatus, (m.latch e.event).lastAssistantMessage) := by
        rw [Latches.verdict, ← hclass, hc, ← TailMem.latches_latch]
        rfl
      have hst : d.runStatus ≠ .queued ∧ d.runStatus ≠ .running := by
        unfold TailMem.classify at hc
        split at hc
        · exact classifyTerminal_status hc
        · cases hc
      simp only
      rw [Proc.sat_bind, sat_setMem]
      simp only
      rw [Proc.sat_bind]
      refine finishRun_alone (by exact hm.runId) (by exact hm.seized) (by exact hm.finished) hw hk
        hst.1 hst.2 _ _ ?_
      intro m' w' hph hfin hended
      exact hend _ m' w' hv hph hfin hended
  · rintro err m' w' ⟨h, -⟩
    cases h

theorem ownTurn_of_opens {i : Nat} {turnId : TurnId}
    (ht : x.kinds[i]? = some (.turnStarted turnId))
    (hopen : opensOwn x.hash (x.kinds.drop i) = true) : x.OwnTurn turnId := by
  intro j hj _
  rw [x.order.once j i turnId hj ht]
  exact hopen

theorem opensOwn_drop {i : Nat} {turnId : TurnId} {next : EveEvent}
    (ht : x.kinds[i]? = some (.turnStarted turnId)) (hn : x.kinds[i + 1]? = some next) :
    opensOwn x.hash (x.kinds.drop i) = (openingContent turnId next == x.hash) := by
  obtain ⟨hi, hti⟩ := List.getElem?_eq_some_iff.mp ht
  obtain ⟨hi', hni⟩ := List.getElem?_eq_some_iff.mp hn
  rw [List.drop_eq_getElem_cons hi, List.drop_eq_getElem_cons hi', hti, hni]
  rfl

theorem persistHeld_alone (h : x.Reads k₀ o s m w) {held : EveStreamEvent} {turnId : TurnId}
    (hheld : x.events[s]? = some held) (ht : held.event = .turnStarted turnId)
    (he : x.events[s + 1]? = some e)
    {Q : Except TailError Unit → TailMem → World → Prop}
    (hQ : ∀ m' w', x.Reads k₀ o (s + 1) m' w' → m'.phase = m.phase → m'.held = none →
      Q (.ok ()) m' w') :
    (persistHeld ⟨held, turnId, false⟩ (openingContent turnId e.event)).Sat
      (Answers.of StoreOp.exec) (fun _ w' => x.Left w') m w Q := by
  have hk := kinds_getElem? hheld
  rw [ht] at hk
  have hopens := opensOwn_drop hk (kinds_getElem? he)
  have hlen : s + 1 < x.kinds.length := (List.getElem?_eq_some_iff.mp (kinds_getElem? he)).1
  have hiff : opensOwn x.hash (x.kinds.drop s) = true ↔
      openingContent turnId e.event = x.hash := by
    rw [hopens, beq_iff_eq]
  -- from the attribution on: persist, then the latches start over if the turn is own
  have hrest : ∀ (a : TurnAttribution) (m₁ : TailMem) (w₁ : World), x.Reads k₀ o s m₁ w₁ →
      m₁.phase = m.phase →
      (a = .own ∧ opensOwn x.hash (x.kinds.drop s) = true ∧ x.Attributed w₁ ∨
        a = .foreign ∧ opensOwn x.hash (x.kinds.drop s) = false) →
      (do
        persist held false
        setMem fun m => ({ m with held := none } : TailMem).applyAttribution a : Tail Unit).Sat
        (Answers.of StoreOp.exec) (fun _ w' => x.Left w') m₁ w₁ Q := by
    intro a m₁ w₁ h₁ hph₁ ha
    rw [Proc.sat_bind]
    refine persist_alone h₁ hheld ?_ ?_
    · intro hopen
      rcases ha with ⟨-, -, hatt⟩ | ⟨-, hno⟩
      · exact hatt
      · rw [hno] at hopen
        cases hopen
    · intro m₂ w₂ ha₂ hrec₂ hknown₂ hseq₂ hstart₂ hseen₂ hlat₂ hph₂ _
      simp only
      rw [sat_setMem]
      have hstep := h₁.after_succ hheld
      rw [ht, Latches.step, Latches.see_turnStarted] at hstep
      refine hQ _ _ ⟨?_, hrec₂, ?_, h₁.start.trans (Nat.le_succ s), by
        rw [← List.length_map (f := EveStreamEvent.event)]; exact hlen.le, ?_, ?_, ?_, ?_⟩ ?_ ?_
      · rcases ha with ⟨rfl, -⟩ | ⟨rfl, -⟩ <;>
          exact ⟨ha₂.runId, ha₂.mode, ha₂.closed, ha₂.seized, ha₂.finished, ha₂.detaching,
            ha₂.obligations, ha₂.ownMessageHash, ha₂.finishedAs, ha₂.ownTurn⟩
      · rcases ha with ⟨rfl, -⟩ | ⟨rfl, -⟩ <;> exact hknown₂
      · rcases ha with ⟨rfl, -⟩ | ⟨rfl, -⟩ <;> exact hseq₂
      · rcases ha with ⟨rfl, -⟩ | ⟨rfl, -⟩ <;> exact hstart₂
      · rcases ha with ⟨rfl, -⟩ | ⟨rfl, -⟩ <;> exact hseen₂
      · rw [hstep]
        rcases ha with ⟨rfl, hopen, -⟩ | ⟨rfl, hno⟩
        · rw [if_pos hopen, ← hlat₂]
          rfl
        · rw [hno, if_neg Bool.false_ne_true, ← hlat₂]
          rfl
      · rcases ha with ⟨rfl, -⟩ | ⟨rfl, -⟩ <;> exact hph₂.trans hph₁
      · rcases ha with ⟨rfl, -⟩ | ⟨rfl, -⟩ <;> rfl
  unfold persistHeld
  rw [Proc.sat_bind]
  refine attributeTurn_alone h.alone h.recorded h.le ?_ ?_ ?_ ?_
  · intro hown
    have hT := h.alone.ownTurn turnId hown s hk hlen
    exact ⟨hiff.mp hT, h.known (by rw [hown]; rfl)⟩
  · intro hc
    exact ⟨ownTurn_of_opens hk (hiff.mpr hc),
      sinceOwn_isSome_iff.mpr ⟨s, Nat.lt_succ_self s, hiff.mpr hc⟩⟩
  · intro hc w₁ hrec₁ hatt₁
    refine hrest .own _ w₁ ?_ rfl (Or.inl ⟨rfl, hiff.mpr hc, hatt₁⟩)
    refine ⟨?_, hrec₁, fun _ => hatt₁, h.start, h.le, h.seq, h.startIndex, h.seen, h.latches⟩
    refine ⟨h.alone.runId, h.alone.mode, h.alone.closed, h.alone.seized, h.alone.finished,
      h.alone.detaching, h.alone.obligations, h.alone.ownMessageHash, h.alone.finishedAs, ?_⟩
    intro turnId' ht'
    cases ht'
    exact ownTurn_of_opens hk (hiff.mpr hc)
  · intro hc
    refine hrest .foreign m w h rfl (Or.inr ⟨rfl, ?_⟩)
    rw [← Bool.not_eq_true]
    exact fun hopen => hc (hiff.mp hopen)

/-- The next event, an opening excepted: persisted, seen by the latches, classified. -/
theorem persist_afterPersist_alone (h : x.Reads k₀ o s m w) (he : x.events[s]? = some e)
    (hno : ∀ turnId, e.event ≠ .turnStarted turnId)
    {Q : Except TailError Bool → TailMem → World → Prop}
    (hcont : ((Latches.resumed o).after x.hash (s + 1 - k₀) (x.kinds.drop k₀)).verdict
      e.event = none → ∀ m' w', x.Reads k₀ o (s + 1) m' w' → m'.phase = m.phase →
        m'.held = m.held → Q (.ok false) m' w')
    (hend : ∀ v m' w', ((Latches.resumed o).after x.hash (s + 1 - k₀)
      (x.kinds.drop k₀)).verdict e.event = some v → m'.phase = m.phase →
        m'.finishedAs = some v → x.Ended w' → Q (.ok true) m' w') :
    (do persist e false; afterPersist e : Tail Bool).Sat (Answers.of StoreOp.exec)
      (fun _ w' => x.Left w') m w Q := by
  have hk : s + 1 ≤ x.events.length := (List.getElem?_eq_some_iff.mp he).1
  have hopen : opensOwn x.hash (x.kinds.drop s) = false := by
    rw [← Bool.not_eq_true]
    intro hopen
    obtain ⟨hs, hv⟩ := List.getElem?_eq_some_iff.mp (kinds_getElem? he)
    rw [List.drop_eq_getElem_cons hs, hv] at hopen
    obtain ⟨turnId, ht⟩ := opensOwn_turnStarted hopen
    exact hno turnId ht
  have hstep := h.after_succ he
  rw [Latches.step, hopen, if_neg Bool.false_ne_true] at hstep
  rw [hstep] at hcont hend
  rw [Proc.sat_bind]
  refine persist_alone h he (fun ho => by rw [hopen] at ho; cases ho) ?_
  intro m₁ w₁ ha₁ hrec₁ hknown₁ hseq₁ hstart₁ hseen₁ hlat₁ hph₁ hheld₁
  simp only
  refine afterPersist_alone ha₁ hrec₁ hk ?_ ?_
  · intro hv
    rw [hlat₁] at hv
    refine hcont hv _ _ ⟨?_, hrec₁, hknown₁, h.start.trans (Nat.le_succ s), hk, hseq₁, hstart₁,
      hseen₁, ?_⟩ hph₁ hheld₁
    · exact ⟨ha₁.runId, ha₁.mode, ha₁.closed, ha₁.seized, ha₁.finished, ha₁.detaching,
        ha₁.obligations, ha₁.ownMessageHash, ha₁.finishedAs, ha₁.ownTurn⟩
    · rw [TailMem.latches_latch, hlat₁, hstep]
  · intro v m' w' hv hph hfin hended
    rw [hlat₁] at hv
    exact hend v m' w' hv (hph.trans hph₁) hfin hended

/-- The reader before the event at `j`: nothing held and everything before recorded, or the
event before is an opening it holds. -/
def At (x : Solo) (k₀ : Nat) (o : Bool) (j : Nat) (m : TailMem) (w : World) : Prop :=
  (x.Reads k₀ o j m w ∧ m.held = none ∧
      ∀ i turnId, j = i + 1 → k₀ ≤ i → x.kinds[i]? ≠ some (.turnStarted turnId)) ∨
    ∃ s held turnId, j = s + 1 ∧ x.Reads k₀ o s m w ∧ x.events[s]? = some held ∧
      held.event = .turnStarted turnId ∧ m.held = some ⟨held, turnId, false⟩

/-- What reading the event `e` at `j` comes to: the verdict, or the next event. -/
def Consumed (x : Solo) (k₀ : Nat) (o : Bool) (j : Nat) (e : EveStreamEvent)
    (ph : Phase) (r : Except TailError Bool) (m : TailMem) (w : World) : Prop :=
  m.phase = ph ∧
    match ((Latches.resumed o).after x.hash (j + 1 - k₀) (x.kinds.drop k₀)).verdict e.event with
    | none => r = .ok false ∧ x.At k₀ o (j + 1) m w
    | some v => r = .ok true ∧ m.finishedAs = some v ∧ x.Ended w

theorem Latches.verdict_turnStarted (y : Latches) (turnId : TurnId) :
    y.verdict (.turnStarted turnId) = none := by
  unfold Latches.verdict Latches.classify
  split <;> rfl

/-- `persist` and `afterPersist` of an event that is no opening, nothing held. -/
theorem consume_plain {j : Nat} (h : x.Reads k₀ o j m w) (hheld : m.held = none)
    (he : x.events[j]? = some e) (hno : ∀ turnId, e.event ≠ .turnStarted turnId) {ph : Phase}
    (hph : m.phase = ph) {dup : Bool} (hdup : dup = false) :
    (do persist e dup; afterPersist e : Tail Bool).Sat (Answers.of StoreOp.exec)
      (fun _ w' => x.Left w') m w (x.Consumed k₀ o j e ph) := by
  subst hdup
  refine persist_afterPersist_alone h he hno ?_ ?_
  · intro hv m' w' h' hph' hheld'
    refine ⟨hph'.trans hph, ?_⟩
    rw [hv]
    refine ⟨rfl, Or.inl ⟨h', hheld'.trans hheld, ?_⟩⟩
    intro i turnId hi _ ht
    obtain rfl : j = i := by omega
    rw [kinds_getElem? he, Option.some.injEq] at ht
    exact hno turnId ht
  · intro v m' w' hv hph' hfin hended
    refine ⟨hph'.trans hph, ?_⟩
    rw [hv]
    exact ⟨rfl, hfin, hended⟩

theorem consumeEvent_alone {j : Nat} (ho : (sinceOwn x.hash k₀ x.kinds).isSome = true → o = true)
    (h : x.At k₀ o j m w) (he : x.events[j]? = some e) :
    (consumeEvent e).Sat (Answers.of StoreOp.exec) (fun _ w' => x.Left w') m w
      (x.Consumed k₀ o j e m.phase) := by
  have halone : x.Alone m := by
    rcases h with ⟨h, -⟩ | ⟨s, held, turnId, -, h, -⟩ <;> exact h.alone
  have hdup : m.isDuplicate e = false := by
    rcases h with ⟨h, -⟩ | ⟨s, held, turnId, rfl, h, -⟩
    · exact h.isDuplicate (Nat.le_refl j) he
    · exact h.isDuplicate (Nat.le_succ s) he
  -- the opening becomes the held one
  have hold : ∀ (m₁ : TailMem) (w₁ : World) (turnId : TurnId), e.event = .turnStarted turnId →
      x.Reads k₀ o j m₁ w₁ → m₁.phase = m.phase →
      x.Consumed k₀ o j e m.phase (.ok false)
        { m₁ with held := some ⟨e, turnId, m.isDuplicate e⟩ } w₁ := by
    intro m₁ w₁ turnId ht h₁ hph₁
    refine ⟨hph₁, ?_⟩
    rw [ht, Latches.verdict_turnStarted]
    refine ⟨rfl, Or.inr ⟨j, e, turnId, rfl, ?_, he, ht, by rw [hdup]⟩⟩
    refine ⟨?_, h₁.recorded, h₁.known, h₁.start, h₁.le, h₁.seq, h₁.startIndex, h₁.seen,
      h₁.latches⟩
    exact ⟨h₁.alone.runId, h₁.alone.mode, h₁.alone.closed, h₁.alone.seized, h₁.alone.finished,
      h₁.alone.detaching, h₁.alone.obligations, h₁.alone.ownMessageHash, h₁.alone.finishedAs,
      h₁.alone.ownTurn⟩
  unfold consumeEvent
  rw [Proc.sat_bind, sat_getMem]
  simp only [halone.closed]
  rw [if_neg Bool.false_ne_true]
  -- behind a held opening: record it, then the event itself
  have behind : ∀ (held : EveStreamEvent) (turnId : TurnId) (s : Nat), j = s + 1 →
      x.Reads k₀ o s m w → x.events[s]? = some held → held.event = .turnStarted turnId →
      (∀ turnId, e.event ≠ .turnStarted turnId) →
      (do
        persistHeld ⟨held, turnId, false⟩ (openingContent turnId e.event)
        let m' ← getMem
        if m'.mode = .observe ∧ m'.observationClosed = true then pure true
        else do
          persist e (m.isDuplicate e)
          afterPersist e : Tail Bool).Sat (Answers.of StoreOp.exec) (fun _ w' => x.Left w') m w
        (x.Consumed k₀ o j e m.phase) := by
    rintro held turnId s rfl h hheld ht hno
    rw [Proc.sat_bind]
    refine persistHeld_alone h hheld ht he ?_
    intro m₁ w₁ h₁ hph₁ hheld₁
    simp only
    rw [Proc.sat_bind, sat_getMem]
    simp only [h₁.alone.mode]
    rw [if_neg (by simp)]
    exact consume_plain h₁ hheld₁ he hno hph₁ hdup
  split
  · rename_i turnId hev
    rcases h with ⟨h, hheld, -⟩ | ⟨s, held, turnId', rfl, h, hheld, ht, hm⟩
    · rw [hheld, Proc.sat_bind]
      exact hold m w turnId hev h rfl
    · rw [hm, Proc.sat_bind]
      have hc : openingContent turnId' e.event = none := by rw [hev]; rfl
      rw [← hc]
      refine persistHeld_alone h hheld ht he ?_
      intro m₁ w₁ h₁ hph₁ _
      exact hold m₁ w₁ turnId hev h₁ hph₁
  · rename_i turnId message hev
    have hno : ∀ turnId', e.event ≠ .turnStarted turnId' := by
      intro turnId' ht
      rw [hev] at ht
      cases ht
    rcases h with ⟨h, hheld, hprev⟩ | ⟨s, held, turnId', hj, h, hheld, ht, hm⟩
    · rw [hheld]
      simp only
      -- the first event of a resumed tail, its opening recorded before the death
      have hke := kinds_getElem? he
      rw [hev] at hke
      obtain ⟨i, rfl, hopening⟩ := x.order.message j turnId message hke
      have hi : i < k₀ := by
        by_contra hle
        exact hprev i turnId rfl (Nat.le_of_not_lt hle) hopening
      obtain rfl : k₀ = i + 1 := by have := h.start; omega
      have hlat : m.latches = Latches.resumed o := by
        rw [h.latches, Nat.sub_self]
        rfl
      have hopens : opensOwn x.hash (x.kinds.drop i) = true ↔
          some (hashTurnMessage message) = x.hash := by
        rw [opensOwn_drop hopening hke, beq_iff_eq]
        simp [openingContent]
      have hopenT := fun hc => ownTurn_of_opens hopening (hopens.mpr hc)
      have hsince := fun hc => sinceOwn_isSome_iff.mpr
        ⟨i, Nat.lt_succ_self i, hopens.mpr hc⟩
      rw [Proc.sat_bind]
      split
      · rw [Proc.sat_pure]
        exact consume_plain h hheld he hno rfl hdup
      · rw [Proc.sat_bind]
        refine attributeTurn_alone h.alone h.recorded h.le ?_ ?_ ?_ ?_
        · intro hown
          rename_i hunknown
          simp [TailMem.isKnownTurn, hown] at hunknown
        · intro hc
          refine ⟨hopenT hc, sinceOwn_isSome_iff.mpr ⟨i, by omega, hopens.mpr hc⟩⟩
        · intro hc w₁ hrec₁ hatt₁
          simp only
          rw [sat_setMem]
          refine consume_plain ?_ (by exact hheld) he hno (by rfl) hdup
          refine ⟨?_, hrec₁, fun _ => hatt₁, h.start, h.le, h.seq, h.startIndex, h.seen, ?_⟩
          · refine ⟨h.alone.runId, h.alone.mode, h.alone.closed, h.alone.seized,
              h.alone.finished, h.alone.detaching, h.alone.obligations, h.alone.ownMessageHash,
              h.alone.finishedAs, ?_⟩
            intro turnId' ht'
            cases ht'
            exact hopenT hc
          · rw [Nat.sub_self, ho (hsince hc)]
            have hlast : m.lastAssistantMessage = none :=
              congrArg Latches.lastAssistantMessage hlat
            simp [TailMem.latches, TailMem.applyAttribution, hlast, Latches.after,
              Latches.resumed]
        · intro hc
          simp only
          rw [sat_setMem]
          exact consume_plain h hheld he hno rfl hdup
    · rw [hm]
      simp only
      have hc : openingContent turnId' e.event =
          if turnId = turnId' then some (hashTurnMessage message) else none := by
        rw [hev]
        rfl
      rw [← hc]
      exact behind held turnId' s hj h hheld ht hno
  · rename_i hnot hnom
    have hno : ∀ turnId', e.event ≠ .turnStarted turnId' := hnot
    rcases h with ⟨h, hheld, -⟩ | ⟨s, held, turnId', hj, h, hheld, ht, hm⟩
    · rw [hheld]
      exact consume_plain h hheld he hno rfl hdup
    · rw [hm]
      simp only
      have hc : openingContent turnId' e.event = none := by
        unfold openingContent
        split
        · rename_i t msg hmsg
          exact absurd hmsg (hnom t msg)
        · rfl
      rw [← hc]
      exact behind held turnId' s hj h hheld ht hno

/-- The memory without what `Reads` does not look at. -/
def TailMem.bare (m : TailMem) : TailMem :=
  { m with
    phase := .opening
    busy := false
    held := none
    requestTailIndex := false
    attempt := 0
    consumedThisConnect := 0
    statuses := [] }

theorem Reads.congr {m' : TailMem} (h : x.Reads k₀ o s m w)
    (hm : TailMem.bare m' = TailMem.bare m) : x.Reads k₀ o s m' w := by
  have hown : m'.ownTurnId = m.ownTurnId := by
    have := congrArg TailMem.ownTurnId hm
    exact this
  refine ⟨⟨?_, ?_, ?_, ?_, ?_, ?_, ?_, ?_, ?_, ?_⟩, h.recorded, ?_, h.start, h.le, ?_, ?_, ?_, ?_⟩
  · exact (congrArg TailMem.runId hm).trans h.alone.runId
  · exact (congrArg TailMem.mode hm).trans h.alone.mode
  · exact (congrArg TailMem.closed hm).trans h.alone.closed
  · exact (congrArg TailMem.seized hm).trans h.alone.seized
  · exact (congrArg TailMem.finished hm).trans h.alone.finished
  · exact (congrArg TailMem.detaching hm).trans h.alone.detaching
  · exact (congrArg TailMem.obligations hm).trans h.alone.obligations
  · exact (congrArg TailMem.ownMessageHash hm).trans h.alone.ownMessageHash
  · exact (congrArg TailMem.finishedAs hm).trans h.alone.finishedAs
  · exact fun turnId ht => h.alone.ownTurn turnId (hown ▸ ht)
  · exact fun hsome => h.known (hown ▸ hsome)
  · exact (congrArg TailMem.seq hm).trans h.seq
  · exact (congrArg TailMem.startIndex hm).trans h.startIndex
  · exact (congrArg TailMem.seenEventIds hm).trans h.seen
  · exact (congrArg TailMem.latches hm).trans h.latches

theorem At.congr {j : Nat} (h : x.At k₀ o j m w) (m' : TailMem)
    (hm : TailMem.bare m' = TailMem.bare m) (hheld : m'.held = m.held) :
    x.At k₀ o j m' w := by
  rcases h with ⟨h, hh, hprev⟩ | ⟨s, held, turnId, hj, h, he, ht, hh⟩
  · exact Or.inl ⟨h.congr hm, hheld.trans hh, hprev⟩
  · exact Or.inr ⟨s, held, turnId, hj, h.congr hm, he, ht, hheld.trans hh⟩

/-- The reader between two lines. -/
def Follows (x : Solo) (k₀ : Nat) (o : Bool) (j : Nat) (m : TailMem) (w : World) : Prop :=
  m.phase = .reading (x.base.length + j) ∧ x.At k₀ o j m w

/-- The run is settled with the verdict `v` and the tail is gone. -/
def Settled (x : Solo) (v : RunStatus × Option String) (m : TailMem) (w : World) : Prop :=
  m.phase = .exited ∧ m.finishedAs = some v ∧ x.Ended w

theorem consumeLine_alone {j : Nat}
    (ho : (sinceOwn x.hash k₀ x.kinds).isSome = true → o = true)
    (h : x.Follows k₀ o j m w) (he : x.events[j]? = some e) :
    (consumeLine (x.base.length + j) (some e)).Sat (Answers.of StoreOp.exec)
      (fun _ w' => x.Left w') m w
      (fun _ m' w' =>
        match ((Latches.resumed o).after x.hash (j + 1 - k₀) (x.kinds.drop k₀)).verdict
          e.event with
        | none => x.Follows k₀ o (j + 1) m' w'
        | some v => x.Settled v m' w') := by
  show (backstop (Proc.handle _ _)).Sat _ _ m w _
  unfold backstop
  rw [Proc.sat_handle, Proc.sat_handle, Proc.sat_bind, sat_setMem]
  simp only
  rw [Proc.sat_bind]
  refine (consumeEvent_alone ho (h.2.congr { m with
    phase := .reading (x.base.length + j + 1), busy := true } rfl rfl) he).mono ?_
  rintro r m₁ w₁ ⟨hph, hrest⟩
  cases hv : ((Latches.resumed o).after x.hash (j + 1 - k₀) (x.kinds.drop k₀)).verdict
      e.event with
  | none =>
    rw [hv] at hrest
    obtain ⟨rfl, hat⟩ := hrest
    exact ⟨hph, hat.congr _ rfl rfl⟩
  | some v =>
    rw [hv] at hrest
    obtain ⟨rfl, hfin, hended⟩ := hrest
    exact ⟨rfl, hfin, hended⟩

/-! ## The start of a tail on a recorded stretch -/

/-- Without a recorded own opening the recovery finds none. -/
theorem recoverOwnTurn_none (hk : (sinceOwn x.hash k x.kinds).isSome = false)
    (before rest : List EveStreamEvent) (hsplit : x.events.take k = before ++ rest) :
    recoverOwnTurn x.hash [] rest none = none := by
  have hno : ∀ i < k, opensOwn x.hash (x.kinds.drop i) = false := by
    intro i hi
    rw [← Bool.not_eq_true]
    intro hopen
    rw [sinceOwn_isSome_iff.mpr ⟨i, hi, hopen⟩] at hk
    cases hk
  have hat : ∀ (before rest : List EveStreamEvent) (e : EveStreamEvent),
      x.events.take k = before ++ e :: rest →
        before.length < k ∧ x.kinds[before.length]? = some e.event := by
    intro before rest e hsplit
    have hlen : before.length < (x.events.take k).length := by
      rw [hsplit, List.length_append, List.length_cons]
      omega
    have hget : (x.events.take k)[before.length]? = some e := by rw [hsplit]; simp
    rw [List.length_take] at hlen
    rw [List.getElem?_take, if_pos (by omega)] at hget
    exact ⟨by omega, kinds_getElem? hget⟩
  induction rest generalizing before with
  | nil => rfl
  | cons e rest ih =>
    obtain ⟨hlt, hget⟩ := hat _ _ _ hsplit
    have hrest := ih (before ++ [e]) (by rw [hsplit, List.append_assoc]; rfl)
    rw [recoverOwnTurn]
    cases hev : e.event with
    | messageReceived turnId message =>
      rw [hev] at hget
      obtain ⟨i, hi, hopening⟩ := x.order.message _ turnId message hget
      have hclosed := hno i (by omega)
      rw [opensOwn_drop hopening (hi ▸ hget)] at hclosed
      have hne : (some (hashTurnMessage message) == x.hash) = false := by
        rw [← hclosed]
        simp [openingContent]
      simp only [hne, Bool.and_false]
      exact hrest
    | turnStarted turnId =>
      rw [hev] at hget
      cases hh : x.hash with
      | some hash =>
        rw [hh] at hrest
        simpa using hrest
      | none =>
        rw [hh] at hrest
        cases rest with
        | nil => simp [recoverOwnTurn]
        | cons next rest =>
          -- the event behind the opening is its message: the turn has content
          obtain ⟨hlt', hget'⟩ := hat (before ++ [e]) rest next
            (by rw [hsplit, List.append_assoc]; rfl)
          rw [List.length_append, List.length_singleton] at hget'
          have hclosed := hno before.length hlt
          rw [opensOwn_drop hget hget', hh] at hclosed
          have hmsg : ∃ message, next.event = .messageReceived turnId message := by
            cases hn : next.event with
            | messageReceived turnId' message =>
              by_cases ht : turnId' = turnId
              · exact ⟨message, by rw [ht]⟩
              · rw [hn] at hclosed
                simp [openingContent, ht] at hclosed
            | _ =>
              rw [hn] at hclosed
              cases hclosed
          obtain ⟨message, hmsg⟩ := hmsg
          simpa [hmsg] using hrest
    | _ => exact hrest

/-- The preamble of a live run's tail: the own turn is known from the row, or not at all. -/
theorem preambleFollow_alone (hm : x.Alone m) (hw : x.Recorded k w) (hk : k ≤ x.events.length)
    (hknown : (sinceOwn x.hash k x.kinds).isSome = true → m.ownTurnId.isSome = true)
    {Q : Except TailError Bool → TailMem → World → Prop}
    (hQ : ∀ m' w', TailMem.bare m' =
        TailMem.bare { m with sawOwnTurn := m.ownTurnId.isSome, obligations := [] } →
      m'.phase = m.phase → m'.requestTailIndex = m.requestTailIndex → x.Recorded k w' →
      (x.Attributed w → x.Attributed w') → Q (.ok true) m' w') :
    preambleFollow.Sat (Answers.of StoreOp.exec) (fun _ w' => x.Left w') m w Q := by
  have hleft : x.Left w := Or.inl ⟨k, hk, hw⟩
  unfold preambleFollow
  rw [Proc.sat_bind, sat_setMem]
  simp only [hm.obligations, List.filter_nil]
  rw [Proc.sat_bind, sat_getMem]
  simp only
  have hrecover : ∀ (m' : TailMem) {Q : Except TailError Unit → TailMem → World → Prop},
      m'.closed = false → Q (.ok ()) m' w →
      (recoverPersistedTurns []).Sat (Answers.of StoreOp.exec) (fun _ w' => x.Left w') m' w Q := by
    intro m' Q hc hQ
    unfold recoverPersistedTurns
    rw [Proc.sat_bind, sat_getMem]
    simp only [hc]
    rw [if_neg Bool.false_ne_true]
    exact hQ
  rw [Proc.sat_bind]
  refine hrecover _ hm.closed ?_
  simp only
  rw [Proc.sat_bind, sat_setMem]
  simp only
  rw [Proc.sat_bind, sat_getMem]
  simp only
  -- from the adoption of the row on
  have hadopt : ∀ m' : TailMem, TailMem.bare m' =
        TailMem.bare { m with sawOwnTurn := m.ownTurnId.isSome, obligations := [] } →
      m'.phase = m.phase → m'.requestTailIndex = m.requestTailIndex →
      (do
        let m ← getMem
        if m.closed then pure false
        else do
          let adopted ← statement (.markRun m.runId
            { RunStatusPatch.ofStatus .running with
              startedAt := if m.seq = 0 then some m.now else none })
          if adopted then do
            setMem fun m => { m with statuses := m.statuses ++ [.running] }
            pure true
          else do
            setMem fun m => { m with finished := true }.close
            pure false : Tail Bool).Sat (Answers.of StoreOp.exec) (fun _ w' => x.Left w') m' w Q := by
    intro m' hbare hph hreq
    have hclosed : m'.closed = false := (congrArg TailMem.closed hbare).trans hm.closed
    have hseized : m'.seized = false := (congrArg TailMem.seized hbare).trans hm.seized
    have hrun : m'.runId = x.r := (congrArg TailMem.runId hbare).trans hm.runId
    rw [Proc.sat_bind, sat_getMem]
    simp only [hclosed]
    rw [if_neg Bool.false_ne_true, Proc.sat_bind, sat_statement_of hseized]
    refine ⟨hleft, ?_⟩
    simp only [StoreOp.exec, hrun]
    rw [hw.markRun]
    simp only [if_true]
    rw [Proc.sat_bind, sat_setMem]
    have hrec := hw.markRunning (if m'.seq = 0 then some m'.now else none)
    rw [hw.markRun] at hrec
    refine hQ _ _ hbare hph hreq hrec ?_
    rintro ⟨row, hrow, hsome⟩
    refine ⟨Db.applyPatch { RunStatusPatch.ofStatus .running with
      startedAt := if m'.seq = 0 then some m'.now else none } row, ?_, hsome⟩
    have hru := Db.run?_updateRun w.db x.r (f := Db.applyPatch
      { RunStatusPatch.ofStatus .running with
        startedAt := if m'.seq = 0 then some m'.now else none }) (fun _ => rfl) x.r
    rw [if_pos rfl, hrow] at hru
    exact hru
  rw [Proc.sat_bind]
  split
  · rename_i hcond
    rw [Proc.sat_bind, sat_statement_of (by exact hm.seized)]
    refine ⟨hleft, ?_⟩
    simp only [StoreOp.exec]
    rw [Proc.sat_bind, sat_getMem]
    simp only [List.map_nil]
    have hnone : (sinceOwn x.hash k x.kinds).isSome = false := by
      rw [← Bool.not_eq_true]
      intro hs
      have := hknown hs
      simp [this] at hcond
    have hfound : recoverOwnTurn m.ownMessageHash [] (w.db.runEvents m.runId) none = none := by
      rw [hm.ownMessageHash, hm.runId, hw.runEvents]
      exact recoverOwnTurn_none hnone [] _ (List.nil_append (x.events.take k)).symm
    rw [hfound]
    exact hadopt _ rfl rfl rfl
  · exact hadopt _ rfl rfl rfl

theorem start_alone (hw : x.Recorded k w) (hk : k ≤ x.events.length) (now : Nat) :
    start.Sat (Answers.of StoreOp.exec) (fun _ w' => x.Left w')
      (TailMem.init x.r .follow now) w
      (fun _ m' w' => ∃ o, ((sinceOwn x.hash k x.kinds).isSome = true → o = true) ∧
        (o = true → (sinceOwn x.hash (k + 1) x.kinds).isSome = true) ∧
        m'.phase = .connecting ∧ x.Reads k o k m' w') := by
  have hleft : x.Left w := Or.inl ⟨k, hk, hw⟩
  obtain ⟨row, hrow, hst, hhash, hsome, hown⟩ := hw.row
  have hturn : w.db.getRunTurnState x.r =
      some ⟨row.status, row.turnId, row.messageHash, row.remoteCancelPendingAt⟩ := by
    rw [Db.getRunTurnState, hrow]
    rfl
  -- the preamble's reads, up to the branch of a live run
  have hgo : ∀ m : TailMem, x.Alone m → m.seq = k → m.startIndex = x.base.length + k →
      m.seenEventIds = (x.events.take k).filterMap EveStreamEvent.id →
      m.latches = Latches.resumed false → m.ownTurnId = row.turnId →
      preambleFollow.Sat (Answers.of StoreOp.exec) (fun _ w' => x.Left w') m w
        (fun r m' w' => r = .ok true ∧ x.Reads k row.turnId.isSome k m' w') := by
    intro m hm hseq hstart hseen hlow hturn
    refine preambleFollow_alone hm hw hk (fun h => by rw [hturn]; exact hsome h) ?_
    intro m' w' hbare _ _ hrec hatt
    refine ⟨rfl, Reads.congr ?_ hbare⟩
    refine ⟨⟨hm.runId, hm.mode, hm.closed, hm.seized, hm.finished, hm.detaching, rfl,
      hm.ownMessageHash, hm.finishedAs, ?_⟩, hrec, ?_, Nat.le_refl k, hk, hseq, hstart, hseen, ?_⟩
    · intro turnId ht
      exact (hown turnId (hturn ▸ ht)).1
    · intro hs
      exact hatt ⟨row, hrow, hturn ▸ hs⟩
    · rw [Nat.sub_self]
      show Latches.mk m.ownTurnId.isSome _ _ _ _ = _
      have h1 := congrArg Latches.pendingInput hlow
      have h2 := congrArg Latches.pendingAuthorization hlow
      have h3 := congrArg Latches.canceledTurn hlow
      have h4 := congrArg Latches.lastAssistantMessage hlow
      simp only [TailMem.latches, Latches.resumed] at h1 h2 h3 h4
      simp only [h1, h2, h3, h4, hturn]
      rfl
  unfold start backstop
  rw [Proc.sat_handle, Proc.sat_bind]
  unfold preamble
  rw [Proc.sat_bind, sat_getMem]
  simp only
  rw [if_neg (by simp [TailMem.init]), Proc.sat_bind, sat_setMem]
  simp only
  rw [Proc.sat_bind, sat_statement_of rfl]
  refine ⟨hleft, ?_⟩
  simp only [StoreOp.exec]
  rw [Proc.sat_bind, sat_statement_of rfl]
  refine ⟨hleft, ?_⟩
  simp only [StoreOp.exec]
  rw [Proc.sat_bind, sat_statement_of rfl]
  refine ⟨hleft, ?_⟩
  simp only [StoreOp.exec]
  rw [Proc.sat_bind, sat_setMem]
  simp only
  rw [Proc.sat_bind, sat_statement_of rfl]
  refine ⟨hleft, ?_⟩
  simp only [StoreOp.exec]
  rw [Proc.sat_bind, sat_setMem]
  simp only
  rw [Proc.sat_bind, sat_statement_of rfl]
  refine ⟨hleft, ?_⟩
  simp only [StoreOp.exec]
  rw [Proc.sat_bind, sat_setMem]
  simp only
  rw [Proc.sat_bind, sat_getMem]
  simp only
  rw [if_neg (by simp [TailMem.init])]
  refine Proc.Sat.mono (hgo _ ?_ ?_ ?_ ?_ ?_ ?_) ?_
  · refine ⟨rfl, rfl, rfl, rfl, rfl, rfl, ?_, ?_, rfl, ?_⟩
    · show List.map _ w.db.listSessionClaimants.obligations = []
      rw [hw.obligations]
      rfl
    · show Option.bind (w.db.getRunTurnState x.r) _ = x.hash
      rw [hturn]
      exact hhash
    · intro turnId ht
      have ht' : Option.bind (w.db.getRunTurnState x.r) (·.turnId) = some turnId := ht
      rw [hturn] at ht'
      exact (hown turnId ht').1
  · exact hw.countRunEvents hk
  · exact hw.countSessionEvents hk
  · show w.db.listEventIds x.r = _
    rw [Db.listEventIds, hw.runEvents]
  · rfl
  · show Option.bind (w.db.getRunTurnState x.r) (·.turnId) = row.turnId
    rw [hturn]
    rfl
  · rintro r m' w' ⟨rfl, hreads⟩
    refine ⟨row.turnId.isSome, hsome, ?_, rfl, hreads.congr rfl⟩
    intro hs
    obtain ⟨turnId, ht⟩ := Option.isSome_iff_exists.mp hs
    exact (hown turnId ht).2

theorem connect_alone (hr : x.Reads k o k m w) :
    connect.Sat (Answers.of StoreOp.exec) (fun _ w' => x.Left w') m w
      (fun _ m' w' => x.Follows k o k m' w') := by
  have hlen : x.base.length + x.events.length = x.lines.length := by
    have := congrArg List.length x.stream
    rw [List.length_drop, List.length_map] at this
    have := x.cursor
    omega
  have hdone : ∀ m' : TailMem, TailMem.bare m' = TailMem.bare m → m'.held = none →
      x.At k o k m' w := by
    intro m' hbare hheld
    refine Or.inl ⟨hr.congr hbare, hheld, ?_⟩
    intro i turnId hi hle
    omega
  unfold connect backstop
  rw [Proc.sat_handle, Proc.sat_bind, sat_getMem]
  simp only [hr.alone.detaching, hr.alone.closed]
  rw [if_neg Bool.false_ne_true, if_neg Bool.false_ne_true, Proc.sat_handle]
  unfold openBody
  rw [Proc.sat_bind, sat_setMem]
  simp only
  rw [Proc.sat_bind, sat_getMem]
  simp only
  rw [Proc.sat_bind, sat_statement_of (by exact hr.alone.seized)]
  refine ⟨hr.left, ?_⟩
  simp only [StoreOp.exec]
  rw [Proc.sat_bind, sat_getMem]
  simp only
  rw [if_neg (by simp [hr.alone.closed]), Proc.sat_bind, Proc.sat_pure]
  simp only
  have hphase : ∀ m' : TailMem, m'.phase = .reading m.startIndex →
      m'.phase = .reading (x.base.length + k) := by
    intro m' h
    rw [h, hr.startIndex]
  cases hreq : m.requestTailIndex with
  | false =>
    simp only [Bool.false_eq_true, if_false]
    rw [Proc.sat_bind, Proc.sat_pure]
    simp only
    rw [sat_setMem]
    exact ⟨hphase _ rfl, hdone _ rfl rfl⟩
  | true =>
    simp only [if_true]
    unfold clampCursor
    rw [Proc.sat_bind, Proc.sat_bind, sat_getMem]
    simp only
    rw [Proc.sat_bind, sat_setMem]
    simp only
    have hle : ¬ ((w.lines.length : Int) - 1 + 1 < (m.startIndex : Int)) := by
      rw [hr.recorded.lines, hr.startIndex]
      have := hr.le
      omega
    rw [if_neg (by exact hle), Proc.sat_pure]
    simp only
    rw [sat_setMem]
    exact ⟨hphase _ rfl, hdone _ rfl rfl⟩

/-! ## Whole runs -/

/-- What the reader that was started behind the first `k₀` events makes of event `i`. -/
def verdictAt (x : Solo) (k₀ : Nat) (o : Bool) (i : Nat) : Option (RunStatus × Option String) :=
  x.kinds[i]?.bind
    ((Latches.resumed o).after x.hash (i + 1 - k₀) (x.kinds.drop k₀)).verdict

theorem line_of_index (hw : w.lines = x.lines) {j : Nat} (he : x.events[j]? = some e) :
    w.lines[x.base.length + j]? = some (some e) := by
  rw [hw, ← List.getElem?_drop, x.stream, List.getElem?_map, he]
  rfl

theorem Follows.lines {j : Nat} (h : x.Follows k₀ o j m w) : w.lines = x.lines := by
  rcases h.2 with ⟨h, -⟩ | ⟨s, held, turnId, -, h, -⟩ <;> exact h.recorded.lines

/-- The reader's program at its next line. -/
theorem Follows.program {j : Nat} (h : x.Follows k₀ o j m w) (he : x.events[j]? = some e) :
    (⟨w, some m⟩ : Session).program .line =
      some (consumeLine (x.base.length + j) (some e), m) := by
  simp only [Session.program, h.1, line_of_index h.lines he, Option.map_some]

theorem Follows.move {j : Nat} (ho : (sinceOwn x.hash k₀ x.kinds).isSome = true → o = true)
    (h : x.Follows k₀ o j m w) (hj : j < x.events.length) :
    ∃ m' w', (⟨w, some m⟩ : Session).move .line = some ⟨w', some m'⟩ ∧
      match x.verdictAt k₀ o j with
      | none => x.Follows k₀ o (j + 1) m' w'
      | some v => x.Settled v m' w' := by
  obtain ⟨e, he⟩ : ∃ e, x.events[j]? = some e := ⟨x.events[j], List.getElem?_eq_getElem hj⟩
  obtain ⟨r, m', w', hexec, hQ⟩ := Session.exec_sat (consumeLine_alone ho h he)
  refine ⟨m', w', ?_, ?_⟩
  · rw [Session.move, if_neg (by decide), h.program he, Option.map_some]
    exact congrArg some hexec
  · rw [verdictAt, kinds_getElem? he, Option.bind_some]
    exact hQ

theorem Settled.no_line {v : RunStatus × Option String} (h : x.Settled v m w) :
    (⟨w, some m⟩ : Session).program .line = none := by
  simp only [Session.program, h.1]

theorem Settled.no_move {v : RunStatus × Option String} (h : x.Settled v m w) (n : Nat) :
    (⟨w, some m⟩ : Session).play (List.replicate (n + 1) .line) = none := by
  rw [List.replicate_succ, Session.play, Session.move, if_neg (by decide), h.no_line]
  rfl

/-- The reader over the next `n` lines: it comes to the last of them iff none before it
settles the run. -/
theorem Follows.play {j n : Nat} (ho : (sinceOwn x.hash k₀ x.kinds).isSome = true → o = true)
    (h : x.Follows k₀ o j m w) (hn : j + n ≤ x.events.length) :
    (∃ s, (⟨w, some m⟩ : Session).play (List.replicate n .line) = some s) ↔
      ∀ i, j ≤ i → i + 1 < j + n → x.verdictAt k₀ o i = none := by
  induction n generalizing j m w with
  | zero => exact iff_of_true ⟨_, rfl⟩ fun i hi hlt => by omega
  | succ n ih =>
    obtain ⟨m', w', hmove, hnext⟩ := h.move ho (by omega)
    have hplay : (⟨w, some m⟩ : Session).play (List.replicate (n + 1) .line) =
        (⟨w', some m'⟩ : Session).play (List.replicate n .line) := by
      rw [List.replicate_succ, Session.play, hmove, Option.bind_some]
    rw [hplay]
    cases hv : x.verdictAt k₀ o j with
    | none =>
      rw [hv] at hnext
      rw [ih hnext (by omega)]
      constructor
      · intro hall i hi hlt
        rcases Nat.eq_or_lt_of_le hi with rfl | hi
        · exact hv
        · exact hall i hi (by omega)
      · exact fun hall i hi hlt => hall i (by omega) (by omega)
    | some v =>
      rw [hv] at hnext
      cases n with
      | zero => exact iff_of_true ⟨_, rfl⟩ fun i hi hlt => by omega
      | succ n =>
        rw [hnext.no_move]
        refine iff_of_false (by rintro ⟨s, hs⟩; cases hs) fun hall => ?_
        have := hall j (Nat.le_refl j) (by omega)
        rw [hv] at this
        cases this

theorem Follows.after_play {j n : Nat}
    (ho : (sinceOwn x.hash k₀ x.kinds).isSome = true → o = true)
    (h : x.Follows k₀ o j m w) (hn : j + n ≤ x.events.length) {s : Session}
    (hs : (⟨w, some m⟩ : Session).play (List.replicate n .line) = some s) :
    ∃ m', s.tail = some m' ∧
      (x.Follows k₀ o (j + n) m' s.world ∧
          (∀ i, j ≤ i → i < j + n → x.verdictAt k₀ o i = none) ∨
        ∃ i v, j + n = i + 1 ∧ j ≤ i ∧ x.verdictAt k₀ o i = some v ∧ x.Settled v m' s.world) := by
  induction n generalizing j m w with
  | zero =>
    cases hs
    exact ⟨m, rfl, Or.inl ⟨h, fun i hi hlt => by omega⟩⟩
  | succ n ih =>
    obtain ⟨m', w', hmove, hnext⟩ := h.move ho (by omega)
    rw [List.replicate_succ, Session.play, hmove, Option.bind_some] at hs
    cases hv : x.verdictAt k₀ o j with
    | none =>
      rw [hv] at hnext
      obtain ⟨m'', hm'', hcase⟩ := ih hnext (by omega) hs
      refine ⟨m'', hm'', ?_⟩
      rcases hcase with ⟨hf, hno⟩ | ⟨i, v, hi, hji, hv', hset⟩
      · refine Or.inl ⟨by rwa [show j + (n + 1) = j + 1 + n by omega], fun i hi hlt => ?_⟩
        rcases Nat.eq_or_lt_of_le hi with rfl | hi
        · exact hv
        · exact hno i hi (by omega)
      · exact Or.inr ⟨i, v, by omega, by omega, hv', hset⟩
    | some v =>
      rw [hv] at hnext
      cases n with
      | zero =>
        cases hs
        exact ⟨m', rfl, Or.inr ⟨j, v, rfl, Nat.le_refl j, hv, hnext⟩⟩
      | succ n =>
        rw [hnext.no_move] at hs
        cases hs

theorem started (hw : x.Recorded k w) (hk : k ≤ x.events.length) (now : Nat) :
    ∃ m₁ w₁ m₂ w₂ o, (⟨w, none⟩ : Session).move (.start x.r .follow now) = some ⟨w₁, some m₁⟩ ∧
      (⟨w₁, some m₁⟩ : Session).program .connect = some (Tailer.connect, m₁) ∧
      x.Reads k o k m₁ w₁ ∧
      (⟨w₁, some m₁⟩ : Session).move .connect = some ⟨w₂, some m₂⟩ ∧
      ((sinceOwn x.hash k x.kinds).isSome = true → o = true) ∧
      (o = true → (sinceOwn x.hash (k + 1) x.kinds).isSome = true) ∧ x.Follows k o k m₂ w₂ := by
  obtain ⟨r₁, m₁, w₁, hexec₁, o, ho, ho', hph, hreads⟩ := Session.exec_sat (start_alone hw hk now)
  obtain ⟨r₂, m₂, w₂, hexec₂, hfollows⟩ := Session.exec_sat (connect_alone hreads)
  have hprog : (⟨w₁, some m₁⟩ : Session).program .connect = some (Tailer.connect, m₁) := by
    simp only [Session.program, hph, if_true]
  refine ⟨m₁, w₁, m₂, w₂, o, ?_, hprog, hreads, ?_, ho, ho', hfollows⟩
  · have hidle := Session.idle_none w
    rw [Session.move, if_neg (by simp), Session.program, if_pos hidle, Option.map_some]
    exact congrArg some hexec₁
  · rw [Session.move, if_neg (by decide), hprog, Option.map_some]
    exact congrArg some hexec₂

/-- Whether an event is a boundary is told by the event and by whether the own turn has
opened, so it is told alike behind every recorded stretch. -/
theorem Latches.verdict_isSome_congr {y z : Latches} (h : y.sawOwnTurn = z.sawOwnTurn)
    (ev : EveEvent) : (y.verdict ev).isSome = (z.verdict ev).isSome := by
  unfold Latches.verdict Latches.classify
  rw [h, Option.isSome_map, Option.isSome_map]
  split
  · cases ev <;> simp only [classifyTerminal]
    repeat' split
    all_goals rfl
  · rfl

theorem verdictAt_isSome (ho : (sinceOwn x.hash k x.kinds).isSome = true → o = true)
    (ho' : o = true → (sinceOwn x.hash (k + 1) x.kinds).isSome = true) {i : Nat} (hi : k ≤ i) :
    (x.verdictAt k o i).isSome = (x.verdictAt 0 false i).isSome := by
  unfold verdictAt
  cases x.kinds[i]? with
  | none => rfl
  | some ev =>
    rw [Option.bind_some, Option.bind_some]
    refine Latches.verdict_isSome_congr ?_ ev
    rw [Latches.after_sawOwnTurn, Latches.after_sawOwnTurn, Bool.eq_iff_iff, Bool.or_eq_true,
      Bool.or_eq_true, sinceOwn_isSome_iff, sinceOwn_isSome_iff]
    constructor
    · rintro (h | ⟨j, hj, hopen⟩)
      · obtain ⟨j, hj, hopen⟩ := sinceOwn_isSome_iff.mp (ho' h)
        exact Or.inr ⟨j, by omega, by rw [List.drop_zero]; exact hopen⟩
      · rw [List.drop_drop] at hopen
        exact Or.inr ⟨k + j, by omega, by rw [List.drop_zero]; exact hopen⟩
    · rintro (h | ⟨j, hj, hopen⟩)
      · cases h
      · rw [List.drop_zero] at hopen
        by_cases hjk : j < k
        · exact Or.inl (ho (sinceOwn_isSome_iff.mpr ⟨j, hjk, hopen⟩))
        · refine Or.inr ⟨j - k, by omega, ?_⟩
          rw [List.drop_drop, Nat.add_sub_cancel' (Nat.le_of_not_lt hjk)]
          exact hopen

/-- An own opening attributed but not recorded before the death is read again. -/
theorem verdictAt_known (ho : (sinceOwn x.hash k x.kinds).isSome = true → o = true)
    (ho' : o = true → (sinceOwn x.hash (k + 1) x.kinds).isSome = true) {i : Nat} (hi : k ≤ i) :
    x.verdictAt k o i = x.verdictAt k (sinceOwn x.hash k x.kinds).isSome i := by
  by_cases heq : o = (sinceOwn x.hash k x.kinds).isSome
  · rw [← heq]
  have ht : o = true := by
    cases o with
    | true => rfl
    | false =>
      cases hs : (sinceOwn x.hash k x.kinds).isSome with
      | true => exact ho hs
      | false => exact absurd hs.symm heq
  have hopen : opensOwn x.hash (x.kinds.drop k) = true := by
    obtain ⟨j, hj, hopen⟩ := sinceOwn_isSome_iff.mp (ho' ht)
    rcases Nat.lt_succ_iff_lt_or_eq.mp hj with hj | rfl
    · exact absurd (ht.trans (sinceOwn_isSome_iff.mpr ⟨j, hj, hopen⟩).symm) heq
    · exact hopen
  unfold verdictAt
  rw [show i + 1 - k = (i - k) + 1 by omega]
  rw [Latches.after_resumed_of_opens hopen o (sinceOwn x.hash k x.kinds).isSome]

theorem left_of_dies (hw : x.Recorded 0 w) {now n : Nat} (hn : n ≤ x.events.length) {w' : World}
    (h : (⟨w, none⟩ : Session).Dies
      (.start x.r .follow now :: .connect :: List.replicate n .line) w') : x.Left w' := by
  obtain ⟨m₁, w₁, m₂, w₂, o, hstart, hprog, hreads, hconnect, ho, -, hfollows⟩ :=
    started hw (Nat.zero_le _) now
  obtain ⟨before, move, after, s₁, p, m, steps, hmoves, hplay, hp, rfl⟩ := h
  have hleft : ∀ {p : Tail Unit} {m : TailMem} {w : World}
      {Q : Except TailError Unit → TailMem → World → Prop},
      p.Sat (Answers.of StoreOp.exec) (fun _ w' => x.Left w') m w Q →
      (∀ r m' w', Q r m' w' → x.Left w') →
      x.Left ((p m).crashAfter StoreOp.exec steps w) := by
    intro p m w Q hsat hQ
    obtain ⟨-, h⟩ | ⟨r, m', h⟩ := Thread.Sat.crashAfter hsat steps
    · exact h
    · exact hQ r m' _ h
  have hfollow : ∀ {j : Nat} {m : TailMem} {w : World}, x.Follows 0 o j m w → x.Left w := by
    rintro j m w ⟨-, ⟨h, -⟩ | ⟨s, held, turnId, -, h, -⟩⟩ <;> exact h.left
  cases before with
  | nil =>
    cases hplay
    simp only [List.nil_append, List.cons.injEq] at hmoves
    obtain ⟨rfl, -⟩ := hmoves
    have hidle := Session.idle_none w
    rw [Session.program, if_pos hidle] at hp
    cases hp
    refine hleft (start_alone hw (Nat.zero_le _) now) ?_
    rintro r m' w' ⟨o', -, -, -, h⟩
    exact h.left
  | cons b before =>
    simp only [List.cons_append, List.cons.injEq] at hmoves
    obtain ⟨rfl, hmoves⟩ := hmoves
    rw [Session.play, hstart, Option.bind_some] at hplay
    cases before with
    | nil =>
      cases hplay
      simp only [List.nil_append, List.cons.injEq] at hmoves
      obtain ⟨rfl, -⟩ := hmoves
      rw [hprog] at hp
      cases hp
      refine hleft (connect_alone hreads) ?_
      exact fun r m' w' h => hfollow h
    | cons b before =>
      simp only [List.cons_append, List.cons.injEq] at hmoves
      obtain ⟨rfl, hmoves⟩ := hmoves
      rw [Session.play, hconnect, Option.bind_some] at hplay
      have hall := List.eq_replicate_iff.mp hmoves.symm
      obtain ⟨hlen, hmem⟩ := hall
      have hmove : move = .line := hmem move (by simp)
      have hbefore : before = List.replicate before.length .line :=
        List.eq_replicate_iff.mpr ⟨rfl, fun b hb => hmem b (by simp [hb])⟩
      rw [hbefore] at hplay
      rw [List.length_append, List.length_cons] at hlen
      obtain ⟨m', hm', hcase⟩ := hfollows.after_play ho (by omega) hplay
      obtain ⟨ws, ts⟩ := s₁
      simp only at hm'
      subst hm' hmove
      rcases hcase with ⟨hf, -⟩ | ⟨i, v, -, -, -, hset⟩
      · obtain ⟨e, he⟩ : ∃ e, x.events[0 + before.length]? = some e :=
          ⟨_, List.getElem?_eq_getElem (by omega)⟩
        rw [hf.program he] at hp
        cases hp
        refine hleft (consumeLine_alone ho hf he) ?_
        intro r m' w' hQ
        split at hQ
        · exact hfollow hQ
        · exact Or.inr hQ.2.2
      · rw [hset.no_line] at hp
        cases hp

/-- A tail that dies and is resumed from what it has persisted ends the run with the
verdict and the recorded output of the tail that read the whole stream iff
`ResumesAlike`. -/
theorem resumed_verdict_iff (x : Solo) {w₀ : World} (h₀ : x.Recorded 0 w₀) {now now' : Nat}
    {w₁ : World} {m₁ : TailMem} {v : RunStatus × Option String}
    (hwhole : (⟨w₀, none⟩ : Session).play (.start x.r .follow now :: .connect ::
      List.replicate x.events.length .line) = some ⟨w₁, some m₁⟩)
    (hv : m₁.finishedAs = some v)
    (hdies : (⟨w₀, none⟩ : Session).Dies (.start x.r .follow now :: .connect ::
      List.replicate x.events.length .line) w) (hlive : ¬ x.Ended w) :
    (∃ s m, (⟨w, none⟩ : Session).play (.start x.r .follow now' :: .connect ::
        List.replicate (x.events.length - w.db.countRunEvents x.r) .line) = some s ∧
      s.tail = some m ∧ m.finishedAs = some v) ↔
      ResumesAlike x.hash x.kinds (w.db.countRunEvents x.r) := by
  have hklen : x.kinds.length = x.events.length := List.length_map _
  -- the whole run: no boundary before the last event, which gives `v`
  obtain ⟨hnone, hlast⟩ : (∀ i, i + 1 < x.events.length → x.verdictAt 0 false i = none) ∧
      ∃ i, x.events.length = i + 1 ∧ x.verdictAt 0 false i = some v := by
    obtain ⟨m, w, m', w', o, hstart, -, -, hconnect, ho, ho', hfollows⟩ :=
      started h₀ (Nat.zero_le _) now
    rw [Session.play, hstart, Option.bind_some, Session.play, hconnect, Option.bind_some] at hwhole
    have hsome : ∀ i, (x.verdictAt 0 o i) = x.verdictAt 0 false i := fun i =>
      verdictAt_known ho ho' (Nat.zero_le i)
    constructor
    · intro i hi
      rw [← hsome]
      exact (hfollows.play ho (by omega)).mp ⟨_, hwhole⟩ i (Nat.zero_le i) (by omega)
    · obtain ⟨m'', hm'', hcase⟩ := hfollows.after_play ho (by omega) hwhole
      cases hm''
      rcases hcase with ⟨⟨-, hat⟩, -⟩ | ⟨i, v', hi, -, hv', hset⟩
      · exfalso
        have hnot : m₁.finishedAs = none := by
          rcases hat with ⟨h, -⟩ | ⟨s, held, turnId, -, h, -⟩ <;> exact h.alone.finishedAs
        rw [hnot] at hv
        cases hv
      · refine ⟨i, by omega, ?_⟩
        rw [← hsome, hv', ← hset.2.1, hv]
  -- the death
  obtain ⟨k, hk, hrec⟩ | hended := left_of_dies h₀ (Nat.le_refl _) hdies
  swap
  · exact absurd hended hlive
  rw [hrec.countRunEvents hk]
  obtain ⟨m, w, m', w', o, hstart, -, -, hconnect, ho, ho', hfollows⟩ := started hrec hk now'
  rw [Session.play, hstart, Option.bind_some, Session.play, hconnect, Option.bind_some]
  obtain ⟨l, hl, hvl⟩ := hlast
  rcases Nat.eq_or_lt_of_le hk with rfl | hlt
  · -- the boundary is recorded: the resumed tail finds nothing to read
    refine iff_of_false ?_ (fun h => by have := h.1; omega)
    rintro ⟨s, m'', hplay, hm'', hfin⟩
    rw [Nat.sub_self] at hplay
    cases hplay
    cases hm''
    rcases hfollows.2 with ⟨h, -⟩ | ⟨s, held, turnId, -, h, -⟩ <;>
      rw [h.alone.finishedAs] at hfin <;> cases hfin
  obtain ⟨b, hb⟩ : ∃ b, x.kinds[l]? = some b := ⟨_, List.getElem?_eq_getElem (by omega)⟩
  have hget : x.kinds.getLast? = some b := by
    rw [List.getLast?_eq_getElem?, hklen, hl]
    exact hb
  have hpure := verdict_resumed_iff x.hash (k := k) (v := v) (by omega) hget (by
    have := hvl
    rw [verdictAt, hb, Option.bind_some, Nat.sub_zero, List.drop_zero] at this
    rw [hklen, hl]
    exact this)
  rw [← hpure]
  have hres : x.verdictAt k o l =
      ((Latches.resumed (sinceOwn x.hash k x.kinds).isSome).after x.hash (x.kinds.length - k)
        (x.kinds.drop k)).verdict b := by
    rw [verdictAt_known ho ho' (by omega), verdictAt, hb, Option.bind_some, hklen, hl]
  rw [← hres]
  have hnone' : ∀ i, k ≤ i → i + 1 < k + (x.events.length - k) → x.verdictAt k o i = none := by
    intro i hi hlt'
    have hs := verdictAt_isSome ho ho' hi
    rw [hnone i (by omega)] at hs
    exact Option.isSome_eq_false_iff.mp hs |> Option.isNone_iff_eq_none.mp
  obtain ⟨s, hs⟩ := (hfollows.play ho (by omega)).mpr hnone'
  obtain ⟨m'', hm'', hcase⟩ := hfollows.after_play ho (by omega) hs
  obtain ⟨v', hv'⟩ : ∃ v', x.verdictAt k o l = some v' := by
    rw [← Option.isSome_iff_exists, verdictAt_isSome ho ho' (by omega), hvl]
    rfl
  rcases hcase with ⟨-, hno⟩ | ⟨i, v'', hi, -, hv'', hset⟩
  · have := hno l (by omega) (by omega)
    rw [hv'] at this
    cases this
  obtain rfl : i = l := by omega
  obtain rfl : v' = v'' := by rw [hv'] at hv''; cases hv''; rfl
  rw [hv']
  constructor
  · rintro ⟨s', m₃, hs', hm₃, hfin⟩
    rw [hs] at hs'
    cases hs'
    rw [hm''] at hm₃
    cases hm₃
    rw [← hset.2.1, hfin]
  · intro hvv
    exact ⟨s, m'', hs, hm'', hset.2.1.trans hvv⟩

/-! ## A parked run -/

/-- The run asks for an approval and parks. -/
def parked : Solo where
  r := 1
  hash := some ⟨"one"⟩
  base := []
  lines := [
    some ⟨.turnStarted 1, some 1⟩, some ⟨.messageReceived 1 "one", some 2⟩,
    some ⟨.inputRequested, some 3⟩, some ⟨.sessionWaiting, some 4⟩]
  events := [
    ⟨.turnStarted 1, some 1⟩, ⟨.messageReceived 1 "one", some 2⟩, ⟨.inputRequested, some 3⟩,
    ⟨.sessionWaiting, some 4⟩]
  stream := rfl
  cursor := Nat.zero_le _
  fresh := fun row hrow => nomatch hrow
  ids := by decide
  order := by
    constructor
    · intro i turnId message h
      match i with
      | 0 | 2 | 3 | i + 4 => simp at h
      | 1 =>
        simp only [List.map_cons, List.getElem?_cons_succ, List.getElem?_cons_zero,
          Option.some.injEq, EveEvent.messageReceived.injEq] at h
        obtain ⟨rfl, -⟩ := h
        exact ⟨0, rfl, rfl⟩
    · intro i j turnId hi hj
      match i, j with
      | 0, 0 => rfl
      | 1, _ | 2, _ | 3, _ | i + 4, _ => simp at hi
      | 0, 1 | 0, 2 | 0, 3 | 0, j + 4 => simp at hj

def parkedWorld : World :=
  ⟨⟨[.armed 1 (some ⟨"one"⟩) 0], [], .active⟩, parked.lines, false⟩

theorem parked_recorded : parked.Recorded 0 parkedWorld :=
  Recorded.init rfl rfl (by decide) (.armed 1 (some ⟨"one"⟩) 0) rfl rfl rfl rfl

/-- The tail of the parked run dies behind the request and is resumed: it settles the run
`succeeded`, where the whole stream says `waiting`. -/
theorem resumed_verdict_differs :
    ∃ (x : Solo) (w₀ w : World) (s s' : Session), x.Recorded 0 w₀ ∧
      (⟨w₀, none⟩ : Session).play (.start x.r .follow 0 :: .connect ::
        List.replicate x.events.length .line) = some s ∧
      s.tail.bind TailMem.finishedAs = some (.waiting, none) ∧
      (⟨w₀, none⟩ : Session).Dies (.start x.r .follow 0 :: .connect ::
        List.replicate x.events.length .line) w ∧
      (⟨w, none⟩ : Session).play (.start x.r .follow 1 :: .connect ::
        List.replicate (x.events.length - w.db.countRunEvents x.r) .line) = some s' ∧
      s'.tail.bind TailMem.finishedAs = some (.succeeded, none) := by
  obtain ⟨s, hs, hfin⟩ : ∃ s ∈ (⟨parkedWorld, none⟩ : Session).play
      (.start 1 .follow 0 :: .connect :: List.replicate 4 .line),
      s.tail.bind TailMem.finishedAs = some (.waiting, none) := by decide +kernel
  obtain ⟨s₁, hs₁, hline, s', hs', hfin'⟩ : ∃ s₁ ∈ (⟨parkedWorld, none⟩ : Session).play
      [.start 1 .follow 0, .connect, .line, .line, .line],
      (s₁.program .line).isSome = true ∧ ∃ s' ∈ (⟨s₁.world, none⟩ : Session).play
        (.start 1 .follow 1 :: .connect ::
          List.replicate (4 - s₁.world.db.countRunEvents 1) .line),
        s'.tail.bind TailMem.finishedAs = some (.succeeded, none) := by decide +kernel
  exact ⟨parked, parkedWorld, s₁.world, s, s', parked_recorded, hs, hfin,
    Session.dies_before [] hs₁ hline, hs', hfin'⟩

/-- The same run, dead before the request is recorded: the verdict stays. -/
theorem resumed_verdict_parked :
    ∃ w : World, (⟨parkedWorld, none⟩ : Session).Dies
        (.start 1 .follow 0 :: .connect :: List.replicate 4 .line) w ∧
      ((∃ s m, (⟨w, none⟩ : Session).play (.start 1 .follow 1 :: .connect ::
          List.replicate (4 - w.db.countRunEvents 1) .line) = some s ∧
        s.tail = some m ∧ m.finishedAs = some (.waiting, none)) ↔
      ResumesAlike parked.hash parked.kinds (w.db.countRunEvents 1)) := by
  obtain ⟨⟨w, t⟩, hs, hfin⟩ : ∃ s ∈ (⟨parkedWorld, none⟩ : Session).play
      (.start 1 .follow 0 :: .connect :: List.replicate 4 .line),
      s.tail.bind TailMem.finishedAs = some (.waiting, none) := by decide +kernel
  obtain ⟨m, rfl, hfin⟩ := Option.bind_eq_some_iff.mp hfin
  obtain ⟨s₁, hs₁, hline, hlive⟩ : ∃ s₁ ∈ (⟨parkedWorld, none⟩ : Session).play
      [.start 1 .follow 0, .connect, .line, .line],
      (s₁.program .line).isSome = true ∧
        (s₁.world.db.run? 1).map RunRow.status = some .running := by decide +kernel
  have hdies : (⟨parkedWorld, none⟩ : Session).Dies
      (.start 1 .follow 0 :: .connect :: List.replicate 4 .line) s₁.world :=
    Session.dies_before [.line] hs₁ hline
  refine ⟨s₁.world, hdies, ?_⟩
  refine resumed_verdict_iff parked parked_recorded hs hfin hdies ?_
  rintro ⟨row, hrow, -, hne⟩
  have hrow' : s₁.world.db.run? 1 = some row := hrow
  rw [hrow'] at hlive
  exact hne (Option.some.inj hlive)

end Solo

end InvisibleString.Tailer
