import InvisibleString.Tailer.Session

/- # `Tailer.Recovery` — the own turn found in the persisted events

A tail whose run carries no turn id looks for its own turn in what was persisted under the
run before: the last opening with the correlator of the run's latest send.  A correlator
names a text, not a send, so an opening of an earlier send can carry it too (every answer
to a parked run is content-less), and it is taken as long as the latest send's own opening
is not recorded.

**Proved here.**

    the recovered turn = the last recorded opening with the correlator  (`recoverOwnTurn_eq`)
    what a tail knows of its own turn once it has started  (`start_ownTurnId`)
    it is the latest send's  ⟺  no opening with its correlator that is
      another's stands behind all of its own  (`recovered_latest_iff`)
-/

namespace InvisibleString.Tailer

open EventLoop

/-- The turn an event shows opened with the correlator `hash`: its message carries the text,
or (content-less) another event than its message stands behind its `turn.started`. -/
def opensWith (hash : Option MessageHash) (stored : EveStreamEvent)
    (rest : List EveStreamEvent) : Option TurnId :=
  match stored.event, hash with
  | .messageReceived turnId message, some hash =>
    if hashTurnMessage message = hash then some turnId else none
  | .turnStarted turnId, none =>
    match rest.head?.map EveStreamEvent.event with
    | some (.messageReceived turnId' _) => if turnId' = turnId then none else some turnId
    | some _ => some turnId
    | none => none
  | _, _ => none

/-- The turns the events show opened with the correlator, in stream order. -/
def openings (hash : Option MessageHash) : List EveStreamEvent → List TurnId
  | [] => []
  | stored :: rest => (opensWith hash stored rest).toList ++ openings hash rest

/-- The recovered turn is the last opening with the correlator that no obligation owns. -/
theorem recoverOwnTurn_eq (hash : Option MessageHash) (known : List (Option TurnId))
    (es : List EveStreamEvent) (recovered : Option TurnId) :
    recoverOwnTurn hash known es recovered =
      ((openings hash es).filter fun turnId => !known.contains (some turnId)).getLast?.or
        recovered := by
  induction es generalizing recovered with
  | nil => rfl
  | cons stored rest ih =>
    rw [recoverOwnTurn, ih, openings, List.filter_append, List.getLast?_append, Option.or_assoc]
    congr 1
    unfold opensWith
    cases hev : stored.event with
    | messageReceived turnId message =>
      cases hash with
      | none => simp
      | some h =>
        by_cases hk : known.contains (some turnId) = true <;>
          by_cases hm : hashTurnMessage message = h <;> simp_all
    | turnStarted turnId =>
      cases hash with
      | some h => simp
      | none =>
        cases rest.head? with
        | none => simp
        | some next =>
          cases hn : next.event <;> by_cases hk : known.contains (some turnId) = true <;>
            simp_all
          all_goals split <;> simp_all
    | _ => cases hash <;> simp

/-! ## The start of a tail -/

/-- The obligations `recoverLoop` leaves of `os`: a persisted turn is given to the
obligation it matches, which is gone where the turn has ended. -/
def settleRecovered (persisted : List UnownedContentTurn) :
    List Obligation → List TurnId → List Obligation → List Obligation
  | [], _, os => os
  | o :: rest, taken, os =>
    match persisted.find? fun turn =>
        !taken.contains turn.turnId && !os.any (·.turnId == some turn.turnId) &&
          some turn.messageHash == o.messageHash with
    | none => settleRecovered persisted rest taken os
    | some turn =>
      settleRecovered persisted rest (taken ++ [turn.turnId])
        (if turn.ended then os.filter (·.runId != o.runId)
        else os.map fun o' =>
          if o'.runId == o.runId then { o' with turnId := some turn.turnId } else o')

/-- The obligations of other runs that a tail of `r` follows when it looks for its own
turn. -/
def Db.followed (db : Db) (r : RunId) : List Obligation :=
  let os := (db.listSessionClaimants.obligations.map
    (TailMem.init r .follow 0).toObligation).filter fun o => !o.self
  settleRecovered db.listUnownedContentTurns
    ((os.filter fun o => o.turnId.isNone && o.messageHash.isSome).insertionSort
      byAttributionPriority) [] os

/-- A follow tail of `r` in its preamble: it knows no own turn yet and follows other runs'
obligations only; the run's events are `es`. -/
structure Starting (r : RunId) (hash : Option MessageHash) (es : List EveStreamEvent)
    (m : TailMem) (w : World) : Prop where
  runId : m.runId = r
  mode : m.mode = .follow
  closed : m.closed = false
  seized : m.seized = false
  seq : m.seq = es.length
  ownTurnId : m.ownTurnId = none
  ownMessageHash : m.ownMessageHash = hash
  others : ∀ o ∈ m.obligations, o.self = false
  events : w.db.runEvents r = es

variable {r : RunId} {hash : Option MessageHash} {es : List EveStreamEvent} {m : TailMem}
  {w : World}

theorem StoreOp.exec_events {op : StoreOp} (w : World)
    (hop : ∀ runId seq event, op ≠ .appendEvent runId seq event) :
    (op.exec w).2.db.events = w.db.events := by
  obtain ⟨-, -, h⟩ := cursorAnswers_exec op (TailMem.init 0 .follow 0) w
  cases op <;> simp only [logEffect] at h <;> first | exact h | exact h.1 | skip
  exact absurd rfl (hop _ _ _)

namespace Starting

theorem exec (h : Starting r hash es m w) (op : StoreOp)
    (hop : ∀ runId seq event, op ≠ .appendEvent runId seq event) :
    Starting r hash es m (op.exec w).2 := by
  have hev : (op.exec w).2.db.runEvents r = es := by
    rw [← h.events, Db.runEvents, Db.runEvents, StoreOp.exec_events w hop]
  exact ⟨h.runId, h.mode, h.closed, h.seized, h.seq, h.ownTurnId, h.ownMessageHash, h.others,
    hev⟩

theorem drop (h : Starting r hash es m w) (runId : RunId) :
    Starting r hash es (m.dropObligation runId) w :=
  ⟨h.runId, h.mode, h.closed, h.seized, h.seq, h.ownTurnId, h.ownMessageHash,
    fun o ho => h.others o (List.mem_of_mem_filter ho), h.events⟩

theorem setTurn (h : Starting r hash es m w) (runId : RunId) (turnId : TurnId) :
    Starting r hash es (m.setObligationTurn runId turnId) w := by
  refine ⟨h.runId, h.mode, h.closed, h.seized, h.seq, h.ownTurnId, h.ownMessageHash, ?_, h.events⟩
  intro o ho
  obtain ⟨o', ho', rfl⟩ := List.mem_map.mp ho
  have := h.others o' ho'
  split <;> exact this

theorem issue (h : Starting r hash es m w) (o : Obligation) (attempt : Nat) :
    Starting r hash es (m.issueQualifiedCancel o attempt) w := by
  unfold TailMem.issueQualifiedCancel
  split
  · split
    · exact h
    · exact ⟨h.runId, h.mode, h.closed, h.seized, h.seq, h.ownTurnId, h.ownMessageHash,
        h.others, h.events⟩
  · exact h

theorem issue_obligations (o : Obligation) (attempt : Nat) :
    (m.issueQualifiedCancel o attempt).obligations = m.obligations := by
  unfold TailMem.issueQualifiedCancel
  split
  · split <;> rfl
  · rfl

theorem confirm (h : Starting r hash es m w) (o : Obligation) :
    (confirmObligation o).Sat (Answers.of StoreOp.exec) (fun _ _ => True) m w
      (fun res m' w' => res = .ok () ∧ Starting r hash es m' w' ∧
        m'.obligations = m.obligations.filter (·.runId != o.runId)) := by
  unfold confirmObligation
  rw [Proc.sat_bind, sat_getMem]
  simp only
  rw [if_neg (by simp [h.seized]), Proc.sat_bind, sat_setMem]
  simp only
  rw [Proc.sat_bind, Proc.sat_handle, Proc.sat_bind, sat_statement_of (h.drop _).seized]
  refine ⟨trivial, ?_⟩
  simp only [StoreOp.exec]
  rw [Proc.sat_pure]
  simp only
  rw [Proc.sat_bind, sat_getMem]
  simp only
  rw [if_neg (by simp [(h.drop o.runId).mode])]
  exact ⟨rfl, (h.drop _).exec (.clearRemoteCancelPending o.runId) (by simp), rfl⟩

theorem recover (persisted : List UnownedContentTurn) {os : List Obligation}
    (hos : ∀ o ∈ os, o.self = false) (taken : List TurnId) (h : Starting r hash es m w) :
    (recoverLoop persisted os taken).Sat (Answers.of StoreOp.exec) (fun _ _ => True) m w
      (fun res m' w' => res = .ok () ∧ Starting r hash es m' w' ∧
        m'.obligations = settleRecovered persisted os taken m.obligations) := by
  induction os generalizing taken m w with
  | nil => exact ⟨rfl, h, rfl⟩
  | cons o rest ih =>
    have hrest := fun {m w} taken h => ih (m := m) (w := w)
      (fun o' ho' => hos o' (List.mem_cons_of_mem _ ho')) taken h
    have hmatch : persistedMatch m persisted taken o = persisted.find? fun turn =>
        !taken.contains turn.turnId && !m.obligations.any (·.turnId == some turn.turnId) &&
          some turn.messageHash == o.messageHash := by
      unfold persistedMatch TailMem.isKnownTurn
      rw [h.ownTurnId]
      rfl
    rw [recoverLoop, Proc.sat_bind, sat_getMem, settleRecovered]
    simp only
    rw [← hmatch]
    cases hfound : persistedMatch m persisted taken o with
    | none => exact hrest taken h
    | some turn =>
      dsimp only
      have hself : o.self = false := hos o List.mem_cons_self
      have h₁ := h.setTurn o.runId turn.turnId
      rw [hself, Proc.sat_bind, sat_setMem]
      simp only [Bool.false_eq_true, if_false]
      rw [Proc.sat_bind, sat_statement_of h₁.seized]
      refine ⟨trivial, ?_⟩
      have h₂ := h₁.exec (.setRunTurnId o.runId turn.turnId) (by simp)
      simp only [StoreOp.exec] at h₂ ⊢
      by_cases hended : turn.ended = true
      · rw [if_pos hended, if_pos hended]
        refine Proc.Sat.bind (h₂.confirm _) ?_ fun _ _ _ hno => by cases hno.1
        rintro - m₃ w₃ ⟨-, h₃, hobl⟩
        have hsame : m₃.obligations = m.obligations.filter (·.runId != o.runId) := by
          rw [hobl]
          exact filter_setTurn m.obligations o.runId turn.turnId
        rw [← hsame]
        exact hrest _ h₃
      · rw [if_neg hended, if_neg hended, Proc.sat_bind, sat_setMem]
        simp only
        have h₃ := h₂.issue { o with turnId := some turn.turnId } 1
        refine (hrest (taken ++ [turn.turnId]) h₃).mono ?_
        rintro res m' w' ⟨hres, h', hobl⟩
        rw [issue_obligations] at hobl
        exact ⟨hres, h', hobl⟩
where
  filter_setTurn (os : List Obligation) (runId : RunId) (turnId : TurnId) :
      (os.map fun o' => if o'.runId == runId then { o' with turnId := some turnId } else o').filter
        (·.runId != runId) = os.filter (·.runId != runId) := by
    induction os with
    | nil => rfl
    | cons o os ih =>
      rw [List.map_cons]
      by_cases ho : o.runId = runId
      · rw [List.filter_cons_of_neg (by simp [ho]), List.filter_cons_of_neg (by simp [ho]), ih]
      · rw [List.filter_cons_of_pos (by simp [ho]), List.filter_cons_of_pos (by simp [ho]), ih,
          if_neg (by simp [ho])]

theorem recoverPersisted (h : Starting r hash es m w) :
    (recoverPersistedTurns m.obligations).Sat (Answers.of StoreOp.exec) (fun _ _ => True) m w
      (fun res m' w' => res = .ok () ∧ Starting r hash es m' w' ∧
        m'.obligations = settleRecovered w.db.listUnownedContentTurns
          ((m.obligations.filter fun o => o.turnId.isNone && o.messageHash.isSome).insertionSort
            byAttributionPriority) [] m.obligations) := by
  have hfilter : (m.obligations.filter fun o => m.obligations.any (·.runId == o.runId) &&
      o.turnId.isNone && o.messageHash.isSome) =
      m.obligations.filter fun o => o.turnId.isNone && o.messageHash.isSome := by
    refine List.filter_congr fun o ho => ?_
    have hany : m.obligations.any (·.runId == o.runId) = true :=
      List.any_eq_true.mpr ⟨o, ho, beq_self_eq_true _⟩
    rw [hany, Bool.true_and]
  have hothers : ∀ o ∈ (m.obligations.filter fun o =>
      o.turnId.isNone && o.messageHash.isSome).insertionSort byAttributionPriority,
      o.self = false := by
    intro o ho
    rw [List.mem_insertionSort] at ho
    exact h.others o (List.mem_of_mem_filter ho)
  unfold recoverPersistedTurns
  rw [Proc.sat_bind, sat_getMem]
  simp only
  rw [if_neg (by simp [h.closed]), hfilter]
  split
  · rename_i heq
    rw [heq]
    exact ⟨rfl, h, rfl⟩
  · rename_i o rest heq
    rw [heq] at hothers ⊢
    rw [Proc.sat_bind, Proc.sat_handle, Proc.sat_bind, sat_statement_of h.seized]
    refine ⟨trivial, ?_⟩
    simp only [StoreOp.exec]
    rw [Proc.sat_pure]
    simp only
    exact h.recover _ hothers []

end Starting

/-- The adoption of the row, at the end of the preamble, leaves the own turn alone. -/
theorem adopt_ownTurnId (hs : m.seized = false) :
    (do
      let m ← getMem
      if m.closed then pure false
      else do
        let adopted ← statement (.markRun m.runId
          { RunStatusPatch.ofStatus .running with
            startedAt := if m.seq = 0 then some m.now else none })
        if adopted then do
          setMem fun m => { m with statuses := m.statuses ++ [.running] }
          pure true
        else do
          setMem fun m => { m with finished := true }.close
          pure false : Tail Bool).Sat (Answers.of StoreOp.exec) (fun _ _ => True) m w
      (fun _ m' _ => m'.ownTurnId = m.ownTurnId) := by
  rw [Proc.sat_bind, sat_getMem]
  simp only
  split
  · rfl
  · rw [Proc.sat_bind, sat_statement, hs, Bool.false_and]
    refine ⟨trivial, ?_⟩
    rintro (err | adopted) m' w' ⟨rfl, -⟩
    · rfl
    · cases adopted <;> rfl

theorem preambleFollow_ownTurnId (r : RunId) (hash : Option MessageHash)
    (es : List EveStreamEvent) {os : List Obligation}
    (h : Starting r hash es { m with obligations := m.obligations.filter fun o => !o.self } w)
    (hos : w.db.followed r = os)
    (hmem : m.obligations = w.db.listSessionClaimants.obligations.map
      (TailMem.init r .follow 0).toObligation) :
    preambleFollow.Sat (Answers.of StoreOp.exec) (fun _ _ => True) m w
      (fun _ m' _ => m'.ownTurnId = recoverOwnTurn hash (os.map (·.turnId)) es none) := by
  unfold preambleFollow
  rw [Proc.sat_bind, sat_setMem]
  simp only
  rw [Proc.sat_bind, sat_getMem]
  simp only
  refine h.recoverPersisted.bind ?_ fun _ _ _ hno => by cases hno.1
  rintro - m₁ w₁ ⟨-, h₁, hobl⟩
  have hobl₁ : m₁.obligations = os := by
    rw [hobl, ← hos, Db.followed, hmem]
  rw [Proc.sat_bind, sat_setMem]
  simp only
  rw [Proc.sat_bind, sat_getMem]
  simp only
  let found : Except TailError Unit → TailMem → World → Prop := fun res m' _ =>
    res = .ok () ∧ m'.seized = false ∧
      m'.ownTurnId = recoverOwnTurn hash (os.map (·.turnId)) es none
  refine Proc.Sat.bind (show Proc.Sat _ _ _ _ _ found from ?_) ?_
    fun err m' w' hno => by cases hno.1
  · split
    · rw [Proc.sat_bind, sat_statement_of (by exact h₁.seized)]
      refine ⟨trivial, ?_⟩
      simp only [StoreOp.exec]
      rw [Proc.sat_bind, sat_getMem]
      simp only
      have hval : recoverOwnTurn m₁.ownMessageHash (m₁.obligations.map (·.turnId))
          (w₁.db.runEvents m₁.runId) none =
            recoverOwnTurn hash (os.map (·.turnId)) es none := by
        rw [h₁.ownMessageHash, h₁.runId, h₁.events, hobl₁]
      rw [hval]
      cases hfound : recoverOwnTurn hash (os.map (·.turnId)) es none with
      | none => exact ⟨rfl, h₁.seized, h₁.ownTurnId.trans hfound.symm⟩
      | some turnId =>
        dsimp only
        rw [Proc.sat_bind, sat_statement_of (by exact h₁.seized)]
        exact ⟨trivial, rfl, h₁.seized, hfound.symm⟩
    · -- nothing is persisted yet
      rename_i hcond
      have hnil : es = [] := by
        have : m₁.seq = 0 := by
          simpa [h₁.ownTurnId] using hcond
        exact List.length_eq_zero_iff.mp (h₁.seq.symm.trans this)
      subst hnil
      exact ⟨rfl, h₁.seized, h₁.ownTurnId⟩
  · rintro - m₂ w₂ ⟨-, hseized, hown⟩
    refine (adopt_ownTurnId hseized).mono ?_
    intro _ m₃ _ hm₃
    exact hm₃.trans hown

/-- What a follow tail knows of its own turn when it starts to read, where its run's row
carries none. -/
theorem start_ownTurnId {turn : RunTurnState} (hrow : w.db.getRunTurnState r = some turn)
    (hturn : turn.turnId = none) {now : Nat} {s : Session}
    (hs : (⟨w, none⟩ : Session).move (.start r .follow now) = some s) (hm : s.tail = some m) :
    m.ownTurnId = recoverOwnTurn turn.messageHash ((w.db.followed r).map (·.turnId))
      (w.db.runEvents r) none := by
  have hsat : start.Sat (Answers.of StoreOp.exec) (fun _ _ => True)
      (TailMem.init r .follow now) w (fun _ m' _ => m'.ownTurnId =
        recoverOwnTurn turn.messageHash ((w.db.followed r).map (·.turnId))
          (w.db.runEvents r) none) := by
    unfold start backstop
    rw [Proc.sat_handle, Proc.sat_bind]
    unfold preamble
    rw [Proc.sat_bind, sat_getMem]
    simp only
    rw [if_neg (by simp [TailMem.init]), Proc.sat_bind, sat_setMem]
    simp only
    rw [Proc.sat_bind, sat_statement_of rfl]
    refine ⟨trivial, ?_⟩
    simp only [StoreOp.exec]
    rw [Proc.sat_bind, sat_statement_of rfl]
    refine ⟨trivial, ?_⟩
    simp only [StoreOp.exec]
    rw [Proc.sat_bind, sat_statement_of rfl]
    refine ⟨trivial, ?_⟩
    simp only [StoreOp.exec]
    rw [Proc.sat_bind, sat_setMem]
    simp only
    rw [Proc.sat_bind, sat_statement_of rfl]
    refine ⟨trivial, ?_⟩
    simp only [StoreOp.exec]
    have hrow' : w.db.getRunTurnState (TailMem.init r .follow now).runId = some turn := hrow
    rw [hrow', Proc.sat_bind, sat_setMem]
    simp only [Option.bind_some]
    rw [Proc.sat_bind, sat_statement_of rfl]
    refine ⟨trivial, ?_⟩
    simp only [StoreOp.exec]
    rw [Proc.sat_bind, sat_setMem]
    simp only
    rw [Proc.sat_bind, sat_getMem]
    simp only
    rw [if_neg (by simp [TailMem.init])]
    refine Proc.Sat.mono (preambleFollow_ownTurnId r turn.messageHash
      (w.db.runEvents r) ?_ rfl rfl) ?_
    · refine ⟨rfl, rfl, rfl, rfl, rfl, hturn, rfl, ?_, rfl⟩
      intro o ho
      simpa using List.of_mem_filter ho
    · rintro (err | go) m' w' hgo
      · exact hgo
      · cases go with
        | true => exact hgo
        | false => exact hgo
  obtain ⟨-, rfl⟩ | ⟨p, m₀, hp, rfl⟩ := Session.move_eq_some hs
  · cases hm
  · have hidle := Session.idle_none w
    rw [Session.program, if_pos hidle] at hp
    cases hp
    obtain ⟨res, m', w', hexec, hown⟩ := Session.exec_sat hsat
    rw [hexec] at hm
    cases hm
    exact hown

/-! ## The latest send -/

/-- One send of a run, and the turn eve opened for it. -/
structure Send where
  content : Option String
  turn : Option TurnId
  deriving DecidableEq, Repr

/-- The correlator `armDispatchAttempt` writes for the send. -/
def Send.messageHash (send : Send) : Option MessageHash := send.content.map hashTurnMessage

/-- The turn an event opens. -/
def EveEvent.opened : EveEvent → Option TurnId
  | .turnStarted turnId => some turnId
  | .messageReceived turnId _ => some turnId
  | _ => none

theorem opened_of_opensWith {stored : EveStreamEvent} {rest : List EveStreamEvent} {T : TurnId}
    (h : opensWith hash stored rest = some T) : stored.event.opened = some T := by
  unfold opensWith at h
  cases hev : stored.event with
  | turnStarted turnId =>
    rw [hev] at h
    cases hash with
    | some hash => cases h
    | none =>
      simp only at h
      split at h
      · split at h
        · cases h
        · exact h
      · exact h
      · cases h
  | messageReceived turnId message =>
    rw [hev] at h
    cases hash with
    | none => cases h
    | some hash =>
      simp only at h
      split at h
      · exact h
      · cases h
  | _ => rw [hev] at h; cases hash <;> cases h

theorem opened_of_mem {T : TurnId} (h : T ∈ openings hash es) :
    ∃ stored ∈ es, stored.event.opened = some T := by
  induction es with
  | nil => cases h
  | cons stored rest ih =>
    rw [openings, List.mem_append, Option.mem_toList] at h
    rcases h with h | h
    · exact ⟨stored, List.mem_cons_self, opened_of_opensWith h⟩
    · obtain ⟨e, he, hopen⟩ := ih h
      exact ⟨e, List.mem_cons_of_mem _ he, hopen⟩

/-- eve opens a turn for a send behind the turns of the sends before: behind an opening of
`latest` stands no other turn's. -/
def OpensLast (latest : Option TurnId) (es : List EveStreamEvent) : Prop :=
  es.Pairwise fun e e' => ∀ T T', e.event.opened = some T → e'.event.opened = some T' →
    latest = some T → T' = T

theorem OpensLast.openings {latest : Option TurnId} (h : OpensLast latest es) :
    (openings hash es).Pairwise fun T T' => latest = some T → T' = T := by
  induction es with
  | nil => exact List.Pairwise.nil
  | cons stored rest ih =>
    obtain ⟨hhead, htail⟩ := List.pairwise_cons.mp h
    rw [Tailer.openings, List.pairwise_append]
    refine ⟨?_, ih htail, ?_⟩
    · cases opensWith hash stored rest with
      | none => exact List.Pairwise.nil
      | some T => exact List.pairwise_singleton _ _
    · intro T hT T' hT' hl
      obtain ⟨e', he', hopen'⟩ := opened_of_mem hT'
      exact hhead e' he' T T' (opened_of_opensWith (Option.mem_toList.mp hT)) hopen' hl

/-- Of a list in which nothing stands behind `latest`, the last element is `latest` iff
`latest` is in it or it is empty. -/
theorem getLast?_latest_iff {latest : Option TurnId} {l : List TurnId}
    (h : l.Pairwise fun T T' => latest = some T → T' = T) :
    (∀ T, l.getLast? = some T → latest = some T) ↔ (∃ T ∈ l, latest = some T) ∨ l = [] := by
  constructor
  · intro hlast
    cases hl : l.getLast? with
    | none => exact Or.inr (List.getLast?_eq_none_iff.mp hl)
    | some T => exact Or.inl ⟨T, List.mem_of_getLast? hl, hlast T hl⟩
  · rintro (⟨T, hT, rfl⟩ | rfl) T' hT'
    · obtain ⟨before, rfl⟩ := List.getLast?_eq_some_iff.mp hT'
      rw [List.pairwise_append] at h
      rw [List.mem_append, List.mem_singleton] at hT
      rcases hT with hT | rfl
      · rw [h.2.2 T hT T' (List.mem_singleton.mpr rfl) rfl]
      · rfl
    · cases hT'

/-- The own turn a tail starts with is the turn of its run's latest send iff that send's
opening is recorded for the run, or no opening with its correlator is, but for those an
obligation owns. -/
theorem recovered_latest_iff {latest : Send} {turn : RunTurnState}
    (hrow : w.db.getRunTurnState r = some turn) (harmed : turn.messageHash = latest.messageHash)
    (hturn : turn.turnId = none) (hlast : OpensLast latest.turn (w.db.runEvents r)) {now : Nat}
    {s : Session} (hs : (⟨w, none⟩ : Session).move (.start r .follow now) = some s)
    (hm : s.tail = some m) :
    (∀ T, m.ownTurnId = some T → latest.turn = some T) ↔
      (∃ T ∈ openings latest.messageHash (w.db.runEvents r), latest.turn = some T ∧
        ∀ o ∈ w.db.followed r, o.turnId ≠ some T) ∨
      ∀ T ∈ openings latest.messageHash (w.db.runEvents r), ∃ o ∈ w.db.followed r, o.turnId = some T := by
  rw [start_ownTurnId hrow hturn hs hm, harmed, recoverOwnTurn_eq, Option.or_none]
  have hknown : ∀ T, (!((w.db.followed r).map (·.turnId)).contains (some T)) = true ↔
      ∀ o ∈ w.db.followed r, o.turnId ≠ some T := by
    intro T
    simp
  rw [getLast?_latest_iff (hlast.openings.filter _)]
  refine or_congr ?_ ?_
  · constructor
    · rintro ⟨T, hT, hl⟩
      obtain ⟨hT, hfree⟩ := List.mem_filter.mp hT
      exact ⟨T, hT, hl, (hknown T).mp hfree⟩
    · rintro ⟨T, hT, hl, hfree⟩
      exact ⟨T, List.mem_filter.mpr ⟨hT, (hknown T).mpr hfree⟩, hl⟩
  · rw [List.filter_eq_nil_iff]
    refine forall₂_congr fun T hT => ?_
    rw [hknown]
    push Not
    rfl

/-! ## A run that is answered twice -/

/-- What eve makes of a run's first two sends: a turn with the text "one", then one that an
answer opened; both park. -/
def firstTurn : List Line :=
  [some ⟨.turnStarted 1, some 1⟩, some ⟨.messageReceived 1 "one", some 2⟩,
    some ⟨.inputRequested, some 3⟩, some ⟨.sessionWaiting, some 4⟩]

def secondTurn : List Line :=
  [some ⟨.turnStarted 2, some 5⟩, some ⟨.inputRequested, some 6⟩, some ⟨.sessionWaiting, some 7⟩]

def firstSent : World := ⟨⟨[.armed 1 (some ⟨"one"⟩) 0], [], .active⟩, firstTurn, false⟩

/-- The parked run 1 is answered: a send without content, and what eve appends to it. -/
def World.answered (w : World) (lines : List Line) : World :=
  { w with db := (w.db.armDispatchAttempt 1 none 1).2, lines := w.lines ++ lines }

/-- Run 1 is answered twice.  Its tail, restarted behind the second answer, takes the turn of
the first one for its own: both are content-less, and eve has opened nothing yet. -/
theorem recovered_turn_stale :
    ∃ s₁ ∈ (⟨firstSent, none⟩ : Session).play
        (.start 1 .follow 0 :: .connect :: List.replicate 4 .line),
      ∃ s₂ ∈ (⟨s₁.world.answered secondTurn, none⟩ : Session).play
        (.start 1 .follow 1 :: .connect :: List.replicate 3 .line),
      ∃ s₃ ∈ (⟨s₂.world.answered [], none⟩ : Session).move (.start 1 .follow 2),
      ∃ latest ∈ ([⟨some "one", some 1⟩, ⟨none, some 2⟩, ⟨none, none⟩] : List Send).getLast?,
        s₃.tail.bind TailMem.ownTurnId = some 2 ∧ latest.turn ≠ some 2 := by
  decide +kernel

/-- The first answer alone: nothing content-less is recorded, and nothing is recovered. -/
theorem recovered_latest_answered :
    ∃ s₁ ∈ (⟨firstSent, none⟩ : Session).play
        (.start 1 .follow 0 :: .connect :: List.replicate 4 .line),
      ∃ s ∈ (⟨s₁.world.answered [], none⟩ : Session).move (.start 1 .follow 1), ∃ m ∈ s.tail,
        (∀ T, m.ownTurnId = some T → none = some T) ↔
          (∃ T ∈ openings none ((s₁.world.answered []).db.runEvents 1), none = some T ∧
            ∀ o ∈ (s₁.world.answered []).db.followed 1, o.turnId ≠ some T) ∨
          ∀ T ∈ openings none ((s₁.world.answered []).db.runEvents 1),
            ∃ o ∈ (s₁.world.answered []).db.followed 1, o.turnId = some T := by
  obtain ⟨s₁, hs₁, s, hs, m, hm, turn, hrow, hhash, hturn⟩ :
      ∃ s₁ ∈ (⟨firstSent, none⟩ : Session).play
        (.start 1 .follow 0 :: .connect :: List.replicate 4 .line),
      ∃ s ∈ (⟨s₁.world.answered [], none⟩ : Session).move (.start 1 .follow 1), ∃ m ∈ s.tail,
        ∃ turn ∈ (s₁.world.answered []).db.getRunTurnState 1,
          turn.messageHash = (⟨none, none⟩ : Send).messageHash ∧ turn.turnId = none := by
    decide +kernel
  refine ⟨s₁, hs₁, s, hs, m, hm, ?_⟩
  refine recovered_latest_iff hrow hhash hturn ?_ hs hm
  exact List.pairwise_of_forall fun _ _ _ _ _ _ h => by cases h

end InvisibleString.Tailer
