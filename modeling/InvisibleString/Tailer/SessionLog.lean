import InvisibleString.Tailer.ExactlyOnce
import InvisibleString.Tailer.Session

/- # `Tailer.SessionLog` — the log of a session over any run of its tails

-/

namespace InvisibleString.Tailer

open EventLoop

variable {runs : RunId → Prop} {base : List StoredRunEvent} {S : List Line}

/-! ## The start of a tail -/

/-- The cursor a tail derives from the counts, in a log whose lines from the session's
count on are its own run's. -/
theorem Log.cursor {w : World} {F : Nat} {m : TailMem} (h : Log runs base w F)
    (hS : w.lines <+: S) (hr : runs m.runId)
    (hown : ∀ i e, w.db.countSessionEvents ≤ i → i < F → w.lines[i]? = some (some e) →
      e ∈ w.db.runEvents m.runId)
    (hseq : m.seq = w.db.countRunEvents m.runId)
    (hstart : m.startIndex = w.db.countSessionEvents)
    (hseen : m.seenEventIds = w.db.listEventIds m.runId) :
    Cursor runs base S m w F := by
  refine ⟨h, hS, hr, hseq, fun id => by rw [hseen], ?_, fun i e hi => hown i e (hstart ▸ hi)⟩
  obtain ⟨new, hev, hnew, -⟩ := h.rows
  have hlen : new.length = (parsed (segment w.lines base.length F)).length := by
    rw [← hnew, List.length_map]
  have hle := length_parsed_le (segment w.lines base.length F)
  have hseg : (segment w.lines base.length F).length ≤ F - base.length := by
    unfold segment
    rw [List.length_drop, List.length_take]
    omega
  have := h.le
  rw [hstart, Db.countSessionEvents, hev, List.length_append]
  omega

/-- A counting statement of the preamble: the cursor variables and the log stay. -/
theorem statement_rest_sat {op : StoreOp} (hop : op.fenced = false) {m : TailMem} {w : World}
    {C : TailMem → World → Prop} {Q : Except TailError op.Ret → TailMem → World → Prop}
    (hC : C m w)
    (hQ : ∀ r m' w', m'.cursor = m.cursor → w.lines <+: w'.lines → w'.lines <+: S →
      logEffect w w' op r → Q r m' w') :
    (statement op).Sat (readerAnswers S) C m w Q := by
  rw [sat_statement, hop, Bool.and_false]
  refine ⟨hC, ?_⟩
  rintro r m' w' ⟨⟨hm, hl, heff⟩, hS⟩
  exact hQ r m' w' hm hl hS heff

theorem preamble_sat {m : TailMem} {w : World} {F : Nat} (hlog : Log runs base w F)
    (hS : w.lines <+: S) (hr : runs m.runId)
    (hown : ∀ i e, w.db.countSessionEvents ≤ i → i < F → w.lines[i]? = some (some e) →
      e ∈ w.db.runEvents m.runId) :
    preamble.Sat (readerAnswers S) (fun _ w' => Durable runs base S w') m w
      (fun r m' w' => match r with
        | .ok true => ∃ F', Cursor runs base S m' w' F'
        | _ => Durable runs base S w') := by
  have hdur : ∀ w' : World, w'.db.events = w.db.events → w.lines <+: w'.lines →
      w'.lines <+: S → Durable runs base S w' :=
    fun w' hev hl hS' => ⟨hS', F, hlog.mono hev hl⟩
  unfold preamble
  rw [Proc.sat_bind, sat_getMem]
  simp only
  split
  · exact ⟨hS, F, hlog⟩
  rw [Proc.sat_bind, sat_setMem]
  simp only
  rw [Proc.sat_bind]
  refine statement_rest_sat rfl ⟨hS, F, hlog⟩ ?_
  rintro (err | seq) m₁ w₁ hm₁ hl₁ hS₁ ⟨hev₁, hans₁⟩
  · exact hdur w₁ hev₁ hl₁ hS₁
  have hd₁ := hdur w₁ hev₁ hl₁ hS₁
  dsimp only
  rw [Proc.sat_bind]
  refine statement_rest_sat rfl hd₁ ?_
  rintro (err | startIndex) m₂ w₂ hm₂ hl₂ hS₂ ⟨hev₂, hans₂⟩
  · exact hdur w₂ (hev₂.trans hev₁) (hl₁.trans hl₂) hS₂
  have hd₂ := hdur w₂ (hev₂.trans hev₁) (hl₁.trans hl₂) hS₂
  dsimp only
  rw [Proc.sat_bind]
  refine statement_rest_sat rfl hd₂ ?_
  rintro (err | seen) m₃ w₃ hm₃ hl₃ hS₃ ⟨hev₃, hans₃⟩
  · exact hdur w₃ (hev₃.trans (hev₂.trans hev₁)) (hl₁.trans (hl₂.trans hl₃)) hS₃
  have hev := hev₃.trans (hev₂.trans hev₁)
  have hl := hl₁.trans (hl₂.trans hl₃)
  dsimp only
  rw [Proc.sat_bind, sat_setMem]
  dsimp only
  -- the counts are of one log: no statement in between writes an event
  have hrun : m₃.runId = m.runId := by
    have := congrArg CursorVars.runId (hm₃.trans (hm₂.trans hm₁))
    exact this
  have hcur : Cursor runs base S
      { m₃ with seq := seq, startIndex := startIndex, seenEventIds := seen } w₃ F := by
    refine (hlog.mono hev hl).cursor hS₃ (hrun ▸ hr) ?_ ?_ ?_ ?_
    · intro i e hi hF he
      have hi' : w.db.countSessionEvents ≤ i := by
        rw [Db.countSessionEvents, hev] at hi
        exact hi
      rw [getElem?_grown hl (hF.trans_le hlog.len)] at he
      have := hown i e hi' hF he
      rw [Db.runEvents, hev]
      exact hrun ▸ this
    · show seq = w₃.db.countRunEvents m₃.runId
      rw [hans₁ seq rfl, hrun, Db.countRunEvents, Db.countRunEvents, Db.runEvents, Db.runEvents,
        hev]
    · show startIndex = w₃.db.countSessionEvents
      rw [hans₂ startIndex rfl, Db.countSessionEvents, Db.countSessionEvents, hev₁, hev]
    · show seen = w₃.db.listEventIds m₃.runId
      rw [hans₃ seen rfl, hrun, Db.listEventIds, Db.listEventIds, Db.runEvents, Db.runEvents,
        hev₃]
  refine Proc.Sat.mono (Quiet.sat ?_ hcur) ?_
  · refine Quiet.bind (Quiet.statement (by simp)) fun _ => ?_
    refine Quiet.bind (Quiet.setMem fun _ => rfl) fun _ => ?_
    refine Quiet.bind (Quiet.statement (by simp)) fun _ => ?_
    refine Quiet.bind (Quiet.setMem fun _ => rfl) fun _ => ?_
    refine Quiet.bind Quiet.getMem fun m' => ?_
    refine Quiet.ite (Quiet.pure _) ?_
    cases m'.mode with
    | observe => exact preambleObserve_quiet
    | follow => exact preambleFollow_quiet
  · rintro r m' w' ⟨-, -, hc⟩
    rcases r with err | go
    · exact hc.durable
    · cases go with
      | true => exact ⟨F, hc⟩
      | false => exact hc.durable

theorem start_sat {m : TailMem} {w : World} {F : Nat} (hlog : Log runs base w F)
    (hS : w.lines <+: S) (hr : runs m.runId)
    (hown : ∀ i e, w.db.countSessionEvents ≤ i → i < F → w.lines[i]? = some (some e) →
      e ∈ w.db.runEvents m.runId) :
    start.Sat (readerAnswers S) (fun _ w' => Durable runs base S w') m w
      (fun _ m' w' => Sound runs base S m' w') := by
  refine backstop_sat ((preamble_sat hlog hS hr hown).bind ?_ ?_)
  · rintro go m' w' hgo
    cases go with
    | true =>
      obtain ⟨F', hc⟩ := hgo
      refine ⟨F', ?_⟩
      exact ⟨hc.log, hc.stream, hc.tailed, hc.seq, hc.seen, hc.start, hc.own⟩
    | false => exact Sound.exit m' hgo
  · rintro err m' w' h
    exact h

/-! ## The session invariant -/

/-- What holds of a session in every state its tails bring it to. -/
structure Session.Sound (runs : RunId → Prop) (base : List StoredRunEvent) (S : List Line)
    (s : Session) : Prop where
  durable : Durable runs base S s.world
  tail : ∀ m, s.tail = some m → Tailer.Sound runs base S m s.world

theorem Runs.sound {p : Tail Unit} {m : TailMem} {w w' : World} {t : Option TailMem}
    (h : Runs S p m w t w')
    (hp : p.Sat (readerAnswers S) (fun _ w' => Durable runs base S w') m w
      (fun _ m' w' => Tailer.Sound runs base S m' w')) :
    Session.Sound runs base S ⟨w', t⟩ := by
  cases h with
  | done h =>
    have hs := Thread.Sat.done_of_reaches hp h
    refine ⟨hs.durable, fun m' hm' => ?_⟩
    cases hm'
    exact hs
  | cut h =>
    refine ⟨Thread.Sat.await_of_reaches hp h, fun m' hm' => ?_⟩
    cases hm'

theorem Sound.mono {m m' : TailMem} {w w' : World} (h : Tailer.Sound runs base S m w)
    (hm : m'.cursor = m.cursor) (hev : w'.db.events = w.db.events) (hl : w.lines <+: w'.lines)
    (hS : w'.lines <+: S) : Tailer.Sound runs base S m' w' := by
  have hph : m'.phase = m.phase := congrArg CursorVars.phase hm
  have hd : Durable runs base S w' := by
    obtain ⟨F, hlog⟩ := h.durable.2
    exact ⟨hS, F, hlog.mono hev hl⟩
  unfold Tailer.Sound at h ⊢
  rw [hph]
  cases hcase : m.phase with
  | opening => exact hd
  | exited => exact hd
  | connecting =>
    rw [hcase] at h
    obtain ⟨F, hc⟩ := h
    exact ⟨F, hc.mono hm hev hl hS⟩
  | reading pos =>
    rw [hcase] at h
    obtain ⟨hpos, F, p, hr⟩ := h
    exact ⟨hpos.trans hl.length_le, F, p, hr.mono hpos hm hev hl hS⟩

/-- One step keeps the session sound, where tails start only in worlds in which the
lines from the session's count on that are stored are stored under their run. -/
theorem TailStep.sound (hS : UniqueIds S) {allow : RunId → World → Prop}
    (hallow : ∀ r w, allow r w → runs r ∧ ∀ F, Log runs base w F → ∀ i e,
      w.db.countSessionEvents ≤ i → i < F → w.lines[i]? = some (some e) →
        e ∈ w.db.runEvents r)
    {s s' : Session} (h : TailStep allow S s s') (hs : s.Sound runs base S) :
    s'.Sound runs base S := by
  cases h with
  | outside hev hl hSl =>
    obtain ⟨F, hlog⟩ := hs.durable.2
    exact ⟨⟨hSl, F, hlog.mono hev hl⟩, fun m hm => (hs.tail m hm).mono rfl hev hl hSl⟩
  | beside hm =>
    refine ⟨hs.durable, fun m' hm' => ?_⟩
    cases hm'
    exact (hs.tail _ rfl).mono hm rfl List.prefix_rfl hs.durable.1
  | start hidle hr h =>
    obtain ⟨hSl, F, hlog⟩ := hs.durable
    obtain ⟨hruns, hown⟩ := hallow _ _ hr
    exact h.sound (start_sat hlog hSl hruns (hown F hlog))
  | connect hph h =>
    have hm := hs.tail _ rfl
    unfold Tailer.Sound at hm
    rw [hph] at hm
    obtain ⟨F, hc⟩ := hm
    exact h.sound (connect_sat hc)
  | line hph hl h =>
    have hm := hs.tail _ rfl
    unfold Tailer.Sound at hm
    rw [hph] at hm
    obtain ⟨-, F, p, hr⟩ := hm
    exact h.sound (consumeLine_sat hS hr hl)
  | drop hph h =>
    have hm := hs.tail _ rfl
    unfold Tailer.Sound at hm
    rw [hph] at hm
    obtain ⟨-, F, p, hr⟩ := hm
    exact h.sound (streamDrop_sat hr.cursor)
  | crash => exact ⟨hs.durable, fun m hm => by cases hm⟩

theorem Session.Sound.run (hS : UniqueIds S) {allow : RunId → World → Prop}
    (hallow : ∀ r w, allow r w → runs r ∧ ∀ F, Log runs base w F → ∀ i e,
      w.db.countSessionEvents ≤ i → i < F → w.lines[i]? = some (some e) →
        e ∈ w.db.runEvents r)
    {s s' : Session} (h : Relation.ReflTransGen (TailStep allow S) s s')
    (hs : s.Sound runs base S) : s'.Sound runs base S := by
  induction h with
  | refl => exact hs
  | tail _ hstep ih => exact hstep.sound hS hallow ih

/-! ## The log of one run -/

/-- Two runs whose sends are armed, and the two turns they opened. -/
def soundLines : Session where
  world :=
    { db := ⟨[.armed 1 (some ⟨"one"⟩) 0, .armed 2 (some ⟨"two"⟩) 1], [], .active⟩
      lines := [
        some ⟨.turnStarted 1, some 1⟩, some ⟨.messageReceived 1 "one", some 2⟩,
        some ⟨.sessionWaiting, some 3⟩, some ⟨.turnStarted 2, some 4⟩,
        some ⟨.messageReceived 2 "two", some 5⟩, some ⟨.sessionWaiting, some 6⟩]
      sessionDead := false }
  tail := none

/-- The same stream behind a line that does not parse. -/
def brokenLines : Session :=
  { soundLines with world := { soundLines.world with lines := none :: soundLines.world.lines } }

theorem UniqueIds.nodup_segment (h : UniqueIds S) {lines : List Line} (hl : lines <+: S)
    (a b : Nat) : (parsed (segment lines a b)).Nodup := by
  have hsub : (segment lines a b).Sublist S :=
    ((List.drop_sublist a _).trans (List.take_sublist b lines)).trans hl.sublist
  exact (h.2.of_map _).sublist (hsub.filterMap id)

/-- A session before any tail of a run. -/
theorem Session.Sound.init {s : Session} (hfresh : ∀ row ∈ s.world.db.events, ¬ runs row.runId)
    (hcount : s.world.db.countSessionEvents ≤ s.world.lines.length)
    (hlines : s.world.lines <+: S) (htail : s.tail = none) :
    s.Sound runs s.world.db.events S := by
  refine ⟨⟨hlines, s.world.db.countSessionEvents, le_rfl, hcount, ⟨[], ?_, ?_, ?_⟩, hfresh, ?_⟩, ?_⟩
  · rw [List.append_nil]
  · simp [segment, Db.countSessionEvents]
  · intro row hrow
    cases hrow
  · intro r hr
    have : s.world.db.events.filter (·.runId == r) = [] := by
      rw [List.filter_eq_nil_iff]
      intro row hrow hid
      exact hfresh row hrow (by rwa [beq_iff_eq.mp hid])
    simp [Db.countRunEvents, Db.runEvents, this]
  · intro m hm
    rw [htail] at hm
    cases hm

/-- The stored events that lie on a line from the session's event count on are stored
under `r`. -/
def StartsClean (r : RunId) (w : World) : Prop :=
  ∀ e ∈ parsed (w.lines.drop w.db.countSessionEvents),
    e ∈ w.db.events.map StoredRunEvent.event → e ∈ w.db.runEvents r

instance (r : RunId) (w : World) : Decidable (StartsClean r w) :=
  inferInstanceAs (Decidable (∀ e ∈ _, _ → _))

theorem Log.events_eq {w : World} {F : Nat} (h : Log (fun _ => True) [] w F) :
    w.db.events.map StoredRunEvent.event = parsed (w.lines.take F) := by
  obtain ⟨new, hev, hnew, -⟩ := h.rows
  rw [hev, List.nil_append, hnew]
  rfl

theorem Log.stored_of_lt {w : World} {F : Nat} (h : Log (fun _ => True) [] w F) {i : Nat}
    {e : EveStreamEvent} (hi : i < F) (he : w.lines[i]? = some (some e)) :
    e ∈ w.db.events.map StoredRunEvent.event := by
  rw [h.events_eq, ← List.drop_zero (l := w.lines.take F)]
  exact mem_parsed_segment.mpr ⟨i, Nat.zero_le _, hi, he⟩

theorem mem_parsed_drop {lines : List Line} {a : Nat} {e : EveStreamEvent} :
    e ∈ parsed (lines.drop a) ↔ ∃ i, a ≤ i ∧ lines[i]? = some (some e) := by
  rw [mem_parsed, List.mem_iff_getElem?]
  constructor
  · rintro ⟨j, hj⟩
    rw [List.getElem?_drop] at hj
    exact ⟨a + j, Nat.le_add_right _ _, hj⟩
  · rintro ⟨i, hai, hi⟩
    refine ⟨i - a, ?_⟩
    rw [List.getElem?_drop, Nat.add_sub_cancel' hai, hi]

theorem Session.Sound.run_clean (hS : UniqueIds S) {s s' : Session}
    (hev : s.world.db.events = []) (hlines : s.world.lines <+: S) (htail : s.tail = none)
    (h : Relation.ReflTransGen (TailStep StartsClean S) s s') :
    s'.Sound (fun _ => True) [] S := by
  have hinit : s.Sound (fun _ => True) s.world.db.events S := by
    refine Session.Sound.init ?_ ?_ hlines htail
    · rw [hev]
      exact fun row hrow => by cases hrow
    · rw [Db.countSessionEvents, hev]
      exact Nat.zero_le _
  rw [hev] at hinit
  refine hinit.run hS ?_ h
  intro r w hclean
  refine ⟨trivial, fun F hlog i e hi hF he => ?_⟩
  exact hclean e (mem_parsed_drop.mpr ⟨i, hi, he⟩) (hlog.stored_of_lt hF he)

/-- Tails of any runs, one after another, each started clean: the rows of the session are
the parsed lines of the stream up to a frontier, each stored once. -/
theorem session_persists_once (hS : UniqueIds S) {s s' : Session}
    (hev : s.world.db.events = []) (hlines : s.world.lines <+: S) (htail : s.tail = none)
    (h : Relation.ReflTransGen (TailStep StartsClean S) s s') :
    (s'.world.db.events.map StoredRunEvent.event).Nodup ∧ ∃ F ≤ s'.world.lines.length,
      s'.world.db.events.map StoredRunEvent.event = parsed (s'.world.lines.take F) := by
  have hsound := Session.Sound.run_clean hS hev hlines htail h
  obtain ⟨hl, F, hlog⟩ := hsound.durable
  refine ⟨?_, F, hlog.len, hlog.events_eq⟩
  rw [hlog.events_eq]
  exact hS.nodup_segment hl 0 F

/-- Two runs on a stream without broken lines. -/
theorem session_persists_once_two_runs :
    ∃ s' ∈ soundLines.play [.start 1 .follow 0, .connect, .line, .line, .line,
        .start 2 .follow 1, .connect, .line, .line, .line],
      (s'.world.db.events.map StoredRunEvent.event).Nodup ∧ ∃ F ≤ s'.world.lines.length,
        s'.world.db.events.map StoredRunEvent.event = parsed (s'.world.lines.take F) := by
  obtain ⟨s', hplay⟩ : ∃ s', s' ∈ soundLines.play [.start 1 .follow 0, .connect, .line, .line,
      .line, .start 2 .follow 1, .connect, .line, .line, .line] :=
    Option.isSome_iff_exists.mp (by decide +kernel)
  refine ⟨s', hplay, ?_⟩
  exact session_persists_once (S := soundLines.world.lines) (s := soundLines) (by decide) rfl
    List.prefix_rfl rfl (Session.play_run hplay List.prefix_rfl (by decide +kernel))

/-- One line that does not parse, and the next run's tail reads the last event of the
former run again: its own seen filter does not know it. -/
theorem event_stored_under_two_runs :
    ∃ s s' : Session, UniqueIds s.world.lines ∧ s.world.db.events = [] ∧ s.tail = none ∧
      Relation.ReflTransGen (TailStep (fun _ _ => True) s.world.lines) s s' ∧
      ∃ e ∈ s'.world.db.runEvents 1, e ∈ s'.world.db.runEvents 2 := by
  obtain ⟨s', hplay, hdup⟩ : ∃ s' ∈ brokenLines.play [.start 1 .follow 0, .connect, .line, .line,
      .line, .line, .start 2 .follow 1, .connect, .line],
      ∃ e ∈ s'.world.db.runEvents 1, e ∈ s'.world.db.runEvents 2 := by
    decide +kernel
  exact ⟨brokenLines, s', by decide, rfl, rfl,
    Session.play_run hplay List.prefix_rfl fun _ _ => trivial, hdup⟩

end InvisibleString.Tailer
