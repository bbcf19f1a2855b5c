import InvisibleString.Lib.EventLoop
import InvisibleString.Lib.Json
import InvisibleString.Tailer.Events

/- # `Sse.Follow` — replay, then follow

One SSE connection of a run (`createRunSseResponse`).  It subscribes to the bus first and
buffers what it hears, reads the persisted events behind its cursor, flushes the buffer
dropping what the read had, and then follows the bus until a stream-terminal status.

The connection runs beside the writers of the run: events are persisted and published
later, in order; the row takes a status and the status is published later; the client may
go away.  What a statement reads it reads at one moment of its await, the answer comes at a
later one.  Persisted events are numbered in increasing order, gaps allowed.

**Proved here.**

    written events  =  the persisted ones behind the cursor, up to some one  (`follow_upTo`)
    closed by a status: the replay read's events and those published before  (`follow_closed`)
    no gap, no duplicate, and complete where a status closed the stream
      ⟺  the closing status overtook no event  (`follow_gapFree_iff`)
-/

namespace InvisibleString.Sse

open EventLoop Json Tailer Relation

/-- A row of `run_events`. -/
structure StoredRunEvent (E : Type) where
  seq : Nat
  event : E
  at_ : JsString
  deriving DecidableEq

structure RunEventFrame (E : Type) where
  runId : JsString
  seq : Nat
  event : E
  at_ : JsString
  /-- eve's `meta.id`; only live frames pass it on -/
  eventId : Option JsString
  deriving DecidableEq

/-- `error` is `none` where the frame has no such field. -/
structure RunStatusFrame where
  runId : JsString
  status : RunStatus
  error : Option (Option JsString)
  deriving DecidableEq

/-- No further frames will arrive for a run in this status. -/
def isStreamTerminalStatus (status : RunStatus) : Bool :=
  status ≠ .queued && status ≠ .running

/-- Where a status stands among the events: how many were persisted when the row took it,
how many were published when it reached the connection. -/
structure Mark where
  persisted : Nat
  published : Nat
  deriving DecidableEq

/-- `RunStreamFrame`, a status with its mark. -/
inductive RunStreamFrame (E : Type) where
  | event (frame : RunEventFrame E)
  | status (frame : RunStatusFrame) (mark : Mark)
  deriving DecidableEq

/-- One `controller.enqueue`. -/
inductive Chunk (E : Type) where
  | retry
  | heartbeat
  | event (frame : RunEventFrame E)
  | status (frame : RunStatusFrame)
  deriving DecidableEq

/-- The variables of one connection.  `errored` is the stream's own state, after `start`
threw; `closedBy` is the mark of the status that closed the stream. -/
structure Connection (E : Type) where
  closed : Bool
  errored : Bool
  subscribed : Bool
  heartbeat : Bool
  replaying : Bool
  lastSentSeq : Int
  buffered : List (RunStreamFrame E)
  written : List (Chunk E)
  closedBy : Option Mark
  deriving DecidableEq

variable {E : Type}

namespace Connection

/-- `let lastSentSeq = lastEventId ?? -1`. -/
def cursor (lastEventId : Option Nat) : Int := lastEventId.elim (-1) fun n => (n : Int)

/-- The variables before `start` runs. -/
def fresh (lastEventId : Option Nat) : Connection E where
  closed := false
  errored := false
  subscribed := false
  heartbeat := false
  replaying := true
  lastSentSeq := cursor lastEventId
  buffered := []
  written := []
  closedBy := none

def cleanup (c : Connection E) : Connection E :=
  { c with closed := true, subscribed := false, heartbeat := false }

def send (chunk : Chunk E) (c : Connection E) : Connection E :=
  if c.closed then c
  -- enqueue throws on an errored stream
  else if c.errored then c.cleanup
  else { c with written := c.written ++ [chunk] }

def close (mark : Mark) (c : Connection E) : Connection E :=
  if c.closed then c else { c.cleanup with closedBy := some mark }

def sendEventFrame (frame : RunEventFrame E) (c : Connection E) : Connection E :=
  c.send (.event frame)

def sendStatusFrame (frame : RunStatusFrame) (mark : Mark) (c : Connection E) : Connection E :=
  if isStreamTerminalStatus frame.status then (c.send (.status frame)).close mark
  else c.send (.status frame)

/-- One frame, live or out of the buffer. -/
def deliver (c : Connection E) : RunStreamFrame E → Connection E
  | .event frame =>
    if (frame.seq : Int) ≤ c.lastSentSeq then c
    else { c with lastSentSeq := frame.seq }.sendEventFrame frame
  | .status frame mark => c.sendStatusFrame frame mark

/-- The bus listener. -/
def listen (c : Connection E) (frame : RunStreamFrame E) : Connection E :=
  if c.replaying then { c with buffered := c.buffered ++ [frame] } else c.deliver frame

/-- `bus.publish`, as far as this connection is concerned. -/
def publish (c : Connection E) (frame : RunStreamFrame E) : Connection E :=
  if c.subscribed then c.listen frame else c

/-- One replayed record. -/
def replay (runId : JsString) (c : Connection E) (record : StoredRunEvent E) : Connection E :=
  { c with lastSentSeq := record.seq }.sendEventFrame
    ⟨runId, record.seq, record.event, record.at_, none⟩

/-- The flush: replaying is over, what was heard meanwhile is delivered. -/
def flush (c : Connection E) : Connection E :=
  { c.buffered.foldl deliver { c with replaying := false } with buffered := [] }

def sawTerminalStatus (frames : List (RunStreamFrame E)) : Bool :=
  frames.any fun frame => match frame with
    | .event _ => false
    | .status frame _ => isStreamTerminalStatus frame.status

def setHeartbeat (c : Connection E) : Connection E :=
  if c.closed then c else { c with heartbeat := true }

/-- The client went away. -/
def cancel (c : Connection E) : Connection E := c.cleanup

end Connection

/-! ## The program -/

/-- A run's row as `getRunStatus` selects it. -/
structure RunStatusRow where
  status : RunStatus
  error : Option JsString

inductive StreamOp where
  | listEventsAfter (seq : Int)
  | getRunStatus

/-- The statements of `start`.  The status comes with its mark. -/
def StreamSig (E : Type) : Signature where
  Op := StreamOp
  Ret
    | .listEventsAfter _ => List (StoredRunEvent E)
    | .getRunStatus => Option (RunStatusRow × Mark)
  Err := Unit

def start (runId : JsString) : Proc (StreamSig E) (Connection E) Unit := do
  Proc.update fun c => { c with subscribed := true }
  Proc.update (·.send .retry)
  let c ← Proc.read
  let replayed ← Proc.call (S := StreamSig E) (.listEventsAfter c.lastSentSeq)
  Proc.update fun c => replayed.foldl (·.replay runId) c
  let c ← Proc.read
  let sawTerminalStatus := Connection.sawTerminalStatus c.buffered
  Proc.update (·.flush)
  let c ← Proc.read
  if !c.closed && !sawTerminalStatus then
    let run ← Proc.call (S := StreamSig E) .getRunStatus
    match run with
    | some (run, mark) =>
      if isStreamTerminalStatus run.status then
        Proc.update (·.sendStatusFrame ⟨runId, run.status, some run.error⟩ mark)
      else Proc.ret ()
    | none => Proc.ret ()
  else Proc.ret ()
  Proc.update (·.setHeartbeat)

/-- The stream errors where `start` throws. -/
def createRunSseResponse (runId : JsString) : Proc (StreamSig E) (Connection E) Unit :=
  Proc.handle (start runId) fun _ => Proc.update fun c => { c with errored := true }

/-! ## The run beside the connection -/

/-- The run as the connection can see it.  `row` keeps with the status how many events were
persisted when it was taken, `settlements` these numbers for the stream-terminal ones;
`caught` is how many events the replay read found persisted. -/
structure Feed (E : Type) where
  log : List (StoredRunEvent E)
  published : Nat
  row : Option (RunStatusRow × Nat)
  settlements : List Nat
  caught : Option Nat

def RunEventFrame.record (frame : RunEventFrame E) : StoredRunEvent E :=
  ⟨frame.seq, frame.event, frame.at_⟩

/-- What may happen while the connection waits. -/
inductive Env : Connection E × Feed E → Connection E × Feed E → Prop
  /-- an event is persisted, numbered behind those that are -/
  | append {c w} (e : StoredRunEvent E) (hseq : ∀ r ∈ w.log, r.seq < e.seq) :
      Env (c, w) (c, { w with log := w.log ++ [e] })
  /-- the next persisted event is published -/
  | publish {c w} (frame : RunEventFrame E) (hnext : w.log[w.published]? = some frame.record) :
      Env (c, w) (c.publish (.event frame), { w with published := w.published + 1 })
  /-- the row takes a status -/
  | markRun {c w} (row : RunStatusRow) :
      Env (c, w) (c, { w with
        row := some (row, w.log.length)
        settlements := if isStreamTerminalStatus row.status then w.log.length :: w.settlements
          else w.settlements })
  /-- a status is published; a stream-terminal one was taken by the row before -/
  | publishStatus {c w} (frame : RunStatusFrame) (persisted : Nat)
      (htaken : isStreamTerminalStatus frame.status = true → persisted ∈ w.settlements) :
      Env (c, w) (c.publish (.status frame ⟨persisted, w.published⟩), w)
  | heartbeat {c w} (hset : c.heartbeat = true) : Env (c, w) (c.send .heartbeat, w)
  | cancel {c w} : Env (c, w) (c.cancel, w)

/-- A statement reads at one moment and is answered at a later one. -/
inductive Answered : Answers (StreamSig E) (Connection E) (Feed E)
  | listEventsAfter {seq c w c₁ w₁ c' w'} (hbefore : ReflTransGen Env (c, w) (c₁, w₁))
      (hafter : ReflTransGen Env (c₁, { w₁ with caught := some w₁.log.length }) (c', w')) :
      Answered (.listEventsAfter seq) c w
        (.ok (w₁.log.filter fun r => seq < (r.seq : Int))) c' w'
  | getRunStatus {c w c₁ w₁ c' w'} (hbefore : ReflTransGen Env (c, w) (c₁, w₁))
      (hafter : ReflTransGen Env (c₁, w₁) (c', w')) :
      Answered .getRunStatus c w
        (.ok (w₁.row.map fun r => (r.1, ⟨r.2, w'.published⟩))) c' w'
  | throws {op c w c' w'} (h : ReflTransGen Env (c, w) (c', w')) :
      Answered op c w (.error ()) c' w'

/-- What the run is to begin with. -/
structure Feed.Good (w : Feed E) : Prop where
  sorted : w.log.Pairwise fun a b => a.seq < b.seq
  published_le : w.published ≤ w.log.length
  row_le : ∀ r ∈ w.row, r.2 ≤ w.log.length
  settlements_le : ∀ k ∈ w.settlements, k ≤ w.log.length

/-- A moment of a connection to a run: the connection was opened on a good feed. -/
def Reachable (runId : JsString) (lastEventId : Option Nat) (c : Connection E) (w : Feed E) :
    Prop :=
  ∃ w₀ t w₁, w₀.Good ∧ w₀.caught = none ∧
    Thread.Reaches Answered (createRunSseResponse runId (.fresh lastEventId)) w₀ t w₁ ∧
    ReflTransGen Env (t.mem, w₁) (c, w)

/-- The persisted event a chunk carries. -/
def Chunk.record : Chunk E → Option (StoredRunEvent E)
  | .event frame => some frame.record
  | _ => none

/-- The events written so far. -/
def Connection.events (c : Connection E) : List (StoredRunEvent E) :=
  c.written.filterMap Chunk.record

/-- The first `n` events of a log, as far as they are behind the cursor. -/
def upTo (cursor : Int) (log : List (StoredRunEvent E)) (n : Nat) : List (StoredRunEvent E) :=
  (log.take n).filter fun r => cursor < (r.seq : Int)

/-! ## The feed -/

theorem Env.good {s s' : Connection E × Feed E} (h : Env s s') (hg : s.2.Good) : s'.2.Good := by
  cases h with
  | append e hseq =>
    refine ⟨?_, ?_, ?_, ?_⟩
    · rw [List.pairwise_append]
      refine ⟨hg.sorted, List.pairwise_singleton _ _, fun a ha b hb => ?_⟩
      rw [List.mem_singleton.mp hb]
      exact hseq a ha
    · exact Nat.le_trans hg.published_le (by simp)
    · exact fun r hr => Nat.le_trans (hg.row_le r hr) (by simp)
    · exact fun k hk => Nat.le_trans (hg.settlements_le k hk) (by simp)
  | publish frame hnext =>
    exact ⟨hg.sorted, (List.getElem?_eq_some_iff.mp hnext).1, hg.row_le, hg.settlements_le⟩
  | markRun row =>
    refine ⟨hg.sorted, hg.published_le, ?_, ?_⟩
    · intro r hr
      rw [← Option.some.inj hr]
    · intro k hk
      dsimp only at hk
      split at hk
      · rcases List.mem_cons.mp hk with rfl | hk
        · exact Nat.le_refl _
        · exact hg.settlements_le k hk
      · exact hg.settlements_le k hk
  | publishStatus frame persisted htaken => exact hg
  | heartbeat hset => exact hg
  | cancel => exact hg

theorem Env.log_grows {s s' : Connection E × Feed E} (h : Env s s') :
    s.2.log <+: s'.2.log ∧ s'.2.caught = s.2.caught := by
  cases h with
  | append e hseq => exact ⟨List.prefix_append _ _, rfl⟩
  | publish frame hnext => exact ⟨List.prefix_refl _, rfl⟩
  | markRun row => exact ⟨List.prefix_refl _, rfl⟩
  | publishStatus frame persisted htaken => exact ⟨List.prefix_refl _, rfl⟩
  | heartbeat hset => exact ⟨List.prefix_refl _, rfl⟩
  | cancel => exact ⟨List.prefix_refl _, rfl⟩

theorem envs_log_grows {s s' : Connection E × Feed E} (h : ReflTransGen Env s s') :
    s.2.log <+: s'.2.log ∧ s'.2.caught = s.2.caught := by
  induction h with
  | refl => exact ⟨List.prefix_refl _, rfl⟩
  | tail _ h ih => exact ⟨ih.1.trans h.log_grows.1, h.log_grows.2.trans ih.2⟩

/-! ## What has been sent -/

section Sent

variable {cursor : Int} {log log' : List (StoredRunEvent E)} {k n p : Nat} {c : Connection E}

/-- An open connection that has written exactly the first `n` events behind the cursor, and
whose `lastSentSeq` tells these from the others. -/
structure CaughtUp (cursor : Int) (log : List (StoredRunEvent E)) (n : Nat) (c : Connection E) :
    Prop where
  events : c.events = upTo cursor log n
  sent : ∀ i e, log[i]? = some e → ((e.seq : Int) ≤ c.lastSentSeq ↔ i < n ∨ (e.seq : Int) ≤ cursor)
  last : c.lastSentSeq = cursor ∨ ∃ e ∈ log, c.lastSentSeq = e.seq ∧ cursor < (e.seq : Int)

/-- A connection after the replay read found `k` events and `p` were published: open, it has
what either of them gave; closed, it has what they gave when it closed. -/
structure Sent (cursor : Int) (log : List (StoredRunEvent E)) (k p : Nat) (c : Connection E) :
    Prop where
  open_ : c.closed = false → CaughtUp cursor log (max k p) c ∧ c.closedBy = none
  closed : c.closed = true → ∃ n ≤ log.length, c.events = upTo cursor log n ∧
    ∀ mark ∈ c.closedBy, n = max k mark.published ∧ mark.persisted ≤ log.length

theorem upTo_append (h : n ≤ log.length) (r : List (StoredRunEvent E)) :
    upTo cursor (log ++ r) n = upTo cursor log n := by
  unfold upTo
  rw [List.take_append_of_le_length h]

theorem upTo_succ {e : StoredRunEvent E} (h : log[n]? = some e) :
    upTo cursor log (n + 1) =
      upTo cursor log n ++ if cursor < (e.seq : Int) then [e] else [] := by
  unfold upTo
  rw [List.take_add_one, h, Option.toList_some, List.filter_append]
  congr 1
  rw [List.filter_cons, List.filter_nil]
  simp

theorem upTo_isPrefix : upTo cursor log n <+: log.filter fun r => cursor < (r.seq : Int) :=
  (List.take_prefix n log).filter _

theorem events_append_record (c : Connection E) (chunk : Chunk E) :
    ({ c with written := c.written ++ [chunk] } : Connection E).events =
      c.events ++ chunk.record.toList := by
  unfold Connection.events
  rw [List.filterMap_append]
  cases h : chunk.record with
  | none => rw [List.filterMap_cons_none h]; rfl
  | some r => rw [List.filterMap_cons_some h]; rfl

/-- What `send` does: nothing, or it closes, or it writes. -/
theorem send_cases (c : Connection E) (chunk : Chunk E) :
    (c.closed = true ∧ c.send chunk = c) ∨
      (c.closed = false ∧ c.send chunk = c.cleanup) ∨
      (c.closed = false ∧ c.send chunk = { c with written := c.written ++ [chunk] }) := by
  unfold Connection.send
  split
  · rename_i h
    exact Or.inl ⟨h, rfl⟩
  · rename_i h
    rw [Bool.not_eq_true] at h
    split
    · exact Or.inr (Or.inl ⟨h, rfl⟩)
    · exact Or.inr (Or.inr ⟨h, rfl⟩)

theorem Sent.cleanup (h : Sent cursor log k p c) (hk : k ≤ log.length) (hp : p ≤ log.length) :
    Sent cursor log k p c.cleanup := by
  refine ⟨fun hc => absurd hc (by simp [Connection.cleanup]), fun _ => ?_⟩
  cases hc : c.closed with
  | false =>
    obtain ⟨hup, hby⟩ := h.open_ hc
    refine ⟨max k p, Nat.max_le.mpr ⟨hk, hp⟩, hup.events, fun mark hmark => ?_⟩
    rw [Connection.cleanup, hby] at hmark
    cases hmark
  | true => exact h.closed hc

theorem Sent.send (h : Sent cursor log k p c) (hk : k ≤ log.length) (hp : p ≤ log.length)
    (chunk : Chunk E) (hrec : chunk.record = none) : Sent cursor log k p (c.send chunk) := by
  rcases send_cases c chunk with ⟨-, heq⟩ | ⟨-, heq⟩ | ⟨hc, heq⟩
  · rw [heq]
    exact h
  · rw [heq]
    exact h.cleanup hk hp
  · obtain ⟨hup, hby⟩ := h.open_ hc
    rw [heq]
    refine ⟨fun _ => ⟨⟨?_, hup.sent, hup.last⟩, hby⟩, fun hc' => ?_⟩
    · rw [events_append_record, hrec]
      exact (List.append_nil _).trans hup.events
    · exact absurd (hc.symm.trans hc') Bool.false_ne_true

theorem Sent.status (h : Sent cursor log k p c) (hk : k ≤ log.length) (hp : p ≤ log.length)
    (frame : RunStatusFrame) {mark : Mark} (hpub : mark.published = p)
    (hper : isStreamTerminalStatus frame.status = true → mark.persisted ≤ log.length) :
    Sent cursor log k p (c.sendStatusFrame frame mark) := by
  have hsend := h.send hk hp (.status frame) rfl
  unfold Connection.sendStatusFrame
  split
  · rename_i hterminal
    unfold Connection.close
    split
    · exact hsend
    · rename_i hopen
      rw [Bool.not_eq_true] at hopen
      obtain ⟨hup, -⟩ := hsend.open_ hopen
      refine ⟨fun hc => absurd hc (by simp [Connection.cleanup]), fun _ => ?_⟩
      refine ⟨max k p, Nat.max_le.mpr ⟨hk, hp⟩, hup.events, fun mark' hmark => ?_⟩
      have heq : mark = mark' := Option.some.inj hmark
      subst heq
      exact ⟨by rw [hpub], hper hterminal⟩
  · exact hsend

theorem getElem?_seq_lt (hs : log.Pairwise fun a b => a.seq < b.seq) {i j : Nat}
    {a b : StoredRunEvent E} (hi : log[i]? = some a) (hj : log[j]? = some b) :
    a.seq < b.seq ↔ i < j := by
  obtain ⟨hil, rfl⟩ := List.getElem?_eq_some_iff.mp hi
  obtain ⟨hjl, rfl⟩ := List.getElem?_eq_some_iff.mp hj
  rw [List.pairwise_iff_getElem] at hs
  constructor
  · intro h
    rcases Nat.lt_trichotomy i j with hlt | heq | hgt
    · exact hlt
    · subst heq
      exact absurd h (Nat.lt_irrefl _)
    · exact absurd (hs j i hjl hil hgt) (Nat.lt_asymm h)
  · exact fun h => hs i j hil hjl h

theorem CaughtUp.sendEvent (h : CaughtUp cursor log n c) (hs : log.Pairwise fun a b => a.seq < b.seq)
    {e : StoredRunEvent E} (he : log[n]? = some e) (hcur : cursor < (e.seq : Int))
    (frame : RunEventFrame E) (hframe : frame.record = e) :
    CaughtUp cursor log (n + 1)
      { c with lastSentSeq := e.seq, written := c.written ++ [.event frame] } := by
  refine ⟨?_, ?_, Or.inr ⟨e, List.mem_of_getElem? he, rfl, hcur⟩⟩
  · rw [upTo_succ he, if_pos hcur, ← h.events, ← hframe]
    exact events_append_record { c with lastSentSeq := (frame.record.seq : Int) } (.event frame)
  · intro i e' he'
    show (e'.seq : Int) ≤ (e.seq : Int) ↔ _
    have hlt := getElem?_seq_lt hs he he'
    constructor
    · intro hle
      exact Or.inl (by omega)
    · rintro (hi | hle)
      · have : ¬ e.seq < e'.seq := fun h => absurd (hlt.mp h) (by omega)
        omega
      · omega

theorem CaughtUp.skip (h : CaughtUp cursor log n c) {e : StoredRunEvent E}
    (he : log[n]? = some e) (hle : (e.seq : Int) ≤ c.lastSentSeq) : CaughtUp cursor log (n + 1) c := by
  have hcur : (e.seq : Int) ≤ cursor := by
    rcases (h.sent n e he).mp hle with hlt | hcur
    · exact absurd hlt (Nat.lt_irrefl n)
    · exact hcur
  refine ⟨?_, ?_, h.last⟩
  · rw [upTo_succ he, if_neg (by omega), List.append_nil]
    exact h.events
  · intro i e' he'
    rw [h.sent i e' he']
    constructor
    · rintro (hi | hc)
      · exact Or.inl (by omega)
      · exact Or.inr hc
    · rintro (hi | hc)
      · rcases Nat.lt_succ_iff_lt_or_eq.mp hi with hi | rfl
        · exact Or.inl hi
        · rw [he] at he'
          exact Or.inr (Option.some.inj he' ▸ hcur)
      · exact Or.inr hc

theorem Sent.event (h : Sent cursor log k p c) (hs : log.Pairwise fun a b => a.seq < b.seq)
    {frame : RunEventFrame E} (hp : log[p]? = some frame.record) :
    Sent cursor log k (p + 1) (c.deliver (.event frame)) := by
  have hlen := (List.getElem?_eq_some_iff.mp hp).1
  rw [Connection.deliver]
  rcases Bool.eq_false_or_eq_true c.closed with hc | hc
  · have hsend : ∀ d : Connection E, d.closed = true → d.sendEventFrame frame = d := by
      intro d hd
      rw [Connection.sendEventFrame, Connection.send, if_pos hd]
    obtain ⟨n, hn⟩ := h.closed hc
    split
    · exact ⟨fun hc' => absurd (hc.symm.trans hc') (by decide), fun _ => ⟨n, hn⟩⟩
    · rw [hsend { c with lastSentSeq := (frame.seq : Int) } hc]
      exact ⟨fun hc' => absurd (hc.symm.trans hc') (by decide), fun _ => ⟨n, hn⟩⟩
  · obtain ⟨hup, hby⟩ := h.open_ hc
    have hclosed : ∀ {d : Connection E}, d.closed = false → d.closed = true → False :=
      fun h h' => Bool.false_ne_true (h.symm.trans h')
    by_cases hlt : p < k
    · -- the replay read had it
      have hmax : max k (p + 1) = max k p := by omega
      have hle : (frame.seq : Int) ≤ c.lastSentSeq := (hup.sent p _ hp).mpr (Or.inl (by omega))
      rw [if_pos hle]
      exact ⟨fun _ => by rw [hmax]; exact ⟨hup, hby⟩, fun hc' => (hclosed hc hc').elim⟩
    · have hn : max k p = p := by omega
      have hn' : max k (p + 1) = p + 1 := by omega
      rw [hn] at hup
      split
      · rename_i hle
        refine ⟨fun _ => ⟨?_, hby⟩, fun hc' => (hclosed hc hc').elim⟩
        rw [hn']
        exact hup.skip hp hle
      · rename_i hgt
        have hcur : cursor < (frame.record.seq : Int) :=
          Int.lt_of_not_ge fun hle => hgt ((hup.sent p _ hp).mpr (Or.inr hle))
        rcases send_cases { c with lastSentSeq := (frame.seq : Int) } (.event frame) with
          ⟨hc', -⟩ | ⟨-, heq⟩ | ⟨-, heq⟩
        · exact (hclosed hc hc').elim
        · rw [Connection.sendEventFrame, heq]
          refine ⟨fun hc' => absurd hc' (by simp [Connection.cleanup]), fun _ => ?_⟩
          refine ⟨p, Nat.le_of_lt hlen, hup.events, fun mark hmark => ?_⟩
          have hnone : c.closedBy = some mark := hmark
          rw [hby] at hnone
          cases hnone
        · rw [Connection.sendEventFrame, heq]
          refine ⟨fun _ => ⟨?_, hby⟩, fun hc' => (hclosed hc hc').elim⟩
          rw [hn']
          exact hup.sendEvent hs hp hcur frame rfl

theorem Sent.append (h : Sent cursor log k p c) {e : StoredRunEvent E}
    (hseq : ∀ r ∈ log, r.seq < e.seq) (hk : k ≤ log.length) (hp : p ≤ log.length) :
    Sent cursor (log ++ [e]) k p c := by
  constructor
  · intro hc
    obtain ⟨hup, hby⟩ := h.open_ hc
    have hn : max k p ≤ log.length := Nat.max_le.mpr ⟨hk, hp⟩
    refine ⟨⟨?_, ?_, ?_⟩, hby⟩
    · rw [upTo_append hn]
      exact hup.events
    · intro i e' he'
      rw [List.getElem?_append] at he'
      split at he'
      · exact hup.sent i e' he'
      · rename_i hi
        have hi0 : i - log.length = 0 := by
          have := (List.getElem?_eq_some_iff.mp he').1
          simp only [List.length_singleton] at this
          omega
        rw [hi0] at he'
        have heq : e = e' := Option.some.inj he'
        subst heq
        rcases hup.last with hl | ⟨r, hr, hl, hcur⟩
        · rw [hl]
          exact ⟨Or.inr, fun h => h.resolve_left (by omega)⟩
        · have hr' := hseq r hr
          rw [hl]
          constructor
          · intro hle
            omega
          · rintro (hlt | hle)
            · omega
            · omega
    · rcases hup.last with hl | ⟨r, hr, hl⟩
      · exact Or.inl hl
      · exact Or.inr ⟨r, List.mem_append_left _ hr, hl⟩
  · intro hc
    obtain ⟨n, hn, hev, hmark⟩ := h.closed hc
    refine ⟨n, Nat.le_trans hn (by simp), ?_, fun mark hm => ?_⟩
    · rw [upTo_append hn]
      exact hev
    · exact ⟨(hmark mark hm).1, Nat.le_trans (hmark mark hm).2 (by simp)⟩

/-- What the listener heard while the bus went from `s` published events to `p`. -/
def Heard (log : List (StoredRunEvent E)) : Nat → List (RunStreamFrame E) → Nat → Prop
  | s, [], p => s = p
  | s, .event frame :: rest, p => log[s]? = some frame.record ∧ Heard log (s + 1) rest p
  | s, .status frame mark :: rest, p =>
    mark.published = s ∧
      (isStreamTerminalStatus frame.status = true → mark.persisted ≤ log.length) ∧
        Heard log s rest p

variable {s : Nat} {frames : List (RunStreamFrame E)}

theorem Heard.le (h : Heard log s frames p) : s ≤ p := by
  induction frames generalizing s with
  | nil => exact Nat.le_of_eq h
  | cons frame rest ih =>
    cases frame with
    | event frame => exact Nat.le_of_succ_le (ih h.2)
    | status frame mark => exact ih h.2.2

theorem Heard.concat_event (h : Heard log s frames p) {frame : RunEventFrame E}
    (hp : log[p]? = some frame.record) : Heard log s (frames ++ [.event frame]) (p + 1) := by
  induction frames generalizing s with
  | nil =>
    have hsp : s = p := h
    subst hsp
    exact ⟨hp, rfl⟩
  | cons frame' rest ih =>
    cases frame' with
    | event frame' => exact ⟨h.1, ih h.2⟩
    | status frame' mark => exact ⟨h.1, h.2.1, ih h.2.2⟩

theorem Heard.concat_status (h : Heard log s frames p) (frame : RunStatusFrame) {mark : Mark}
    (hpub : mark.published = p)
    (hper : isStreamTerminalStatus frame.status = true → mark.persisted ≤ log.length) :
    Heard log s (frames ++ [.status frame mark]) p := by
  induction frames generalizing s with
  | nil =>
    have hsp : s = p := h
    subst hsp
    exact ⟨hpub, hper, rfl⟩
  | cons frame' rest ih =>
    cases frame' with
    | event frame' => exact ⟨h.1, ih h.2⟩
    | status frame' mark' => exact ⟨h.1, h.2.1, ih h.2.2⟩

theorem Heard.mono (h : Heard log s frames p) (hlog : log <+: log') : Heard log' s frames p := by
  obtain ⟨r, rfl⟩ := hlog
  induction frames generalizing s with
  | nil => exact h
  | cons frame rest ih =>
    cases frame with
    | event frame =>
      refine ⟨?_, ih h.2⟩
      rw [List.getElem?_append_left (List.getElem?_eq_some_iff.mp h.1).1]
      exact h.1
    | status frame mark =>
      exact ⟨h.1, fun ht => Nat.le_trans (h.2.1 ht) (by simp), ih h.2.2⟩

/-- The flush catches up with what was heard. -/
theorem Sent.deliver (h : Sent cursor log k s c) (hs : log.Pairwise fun a b => a.seq < b.seq)
    (hk : k ≤ log.length) (hp : p ≤ log.length) (hheard : Heard log s frames p) :
    Sent cursor log k p (frames.foldl Connection.deliver c) := by
  induction frames generalizing s c with
  | nil =>
    have hsp : s = p := hheard
    exact hsp ▸ h
  | cons frame rest ih =>
    cases frame with
    | event frame => exact ih (h.event hs hheard.1) hheard.2
    | status frame mark =>
      exact ih (h.status hk (Nat.le_trans hheard.2.2.le hp) frame hheard.1 hheard.2.1) hheard.2.2

theorem Sent.of_closed (hc : c.closed = true) (hev : c.events = []) (hby : c.closedBy = none) :
    Sent cursor log k p c := by
  refine ⟨fun h => absurd (hc.symm.trans h) (by decide), fun _ => ⟨0, Nat.zero_le _, hev, ?_⟩⟩
  intro mark hmark
  rw [hby] at hmark
  cases hmark

end Sent

/-! ## The phases of a connection -/

section Phases

variable {cursor : Int} {runId : JsString} {c : Connection E} {w : Feed E}

/-- Before the flush: nothing is written, the buffer holds what was published since the
subscription. -/
structure Buffering (cursor : Int) (c : Connection E) (w : Feed E) : Prop where
  replaying : c.replaying = true
  events : c.events = []
  last : c.lastSentSeq = cursor
  closedBy : c.closedBy = none
  errored : c.errored = false
  heartbeat : c.heartbeat = false
  heard : c.closed = false → c.subscribed = true ∧
    ∃ s, Heard w.log s c.buffered w.published ∧ ∀ k ∈ w.caught, s ≤ k

/-- From the flush on. -/
structure Following (cursor : Int) (c : Connection E) (w : Feed E) : Prop where
  replaying : c.replaying = false
  sent : ∃ k ∈ w.caught, k ≤ w.log.length ∧ Sent cursor w.log k w.published c
  subscribed : c.closed = false → c.subscribed = true

/-- The replay read failed: the connection buffers for ever. -/
structure Stalled (c : Connection E) : Prop where
  replaying : c.replaying = true
  events : c.events = []
  closedBy : c.closedBy = none

/-- The invariant of a connection and the run beside it. -/
def Inv (cursor : Int) (c : Connection E) (w : Feed E) : Prop :=
  w.Good ∧ (Stalled c ∨ Following cursor c w)

/-- After the replay read: its answer is what was persisted behind the cursor when it read. -/
def Replayed (cursor : Int) :
    Except Unit (List (StoredRunEvent E)) → Connection E → Feed E → Prop
  | .ok rs, c, w => w.Good ∧ Buffering cursor c w ∧
      ∃ k, w.caught = some k ∧ k ≤ w.log.length ∧ rs = upTo cursor w.log k
  | .error _, c, w => Inv cursor c w

theorem Buffering.stalled (h : Buffering cursor c w) : Stalled c :=
  ⟨h.replaying, h.events, h.closedBy⟩

theorem send_events (chunk : Chunk E) (hrec : chunk.record = none) (c : Connection E) :
    (c.send chunk).events = c.events ∧ (c.send chunk).replaying = c.replaying ∧
      (c.send chunk).closedBy = c.closedBy := by
  rcases send_cases c chunk with ⟨-, heq⟩ | ⟨-, heq⟩ | ⟨-, heq⟩
  · rw [heq]
    exact ⟨rfl, rfl, rfl⟩
  · rw [heq]
    exact ⟨rfl, rfl, rfl⟩
  · rw [heq, events_append_record, hrec]
    exact ⟨List.append_nil _, rfl, rfl⟩

theorem publish_replaying (h : c.replaying = true) (frame : RunStreamFrame E) :
    c.publish frame = c ∨
      c.subscribed = true ∧ c.publish frame = { c with buffered := c.buffered ++ [frame] } := by
  rcases Bool.eq_false_or_eq_true c.subscribed with hsub | hsub
  · rw [Connection.publish, if_pos hsub, Connection.listen, if_pos h]
    exact Or.inr ⟨hsub, rfl⟩
  · rw [Connection.publish, if_neg (by rw [hsub]; exact Bool.false_ne_true)]
    exact Or.inl rfl

theorem Stalled.publish (h : Stalled c) (frame : RunStreamFrame E) : Stalled (c.publish frame) := by
  rcases publish_replaying h.replaying frame with heq | ⟨-, heq⟩
  · rw [heq]
    exact h
  · rw [heq]
    exact ⟨h.replaying, h.events, h.closedBy⟩

theorem Env.stalled {s s' : Connection E × Feed E} (h : Env s s') (hst : Stalled s.1) :
    Stalled s'.1 := by
  cases h with
  | append e hseq => exact hst
  | publish frame hnext => exact hst.publish _
  | markRun row => exact hst
  | publishStatus frame persisted htaken => exact hst.publish _
  | heartbeat hset =>
    obtain ⟨hev, hrep, hby⟩ := send_events .heartbeat rfl _
    exact ⟨hrep.trans hst.replaying, hev.trans hst.events, hby.trans hst.closedBy⟩
  | cancel => exact ⟨hst.replaying, hst.events, hst.closedBy⟩

theorem Env.buffering {s s' : Connection E × Feed E} (h : Env s s') (hg : s.2.Good)
    (hb : Buffering cursor s.1 s.2) : Buffering cursor s'.1 s'.2 := by
  have hst := h.stalled hb.stalled
  cases h with
  | @append c w e hseq =>
    refine ⟨hst.replaying, hst.events, hb.last, hst.closedBy, hb.errored, hb.heartbeat, fun hc => ?_⟩
    obtain ⟨hsub, s, hheard, hs⟩ := hb.heard hc
    exact ⟨hsub, s, hheard.mono (List.prefix_append _ _), hs⟩
  | @publish c w frame hnext =>
    rcases publish_replaying hb.replaying (.event frame) with heq | ⟨hsub, heq⟩
    · rw [heq] at hst ⊢
      refine ⟨hst.replaying, hst.events, hb.last, hst.closedBy, hb.errored, hb.heartbeat, fun hc => ?_⟩
      have hsub := (hb.heard hc).1
      rw [Connection.publish, if_pos hsub, Connection.listen, if_pos hb.replaying] at heq
      have hlen := congrArg (fun c => c.buffered.length) heq
      simp at hlen
    · rw [heq] at hst ⊢
      refine ⟨hst.replaying, hst.events, hb.last, hst.closedBy, hb.errored, hb.heartbeat, fun hc => ?_⟩
      obtain ⟨-, s, hheard, hs⟩ := hb.heard hc
      exact ⟨hsub, s, hheard.concat_event hnext, hs⟩
  | markRun row => exact ⟨hst.replaying, hst.events, hb.last, hst.closedBy, hb.errored, hb.heartbeat, hb.heard⟩
  | @publishStatus c w frame persisted htaken =>
    rcases publish_replaying hb.replaying (.status frame ⟨persisted, w.published⟩) with
      heq | ⟨hsub, heq⟩
    · rw [heq]
      exact hb
    · rw [heq] at hst ⊢
      refine ⟨hst.replaying, hst.events, hb.last, hst.closedBy, hb.errored, hb.heartbeat, fun hc => ?_⟩
      obtain ⟨-, s, hheard, hs⟩ := hb.heard hc
      exact ⟨hsub, s, hheard.concat_status frame rfl fun ht => hg.settlements_le _ (htaken ht), hs⟩
  | heartbeat hset => exact absurd (hset.symm.trans hb.heartbeat) (by decide)
  | cancel =>
    refine ⟨hst.replaying, hst.events, hb.last, hst.closedBy, hb.errored, rfl, fun hc => ?_⟩
    exact absurd hc (by simp [Connection.cancel, Connection.cleanup])

theorem send_subscribed (chunk : Chunk E) (c : Connection E) (h : (c.send chunk).closed = false) :
    c.closed = false ∧ (c.send chunk).subscribed = c.subscribed := by
  rcases send_cases c chunk with ⟨-, heq⟩ | ⟨-, heq⟩ | ⟨hc, heq⟩
  · rw [heq] at h ⊢
    exact ⟨h, rfl⟩
  · rw [heq] at h
    exact absurd h (by simp [Connection.cleanup])
  · rw [heq]
    exact ⟨hc, rfl⟩

theorem send_replaying (chunk : Chunk E) (c : Connection E) :
    (c.send chunk).replaying = c.replaying := by
  rcases send_cases c chunk with ⟨-, heq⟩ | ⟨-, heq⟩ | ⟨-, heq⟩
  · rw [heq]
  · rw [heq]
    rfl
  · rw [heq]

/-- A delivered frame leaves the phase, and the subscription of an open connection. -/
theorem deliver_subscribed (frame : RunStreamFrame E) (c : Connection E) :
    (c.deliver frame).replaying = c.replaying ∧ ((c.deliver frame).closed = false →
      c.closed = false ∧ (c.deliver frame).subscribed = c.subscribed) := by
  cases frame with
  | event frame =>
    rw [Connection.deliver]
    split
    · exact ⟨rfl, fun h => ⟨h, rfl⟩⟩
    · exact ⟨send_replaying _ _, fun h => send_subscribed _ _ h⟩
  | status frame mark =>
    rw [Connection.deliver, Connection.sendStatusFrame]
    split
    · rw [Connection.close]
      split
      · rename_i h'
        exact ⟨send_replaying _ _, fun h => absurd (h'.symm.trans h) (by decide)⟩
      · exact ⟨send_replaying _ _, fun h => absurd h (by simp [Connection.cleanup])⟩
    · exact ⟨send_replaying _ _, fun h => send_subscribed _ _ h⟩

theorem foldl_deliver_subscribed (frames : List (RunStreamFrame E)) (c : Connection E) :
    (frames.foldl Connection.deliver c).replaying = c.replaying ∧
      ((frames.foldl Connection.deliver c).closed = false →
        c.closed = false ∧ (frames.foldl Connection.deliver c).subscribed = c.subscribed) := by
  induction frames generalizing c with
  | nil => exact ⟨rfl, fun h => ⟨h, rfl⟩⟩
  | cons frame rest ih =>
    obtain ⟨hrep, hsub⟩ := deliver_subscribed frame c
    obtain ⟨hrep', hsub'⟩ := ih (c.deliver frame)
    refine ⟨hrep'.trans hrep, fun h => ?_⟩
    obtain ⟨hc, heq⟩ := hsub' h
    exact ⟨(hsub hc).1, heq.trans (hsub hc).2⟩

theorem publish_following (h : c.replaying = false) (frame : RunStreamFrame E) :
    c.publish frame = if c.subscribed then c.deliver frame else c := by
  rw [Connection.publish, Connection.listen, if_neg (c := c.replaying = true) (by rw [h]; decide)]

theorem Following.deliver (h : Following cursor c w) (frame : RunStreamFrame E)
    (log : List (StoredRunEvent E)) (published : Nat)
    (hsent : ∀ k ∈ w.caught, k ≤ w.log.length → Sent cursor w.log k w.published c →
      k ≤ log.length ∧ Sent cursor log k published (c.deliver frame)) :
    Following cursor (c.deliver frame) { w with log := log, published := published } := by
  obtain ⟨hrep, hsub⟩ := deliver_subscribed frame c
  refine ⟨hrep.trans h.replaying, ?_, fun hc => ?_⟩
  · obtain ⟨k, hk, hlen, hs⟩ := h.sent
    exact ⟨k, hk, hsent k hk hlen hs⟩
  · exact (hsub hc).2.trans (h.subscribed (hsub hc).1)

theorem Sent.congr {k p : Nat} {log : List (StoredRunEvent E)} {c' : Connection E}
    (h : Sent cursor log k p c) (hc : c'.closed = c.closed) (hw : c'.written = c.written)
    (hl : c'.lastSentSeq = c.lastSentSeq) (hby : c'.closedBy = c.closedBy) :
    Sent cursor log k p c' := by
  have hev : c'.events = c.events := congrArg (List.filterMap Chunk.record) hw
  constructor
  · intro hc'
    obtain ⟨hup, hnone⟩ := h.open_ (hc.symm.trans hc')
    refine ⟨⟨hev.trans hup.events, fun i e he => ?_, ?_⟩, hby.trans hnone⟩
    · rw [hl]
      exact hup.sent i e he
    · rw [hl]
      exact hup.last
  · intro hc'
    rw [hev, hby]
    exact h.closed (hc.symm.trans hc')

theorem Sent.anywhere {k p p' : Nat} {log : List (StoredRunEvent E)} (h : Sent cursor log k p c)
    (hc : c.closed = true) : Sent cursor log k p' c :=
  ⟨fun h' => absurd (hc.symm.trans h') (by decide), h.closed⟩

theorem Env.following {s s' : Connection E × Feed E} (h : Env s s') (hg : s.2.Good)
    (hf : Following cursor s.1 s.2) : Following cursor s'.1 s'.2 := by
  cases h with
  | @append c w e hseq =>
    obtain ⟨k, hk, hlen, hs⟩ := hf.sent
    refine ⟨hf.replaying, ⟨k, hk, ?_, hs.append hseq hlen hg.published_le⟩, hf.subscribed⟩
    exact Nat.le_trans hlen (by simp)
  | @publish c w frame hnext =>
    show Following cursor (c.publish _) _
    rw [publish_following hf.replaying]
    split
    · exact hf.deliver _ _ _ fun k hk hlen hs => ⟨hlen, hs.event hg.sorted hnext⟩
    · rename_i hsub
      have hc : c.closed = true := by
        rcases Bool.eq_false_or_eq_true c.closed with hc | hc
        · exact hc
        · exact absurd (hf.subscribed hc) hsub
      obtain ⟨k, hk, hlen, hs⟩ := hf.sent
      exact ⟨hf.replaying, ⟨k, hk, hlen, hs.anywhere hc⟩, hf.subscribed⟩
  | markRun row => exact ⟨hf.replaying, hf.sent, hf.subscribed⟩
  | @publishStatus c w frame persisted htaken =>
    show Following cursor (c.publish _) _
    rw [publish_following hf.replaying]
    split
    · exact hf.deliver _ _ _ fun k hk hlen hs => ⟨hlen, hs.status hlen hg.published_le frame rfl
        fun ht => hg.settlements_le _ (htaken ht)⟩
    · exact hf
  | @heartbeat c w hset =>
    obtain ⟨k, hk, hlen, hs⟩ := hf.sent
    refine ⟨(send_replaying _ _).trans hf.replaying,
      ⟨k, hk, hlen, hs.send hlen hg.published_le _ rfl⟩, fun hc => ?_⟩
    obtain ⟨hc', hsub⟩ := send_subscribed _ _ hc
    exact hsub.trans (hf.subscribed hc')
  | @cancel c w =>
    obtain ⟨k, hk, hlen, hs⟩ := hf.sent
    refine ⟨hf.replaying, ⟨k, hk, hlen, hs.cleanup hlen hg.published_le⟩, fun hc => ?_⟩
    exact absurd hc (by simp [Connection.cancel, Connection.cleanup])

theorem Env.inv {s s' : Connection E × Feed E} (h : Env s s') (hi : Inv cursor s.1 s.2) :
    Inv cursor s'.1 s'.2 := by
  refine ⟨h.good hi.1, ?_⟩
  rcases hi.2 with hst | hf
  · exact Or.inl (h.stalled hst)
  · exact Or.inr (h.following hi.1 hf)

/-! ## The run of `start` -/

theorem envs_inv {s s' : Connection E × Feed E} (h : ReflTransGen Env s s')
    (hi : Inv cursor s.1 s.2) : Inv cursor s'.1 s'.2 := by
  induction h with
  | refl => exact hi
  | tail _ h ih => exact h.inv ih

theorem envs_buffering {s s' : Connection E × Feed E} (h : ReflTransGen Env s s')
    (hg : s.2.Good) (hb : Buffering cursor s.1 s.2) : s'.2.Good ∧ Buffering cursor s'.1 s'.2 := by
  induction h with
  | refl => exact ⟨hg, hb⟩
  | tail _ h ih => exact ⟨h.good ih.1, h.buffering ih.1 ih.2⟩

theorem envs_following {s s' : Connection E × Feed E} (h : ReflTransGen Env s s')
    (hg : s.2.Good) (hf : Following cursor s.1 s.2) : s'.2.Good ∧ Following cursor s'.1 s'.2 := by
  induction h with
  | refl => exact ⟨hg, hf⟩
  | tail _ h ih => exact ⟨h.good ih.1, h.following ih.1 ih.2⟩

theorem replay_open (hc : c.closed = false) (he : c.errored = false) (r : StoredRunEvent E) :
    c.replay runId r = { c with
      lastSentSeq := r.seq
      written := c.written ++ [.event ⟨runId, r.seq, r.event, r.at_, none⟩] } := by
  rw [Connection.replay, Connection.sendEventFrame, Connection.send,
    if_neg (by rw [hc]; exact Bool.false_ne_true), if_neg (by rw [he]; exact Bool.false_ne_true)]

theorem replay_closed (hc : c.closed = true) (r : StoredRunEvent E) :
    c.replay runId r = { c with lastSentSeq := r.seq } := by
  rw [Connection.replay, Connection.sendEventFrame, Connection.send, if_pos hc]

theorem CaughtUp.replay (runId : JsString) {log : List (StoredRunEvent E)} (hs : log.Pairwise fun a b => a.seq < b.seq)
    (hc : c.closed = false) (he : c.errored = false) (h : CaughtUp cursor log 0 c) (n : Nat)
    (hn : n ≤ log.length) :
    ∃ last written, (upTo cursor log n).foldl (·.replay runId) c =
        { c with lastSentSeq := last, written := written } ∧
      CaughtUp cursor log n { c with lastSentSeq := last, written := written } := by
  induction n with
  | zero => exact ⟨c.lastSentSeq, c.written, rfl, h⟩
  | succ n ih =>
    obtain ⟨last, written, heq, hup⟩ := ih (Nat.le_of_succ_le hn)
    have hget : log[n]? = some log[n] := List.getElem?_eq_getElem hn
    rw [upTo_succ hget, List.foldl_append, heq]
    split
    · rename_i hcur
      refine ⟨_, _, ?_, hup.sendEvent hs hget hcur ⟨runId, _, _, _, none⟩ rfl⟩
      exact replay_open (c := { c with lastSentSeq := last, written := written }) hc he log[n]
    · rename_i hcur
      refine ⟨last, written, rfl, hup.skip hget ?_⟩
      exact (hup.sent n _ hget).mpr (Or.inr (Int.not_lt.mp hcur))

theorem foldl_replay_closed (runId : JsString) (hc : c.closed = true) (rs : List (StoredRunEvent E)) :
    ∃ last, rs.foldl (·.replay runId) c = { c with lastSentSeq := last } := by
  induction rs generalizing c with
  | nil => exact ⟨c.lastSentSeq, rfl⟩
  | cons r rs ih =>
    rw [List.foldl_cons, replay_closed hc]
    exact ih hc

theorem foldl_deliver_closed (hc : c.closed = true) (frames : List (RunStreamFrame E)) :
    ∃ last, frames.foldl Connection.deliver c = { c with lastSentSeq := last } := by
  induction frames generalizing c with
  | nil => exact ⟨c.lastSentSeq, rfl⟩
  | cons frame rest ih =>
    rw [List.foldl_cons]
    have hsend : ∀ (d : Connection E) (chunk : Chunk E), d.closed = true → d.send chunk = d :=
      fun d chunk hd => if_pos hd
    cases frame with
    | event frame =>
      rw [Connection.deliver]
      split
      · exact ih hc
      · rw [Connection.sendEventFrame, hsend { c with lastSentSeq := (frame.seq : Int) } _ hc]
        exact ih hc
    | status frame mark =>
      rw [Connection.deliver, Connection.sendStatusFrame, hsend _ _ hc, Connection.close, if_pos hc,
        ite_self]
      exact ih hc

theorem Buffering.flush (runId : JsString) (h : Buffering cursor c w) (hg : w.Good) {k : Nat} (hk : w.caught = some k)
    (hlen : k ≤ w.log.length) :
    Following cursor ((upTo cursor w.log k).foldl (·.replay runId) c).flush w := by
  rcases Bool.eq_false_or_eq_true c.closed with hc | hc
  · obtain ⟨last, heq⟩ := foldl_replay_closed runId hc (upTo cursor w.log k)
    rw [heq, Connection.flush]
    obtain ⟨last', heq'⟩ := foldl_deliver_closed (E := E) (c := { c with lastSentSeq := last, replaying := false })
      hc c.buffered
    rw [heq']
    exact ⟨rfl, ⟨k, hk, hlen, Sent.of_closed hc h.events h.closedBy⟩,
      fun hc' => absurd (hc.symm.trans hc') (by decide)⟩
  · obtain ⟨hsub, s, hheard, hs⟩ := h.heard hc
    have hup : CaughtUp cursor w.log 0 c := by
      refine ⟨h.events, fun i e he => ?_, Or.inl h.last⟩
      rw [h.last]
      exact ⟨Or.inr, fun h => h.resolve_left (Nat.not_lt_zero i)⟩
    obtain ⟨last, written, heq, hup⟩ := hup.replay runId hg.sorted hc h.errored k hlen
    rw [heq, Connection.flush]
    have hsent : Sent cursor w.log k s
        { c with lastSentSeq := last, written := written, replaying := false } := by
      refine ⟨fun _ => ⟨?_, h.closedBy⟩, fun hc' => absurd (hc.symm.trans hc') (by decide)⟩
      rw [Nat.max_eq_left (hs k hk)]
      exact ⟨hup.events, hup.sent, hup.last⟩
    have hdone := hsent.deliver hg.sorted hlen hg.published_le hheard
    obtain ⟨hrep, hsub'⟩ := foldl_deliver_subscribed c.buffered
      { c with lastSentSeq := last, written := written, replaying := false }
    exact ⟨hrep, ⟨k, hk, hlen, hdone.congr rfl rfl rfl rfl⟩,
      fun hc' => (hsub' hc').2.trans hsub⟩

theorem Following.setHeartbeat (h : Following cursor c w) : Following cursor c.setHeartbeat w := by
  unfold Connection.setHeartbeat
  split
  · exact h
  · obtain ⟨k, hk, hlen, hs⟩ := h.sent
    exact ⟨h.replaying, ⟨k, hk, hlen, hs.congr rfl rfl rfl rfl⟩, h.subscribed⟩

theorem listEventsAfter_sat (hg : w.Good) (hb : Buffering cursor c w) :
    (Proc.call (S := StreamSig E) (.listEventsAfter c.lastSentSeq)).Sat Answered (Inv cursor) c w
      (Replayed cursor) := by
  refine Proc.sat_call.mpr ⟨⟨hg, Or.inl hb.stalled⟩, fun r c' w' hans => ?_⟩
  cases hans with
  | @listEventsAfter _ _ _ c₁ w₁ _ _ hbefore hafter =>
    obtain ⟨hg₁, hb₁⟩ := envs_buffering hbefore hg hb
    have hb₂ : Buffering cursor c₁ { w₁ with caught := some w₁.log.length } := by
      refine ⟨hb₁.replaying, hb₁.events, hb₁.last, hb₁.closedBy, hb₁.errored, hb₁.heartbeat,
        fun hc => ?_⟩
      obtain ⟨hsub, s, hheard, -⟩ := hb₁.heard hc
      refine ⟨hsub, s, hheard, fun k hk => ?_⟩
      rw [← Option.some.inj hk]
      exact Nat.le_trans hheard.le hg₁.published_le
    have hg₂ : Feed.Good { w₁ with caught := some w₁.log.length } :=
      ⟨hg₁.sorted, hg₁.published_le, hg₁.row_le, hg₁.settlements_le⟩
    obtain ⟨hg', hb'⟩ := envs_buffering hafter hg₂ hb₂
    obtain ⟨hpre, hcau⟩ := envs_log_grows hafter
    refine ⟨hg', hb', w₁.log.length, hcau, hpre.length_le, ?_⟩
    rw [hb.last, upTo, ← List.prefix_iff_eq_take.mp hpre]
  | throws h =>
    obtain ⟨hg', hb'⟩ := envs_buffering h hg hb
    exact ⟨hg', Or.inl hb'.stalled⟩

theorem createRunSseResponse_sat {lastEventId : Option Nat} (hg : w.Good)
    (hcaught : w.caught = none) :
    (createRunSseResponse runId).Sat Answered (Inv (Connection.cursor lastEventId))
      (Connection.fresh (E := E) lastEventId) w (fun _ => Inv (Connection.cursor lastEventId)) := by
  have hstart : (start runId).Sat Answered (Inv (Connection.cursor lastEventId))
      (Connection.fresh (E := E) lastEventId) w (fun _ => Inv (Connection.cursor lastEventId)) := by
    unfold start
    rw [Proc.sat_bind, Proc.sat_update]
    simp only
    rw [Proc.sat_bind, Proc.sat_update]
    simp only
    rw [Proc.sat_bind, Proc.sat_read]
    simp only
    have hb : Buffering (Connection.cursor lastEventId)
        (({ Connection.fresh (E := E) lastEventId with subscribed := true }).send .retry) w := by
      refine ⟨rfl, rfl, rfl, rfl, rfl, rfl, fun _ => ⟨rfl, w.published, rfl, fun k hk => ?_⟩⟩
      rw [hcaught] at hk
      cases hk
    generalize hc₀ : ({ Connection.fresh (E := E) lastEventId with subscribed := true }).send
      .retry = c₀ at hb
    refine Proc.Sat.bind (listEventsAfter_sat hg hb) ?_ fun e c' w' h => h
    rintro rs c' w' ⟨hg', hb', k, hk, hlen, rfl⟩
    rw [Proc.sat_bind, Proc.sat_update]
    simp only
    rw [Proc.sat_bind, Proc.sat_read]
    simp only
    rw [Proc.sat_bind, Proc.sat_update]
    simp only
    rw [Proc.sat_bind, Proc.sat_read]
    simp only
    have hf := hb'.flush runId hg' hk hlen
    generalize (List.foldl _ c' _).flush = c₁ at hf ⊢
    have hdone : ∀ {c w}, w.Good → Following (Connection.cursor lastEventId) c w →
        (do Proc.ret (); Proc.update (·.setHeartbeat) : Proc (StreamSig E) (Connection E) Unit).Sat
          Answered (Inv (Connection.cursor lastEventId)) c w
          (fun _ => Inv (Connection.cursor lastEventId)) :=
      fun hg hf => ⟨hg, Or.inr hf.setHeartbeat⟩
    split
    · refine Proc.sat_bind.mpr (Proc.sat_call.mpr ⟨⟨hg', Or.inr hf⟩, fun r c₂ w₂ hans => ?_⟩)
      cases hans with
      | @getRunStatus _ _ c₃ w₃ _ _ hbefore hafter =>
        obtain ⟨hg₃, hf₃⟩ := envs_following hbefore hg' hf
        obtain ⟨hg₂, hf₂⟩ := envs_following hafter hg₃ hf₃
        cases hrow : w₃.row with
        | none => exact hdone hg₂ hf₂
        | some row =>
          show Proc.Sat _ _ (if isStreamTerminalStatus row.1.status = true then _ else _) _ _ _
          split
          · have hstatus := hf₂.deliver (.status ⟨runId, row.1.status, some row.1.error⟩
              ⟨row.2, w₂.published⟩) w₂.log w₂.published
              fun k hk hlen hs => ⟨hlen, hs.status hlen hg₂.published_le _ rfl fun _ =>
                Nat.le_trans (hg₃.row_le row hrow) (envs_log_grows hafter).1.length_le⟩
            exact ⟨hg₂, Or.inr hstatus.setHeartbeat⟩
          · exact hdone hg₂ hf₂
      | throws h =>
        obtain ⟨hg₂, hf₂⟩ := envs_following h hg' hf
        exact ⟨hg₂, Or.inr hf₂⟩
    · exact hdone hg' hf
  refine Proc.Sat.handle hstart (fun _ _ _ h => h) fun _ c w h => ?_
  rw [Proc.sat_update]
  refine ⟨h.1, ?_⟩
  rcases h.2 with hst | hf
  · exact Or.inl ⟨hst.replaying, hst.events, hst.closedBy⟩
  · obtain ⟨k, hk, hlen, hs⟩ := hf.sent
    exact Or.inr ⟨hf.replaying, ⟨k, hk, hlen, hs.congr rfl rfl rfl rfl⟩, hf.subscribed⟩

theorem Reachable.inv {lastEventId : Option Nat} (h : Reachable runId lastEventId c w) :
    Inv (Connection.cursor lastEventId) c w := by
  obtain ⟨w₀, t, w₁, hg, hcaught, hr, henv⟩ := h
  exact envs_inv henv ((createRunSseResponse_sat hg hcaught).mem_of_reaches hr)

end Phases

/-! ## Replay-then-follow -/

section Follow

variable {runId : JsString} {lastEventId : Option Nat} {c : Connection E} {w : Feed E}

/-- No gap and no double send: the events written are the persisted ones behind the client's
cursor, none left out before the last one written, and a stream closed by a status has all
that were persisted before the row took it. -/
structure GapFree (lastEventId : Option Nat) (c : Connection E) (w : Feed E) : Prop where
  increasing : c.events.Pairwise fun a b => a.seq < b.seq
  prefix_ : c.events <+: w.log.filter fun r => Connection.cursor lastEventId < (r.seq : Int)
  complete : ∀ mark ∈ c.closedBy, ∀ e ∈ w.log.take mark.persisted,
    Connection.cursor lastEventId < (e.seq : Int) → e ∈ c.events

/-- The status that closed the stream came in time: each event persisted before the row took
it is among those the replay read found, or was published before the status. -/
def InTime (lastEventId : Option Nat) (c : Connection E) (w : Feed E) : Prop :=
  ∀ mark ∈ c.closedBy, ∀ e ∈ w.log.take mark.persisted,
    Connection.cursor lastEventId < (e.seq : Int) →
      e ∈ w.log.take mark.published ∨ ∃ k ∈ w.caught, e ∈ w.log.take k

theorem follow_upTo (h : Reachable runId lastEventId c w) :
    ∃ n, c.events = upTo (Connection.cursor lastEventId) w.log n := by
  rcases h.inv.2 with hst | hf
  · exact ⟨0, hst.events⟩
  · obtain ⟨k, -, -, hs⟩ := hf.sent
    rcases Bool.eq_false_or_eq_true c.closed with hc | hc
    · obtain ⟨n, -, hev, -⟩ := hs.closed hc
      exact ⟨n, hev⟩
    · exact ⟨_, (hs.open_ hc).1.events⟩

/-- A stream closed by a status has what the replay read found and what was published before
the status. -/
theorem follow_closed (h : Reachable runId lastEventId c w) {mark : Mark}
    (hmark : mark ∈ c.closedBy) :
    ∃ k ∈ w.caught, c.events =
      upTo (Connection.cursor lastEventId) w.log (max k mark.published) := by
  rcases h.inv.2 with hst | hf
  · rw [hst.closedBy] at hmark
    cases hmark
  · obtain ⟨k, hk, -, hs⟩ := hf.sent
    rcases Bool.eq_false_or_eq_true c.closed with hc | hc
    · obtain ⟨n, -, hev, hn⟩ := hs.closed hc
      rw [(hn mark hmark).1] at hev
      exact ⟨k, hk, hev⟩
    · rw [(hs.open_ hc).2] at hmark
      cases hmark

theorem mem_upTo_max {cursor : Int} {log : List (StoredRunEvent E)} {k p : Nat}
    {e : StoredRunEvent E} (hcur : cursor < (e.seq : Int)) :
    e ∈ upTo cursor log (max k p) ↔ e ∈ log.take p ∨ e ∈ log.take k := by
  rw [upTo, List.mem_filter, decide_eq_true hcur]
  rcases Nat.le_total k p with hle | hle
  · rw [Nat.max_eq_right hle]
    exact ⟨fun h => Or.inl h.1, fun h => ⟨h.elim id fun h =>
      (List.take_prefix_take_left hle).subset h, rfl⟩⟩
  · rw [Nat.max_eq_left hle]
    exact ⟨fun h => Or.inr h.1, fun h => ⟨h.elim (fun h =>
      (List.take_prefix_take_left hle).subset h) id, rfl⟩⟩

/-- Replay-then-follow is free of gaps and duplicates at every moment of every connection,
iff the closing status came in time. -/
theorem follow_gapFree_iff (h : Reachable runId lastEventId c w) :
    GapFree lastEventId c w ↔ InTime lastEventId c w := by
  have hcomplete : ∀ mark ∈ c.closedBy, ∀ e, Connection.cursor lastEventId < (e.seq : Int) →
      (e ∈ c.events ↔ e ∈ w.log.take mark.published ∨ ∃ k ∈ w.caught, e ∈ w.log.take k) := by
    intro mark hmark e hcur
    obtain ⟨k, hk, hev⟩ := follow_closed h hmark
    rw [hev, mem_upTo_max hcur]
    refine or_congr_right ⟨fun he => ⟨k, hk, he⟩, ?_⟩
    rintro ⟨k', hk', he⟩
    rw [Option.some.inj (hk.symm.trans hk')]
    exact he
  constructor
  · intro hg mark hmark e he hcur
    exact (hcomplete mark hmark e hcur).mp (hg.complete mark hmark e he hcur)
  · intro ht
    obtain ⟨n, hev⟩ := follow_upTo h
    refine ⟨?_, ?_, fun mark hmark e he hcur => ?_⟩
    · rw [hev]
      exact ((h.inv.1.sorted.sublist (List.take_sublist _ _)).sublist List.filter_sublist)
    · rw [hev]
      exact upTo_isPrefix
    · exact (hcomplete mark hmark e hcur).mpr (ht mark hmark e he hcur)

end Follow

/-! ## A status that overtakes an event -/

/-- A run without events yet. -/
def quietFeed (E : Type) : Feed E where
  log := []
  published := 0
  row := some (⟨.running, none⟩, 0)
  settlements := []
  caught := none

/-- A connection that follows a run without events. -/
def live (E : Type) : Connection E :=
  { Connection.fresh none with
    subscribed := true, heartbeat := true, replaying := false, written := [.retry] }

theorem reachable_of_live {runId : JsString} {c : Connection E} {w : Feed E}
    (h : ReflTransGen Env (live E, { quietFeed E with caught := some 0 }) (c, w)) :
    Reachable runId none c w := by
  refine ⟨quietFeed E, .done (live E) (.ok ()), _, ⟨.nil, Nat.le_refl _, ?_, ?_⟩, rfl, ?_, h⟩
  · intro r hr
    rw [← Option.some.inj hr]
    exact Nat.le_refl _
  · intro k hk
    cases hk
  · refine .answer (.listEventsAfter .refl .refl) ?_
    refine .answer (.getRunStatus .refl .refl) ?_
    exact .refl _ _

/-- An event is persisted, a Stop settles the run, and its status reaches the bus before the
event does. -/
def overtaken : Connection Nat × Feed Nat :=
  (((live Nat).publish (.status ⟨[], .canceled, none⟩ ⟨1, 0⟩)),
    { quietFeed Nat with
      log := [⟨0, 7, []⟩], row := some (⟨.canceled, none⟩, 1), settlements := [1],
      caught := some 0 })

theorem overtaken_reachable : Reachable [] none overtaken.1 overtaken.2 := by
  refine reachable_of_live ?_
  refine .tail (.tail (.tail .refl (.append ⟨0, 7, []⟩ ?_)) (.markRun ⟨.canceled, none⟩))
    (.publishStatus ⟨[], .canceled, none⟩ 1 fun _ => ?_)
  · intro r hr
    cases hr
  · exact List.mem_cons_self

theorem follow_overtaken :
    Reachable [] none overtaken.1 overtaken.2 ∧ ¬ GapFree none overtaken.1 overtaken.2 := by
  refine ⟨overtaken_reachable, fun h => ?_⟩
  have hmem := h.complete ⟨1, 0⟩ rfl ⟨0, 7, []⟩ (by decide) (by decide)
  revert hmem
  decide

theorem follow_gapFree_overtaken :
    GapFree none overtaken.1 overtaken.2 ↔ InTime none overtaken.1 overtaken.2 :=
  follow_gapFree_iff overtaken_reachable

end InvisibleString.Sse
