import InvisibleString.Tailer.Cursor
import Mathlib.Logic.Relation

/- # `Tailer.Session` — a session and the tails that read it

The programs of one tail put together: `start`, then `connect`, a line after another and
drops, in whatever order eve's stream and the transport make of it.  A session has one
reader at a time; the next one starts when the former is done or its process died.

`TailStep` leaves open what a statement answers (`readerAnswers`) and what the rest of the
system does.  `Session.play` is the run in which every statement succeeds at once.

**Proved here.**

    a played session is a run of `TailStep`  (`Session.play_run`)
-/

namespace InvisibleString.Tailer

open EventLoop

/-! ## A session and its tails -/

/-- A session between two programs of its reader; `tail` is the reader, gone after a
crash. -/
structure Session where
  world : World
  tail : Option TailMem
  deriving DecidableEq, Repr

/-- The reader runs `p`: to its end, or up to an await at which the process dies. -/
inductive Runs (S : List Line) (p : Tail Unit) (m : TailMem) (w : World) :
    Option TailMem → World → Prop
  | done {m' r w'} (h : (p m).Reaches (readerAnswers S) w (.done m' r) w') :
    Runs S p m w (some m') w'
  | cut {m' op k w'} (h : (p m).Reaches (readerAnswers S) w (.await m' op k) w') :
    Runs S p m w none w'

/-- No reader, or one that is done. -/
def Session.idle (s : Session) : Prop := ∀ m, s.tail = some m → m.phase = .exited

theorem Session.idle_none (w : World) : (⟨w, none⟩ : Session).idle := by
  intro m hm
  cases hm

/-- One step of a session: its tails run one after another, and `allow r w` says in which
worlds a tail of `r` is started. -/
inductive TailStep (allow : RunId → World → Prop) (S : List Line) : Session → Session → Prop
  /-- rows change, eve's stream grows -/
  | outside {w w' t} (hev : w'.db.events = w.db.events) (hl : w.lines <+: w'.lines)
    (hS : w'.lines <+: S) : TailStep allow S ⟨w, t⟩ ⟨w', t⟩
  /-- a `Quiet` program of the tail runs, a `detach`, a `seize` -/
  | beside {w m m'} (hm : m'.cursor = m.cursor) : TailStep allow S ⟨w, some m⟩ ⟨w, some m'⟩
  | start {s : Session} {r mode now t w'} (hidle : s.idle) (hr : allow r s.world)
    (h : Runs S start (TailMem.init r mode now) s.world t w') : TailStep allow S s ⟨w', t⟩
  | connect {w m t w'} (hph : m.phase = .connecting) (h : Runs S connect m w t w') :
    TailStep allow S ⟨w, some m⟩ ⟨w', t⟩
  | line {w m pos l t w'} (hph : m.phase = .reading pos) (hl : w.lines[pos]? = some l)
    (h : Runs S (consumeLine pos l) m w t w') : TailStep allow S ⟨w, some m⟩ ⟨w', t⟩
  | drop {w m pos t w'} (hph : m.phase = .reading pos) (h : Runs S streamDrop m w t w') :
    TailStep allow S ⟨w, some m⟩ ⟨w', t⟩
  | crash {w t} : TailStep allow S ⟨w, t⟩ ⟨w, none⟩

/-! ## Playing a session -/

/-- What a played session does next: its reader's next program, or its process dies. -/
inductive Move where
  | start (runId : RunId) (mode : Mode) (now : Nat)
  | connect
  | line
  | drop
  | crash
  deriving DecidableEq, Repr

instance (s : Session) : Decidable s.idle :=
  match h : s.tail with
  | none => isTrue fun _ hm => by rw [h] at hm; cases hm
  | some m =>
    decidable_of_iff (m.phase = .exited) ⟨fun hp m' hm' => by rw [h] at hm'; cases hm'; exact hp,
      fun hi => hi m h⟩

/-- `p` with every statement answered by `StoreOp.exec`. -/
def Session.exec (p : Tail Unit) (m : TailMem) (w : World) : Session :=
  let (_, m', w') := (p m).exec StoreOp.exec w
  ⟨w', some m'⟩

/-- What a program that ends in `Q` leaves of the session. -/
theorem Session.exec_sat {p : Tail Unit} {C : TailMem → World → Prop} {m : TailMem} {w : World}
    {Q : Except TailError Unit → TailMem → World → Prop}
    (h : p.Sat (Answers.of StoreOp.exec) C m w Q) :
    ∃ r m' w', Session.exec p m w = ⟨w', some m'⟩ ∧ Q r m' w' :=
  ⟨_, _, _, rfl, Thread.Sat.exec h⟩

/-- The program a move runs, and the memory it starts in. -/
def Session.program (s : Session) : Move → Option (Tail Unit × TailMem)
  | .start runId mode now =>
    if s.idle then some (Tailer.start, TailMem.init runId mode now) else none
  | .connect =>
    match s.tail with
    | some m => if m.phase = .connecting then some (Tailer.connect, m) else none
    | none => none
  | .line =>
    match s.tail with
    | some m =>
      match m.phase with
      | .reading pos => (s.world.lines[pos]?).map fun l => (consumeLine pos l, m)
      | _ => none
    | none => none
  | .drop =>
    match s.tail with
    | some m =>
      match m.phase with
      | .reading _ => some (streamDrop, m)
      | _ => none
    | none => none
  | .crash => none

def Session.move (s : Session) (move : Move) : Option Session :=
  if move = .crash then some ⟨s.world, none⟩
  else (s.program move).map fun (p, m) => Session.exec p m s.world

def Session.play (s : Session) : List Move → Option Session
  | [] => some s
  | move :: moves => (s.move move).bind fun s' => s'.play moves

/-- The process dies in one of the moves, after some of its program's statements; `w` is
what it leaves. -/
def Session.Dies (s : Session) (moves : List Move) (w : World) : Prop :=
  ∃ before move after s₁ p m n, moves = before ++ move :: after ∧ s.play before = some s₁ ∧
    s₁.program move = some (p, m) ∧ w = (p m).crashAfter StoreOp.exec n s₁.world

/-- The process may die before the first statement of a move. -/
theorem Session.dies_before {s s₁ : Session} {before : List Move} {move : Move}
    (after : List Move) (h : s.play before = some s₁) (hp : (s₁.program move).isSome = true) :
    s.Dies (before ++ move :: after) s₁.world := by
  obtain ⟨⟨p, m⟩, hpm⟩ := Option.isSome_iff_exists.mp hp
  exact ⟨before, move, after, s₁, p, m, 0, rfl, h, hpm, rfl⟩

/-- A statement of a tail that is not seized, answered by `StoreOp.exec`. -/
theorem sat_statement_of {C : TailMem → World → Prop} {op : StoreOp} {m : TailMem} {w : World}
    (hs : m.seized = false) {Q : Except TailError op.Ret → TailMem → World → Prop} :
    (statement op).Sat (Answers.of StoreOp.exec) C m w Q ↔
      C m w ∧ Q (op.exec w).1 m (op.exec w).2 := by
  rw [sat_statement, hs, Bool.false_and]
  exact Proc.sat_call_of

theorem StoreOp.exec_lines (op : StoreOp) (w : World) : (op.exec w).2.lines = w.lines := by
  cases op <;> simp only [StoreOp.exec]
  split <;> rfl

theorem Thread.exec_lines {α : Type} (t : Thread tailSignature TailMem α) (w : World) :
    (t.exec StoreOp.exec w).2.2.lines = w.lines := by
  induction t generalizing w with
  | done m r => rfl
  | await m op k ih => exact (ih (op.exec w).1 m (op.exec w).2).trans (StoreOp.exec_lines op w)

theorem Runs.exec {S : List Line} (p : Tail Unit) (m : TailMem) {w : World}
    (hS : w.lines <+: S) :
    Runs S p m w (Session.exec p m w).tail (Session.exec p m w).world := by
  refine Runs.done (Thread.exec_reaches (G := fun w => w.lines <+: S) ?_ (p m) hS)
  intro op m w hw
  have hlines : (op.exec w).2.lines <+: S := by rw [StoreOp.exec_lines]; exact hw
  exact ⟨⟨cursorAnswers_exec op m w, hlines⟩, hlines⟩

theorem Session.move_eq_some {s s' : Session} {move : Move} (h : s.move move = some s') :
    (move = .crash ∧ s' = ⟨s.world, none⟩) ∨
      ∃ p m, s.program move = some (p, m) ∧ s' = Session.exec p m s.world := by
  unfold Session.move at h
  split at h
  · rename_i hc
    cases h
    exact Or.inl ⟨hc, rfl⟩
  · obtain ⟨⟨p, m⟩, hp, rfl⟩ := Option.map_eq_some_iff.mp h
    exact Or.inr ⟨p, m, hp, rfl⟩

theorem Session.move_lines {s s' : Session} {move : Move} (h : s.move move = some s') :
    s'.world.lines = s.world.lines := by
  obtain ⟨-, rfl⟩ | ⟨p, m, -, rfl⟩ := Session.move_eq_some h
  · rfl
  · exact Thread.exec_lines (p m) s.world

theorem Session.move_step {allow : RunId → World → Prop} {S : List Line} {s s' : Session}
    {move : Move} (h : s.move move = some s') (hS : s.world.lines <+: S)
    (hallow : ∀ r mode now, move = .start r mode now → allow r s.world) :
    TailStep allow S s s' := by
  obtain ⟨-, rfl⟩ | ⟨p, m, hp, rfl⟩ := Session.move_eq_some h
  · exact .crash
  obtain ⟨w, t⟩ := s
  have hrun := Runs.exec p m hS
  cases move with
  | start r mode now =>
    simp only [Session.program] at hp
    split at hp
    · rename_i hidle
      cases hp
      exact .start hidle (hallow r mode now rfl) hrun
    · cases hp
  | connect =>
    simp only [Session.program] at hp
    split at hp
    · rename_i m' ht
      cases ht
      split at hp
      · rename_i hph
        cases hp
        exact .connect hph hrun
      · cases hp
    · cases hp
  | line =>
    simp only [Session.program] at hp
    split at hp
    · rename_i m' ht
      cases ht
      split at hp
      · rename_i pos hph
        obtain ⟨l, hl, hp⟩ := Option.map_eq_some_iff.mp hp
        cases hp
        exact .line hph hl hrun
      · cases hp
    · cases hp
  | drop =>
    simp only [Session.program] at hp
    split at hp
    · rename_i m' ht
      cases ht
      split at hp
      · rename_i pos hph
        cases hp
        exact .drop hph hrun
      · cases hp
    · cases hp
  | crash => cases hp

/-- The tails a play starts, with the world each is started in. -/
def Session.starts (s : Session) : List Move → List (RunId × World)
  | [] => []
  | move :: moves =>
    let rest := match s.move move with
      | some s' => s'.starts moves
      | none => []
    match move with
    | .start runId _ _ => (runId, s.world) :: rest
    | _ => rest

/-- A played session is one of the runs of its tails. -/
theorem Session.play_run {allow : RunId → World → Prop} {S : List Line} {moves : List Move}
    {s s' : Session} (h : s.play moves = some s') (hS : s.world.lines <+: S)
    (hallow : ∀ a ∈ s.starts moves, allow a.1 a.2) :
    Relation.ReflTransGen (TailStep allow S) s s' := by
  induction moves generalizing s with
  | nil => cases h; exact .refl
  | cons move moves ih =>
    obtain ⟨s₁, hmove, hplay⟩ := Option.bind_eq_some_iff.mp h
    simp only [Session.starts, hmove] at hallow
    refine .head (Session.move_step hmove hS ?_) (ih hplay ?_ ?_)
    · rintro r mode now rfl
      exact hallow (r, s.world) List.mem_cons_self
    · rw [Session.move_lines hmove]
      exact hS
    · intro a ha
      refine hallow a ?_
      cases move <;> first | exact List.mem_cons_of_mem _ ha | exact ha

end InvisibleString.Tailer
