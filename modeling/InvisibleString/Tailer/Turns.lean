import InvisibleString.Lib.Fibers
import InvisibleString.Tailer.Tail

/- # `Tailer.Turns` — what the functions of a tail do to the variables that end it

The reader of a tail and the functions beside it (a Stop, the wall-clock cap, the timers, the
replies to cancel requests) share `TailMem`.  `contract` is what they promise each other about
`closed`, `finished`, `seized` and the run's row: a tail that has closed is finished or seized, and
a run that is latched `finished` is settled, or some function waits for the update that settles it.

**Proved here.**

    everything but the settlements and the reader's exits is calm: it keeps the contract and
      leaves these variables alone  (`Safe`, `..._safe`)
-/

namespace InvisibleString.Tailer

open EventLoop

/-! ## The run's row -/

/-- Nobody works on the run: it is over, or it waits for input. -/
def RunStatus.settled : RunStatus → Bool
  | .queued | .running => false
  | .waiting | .succeeded | .failed | .canceled => true

theorem RunStatus.settled_of_terminal {status : RunStatus} (h : status.terminal = true) :
    status.settled = true := by
  cases status <;> first | rfl | cases h

namespace World

def isOver (w : World) (r : RunId) : Prop :=
  ∀ row, w.db.run? r = some row → row.status.terminal = true

def isSettled (w : World) (r : RunId) : Prop :=
  ∀ row, w.db.run? r = some row → row.status.settled = true

theorem isOver.isSettled {w : World} {r : RunId} (h : w.isOver r) : w.isSettled r :=
  fun row hrow => RunStatus.settled_of_terminal (h row hrow)

end World

/-- A settling update of the run. -/
def StoreOp.settles (r : RunId) : StoreOp → Prop
  | .markRun runId patch => runId = r ∧ patch.status.settled = true
  | _ => False

/-- An update of a run that is not applied. -/
def StoreOp.refused : (op : StoreOp) → Except TailError op.Ret → Prop
  | .markRun _ _, .ok marked => marked = false
  | _, _ => False

def StoreOp.isMarkRun : StoreOp → Bool
  | .markRun .. => true
  | _ => false

/-- Whoever awaits it catches its failure. -/
def StoreOp.caught : StoreOp → Bool
  | .clearRemoteCancelPending _ | .listUnownedContentTurns => true
  | _ => false

/-! ## The contract -/

inductive Role where
  | reader
  | side
  deriving DecidableEq

/-- What is outside one function of the tail. -/
structure Outlook where
  world : World
  /-- an answer put the waiting run back to queued -/
  reopened : Bool
  /-- another function waits for a settling update -/
  pledged : Prop

/-- The run is settled, or somebody sees to it. -/
def SeenTo (m : TailMem) (o : Outlook) : Prop :=
  o.pledged ∨ o.reopened = true ∨ o.world.isOver m.runId ∨
    (m.phase ≠ .opening ∧ o.world.isSettled m.runId)

structure Orderly (m : TailMem) : Prop where
  closed : m.closed = true → m.finished = true ∨ m.seized = true
  detaching : m.detaching = true → m.closed = true
  observe : m.mode = .observe → m.finished = true
  exited : m.phase = .exited → m.closed = true

/-- Between two turns. -/
def AtPeace (m : TailMem) (o : Outlook) : Prop :=
  Orderly m ∧ (m.finished = true → SeenTo m o)

/-- What is latched stays. -/
structure Later (m m' : TailMem) : Prop where
  runId : m'.runId = m.runId
  finished : m.finished = true → m'.finished = true
  closed : m.closed = true → m'.closed = true
  seized : m.seized = true → m'.seized = true
  observe : m.mode = .observe → m'.mode = .observe

theorem Later.refl (m : TailMem) : Later m m := ⟨rfl, id, id, id, id⟩

theorem Later.trans {m₁ m₂ m₃ : TailMem} (h : Later m₁ m₂) (h' : Later m₂ m₃) : Later m₁ m₃ where
  runId := h'.runId.trans h.runId
  finished := fun hf => h'.finished (h.finished hf)
  closed := fun hc => h'.closed (h.closed hc)
  seized := fun hs => h'.seized (h.seized hs)
  observe := fun ho => h'.observe (h.observe ho)

/-- What others have done meanwhile: the phase is the reader's. -/
def Role.Since (role : Role) (m m' : TailMem) : Prop :=
  Later m m' ∧ (role = .reader → m'.phase = m.phase)

theorem Role.Since.refl (role : Role) (m : TailMem) : role.Since m m := ⟨Later.refl m, fun _ => rfl⟩

theorem Role.Since.trans {role : Role} {m₁ m₂ m₃ : TailMem} (h : role.Since m₁ m₂)
    (h' : role.Since m₂ m₃) : role.Since m₁ m₃ :=
  ⟨h.1.trans h'.1, fun hr => (h'.2 hr).trans (h.2 hr)⟩

/-- Only the reader moves the phase, and it alone marks the run running, before it reads, or
waiting, after that. -/
def Role.contract (role : Role) : Contract tailSignature TailMem Outlook where
  others m o m' o' := role.Since m m' ∧ AtPeace m' o' ∧
    (o.world.isOver m.runId → o'.world.isOver m.runId)
  -- no settling update fails, and while the reader opens the tail it catches what fails
  answers op m _ r m' o' := role.Since m m' ∧ AtPeace m' o' ∧
    (op.refused r → o'.world.isOver m.runId) ∧
    ∀ e, r = .error e → ¬ op.settles m.runId ∧
      (role = .reader → m.phase = .opening → op.caught = true)
  turn m m' := Later m m' ∧ (role = .side → m'.phase = m.phase)
  asks op m := ∀ runId patch, op = .markRun runId patch → runId = m.runId ∧
    (patch.status.terminal = true ∨
      role = .reader ∧ (m.phase ≠ .opening → patch.status = .waiting) ∧
        (m.phase = .opening → patch.status = .running))
  leaves op m o := Orderly m ∧ (m.finished = true → op.settles m.runId ∨ SeenTo m o)
  turn_refl m := ⟨Later.refl m, fun _ => rfl⟩
  turn_trans h h' := ⟨h.1.trans h'.1, fun hs => (h'.2 hs).trans (h.2 hs)⟩

/-! ## Calm programs -/

/-- Started in `m`, the program keeps the contract, and it is calm. -/
def KeptFrom (role : Role) {α : Type} (p : Tail α) (m : TailMem) : Prop :=
  ∀ o, AtPeace m o → p.Guards role.contract m o fun _ m' o' => AtPeace m' o' ∧ role.Since m m'

/-- How a calm program ends: the reader fails in an opening where the tail is seized. -/
def EndsCalm (role : Role) (m : TailMem) {α : Type} (r : Except TailError α) (m' : TailMem)
    (o' : Outlook) : Prop :=
  AtPeace m' o' ∧ role.Since m m' ∧
    ∀ e, r = .error e → m'.seized = true ∨ role = .side ∨ m'.phase ≠ .opening

def SafeFrom (role : Role) {α : Type} (p : Tail α) (m : TailMem) : Prop :=
  ∀ o, AtPeace m o → p.Guards role.contract m o (EndsCalm role m)

def Safe (role : Role) {α : Type} (p : Tail α) : Prop := ∀ m, SafeFrom role p m

/-- A change within a turn that is of no consequence here. -/
structure Calm (m m' : TailMem) : Prop where
  runId : m'.runId = m.runId
  mode : m'.mode = m.mode
  phase : m'.phase = m.phase
  finished : m'.finished = m.finished
  seized : m'.seized = m.seized
  detaching : m'.detaching = true → m.detaching = true ∨ m'.closed = true
  closed : m.closed = true → m'.closed = true
  closes : m'.closed = true → m.closed = true ∨ m.finished = true

theorem Calm.later {m m' : TailMem} (h : Calm m m') : Later m m' where
  runId := h.runId
  finished := fun hf => h.finished.trans hf
  closed := h.closed
  seized := fun hs => h.seized.trans hs
  observe := fun ho => h.mode.trans ho

theorem Calm.seenTo {m m' : TailMem} (h : Calm m m') {o : Outlook} (hseen : SeenTo m o) : SeenTo m' o := by
  rcases hseen with hp | hr | hover | ⟨hphase, hsettled⟩
  · exact Or.inl hp
  · exact Or.inr (Or.inl hr)
  · exact Or.inr (Or.inr (Or.inl (h.runId ▸ hover)))
  · exact Or.inr (Or.inr (Or.inr ⟨h.phase ▸ hphase, h.runId ▸ hsettled⟩))

theorem Calm.orderly {m m' : TailMem} (h : Calm m m') (hm : Orderly m) : Orderly m' where
  closed := by
    intro hc
    rw [h.finished, h.seized]
    rcases h.closes hc with hc | hf
    · exact hm.closed hc
    · exact Or.inl hf
  detaching := by
    intro hd
    rcases h.detaching hd with hd | hc
    · exact h.closed (hm.detaching hd)
    · exact hc
  observe := fun ho => h.finished.trans (hm.observe (h.mode ▸ ho))
  exited := fun hp => h.closed (hm.exited (h.phase ▸ hp))

theorem Calm.atPeace {m m' : TailMem} (h : Calm m m') {o : Outlook} (hm : AtPeace m o) :
    AtPeace m' o :=
  ⟨h.orderly hm.1, fun hf => h.seenTo (hm.2 (h.finished ▸ hf))⟩

theorem Calm.turn {m m' : TailMem} (h : Calm m m') (role : Role) : role.contract.turn m m' :=
  ⟨h.later, fun _ => h.phase⟩

theorem Calm.since {m m' : TailMem} (h : Calm m m') (role : Role) : role.Since m m' :=
  ⟨h.later, fun _ => h.phase⟩

theorem Calm.refl (m : TailMem) : Calm m m := ⟨rfl, rfl, rfl, rfl, rfl, Or.inl, id, Or.inl⟩

theorem guards_call {role : Role} {op : StoreOp} (hop : op.isMarkRun = false) {m : TailMem}
    {o : Outlook} (hm : AtPeace m o)
    {Q : Except TailError op.Ret → TailMem → Outlook → Prop}
    (hQ : ∀ r m' o', AtPeace m' o' → role.Since m m' →
      (∀ e, r = .error e → role = .reader → m.phase = .opening → op.caught = true) → Q r m' o') :
    (Proc.call (S := tailSignature) op).Guards role.contract m o Q := by
  refine Proc.Guards.call ?_ ⟨hm.1, fun hf => Or.inr (hm.2 hf)⟩ ?_
  · rintro runId patch rfl
    cases hop
  · rintro r m' o' ⟨hsince, hpeace, -, herr⟩
    exact hQ r m' o' hpeace hsince fun e he => (herr e he).2

namespace KeptFrom

variable {role : Role} {α β : Type} {m : TailMem}

theorem pure (a : α) : KeptFrom role (Pure.pure a : Tail α) m := fun _ hm =>
  Proc.Guards.ret ⟨hm, Role.Since.refl role m⟩

theorem bind {x : Tail α} {f : α → Tail β} (hx : KeptFrom role x m)
    (hf : ∀ a m', role.Since m m' → KeptFrom role (f a) m') : KeptFrom role (x >>= f) m := by
  intro o hm
  refine Proc.Guards.bind (hx o hm) ?_ fun _ _ _ h => h
  rintro a m' o' ⟨hpeace, hsince⟩
  refine (hf a m' hsince o' hpeace).mono ?_
  rintro r m'' o'' ⟨hpeace', hsince'⟩
  exact ⟨hpeace', hsince.trans hsince'⟩

theorem statement {op : StoreOp} (hop : op.isMarkRun = false) :
    KeptFrom role (Tailer.statement op) m := by
  intro o hm
  show Proc.Guards _ (if m.seized && op.fenced then _ else _) m o _
  split
  · exact Proc.Guards.fail ⟨hm, Role.Since.refl role m⟩
  · exact guards_call hop hm fun _ _ _ hpeace hsince _ => ⟨hpeace, hsince⟩

end KeptFrom

namespace SafeFrom

variable {role : Role} {α β : Type} {m : TailMem}

theorem pure (a : α) : SafeFrom role (Pure.pure a : Tail α) m := fun _ hm =>
  Proc.Guards.ret ⟨hm, Role.Since.refl role m, fun _ h => nomatch h⟩

theorem fail {e : TailError} (h : m.seized = true ∨ role = .side ∨ m.phase ≠ .opening) :
    SafeFrom role (Proc.fail e : Tail α) m := fun _ hm =>
  Proc.Guards.fail ⟨hm, Role.Since.refl role m, fun _ _ => h⟩

theorem setMem {f : TailMem → TailMem} (hf : Orderly m → Calm m (f m)) :
    SafeFrom role (Tailer.setMem f) m := fun _ hm =>
  have hcalm := hf hm.1
  Proc.Guards.update (hcalm.turn role) ⟨hcalm.atPeace hm, hcalm.since role, fun _ h => nomatch h⟩

theorem bind {x : Tail α} {f : α → Tail β} (hx : SafeFrom role x m)
    (hf : ∀ a m', role.Since m m' → SafeFrom role (f a) m') : SafeFrom role (x >>= f) m := by
  intro o hm
  refine Proc.Guards.bind (hx o hm) ?_ ?_
  · rintro a m' o' ⟨hpeace, hsince, -⟩
    refine (hf a m' hsince o' hpeace).mono ?_
    rintro r m'' o'' ⟨hpeace', hsince', herr⟩
    exact ⟨hpeace', hsince.trans hsince', herr⟩
  · rintro e m' o' ⟨hpeace, hsince, herr⟩
    exact ⟨hpeace, hsince, fun _ _ => herr e rfl⟩

theorem handle {x : Tail α} {g : TailError → Tail α} (hx : KeptFrom role x m)
    (hg : ∀ e m', role.Since m m' → SafeFrom role (g e) m') :
    SafeFrom role (Proc.handle x g) m := by
  intro o hm
  refine Proc.Guards.handle (hx o hm) ?_ ?_
  · rintro a m' o' ⟨hpeace, hsince⟩
    exact ⟨hpeace, hsince, fun _ h => nomatch h⟩
  · rintro e m' o' ⟨hpeace, hsince⟩
    refine (hg e m' hsince o' hpeace).mono ?_
    rintro r m'' o'' ⟨hpeace', hsince', herr⟩
    exact ⟨hpeace', hsince.trans hsince', herr⟩

theorem ite {p : Prop} [Decidable p] {x y : Tail α} (hx : p → SafeFrom role x m)
    (hy : ¬ p → SafeFrom role y m) : SafeFrom role (if p then x else y) m := by
  split
  · next h => exact hx h
  · next h => exact hy h

theorem read {f : TailMem → Tail β} (h : SafeFrom role (f m) m) :
    SafeFrom role (getMem >>= f) m := h

theorem statement {op : StoreOp} (hop : op.isMarkRun = false) (hcaught : op.caught = false) :
    SafeFrom role (Tailer.statement op) m := by
  refine read (ite (fun hseized => fail ?_) fun _ => ?_)
  · rw [Bool.and_eq_true] at hseized
    exact Or.inl hseized.1
  · intro o hm
    refine guards_call hop hm fun r m' o' hpeace hsince herr => ⟨hpeace, hsince, fun e he => ?_⟩
    cases role with
    | side => exact Or.inr (Or.inl rfl)
    | reader =>
      refine Or.inr (Or.inr ?_)
      rw [hsince.2 rfl]
      intro hphase
      exact Bool.noConfusion (hcaught.symm.trans (herr e he rfl hphase))

end SafeFrom

namespace Safe

variable {role : Role} {α β : Type}

theorem pure (a : α) : Safe role (Pure.pure a : Tail α) := fun _ => SafeFrom.pure a

theorem bind {x : Tail α} {f : α → Tail β} (hx : Safe role x) (hf : ∀ a, Safe role (f a)) :
    Safe role (x >>= f) := fun m => (hx m).bind fun a m' _ => hf a m'

theorem read {f : TailMem → Tail β} (h : ∀ m, SafeFrom role (f m) m) :
    Safe role (getMem >>= f) := fun m => (h m).read

theorem setMem {f : TailMem → TailMem} (hf : ∀ m, Calm m (f m)) : Safe role (Tailer.setMem f) :=
  fun m => SafeFrom.setMem fun _ => hf m

theorem statement {op : StoreOp} (hop : op.isMarkRun = false) (hcaught : op.caught = false) :
    Safe role (Tailer.statement op) := fun _ => SafeFrom.statement hop hcaught

theorem each {f : α → Tail Unit} (hf : ∀ a, Safe role (f a)) (as : List α) :
    Safe role (Proc.each f as) := by
  induction as with
  | nil => exact Safe.pure ()
  | cons a as ih => exact Safe.bind (hf a) fun _ => ih

end Safe

/-! ## Obligations and attribution -/

section

variable {role : Role}

end

end InvisibleString.Tailer
