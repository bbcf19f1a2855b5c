import Mathlib.Logic.Relation

/- # `EventLoop` — programs of a single-threaded event loop

A process with one thread of control runs a program synchronously up to its next
`await`.  There it hands a statement to the outside (a database, a socket), gives the
loop away, and goes on with the answer.  In between anything may happen: the process
dies, another program of the same process runs, the outside changes.

`Thread` is such a program after it has been started, `Proc` the program before it is
given the process memory.  `Thread.Sat` is the logic of one program against an outside
that may move at every await, with a condition that holds at every await (the state a
crash leaves behind); `Thread.Keeps` is its invariant rule.  `Thread.exec` runs a program
against a deterministic outside.
-/

namespace EventLoop

/-- The statements a program can await: `Ret op` is what `op` answers, `Err` what an
await may throw instead. -/
structure Signature where
  Op : Type
  Ret : Op → Type
  Err : Type

/-- A started program: finished with a result, or suspended at a statement.  Both keep
the process memory as it stood when control was given away. -/
inductive Thread (S : Signature) (M α : Type) where
  | done (m : M) (r : Except S.Err α)
  | await (m : M) (op : S.Op) (k : Except S.Err (S.Ret op) → M → Thread S M α)

/-- A program: what it does with the process memory it is started in. -/
def Proc (S : Signature) (M α : Type) := M → Thread S M α

variable {S : Signature} {M α β : Type}

/-- Go on with `f` where `t` is done. -/
def Thread.andThen : Thread S M α → (Except S.Err α → Proc S M β) → Thread S M β
  | .done m r, f => f r m
  | .await m op k, f => .await m op (fun r m' => (k r m').andThen f)

namespace Proc

/-- Return `a`. -/
def ret (a : α) : Proc S M α := fun m => .done m (.ok a)

/-- Fail with `e`. -/
def fail (e : S.Err) : Proc S M α := fun m => .done m (.error e)

/-- Run `x`, then `f` on its result; an error of `x` is passed on. -/
def andThen (x : Proc S M α) (f : α → Proc S M β) : Proc S M β := fun m =>
  (x m).andThen fun r => match r with
    | .ok a => f a
    | .error e => fail e

/-- `try x catch h`. -/
def handle (x : Proc S M α) (h : S.Err → Proc S M α) : Proc S M α := fun m =>
  (x m).andThen fun r => match r with
    | .ok a => ret a
    | .error e => h e

/-- Run `x` and return how it ended. -/
def attempt (x : Proc S M α) : Proc S M (Except S.Err α) := fun m =>
  (x m).andThen fun r => ret r

/-- Read the process memory. -/
def read : Proc S M M := fun m => .done m (.ok m)

/-- Change the process memory. -/
def update (f : M → M) : Proc S M Unit := fun m => .done (f m) (.ok ())

/-- Await a statement. -/
def call (op : S.Op) : Proc S M (S.Ret op) := fun m => .await m op (fun r m' => .done m' r)

instance : Monad (Proc S M) where
  pure := ret
  bind := andThen

instance : MonadExcept S.Err (Proc S M) where
  throw := fail
  tryCatch := handle

/-- Run `f` over a list, in order. -/
def each (f : α → Proc S M Unit) : List α → Proc S M Unit
  | [] => ret ()
  | a :: as => andThen (f a) fun _ => each f as

end Proc

/-! ## Running against a deterministic outside -/

section Exec

variable {W : Type}

/-- Run a thread to its end; `sem` answers each statement at once. -/
def Thread.exec (sem : (op : S.Op) → W → Except S.Err (S.Ret op) × W) :
    Thread S M α → W → Except S.Err α × M × W
  | .done m r, w => (r, m, w)
  | .await m' op k, w =>
    let a := sem op w
    (k a.1 m').exec sem a.2

/-- What a crash after `n` statements leaves of the outside. -/
def Thread.crashAfter (sem : (op : S.Op) → W → Except S.Err (S.Ret op) × W) :
    Nat → Thread S M α → W → W
  | 0, _, w => w
  | _ + 1, .done _ _, w => w
  | n + 1, .await m' op k, w =>
    let a := sem op w
    (k a.1 m').crashAfter sem n a.2

end Exec

/-! ## The logic of one program -/

section Logic

variable {W : Type}

/-- How a statement is answered: `step op m w r m' w'` says that a program which awaits
`op` in memory `m` and outside `w` may go on with the answer `r` in `m'` and `w'`.  What
other programs of the process and the outside do meanwhile is part of the step. -/
abbrev Answers (S : Signature) (M W : Type) :=
  (op : S.Op) → M → W → Except S.Err (S.Ret op) → M → W → Prop

/-- `t` started in outside `w`: `C` holds at every await and `Q` at the end. -/
def Thread.Sat (step : Answers S M W) (C : M → W → Prop)
    (Q : Except S.Err α → M → W → Prop) : Thread S M α → W → Prop
  | .done m r, w => Q r m w
  | .await m op k, w =>
    C m w ∧ ∀ r m' w', step op m w r m' w' → (k r m').Sat step C Q w'

/-- `Thread.Sat` of a program started in memory `m`. -/
def Proc.Sat (step : Answers S M W) (C : M → W → Prop) (p : Proc S M α) (m : M) (w : W)
    (Q : Except S.Err α → M → W → Prop) : Prop :=
  (p m).Sat step C Q w

variable {step : Answers S M W} {C : M → W → Prop}

theorem Thread.Sat.mono {Q Q' : Except S.Err α → M → W → Prop} {t : Thread S M α} {w : W}
    (h : t.Sat step C Q w) (hQ : ∀ r m w, Q r m w → Q' r m w) : t.Sat step C Q' w := by
  induction t generalizing w with
  | done m r => exact hQ r m w h
  | await m op k ih => exact ⟨h.1, fun r m' w' hs => ih r m' (h.2 r m' w' hs)⟩

theorem Proc.Sat.mono {Q Q' : Except S.Err α → M → W → Prop} {p : Proc S M α} {m : M}
    {w : W} (h : p.Sat step C m w Q) (hQ : ∀ r m w, Q r m w → Q' r m w) :
    p.Sat step C m w Q' :=
  Thread.Sat.mono h hQ

theorem Thread.sat_andThen {Q : Except S.Err β → M → W → Prop} {t : Thread S M α}
    {f : Except S.Err α → Proc S M β} {w : W} :
    (t.andThen f).Sat step C Q w ↔
      t.Sat step C (fun r m w => (f r m).Sat step C Q w) w := by
  induction t generalizing w with
  | done m r => exact Iff.rfl
  | await m op k ih =>
    simp only [Thread.andThen, Thread.Sat]
    refine and_congr_right fun _ => ?_
    exact forall_congr' fun r => forall_congr' fun m' => forall_congr' fun w' =>
      imp_congr_right fun _ => ih r m'

@[simp] theorem Proc.sat_pure {Q : Except S.Err α → M → W → Prop} {a : α} {m : M} {w : W} :
    (pure a : Proc S M α).Sat step C m w Q ↔ Q (.ok a) m w := Iff.rfl

@[simp] theorem Proc.sat_read {Q : Except S.Err M → M → W → Prop} {m : M} {w : W} :
    (Proc.read : Proc S M M).Sat step C m w Q ↔ Q (.ok m) m w := Iff.rfl

@[simp] theorem Proc.sat_update {Q : Except S.Err Unit → M → W → Prop} {f : M → M} {m : M}
    {w : W} : (Proc.update f : Proc S M Unit).Sat step C m w Q ↔ Q (.ok ()) (f m) w := Iff.rfl

@[simp] theorem Proc.sat_call {op : S.Op} {Q : Except S.Err (S.Ret op) → M → W → Prop} {m : M}
    {w : W} : (Proc.call op : Proc S M (S.Ret op)).Sat step C m w Q ↔
      C m w ∧ ∀ r m' w', step op m w r m' w' → Q r m' w' := Iff.rfl

theorem Proc.sat_andThen {Q : Except S.Err β → M → W → Prop} {x : Proc S M α}
    {f : α → Proc S M β} {m : M} {w : W} :
    (Proc.andThen x f).Sat step C m w Q ↔
      x.Sat step C m w (fun r m' w' => match r with
        | .ok a => (f a).Sat step C m' w' Q
        | .error e => Q (.error e) m' w') := by
  refine Thread.sat_andThen.trans ?_
  constructor <;> intro h <;> refine h.mono ?_ <;> rintro (e | a) m' w' h' <;> exact h'

theorem Proc.sat_bind {Q : Except S.Err β → M → W → Prop} {x : Proc S M α}
    {f : α → Proc S M β} {m : M} {w : W} :
    (x >>= f).Sat step C m w Q ↔
      x.Sat step C m w (fun r m' w' => match r with
        | .ok a => (f a).Sat step C m' w' Q
        | .error e => Q (.error e) m' w') :=
  Proc.sat_andThen

theorem Proc.sat_handle {Q : Except S.Err α → M → W → Prop} {x : Proc S M α}
    {h : S.Err → Proc S M α} {m : M} {w : W} :
    (Proc.handle x h).Sat step C m w Q ↔
      x.Sat step C m w (fun r m' w' => match r with
        | .ok a => Q (.ok a) m' w'
        | .error e => (h e).Sat step C m' w' Q) := by
  refine Thread.sat_andThen.trans ?_
  constructor <;> intro h <;> refine h.mono ?_ <;> rintro (e | a) m' w' h' <;> exact h'

theorem Proc.sat_attempt {Q : Except S.Err (Except S.Err α) → M → W → Prop} {x : Proc S M α}
    {m : M} {w : W} :
    (Proc.attempt x).Sat step C m w Q ↔ x.Sat step C m w (fun r => Q (.ok r)) :=
  Thread.sat_andThen

theorem Thread.Sat.weaken {C' : M → W → Prop} {Q : Except S.Err α → M → W → Prop}
    {t : Thread S M α} {w : W} (h : t.Sat step C Q w) (hC : ∀ m w, C m w → C' m w) :
    t.Sat step C' Q w := by
  induction t generalizing w with
  | done m r => exact h
  | await m op k ih => exact ⟨hC m w h.1, fun r m' w' hs => ih r m' (h.2 r m' w' hs)⟩

theorem Proc.Sat.weaken {C' : M → W → Prop} {Q : Except S.Err α → M → W → Prop}
    {p : Proc S M α} {m : M} {w : W} (h : p.Sat step C m w Q) (hC : ∀ m w, C m w → C' m w) :
    p.Sat step C' m w Q :=
  Thread.Sat.weaken h hC

/-- Fewer answers to expect, all of which keep `G`: the same conclusion, and `G`. -/
theorem Thread.Sat.restrict {step' : Answers S M W} {G : W → Prop}
    {Q : Except S.Err α → M → W → Prop} {t : Thread S M α} {w : W}
    (h : t.Sat step C Q w) (hw : G w)
    (hs : ∀ op m w r m' w', step' op m w r m' w' → step op m w r m' w' ∧ G w') :
    t.Sat step' (fun m w => C m w ∧ G w) (fun r m w => Q r m w ∧ G w) w := by
  induction t generalizing w with
  | done m r => exact ⟨h, hw⟩
  | await m op k ih =>
    refine ⟨⟨h.1, hw⟩, fun r m' w' h' => ?_⟩
    obtain ⟨ha, hg⟩ := hs _ _ _ _ _ _ h'
    exact ih r m' (h.2 r m' w' ha) hg

theorem Proc.Sat.bind {Q' : Except S.Err α → M → W → Prop} {Q : Except S.Err β → M → W → Prop}
    {x : Proc S M α} {f : α → Proc S M β} {m : M} {w : W} (hx : x.Sat step C m w Q')
    (hok : ∀ a m' w', Q' (.ok a) m' w' → (f a).Sat step C m' w' Q)
    (herr : ∀ e m' w', Q' (.error e) m' w' → Q (.error e) m' w') :
    (x >>= f).Sat step C m w Q := by
  rw [Proc.sat_bind]
  refine hx.mono ?_
  rintro (e | a) m' w' h
  · exact herr e m' w' h
  · exact hok a m' w' h

theorem Proc.Sat.handle {Q' Q : Except S.Err α → M → W → Prop} {x : Proc S M α}
    {g : S.Err → Proc S M α} {m : M} {w : W} (hx : x.Sat step C m w Q')
    (hok : ∀ a m' w', Q' (.ok a) m' w' → Q (.ok a) m' w')
    (herr : ∀ e m' w', Q' (.error e) m' w' → (g e).Sat step C m' w' Q) :
    (Proc.handle x g).Sat step C m w Q := by
  rw [Proc.sat_handle]
  refine hx.mono ?_
  rintro (e | a) m' w' h
  · exact herr e m' w' h
  · exact hok a m' w' h

/-! ## Programs whose failures only keep the crash condition -/

/-- `Q` of a returned value; a failure leaves what a crash leaves. -/
def Returns (C : M → W → Prop) (Q : α → M → W → Prop) : Except S.Err α → M → W → Prop
  | .ok a => Q a
  | .error _ => C

/-- `C` holds at every await of `p` and where it fails, `Q` of what it returns. -/
def Proc.Yields (step : Answers S M W) (C : M → W → Prop) (p : Proc S M α) (m : M) (w : W)
    (Q : α → M → W → Prop) : Prop :=
  p.Sat step C m w (Returns C Q)

section Yields

variable {Q : α → M → W → Prop} {m : M} {w : W}

@[simp] theorem Proc.yields_read {Q : M → M → W → Prop} :
    (Proc.read : Proc S M M).Yields step C m w Q ↔ Q m m w := Iff.rfl

@[simp] theorem Proc.yields_update {Q : Unit → M → W → Prop} {f : M → M} :
    (Proc.update f : Proc S M Unit).Yields step C m w Q ↔ Q () (f m) w := Iff.rfl

theorem Proc.yields_bind {Q : β → M → W → Prop} {x : Proc S M α} {f : α → Proc S M β} :
    (x >>= f).Yields step C m w Q ↔
      x.Yields step C m w (fun a m' w' => (f a).Yields step C m' w' Q) := by
  refine Proc.sat_bind.trans ?_
  constructor <;> intro h <;> refine h.mono ?_ <;> rintro (e | a) m' w' h' <;> exact h'

theorem Proc.yields_call {op : S.Op} {Q : S.Ret op → M → W → Prop}
    (hC : C m w) (hok : ∀ a m' w', step op m w (.ok a) m' w' → Q a m' w')
    (herr : ∀ e m' w', step op m w (.error e) m' w' → C m' w') :
    (Proc.call op : Proc S M (S.Ret op)).Yields step C m w Q := by
  refine ⟨hC, ?_⟩
  rintro (e | a) m' w' hs
  · exact herr e m' w' hs
  · exact hok a m' w' hs

theorem Proc.Yields.mono {Q' : α → M → W → Prop} {p : Proc S M α}
    (h : p.Yields step C m w Q) (hQ : ∀ a m w, Q a m w → Q' a m w) :
    p.Yields step C m w Q' := by
  refine Proc.Sat.mono h ?_
  rintro (e | a) m w h
  · exact h
  · exact hQ a m w h

theorem Proc.Yields.weaken {C' : M → W → Prop} {p : Proc S M α} (h : p.Yields step C m w Q)
    (hC : ∀ m w, C m w → C' m w) : p.Yields step C' m w Q := by
  refine (Proc.Sat.weaken h hC).mono ?_
  rintro (e | a) m w h
  · exact hC m w h
  · exact h

theorem Proc.Yields.bind {Q' : α → M → W → Prop} {Q : β → M → W → Prop} {x : Proc S M α}
    {f : α → Proc S M β} (hx : x.Yields step C m w Q')
    (hf : ∀ a m' w', Q' a m' w' → (f a).Yields step C m' w' Q) :
    (x >>= f).Yields step C m w Q :=
  Proc.yields_bind.mpr (hx.mono hf)

/-- Every program yields what asks for nothing. -/
theorem Proc.yields_true (p : Proc S M α) (m : M) (w : W) :
    p.Yields step (fun _ _ => True) m w fun _ _ _ => True := by
  have hall : ∀ (t : Thread S M α) (w : W), t.Sat step (fun _ _ => True)
      (Returns (fun _ _ => True) fun _ _ _ => True) w := by
    intro t
    induction t with
    | done m r =>
      intro w
      cases r with
      | error e => trivial
      | ok a => trivial
    | await m op k ih => exact fun w => ⟨trivial, fun r m' w' _ => ih r m' w'⟩
  exact hall (p m) w

theorem Proc.Yields.attempt {Q : Except S.Err α → M → W → Prop} {x : Proc S M α}
    (hx : x.Yields step C m w (fun a => Q (.ok a)))
    (herr : ∀ e m' w', C m' w' → Q (.error e) m' w') :
    (Proc.attempt x).Yields step C m w Q := by
  refine Proc.sat_attempt.mpr (Proc.Sat.mono hx ?_)
  rintro (e | a) m' w' h
  · exact herr e m' w' h
  · exact h

end Yields

/-! ## Operational reading -/

/-- `t` in `w` comes to `t'` in `w'` by answering some of its statements. -/
inductive Thread.Reaches (step : Answers S M W) :
    Thread S M α → W → Thread S M α → W → Prop
  | refl (t : Thread S M α) (w : W) : Reaches step t w t w
  | answer {m op k w r m' w' t w''} (hs : step op m w r m' w')
      (h : Reaches step (k r m') w' t w'') : Reaches step (.await m op k) w t w''

theorem Thread.Reaches.trans {t t' t'' : Thread S M α} {w w' w'' : W}
    (h : t.Reaches step w t' w') (h' : t'.Reaches step w' t'' w'') : t.Reaches step w t'' w'' := by
  induction h with
  | refl => exact h'
  | answer hs _ ih => exact .answer hs (ih h')

/-- Another outside that can answer the same way. -/
theorem Thread.Reaches.simulate {W' : Type} {step' : Answers S M W'} {t t' : Thread S M α}
    {w w' : W} (h : t.Reaches step w t' w') (hs : ∀ op m w r m' w' v, step op m w r m' w' →
      ∃ v', step' op m v r m' v') (v : W') : ∃ v', t.Reaches step' v t' v' := by
  induction h generalizing v with
  | refl => exact ⟨v, .refl _ _⟩
  | answer ha _ ih =>
    obtain ⟨v₁, ha'⟩ := hs _ _ _ _ _ _ v ha
    obtain ⟨v', h'⟩ := ih v₁
    exact ⟨v', .answer ha' h'⟩

/-- A suspended thread a satisfied program comes to meets `C` (what a crash leaves). -/
theorem Thread.Sat.await_of_reaches {Q : Except S.Err α → M → W → Prop} {t : Thread S M α}
    {w : W} (h : t.Sat step C Q w) {m : M} {op : S.Op}
    {k : Except S.Err (S.Ret op) → M → Thread S M α} {w' : W}
    (hr : t.Reaches step w (.await m op k) w') : C m w' := by
  generalize ht : Thread.await m op k = t' at hr
  induction hr with
  | refl t w => subst ht; exact h.1
  | answer hs _ ih => exact ih (h.2 _ _ _ hs) ht

theorem Thread.Sat.done_of_reaches {Q : Except S.Err α → M → W → Prop} {t : Thread S M α}
    {w : W} (h : t.Sat step C Q w) {m : M} {r : Except S.Err α} {w' : W}
    (hr : t.Reaches step w (.done m r) w') : Q r m w' := by
  generalize ht : Thread.done m r = t' at hr
  induction hr with
  | refl t w => subst ht; exact h
  | answer hs _ ih => exact ih (h.2 _ _ _ hs) ht

/-- The process memory a thread was left with. -/
def Thread.mem : Thread S M α → M
  | .done m _ => m
  | .await m _ _ => m

/-- What holds at every await and at the end holds of every thread come to. -/
theorem Thread.Sat.mem_of_reaches {F : M → W → Prop} {t t' : Thread S M α} {w w' : W}
    (h : t.Sat step F (fun _ => F) w) (hr : t.Reaches step w t' w') : F t'.mem w' := by
  cases t' with
  | done m r => exact h.done_of_reaches hr
  | await m op k => exact h.await_of_reaches hr

/-- Running against a deterministic outside that the steps allow is one way to get to
the end; `G` is what the steps need of the outside. -/
theorem Thread.exec_reaches {G : W → Prop}
    {sem : (op : S.Op) → W → Except S.Err (S.Ret op) × W}
    (hsem : ∀ op m w, G w → step op m w (sem op w).1 m (sem op w).2 ∧ G (sem op w).2)
    (t : Thread S M α) {w : W} (hw : G w) :
    t.Reaches step w (.done (t.exec sem w).2.1 (t.exec sem w).1) (t.exec sem w).2.2 := by
  induction t generalizing w with
  | done m r => exact .refl _ _
  | await m op k ih =>
    obtain ⟨hs, hw'⟩ := hsem op m w hw
    exact .answer hs (ih (sem op w).1 m hw')

/-- `n` statements of a thread, each answered at once by `sem`; `none` where `sem` has no
answer. -/
def Thread.advance (sem : (op : S.Op) → W → Option (Except S.Err (S.Ret op) × W)) :
    Nat → Thread S M α → W → Option (Thread S M α × W)
  | 0, t, w => some (t, w)
  | _ + 1, .done m r, w => some (.done m r, w)
  | n + 1, .await m op k, w => (sem op w).bind fun a => (k a.1 m).advance sem n a.2

theorem Thread.advance_reaches {sem : (op : S.Op) → W → Option (Except S.Err (S.Ret op) × W)}
    (hsem : ∀ op m w r w', sem op w = some (r, w') → step op m w r m w') {n : Nat}
    {t t' : Thread S M α} {w w' : W} (h : t.advance sem n w = some (t', w')) :
    t.Reaches step w t' w' := by
  induction n generalizing t w with
  | zero =>
    obtain ⟨rfl, rfl⟩ := Prod.mk.inj (Option.some.inj h)
    exact .refl _ _
  | succ n ih =>
    cases t with
    | done m r =>
      obtain ⟨rfl, rfl⟩ := Prod.mk.inj (Option.some.inj h)
      exact .refl _ _
    | await m op k =>
      obtain ⟨⟨r, w₁⟩, hs, h⟩ := Option.bind_eq_some_iff.mp h
      exact .answer (hsem op m w r w₁ hs) (ih h)

/-! ## A deterministic outside -/

/-- Every statement is answered at once by `sem`, and nothing else happens. -/
def Answers.of (sem : (op : S.Op) → W → Except S.Err (S.Ret op) × W) : Answers S M W :=
  fun op m w r m' w' => m' = m ∧ sem op w = (r, w')

section

variable {sem : (op : S.Op) → W → Except S.Err (S.Ret op) × W}
  {Q : Except S.Err α → M → W → Prop}

theorem Proc.sat_call_of {op : S.Op} {Q : Except S.Err (S.Ret op) → M → W → Prop} {m : M}
    {w : W} : (Proc.call op : Proc S M (S.Ret op)).Sat (Answers.of sem) C m w Q ↔
      C m w ∧ Q (sem op w).1 m (sem op w).2 := by
  rw [Proc.sat_call]
  refine and_congr_right fun _ => ⟨fun h => h _ _ _ ⟨rfl, rfl⟩, ?_⟩
  rintro h r m' w' ⟨rfl, hs⟩
  rw [hs] at h
  exact h

theorem Thread.Sat.exec {t : Thread S M α} {w : W} (h : t.Sat (Answers.of sem) C Q w) :
    Q (t.exec sem w).1 (t.exec sem w).2.1 (t.exec sem w).2.2 := by
  induction t generalizing w with
  | done m r => exact h
  | await m op k ih => exact ih (sem op w).1 m (h.2 _ _ _ ⟨rfl, rfl⟩)

/-- A crash leaves what holds at an await, or it comes after the end. -/
theorem Thread.Sat.crashAfter {t : Thread S M α} {w : W} (h : t.Sat (Answers.of sem) C Q w)
    (n : Nat) :
    (∃ m, C m (t.crashAfter sem n w)) ∨ ∃ r m, Q r m (t.crashAfter sem n w) := by
  induction n generalizing t w with
  | zero =>
    cases t with
    | done m r => exact Or.inr ⟨r, m, h⟩
    | await m op k => exact Or.inl ⟨m, h.1⟩
  | succ n ih =>
    cases t with
    | done m r => exact Or.inr ⟨r, m, h⟩
    | await m op k => exact ih (h.2 _ _ _ ⟨rfl, rfl⟩)

end

/-! ## Invariants -/

/-- `p` keeps `F`: started where `F` holds it holds at every await and at the end. -/
def Proc.Keeps (step : Answers S M W) (F : M → W → Prop) (p : Proc S M α) : Prop :=
  ∀ m w, F m w → p.Sat step F m w (fun _ m' w' => F m' w')

variable {F : M → W → Prop}

theorem Proc.Keeps.ret (a : α) : (Proc.ret (S := S) a).Keeps step F :=
  fun _ _ h => h

theorem Proc.Keeps.pure (a : α) : (Pure.pure a : Proc S M α).Keeps step F :=
  fun _ _ h => h

theorem Proc.Keeps.fail (e : S.Err) : (Proc.fail e : Proc S M α).Keeps step F :=
  fun _ _ h => h

theorem Proc.Keeps.read : (Proc.read : Proc S M M).Keeps step F :=
  fun _ _ h => h

theorem Proc.Keeps.update {f : M → M} (hf : ∀ m w, F m w → F (f m) w) :
    (Proc.update f : Proc S M Unit).Keeps step F :=
  fun m w h => hf m w h

theorem Proc.Keeps.call {op : S.Op}
    (hop : ∀ m w r m' w', F m w → step op m w r m' w' → F m' w') :
    (Proc.call op : Proc S M (S.Ret op)).Keeps step F :=
  fun m w h => ⟨h, fun r m' w' hs => hop m w r m' w' h hs⟩

theorem Proc.Keeps.andThen {x : Proc S M α} {f : α → Proc S M β}
    (hx : x.Keeps step F) (hf : ∀ a, (f a).Keeps step F) :
    (Proc.andThen x f).Keeps step F := by
  intro m w h
  rw [Proc.sat_andThen]
  refine (hx m w h).mono ?_
  rintro (e | a) m' w' h'
  · exact h'
  · exact hf a m' w' h'

theorem Proc.Keeps.bind {x : Proc S M α} {f : α → Proc S M β}
    (hx : x.Keeps step F) (hf : ∀ a, (f a).Keeps step F) :
    (x >>= f).Keeps step F :=
  Proc.Keeps.andThen hx hf

theorem Proc.Keeps.handle {x : Proc S M α} {g : S.Err → Proc S M α}
    (hx : x.Keeps step F) (hg : ∀ e, (g e).Keeps step F) :
    (Proc.handle x g).Keeps step F := by
  intro m w h
  rw [Proc.sat_handle]
  refine (hx m w h).mono ?_
  rintro (e | a) m' w' h'
  · exact hg e m' w' h'
  · exact h'

theorem Proc.Keeps.attempt {x : Proc S M α} (hx : x.Keeps step F) :
    (Proc.attempt x).Keeps step F :=
  fun m w h => Proc.sat_attempt.mpr (hx m w h)

theorem Proc.Keeps.each {f : α → Proc S M Unit} (hf : ∀ a, (f a).Keeps step F)
    (as : List α) : (Proc.each f as).Keeps step F := by
  induction as with
  | nil => exact Keeps.ret ()
  | cons a as ih => exact Keeps.andThen (hf a) fun _ => ih

theorem Proc.Keeps.ite {c : Prop} [Decidable c] {x y : Proc S M α}
    (hx : x.Keeps step F) (hy : y.Keeps step F) :
    (if c then x else y).Keeps step F := by
  split
  · exact hx
  · exact hy

end Logic

end EventLoop
