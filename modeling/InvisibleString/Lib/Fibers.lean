import InvisibleString.Lib.EventLoop

/- # `Lib.Fibers` — several programs over one process memory

The programs of an event loop share its memory.  Each runs up to its next `await`, and while it
waits the others run and the outside changes.  A `Fiber` is one of them between two of its turns:
ready to go on, or blocked at a statement that is yet to be executed.

A `Contract` is what one program and the rest promise each other.  `Proc.Guards` says that a
program keeps its side in every turn; `Fiber.Keeps` says the same of a fiber, and that is an
invariant: the fiber's own turns keep it, and so does whatever the contract grants to the others.

**Proved here.**

    the rules for the constructs of a program  (`Proc.Guards.bind`, `Proc.Guards.handle`, ...)
    a turn of a fiber, the execution of its statement and the steps of the others keep
      `Fiber.Keeps`  (`Fiber.Keeps.pause`, `Fiber.Keeps.answer`, `Fiber.Keeps.mono`)
-/

namespace EventLoop

/-- What a program promises, and what it may rely on. -/
structure Contract (S : Signature) (M W : Type) where
  /-- from a pause to the next turn: the statement is executed, the others run -/
  answers : Answers S M W
  /-- what others do before a turn -/
  others : M → W → M → W → Prop
  /-- what a turn does to the memory -/
  turn : M → M → Prop
  /-- the statements it is blocked at, as long as it is blocked -/
  asks : S.Op → M → Prop
  /-- how it leaves memory and outside where it pauses -/
  leaves : S.Op → M → W → Prop
  turn_refl : ∀ m, turn m m
  turn_trans : ∀ {m₁ m₂ m₃}, turn m₁ m₂ → turn m₂ m₃ → turn m₁ m₃

variable {S : Signature} {M W α β : Type} {K : Contract S M W}

/-- `t`, in a turn that began in `m₀`: every turn is allowed, every pause is as promised, and `Q`
holds at the end. -/
def Thread.Guards (K : Contract S M W) (Q : Except S.Err α → M → W → Prop) :
    Thread S M α → M → W → Prop
  | .done m r, m₀, w => K.turn m₀ m ∧ Q r m w
  | .await m op k, m₀, w => K.turn m₀ m ∧ K.asks op m ∧ K.leaves op m w ∧
      ∀ r m' w', K.answers op m w r m' w' → (k r m').Guards K Q m' w'

/-- `Thread.Guards` of a program whose first turn begins in `m`. -/
def Proc.Guards (K : Contract S M W) (p : Proc S M α) (m : M) (w : W)
    (Q : Except S.Err α → M → W → Prop) : Prop :=
  (p m).Guards K Q m w

/-! ## Rules -/

theorem Thread.Guards.mono {Q Q' : Except S.Err α → M → W → Prop} {t : Thread S M α} {m₀ : M}
    {w : W} (h : t.Guards K Q m₀ w) (hQ : ∀ r m w, Q r m w → Q' r m w) : t.Guards K Q' m₀ w := by
  induction t generalizing m₀ w with
  | done m r => exact ⟨h.1, hQ r m w h.2⟩
  | await m op k ih =>
    obtain ⟨hturn, hasks, hleaves, hnext⟩ := h
    exact ⟨hturn, hasks, hleaves, fun r m' w' hs => ih r m' (hnext r m' w' hs)⟩

/-- The turn began earlier. -/
theorem Thread.Guards.since {Q : Except S.Err α → M → W → Prop} {t : Thread S M α} {m₀ m : M}
    {w : W} (hturn : K.turn m₀ m) (h : t.Guards K Q m w) : t.Guards K Q m₀ w := by
  cases t with
  | done m' r => exact ⟨K.turn_trans hturn h.1, h.2⟩
  | await m' op k => exact ⟨K.turn_trans hturn h.1, h.2⟩

theorem Thread.Guards.andThen {Q : Except S.Err α → M → W → Prop}
    {Q' : Except S.Err β → M → W → Prop} {t : Thread S M α} {f : Except S.Err α → Proc S M β}
    {m₀ : M} {w : W} (h : t.Guards K Q m₀ w) (hf : ∀ r m w, Q r m w → (f r).Guards K m w Q') :
    (t.andThen f).Guards K Q' m₀ w := by
  induction t generalizing m₀ w with
  | done m r => exact Thread.Guards.since h.1 (hf r m w h.2)
  | await m op k ih =>
    obtain ⟨hturn, hasks, hleaves, hnext⟩ := h
    exact ⟨hturn, hasks, hleaves, fun r m' w' hs => ih r m' (hnext r m' w' hs)⟩

namespace Proc.Guards

variable {m : M} {w : W}

theorem mono {Q Q' : Except S.Err α → M → W → Prop} {p : Proc S M α} (h : p.Guards K m w Q)
    (hQ : ∀ r m w, Q r m w → Q' r m w) : p.Guards K m w Q' :=
  Thread.Guards.mono h hQ

theorem ret {Q : Except S.Err α → M → W → Prop} {a : α} (h : Q (.ok a) m w) :
    (Proc.ret a : Proc S M α).Guards K m w Q :=
  ⟨K.turn_refl m, h⟩

theorem fail {Q : Except S.Err α → M → W → Prop} {e : S.Err} (h : Q (.error e) m w) :
    (Proc.fail e : Proc S M α).Guards K m w Q :=
  ⟨K.turn_refl m, h⟩

theorem update {Q : Except S.Err Unit → M → W → Prop} {f : M → M} (hturn : K.turn m (f m))
    (h : Q (.ok ()) (f m) w) : (Proc.update f : Proc S M Unit).Guards K m w Q :=
  ⟨hturn, h⟩

theorem call {op : S.Op} {Q : Except S.Err (S.Ret op) → M → W → Prop} (hasks : K.asks op m)
    (hleaves : K.leaves op m w) (h : ∀ r m' w', K.answers op m w r m' w' → Q r m' w') :
    (Proc.call op : Proc S M (S.Ret op)).Guards K m w Q :=
  ⟨K.turn_refl m, hasks, hleaves, fun r m' w' hs => ⟨K.turn_refl m', h r m' w' hs⟩⟩

theorem andThen {Q : Except S.Err α → M → W → Prop} {Q' : Except S.Err β → M → W → Prop}
    {x : Proc S M α} {f : α → Proc S M β} (hx : x.Guards K m w Q)
    (hok : ∀ a m' w', Q (.ok a) m' w' → (f a).Guards K m' w' Q')
    (herr : ∀ e m' w', Q (.error e) m' w' → Q' (.error e) m' w') :
    (Proc.andThen x f).Guards K m w Q' := by
  refine Thread.Guards.andThen hx ?_
  rintro (e | a) m' w' h
  · exact Proc.Guards.fail (herr e m' w' h)
  · exact hok a m' w' h

theorem bind {Q : Except S.Err α → M → W → Prop} {Q' : Except S.Err β → M → W → Prop}
    {x : Proc S M α} {f : α → Proc S M β} (hx : x.Guards K m w Q)
    (hok : ∀ a m' w', Q (.ok a) m' w' → (f a).Guards K m' w' Q')
    (herr : ∀ e m' w', Q (.error e) m' w' → Q' (.error e) m' w') :
    (x >>= f).Guards K m w Q' :=
  andThen hx hok herr

theorem handle {Q Q' : Except S.Err α → M → W → Prop} {x : Proc S M α} {g : S.Err → Proc S M α}
    (hx : x.Guards K m w Q) (hok : ∀ a m' w', Q (.ok a) m' w' → Q' (.ok a) m' w')
    (herr : ∀ e m' w', Q (.error e) m' w' → (g e).Guards K m' w' Q') :
    (Proc.handle x g).Guards K m w Q' := by
  refine Thread.Guards.andThen hx ?_
  rintro (e | a) m' w' h
  · exact herr e m' w' h
  · exact Proc.Guards.ret (hok a m' w' h)

end Proc.Guards

/-! ## Fibers -/

/-- A program between two of its turns. -/
inductive Fiber (S : Signature) (M α : Type) where
  | ready (p : Proc S M α)
  | blocked (op : S.Op) (k : Except S.Err (S.Ret op) → Proc S M α)

/-- One turn: up to its next statement, or to its end. -/
inductive Fiber.Turn (m : M) : Fiber S M α → Option (Fiber S M α) → M → Prop
  | pauses {p : Proc S M α} {m' : M} {op : S.Op} {k : Except S.Err (S.Ret op) → Proc S M α} :
    p m = .await m' op k → Turn m (.ready p) (some (.blocked op k)) m'
  | ends {p : Proc S M α} {m' : M} {r : Except S.Err α} :
    p m = .done m' r → Turn m (.ready p) none m'

/-- The fiber keeps the contract from here on. -/
def Fiber.Keeps (K : Contract S M W) (Q : Except S.Err α → M → W → Prop) :
    Fiber S M α → M → W → Prop
  | .ready p, m, w => ∀ m' w', K.others m w m' w' → p.Guards K m' w' Q
  | .blocked op k, m, w => K.asks op m ∧
      ∀ r m' w', K.answers op m w r m' w' → (k r).Guards K m' w' Q

namespace Fiber.Keeps

variable {Q : Except S.Err α → M → W → Prop} {m m' : M} {w w' : W}

/-- A turn that ends at a statement. -/
theorem pause {p : Proc S M α} {op : S.Op} {k : Except S.Err (S.Ret op) → Proc S M α}
    (h : (Fiber.ready p).Keeps K Q m w) (hself : K.others m w m w) (hp : p m = .await m' op k) :
    K.turn m m' ∧ K.leaves op m' w ∧ (Fiber.blocked op k).Keeps K Q m' w := by
  have hp' : (p m).Guards K Q m w := h m w hself
  rw [hp] at hp'
  obtain ⟨hturn, hasks, hleaves, hnext⟩ := hp'
  exact ⟨hturn, hleaves, hasks, hnext⟩

theorem finish {p : Proc S M α} {r : Except S.Err α} (h : (Fiber.ready p).Keeps K Q m w)
    (hself : K.others m w m w) (hp : p m = .done m' r) : K.turn m m' ∧ Q r m' w := by
  have hp' : (p m).Guards K Q m w := h m w hself
  rw [hp] at hp'
  exact hp'

theorem answer {op : S.Op} {k : Except S.Err (S.Ret op) → Proc S M α}
    {r : Except S.Err (S.Ret op)} (h : (Fiber.blocked op k).Keeps K Q m w)
    (hanswers : ∀ m' w'', K.others m w' m' w'' → K.answers op m w r m' w'') :
    (Fiber.ready (k r)).Keeps K Q m w' :=
  fun m' w'' ho => h.2 r m' w'' (hanswers m' w'' ho)

theorem mono {f : Fiber S M α} (h : f.Keeps K Q m w) (hasks : ∀ op, K.asks op m → K.asks op m')
    (hothers : ∀ m'' w'', K.others m' w' m'' w'' → K.others m w m'' w'')
    (hanswers : ∀ op r m'' w'', K.answers op m' w' r m'' w'' → K.answers op m w r m'' w'') :
    f.Keeps K Q m' w' := by
  cases f with
  | ready p => exact fun m'' w'' ho => h m'' w'' (hothers m'' w'' ho)
  | blocked op k =>
    exact ⟨hasks op h.1, fun r m'' w'' hs => h.2 r m'' w'' (hanswers op r m'' w'' hs)⟩

end Fiber.Keeps

end EventLoop
