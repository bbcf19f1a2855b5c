import Mathlib.Logic.Basic
import Mathlib.Logic.Function.Basic

/- # `Lib.Transition` — runs of a transition system

A run is a list of steps that fit together.  What is proved of one step from a good state is
proved of a whole run here, once: a property of the states, and the agreement of two
properties of the steps.

**Proved here.**

    an invariant of the steps taken holds at the end  (`Trace.invariant`)
    what a good step from a good state has, every step of the run has  (`Trace.forall_of`)
    two properties of steps that agree in good states agree on every run that starts in
      one  (`Trace.forall_iff`)
    many copies of a system, one of which takes each step: what the steps of one copy have, the
      steps of all have  (`Each.forall_of`)
-/

namespace Transition

universe u v

variable {S : Type u} {E : Type v}

/-- One step: the state it starts in, what happens, and the state it ends in. -/
structure Move (S : Type u) (E : Type v) where
  before : S
  event : E
  after : S

/-- Steps one after the other. -/
inductive Trace (Step : S → E → S → Prop) : S → List (Move S E) → S → Prop
  | nil (s : S) : Trace Step s [] s
  | cons {s t t' : S} {e : E} {moves : List (Move S E)} : Step s e t → Trace Step t moves t' →
      Trace Step s (⟨s, e, t⟩ :: moves) t'

variable {Step : S → E → S → Prop} {s t : S} {moves : List (Move S E)}

theorem Trace.append {u : S} {moves' : List (Move S E)} (h : Trace Step s moves t)
    (h' : Trace Step t moves' u) : Trace Step s (moves ++ moves') u := by
  induction h with
  | nil => exact h'
  | cons hst _ ih => exact .cons hst (ih h')

/-- An invariant that every step with `Good` keeps. -/
theorem Trace.invariant (Inv : S → Prop) (Good : Move S E → Prop) (h : Trace Step s moves t)
    (hstep : ∀ m : Move S E, Step m.before m.event m.after → Good m → Inv m.before → Inv m.after)
    (hgood : ∀ m ∈ moves, Good m) (hs : Inv s) : Inv t := by
  induction h with
  | nil => exact hs
  | cons hs' _ ih =>
    exact ih (fun m hm => hgood m (List.mem_cons_of_mem _ hm))
      (hstep _ hs' (hgood _ List.mem_cons_self) hs)

/-- A good step from a good state has `P` and leads to a good state: on a run every step has
`P`. -/
theorem Trace.forall_of (Inv : S → Prop) (Good : Move S E → Prop) {P : Move S E → Prop}
    (h : Trace Step s moves t)
    (hstep : ∀ m : Move S E, Step m.before m.event m.after → Good m → Inv m.before →
      P m ∧ Inv m.after)
    (hgood : ∀ m ∈ moves, Good m) (hs : Inv s) : ∀ m ∈ moves, P m := by
  induction h with
  | nil => exact fun m hm => absurd hm List.not_mem_nil
  | @cons s t t' e moves hst _ ih =>
    obtain ⟨hp, ht⟩ := hstep ⟨s, e, t⟩ hst (hgood _ List.mem_cons_self) hs
    rw [List.forall_mem_cons]
    exact ⟨hp, ih (fun m hm => hgood m (List.mem_cons_of_mem _ hm)) ht⟩

/-- In good states `P` and `Q` say the same of a step, and a step with `P` leads to a good
state: on a run they hold of all steps or both fail. -/
theorem Trace.forall_iff (Inv : S → Prop) (Good : Move S E → Prop) {P Q : Move S E → Prop}
    (h : Trace Step s moves t)
    (hiff : ∀ m : Move S E, Step m.before m.event m.after → Good m → Inv m.before → (P m ↔ Q m))
    (hstep : ∀ m : Move S E, Step m.before m.event m.after → Good m → Inv m.before → P m →
      Inv m.after)
    (hgood : ∀ m ∈ moves, Good m) (hs : Inv s) : (∀ m ∈ moves, P m) ↔ ∀ m ∈ moves, Q m := by
  induction h with
  | nil =>
    constructor
    · exact fun _ m hm => absurd hm List.not_mem_nil
    · exact fun _ m hm => absurd hm List.not_mem_nil
  | @cons s t t' e moves hst _ ih =>
    rw [List.forall_mem_cons, List.forall_mem_cons]
    have hg := hgood _ List.mem_cons_self
    rw [← hiff ⟨s, e, t⟩ hst hg hs]
    refine and_congr_right fun hp => ?_
    exact ih (fun m hm => hgood m (List.mem_cons_of_mem _ hm)) (hstep _ hst hg hs hp)

/-! ## Copies -/

section Copies

variable {I : Type} [DecidableEq I]

/-- One of many copies takes a step. -/
inductive Each (Step : S → E → S → Prop) : (I → S) → I × E → (I → S) → Prop
  | mk {f : I → S} {e : E} {t : S} (i : I) : Step (f i) e t →
      Each Step f (i, e) fun j => if j = i then t else f j

/-- The step, seen from the copy that takes it. -/
def Move.local (m : Move (I → S) (I × E)) : Move S E :=
  ⟨m.before m.event.1, m.event.2, m.after m.event.1⟩

/-- What a good copy's step has and keeps, the steps of all copies have. -/
theorem Each.forall_of (Inv : S → Prop) {P : Move S E → Prop} {f g : I → S}
    {moves : List (Move (I → S) (I × E))} (h : Trace (Each Step) f moves g)
    (hstep : ∀ m : Move S E, Step m.before m.event m.after → Inv m.before → P m ∧ Inv m.after)
    (hs : ∀ i, Inv (f i)) : ∀ m ∈ moves, P m.local := by
  refine h.forall_of (fun f => ∀ i, Inv (f i)) (fun _ => True) ?_ (fun _ _ => trivial) hs
  intro m hm _ hinv
  rcases m with ⟨f, e, g⟩
  change Each Step f e g at hm
  cases hm with
  | @mk e t i hi =>
    obtain ⟨hp, ht⟩ := hstep ⟨f i, e, t⟩ hi (hinv i)
    refine ⟨?_, fun j => ?_⟩
    · show P ⟨f i, e, if i = i then t else f i⟩
      rw [if_pos rfl]
      exact hp
    · show Inv (if j = i then t else f j)
      split
      · exact ht
      · exact hinv j

theorem Trace.single (h : Trace Step s moves t) :
    Trace (Each Step) (fun _ : Unit => s)
      (moves.map fun m => ⟨fun _ => m.before, ((), m.event), fun _ => m.after⟩) fun _ => t := by
  induction h with
  | nil s => exact .nil _
  | @cons s t t' e moves hst _ ih =>
    have hmove := @Each.mk S E Unit _ Step (fun _ => s) e t () hst
    have halone : (fun j : Unit => if j = () then t else s) = fun _ => t := by
      funext j
      exact if_pos rfl
    rw [halone] at hmove
    exact .cons hmove ih

end Copies

/-! ## One at work -/

section Alone

variable {I A : Type} {idle a : A} {i : I} {f : I → A}

/-- Nobody but `i` is at work. -/
def Alone (idle : A) (i : I) (f : I → A) : Prop := ∀ j, j ≠ i → f j = idle

theorem Alone.init : Alone idle i fun _ => idle := fun _ _ => rfl

theorem Alone.update [DecidableEq I] (h : Alone idle i f) : Alone idle i (Function.update f i a) := by
  intro j hj
  rw [Function.update_of_ne hj]
  exact h j hj

/-- What holds of `idle` and of `i` holds of everybody. -/
theorem Alone.forall_of {P : A → Prop} (h : Alone idle i f) (hi : P (f i)) (hidle : P idle)
    (j : I) : P (f j) := by
  by_cases hj : j = i
  · rw [hj]
    exact hi
  · rw [h j hj]
    exact hidle

theorem Alone.quiet (h : Alone idle i f) (hi : f i = idle) (j : I) : f j = idle :=
  h.forall_of (P := fun a => a = idle) hi rfl j

end Alone

end Transition
