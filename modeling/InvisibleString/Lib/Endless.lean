import InvisibleString.Lib.Transition

/- # `Endless` — runs without end

A run that goes on forever, for statements about what has to happen.

**Proved here.**

    what no step takes back holds on from where it holds  (`Endless.stays`)
    a rank that no step raises and that drops again and again until something is reached brings
      the run there  (`Endless.reaches`)
-/

namespace Transition

universe u v

variable {S : Type u} {E : Type v} {Step : S → E → S → Prop}

structure Endless (Step : S → E → S → Prop) where
  state : Nat → S
  event : Nat → E
  step : ∀ n, Step (state n) (event n) (state (n + 1))

variable {ρ : Endless Step}

theorem Endless.trace (ρ : Endless Step) (n : Nat) :
    ∃ moves, Trace Step (ρ.state 0) moves (ρ.state n) := by
  induction n with
  | zero => exact ⟨[], .nil _⟩
  | succ n ih =>
    obtain ⟨moves, hmoves⟩ := ih
    exact ⟨_, hmoves.append (.cons (ρ.step n) (.nil _))⟩

theorem Endless.stays {P : S → Prop} (ρ : Endless Step)
    (hstep : ∀ n, P (ρ.state n) → P (ρ.state (n + 1))) {n m : Nat} (hle : n ≤ m)
    (hn : P (ρ.state n)) : P (ρ.state m) := by
  induction hle with
  | refl => exact hn
  | step _ ih => exact hstep _ ih

theorem Endless.reaches {f : S → Nat} {P : S → Prop} (ρ : Endless Step) (start : Nat)
    (hkeeps : ∀ n, start ≤ n → f (ρ.state (n + 1)) ≤ f (ρ.state n))
    (hdrops : ∀ n, start ≤ n → ¬ P (ρ.state n) →
      ∃ m, n ≤ m ∧ f (ρ.state (m + 1)) < f (ρ.state m)) :
    ∃ n, start ≤ n ∧ P (ρ.state n) := by
  have hmono : ∀ n m, start ≤ n → n ≤ m → f (ρ.state m) ≤ f (ρ.state n) := by
    intro n m hn hle
    induction hle with
    | refl => exact Nat.le_refl _
    | step hle ih => exact Nat.le_trans (hkeeps _ (Nat.le_trans hn hle)) ih
  have hall : ∀ r n, start ≤ n → f (ρ.state n) ≤ r → ∃ n, start ≤ n ∧ P (ρ.state n) := by
    intro r
    induction r with
    | zero =>
      intro n hn hrank
      by_cases hp : P (ρ.state n)
      · exact ⟨n, hn, hp⟩
      · obtain ⟨m, hm, hlt⟩ := hdrops n hn hp
        have hle := hmono n m hn hm
        omega
    | succ r ih =>
      intro n hn hrank
      by_cases hp : P (ρ.state n)
      · exact ⟨n, hn, hp⟩
      · obtain ⟨m, hm, hlt⟩ := hdrops n hn hp
        have hle := hmono n m hn hm
        exact ih (m + 1) (by omega) (by omega)
  exact hall _ start (Nat.le_refl _) (Nat.le_refl _)

end Transition
