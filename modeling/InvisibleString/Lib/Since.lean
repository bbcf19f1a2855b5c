import Mathlib.Data.List.Induction

/- # `Since` — the past operator "`p` since the last `q`" over finite sequences

`Since p q l`: some element of `l` satisfies `p` and no element behind it satisfies `q`.
A flag that `p` raises and `q` lowers is up behind `l` iff `Since p q l`; a keyed table is
one such flag per key.

**Proved here.**

    one more element  (`since_append_singleton`)
    two ways to be the last element with `q` meet  (`Since.meet`)
    a fold that raises and lowers a flag computes `Since`  (`foldl_flag`)
-/

namespace Temporal

variable {α : Type*}

/-- An element with `p` stands in the sequence, and none with `q` behind it. -/
def Since (p q : α → Prop) (l : List α) : Prop :=
  ∃ before a after, l = before ++ a :: after ∧ p a ∧ ∀ b ∈ after, ¬ q b

variable {p q p' q' : α → Prop} {l : List α} {a : α}

@[simp] theorem since_nil : ¬ Since p q [] := by
  rintro ⟨before, a, after, h, -⟩
  cases before <;> cases h

theorem since_append_singleton :
    Since p q (l ++ [a]) ↔ p a ∨ (Since p q l ∧ ¬ q a) := by
  constructor
  · rintro ⟨before, b, after, h, hb, hafter⟩
    rcases List.eq_nil_or_concat after with rfl | ⟨after, c, rfl⟩
    · obtain ⟨-, h⟩ := List.append_inj' h rfl
      cases h
      exact Or.inl hb
    · rw [List.concat_eq_append] at h hafter
      rw [← List.cons_append, ← List.append_assoc] at h
      obtain ⟨hl, hc⟩ := List.append_inj' h rfl
      cases hc
      refine Or.inr ⟨⟨before, b, after, hl, hb, ?_⟩, ?_⟩
      · intro d hd
        exact hafter d (List.mem_append_left _ hd)
      · exact hafter a (List.mem_append_right _ List.mem_cons_self)
  · rintro (ha | ⟨⟨before, b, after, rfl, hb, hafter⟩, ha⟩)
    · exact ⟨l, a, [], rfl, ha, fun _ h => absurd h List.not_mem_nil⟩
    · refine ⟨before, b, after ++ [a], by simp, hb, ?_⟩
      intro d hd
      rcases List.mem_append.mp hd with hd | hd
      · exact hafter d hd
      · rw [List.mem_singleton.mp hd]
        exact ha

theorem Since.mono (h : Since p q l) (hp : ∀ a, p a → p' a) (hq : ∀ a, q' a → q a) :
    Since p' q' l := by
  obtain ⟨before, a, after, rfl, ha, hafter⟩ := h
  exact ⟨before, a, after, rfl, hp a ha, fun b hb hb' => hafter b hb (hq b hb')⟩

/-- The last element with `q` is unique. -/
theorem Since.meet (h : Since p q l) (h' : Since p' q l) (hp : ∀ a, p a → q a)
    (hp' : ∀ a, p' a → q a) : ∃ a, p a ∧ p' a := by
  induction l using List.reverseRecOn with
  | nil => exact absurd h since_nil
  | append_singleton l a ih =>
    rcases since_append_singleton.mp h with ha | ⟨h, hq⟩
    · rcases since_append_singleton.mp h' with ha' | ⟨-, hq⟩
      · exact ⟨a, ha, ha'⟩
      · exact absurd (hp a ha) hq
    · rcases since_append_singleton.mp h' with ha' | ⟨h', -⟩
      · exact absurd (hp' a ha') hq
      · exact ih h h'

theorem foldl_flag {step : Bool → α → Bool} (hp : ∀ b a, p a → step b a = true)
    (hq : ∀ b a, ¬ p a → q a → step b a = false) (hn : ∀ b a, ¬ p a → ¬ q a → step b a = b) :
    l.foldl step false = true ↔ Since p q l := by
  induction l using List.reverseRecOn with
  | nil => simp
  | append_singleton l a ih =>
    rw [List.foldl_append, List.foldl_cons, List.foldl_nil, since_append_singleton]
    by_cases ha : p a
    · simp [hp _ _ ha, ha]
    · by_cases hqa : q a
      · simp [hq _ _ ha hqa, ha, hqa]
      · rw [hn _ _ ha hqa, ih]
        simp [ha, hqa]

end Temporal
