import Mathlib.Data.List.Forall2

/- # `Checks` — computations that may throw

A computation that may throw is an `Except`.  What is known of one that did not throw: its
parts did not throw either.
-/

namespace Checks

variable {ε α β γ : Type}

theorem bind_of_eq_ok {x : Except ε α} {f : α → Except ε β} {a : α} (h : x = .ok a) :
    (x >>= f) = f a := by
  rw [h]
  rfl

theorem bind_eq_ok {x : Except ε α} {f : α → Except ε β} {b : β} (h : x >>= f = .ok b) :
    ∃ a, x = .ok a ∧ f a = .ok b := by
  cases x with
  | error e => cases h
  | ok a => exact ⟨a, rfl, h⟩

theorem mapM_eq_ok {f : α → Except ε β} {g : α → β} {l : List α} (h : ∀ a ∈ l, f a = .ok (g a)) :
    l.mapM f = .ok (l.map g) := by
  induction l with
  | nil => rfl
  | cons a l ih =>
    rw [List.mapM_cons, h a List.mem_cons_self, ih fun b hb => h b (List.mem_cons_of_mem _ hb)]
    rfl

theorem mapM_ok_of_forall {f : α → Except ε β} {l : List α} (h : ∀ a ∈ l, ∃ b, f a = .ok b) :
    ∃ bs, l.mapM f = .ok bs := by
  induction l with
  | nil => exact ⟨[], rfl⟩
  | cons a l ih =>
    obtain ⟨b, hb⟩ := h a List.mem_cons_self
    obtain ⟨bs, hbs⟩ := ih fun a' ha' => h a' (List.mem_cons_of_mem _ ha')
    refine ⟨b :: bs, ?_⟩
    rw [List.mapM_cons, hb, hbs]
    rfl

theorem mapM_cons_ok {f : α → Except ε β} {a : α} {l : List α} {bs : List β}
    (h : (a :: l).mapM f = .ok bs) : ∃ b bs', f a = .ok b ∧ l.mapM f = .ok bs' ∧ bs = b :: bs' := by
  rw [List.mapM_cons] at h
  obtain ⟨b, hb, h⟩ := bind_eq_ok h
  obtain ⟨bs', hbs, h⟩ := bind_eq_ok h
  cases h
  exact ⟨b, bs', hb, hbs, rfl⟩

theorem mapM_bind_ok {f : α → Except ε β} {g : β → Except ε γ} {l : List α} {cs : List γ}
    (h : (l.mapM fun a => f a >>= g) = .ok cs) :
    ∃ bs, List.Forall₂ (fun a b => f a = .ok b) l bs ∧ bs.mapM g = .ok cs := by
  induction l generalizing cs with
  | nil =>
    cases h
    exact ⟨[], .nil, rfl⟩
  | cons a l ih =>
    obtain ⟨c, cs', hc, hcs, rfl⟩ := mapM_cons_ok h
    obtain ⟨b, hb, hc⟩ := bind_eq_ok hc
    obtain ⟨bs, hbs, hg⟩ := ih hcs
    refine ⟨b :: bs, .cons hb hbs, ?_⟩
    rw [List.mapM_cons, hc, hg]
    rfl

/-! ## Element by element -/

section

variable {R : α → β → Prop}

theorem forall₂_mem_left {as : List α} {bs : List β} (h : List.Forall₂ R as bs) {a : α}
    (ha : a ∈ as) : ∃ b ∈ bs, R a b := by
  induction h with
  | nil => exact absurd ha List.not_mem_nil
  | @cons a' b as bs hab _ ih =>
    rcases List.mem_cons.mp ha with rfl | ha
    · exact ⟨b, List.mem_cons_self, hab⟩
    · obtain ⟨b', hb', hr⟩ := ih ha
      exact ⟨b', List.mem_cons_of_mem _ hb', hr⟩

theorem forall₂_mem_right {as : List α} {bs : List β} (h : List.Forall₂ R as bs) {b : β}
    (hb : b ∈ bs) : ∃ a ∈ as, R a b := forall₂_mem_left h.flip hb

theorem forall₂_append_left {as as' : List α} {cs : List β} (h : List.Forall₂ R (as ++ as') cs) :
    ∃ bs bs', cs = bs ++ bs' ∧ List.Forall₂ R as bs ∧ List.Forall₂ R as' bs' := by
  induction as generalizing cs with
  | nil => exact ⟨[], cs, rfl, .nil, h⟩
  | cons a as ih =>
    cases h with
    | @cons _ b _ bs hab h =>
      obtain ⟨bs, bs', rfl, hleft, hright⟩ := ih h
      exact ⟨b :: bs, bs', rfl, .cons hab hleft, hright⟩

theorem mapM_eq_some_iff {f : α → Option β} {as : List α} {bs : List β} :
    as.mapM f = some bs ↔ List.Forall₂ (fun a b => f a = some b) as bs := by
  induction as generalizing bs with
  | nil =>
    rw [List.mapM_nil, List.forall₂_nil_left_iff]
    constructor
    · rintro ⟨⟩
      rfl
    · rintro rfl
      rfl
  | cons a as ih =>
    rw [List.mapM_cons, List.forall₂_cons_left_iff]
    constructor
    · intro h
      obtain ⟨b, hb, h⟩ := Option.bind_eq_some_iff.mp h
      obtain ⟨bs', hbs, h⟩ := Option.bind_eq_some_iff.mp h
      cases h
      exact ⟨b, bs', hb, ih.mp hbs, rfl⟩
    · rintro ⟨b, bs', hb, hbs, rfl⟩
      rw [hb, ih.mpr hbs]
      rfl

end

end Checks
