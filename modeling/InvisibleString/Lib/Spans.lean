import Mathlib.Data.List.Basic

/- # `Spans` — replacing spans of a list

Disjoint spans of a list, in order, are replaced one after the other from the last to the first,
so that the offsets of the others stay valid.  The result is the list read once from the left,
each span's replacement in its place.

**Proved here.**

    splicing from the end is the one pass from the left  (`spliceAll_eq_onePass`)
    two readings whose replacements differ at their first unit, where they differ, are equal only
      if none does  (`onePass_eq_iff`)
-/

namespace Spans

variable {A : Type}

/-- A span and what comes in its place. -/
structure Span (A : Type) where
  start : Nat
  stop : Nat
  replacement : List A

/-- `text.slice(0, start) + replacement + text.slice(stop)`. -/
def splice (text : List A) (span : Span A) : List A :=
  text.take span.start ++ span.replacement ++ text.drop span.stop

/-- The spans from the last to the first. -/
def spliceAll (text : List A) (spans : List (Span A)) : List A := spans.reverse.foldl splice text

/-- The text from `pos` on, read once. -/
def onePass (text : List A) : Nat → List (Span A) → List A
  | pos, [] => text.drop pos
  | pos, span :: spans =>
    (text.drop pos).take (span.start - pos) ++ span.replacement ++ onePass text span.stop spans

/-- Spans from `pos` on that follow each other within `length`. -/
def Ordered (length : Nat) : Nat → List (Span A) → Prop
  | pos, [] => pos ≤ length
  | pos, span :: spans =>
    pos ≤ span.start ∧ span.start ≤ span.stop ∧ Ordered length span.stop spans

theorem Ordered.le {length pos : Nat} {spans : List (Span A)} (h : Ordered length pos spans) :
    pos ≤ length := by
  induction spans generalizing pos with
  | nil => exact h
  | cons span spans ih =>
    obtain ⟨hpos, hspan, hrest⟩ := h
    exact Nat.le_trans hpos (Nat.le_trans hspan (ih hrest))

/-- What stands before the spans stays. -/
theorem spliceAll_eq {text : List A} {spans : List (Span A)} {pos : Nat}
    (h : Ordered text.length pos spans) :
    spliceAll text spans = text.take pos ++ onePass text pos spans := by
  induction spans generalizing pos with
  | nil => exact (List.take_append_drop pos text).symm
  | cons span spans ih =>
    obtain ⟨hpos, hspan, hrest⟩ := h
    have hstop := hrest.le
    have hlength : (text.take span.stop).length = span.stop := List.length_take_of_le hstop
    rw [spliceAll, List.reverse_cons, List.foldl_append, List.foldl_cons, List.foldl_nil]
    rw [show spans.reverse.foldl splice text = spliceAll text spans from rfl, ih hrest, splice]
    -- the spans behind have left the text up to `span.stop` alone
    have htake : (text.take span.stop ++ onePass text span.stop spans).take span.start =
        text.take pos ++ (text.drop pos).take (span.start - pos) := by
      rw [List.take_append_of_le_length (by omega), List.take_take, Nat.min_eq_left hspan]
      conv_lhs => rw [← Nat.add_sub_cancel' hpos, List.take_add]
    have hdrop : (text.take span.stop ++ onePass text span.stop spans).drop span.stop =
        onePass text span.stop spans := by
      conv_lhs => rw [← hlength]
      rw [hlength, List.drop_left' hlength]
    rw [htake, hdrop, onePass]
    simp only [List.append_assoc]

theorem spliceAll_eq_onePass {text : List A} {spans : List (Span A)}
    (h : Ordered text.length 0 spans) : spliceAll text spans = onePass text 0 spans := by
  rw [spliceAll_eq h, List.take_zero, List.nil_append]

/-- Two lists that differ at once. -/
def Diverge (a b : List A) : Prop :=
  ∃ x y as bs, a = x :: as ∧ b = y :: bs ∧ x ≠ y

theorem Diverge.append_ne {a b : List A} (h : Diverge a b) (as bs : List A) :
    a ++ as ≠ b ++ bs := by
  obtain ⟨x, y, as', bs', rfl, rfl, hne⟩ := h
  intro heq
  exact hne (List.cons.inj heq).1

theorem onePass_eq_iff {B : Type} {text : List A} {spans : List B} (f g : B → Span A)
    (hsame : ∀ b, (f b).start = (g b).start ∧ (f b).stop = (g b).stop)
    (hdiverge : ∀ b ∈ spans, (f b).replacement = (g b).replacement ∨
      Diverge (f b).replacement (g b).replacement) (pos : Nat) :
    onePass text pos (spans.map f) = onePass text pos (spans.map g) ↔
      ∀ b ∈ spans, (f b).replacement = (g b).replacement := by
  induction spans generalizing pos with
  | nil =>
    constructor
    · exact fun _ => nofun
    · exact fun _ => rfl
  | cons b spans ih =>
    obtain ⟨hhead, hrest⟩ := List.forall_mem_cons.mp hdiverge
    obtain ⟨hstart, hstop⟩ := hsame b
    rw [List.map_cons, List.map_cons, onePass, onePass, List.forall_mem_cons, hstart, hstop,
      List.append_assoc, List.append_assoc, List.append_cancel_left_eq]
    rcases hhead with heq | hne
    · rw [heq, List.append_cancel_left_eq, ih hrest]
      exact ⟨fun h => ⟨rfl, h⟩, And.right⟩
    · constructor
      · exact fun h => absurd h (hne.append_ne _ _)
      · rintro ⟨heq, -⟩
        rw [heq] at hne
        exact absurd rfl (hne.append_ne [] [])

end Spans
