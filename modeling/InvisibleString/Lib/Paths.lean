import Mathlib.Data.List.Infix

/- # `Paths` — texts as paths

A path is a text that a separator cuts into segments.  One path lies below another when it starts
with it and a separator; two paths are apart when neither is the other or below it.

**Proved here.**

    a path starts with the segments of another exactly when it is that path or lies below it
                                                                        (`segments_prefix_iff`)
    paths whose first segments are apart are apart  (`Apart.of_take`)
-/

namespace Paths

variable {A : Type} (sep : A)

/-- `path` lies below a directory of the name `directory`. -/
def Below (path directory : List A) : Prop := directory ++ [sep] <+: path

variable {sep} {path path' : List A}

theorem not_below_self : ¬ Below sep path path := by
  intro h
  have hlength := h.length_le
  rw [List.length_append, List.length_singleton] at hlength
  omega

theorem Below.append (directory : List A) (h : Below sep path path') :
    Below sep (directory ++ sep :: path) (directory ++ sep :: path') := by
  obtain ⟨rest, rfl⟩ := h
  refine ⟨rest, ?_⟩
  simp only [List.append_assoc, List.cons_append]

theorem intercalate_append {l l' : List (List A)} (hl : l ≠ []) (hl' : l' ≠ []) :
    [sep].intercalate (l ++ l') = [sep].intercalate l ++ sep :: [sep].intercalate l' := by
  induction l with
  | nil => exact absurd rfl hl
  | cons segment l ih =>
    rw [List.cons_append]
    by_cases hnil : l = []
    · rw [hnil, List.nil_append, List.intercalate_cons_of_ne_nil hl', List.intercalate_singleton,
        List.append_assoc]
      rfl
    · rw [List.intercalate_cons_of_ne_nil (List.append_ne_nil_of_left_ne_nil hnil l'),
        List.intercalate_cons_of_ne_nil hnil, ih hnil, List.append_assoc, List.append_assoc,
        List.append_assoc]

/-! ## Segments -/

variable [BEq A] (sep)

def segments (path : List A) : List (List A) := path.splitOn sep

/-- A file of either name can stand beside one of the other. -/
def Apart (path path' : List A) : Prop :=
  ¬ segments sep path <+: segments sep path' ∧ ¬ segments sep path' <+: segments sep path

variable {sep}

theorem segments_ne_nil : segments sep path ≠ [] := List.splitOn_ne_nil sep path

/-- The first segments are enough to tell paths apart. -/
theorem Apart.of_take (n : Nat)
    (h : ¬ (segments sep path).take n <+: (segments sep path').take n)
    (h' : ¬ (segments sep path').take n <+: (segments sep path).take n) : Apart sep path path' :=
  ⟨fun hp => h (List.IsPrefix.take hp n), fun hp => h' (List.IsPrefix.take hp n)⟩

variable [LawfulBEq A]

theorem segments_injective (h : segments sep path = segments sep path') : path = path' := by
  have hjoin := congrArg [sep].intercalate h
  rw [segments, segments, List.intercalate_splitOn, List.intercalate_splitOn] at hjoin
  exact hjoin

/-- The segments of a path that goes on are those of its directory and those of the rest. -/
theorem segments_append (directory rest : List A) :
    segments sep (directory ++ sep :: rest) = segments sep directory ++ segments sep rest :=
  List.splitOn_append_cons_self directory rest

theorem segments_single (h : sep ∉ path) : segments sep path = [path] :=
  List.splitOn_eq_singleton h

theorem segments_prefix_iff :
    segments sep path <+: segments sep path' ↔ path' = path ∨ Below sep path' path := by
  constructor
  · rintro ⟨rest, hrest⟩
    by_cases hnil : rest = []
    · rw [hnil, List.append_nil] at hrest
      exact Or.inl (segments_injective hrest).symm
    · refine Or.inr ⟨[sep].intercalate rest, ?_⟩
      have hjoin := congrArg [sep].intercalate hrest
      rw [intercalate_append segments_ne_nil hnil, segments, segments, List.intercalate_splitOn,
        List.intercalate_splitOn] at hjoin
      rw [← hjoin, List.append_assoc]
      rfl
  · rintro (rfl | ⟨rest, rfl⟩)
    · exact List.prefix_refl _
    · rw [List.append_assoc]
      show _ <+: segments sep (path ++ sep :: rest)
      rw [segments_append]
      exact List.prefix_append _ _

theorem apart_iff : Apart sep path path' ↔
    path ≠ path' ∧ ¬ Below sep path' path ∧ ¬ Below sep path path' := by
  rw [Apart, segments_prefix_iff, segments_prefix_iff, not_or, not_or]
  exact ⟨fun h => ⟨fun heq => h.1.1 heq.symm, h.1.2, h.2.2⟩,
    fun h => ⟨⟨fun heq => h.1 heq.symm, h.2.1⟩, h.1, h.2.2⟩⟩

theorem Apart.append (directory : List A) (h : Apart sep path path') :
    Apart sep (directory ++ sep :: path) (directory ++ sep :: path') := by
  rw [Apart, segments_append, segments_append, List.prefix_append_right_inj,
    List.prefix_append_right_inj]
  exact h

end Paths
