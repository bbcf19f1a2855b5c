import InvisibleString.Pipeline.Config

/- # `Pipeline.Plan` — instance paths

One config step yields one instance for each item of the loop around it.  An instance's
path is the step ids from the root joined with `/`, with the item index under each
`for_each`; it is the key of the instance's ledger row.

**Proved here.**

    the last segment of an instance path is the step's id  (`lastSegment_stepInstancePath`)
    sibling steps, and sibling items, have disjoint subtrees  (`Below.eq_id`, `Below.eq_iteration`)
-/

namespace InvisibleString.Pipeline

open Json

/-- The frame a nested list of steps runs under: the container's own path, and the item
index where the container is a `for_each`. -/
structure StepParentFrame where
  path : JsString
  iteration : Option Nat
  deriving DecidableEq

/-- `STEP_PATH_SEPARATOR`. -/
abbrev separator : CodeUnit := unit '/'

/-- Where the steps of a frame hang: the container's path, with the item index. -/
def StepParentFrame.root (frame : StepParentFrame) : JsString :=
  match frame.iteration with
  | none => frame.path
  | some iteration => frame.path ++ separator :: printNat iteration

def stepInstancePath (parent : Option StepParentFrame) (stepId : JsString) : JsString :=
  match parent with
  | none => stepId
  | some frame =>
    match frame.iteration with
    | none => frame.path ++ separator :: stepId
    | some iteration => frame.path ++ separator :: (printNat iteration ++ separator :: stepId)

theorem stepInstancePath_some (frame : StepParentFrame) (id : JsString) :
    stepInstancePath (some frame) id = frame.root ++ separator :: id := by
  rcases frame with ⟨path, _ | iteration⟩
  · rfl
  · show path ++ separator :: (printNat iteration ++ separator :: id) =
      (path ++ separator :: printNat iteration) ++ separator :: id
    rw [List.append_assoc, List.cons_append]

/-! ## Segments -/

/-- `q` is `p` or lies below it. -/
def Below (p q : JsString) : Prop := q = p ∨ ∃ t, q = p ++ separator :: t

/-- The part up to the first separator. -/
def firstSegment (p : JsString) : JsString := p.takeWhile (· ≠ separator)

/-- The part behind the last separator. -/
def lastSegment (p : JsString) : JsString := (p.reverse.takeWhile (· ≠ separator)).reverse

theorem takeWhile_append_separator {s t : JsString} (h : separator ∉ s) :
    (s ++ separator :: t).takeWhile (· ≠ separator) = s := by
  induction s with
  | nil => rfl
  | cons c s ih =>
    rw [List.mem_cons, not_or] at h
    have hc : decide (c ≠ separator) = true := decide_eq_true (Ne.symm h.1)
    rw [List.cons_append, List.takeWhile_cons, if_pos hc, ih h.2]

theorem takeWhile_of_not_mem {s : JsString} (h : separator ∉ s) :
    s.takeWhile (· ≠ separator) = s := by
  induction s with
  | nil => rfl
  | cons c s ih =>
    rw [List.mem_cons, not_or] at h
    have hc : decide (c ≠ separator) = true := decide_eq_true (Ne.symm h.1)
    rw [List.takeWhile_cons, if_pos hc, ih h.2]

theorem Below.firstSegment_eq {s q : JsString} (h : separator ∉ s) (hq : Below s q) :
    firstSegment q = s := by
  rcases hq with rfl | ⟨t, rfl⟩
  · exact takeWhile_of_not_mem h
  · exact takeWhile_append_separator h

theorem lastSegment_append_separator {s t : JsString} (h : separator ∉ t) :
    lastSegment (s ++ separator :: t) = t := by
  rw [lastSegment, List.reverse_append, List.reverse_cons, List.append_assoc,
    List.singleton_append, takeWhile_append_separator (by rwa [List.mem_reverse]),
    List.reverse_reverse]

/-- The last segment of an instance path is the step's id. -/
theorem lastSegment_stepInstancePath {parent : Option StepParentFrame} {id : JsString}
    (h : separator ∉ id) : lastSegment (stepInstancePath parent id) = id := by
  cases parent with
  | none =>
    show lastSegment id = id
    rw [lastSegment, takeWhile_of_not_mem (by rwa [List.mem_reverse]), List.reverse_reverse]
  | some frame =>
    rw [stepInstancePath_some]
    exact lastSegment_append_separator h

theorem separator_not_mem_printNat (n : Nat) : separator ∉ printNat n :=
  fun h => absurd (mem_printNat h).1 (by decide)

theorem printNat_injective {m n : Nat} (h : printNat m = printNat n) : m = n := by
  have hm := readNat_printNat m
  rw [h, readNat_printNat n] at hm
  exact (Option.some.inj hm).symm

/-! ## Subtrees -/

theorem Below.refl (p : JsString) : Below p p := Or.inl rfl

theorem Below.trans {p q r : JsString} (h : Below p q) (h' : Below q r) : Below p r := by
  rcases h with rfl | ⟨t, rfl⟩
  · exact h'
  · rcases h' with rfl | ⟨u, rfl⟩
    · exact Or.inr ⟨t, rfl⟩
    · exact Or.inr ⟨t ++ separator :: u, by rw [List.append_assoc, List.cons_append]⟩

theorem Below.cancel {p s q : JsString} (h : Below (p ++ separator :: s) q) :
    ∃ t, q = p ++ separator :: t ∧ Below s t := by
  rcases h with rfl | ⟨t, rfl⟩
  · exact ⟨s, rfl, Or.inl rfl⟩
  · exact ⟨s ++ separator :: t, by rw [List.append_assoc, List.cons_append], Or.inr ⟨t, rfl⟩⟩

theorem Below.eq_segment {p a b q : JsString} (ha : separator ∉ a) (hb : separator ∉ b)
    (h : Below (p ++ separator :: a) q) (h' : Below (p ++ separator :: b) q) : a = b := by
  obtain ⟨t, rfl, ht⟩ := h.cancel
  obtain ⟨u, hu, hu'⟩ := h'.cancel
  have htu : t = u := (List.cons.inj (List.append_cancel_left hu)).2
  rw [← ht.firstSegment_eq ha, htu, hu'.firstSegment_eq hb]

theorem Below.eq_id {parent : Option StepParentFrame} {a b q : JsString}
    (ha : separator ∉ a) (hb : separator ∉ b) (h : Below (stepInstancePath parent a) q)
    (h' : Below (stepInstancePath parent b) q) : a = b := by
  cases parent with
  | none =>
    have h1 := h.firstSegment_eq ha
    have h2 := h'.firstSegment_eq hb
    exact h1.symm.trans h2
  | some frame =>
    rw [stepInstancePath_some] at h h'
    exact h.eq_segment ha hb h'

theorem Below.eq_iteration {p q : JsString} {i j : Nat}
    (h : Below (StepParentFrame.root ⟨p, some i⟩) q)
    (h' : Below (StepParentFrame.root ⟨p, some j⟩) q) : i = j :=
  printNat_injective
    (h.eq_segment (separator_not_mem_printNat i) (separator_not_mem_printNat j) h')

theorem below_root {frame : StepParentFrame} {id : JsString} :
    Below frame.root (stepInstancePath (some frame) id) := by
  rw [stepInstancePath_some]
  exact Or.inr ⟨id, rfl⟩

theorem StepParentFrame.below_root_path (frame : StepParentFrame) :
    Below frame.path frame.root := by
  rcases frame with ⟨path, _ | iteration⟩
  · exact Below.refl path
  · exact Or.inr ⟨printNat iteration, rfl⟩

theorem ne_path_of_below {frame : StepParentFrame} {id q : JsString}
    (h : Below (stepInstancePath (some frame) id) q) : q ≠ frame.path := by
  rw [stepInstancePath_some] at h
  obtain ⟨t, rfl, -⟩ := h.cancel
  intro heq
  have hlen := congrArg List.length heq
  have hroot : frame.path.length ≤ frame.root.length := by
    rcases frame.below_root_path with h | ⟨u, h⟩
    · rw [h]
    · rw [h, List.length_append]
      exact Nat.le_add_right _ _
  rw [List.length_append, List.length_cons] at hlen
  omega

end InvisibleString.Pipeline
