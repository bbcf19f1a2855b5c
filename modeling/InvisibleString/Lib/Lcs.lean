import Mathlib.Data.List.Basic

/- # `Lcs` — longest common subsequences

`lcsLength a b` by the usual recursion, and the same numbers as a table that is filled from
its last row and its last column.  Row `i` and column `j` of the table belong to what is left
of `a` behind `i` elements and of `b` behind `j`.

**Proved here.**

    no common subsequence is longer  (`length_le_lcsLength`)
    the table has the numbers of the recursion  (`entry_table`)
-/

namespace Lcs

variable {α : Type*} [DecidableEq α]

def lcsLength : List α → List α → Nat
  | [], _ => 0
  | _ :: _, [] => 0
  | x :: a, y :: b =>
    if x = y then lcsLength a b + 1 else max (lcsLength a (y :: b)) (lcsLength (x :: a) b)
termination_by a b => a.length + b.length

@[simp] theorem lcsLength_nil_left (b : List α) : lcsLength [] b = 0 := by
  rw [lcsLength]

@[simp] theorem lcsLength_nil_right (a : List α) : lcsLength a [] = 0 := by
  cases a with
  | nil => exact lcsLength_nil_left []
  | cons x a => rw [lcsLength]

theorem lcsLength_cons_self (x : α) (a b : List α) :
    lcsLength (x :: a) (x :: b) = lcsLength a b + 1 := by
  rw [lcsLength, if_pos rfl]

theorem lcsLength_cons_of_ne {x y : α} (h : x ≠ y) (a b : List α) :
    lcsLength (x :: a) (y :: b) = max (lcsLength a (y :: b)) (lcsLength (x :: a) b) := by
  rw [lcsLength, if_neg h]

theorem length_le_lcsLength {s a b : List α} (ha : s.Sublist a) (hb : s.Sublist b) :
    s.length ≤ lcsLength a b := by
  induction a, b using lcsLength.induct generalizing s with
  | case1 b =>
    rw [List.eq_nil_of_sublist_nil ha]
    exact Nat.zero_le _
  | case2 x a =>
    rw [List.eq_nil_of_sublist_nil hb]
    exact Nat.zero_le _
  | case3 x a b ih =>
    rw [lcsLength_cons_self]
    have htail := ih ha.tail hb.tail
    rw [List.length_tail] at htail
    omega
  | case4 x a y b hne ihleft ihright =>
    rw [lcsLength_cons_of_ne hne]
    cases ha with
    | cons _ ha => exact Nat.le_trans (ihleft ha hb) (Nat.le_max_left _ _)
    | cons_cons _ ha' =>
      cases hb with
      | cons _ hb => exact Nat.le_trans (ihright (ha'.cons_cons x) hb) (Nat.le_max_right _ _)
      | cons_cons _ hb => exact absurd rfl hne

/-! ## The table -/

/-- The row of `x` from the row below it. -/
def tableRow (x : α) : List α → List Nat → List Nat
  | [], _ => [0]
  | y :: b, below =>
    let row := tableRow x b below.tail
    (if x = y then below.tail.headD 0 + 1 else max (below.headD 0) (row.headD 0)) :: row

/-- All rows, the last one of zeros. -/
def table (a b : List α) : List (List Nat) :=
  a.foldr (fun x rows => tableRow x b (rows.headD []) :: rows) [List.replicate (b.length + 1) 0]

def entry (rows : List (List Nat)) (i j : Nat) : Nat := (rows.getD i []).getD j 0

/-- The numbers of `a` with every rest of `b`. -/
def lengths (a : List α) : List α → List Nat
  | [] => [0]
  | y :: b => lcsLength a (y :: b) :: lengths a b

theorem lengths_nil (b : List α) : lengths [] b = List.replicate (b.length + 1) 0 := by
  induction b with
  | nil => rfl
  | cons y b ih =>
    rw [lengths, ih, lcsLength_nil_left]
    rfl

theorem headD_lengths (a b : List α) : (lengths a b).headD 0 = lcsLength a b := by
  cases b with
  | nil => exact (lcsLength_nil_right a).symm
  | cons y b => rfl

theorem getD_lengths (a b : List α) (j : Nat) (hj : j ≤ b.length) :
    (lengths a b).getD j 0 = lcsLength a (b.drop j) := by
  induction b generalizing j with
  | nil =>
    rw [List.length_nil, Nat.le_zero] at hj
    rw [hj]
    exact (lcsLength_nil_right a).symm
  | cons y b ih =>
    cases j with
    | zero => rfl
    | succ j => exact ih j (Nat.le_of_succ_le_succ hj)

theorem tableRow_lengths (x : α) (a b : List α) :
    tableRow x b (lengths a b) = lengths (x :: a) b := by
  induction b with
  | nil => rfl
  | cons y b ih =>
    have hrest : (lengths a (y :: b)).tail = lengths a b := rfl
    have hhead : (lengths a (y :: b)).headD 0 = lcsLength a (y :: b) := rfl
    rw [tableRow, hrest, ih, hhead, headD_lengths, headD_lengths, lengths]
    by_cases hxy : x = y
    · rw [if_pos hxy, hxy, lcsLength_cons_self]
    · rw [if_neg hxy, lcsLength_cons_of_ne hxy]

theorem table_cons (x : α) (a b : List α) :
    table (x :: a) b = tableRow x b ((table a b).headD []) :: table a b := rfl

theorem headD_table (a b : List α) : (table a b).headD [] = lengths a b := by
  induction a with
  | nil => exact (lengths_nil b).symm
  | cons x a ih => rw [table_cons, List.headD_cons, ih, tableRow_lengths]

theorem getD_table (a b : List α) (i : Nat) (hi : i ≤ a.length) :
    (table a b).getD i [] = lengths (a.drop i) b := by
  induction a generalizing i with
  | nil =>
    rw [List.length_nil, Nat.le_zero] at hi
    rw [hi]
    exact (lengths_nil b).symm
  | cons x a ih =>
    cases i with
    | zero => exact headD_table (x :: a) b
    | succ i => exact ih i (Nat.le_of_succ_le_succ hi)

theorem entry_table {a b : List α} {i j : Nat} (hi : i ≤ a.length) (hj : j ≤ b.length) :
    entry (table a b) i j = lcsLength (a.drop i) (b.drop j) := by
  rw [entry, getD_table a b i hi, getD_lengths _ _ _ hj]

end Lcs
