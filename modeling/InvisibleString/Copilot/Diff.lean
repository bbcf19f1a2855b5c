import InvisibleString.Lib.Lcs
import InvisibleString.Lib.Text

/- # `Copilot.Diff` — the preview of a changed text

`diffLines` fills the table of the common lines' lengths and reads a list of rows off it: a
greedy walk that takes a line of both texts where they agree, else one of the text whose rest
has more in common.  `collapseContext` shortens what stays the same.

**Proved here.**

    the rows are an edit of the first text into the second  (`diffLines_edits`)
    no edit keeps more lines  (`keptLines_le`)
    a collapsed list is the rows near a change, and between them one count for the others
                                                                 (`collapse_expand`)
-/

namespace InvisibleString.Copilot

open Json Lcs

inductive DiffKind where
  | same
  | add
  | del
  deriving DecidableEq

structure DiffRow where
  kind : DiffKind
  text : JsString
  deriving DecidableEq

/-! ## The diff -/

/-- The loops that read the table, `i` and `j` lines behind them. -/
def readRows (rows : List (List Nat)) (i j : Nat) : List JsString → List JsString → List DiffRow
  | [], b => b.map (⟨.add, ·⟩)
  | x :: a, [] => (x :: a).map (⟨.del, ·⟩)
  | x :: a, y :: b =>
    if x = y then ⟨.same, x⟩ :: readRows rows (i + 1) (j + 1) a b
    else if entry rows (i + 1) j ≥ entry rows i (j + 1) then
      ⟨.del, x⟩ :: readRows rows (i + 1) j a (y :: b)
    else ⟨.add, y⟩ :: readRows rows i (j + 1) (x :: a) b
termination_by a b => a.length + b.length

/-- `split("\n")`. -/
def linesOf (text : JsString) : List JsString := text.splitOn (unit '\n')

def diffLines (before after : JsString) : List DiffRow :=
  let a := linesOf before
  let b := linesOf after
  readRows (table a b) 0 0 a b

/-! ## Edits -/

def textsOf (kinds : List DiffKind) (rows : List DiffRow) : List JsString :=
  (rows.filter fun row => row.kind ∈ kinds).map DiffRow.text

/-- The rows turn the one list of lines into the other. -/
structure Edits (before after : List JsString) (rows : List DiffRow) : Prop where
  before : textsOf [.same, .del] rows = before
  after : textsOf [.same, .add] rows = after

def keptLines (rows : List DiffRow) : List JsString := textsOf [.same] rows

theorem textsOf_cons (kinds : List DiffKind) (row : DiffRow) (rows : List DiffRow) :
    textsOf kinds (row :: rows) =
      if row.kind ∈ kinds then row.text :: textsOf kinds rows else textsOf kinds rows := by
  rw [textsOf, List.filter_cons]
  by_cases h : row.kind ∈ kinds
  · rw [if_pos h, decide_eq_true h, if_pos rfl]
    rfl
  · rw [if_neg h, decide_eq_false h, if_neg Bool.false_ne_true]
    rfl

theorem textsOf_sublist {kinds kinds' : List DiffKind} (h : kinds ⊆ kinds') (rows : List DiffRow) :
    (textsOf kinds rows).Sublist (textsOf kinds' rows) := by
  refine List.Sublist.map _ (List.monotone_filter_right rows fun row hrow => ?_)
  exact decide_eq_true (h (of_decide_eq_true hrow))

theorem edits_same {x : JsString} {a b : List JsString} {rows : List DiffRow}
    (h : Edits a b rows) : Edits (x :: a) (x :: b) (⟨.same, x⟩ :: rows) :=
  ⟨(textsOf_cons _ _ _).trans (congrArg (x :: ·) h.before),
    (textsOf_cons _ _ _).trans (congrArg (x :: ·) h.after)⟩

theorem edits_del {x : JsString} {a b : List JsString} {rows : List DiffRow}
    (h : Edits a b rows) : Edits (x :: a) b (⟨.del, x⟩ :: rows) :=
  ⟨(textsOf_cons _ _ _).trans (congrArg (x :: ·) h.before), (textsOf_cons _ _ _).trans h.after⟩

theorem edits_add {y : JsString} {a b : List JsString} {rows : List DiffRow}
    (h : Edits a b rows) : Edits a (y :: b) (⟨.add, y⟩ :: rows) :=
  ⟨(textsOf_cons _ _ _).trans h.before, (textsOf_cons _ _ _).trans (congrArg (y :: ·) h.after)⟩

theorem edits_map_del (a : List JsString) : Edits a [] (a.map (⟨.del, ·⟩)) := by
  induction a with
  | nil => exact ⟨rfl, rfl⟩
  | cons x a ih => exact edits_del ih

theorem edits_map_add (b : List JsString) : Edits [] b (b.map (⟨.add, ·⟩)) := by
  induction b with
  | nil => exact ⟨rfl, rfl⟩
  | cons y b ih => exact edits_add ih

theorem edits_readRows (rows : List (List Nat)) (i j : Nat) (a b : List JsString) :
    Edits a b (readRows rows i j a b) := by
  induction i, j, a, b using readRows.induct rows with
  | case1 i j b =>
    rw [readRows]
    exact edits_map_add b
  | case2 i j x a =>
    rw [readRows]
    exact edits_map_del (x :: a)
  | case3 i j x a b ih =>
    rw [readRows, if_pos rfl]
    exact edits_same ih
  | case4 i j x a y b hne hge ih =>
    rw [readRows, if_neg hne, if_pos hge]
    exact edits_del ih
  | case5 i j x a y b hne hlt ih =>
    rw [readRows, if_neg hne, if_neg hlt]
    exact edits_add ih

theorem diffLines_edits (before after : JsString) :
    Edits (linesOf before) (linesOf after) (diffLines before after) :=
  edits_readRows _ 0 0 _ _

/-- What an edit keeps, both lists have. -/
theorem Edits.length_keptLines {a b : List JsString} {rows : List DiffRow} (h : Edits a b rows) :
    (keptLines rows).length ≤ lcsLength a b := by
  have hbefore : (textsOf [.same] rows).Sublist (textsOf [.same, .del] rows) :=
    textsOf_sublist (by decide) rows
  have hafter : (textsOf [.same] rows).Sublist (textsOf [.same, .add] rows) :=
    textsOf_sublist (by decide) rows
  rw [h.before] at hbefore
  rw [h.after] at hafter
  exact length_le_lcsLength hbefore hafter

theorem drop_succ_of_drop {α : Type} {l rest : List α} {x : α} {i : Nat}
    (h : l.drop i = x :: rest) : i + 1 ≤ l.length ∧ l.drop (i + 1) = rest := by
  have hlength := congrArg List.length h
  rw [List.length_drop, List.length_cons] at hlength
  refine ⟨by omega, ?_⟩
  rw [← List.tail_drop, h, List.tail_cons]

/-- Where the walk stands at what is left of both, it keeps as many lines as they have in
common. -/
theorem length_keptLines_readRows (before after : List JsString) (i j : Nat) (a b : List JsString)
    (hi : i ≤ before.length) (hj : j ≤ after.length) (ha : before.drop i = a)
    (hb : after.drop j = b) :
    (keptLines (readRows (table before after) i j a b)).length = lcsLength a b := by
  induction i, j, a, b using readRows.induct (table before after) with
  | case1 i j b =>
    have hnone := (edits_map_add b).length_keptLines
    rw [lcsLength_nil_left] at hnone
    rw [readRows, lcsLength_nil_left]
    exact Nat.le_zero.mp hnone
  | case2 i j x a =>
    have hnone := (edits_map_del (x :: a)).length_keptLines
    rw [lcsLength_nil_right] at hnone
    rw [readRows, lcsLength_nil_right]
    exact Nat.le_zero.mp hnone
  | case3 i j x a b ih =>
    obtain ⟨hi', ha'⟩ := drop_succ_of_drop ha
    obtain ⟨hj', hb'⟩ := drop_succ_of_drop hb
    rw [readRows, if_pos rfl, lcsLength_cons_self, ← ih hi' hj' ha' hb']
    exact congrArg List.length (textsOf_cons _ _ _)
  | case4 i j x a y b hne hge ih =>
    obtain ⟨hi', ha'⟩ := drop_succ_of_drop ha
    obtain ⟨hj', hb'⟩ := drop_succ_of_drop hb
    have hkept := ih hi' hj ha' hb
    rw [readRows, if_neg hne, if_pos hge]
    rw [entry_table hi' hj, entry_table hi hj', ha', hb', ha, hb] at hge
    rw [lcsLength_cons_of_ne hne, max_eq_left hge, ← hkept]
    exact congrArg List.length (textsOf_cons _ _ _)
  | case5 i j x a y b hne hlt ih =>
    obtain ⟨hi', ha'⟩ := drop_succ_of_drop ha
    obtain ⟨hj', hb'⟩ := drop_succ_of_drop hb
    have hkept := ih hi hj' ha hb'
    rw [readRows, if_neg hne, if_neg hlt]
    rw [entry_table hi' hj, entry_table hi hj', ha', hb', ha, hb, ge_iff_le, not_le] at hlt
    rw [lcsLength_cons_of_ne hne, max_eq_right hlt.le, ← hkept]
    exact congrArg List.length (textsOf_cons _ _ _)

theorem keptLines_le (before after : JsString) {rows : List DiffRow}
    (h : Edits (linesOf before) (linesOf after) rows) :
    (keptLines rows).length ≤ (keptLines (diffLines before after)).length := by
  have hwalk := length_keptLines_readRows (linesOf before) (linesOf after) 0 0 _ _
    (Nat.zero_le _) (Nat.zero_le _) rfl rfl
  exact h.length_keptLines.trans hwalk.ge

/-! ## Context -/

inductive DiffEntry where
  | row (row : DiffRow)
  | gap (count : Nat)

/-- `keep`, after the loop that sets it around each change. -/
def keepFlags (rows : List DiffRow) (context : Nat) : List Bool :=
  rows.zipIdx.foldl (fun keep entry =>
    if entry.1.kind = .same then keep
    else keep.mapIdx fun k old => old || (entry.2 - context ≤ k && k ≤ entry.2 + context))
    (List.replicate rows.length false)

/-- `if (gap > 0) out.push(...)`. -/
def pushGap (gap : Nat) (out : List DiffEntry) : List DiffEntry :=
  if gap > 0 then .gap gap :: out else out

/-- The loop that writes the list. -/
def collapseFrom (gap : Nat) : List (DiffRow × Bool) → List DiffEntry
  | [] => pushGap gap []
  | (row, keep) :: rest =>
    if keep then pushGap gap (.row row :: collapseFrom 0 rest) else collapseFrom (gap + 1) rest

def collapseContext (rows : List DiffRow) (context : Nat) : List DiffEntry :=
  collapseFrom 0 (rows.zip (keepFlags rows context))

/-- A change stands at most `context` rows away. -/
def isNear (rows : List DiffRow) (context k : Nat) : Bool :=
  rows.zipIdx.any fun entry =>
    entry.1.kind ≠ .same ∧ entry.2 ≤ k + context ∧ k ≤ entry.2 + context

/-- The rows, those away from every change blank. -/
def nearRows (rows : List DiffRow) (context : Nat) : List (Option DiffRow) :=
  rows.mapIdx fun k row => if isNear rows context k then some row else none

/-- The rows an entry stands for. -/
def DiffEntry.expand : DiffEntry → List (Option DiffRow)
  | .row kept => [some kept]
  | .gap count => List.replicate count none

def DiffEntry.isGap : DiffEntry → Bool
  | .row _ => false
  | .gap _ => true

structure Collapses (rows : List DiffRow) (context : Nat) (out : List DiffEntry) : Prop where
  expand : out.flatMap DiffEntry.expand = nearRows rows context
  /-- no gap is empty -/
  counted : ∀ count, .gap count ∈ out → 0 < count
  /-- no gap follows another -/
  maximal : out.IsChain fun entry next => (entry.isGap && next.isGap) = false

theorem keepFlags_eq (rows : List DiffRow) (context : Nat) :
    keepFlags rows context = rows.mapIdx fun k _ => isNear rows context k := by
  have hloop : ∀ (entries : List (DiffRow × Nat)) (keep : List Bool),
      entries.foldl (fun keep entry => if entry.1.kind = .same then keep
        else keep.mapIdx fun k old => old || (entry.2 - context ≤ k && k ≤ entry.2 + context))
        keep = keep.mapIdx fun k old => old || entries.any fun entry =>
          entry.1.kind ≠ .same ∧ entry.2 ≤ k + context ∧ k ≤ entry.2 + context := by
    intro entries
    induction entries with
    | nil =>
      intro keep
      refine List.ext_getElem? fun k => ?_
      simp
    | cons entry entries ih =>
      intro keep
      rw [List.foldl_cons, ih]
      by_cases hsame : entry.1.kind = .same
      · simp only [hsame, if_true, List.any_cons, ne_eq, not_true_eq_false, false_and,
          decide_false, Bool.false_or]
      · rw [if_neg hsame, List.mapIdx_mapIdx]
        congr 1
        funext k old
        simp [hsame, Bool.or_assoc]
  rw [keepFlags, hloop]
  refine List.ext_getElem? fun k => ?_
  simp only [List.getElem?_mapIdx, List.getElem?_replicate, isNear]
  by_cases hk : k < rows.length
  · simp [hk]
  · simp [hk]

theorem collapseFrom_expand (gap : Nat) (rows : List (DiffRow × Bool)) :
    (collapseFrom gap rows).flatMap DiffEntry.expand =
      List.replicate gap none ++ rows.map fun entry => if entry.2 then some entry.1 else none := by
  have hgap : ∀ (gap : Nat) (out : List DiffEntry),
      (pushGap gap out).flatMap DiffEntry.expand =
        List.replicate gap none ++ out.flatMap DiffEntry.expand := by
    intro gap out
    cases gap with
    | zero => rw [pushGap, if_neg (Nat.lt_irrefl 0), List.replicate_zero, List.nil_append]
    | succ gap => rw [pushGap, if_pos (Nat.succ_pos gap), List.flatMap_cons, DiffEntry.expand]
  induction rows generalizing gap with
  | nil => rw [collapseFrom, hgap, List.flatMap_nil, List.map_nil]
  | cons entry rows ih =>
    rcases entry with ⟨row, keep⟩
    cases keep with
    | true =>
      rw [collapseFrom, if_pos rfl, hgap, List.flatMap_cons, ih, DiffEntry.expand,
        List.replicate_zero, List.nil_append, List.map_cons, if_pos rfl, List.singleton_append]
    | false =>
      rw [collapseFrom, if_neg Bool.false_ne_true, ih, List.replicate_succ', List.append_assoc]
      rfl

theorem collapseFrom_counted (gap : Nat) (rows : List (DiffRow × Bool)) {count : Nat}
    (h : .gap count ∈ collapseFrom gap rows) : 0 < count := by
  have hgap : ∀ (gap : Nat) (out : List DiffEntry), .gap count ∈ pushGap gap out →
      0 < count ∨ .gap count ∈ out := by
    intro gap out hmem
    cases gap with
    | zero => exact Or.inr hmem
    | succ gap =>
      cases hmem with
      | head => exact Or.inl (Nat.succ_pos gap)
      | tail _ hmem => exact Or.inr hmem
  induction rows generalizing gap with
  | nil => exact (hgap gap [] h).resolve_right List.not_mem_nil
  | cons entry rows ih =>
    rcases entry with ⟨row, keep⟩
    cases keep with
    | true =>
      rcases hgap gap _ h with hpos | hmem
      · exact hpos
      · cases hmem with
        | tail _ hmem => exact ih 0 hmem
    | false => exact ih (gap + 1) h

theorem collapseFrom_maximal (gap : Nat) (rows : List (DiffRow × Bool)) :
    (collapseFrom gap rows).IsChain fun entry next => (entry.isGap && next.isGap) = false := by
  induction rows generalizing gap with
  | nil =>
    cases gap with
    | zero => exact .nil
    | succ gap => exact .singleton _
  | cons entry rows ih =>
    rcases entry with ⟨row, keep⟩
    cases keep with
    | true =>
      have hrow : (.row row :: collapseFrom 0 rows).IsChain
          fun entry next => (entry.isGap && next.isGap) = false :=
        (ih 0).cons fun _ _ => rfl
      cases gap with
      | zero => exact hrow
      | succ gap => exact .cons_cons rfl hrow
    | false => exact ih (gap + 1)

theorem collapse_expand (rows : List DiffRow) (context : Nat) :
    Collapses rows context (collapseContext rows context) := by
  refine ⟨?_, fun count => collapseFrom_counted 0 _, collapseFrom_maximal 0 _⟩
  rw [collapseContext, collapseFrom_expand, keepFlags_eq, nearRows, List.replicate_zero,
    List.nil_append]
  refine List.ext_getElem? fun k => ?_
  cases hrow : rows[k]? with
  | none =>
    have hlength := List.getElem?_eq_none_iff.mp hrow
    rw [List.getElem?_eq_none (by simpa using hlength),
      List.getElem?_eq_none (by simpa using hlength)]
  | some row =>
    have hzip : (rows.zip (rows.mapIdx fun k _ => isNear rows context k))[k]? =
        some (row, isNear rows context k) :=
      List.getElem?_zip_eq_some.mpr ⟨hrow, by rw [List.getElem?_mapIdx, hrow]; rfl⟩
    rw [List.getElem?_map, hzip, List.getElem?_mapIdx, hrow]
    rfl

/-- The preview of a change: no other edit keeps more, and nothing near a change is hidden. -/
theorem preview_correct :
    (∀ before after, Edits (linesOf before) (linesOf after) (diffLines before after) ∧
      ∀ rows, Edits (linesOf before) (linesOf after) rows →
        (keptLines rows).length ≤ (keptLines (diffLines before after)).length) ∧
    ∀ rows context, Collapses rows context (collapseContext rows context) :=
  ⟨fun before after => ⟨diffLines_edits before after, fun _ => keptLines_le before after⟩,
    collapse_expand⟩

theorem preview_correct_lines :
    (keptLines [⟨.add, ascii "b"⟩, ⟨.same, ascii "a"⟩, ⟨.del, ascii "b"⟩]).length ≤
      (keptLines (diffLines (ascii "a\nb") (ascii "b\na"))).length :=
  (preview_correct.1 (ascii "a\nb") (ascii "b\na")).2 _ ⟨by decide, by decide⟩

end InvisibleString.Copilot
