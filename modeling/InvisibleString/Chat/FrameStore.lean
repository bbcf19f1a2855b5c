import Mathlib.Data.List.Sort
import Mathlib.Data.List.Induction

/- # `Chat.FrameStore` — the frames of a run, once each and in order

The live stream, its resumptions and the history bring frames in any order and repeatedly.  The
store keeps one frame for each `seq`, sorted; a frame whose `seq` is there already is dropped.

**Proved here.**

    the frames of a store after a batch depend on the batch as a set, exactly when no two
      different new frames of it share a `seq`  (`addFrames_eq_iff`)
-/

namespace InvisibleString.Chat

/-- One row of `run_events`; `time` is the frame's `at`. -/
structure RunEventFrame (E : Type) where
  seq : Int
  event : E
  time : String

/-- Sorted by `seq`, one frame for each; `maxSeq` is the highest `seq` seen. -/
structure FrameStore (E : Type) where
  frames : List (RunEventFrame E)
  maxSeq : Int
  sorted : frames.Pairwise fun a b => a.seq < b.seq
  bounded : ∀ frame ∈ frames, frame.seq ≤ maxSeq

variable {E : Type}

def FrameStore.empty : FrameStore E := ⟨[], -1, .nil, fun _ h => absurd h List.not_mem_nil⟩

/-- No frame of the store has this one's `seq`. -/
def FrameStore.New (store : FrameStore E) (frame : RunEventFrame E) : Prop :=
  ∀ existing ∈ store.frames, existing.seq ≠ frame.seq

theorem FrameStore.new_iff {store : FrameStore E} {frame : RunEventFrame E} :
    store.New frame ↔ ¬ store.frames.any (fun existing => existing.seq == frame.seq) = true := by
  rw [FrameStore.New, List.any_eq_true, not_exists]
  refine forall_congr' fun existing => ?_
  rw [not_and, beq_iff_eq]

/-- `frames.sort((a, b) => a.seq - b.seq)`. -/
def sortFrames (frames : List (RunEventFrame E)) : List (RunEventFrame E) :=
  frames.insertionSort fun a b => a.seq ≤ b.seq

theorem mem_sortFrames {frames : List (RunEventFrame E)} {frame : RunEventFrame E} :
    frame ∈ sortFrames frames ↔ frame ∈ frames := (List.perm_insertionSort _ frames).mem_iff

/-- With one frame for each `seq` the sorted frames are strictly sorted. -/
theorem pairwise_sortFrames {store : FrameStore E} {frame : RunEventFrame E}
    (hnew : store.New frame) :
    (sortFrames (store.frames ++ [frame])).Pairwise fun a b => a.seq < b.seq := by
  have htotal : Std.Total fun a b : RunEventFrame E => a.seq ≤ b.seq :=
    ⟨fun a b => Int.le_total a.seq b.seq⟩
  have htrans : IsTrans (RunEventFrame E) fun a b => a.seq ≤ b.seq := ⟨fun _ _ _ => Int.le_trans⟩
  have hle : (sortFrames (store.frames ++ [frame])).Pairwise fun a b => a.seq ≤ b.seq :=
    List.pairwise_insertionSort _ _
  have hne : (sortFrames (store.frames ++ [frame])).Pairwise fun a b => a.seq ≠ b.seq := by
    have hperm := List.perm_insertionSort (fun a b : RunEventFrame E => a.seq ≤ b.seq)
      (store.frames ++ [frame])
    refine (hperm.symm.pairwise_iff fun {_ _} h => Ne.symm h).mp ?_
    rw [List.pairwise_append]
    refine ⟨store.sorted.imp fun h => Int.ne_of_lt h, List.pairwise_singleton _ _, ?_⟩
    intro existing hexisting new hmem
    rw [List.mem_singleton.mp hmem]
    exact hnew existing hexisting
  exact (hle.and hne).imp fun h => lt_of_le_of_ne h.1 h.2

def addFrame (store : FrameStore E) (frame : RunEventFrame E) : FrameStore E :=
  if hfast : store.maxSeq < frame.seq then
    -- the common case of streaming: an append
    { frames := store.frames ++ [frame]
      maxSeq := frame.seq
      sorted := by
        rw [List.pairwise_append]
        refine ⟨store.sorted, List.pairwise_singleton _ _, fun existing hexisting new hmem => ?_⟩
        rw [List.mem_singleton.mp hmem]
        exact lt_of_le_of_lt (store.bounded existing hexisting) hfast
      bounded := by
        intro existing hexisting
        rcases List.mem_append.mp hexisting with hexisting | hexisting
        · exact ((store.bounded existing hexisting).trans_lt hfast).le
        · rw [List.mem_singleton.mp hexisting] }
  else if hold : store.frames.any (fun existing => existing.seq == frame.seq) then store
  else
    { frames := sortFrames (store.frames ++ [frame])
      maxSeq := store.maxSeq
      sorted := pairwise_sortFrames (FrameStore.new_iff.mpr hold)
      bounded := by
        intro existing hexisting
        rcases List.mem_append.mp (mem_sortFrames.mp hexisting) with hexisting | hexisting
        · exact store.bounded existing hexisting
        · rw [List.mem_singleton.mp hexisting]
          exact Int.not_lt.mp hfast }

def addFrames (store : FrameStore E) (frames : List (RunEventFrame E)) : FrameStore E :=
  frames.foldl addFrame store

variable {store : FrameStore E} {frame : RunEventFrame E} {frames : List (RunEventFrame E)}

theorem mem_addFrame {f : RunEventFrame E} :
    f ∈ (addFrame store frame).frames ↔ f ∈ store.frames ∨ f = frame ∧ store.New frame := by
  unfold addFrame
  split
  · rename_i hfast
    have hnew : store.New frame := fun existing hexisting heq =>
      absurd (store.bounded existing hexisting) (by omega)
    rw [List.mem_append, List.mem_singleton, and_iff_left hnew]
  · split
    · rename_i hold
      rw [FrameStore.new_iff]
      exact ⟨.inl, fun h => h.resolve_right fun h' => h'.2 hold⟩
    · rename_i hold
      rw [mem_sortFrames, List.mem_append, List.mem_singleton,
        and_iff_left (FrameStore.new_iff.mpr hold)]

/-- Two different new frames of the batch have different `seq`s. -/
def OnePerSeq (store : FrameStore E) (frames : List (RunEventFrame E)) : Prop :=
  ∀ f ∈ frames, ∀ g ∈ frames, f.seq = g.seq → store.New f → f = g

/-- The frames behind such a batch. -/
theorem mem_addFrames (h : OnePerSeq store frames) {f : RunEventFrame E} :
    f ∈ (addFrames store frames).frames ↔ f ∈ store.frames ∨ f ∈ frames ∧ store.New f := by
  induction frames using List.reverseRecOn generalizing f with
  | nil => exact ⟨.inl, fun h => h.resolve_right fun h' => absurd h'.1 List.not_mem_nil⟩
  | append_singleton frames x ih =>
    have hfront : OnePerSeq store frames := fun f hf g hg =>
      h f (List.mem_append_left _ hf) g (List.mem_append_left _ hg)
    rw [addFrames, List.foldl_append, List.foldl_cons, List.foldl_nil]
    change f ∈ (addFrame (addFrames store frames) x).frames ↔ _
    rw [mem_addFrame, ih hfront, List.mem_append, List.mem_singleton]
    constructor
    · rintro ((hf | ⟨hf, hnew⟩) | ⟨rfl, hnew⟩)
      · exact .inl hf
      · exact .inr ⟨.inl hf, hnew⟩
      · exact .inr ⟨.inr rfl, fun existing hexisting =>
          hnew existing ((ih hfront).mpr (.inl hexisting))⟩
    · rintro (hf | ⟨hf | rfl, hnew⟩)
      · exact .inl (.inl hf)
      · exact .inl (.inr ⟨hf, hnew⟩)
      · by_cases hthere : f ∈ frames
        · exact .inl (.inr ⟨hthere, hnew⟩)
        · refine .inr ⟨rfl, fun existing hexisting heq => ?_⟩
          rcases (ih hfront).mp hexisting with hexisting | ⟨hexisting, -⟩
          · exact hnew existing hexisting heq
          · have hsame := h f (List.mem_append_right _ List.mem_cons_self) existing
              (List.mem_append_left _ hexisting) heq.symm hnew
            exact hthere (hsame ▸ hexisting)

theorem FrameStore.frames_eq {store store' : FrameStore E}
    (h : ∀ f, f ∈ store.frames ↔ f ∈ store'.frames) : store.frames = store'.frames := by
  have hnodup : ∀ s : FrameStore E, s.frames.Nodup := fun s =>
    s.sorted.imp fun {a b} hab heq => absurd (congrArg RunEventFrame.seq heq) (Int.ne_of_lt hab)
  refine List.Perm.eq_of_pairwise (fun a b _ _ hab hba => ?_) store.sorted store'.sorted
    ((List.perm_ext_iff_of_nodup (hnodup _) (hnodup _)).mpr h)
  exact absurd hab (Int.lt_asymm hba)

theorem FrameStore.eq_of_seq_eq {f g : RunEventFrame E} (hf : f ∈ store.frames)
    (hg : g ∈ store.frames) (hseq : f.seq = g.seq) : f = g := by
  have hdistinct : (store.frames.map RunEventFrame.seq).Nodup :=
    List.pairwise_map.mpr (store.sorted.imp fun hab => Int.ne_of_lt hab)
  exact List.inj_on_of_nodup_map hdistinct hf hg hseq

/-- The first of two frames that share a new `seq` is the one that stays. -/
theorem mem_addFrames_of_first {f : RunEventFrame E} (hnew : store.New f) :
    f ∈ (addFrames store (f :: frames)).frames := by
  have hkeep : ∀ (fs : List (RunEventFrame E)) (s : FrameStore E), f ∈ s.frames →
      f ∈ (addFrames s fs).frames := by
    intro fs
    induction fs with
    | nil => exact fun s hs => hs
    | cons x fs ih => exact fun s hs => ih (addFrame s x) (mem_addFrame.mpr (.inl hs))
  exact hkeep frames _ (mem_addFrame.mpr (.inr ⟨rfl, hnew⟩))

theorem addFrames_eq_iff :
    (∀ frames', (∀ f, f ∈ frames' ↔ f ∈ frames) →
      (addFrames store frames').frames = (addFrames store frames).frames) ↔
    OnePerSeq store frames := by
  constructor
  · intro h f hf g hg hseq hnew
    have hnew' : store.New g := fun existing hexisting => hseq ▸ hnew existing hexisting
    have hsame : ∀ a b, a ∈ frames → b ∈ frames → ∀ x, x ∈ a :: b :: frames ↔ x ∈ frames := by
      intro a b ha hb x
      rw [List.mem_cons, List.mem_cons]
      constructor
      · rintro (rfl | rfl | hx)
        · exact ha
        · exact hb
        · exact hx
      · exact fun hx => .inr (.inr hx)
    have hfg := (h _ (hsame f g hf hg)).trans (h _ (hsame g f hg hf)).symm
    have hmemf : f ∈ (addFrames store (f :: g :: frames)).frames := mem_addFrames_of_first hnew
    have hmemg : g ∈ (addFrames store (f :: g :: frames)).frames := by
      rw [hfg]
      exact mem_addFrames_of_first hnew'
    exact FrameStore.eq_of_seq_eq hmemf hmemg hseq
  · intro h frames' hsame
    have h' : OnePerSeq store frames' := fun f hf g hg =>
      h f ((hsame f).mp hf) g ((hsame g).mp hg)
    refine FrameStore.frames_eq fun f => ?_
    rw [mem_addFrames h, mem_addFrames h', hsame f]

end InvisibleString.Chat
