import InvisibleString.Tailer.Cursor
import Mathlib.Data.List.Infix
import Mathlib.Data.List.Range
import Mathlib.Logic.Relation

/- # `Tailer.ExactlyOnce` — the persisted log against eve's stream -/

namespace InvisibleString.Tailer

open EventLoop

/-- Every well-formed event carries an `id`, and no two the same. -/
def UniqueIds (lines : List Line) : Prop :=
  (∀ e ∈ parsed lines, e.id.isSome) ∧ ((parsed lines).map EveStreamEvent.id).Nodup

instance (lines : List Line) : Decidable (UniqueIds lines) := inferInstanceAs (Decidable (_ ∧ _))

/-- The lines from index `a` up to index `b`. -/
def segment (lines : List Line) (a b : Nat) : List Line := (lines.take b).drop a

theorem segment_append_singleton {lines : List Line} {a b : Nat} {l : Line} (hab : a ≤ b)
    (hl : lines[b]? = some l) : segment lines a (b + 1) = segment lines a b ++ [l] := by
  unfold segment
  rw [List.take_add_one, hl, Option.toList_some, List.drop_append_of_le_length]
  rw [List.length_take]
  have := (List.getElem?_eq_some_iff.mp hl).1
  omega

theorem segment_grown {lines lines' : List Line} {a b : Nat} (h : lines <+: lines')
    (hb : b ≤ lines.length) : segment lines' a b = segment lines a b := by
  obtain ⟨t, rfl⟩ := h
  unfold segment
  rw [List.take_append_of_le_length hb]

theorem getElem?_grown {lines lines' : List Line} {i : Nat} (h : lines <+: lines')
    (hi : i < lines.length) : lines'[i]? = lines[i]? := by
  obtain ⟨t, rfl⟩ := h
  exact List.getElem?_append_left hi

theorem mem_parsed_segment {lines : List Line} {a b : Nat} {e : EveStreamEvent} :
    e ∈ parsed (segment lines a b) ↔ ∃ i, a ≤ i ∧ i < b ∧ lines[i]? = some (some e) := by
  rw [mem_parsed, segment, List.mem_iff_getElem?]
  constructor
  · rintro ⟨j, hj⟩
    rw [List.getElem?_drop, List.getElem?_take] at hj
    split at hj
    · exact ⟨a + j, by omega, by omega, hj⟩
    · cases hj
  · rintro ⟨i, hai, hib, hi⟩
    refine ⟨i - a, ?_⟩
    rw [List.getElem?_drop, List.getElem?_take, Nat.add_sub_cancel' hai, if_pos hib, hi]

/-- With unique ids two lines that carry an event with the same id are one line. -/
theorem UniqueIds.index_eq {lines : List Line} (h : UniqueIds lines) {i j : Nat}
    {e e' : EveStreamEvent} (hi : lines[i]? = some (some e)) (hj : lines[j]? = some (some e'))
    (hid : e.id = e'.id) : i = j := by
  by_contra hne
  wlog hlt : i < j generalizing i j e e'
  · exact this hj hi hid.symm (Ne.symm hne) (by omega)
  obtain ⟨hj', hjv⟩ := List.getElem?_eq_some_iff.mp hj
  have hsplit : parsed lines = parsed (lines.take j) ++ parsed (lines.drop j) := by
    rw [← parsed_append, List.take_append_drop]
  have hmem : e ∈ parsed (lines.take j) := by
    rw [mem_parsed, List.mem_iff_getElem?]
    exact ⟨i, by rw [List.getElem?_take, if_pos hlt, hi]⟩
  have hmem' : e' ∈ parsed (lines.drop j) := by
    rw [mem_parsed, List.mem_iff_getElem?]
    exact ⟨0, by rw [List.getElem?_drop, Nat.add_zero, hj]⟩
  have hnd := h.2
  rw [hsplit, List.map_append, List.nodup_append] at hnd
  exact hnd.2.2 _ (List.mem_map_of_mem hmem) _ (List.mem_map_of_mem hmem') hid

/-! ## The log -/

/-- What the store holds: the rows `base` that were there, then the parsed lines of the
stream up to `F`, each stored once, in stream order, under one of the runs tailed. -/
structure Log (runs : RunId → Prop) (base : List StoredRunEvent) (w : World) (F : Nat) :
    Prop where
  le : base.length ≤ F
  len : F ≤ w.lines.length
  rows : ∃ new, w.db.events = base ++ new ∧
    new.map StoredRunEvent.event = parsed (segment w.lines base.length F) ∧
    ∀ row ∈ new, runs row.runId
  fresh : ∀ row ∈ base, ¬ runs row.runId
  seqs : ∀ r, runs r → (w.db.events.filter (·.runId == r)).map StoredRunEvent.seq =
    List.range (w.db.countRunEvents r)

variable {runs : RunId → Prop} {base : List StoredRunEvent}

theorem mem_runEvents {db : Db} {r : RunId} {e : EveStreamEvent} :
    e ∈ db.runEvents r ↔ ∃ row ∈ db.events, row.runId = r ∧ row.event = e := by
  simp [Db.runEvents, and_assoc]

/-- An event stored under a tailed run is a line of the stream before `F`. -/
theorem Log.line_of_mem {w : World} {F : Nat} (h : Log runs base w F) {r : RunId} (hr : runs r)
    {e : EveStreamEvent} (he : e ∈ w.db.runEvents r) :
    ∃ i < F, w.lines[i]? = some (some e) := by
  obtain ⟨row, hrow, hid, rfl⟩ := mem_runEvents.mp he
  obtain ⟨new, hev, hnew, -⟩ := h.rows
  rw [hev, List.mem_append] at hrow
  rcases hrow with hrow | hrow
  · exact absurd (hid ▸ hr) (h.fresh row hrow)
  · have hmem : row.event ∈ parsed (segment w.lines base.length F) :=
      hnew ▸ List.mem_map_of_mem hrow
    obtain ⟨i, -, hi, hl⟩ := mem_parsed_segment.mp hmem
    exact ⟨i, hi, hl⟩

theorem Log.mono {w w' : World} {F : Nat} (h : Log runs base w F)
    (hev : w'.db.events = w.db.events) (hl : w.lines <+: w'.lines) : Log runs base w' F where
  le := h.le
  len := h.len.trans hl.length_le
  rows := by
    obtain ⟨new, hnew, hmap, hruns⟩ := h.rows
    exact ⟨new, hev.trans hnew, by rw [hmap, segment_grown hl h.len], hruns⟩
  fresh := h.fresh
  seqs := by
    intro r hr
    have hc : w'.db.countRunEvents r = w.db.countRunEvents r := by
      simp only [Db.countRunEvents, Db.runEvents, hev]
    rw [hev, hc, h.seqs r hr]

theorem Log.skip {w : World} {F : Nat} (h : Log runs base w F)
    (hl : w.lines[F]? = some none) : Log runs base w (F + 1) where
  le := h.le.trans (Nat.le_succ F)
  len := (List.getElem?_eq_some_iff.mp hl).1
  rows := by
    obtain ⟨new, hnew, hmap, hruns⟩ := h.rows
    refine ⟨new, hnew, ?_, hruns⟩
    rw [hmap, segment_append_singleton h.le hl, parsed_append, parsed_singleton_none,
      List.append_nil]
  fresh := h.fresh
  seqs := h.seqs

theorem Log.append {w w' : World} {F : Nat} {r : RunId} {e : EveStreamEvent} {db : Db}
    (h : Log runs base w F) (hr : runs r) (hl : w.lines[F]? = some (some e))
    (happ : w.db.appendEvent r (w.db.countRunEvents r) e = some db)
    (hev : w'.db.events = db.events) (hp : w.lines <+: w'.lines) :
    Log runs base w' (F + 1) := by
  have hdb : db.events = w.db.events ++ [⟨r, w.db.countRunEvents r, e⟩] := by
    unfold Db.appendEvent at happ
    split at happ
    · cases happ
    · cases happ; rfl
  have hF : F + 1 ≤ w.lines.length := (List.getElem?_eq_some_iff.mp hl).1
  refine ⟨h.le.trans (Nat.le_succ F), hF.trans hp.length_le, ?_, h.fresh, ?_⟩
  · obtain ⟨new, hnew, hmap, hruns⟩ := h.rows
    refine ⟨new ++ [⟨r, w.db.countRunEvents r, e⟩], ?_, ?_, ?_⟩
    · rw [hev, hdb, hnew, List.append_assoc]
    · rw [segment_grown hp hF, segment_append_singleton h.le hl, parsed_append, List.map_append,
        hmap]
      rfl
    · intro row hrow
      rcases List.mem_append.mp hrow with hrow | hrow
      · exact hruns row hrow
      · rw [List.mem_singleton] at hrow
        exact hrow ▸ hr
  · intro r' hr'
    rw [hev, hdb]
    by_cases hrr : r = r'
    · subst hrr
      have hc : w'.db.countRunEvents r = w.db.countRunEvents r + 1 := by
        simp [Db.countRunEvents, Db.runEvents, hev, hdb]
      rw [hc, List.range_succ, List.filter_append, List.map_append, h.seqs r hr']
      simp
    · have hc : w'.db.countRunEvents r' = w.db.countRunEvents r' := by
        simp [Db.countRunEvents, Db.runEvents, hev, hdb, hrr]
      rw [hc, List.filter_append, List.map_append, h.seqs r' hr']
      simp [hrr]

/-! ## The cursor of a live tail -/

/-- The reader's variables against the log: what its cursor has not passed yet and is
stored already is stored under its own run, and its seen filter knows it. -/
structure Cursor (runs : RunId → Prop) (base : List StoredRunEvent) (S : List Line)
    (m : TailMem) (w : World) (F : Nat) : Prop where
  log : Log runs base w F
  stream : w.lines <+: S
  tailed : runs m.runId
  seq : m.seq = w.db.countRunEvents m.runId
  seen : ∀ id, id ∈ m.seenEventIds ↔ id ∈ w.db.listEventIds m.runId
  start : m.startIndex ≤ F
  own : ∀ i e, m.startIndex ≤ i → i < F → w.lines[i]? = some (some e) →
    e ∈ w.db.runEvents m.runId

variable {S : List Line}

/-- What a crash leaves behind. -/
def Durable (runs : RunId → Prop) (base : List StoredRunEvent) (S : List Line) (w : World) :
    Prop :=
  w.lines <+: S ∧ ∃ F, Log runs base w F

theorem Cursor.durable {m : TailMem} {w : World} {F : Nat} (h : Cursor runs base S m w F) :
    Durable runs base S w := ⟨h.stream, F, h.log⟩

theorem Cursor.mono {m m' : TailMem} {w w' : World} {F : Nat} (h : Cursor runs base S m w F)
    (hm : m'.cursor = m.cursor) (hev : w'.db.events = w.db.events) (hl : w.lines <+: w'.lines)
    (hS : w'.lines <+: S) : Cursor runs base S m' w' F := by
  simp only [TailMem.cursor, CursorVars.mk.injEq] at hm
  obtain ⟨hr, hq, hi, hs, -, -⟩ := hm
  have hre : w'.db.runEvents m'.runId = w.db.runEvents m.runId := by
    rw [Db.runEvents, hev, hr]
    rfl
  refine ⟨h.log.mono hev hl, hS, hr ▸ h.tailed, ?_, ?_, hi ▸ h.start, ?_⟩
  · rw [hq, h.seq, Db.countRunEvents, Db.countRunEvents, hre]
  · intro id
    rw [hs, h.seen id, Db.listEventIds, Db.listEventIds, hre]
  · intro i e hi' hF he
    rw [hre]
    rw [getElem?_grown hl (hF.trans_le h.log.len)] at he
    exact h.own i e (hi ▸ hi') hF he

/-- Lines that do not parse move the frontier along. -/
theorem Cursor.skip {m : TailMem} {w : World} {F q : Nat} (h : Cursor runs base S m w F)
    (hl : ∀ i, F ≤ i → i < q → w.lines[i]? = some none) :
    ∃ F', q ≤ F' ∧ F ≤ F' ∧ Cursor runs base S m w F' := by
  induction q with
  | zero => exact ⟨F, Nat.zero_le _, Nat.le_refl _, h⟩
  | succ q ih =>
    obtain ⟨F', hq, hF, h'⟩ := ih fun i hi hlt => hl i hi (by omega)
    by_cases hlt : q + 1 ≤ F'
    · exact ⟨F', hlt, hF, h'⟩
    · have hFq : F' = q := by omega
      have hline : w.lines[F']? = some none := hl F' hF (by omega)
      refine ⟨F' + 1, by omega, by omega,
        h'.log.skip hline, h'.stream, h'.tailed, h'.seq, h'.seen,
        h'.start.trans (Nat.le_succ _), ?_⟩
      intro i e hi hlt' he
      rcases Nat.lt_succ_iff_lt_or_eq.mp hlt' with hi' | rfl
      · exact h'.own i e hi hi' he
      · rw [hline] at he
        cases he

/-- The duplicate test decides whether the event at the reader's line is stored. -/
theorem Cursor.isDuplicate_iff (hS : UniqueIds S) {m : TailMem} {w : World} {F p : Nat}
    {e : EveStreamEvent} (h : Cursor runs base S m w F) (hsp : m.startIndex ≤ p)
    (hl : w.lines[p]? = some (some e)) : m.isDuplicate e = true ↔ p < F := by
  have hplen : p < w.lines.length := (List.getElem?_eq_some_iff.mp hl).1
  have hlS : S[p]? = some (some e) := (getElem?_grown h.stream hplen).trans hl
  have hsome : e.id.isSome := hS.1 e (mem_parsed.mpr (List.mem_of_getElem? hlS))
  obtain ⟨id, hid⟩ := Option.isSome_iff_exists.mp hsome
  simp only [TailMem.isDuplicate, hid, List.contains_eq_mem, decide_eq_true_eq]
  rw [h.seen id, Db.listEventIds, List.mem_filterMap]
  constructor
  · rintro ⟨e', he', hid'⟩
    obtain ⟨i, hi, hl'⟩ := h.log.line_of_mem h.tailed he'
    have hlS' : S[i]? = some (some e') :=
      (getElem?_grown h.stream (hi.trans_le h.log.len)).trans hl'
    have : i = p := hS.index_eq hlS' hlS (hid'.trans hid.symm)
    omega
  · intro hlt
    exact ⟨e, h.own p e hsp hlt hl, hid⟩

/-- The store's append under the reader's run moves the frontier over its line. -/
theorem Cursor.append {m m' : TailMem} {w w' : World} {F : Nat} {e : EveStreamEvent} {db : Db}
    (h : Cursor runs base S m w F) (hl : w.lines[F]? = some (some e))
    (happ : w.db.appendEvent m.runId m.seq e = some db) (hev : w'.db.events = db.events)
    (hp : w.lines <+: w'.lines) (hS : w'.lines <+: S) (hr : m'.runId = m.runId)
    (hq : m'.seq = m.seq + 1) (hs : m'.seenEventIds = m.seenEventIds ++ e.id.toList)
    (hi : m'.startIndex ≤ F + 1) (hi' : m.startIndex ≤ m'.startIndex) :
    Cursor runs base S m' w' (F + 1) := by
  have hre : w'.db.runEvents m.runId = w.db.runEvents m.runId ++ [e] := by
    unfold Db.appendEvent at happ
    split at happ
    · cases happ
    · cases happ
      simp [Db.runEvents, hev]
  refine ⟨h.log.append h.tailed hl (h.seq ▸ happ) hev hp, hS, hr ▸ h.tailed, ?_, ?_, hi, ?_⟩
  · rw [hq, h.seq, hr, Db.countRunEvents, Db.countRunEvents, hre, List.length_append]
    rfl
  · intro id
    rw [hs, List.mem_append, h.seen id, hr, Db.listEventIds, Db.listEventIds, hre,
      List.filterMap_append, List.mem_append]
    simp [eq_comm]
  · intro i e' hi'' hlt he'
    rw [hr, hre, List.mem_append]
    rcases Nat.lt_succ_iff_lt_or_eq.mp hlt with hlt' | rfl
    · left
      rw [getElem?_grown hp (hlt'.trans_le h.log.len)] at he'
      exact h.own i e' (hi'.trans hi'') hlt' he'
    · right
      rw [getElem?_grown hp (List.getElem?_eq_some_iff.mp hl).1, hl] at he'
      cases he'
      exact List.mem_singleton_self _

/-! ## The reader's programs -/

theorem Quiet.sat {α : Type} {p : Tail α} (hp : Quiet p) {m : TailMem} {w : World} {F : Nat}
    (h : Cursor runs base S m w F) :
    p.Sat (readerAnswers S) (fun _ w' => Durable runs base S w') m w
      (fun _ m' w' => m'.cursor = m.cursor ∧ w.lines <+: w'.lines ∧
        Cursor runs base S m' w' F) := by
  have hstep : ∀ op m w r m' w', readerAnswers S op m w r m' w' →
      cursorAnswers op m w r m' w' ∧ w'.lines <+: S := fun _ _ _ _ _ _ ha => ha
  have hsat := (hp m.cursor w.db.events w.lines m w ⟨rfl, rfl, List.prefix_rfl⟩).restrict
    (G := fun w => w.lines <+: S) h.stream hstep
  refine (Proc.Sat.mono hsat ?_).weaken ?_
  · rintro r m' w' ⟨⟨hm, hev, hl⟩, hS⟩
    exact ⟨hm, hl, h.mono hm hev hl hS⟩
  · rintro m' w' ⟨⟨-, hev, hl⟩, hS⟩
    exact ⟨hS, F, h.log.mono hev hl⟩

theorem TailMem.isDuplicate_append {m m' : TailMem} {e e' : EveStreamEvent}
    (hs : m'.seenEventIds = m.seenEventIds ++ e.id.toList) (hne : e'.id ≠ e.id) :
    m'.isDuplicate e' = m.isDuplicate e' := by
  unfold TailMem.isDuplicate
  cases hid : e'.id with
  | none => rfl
  | some id =>
    simp only
    rw [hs, List.contains_eq_mem, List.contains_eq_mem, decide_eq_decide, List.mem_append]
    constructor
    · rintro (h | h)
      · exact h
      · rw [Option.mem_toList] at h
        exact absurd (hid.trans h.symm) hne
    · exact Or.inl

/-- `persist` at the reader's line `p` moves the line behind the frontier. -/
theorem persist_sat (hS : UniqueIds S) {m : TailMem} {w : World} {F p : Nat}
    {e : EveStreamEvent} {dup : Bool} (h : Cursor runs base S m w F) (hsp : m.startIndex ≤ p)
    (hpF : p ≤ F) (hl : w.lines[p]? = some (some e)) (hd : dup = m.isDuplicate e) :
    (persist e dup).Sat (readerAnswers S) (fun _ w' => Durable runs base S w') m w
      (fun r m' w' => m'.phase = m.phase ∧ m'.held = m.held ∧ w.lines <+: w'.lines ∧
        (∀ e', e'.id ≠ e.id → m'.isDuplicate e' = m.isDuplicate e') ∧
        match r with
        | .ok _ => m'.startIndex ≤ p + 1 ∧ ∃ F', p + 1 ≤ F' ∧ Cursor runs base S m' w' F'
        | .error _ => ∃ F', Cursor runs base S m' w' F') := by
  have hdup := h.isDuplicate_iff hS hsp hl
  unfold persist
  rw [Proc.sat_bind, sat_getMem]
  simp only
  rw [Proc.sat_bind]
  split
  · -- the event is stored: only the cursor moves
    rename_i hdt
    have hlt : p < F := hdup.mp (hd ▸ hdt)
    refine ⟨rfl, rfl, List.prefix_rfl, fun _ _ => rfl, by simpa using hsp, F, hlt, ?_⟩
    refine ⟨h.log, h.stream, h.tailed, h.seq, h.seen, by show m.startIndex + 1 ≤ F; omega, ?_⟩
    intro i e' hi
    exact h.own i e' (by have : m.startIndex + 1 ≤ i := hi; omega)
  · rename_i hdf
    have hFp : F = p := by
      have : ¬ p < F := fun hlt => hdf (hd ▸ hdup.mpr hlt)
      omega
    subst hFp
    rw [Proc.sat_bind, sat_statement]
    split
    · exact ⟨rfl, rfl, List.prefix_rfl, fun _ _ => rfl, F, h⟩
    · refine ⟨h.durable, ?_⟩
      rintro (err | u) m' w' ⟨⟨hm, hp, heff⟩, hSw⟩
      · have hm' := hm
        simp only [TailMem.cursor, CursorVars.mk.injEq] at hm'
        obtain ⟨-, -, -, hse, hhe, hph⟩ := hm'
        refine ⟨hph, hhe, hp, ?_, F, h.mono hm heff hp hSw⟩
        intro e' _
        unfold TailMem.isDuplicate
        rw [hse]
      · obtain ⟨db, happ, hev⟩ := heff
        simp only [TailMem.cursor, CursorVars.mk.injEq] at hm
        obtain ⟨hr, hq, hi, hse, hhe, hph⟩ := hm
        refine ⟨hph, hhe, hp, ?_, ?_, F + 1, Nat.le_refl _, ?_⟩
        · intro e' hne
          exact TailMem.isDuplicate_append (by simp [hse]) hne
        · show m'.startIndex + 1 ≤ F + 1
          omega
        · refine h.append hl happ hev hp hSw hr ?_ ?_ ?_ ?_
          · exact congrArg (· + 1) hq
          · exact congrArg (· ++ e.id.toList) hse
          · show m'.startIndex + 1 ≤ F + 1
            omega
          · show m.startIndex ≤ m'.startIndex + 1
            omega

/-- A reader before line `pos` of its body: everything before `p` is stored, a held
opening is line `p`, and the lines from there on do not parse. -/
structure Reading (runs : RunId → Prop) (base : List StoredRunEvent) (S : List Line)
    (m : TailMem) (w : World) (pos F p : Nat) : Prop where
  cursor : Cursor runs base S m w F
  start : m.startIndex ≤ p
  stored : p ≤ F
  le : p ≤ pos
  held : ∀ h, m.held = some h → p < pos ∧ w.lines[p]? = some (some h.event) ∧
    h.duplicate = m.isDuplicate h.event
  gap : ∀ i, (if m.held.isSome then p + 1 else p) ≤ i → i < pos → w.lines[i]? = some none

theorem TailMem.isDuplicate_of_cursor {m m' : TailMem} (h : m'.cursor = m.cursor)
    (e : EveStreamEvent) : m'.isDuplicate e = m.isDuplicate e := by
  simp only [TailMem.cursor, CursorVars.mk.injEq] at h
  unfold TailMem.isDuplicate
  rw [h.2.2.2.1]

theorem Reading.mono {m m' : TailMem} {w w' : World} {pos F p : Nat}
    (h : Reading runs base S m w pos F p) (hpos : pos ≤ w.lines.length)
    (hm : m'.cursor = m.cursor) (hev : w'.db.events = w.db.events)
    (hl : w.lines <+: w'.lines) (hS : w'.lines <+: S) :
    Reading runs base S m' w' pos F p := by
  have hm' := hm
  simp only [TailMem.cursor, CursorVars.mk.injEq] at hm'
  obtain ⟨-, -, hi, -, hhe, -⟩ := hm'
  refine ⟨h.cursor.mono hm hev hl hS, hi ▸ h.start, h.stored, h.le, ?_, ?_⟩
  · intro hd hhd
    obtain ⟨hlt, hline, hdup⟩ := h.held hd (hhe ▸ hhd)
    refine ⟨hlt, ?_, ?_⟩
    · rw [getElem?_grown hl (by omega), hline]
    · rw [hdup, TailMem.isDuplicate_of_cursor hm]
  · intro i hi' hlt
    rw [getElem?_grown hl (by omega)]
    exact h.gap i (hhe ▸ hi') hlt

/-- A line that does not parse is passed over. -/
theorem Reading.skip {m : TailMem} {w : World} {pos F p : Nat}
    (h : Reading runs base S m w pos F p) (hl : w.lines[pos]? = some none) :
    Reading runs base S m w (pos + 1) F p := by
  refine ⟨h.cursor, h.start, h.stored, h.le.trans (Nat.le_succ _), ?_, ?_⟩
  · intro hd hhd
    obtain ⟨hlt, hrest⟩ := h.held hd hhd
    exact ⟨hlt.trans (Nat.lt_succ_self _), hrest⟩
  · intro i hi hlt
    rcases Nat.lt_succ_iff_lt_or_eq.mp hlt with hlt | rfl
    · exact h.gap i hi hlt
    · exact hl

/-- What an event's handling ends in: at the next line, returned from `run`, or thrown out
of the body. -/
def Consumed (runs : RunId → Prop) (base : List StoredRunEvent) (S : List Line) (m : TailMem)
    (w : World) (pos : Nat) (r : Except TailError Bool) (m' : TailMem) (w' : World) : Prop :=
  m'.phase = m.phase ∧ w.lines <+: w'.lines ∧
    match r with
    | .ok false => ∃ F p, Reading runs base S m' w' pos F p
    | _ => ∃ F, Cursor runs base S m' w' F

/-- The reader's own line, nothing held: its event is stored and the next line is due. -/
theorem persist_afterPersist_sat (hS : UniqueIds S) {m : TailMem} {w : World} {pos F : Nat}
    {e : EveStreamEvent} {dup : Bool} (h : Reading runs base S m w pos F pos)
    (hheld : m.held = none) (hl : w.lines[pos]? = some (some e)) (hd : dup = m.isDuplicate e) :
    (do persist e dup; afterPersist e : Tail Bool).Sat (readerAnswers S)
      (fun _ w' => Durable runs base S w') m w
      (fun r m' w' => Consumed runs base S m w (pos + 1) r m' w') := by
  refine (persist_sat hS h.cursor h.start h.stored hl hd).bind ?_ ?_
  · rintro - m' w' ⟨hph, hhe, hp, -, hi, F', hF', hc⟩
    refine ((afterPersist_quiet e).sat hc).mono ?_
    rintro r m'' w'' ⟨hm, hp', hc'⟩
    have hm' := hm
    simp only [TailMem.cursor, CursorVars.mk.injEq] at hm'
    obtain ⟨-, -, hi', -, hhe', hph'⟩ := hm'
    refine ⟨hph'.trans hph, hp.trans hp', ?_⟩
    rcases r with err | stop
    · exact ⟨F', hc'⟩
    cases stop with
    | true => exact ⟨F', hc'⟩
    | false =>
      refine ⟨F', pos + 1, hc', hi' ▸ hi, hF', Nat.le_refl _, ?_, ?_⟩
      · intro hd hhd
        rw [hhe', hhe, hheld] at hhd
        cases hhd
      · intro i hi hlt
        split at hi <;> omega
  · rintro err m' w' ⟨hph, -, hp, -, hrest⟩
    exact ⟨hph, hp, hrest⟩

/-- Nothing is held any more and the lines up to `pos` do not parse: `pos` is due. -/
theorem Reading.settle {m : TailMem} {w : World} {pos F p : Nat}
    (h : Reading runs base S m w pos F p) (hheld : m.held = none) :
    ∃ F', Reading runs base S m w pos F' pos := by
  obtain ⟨F', hpos, -, hc⟩ := h.cursor.skip (q := pos) fun i hi hlt =>
    h.gap i (by simp [hheld]; have := h.stored; omega) hlt
  refine ⟨F', hc, h.start.trans h.le, hpos, Nat.le_refl _, ?_, ?_⟩
  · intro hd hhd
    rw [hheld] at hhd
    cases hhd
  · intro i hi hlt
    split at hi <;> omega

/-- The duplicate test of the event behind a held opening is not moved by storing it. -/
theorem persistHeld_sat (hS : UniqueIds S) {m : TailMem} {w : World} {pos F p : Nat}
    {held : Held} {e : EveStreamEvent} (h : Reading runs base S m w pos F p)
    (hheld : m.held = some held) (hl : w.lines[pos]? = some (some e))
    (content : Option MessageHash) :
    (persistHeld held content).Sat (readerAnswers S) (fun _ w' => Durable runs base S w') m w
      (fun r m' w' => m'.phase = m.phase ∧ w.lines <+: w'.lines ∧
        match r with
        | .ok _ => m'.held = none ∧ m'.isDuplicate e = m.isDuplicate e ∧
          ∃ F', Reading runs base S m' w' pos F' pos
        | .error _ => ∃ F', Cursor runs base S m' w' F') := by
  obtain ⟨hlt, hline, hdup⟩ := h.held held hheld
  have hposlen : pos < w.lines.length := (List.getElem?_eq_some_iff.mp hl).1
  have hne : e.id ≠ held.event.id := by
    intro hid
    have h1 : S[pos]? = some (some e) := (getElem?_grown h.cursor.stream hposlen).trans hl
    have h2 : S[p]? = some (some held.event) :=
      (getElem?_grown h.cursor.stream (hlt.trans hposlen)).trans hline
    have := hS.index_eq h1 h2 hid
    omega
  unfold persistHeld
  refine ((attributeTurn_quiet _ _).sat h.cursor).bind ?_ ?_
  · rintro attribution m₁ w₁ ⟨hm, hp₁, hc₁⟩
    have hm' := hm
    simp only [TailMem.cursor, CursorVars.mk.injEq] at hm'
    obtain ⟨-, -, hi₁, -, -, hph₁⟩ := hm'
    have hline₁ : w₁.lines[p]? = some (some held.event) :=
      (getElem?_grown hp₁ (hlt.trans hposlen)).trans hline
    refine (persist_sat hS hc₁ (hi₁ ▸ h.start) h.stored hline₁
      (hdup.trans (TailMem.isDuplicate_of_cursor hm _).symm)).bind ?_ ?_
    · rintro - m₂ w₂ ⟨hph₂, -, hp₂, hdup₂, hi₂, F₂, hF₂, hc₂⟩
      rw [sat_setMem]
      have hcur : (({ m₂ with held := none } : TailMem).applyAttribution attribution).cursor =
          { m₂.cursor with held := none } := by
        cases attribution <;> rfl
      have hset : ∀ m₃ : TailMem, m₃.cursor = { m₂.cursor with held := none } →
          m₃.phase = m.phase ∧ w.lines <+: w₂.lines ∧ m₃.held = none ∧
          m₃.isDuplicate e = m.isDuplicate e ∧ ∃ F', Reading runs base S m₃ w₂ pos F' pos := by
        intro m₃ hm₃
        simp only [TailMem.cursor, CursorVars.mk.injEq] at hm₃
        obtain ⟨hr₃, hq₃, hi₃, hs₃, hh₃, hph₃⟩ := hm₃
        have hdup₃ : m₃.isDuplicate e = m.isDuplicate e := by
          rw [← TailMem.isDuplicate_of_cursor hm, ← hdup₂ e hne]
          unfold TailMem.isDuplicate
          rw [hs₃]
        have hc₃ : Cursor runs base S m₃ w₂ F₂ :=
          ⟨hc₂.log, hc₂.stream, hr₃ ▸ hc₂.tailed, by rw [hq₃, hr₃]; exact hc₂.seq,
            fun id => by rw [hs₃, hr₃]; exact hc₂.seen id, hi₃ ▸ hc₂.start,
            fun i e' hi' hlt' he' => hr₃ ▸ hc₂.own i e' (hi₃ ▸ hi') hlt' he'⟩
        refine ⟨hph₃.trans (hph₂.trans hph₁), hp₁.trans hp₂, hh₃, hdup₃, ?_⟩
        refine Reading.settle (F := F₂) (p := p + 1) ⟨hc₃, hi₃ ▸ hi₂, hF₂, hlt, ?_, ?_⟩ hh₃
        · intro hd hhd
          rw [hh₃] at hhd
          cases hhd
        · intro i hi hlt'
          rw [getElem?_grown (hp₁.trans hp₂) (by omega)]
          refine h.gap i ?_ hlt'
          simpa [hheld, hh₃] using hi
      obtain ⟨ha, hb, hc, hd, he⟩ := hset _ hcur
      exact ⟨ha, hb, hc, hd, he⟩
    · rintro err m₂ w₂ ⟨hph₂, -, hp₂, -, hrest⟩
      exact ⟨hph₂.trans hph₁, hp₁.trans hp₂, hrest⟩
  · rintro err m₁ w₁ ⟨hm, hp₁, hc₁⟩
    simp only [TailMem.cursor, CursorVars.mk.injEq] at hm
    exact ⟨hm.2.2.2.2.2, hp₁, F, hc₁⟩

theorem persistHeld_then_sat (hS : UniqueIds S) {m : TailMem} {w : World} {pos F p : Nat}
    {held : Held} {e : EveStreamEvent} (h : Reading runs base S m w pos F p)
    (hheld : m.held = some held) (hl : w.lines[pos]? = some (some e))
    (content : Option MessageHash) :
    (do
      persistHeld held content
      let m' ← getMem
      if m'.mode = .observe ∧ m'.observationClosed = true then pure true
      else do
        persist e (m.isDuplicate e)
        afterPersist e : Tail Bool).Sat (readerAnswers S)
      (fun _ w' => Durable runs base S w') m w
      (fun r m' w' => Consumed runs base S m w (pos + 1) r m' w') := by
  have hposlen : pos < w.lines.length := (List.getElem?_eq_some_iff.mp hl).1
  refine (persistHeld_sat hS h hheld hl content).bind ?_ ?_
  · rintro - m₁ w₁ ⟨hph₁, hp₁, hh₁, hdup₁, F₁, hr₁⟩
    have hl₁ : w₁.lines[pos]? = some (some e) := (getElem?_grown hp₁ hposlen).trans hl
    rw [Proc.sat_bind, sat_getMem]
    simp only
    split
    · -- the observation ended with the opening: the event is left to the next reader
      exact ⟨hph₁, hp₁, F₁, hr₁.cursor⟩
    · refine (persist_afterPersist_sat hS hr₁ hh₁ hl₁ hdup₁.symm).mono ?_
      rintro r m₂ w₂ ⟨hph₂, hp₂, hrest⟩
      exact ⟨hph₂.trans hph₁, hp₁.trans hp₂, hrest⟩
  · rintro err m₁ w₁ ⟨hph₁, hp₁, hrest⟩
    exact ⟨hph₁, hp₁, hrest⟩

theorem consumeEvent_sat (hS : UniqueIds S) {m : TailMem} {w : World} {pos F p : Nat}
    {e : EveStreamEvent} (h : Reading runs base S m w pos F p)
    (hl : w.lines[pos]? = some (some e)) :
    (consumeEvent e).Sat (readerAnswers S) (fun _ w' => Durable runs base S w') m w
      (fun r m' w' => Consumed runs base S m w (pos + 1) r m' w') := by
  have hposlen : pos < w.lines.length := (List.getElem?_eq_some_iff.mp hl).1
  -- the event stays on the line: it becomes the held opening
  have hold : ∀ (m₁ : TailMem) (w₁ : World) (F₁ : Nat) (turnId : TurnId) (dup : Bool),
      m₁.phase = m.phase → w.lines <+: w₁.lines → Reading runs base S m₁ w₁ pos F₁ pos →
      dup = m₁.isDuplicate e → m₁.held = none →
      Consumed runs base S m w (pos + 1) (.ok false)
        { m₁ with held := some ⟨e, turnId, dup⟩ } w₁ := by
    intro m₁ w₁ F₁ turnId dup hph hp h₁ hd hh₁
    have hl₁ : w₁.lines[pos]? = some (some e) := (getElem?_grown hp hposlen).trans hl
    refine ⟨hph, hp, F₁, pos, ?_, h₁.start, h₁.stored, Nat.le_succ _, ?_, ?_⟩
    · exact ⟨h₁.cursor.log, h₁.cursor.stream, h₁.cursor.tailed, h₁.cursor.seq, h₁.cursor.seen,
        h₁.cursor.start, h₁.cursor.own⟩
    · intro hd' hhd
      cases hhd
      exact ⟨Nat.lt_succ_self _, hl₁, hd⟩
    · intro i hi hlt
      have : pos + 1 ≤ i := hi
      omega
  -- an event that is not an opening, with nothing held
  have plain : m.held = none → (do
      persist e (m.isDuplicate e)
      afterPersist e : Tail Bool).Sat (readerAnswers S) (fun _ w' => Durable runs base S w') m w
      (fun r m' w' => Consumed runs base S m w (pos + 1) r m' w') := by
    intro hheld
    obtain ⟨F', h'⟩ := h.settle hheld
    exact persist_afterPersist_sat hS h' hheld hl rfl
  unfold consumeEvent
  rw [Proc.sat_bind, sat_getMem]
  simp only
  split
  · exact ⟨rfl, List.prefix_rfl, F, h.cursor⟩
  · split
    · rename_i turnId _
      cases hheld : m.held with
      | none =>
        obtain ⟨F', h'⟩ := h.settle hheld
        exact hold m w F' turnId _ rfl List.prefix_rfl h' rfl hheld
      | some held =>
        refine (persistHeld_sat hS h hheld hl none).bind ?_ ?_
        · rintro - m₁ w₁ ⟨hph₁, hp₁, hh₁, hdup₁, F₁, hr₁⟩
          exact hold m₁ w₁ F₁ turnId _ hph₁ hp₁ hr₁ hdup₁.symm hh₁
        · rintro err m₁ w₁ ⟨hph₁, hp₁, hrest⟩
          exact ⟨hph₁, hp₁, hrest⟩
    · rename_i turnId message _
      cases hheld : m.held with
      | some held => exact persistHeld_then_sat hS h hheld hl _
      | none =>
        -- a turn that matched nothing at its opening is decided again
        have decide : Quiet (if m.isKnownTurn turnId then pure () else do
            let attribution ← attributeTurn turnId (some (hashTurnMessage message))
            setMem (·.applyAttribution attribution) : Tail Unit) := by
          refine Quiet.ite (Quiet.pure _) (Quiet.bind (attributeTurn_quiet _ _) fun a => ?_)
          exact Quiet.setMem fun m => by cases a <;> rfl
        obtain ⟨F', h'⟩ := h.settle hheld
        refine (decide.sat h'.cursor).bind ?_ ?_
        · rintro - m₁ w₁ ⟨hm, hp₁, hc₁⟩
          have hm' := hm
          simp only [TailMem.cursor, CursorVars.mk.injEq] at hm'
          obtain ⟨-, -, hi₁, -, hh₁, hph₁⟩ := hm'
          have hl₁ : w₁.lines[pos]? = some (some e) := (getElem?_grown hp₁ hposlen).trans hl
          have hr₁ : Reading runs base S m₁ w₁ pos F' pos := by
            refine ⟨hc₁, hi₁ ▸ h'.start, h'.stored, Nat.le_refl _, ?_, ?_⟩
            · intro hd hhd
              rw [hh₁, hheld] at hhd
              cases hhd
            · intro i hi hlt
              split at hi <;> omega
          refine (persist_afterPersist_sat hS hr₁ (hh₁.trans hheld) hl₁
            (TailMem.isDuplicate_of_cursor hm _).symm).mono ?_
          rintro r m₂ w₂ ⟨hph₂, hp₂, hrest⟩
          exact ⟨hph₂.trans hph₁, hp₁.trans hp₂, hrest⟩
        · rintro err m₁ w₁ ⟨hm, hp₁, hc₁⟩
          simp only [TailMem.cursor, CursorVars.mk.injEq] at hm
          exact ⟨hm.2.2.2.2.2, hp₁, F', hc₁⟩
    · cases hheld : m.held with
      | some held => exact persistHeld_then_sat hS h hheld hl none
      | none => exact plain hheld

/-! ## A session and its readers -/

/-- A live tail between two of its programs. -/
def Sound (runs : RunId → Prop) (base : List StoredRunEvent) (S : List Line) (m : TailMem)
    (w : World) : Prop :=
  match m.phase with
  | .connecting => ∃ F, Cursor runs base S m w F
  | .reading pos => pos ≤ w.lines.length ∧ ∃ F p, Reading runs base S m w pos F p
  | .opening | .exited => Durable runs base S w

theorem Sound.durable {m : TailMem} {w : World} (h : Sound runs base S m w) :
    Durable runs base S w := by
  unfold Sound at h
  split at h
  · obtain ⟨F, hc⟩ := h
    exact hc.durable
  · obtain ⟨-, F, p, hr⟩ := h
    exact hr.cursor.durable
  · exact h
  · exact h

theorem Sound.exit (m : TailMem) {w : World} (h : Durable runs base S w) :
    Sound runs base S m.exit w := h

/-- What every program of the reader ends in. -/
def Ends (runs : RunId → Prop) (base : List StoredRunEvent) (S : List Line)
    (r : Except TailError Unit) (m : TailMem) (w : World) : Prop :=
  match r with
  | .ok _ => Sound runs base S m w
  | .error _ => Durable runs base S w

/-- Under the backstop a thrown error leaves an exited tail. -/
theorem backstop_sat {p : Tail Unit} {m : TailMem} {w : World}
    (h : p.Sat (readerAnswers S) (fun _ w' => Durable runs base S w') m w (Ends runs base S)) :
    (backstop p).Sat (readerAnswers S) (fun _ w' => Durable runs base S w') m w
      (fun _ m' w' => Sound runs base S m' w') :=
  h.handle (fun _ _ _ h' => h') fun _ m' _ h' => Sound.exit m' h'

theorem quiet_exit_sat {p : Tail Unit} (hp : Quiet p) {m : TailMem} {w : World} {F : Nat}
    (h : Cursor runs base S m w F) :
    (do p; setMem TailMem.exit : Tail Unit).Sat (readerAnswers S)
      (fun _ w' => Durable runs base S w') m w (Ends runs base S) := by
  refine (hp.sat h).bind ?_ ?_
  · rintro - m' w' ⟨-, -, hc⟩
    exact Sound.exit m' hc.durable
  · rintro err m' w' ⟨-, -, hc⟩
    exact hc.durable

theorem onStreamError_sat {m : TailMem} {w : World} {F : Nat} (h : Cursor runs base S m w F) :
    onStreamError.Sat (readerAnswers S) (fun _ w' => Durable runs base S w') m w
      (Ends runs base S) := by
  have lift : ∀ m' : TailMem, m'.runId = m.runId → m'.seq = m.seq →
      m'.startIndex = m.startIndex → m'.seenEventIds = m.seenEventIds →
      Cursor runs base S m' w F := by
    intro m' hr hq hi hs
    exact ⟨h.log, h.stream, hr ▸ h.tailed, by rw [hq, hr]; exact h.seq,
      fun id => by rw [hs, hr]; exact h.seen id, hi ▸ h.start,
      fun i e' hi' hlt' he' => hr ▸ h.own i e' (hi ▸ hi') hlt' he'⟩
  unfold onStreamError
  rw [Proc.sat_bind, sat_setMem]
  simp only
  rw [Proc.sat_bind, sat_getMem]
  simp only
  split
  · exact Sound.exit { m with held := none, busy := false } h.durable
  split
  · exact quiet_exit_sat finishAborted_quiet (lift _ rfl rfl rfl rfl)
  rw [Proc.sat_bind, sat_setMem]
  simp only
  rw [Proc.sat_bind, sat_getMem]
  simp only
  split
  · rw [Proc.sat_bind, sat_setMem]
    simp only
    refine quiet_exit_sat ?_ (lift _ rfl rfl rfl rfl)
    exact Quiet.ite (Quiet.pure _) (Quiet.bind (finishRun_quiet _ _ _ _) fun _ => Quiet.pure _)
  · exact ⟨F, lift _ rfl rfl rfl rfl⟩

theorem streamDrop_sat {m : TailMem} {w : World} {F : Nat} (h : Cursor runs base S m w F) :
    streamDrop.Sat (readerAnswers S) (fun _ w' => Durable runs base S w') m w
      (fun _ m' w' => Sound runs base S m' w') :=
  backstop_sat (onStreamError_sat h)

theorem consumeLine_sat (hS : UniqueIds S) {m : TailMem} {w : World} {pos F p : Nat}
    {line : Line} (h : Reading runs base S m w pos F p) (hl : w.lines[pos]? = some line) :
    (consumeLine pos line).Sat (readerAnswers S) (fun _ w' => Durable runs base S w') m w
      (fun _ m' w' => Sound runs base S m' w') := by
  have hlen : pos + 1 ≤ w.lines.length := (List.getElem?_eq_some_iff.mp hl).1
  have hmem : ∀ (m' : TailMem) (q F p : Nat), Reading runs base S m w q F p →
      m'.runId = m.runId → m'.seq = m.seq → m'.startIndex = m.startIndex →
      m'.seenEventIds = m.seenEventIds → m'.held = m.held →
      Reading runs base S m' w q F p := by
    intro m' q F p h hr hq hi hs hh
    refine ⟨?_, hi ▸ h.start, h.stored, h.le, ?_, ?_⟩
    · exact ⟨h.cursor.log, h.cursor.stream, hr ▸ h.cursor.tailed,
        by rw [hq, hr]; exact h.cursor.seq, fun id => by rw [hs, hr]; exact h.cursor.seen id,
        hi ▸ h.cursor.start,
        fun i e' hi' hlt' he' => hr ▸ h.cursor.own i e' (hi ▸ hi') hlt' he'⟩
    · intro hd hhd
      obtain ⟨ha, hb, hc⟩ := h.held hd (hh ▸ hhd)
      refine ⟨ha, hb, hc.trans ?_⟩
      unfold TailMem.isDuplicate
      rw [hs]
    · intro i hi'
      exact h.gap i (hh ▸ hi')
  cases line with
  | none =>
    have hgo := hmem { m with phase := .reading (pos + 1) } (pos + 1) F p (h.skip hl)
      rfl rfl rfl rfl rfl
    exact ⟨hlen, F, p, hgo⟩
  | some e =>
    refine backstop_sat ?_
    have hbody : (do
        setMem fun m => { m with phase := .reading (pos + 1), busy := true }
        let stop ← consumeEvent e
        setMem fun m => if stop then m.exit else { m with busy := false } : Tail Unit).Sat
        (readerAnswers S) (fun _ w' => Durable runs base S w') m w
        (fun r m' w' => match r with
          | .ok _ => Sound runs base S m' w'
          | .error _ => ∃ F, Cursor runs base S m' w' F) := by
      rw [Proc.sat_bind, sat_setMem]
      simp only
      refine (consumeEvent_sat hS (hmem { m with phase := .reading (pos + 1), busy := true }
        pos F p h rfl rfl rfl rfl rfl) hl).bind ?_ ?_
      · rintro stop m' w' ⟨hph, hp, hrest⟩
        cases stop with
        | true =>
          obtain ⟨F', hc⟩ := hrest
          exact Sound.exit m' hc.durable
        | false =>
          obtain ⟨F', p', hr⟩ := hrest
          show Sound runs base S { m' with busy := false } w'
          have hph' : ({ m' with busy := false } : TailMem).phase = .reading (pos + 1) := hph
          unfold Sound
          rw [hph']
          refine ⟨hlen.trans hp.length_le, F', p', ?_⟩
          exact ⟨⟨hr.cursor.log, hr.cursor.stream, hr.cursor.tailed, hr.cursor.seq,
            hr.cursor.seen, hr.cursor.start, hr.cursor.own⟩, hr.start, hr.stored, hr.le,
            hr.held, hr.gap⟩
      · rintro err m' w' ⟨-, -, hrest⟩
        exact hrest
    refine hbody.handle (fun _ _ _ h' => h') ?_
    rintro err m' w' ⟨F', hc⟩
    exact onStreamError_sat hc

/-- eve's tail index never lies behind the cursor: the clamp does not move it. -/
theorem openBody_sat {m : TailMem} {w : World} {F : Nat} (h : Cursor runs base S m w F) :
    openBody.Sat (readerAnswers S) (fun _ w' => Durable runs base S w') m w
      (fun r m' w' => match r with
        | .ok _ => Sound runs base S m' w'
        | .error _ => ∃ F, Cursor runs base S m' w' F) := by
  have lift : ∀ m' : TailMem, m'.runId = m.runId → m'.seq = m.seq →
      m'.startIndex = m.startIndex → m'.seenEventIds = m.seenEventIds →
      Cursor runs base S m' w F := by
    intro m' hr hq hi hs
    exact ⟨h.log, h.stream, hr ▸ h.tailed, by rw [hq, hr]; exact h.seq,
      fun id => by rw [hs, hr]; exact h.seen id, hi ▸ h.start,
      fun i e' hi' hlt' he' => hr ▸ h.own i e' (hi ▸ hi') hlt' he'⟩
  unfold openBody
  rw [Proc.sat_bind, sat_setMem]
  simp only
  rw [Proc.sat_bind, sat_getMem]
  simp only
  have hc₁ := lift { m with consumedThisConnect := 0, held := none, busy := false }
    rfl rfl rfl rfl
  rw [Proc.sat_bind, sat_statement]
  split
  · exact ⟨F, hc₁⟩
  refine ⟨h.durable, ?_⟩
  rintro (err | tailIndex) m₂ w₂ ⟨⟨hm, hp, hev, hidx⟩, hSw⟩
  · exact ⟨F, hc₁.mono hm hev hp hSw⟩
  have hc₂ := hc₁.mono hm hev hp hSw
  simp only [TailMem.cursor, CursorVars.mk.injEq] at hm
  obtain ⟨-, -, hi₂, -, hh₂, -⟩ := hm
  dsimp only
  rw [Proc.sat_bind, sat_getMem]
  simp only
  rw [Proc.sat_bind]
  split
  · exact ⟨F, hc₂⟩
  rw [Proc.sat_pure]
  simp only
  -- the cursor is within the stream eve reports
  have hstart : m₂.startIndex ≤ w.lines.length := by
    rw [hi₂]
    exact h.start.trans h.log.len
  have hreading : ∀ m₃ : TailMem, m₃.runId = m₂.runId → m₃.seq = m₂.seq →
      m₃.startIndex = m₂.startIndex → m₃.seenEventIds = m₂.seenEventIds → m₃.held = m₂.held →
      Sound runs base S { m₃ with phase := .reading m.startIndex } w₂ := by
    intro m₃ hr hq hi hs hh
    have hi' : m₃.startIndex = m.startIndex := hi.trans hi₂
    refine ⟨?_, F, m.startIndex, ?_, ?_, ?_, Nat.le_refl _, ?_, ?_⟩
    · exact (hi₂ ▸ hstart).trans hp.length_le
    · exact ⟨hc₂.log, hc₂.stream, hr ▸ hc₂.tailed, by show m₃.seq = _; rw [hq, hr]; exact hc₂.seq,
        fun id => by show id ∈ m₃.seenEventIds ↔ _; rw [hs, hr]; exact hc₂.seen id,
        by show m₃.startIndex ≤ F; rw [hi]; exact hc₂.start,
        fun i e' hi' hlt' he' => hr ▸ hc₂.own i e' (hi ▸ hi') hlt' he'⟩
    · exact hi'.le
    · exact h.start
    · intro hd hhd
      have : m₃.held = some hd := hhd
      rw [hh, hh₂] at this
      cases this
    · intro i hi hlt
      split at hi <;> omega
  rw [Proc.sat_bind]
  split
  · -- the header is asked for on the first open only
    unfold clampCursor
    rw [Proc.sat_bind, sat_getMem]
    simp only
    rw [Proc.sat_bind, sat_setMem]
    simp only
    cases tailIndex with
    | none => exact hreading { m₂ with requestTailIndex := false } rfl rfl rfl rfl rfl
    | some i =>
      have hle := hidx i rfl
      simp only
      split
      · omega
      · exact hreading { m₂ with requestTailIndex := false } rfl rfl rfl rfl rfl
  · exact hreading m₂ rfl rfl rfl rfl rfl

theorem connect_sat {m : TailMem} {w : World} {F : Nat} (h : Cursor runs base S m w F) :
    connect.Sat (readerAnswers S) (fun _ w' => Durable runs base S w') m w
      (fun _ m' w' => Sound runs base S m' w') := by
  refine backstop_sat ?_
  rw [Proc.sat_bind, sat_getMem]
  simp only
  split
  · exact Sound.exit m h.durable
  split
  · exact quiet_exit_sat finishAborted_quiet h
  · refine (openBody_sat h).handle (fun _ _ _ h' => h') ?_
    rintro err m' w' ⟨F', hc⟩
    exact onStreamError_sat hc

end InvisibleString.Tailer
