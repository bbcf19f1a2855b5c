import InvisibleString.Lib.Json
import Mathlib.Data.List.DropRight

/- # `Utf8` — JavaScript strings as bytes and back

`TextEncoder` takes a string by its code points, a lone surrogate as U+FFFD, and writes each in
one to four bytes.  `TextDecoder` is a machine that reads one byte at a time: it answers what no
text is written as with U+FFFD, may be stopped and taken up anywhere, and drops a byte order
mark that begins the stream.

**Proved here.**

    the machine reads a code point where it was written, and not before  (`run_encodePoint`)
    it reads a stream in pieces as it reads it at once  (`finish_append`)
    it reads a text as the text was written  (`finish_encode`)
    of the first bytes of a text it reads the code points that fit, and at
    most one replacement character behind them  (`finish_take`)
    without its replacement characters at the end that is the longest prefix
    that fits if and only if this prefix reads back  (`decode_take_iff`)
-/

namespace Utf8

open Json

abbrev Byte := UInt8

/-- The replacement character. -/
def replacement : CodeUnit := 0xFFFD

def byteOrderMark : CodeUnit := 0xFEFF

/-! ## Code points -/

/-- The text cut into its code points, a pair of surrogates or one code unit each. -/
def points : JsString → List JsString
  | [] => []
  | [c] => [[c]]
  | c :: d :: s =>
    if isLeading c && isTrailing d then [c, d] :: points s else [c] :: points (d :: s)

/-- The number of a code point, as `TextEncoder` takes it. -/
def scalar : JsString → Nat
  | [c] => if isLeading c || isTrailing c then 0xFFFD else c.toNat
  | [c, d] => 0x10000 + (c.toNat - 0xD800) * 0x400 + (d.toNat - 0xDC00)
  | _ => 0

/-- The code units of a code point. -/
def utf16 (n : Nat) : JsString :=
  if n < 0x10000 then [UInt16.ofNat n]
  else
    [UInt16.ofNat (0xD800 + (n - 0x10000) / 0x400), UInt16.ofNat (0xDC00 + (n - 0x10000) % 0x400)]

/-- A code point that is no surrogate. -/
def IsScalar (n : Nat) : Prop := n < 0xD800 ∨ (0xE000 ≤ n ∧ n < 0x110000)

/-! ## Bytes -/

def byte (n : Nat) : Byte := UInt8.ofNat n

def encodePoint (n : Nat) : List Byte :=
  if n < 0x80 then [byte n]
  else if n < 0x800 then [byte (0xC0 + n / 64), byte (0x80 + n % 64)]
  else if n < 0x10000 then
    [byte (0xE0 + n / 4096), byte (0x80 + n / 64 % 64), byte (0x80 + n % 64)]
  else
    [byte (0xF0 + n / 262144), byte (0x80 + n / 4096 % 64), byte (0x80 + n / 64 % 64),
      byte (0x80 + n % 64)]

def encodePoints (ps : List JsString) : List Byte := ps.flatMap fun p => encodePoint (scalar p)

/-- `new TextEncoder().encode(text)`. -/
def encode (text : JsString) : List Byte := encodePoints (points text)

/-! ## The decoder -/

/-- How many bytes a code point still needs, the bounds of the next, and what it is so far. -/
structure State where
  needed : Nat
  lower : Nat
  upper : Nat
  point : Nat

/-- Between code points. -/
def State.ready : State := ⟨0, 0x80, 0xBF, 0⟩

/-- A byte between code points: the state behind it, and what it gives. -/
def lead (n : Nat) : State × List Nat :=
  if n ≤ 0x7F then (.ready, [n])
  else if 0xC2 ≤ n ∧ n ≤ 0xDF then (⟨1, 0x80, 0xBF, n - 0xC0⟩, [])
  else if 0xE0 ≤ n ∧ n ≤ 0xEF then
    (⟨2, if n = 0xE0 then 0xA0 else 0x80, if n = 0xED then 0x9F else 0xBF, n - 0xE0⟩, [])
  else if 0xF0 ≤ n ∧ n ≤ 0xF4 then
    (⟨3, if n = 0xF0 then 0x90 else 0x80, if n = 0xF4 then 0x8F else 0xBF, n - 0xF0⟩, [])
  else (.ready, [0xFFFD])

def State.step (s : State) (b : Byte) : State × List Nat :=
  let n := b.toNat
  if s.needed = 0 then lead n
  else if s.lower ≤ n ∧ n ≤ s.upper then
    let point := s.point * 64 + (n - 0x80)
    if s.needed = 1 then (.ready, [point]) else (⟨s.needed - 1, 0x80, 0xBF, point⟩, [])
  -- the byte is read again, between code points
  else ((lead n).1, 0xFFFD :: (lead n).2)

def State.run (s : State) : List Byte → State × List Nat
  | [] => (s, [])
  | b :: bytes =>
    let (s', out) := s.step b
    let (s'', out') := s'.run bytes
    (s'', out ++ out')

/-- The end of the stream. -/
def State.flush (s : State) : List Nat := if s.needed = 0 then [] else [0xFFFD]

/-- A `TextDecoder`. -/
structure TextDecoder where
  state : State
  /-- something was given -/
  bomSeen : Bool

def TextDecoder.fresh : TextDecoder := ⟨.ready, false⟩

/-- The code points without a mark that begins the stream. -/
def withoutMark (bomSeen : Bool) : List Nat → List Nat
  | [] => []
  | n :: out => if !bomSeen && n == 0xFEFF then out else n :: out

/-- `decoder.decode(bytes, { stream: true })`. -/
def TextDecoder.decode (d : TextDecoder) (bytes : List Byte) : TextDecoder × JsString :=
  let (state, out) := d.state.run bytes
  (⟨state, d.bomSeen || !out.isEmpty⟩, (withoutMark d.bomSeen out).flatMap utf16)

/-- `decoder.decode(bytes)`. -/
def TextDecoder.finish (d : TextDecoder) (bytes : List Byte) : JsString :=
  let (state, out) := d.state.run bytes
  (withoutMark d.bomSeen (out ++ state.flush)).flatMap utf16

/-! ## Streams -/

theorem State.run_cons (s : State) (b : Byte) (bytes : List Byte) : s.run (b :: bytes) =
    (((s.step b).1.run bytes).1, (s.step b).2 ++ ((s.step b).1.run bytes).2) := rfl

theorem State.run_append (s : State) (bytes rest : List Byte) : s.run (bytes ++ rest) =
    (((s.run bytes).1.run rest).1, (s.run bytes).2 ++ ((s.run bytes).1.run rest).2) := by
  induction bytes generalizing s with
  | nil => rfl
  | cons b bytes ih => rw [List.cons_append, State.run_cons, ih, State.run_cons, List.append_assoc]

theorem withoutMark_append (bomSeen : Bool) (out out' : List Nat) :
    withoutMark bomSeen (out ++ out') =
      withoutMark bomSeen out ++ withoutMark (bomSeen || !out.isEmpty) out' := by
  cases out with
  | nil => rw [List.isEmpty_nil, Bool.not_true, Bool.or_false]; rfl
  | cons n out =>
    have hseen : ∀ l, withoutMark true l = l := by
      intro l
      cases l with
      | nil => rfl
      | cons n l => rfl
    rw [List.isEmpty_cons, Bool.not_false, Bool.or_true, hseen, List.cons_append, withoutMark,
      withoutMark]
    split
    · rfl
    · rfl

theorem finish_append (d : TextDecoder) (bytes rest : List Byte) :
    d.finish (bytes ++ rest) = (d.decode bytes).2 ++ (d.decode bytes).1.finish rest := by
  simp only [TextDecoder.finish, TextDecoder.decode, State.run_append, withoutMark_append,
    List.append_assoc, List.flatMap_append]

/-! ## One code point -/

theorem toNat_byte {n : Nat} (h : n < 256) : (byte n).toNat = n := by
  rw [byte, UInt8.toNat_ofNat', Nat.mod_eq_of_lt h]

theorem step_lead {n : Nat} (h : n < 256) : State.ready.step (byte n) = lead n := by
  rw [State.step, toNat_byte h]
  rfl

/-- A byte that is not the last. -/
theorem step_inner {s : State} {n : Nat} (h : n < 256) (hneeded : 1 < s.needed)
    (hlower : s.lower ≤ n) (hupper : n ≤ s.upper) :
    s.step (byte n) = (⟨s.needed - 1, 0x80, 0xBF, s.point * 64 + (n - 0x80)⟩, []) := by
  rw [State.step, toNat_byte h]
  simp only
  rw [if_neg (by omega), if_pos ⟨hlower, hupper⟩, if_neg (by omega)]

theorem step_last {s : State} {n : Nat} (h : n < 256) (hneeded : s.needed = 1)
    (hlower : s.lower ≤ n) (hupper : n ≤ s.upper) :
    s.step (byte n) = (.ready, [s.point * 64 + (n - 0x80)]) := by
  rw [State.step, toNat_byte h]
  simp only
  rw [if_neg (by omega), if_pos ⟨hlower, hupper⟩, if_pos hneeded]

/-- The bytes begin a code point that needs more of them. -/
def Begins (s : State) (bytes : List Byte) : Prop :=
  (s.run bytes).2 = [] ∧ (s.run bytes).1.needed ≠ 0

/-- From `s` on the bytes are read as `n`, and no part of them is. -/
structure Reads (s : State) (bytes : List Byte) (n : Nat) : Prop where
  whole : s.run bytes = (.ready, [n])
  part : ∀ k, 0 < k → k < bytes.length → Begins s (bytes.take k)

/-- One byte more in front, which gives nothing yet. -/
theorem Reads.cons {s s' : State} {b : Byte} {bytes : List Byte} {n : Nat}
    (hstep : s.step b = (s', [])) (hneeded : s'.needed ≠ 0) (h : Reads s' bytes n) :
    Reads s (b :: bytes) n where
  whole := by
    rw [State.run, hstep]
    simp only
    rw [h.whole]
    rfl
  part k hk hlength := by
    obtain ⟨k, rfl⟩ := Nat.exists_eq_succ_of_ne_zero (Nat.pos_iff_ne_zero.mp hk)
    rw [List.length_cons, Nat.succ_lt_succ_iff] at hlength
    rw [Begins, List.take_succ_cons, State.run, hstep]
    rcases Nat.eq_zero_or_pos k with rfl | hpos
    · exact ⟨rfl, hneeded⟩
    · exact h.part k hpos hlength

theorem reads_one (n : Nat) : Reads ⟨1, 0x80, 0xBF, n / 64⟩ [byte (0x80 + n % 64)] n where
  whole := by
    have hpoint : n / 64 * 64 + (0x80 + n % 64 - 0x80) = n := by omega
    rw [State.run_cons, step_last (by omega) rfl (show 0x80 ≤ 0x80 + n % 64 by omega)
      (show 0x80 + n % 64 ≤ 0xBF by omega), hpoint]
    rfl
  part k hk hlength := by
    rw [List.length_singleton] at hlength
    omega

theorem reads_two {lower upper : Nat} (n : Nat) (hlower : lower ≤ 0x80 + n / 64 % 64)
    (hupper : 0x80 + n / 64 % 64 ≤ upper) :
    Reads ⟨2, lower, upper, n / 4096⟩ [byte (0x80 + n / 64 % 64), byte (0x80 + n % 64)] n := by
  have hpoint : n / 4096 * 64 + (0x80 + n / 64 % 64 - 0x80) = n / 64 := by omega
  have hstep : State.step ⟨2, lower, upper, n / 4096⟩ (byte (0x80 + n / 64 % 64)) =
      (⟨1, 0x80, 0xBF, n / 64⟩, []) := by
    rw [step_inner (by omega) (show 1 < 2 by omega) hlower hupper, hpoint]
    rfl
  exact (reads_one n).cons hstep Nat.one_ne_zero

theorem reads_three {lower upper : Nat} (n : Nat) (hlower : lower ≤ 0x80 + n / 4096 % 64)
    (hupper : 0x80 + n / 4096 % 64 ≤ upper) :
    Reads ⟨3, lower, upper, n / 262144⟩
      [byte (0x80 + n / 4096 % 64), byte (0x80 + n / 64 % 64), byte (0x80 + n % 64)] n := by
  have hpoint : n / 262144 * 64 + (0x80 + n / 4096 % 64 - 0x80) = n / 4096 := by omega
  have hstep : State.step ⟨3, lower, upper, n / 262144⟩ (byte (0x80 + n / 4096 % 64)) =
      (⟨2, 0x80, 0xBF, n / 4096⟩, []) := by
    rw [step_inner (by omega) (show 1 < 3 by omega) hlower hupper, hpoint]
    rfl
  exact (reads_two n (by omega) (by omega)).cons hstep (Nat.succ_ne_zero 1)

theorem run_encodePoint {n : Nat} (h : IsScalar n) : Reads .ready (encodePoint n) n := by
  have hn : n < 0xD800 ∨ (0xE000 ≤ n ∧ n < 0x110000) := h
  rw [encodePoint]
  by_cases h1 : n < 0x80
  · rw [if_pos h1]
    refine ⟨?_, fun k hk hlength => ?_⟩
    · rw [State.run_cons, step_lead (by omega), lead, if_pos (by omega)]
      rfl
    · rw [List.length_singleton] at hlength
      omega
  rw [if_neg h1]
  by_cases h2 : n < 0x800
  · rw [if_pos h2]
    have hlead : State.ready.step (byte (0xC0 + n / 64)) = (⟨1, 0x80, 0xBF, n / 64⟩, []) := by
      rw [step_lead (by omega), lead, if_neg (by omega), if_pos (by omega), Nat.add_sub_cancel_left]
    exact (reads_one n).cons hlead Nat.one_ne_zero
  rw [if_neg h2]
  by_cases h3 : n < 0x10000
  · rw [if_pos h3]
    have hlead : State.ready.step (byte (0xE0 + n / 4096)) =
        (⟨2, if 0xE0 + n / 4096 = 0xE0 then 0xA0 else 0x80,
          if 0xE0 + n / 4096 = 0xED then 0x9F else 0xBF, n / 4096⟩, []) := by
      rw [step_lead (by omega), lead, if_neg (by omega), if_neg (by omega), if_pos (by omega),
        Nat.add_sub_cancel_left]
    -- no shorter form, and no surrogate
    exact (reads_two n (by split <;> omega) (by split <;> omega)).cons hlead (by simp)
  · rw [if_neg h3]
    have hlead : State.ready.step (byte (0xF0 + n / 262144)) =
        (⟨3, if 0xF0 + n / 262144 = 0xF0 then 0x90 else 0x80,
          if 0xF0 + n / 262144 = 0xF4 then 0x8F else 0xBF, n / 262144⟩, []) := by
      rw [step_lead (by omega), lead, if_neg (by omega), if_neg (by omega), if_neg (by omega),
        if_pos (by omega), Nat.add_sub_cancel_left]
    exact (reads_three n (by split <;> omega) (by split <;> omega)).cons hlead (by simp)

/-! ## Texts -/

theorem points_cons_pair {c d : CodeUnit} (h : (isLeading c && isTrailing d) = true)
    (s : JsString) : points (c :: d :: s) = [c, d] :: points s := by
  rw [points, if_pos h]

theorem points_cons_single {c d : CodeUnit} (h : (isLeading c && isTrailing d) = false)
    (s : JsString) : points (c :: d :: s) = [c] :: points (d :: s) := by
  rw [points, if_neg (by rw [h]; exact Bool.false_ne_true)]

theorem flatten_points (s : JsString) : (points s).flatten = s := by
  induction s using points.induct with
  | case1 => rfl
  | case2 c => rfl
  | case3 c d s hpair ih => rw [points_cons_pair hpair, List.flatten_cons, ih]; rfl
  | case4 c d s hpair ih =>
    rw [points_cons_single (Bool.eq_false_iff.mpr hpair), List.flatten_cons, ih]
    rfl

theorem points_flatten_take (s : JsString) (k : Nat) :
    points ((points s).take k).flatten = (points s).take k := by
  induction s using points.induct generalizing k with
  | case1 => rw [points, List.take_nil, List.flatten_nil, points]
  | case2 c =>
    cases k with
    | zero => rfl
    | succ k => rw [points, List.take_succ_cons, List.take_nil]; rfl
  | case3 c d s hpair ih =>
    cases k with
    | zero => rfl
    | succ k =>
      rw [points_cons_pair hpair, List.take_succ_cons, List.flatten_cons, List.cons_append,
        List.cons_append, List.nil_append, points_cons_pair hpair, ih]
  | case4 c d s hpair ih =>
    have hpair := Bool.eq_false_iff.mpr hpair
    cases k with
    | zero => rfl
    | succ k =>
      rw [points_cons_single hpair, List.take_succ_cons, List.flatten_cons, List.cons_append,
        List.nil_append]
      -- what follows is nothing, or begins with the same code unit
      cases hrest : ((points (d :: s)).take k).flatten with
      | nil =>
        have hk := ih k
        rw [hrest] at hk
        rw [← hk]
        rfl
      | cons e rest =>
        have he : e = d := by
          have hwhole : ((points (d :: s)).take k).flatten ++ ((points (d :: s)).drop k).flatten =
              d :: s := by
            rw [← List.flatten_append, List.take_append_drop, flatten_points]
          rw [hrest] at hwhole
          exact (List.cons.inj hwhole).1
        subst he
        rw [points_cons_single hpair, ← hrest, ih]

theorem isLeading_iff {c : CodeUnit} :
    isLeading c = true ↔ 0xD800 ≤ c.toNat ∧ c.toNat ≤ 0xDBFF := by
  rw [isLeading, Bool.and_eq_true, decide_eq_true_eq, decide_eq_true_eq, UInt16.le_iff_toNat_le,
    UInt16.le_iff_toNat_le]
  rfl

theorem isTrailing_iff {c : CodeUnit} :
    isTrailing c = true ↔ 0xDC00 ≤ c.toNat ∧ c.toNat ≤ 0xDFFF := by
  rw [isTrailing, Bool.and_eq_true, decide_eq_true_eq, decide_eq_true_eq, UInt16.le_iff_toNat_le,
    UInt16.le_iff_toNat_le]
  rfl

/-- A code unit that is half of nothing. -/
def isSurrogate (c : CodeUnit) : Bool := isLeading c || isTrailing c

/-- One code point: a pair, or a single code unit. -/
inductive IsPoint : JsString → Prop
  | single (c : CodeUnit) : IsPoint [c]
  | pair {c d : CodeUnit} (hc : isLeading c = true) (hd : isTrailing d = true) : IsPoint [c, d]

theorem isPoint_of_mem {s p : JsString} (h : p ∈ points s) : IsPoint p := by
  induction s using points.induct with
  | case1 => cases h
  | case2 c =>
    rw [List.mem_singleton.mp h]
    exact .single c
  | case3 c d s hpair ih =>
    rw [points_cons_pair hpair] at h
    rcases List.mem_cons.mp h with rfl | h
    · rw [Bool.and_eq_true] at hpair
      exact .pair hpair.1 hpair.2
    · exact ih h
  | case4 c d s hpair ih =>
    rw [points_cons_single (Bool.eq_false_iff.mpr hpair)] at h
    rcases List.mem_cons.mp h with rfl | h
    · exact .single c
    · exact ih h

/-- What a code point is written and read back as: itself, or the replacement character. -/
def wellFormedPoint : JsString → JsString
  | [c] => if isSurrogate c then [replacement] else [c]
  | p => p

theorem scalar_surrogate {c : CodeUnit} (h : isSurrogate c = true) :
    scalar [c] = replacement.toNat := if_pos h

theorem scalar_single {c : CodeUnit} (h : isSurrogate c = false) : scalar [c] = c.toNat :=
  if_neg (ne_true_of_eq_false h)

theorem scalar_pair (c d : CodeUnit) :
    scalar [c, d] = 0x10000 + (c.toNat - 0xD800) * 0x400 + (d.toNat - 0xDC00) := rfl

theorem points_of_forall {s : JsString} (h : ∀ c ∈ s, isLeading c = false) :
    points s = s.map fun c => [c] := by
  induction s with
  | nil => rfl
  | cons c s ih =>
    cases s with
    | nil => rfl
    | cons d s =>
      have hpair : (isLeading c && isTrailing d) = false := by
        rw [h c List.mem_cons_self]
        rfl
      rw [points_cons_single hpair, ih fun e he => h e (List.mem_cons_of_mem _ he)]
      rfl

theorem isSurrogate_eq_false {c : CodeUnit} (h : isSurrogate c = false) :
    c.toNat < 0xD800 ∨ 0xE000 ≤ c.toNat := by
  rw [isSurrogate, Bool.or_eq_false_iff] at h
  have hlead := mt isLeading_iff.mpr (ne_true_of_eq_false h.1)
  have htrail := mt isTrailing_iff.mpr (ne_true_of_eq_false h.2)
  omega

theorem isScalar_scalar {p : JsString} (h : IsPoint p) : IsScalar (scalar p) := by
  cases h with
  | single c =>
    cases hc : isSurrogate c with
    | true =>
      have hnumber : replacement.toNat = 0xFFFD := rfl
      rw [scalar_surrogate hc, hnumber]
      exact .inr ⟨by omega, by omega⟩
    | false =>
      rw [scalar_single hc]
      have hlt := c.toNat_lt
      rcases isSurrogate_eq_false hc with hlow | hhigh
      · exact .inl hlow
      · exact .inr ⟨hhigh, by omega⟩
  | @pair c d hc hd =>
    have hlead := isLeading_iff.mp hc
    have htrail := isTrailing_iff.mp hd
    rw [scalar_pair]
    exact .inr ⟨by omega, by omega⟩

theorem utf16_toNat (c : CodeUnit) : utf16 c.toNat = [c] := by
  rw [utf16, if_pos c.toNat_lt, UInt16.ofNat_toNat]

theorem utf16_scalar {p : JsString} (h : IsPoint p) : utf16 (scalar p) = wellFormedPoint p := by
  cases h with
  | single c =>
    cases hc : isSurrogate c with
    | true =>
      rw [scalar_surrogate hc, utf16_toNat]
      exact (if_pos hc).symm
    | false =>
      rw [scalar_single hc, utf16_toNat]
      exact (if_neg (ne_true_of_eq_false hc)).symm
  | @pair c d hc hd =>
    have hlead := isLeading_iff.mp hc
    have htrail := isTrailing_iff.mp hd
    have hhigh : 0xD800 + (scalar [c, d] - 0x10000) / 0x400 = c.toNat := by
      rw [scalar_pair]
      omega
    have hlow : 0xDC00 + (scalar [c, d] - 0x10000) % 0x400 = d.toNat := by
      rw [scalar_pair]
      omega
    have hlarge : ¬ scalar [c, d] < 0x10000 := by
      rw [scalar_pair]
      omega
    rw [utf16, if_neg hlarge, hhigh, hlow, UInt16.ofNat_toNat, UInt16.ofNat_toNat]
    rfl

theorem run_ready_append {n : Nat} {bytes rest : List Byte} (h : Reads .ready bytes n) :
    State.ready.run (bytes ++ rest) =
      ((State.ready.run rest).1, n :: (State.ready.run rest).2) := by
  rw [State.run_append, h.whole]
  rfl

theorem encodePoints_cons (p : JsString) (ps : List JsString) :
    encodePoints (p :: ps) = encodePoint (scalar p) ++ encodePoints ps := rfl

/-- A text is read as it was written. -/
theorem run_encode {ps : List JsString} (h : ∀ p ∈ ps, IsPoint p) (rest : List Byte) :
    State.ready.run (encodePoints ps ++ rest) =
      ((State.ready.run rest).1, ps.map scalar ++ (State.ready.run rest).2) := by
  induction ps with
  | nil => rfl
  | cons p ps ih =>
    rw [encodePoints_cons, List.append_assoc,
      run_ready_append (run_encodePoint (isScalar_scalar (h p List.mem_cons_self))),
      ih fun q hq => h q (List.mem_cons_of_mem _ hq)]
    rfl

/-! ## A text cut by its bytes -/

/-- The code points in front whose bytes fit. -/
def fits (cap : Nat) : List JsString → List JsString
  | [] => []
  | p :: ps =>
    if (encodePoint (scalar p)).length ≤ cap then
      p :: fits (cap - (encodePoint (scalar p)).length) ps
    else []

theorem fits_initial (cap : Nat) (ps : List JsString) : fits cap ps <+: ps := by
  induction ps generalizing cap with
  | nil => exact List.prefix_rfl
  | cons p ps ih =>
    rw [fits]
    split
    · exact List.prefix_cons_inj p |>.mpr (ih _)
    · exact List.nil_prefix

theorem fits_length (cap : Nat) (ps : List JsString) :
    (encodePoints (fits cap ps)).length ≤ cap := by
  induction ps generalizing cap with
  | nil => exact Nat.zero_le _
  | cons p ps ih =>
    rw [fits]
    split
    · have hrest := ih (cap - (encodePoint (scalar p)).length)
      rw [encodePoints_cons, List.length_append]
      omega
    · exact Nat.zero_le _

/-- What fits is no longer. -/
theorem prefix_fits {cap k : Nat} {ps : List JsString}
    (h : (encodePoints (ps.take k)).length ≤ cap) : ps.take k <+: fits cap ps := by
  induction ps generalizing cap k with
  | nil =>
    rw [List.take_nil]
    exact List.nil_prefix
  | cons p ps ih =>
    cases k with
    | zero => exact List.nil_prefix
    | succ k =>
      rw [List.take_succ_cons, encodePoints_cons, List.length_append] at h
      rw [List.take_succ_cons, fits, if_pos (by omega)]
      exact List.prefix_cons_inj p |>.mpr (ih (by omega))

/-- The first bytes of a text are the code points that fit, and part of the next. -/
theorem take_encodePoints {ps : List JsString} (h : ∀ p ∈ ps, IsPoint p) (cap : Nat) :
    ∃ tail, (encodePoints ps).take cap = encodePoints (fits cap ps) ++ tail ∧
      (tail = [] ∨ Begins .ready tail) := by
  induction ps generalizing cap with
  | nil => exact ⟨[], List.take_nil, .inl rfl⟩
  | cons p ps ih =>
    rw [encodePoints_cons, fits]
    by_cases hp : (encodePoint (scalar p)).length ≤ cap
    · obtain ⟨tail, htake, htail⟩ := ih (fun q hq => h q (List.mem_cons_of_mem _ hq))
        (cap - (encodePoint (scalar p)).length)
      rw [if_pos hp, encodePoints_cons, List.take_append, List.take_of_length_le hp, htake,
        ← List.append_assoc]
      exact ⟨tail, rfl, htail⟩
    · rw [if_neg hp, List.take_append_of_le_length (by omega)]
      refine ⟨_, rfl, ?_⟩
      cases cap with
      | zero => exact .inl rfl
      | succ cap =>
        have hpoint := isScalar_scalar (h p List.mem_cons_self)
        exact .inr ((run_encodePoint hpoint).part _ (Nat.succ_pos cap) (by omega))

theorem finish_take {ps : List JsString} (h : ∀ p ∈ ps, IsPoint p) (cap : Nat) :
    ∃ rest, (rest = [] ∨ rest = [0xFFFD]) ∧ TextDecoder.fresh.finish ((encodePoints ps).take cap) =
      (withoutMark false ((fits cap ps).map scalar ++ rest)).flatMap utf16 := by
  obtain ⟨tail, htake, htail⟩ := take_encodePoints h cap
  have hfits : ∀ p ∈ fits cap ps, IsPoint p :=
    fun p hp => h p ((fits_initial cap ps).subset hp)
  rw [htake, TextDecoder.finish]
  show ∃ rest, _ ∧ (withoutMark false
    ((State.ready.run (encodePoints (fits cap ps) ++ tail)).2 ++
      (State.ready.run (encodePoints (fits cap ps) ++ tail)).1.flush)).flatMap utf16 = _
  rw [run_encode hfits]
  rcases htail with rfl | ⟨hout, hneeded⟩
  · refine ⟨[], .inl rfl, ?_⟩
    show (withoutMark false (_ ++ [] ++ [])).flatMap utf16 = _
    rw [List.append_nil, List.append_nil]
  · refine ⟨[0xFFFD], .inr rfl, ?_⟩
    rw [hout, List.append_nil, State.flush, if_neg hneeded]

theorem fits_append {cap : Nat} {ps : List JsString} (h : (encodePoints ps).length ≤ cap)
    (qs : List JsString) :
    fits cap (ps ++ qs) = ps ++ fits (cap - (encodePoints ps).length) qs := by
  induction ps generalizing cap with
  | nil => rfl
  | cons p ps ih =>
    rw [encodePoints_cons, List.length_append] at h
    rw [List.cons_append, fits, if_pos (by omega), ih (by omega), encodePoints_cons,
      List.length_append, Nat.sub_sub]
    rfl

/-- Every code unit of `text` is read back, and a cut is not taken for part of it. -/
structure Intact (text : JsString) : Prop where
  paired : ∀ c, [c] ∈ points text → isSurrogate c = false
  unmarked : text.head? ≠ some byteOrderMark
  ended : text.getLast? ≠ some replacement

/-- The longest prefix of `text`, in whole code points, that fits. -/
structure LongestPrefix (cap : Nat) (text part : JsString) : Prop where
  whole : ∃ k, part = ((points text).take k).flatten
  fits : (encode part).length ≤ cap
  longest : ∀ k, (encode ((points text).take k).flatten).length ≤ cap →
    ((points text).take k).flatten <+: part

theorem encode_take (text : JsString) (k : Nat) :
    encode ((points text).take k).flatten = encodePoints ((points text).take k) := by
  rw [encode, points_flatten_take]

theorem fits_eq_take (cap : Nat) (ps : List JsString) :
    fits cap ps = ps.take (fits cap ps).length := List.prefix_iff_eq_take.mp (fits_initial cap ps)

theorem points_fits (cap : Nat) (text : JsString) :
    points (fits cap (points text)).flatten = fits cap (points text) := by
  rw [fits_eq_take, points_flatten_take]

theorem longestPrefix_fits (cap : Nat) (text : JsString) :
    LongestPrefix cap text (fits cap (points text)).flatten where
  whole := ⟨(fits cap (points text)).length, congrArg List.flatten (fits_eq_take cap _)⟩
  fits := by
    rw [encode, points_fits]
    exact fits_length cap _
  longest k hk := by
    rw [encode_take] at hk
    obtain ⟨rest, hrest⟩ := prefix_fits hk
    rw [← hrest, List.flatten_append]
    exact List.prefix_append _ _

theorem LongestPrefix.eq {cap : Nat} {text part part' : JsString}
    (h : LongestPrefix cap text part) (h' : LongestPrefix cap text part') : part = part' := by
  obtain ⟨k, rfl⟩ := h.whole
  obtain ⟨k', rfl⟩ := h'.whole
  exact (h'.longest k h.fits).eq_of_length_le (h.longest k' h'.fits).length_le

/-- `text.replace(/\uFFFD+$/, "")`. -/
def dropReplacements (text : JsString) : JsString := text.rdropWhile (· == replacement)

theorem dropReplacements_append {text rest : JsString} (h : ∀ c ∈ rest, c = replacement) :
    dropReplacements (text ++ rest) = dropReplacements text := by
  induction rest using List.reverseRecOn with
  | nil => rw [List.append_nil]
  | append_singleton rest c ih =>
    have hc : (c == replacement) = true :=
      beq_iff_eq.mpr (h c (List.mem_append_right _ List.mem_cons_self))
    rw [← List.append_assoc, dropReplacements,
      List.rdropWhile_concat_pos (· == replacement) (text ++ rest) c hc]
    exact ih fun d hd => h d (List.mem_append_left _ hd)

theorem length_dropReplacements_le (text : JsString) :
    (dropReplacements text).length ≤ text.length := (List.rdropWhile_prefix _ _).length_le

theorem dropReplacements_eq_self {text : JsString} :
    dropReplacements text = text ↔ text.getLast? ≠ some replacement := by
  rw [dropReplacements, List.rdropWhile_eq_self_iff]
  constructor
  · intro h hlast
    obtain ⟨ys, rfl⟩ := List.getLast?_eq_some_iff.mp hlast
    exact h (List.concat_ne_nil _ _) (beq_iff_eq.mpr List.getLast_concat)
  · intro h hne hlast
    exact h ((List.getLast?_eq_some_getLast hne).trans (congrArg some (beq_iff_eq.mp hlast)))

/-! ### Reading back -/

theorem length_wellFormedPoint {p : JsString} (h : IsPoint p) :
    (wellFormedPoint p).length = p.length := by
  cases h with
  | single c =>
    rw [wellFormedPoint]
    split
    · rfl
    · rfl
  | pair hc hd => rfl

/-- The code points as they are read back. -/
def wellFormed (ps : List JsString) : JsString := ps.flatMap wellFormedPoint

theorem wellFormed_cons (p : JsString) (ps : List JsString) :
    wellFormed (p :: ps) = wellFormedPoint p ++ wellFormed ps := rfl

theorem utf16_map_scalar {ps : List JsString} (h : ∀ p ∈ ps, IsPoint p) :
    (ps.map scalar).flatMap utf16 = wellFormed ps := by
  induction ps with
  | nil => rfl
  | cons p ps ih =>
    rw [List.map_cons, List.flatMap_cons, utf16_scalar (h p List.mem_cons_self),
      ih fun q hq => h q (List.mem_cons_of_mem _ hq), wellFormed_cons]

theorem length_wellFormed {ps : List JsString} (h : ∀ p ∈ ps, IsPoint p) :
    (wellFormed ps).length = ps.flatten.length := by
  induction ps with
  | nil => rfl
  | cons p ps ih =>
    rw [wellFormed_cons, List.flatten_cons, List.length_append, List.length_append,
      length_wellFormedPoint (h p List.mem_cons_self),
      ih fun q hq => h q (List.mem_cons_of_mem _ hq)]

theorem wellFormed_eq_flatten {ps : List JsString} (h : ∀ p ∈ ps, IsPoint p) :
    wellFormed ps = ps.flatten ↔ ∀ p ∈ ps, wellFormedPoint p = p := by
  induction ps with
  | nil => exact iff_of_true rfl fun _ hp => absurd hp List.not_mem_nil
  | cons p ps ih =>
    have hlength := length_wellFormedPoint (h p List.mem_cons_self)
    rw [wellFormed_cons, List.flatten_cons, List.forall_mem_cons,
      ← ih fun q hq => h q (List.mem_cons_of_mem _ hq)]
    constructor
    · exact fun heq => List.append_inj heq hlength
    · rintro ⟨hp, hps⟩
      rw [hp, hps]

theorem wellFormedPoint_eq_self {p : JsString} (h : IsPoint p) :
    wellFormedPoint p = p ↔ ∀ c, p = [c] → isSurrogate c = false := by
  cases h with
  | single c =>
    cases hc : isSurrogate c with
    | true =>
      refine iff_of_false ?_ fun hall => ?_
      · rw [show wellFormedPoint [c] = [replacement] from if_pos hc]
        intro heq
        rw [← (List.cons.inj heq).1] at hc
        exact Bool.false_ne_true hc
      · exact Bool.false_ne_true ((hall c rfl).symm.trans hc)
    | false =>
      refine iff_of_true (if_neg (ne_true_of_eq_false hc)) fun d hd => ?_
      rw [← (List.cons.inj hd).1, hc]
  | pair hc hd => exact iff_of_true rfl fun _ hp => absurd hp (by simp)

theorem scalar_eq_mark {p : JsString} (h : IsPoint p) :
    scalar p = 0xFEFF ↔ p = [byteOrderMark] := by
  cases h with
  | single c =>
    rw [List.singleton_inj]
    cases hc : isSurrogate c with
    | true =>
      have hnumber : replacement.toNat = 0xFFFD := rfl
      rw [scalar_surrogate hc, hnumber]
      refine iff_of_false (by omega) fun heq => ?_
      rw [heq] at hc
      exact Bool.false_ne_true hc
    | false =>
      rw [scalar_single hc]
      exact ⟨fun hn => UInt16.toNat_inj.mp hn, congrArg _⟩
  | @pair c d hc hd =>
    rw [scalar_pair]
    exact iff_of_false (by omega) (by simp)

theorem intact_nil : Intact [] where
  paired _ h := absurd h List.not_mem_nil
  unmarked h := Option.some_ne_none _ h.symm
  ended h := Option.some_ne_none _ h.symm

/-- No code point is half of a pair. -/
theorem wellFormed_eq_iff {ps : List JsString} (h : ∀ p ∈ ps, IsPoint p) :
    wellFormed ps = ps.flatten ↔ ∀ c, [c] ∈ ps → isSurrogate c = false := by
  rw [wellFormed_eq_flatten h]
  constructor
  · intro hall c hc
    exact (wellFormedPoint_eq_self (h _ hc)).mp (hall _ hc) c rfl
  · intro hall p hp
    exact (wellFormedPoint_eq_self (h p hp)).mpr fun c hc => hall c (hc ▸ hp)

theorem head_eq_mark {p : JsString} {ps : List JsString} (h : IsPoint p)
    (hhead : (p :: ps).flatten.head? = some byteOrderMark) : p = [byteOrderMark] := by
  cases h with
  | single c => rw [Option.some.inj hhead]
  | pair hc hd =>
    rw [Option.some.inj hhead] at hc
    exact absurd hc (by decide)

theorem withoutMark_map {p : JsString} {ps : List JsString} (h : IsPoint p)
    (hmark : p ≠ [byteOrderMark]) (rest : List Nat) :
    withoutMark false ((p :: ps).map scalar ++ rest) = (p :: ps).map scalar ++ rest := by
  have hscalar : scalar p ≠ 0xFEFF := mt (scalar_eq_mark h).mp hmark
  exact if_neg (by simp [hscalar])

/-- A text of whole code points that no mark begins is read as it was written. -/
theorem finish_encode {text : JsString}
    (hpaired : ∀ c, [c] ∈ points text → isSurrogate c = false)
    (hmark : text.head? ≠ some byteOrderMark) : TextDecoder.fresh.finish (encode text) = text := by
  have hpoints : ∀ p ∈ points text, IsPoint p := fun _ => isPoint_of_mem
  have hread := run_encode hpoints []
  rw [List.append_nil] at hread
  have hkept : withoutMark false ((points text).map scalar ++ []) = (points text).map scalar := by
    rw [← flatten_points text] at hmark
    rw [List.append_nil]
    cases htext : points text with
    | nil => rfl
    | cons p ps =>
      rw [htext] at hmark hpoints
      have hp := hpoints p List.mem_cons_self
      have hall : withoutMark false ((p :: ps).map scalar ++ []) = (p :: ps).map scalar ++ [] :=
        withoutMark_map hp (fun heq => hmark (heq ▸ rfl)) []
      rwa [List.append_nil] at hall
  show (withoutMark false ((State.ready.run (encode text)).2 ++
    (State.ready.run (encode text)).1.flush)).flatMap utf16 = text
  rw [encode, hread]
  show (withoutMark false ((points text).map scalar ++ [] ++ [])).flatMap utf16 = text
  rw [List.append_nil, hkept, utf16_map_scalar hpoints, (wellFormed_eq_iff hpoints).mpr hpaired,
    flatten_points]

theorem dropReplacements_rest {text : JsString} {rest : List Nat}
    (h : rest = [] ∨ rest = [0xFFFD]) :
    dropReplacements (text ++ rest.flatMap utf16) = dropReplacements text := by
  refine dropReplacements_append fun c hc => ?_
  rcases h with rfl | rfl
  · exact absurd hc List.not_mem_nil
  · exact List.mem_singleton.mp hc

theorem dropReplacements_wellFormed {ps : List JsString} (h : ∀ p ∈ ps, IsPoint p) :
    dropReplacements (wellFormed ps) = ps.flatten ↔
      (∀ c, [c] ∈ ps → isSurrogate c = false) ∧ ps.flatten.getLast? ≠ some replacement := by
  rw [← wellFormed_eq_iff h, ← dropReplacements_eq_self]
  constructor
  · intro heq
    -- nothing was dropped, by the lengths
    have hsame : dropReplacements (wellFormed ps) = wellFormed ps := by
      refine (List.rdropWhile_prefix _ _).eq_of_length_le ?_
      show _ ≤ (dropReplacements (wellFormed ps)).length
      rw [heq, length_wellFormed h]
    rw [hsame] at heq
    exact ⟨heq, heq ▸ hsame⟩
  · rintro ⟨hwhole, hlast⟩
    rw [hwhole, hlast]

theorem read_iff {ps : List JsString} {rest : List Nat} (h : ∀ p ∈ ps, IsPoint p)
    (hpoints : points ps.flatten = ps) (hrest : rest = [] ∨ rest = [0xFFFD]) :
    dropReplacements ((withoutMark false (ps.map scalar ++ rest)).flatMap utf16) = ps.flatten ↔
      Intact ps.flatten := by
  cases ps with
  | nil =>
    refine iff_of_true ?_ intact_nil
    rcases hrest with rfl | rfl
    · rfl
    · have hempty : dropReplacements ([] ++ [0xFFFD].flatMap utf16) = dropReplacements [] :=
        dropReplacements_rest (.inr rfl)
      exact hempty
  | cons p ps =>
    have hp := h p List.mem_cons_self
    by_cases hmark : p = [byteOrderMark]
    · subst hmark
      have hps : ∀ q ∈ ps, IsPoint q := fun q hq => h q (List.mem_cons_of_mem _ hq)
      -- the mark is lost, and nothing makes up for it
      refine iff_of_false (fun heq => ?_) fun hintact => hintact.unmarked rfl
      have hread : dropReplacements ((ps.map scalar ++ rest).flatMap utf16) =
          ([byteOrderMark] :: ps).flatten := heq
      rw [List.flatMap_append, utf16_map_scalar hps, dropReplacements_rest hrest] at hread
      have hshort := length_dropReplacements_le (wellFormed ps)
      rw [hread, length_wellFormed hps, List.flatten_cons, List.length_append,
        List.length_singleton] at hshort
      omega
    · rw [withoutMark_map hp hmark, List.flatMap_append, utf16_map_scalar h,
        dropReplacements_rest hrest, dropReplacements_wellFormed h]
      constructor
      · rintro ⟨hpaired, hlast⟩
        exact ⟨by rwa [hpoints], fun hhead => hmark (head_eq_mark hp hhead), hlast⟩
      · intro hintact
        have hpaired := hintact.paired
        rw [hpoints] at hpaired
        exact ⟨hpaired, hintact.ended⟩

/-- The longest prefix that fits is left of the first bytes of a text if and only if it reads
back. -/
theorem decode_take_iff (cap : Nat) (text : JsString) :
    dropReplacements (TextDecoder.fresh.finish ((encode text).take cap)) =
      (fits cap (points text)).flatten ↔ Intact (fits cap (points text)).flatten := by
  obtain ⟨rest, hrest, hfinish⟩ := finish_take (fun _ => isPoint_of_mem) cap
  rw [encode, hfinish]
  exact read_iff (fun p hp => isPoint_of_mem ((fits_initial cap _).subset hp))
    (points_fits cap text) hrest

/-! ## Text without lone surrogates -/

/-- Every surrogate stands in a pair. -/
inductive Paired : JsString → Prop
  | nil : Paired []
  | single {c s} (hc : isSurrogate c = false) (h : Paired s) : Paired (c :: s)
  | pair {c d s} (hc : isLeading c = true) (hd : isTrailing d = true) (h : Paired s) :
      Paired (c :: d :: s)

namespace Paired

variable {s t : JsString}

theorem append (hs : Paired s) (ht : Paired t) : Paired (s ++ t) := by
  induction hs with
  | nil => exact ht
  | single hc _ ih => exact .single hc ih
  | pair hc hd _ ih => exact .pair hc hd ih

theorem of_forall (h : ∀ c ∈ s, isSurrogate c = false) : Paired s := by
  induction s with
  | nil => exact .nil
  | cons c s ih =>
    exact .single (h c List.mem_cons_self) (ih fun d hd => h d (List.mem_cons_of_mem _ hd))

theorem of_printable (h : s.all isPrintable = true) : Paired s := by
  refine of_forall fun c hc => ?_
  have hprint := List.all_eq_true.mp h c hc
  rw [Bool.eq_false_iff]
  intro hsurrogate
  rw [isPrintable, Bool.and_eq_true, decide_eq_true_eq, decide_eq_true_eq] at hprint
  rw [isSurrogate, Bool.or_eq_true, isLeading_iff, isTrailing_iff] at hsurrogate
  have hlow := UInt16.lt_iff_toNat_lt.mp hprint.2
  rw [show (0x7F : CodeUnit).toNat = 0x7F from rfl] at hlow
  omega

theorem points (h : Paired s) {c : CodeUnit} (hc : [c] ∈ Utf8.points s) :
    isSurrogate c = false := by
  induction h with
  | nil => cases hc
  | @single d s hd _ ih =>
    cases s with
    | nil =>
      cases List.mem_singleton.mp hc
      exact hd
    | cons e s =>
      have halone : (isLeading d && isTrailing e) = false := by
        rw [isSurrogate, Bool.or_eq_false_iff] at hd
        rw [hd.1]
        rfl
      rw [points_cons_single halone] at hc
      rcases List.mem_cons.mp hc with heq | hc
      · cases heq
        exact hd
      · exact ih hc
  | pair hc' hd _ ih =>
    rw [points_cons_pair (by rw [hc', hd]; rfl)] at hc
    rcases List.mem_cons.mp hc with heq | hc
    · cases heq
    · exact ih hc

theorem quoteUnit (c : CodeUnit) : Paired (Json.quoteUnit c) := by
  rcases quoteUnit_cases c with ⟨hall, -⟩ | ⟨heq, -⟩
  · exact of_printable (List.all_eq_true.mpr hall)
  · rw [heq]
    refine .single (Bool.eq_false_iff.mpr fun hsurrogate => ?_) .nil
    have hlength := congrArg List.length heq
    rw [isSurrogate, Bool.or_eq_true] at hsurrogate
    unfold Json.quoteUnit at hlength
    split_ifs at hlength with _ _ _ _ _ _ _ hescape
    all_goals try (simp only [unicodeEscape, List.length_cons, List.length_nil] at hlength; omega)
    simp only [Bool.or_eq_true, not_or] at hescape
    exact hsurrogate.elim hescape.1.2 hescape.2

theorem quote (s : JsString) : Paired (Json.quote s) := by
  refine .single rfl (append ?_ (.single rfl .nil))
  induction s using quoteBody.induct with
  | case1 => exact .nil
  | case2 c => exact quoteUnit c
  | case3 c d s hpair ih =>
    rw [quoteBody, if_pos hpair]
    rw [Bool.and_eq_true] at hpair
    exact .pair hpair.1 hpair.2 ih
  | case4 c d s hpair ih =>
    rw [quoteBody, if_neg hpair]
    exact append (quoteUnit c) ih

end Paired

end Utf8
