import InvisibleString.Lib.Checks
import InvisibleString.Lib.Json
import InvisibleString.Lib.Text
import Mathlib.Data.List.DropRight

/- # `Net.Literals` — addresses as text

`isForbiddenIpv4` reads a dotted quad with a regular expression and `parseIpv6` takes an IPv6
literal apart by hand: the zone is cut off, a dotted quad at the end becomes two hextets, and the
rest is split at `::` and at the colons.  Both see the text after `trim` and `toLowerCase`.

What the texts are and which number each of them denotes is said a second time, as a grammar of
strings in any letter case (`Quad`, `Literal6`), and the parsers are measured by it.

**Proved here.**

    the dotted quads are those of the grammar  (`quad?_lower_iff`)
    the IPv6 literals are those of the grammar  (`parseIpv6_lower_iff`)
-/

namespace InvisibleString.Net

open Checks Json

/-! ## Letter case -/

def colon : CodeUnit := unit ':'

def dot : CodeUnit := unit '.'

def percent : CodeUnit := unit '%'

def asciiLower (c : CodeUnit) : CodeUnit :=
  if unit 'A' ≤ c && c ≤ unit 'Z' then c + 32 else c

/-- `[0-9a-f]`. -/
def isHexDigit (c : CodeUnit) : Bool := isDigit c || (unit 'a' ≤ c && c ≤ unit 'f')

/-- The characters of literals. -/
def isLiteralUnit (c : CodeUnit) : Bool := (hexValue c).isSome || c == colon || c == dot

/-- What `toLowerCase` may make of a code unit.  Nothing outside of ASCII becomes a character of a
literal or the sign of a zone: the Kelvin sign becomes a `k`, the capital `I` with a dot an `i`
and a combining dot. -/
inductive Lowered : CodeUnit → JsString → Prop
  | ascii (c) (h : c < 0x80) : Lowered c [asciiLower c]
  | other (c piece) (h : 0x80 ≤ c) (hne : piece ≠ [])
      (hfree : ∀ u ∈ piece, isLiteralUnit u = false ∧ u ≠ percent) : Lowered c piece

/-- `toLowerCase`.  Beyond ASCII it is what the Unicode tables of the platform say. -/
structure LowerCasing where
  lower : JsString → JsString
  pieces : ∀ s, ∃ ps, List.Forall₂ Lowered s ps ∧ lower s = ps.flatten

/-! ## The parsers -/

/-- The four numbers of a dotted quad. -/
structure Octets where
  a : Nat
  b : Nat
  c : Nat
  d : Nat
  deriving DecidableEq

/-- `octets.some((o) => o > 255)` -/
def Octets.tooBig (o : Octets) : Bool :=
  decide (255 < o.a) || decide (255 < o.b) || decide (255 < o.c) || decide (255 < o.d)

/-- `\d{1,3}`, and what `Number` makes of it. -/
def decimalGroup? (s : JsString) : Option Nat :=
  if 1 ≤ s.length ∧ s.length ≤ 3 ∧ s.all isDigit = true then some (numberOf s) else none

/-- `/^(\d{1,3})\.(\d{1,3})\.(\d{1,3})\.(\d{1,3})$/` -/
def quad? (s : JsString) : Option Octets :=
  match s.splitOn dot with
  | [a, b, c, d] => do
    return ⟨← decimalGroup? a, ← decimalGroup? b, ← decimalGroup? c, ← decimalGroup? d⟩
  | _ => none

/-- `n.toString(16)`. -/
def hexText (n : Nat) : JsString :=
  if n = 0 then [unit '0'] else ((Nat.digits 16 n).map hexDigit).reverse

/-- `/^[0-9a-f]{1,4}$/`, and `parseInt` of it. -/
def parseHextet (part : JsString) : Option Nat :=
  if 1 ≤ part.length ∧ part.length ≤ 4 ∧ part.all isHexDigit = true then
    (part.mapM hexValue).map fun ds => Nat.ofDigits 16 ds.reverse
  else none

/-- `ip.slice(0, ip.indexOf("%"))`, where there is one. -/
def withoutZone (raw : JsString) : JsString := raw.takeWhile (· != percent)

/-- `ip.slice(0, ip.lastIndexOf(":") + 1)`; empty where there is no colon. -/
def beforeLast (ip : JsString) : JsString := ip.rdropWhile (· != colon)

/-- `ip.slice(ip.lastIndexOf(":") + 1)`. -/
def afterLast (ip : JsString) : JsString := ip.rtakeWhile (· != colon)

/-- A dotted quad behind the last colon is rewritten into hextets. -/
def embedQuad (ip : JsString) : Option JsString :=
  if beforeLast ip = [] ∨ dot ∉ afterLast ip then some ip
  else
    match quad? (afterLast ip) with
    | none => none
    | some o =>
      if o.tooBig then none
      else
        some (beforeLast ip ++ hexText (o.a <<< 8 ||| o.b) ++ [colon] ++
          hexText (o.c <<< 8 ||| o.d))

/-- `ip.split("::")`. -/
def splitPair : JsString → List JsString
  | [] => [[]]
  | [c] => [[c]]
  | c :: d :: s =>
    if c = colon ∧ d = colon then [] :: splitPair s
    else (splitPair (d :: s)).modifyHead (c :: ·)

/-- `half === "" ? [] : half.split(":")` -/
def groupsOf (half : JsString) : List JsString := if half = [] then [] else half.splitOn colon

/-- The groups around a `::` and the zeros it stands for, or all the groups. -/
def expandGroups (ip : JsString) : Option (List Nat) :=
  match splitPair ip with
  | [half] =>
    if (groupsOf half).length ≠ 8 then none
    else (groupsOf half).mapM parseHextet
  | [half, half'] =>
    let head := groupsOf half
    let tail := groupsOf half'
    -- the two colons stand for at least one group
    if 7 < head.length + tail.length then none
    else do
      let groups ← head.mapM parseHextet
      let groups' ← tail.mapM parseHextet
      return groups ++ List.replicate (8 - (head.length + tail.length)) 0 ++ groups'
  | _ => none

/-- Expand an IPv6 literal into its 8 hextets. -/
def parseIpv6 (raw : JsString) : Option (List Nat) :=
  (embedQuad (withoutZone raw)).bind expandGroups

/-! ## The grammar -/

/-- `parts` with a colon between each two. -/
abbrev joined (parts : List JsString) : JsString := [colon].intercalate parts

/-- A decimal group of a dotted quad. -/
structure Octet (s : JsString) (n : Nat) : Prop where
  length : 1 ≤ s.length ∧ s.length ≤ 3
  digits : ∀ c ∈ s, isDigit c = true
  value : n = numberOf s
  le : n ≤ 255

/-- Four decimal groups with dots between them. -/
inductive Quad : JsString → Octets → Prop
  | mk {s₁ s₂ s₃ s₄ o} (h₁ : Octet s₁ o.a) (h₂ : Octet s₂ o.b) (h₃ : Octet s₃ o.c)
      (h₄ : Octet s₄ o.d) : Quad ([dot].intercalate [s₁, s₂, s₃, s₄]) o

/-- One to four hexadecimal digits of any case. -/
structure Hextet (s : JsString) (n : Nat) : Prop where
  length : 1 ≤ s.length ∧ s.length ≤ 4
  value : ∃ ds, s.mapM hexValue = some ds ∧ n = Nat.ofDigits 16 ds.reverse

/-- Hextets, of which a dotted quad may stand for the last two. -/
inductive Groups : List JsString → List Nat → Prop
  | hextets {ps gs} (h : List.Forall₂ Hextet ps gs) : Groups ps gs
  | quad {ps gs q o} (h : List.Forall₂ Hextet ps gs) (hq : Quad q o) :
      Groups (ps ++ [q]) (gs ++ [o.a * 256 + o.b, o.c * 256 + o.d])

/-- Eight groups, or fewer and one `::` for the rest. -/
inductive Literal6 : JsString → List Nat → Prop
  | full {ps gs} (h : Groups ps gs) (hlen : gs.length = 8) : Literal6 (joined ps) gs
  | compressed {ps gs qs ts} (hl : List.Forall₂ Hextet ps gs) (hr : Groups qs ts)
      (hlen : gs.length + ts.length ≤ 7) :
      Literal6 (joined ps ++ [colon, colon] ++ joined qs)
        (gs ++ List.replicate (8 - (gs.length + ts.length)) 0 ++ ts)

/-! ## Splitting -/

theorem splitPair_ne_nil (s : JsString) : splitPair s ≠ [] := by
  induction s using splitPair.induct with
  | case1 => exact List.cons_ne_nil _ _
  | case2 c => exact List.cons_ne_nil _ _
  | case3 c d s h ih =>
    rw [splitPair, if_pos h]
    exact List.cons_ne_nil _ _
  | case4 c d s h ih =>
    obtain ⟨half, halves, heq⟩ := List.exists_cons_of_ne_nil ih
    rw [splitPair, if_neg h, heq]
    exact List.cons_ne_nil _ _

theorem splitPair_spec (s : JsString) : [colon, colon].intercalate (splitPair s) = s := by
  induction s using splitPair.induct with
  | case1 => rfl
  | case2 c => rfl
  | case3 c d s h ih =>
    rw [splitPair, if_pos h, List.intercalate_cons_of_ne_nil (splitPair_ne_nil s), ih, h.1, h.2]
    rfl
  | case4 c d s h ih =>
    obtain ⟨half, halves, heq⟩ := List.exists_cons_of_ne_nil (splitPair_ne_nil (d :: s))
    rw [splitPair, if_neg h, heq, List.modifyHead_cons, List.intercalate_cons_cons_left, ← heq, ih]

/-- A part without colons in front of something that is no colon, or behind a colon. -/
theorem splitPair_append {part rest : JsString} (hpart : colon ∉ part) (hne : part ≠ []) :
    splitPair (part ++ rest) = (splitPair rest).modifyHead (part ++ ·) := by
  induction part with
  | nil => exact absurd rfl hne
  | cons c part ih =>
    have hc : c ≠ colon := fun h => hpart (h ▸ List.mem_cons_self)
    have hcons : ∀ s, splitPair (c :: s) = (splitPair s).modifyHead (c :: ·) := by
      intro s
      cases s with
      | nil => rfl
      | cons d s => rw [splitPair, if_neg fun h => hc h.1]
    rw [List.cons_append, hcons]
    rcases eq_or_ne part [] with rfl | hne'
    · rfl
    · rw [ih (fun h => hpart (List.mem_cons_of_mem c h)) hne', List.modifyHead_modifyHead]
      rfl

theorem splitPair_joined {ps : List JsString} (hps : ∀ p ∈ ps, p ≠ [] ∧ colon ∉ p)
    (rest : JsString) :
    splitPair (joined ps ++ rest) = (splitPair rest).modifyHead (joined ps ++ ·) := by
  induction ps with
  | nil =>
    obtain ⟨half, halves, heq⟩ := List.exists_cons_of_ne_nil (splitPair_ne_nil rest)
    show splitPair rest = _
    rw [heq]
    rfl
  | cons p ps ih =>
    obtain ⟨hne, hcolon⟩ := hps p List.mem_cons_self
    have ih := ih fun p hp => hps p (List.mem_cons_of_mem _ hp)
    cases ps with
    | nil => rw [joined, List.intercalate_singleton, splitPair_append hcolon hne]
    | cons q ps =>
      obtain ⟨hq, hqcolon⟩ := hps q (List.mem_cons_of_mem _ List.mem_cons_self)
      -- the colon between the two is followed by no other
      have hsingle : splitPair (colon :: (joined (q :: ps) ++ rest)) =
          (splitPair (joined (q :: ps) ++ rest)).modifyHead (colon :: ·) := by
        obtain ⟨c, q, rfl⟩ := List.exists_cons_of_ne_nil hq
        have hc : c ≠ colon := fun h => hqcolon (h ▸ List.mem_cons_self)
        rw [joined, List.intercalate_cons_cons_left, List.cons_append, splitPair,
          if_neg fun h => hc h.2]
      rw [joined, List.intercalate_cons_cons, List.append_assoc, List.append_assoc,
        splitPair_append hcolon hne, List.singleton_append, hsingle, ih, List.modifyHead_modifyHead,
        List.modifyHead_modifyHead]
      congr 1
      funext half
      simp only [Function.comp_apply, List.append_assoc, List.cons_append, List.nil_append]

theorem joined_groupsOf (half : JsString) : joined (groupsOf half) = half := by
  rw [groupsOf]
  split
  · next h => rw [h, joined, List.intercalate_nil]
  · exact List.intercalate_splitOn colon

theorem joined_ne_nil {ps : List JsString} (hps : ∀ p ∈ ps, p ≠ [] ∧ colon ∉ p) (hne : ps ≠ []) :
    joined ps ≠ [] := by
  obtain ⟨p, ps, rfl⟩ := List.exists_cons_of_ne_nil hne
  obtain ⟨c, p, rfl⟩ := List.exists_cons_of_ne_nil (hps p List.mem_cons_self).1
  rw [joined, List.intercalate_cons_cons_left]
  exact List.cons_ne_nil _ _

theorem groupsOf_joined {ps : List JsString} (hps : ∀ p ∈ ps, p ≠ [] ∧ colon ∉ p) :
    groupsOf (joined ps) = ps := by
  rcases eq_or_ne ps [] with rfl | hne
  · rfl
  · rw [groupsOf, if_neg (joined_ne_nil hps hne)]
    exact List.splitOn_intercalate colon (fun p hp => (hps p hp).2) hne

theorem joined_snoc {ps : List JsString} (hne : ps ≠ []) (q : JsString) :
    joined (ps ++ [q]) = joined ps ++ colon :: q := by
  induction ps with
  | nil => exact absurd rfl hne
  | cons p ps ih =>
    rcases eq_or_ne ps [] with rfl | hne'
    · rw [List.cons_append, List.nil_append, joined, List.intercalate_cons_cons, joined,
        List.intercalate_singleton, List.intercalate_singleton, List.append_assoc]
      rfl
    · rw [List.cons_append, joined, List.intercalate_cons_of_ne_nil (by simp), joined,
        List.intercalate_cons_of_ne_nil hne', List.append_assoc]
      have ih : [colon].intercalate (ps ++ [q]) = [colon].intercalate ps ++ colon :: q := ih hne'
      rw [ih, List.append_assoc, List.append_assoc]

/-- The parts around a `::`; where one side is empty, the two colons leave an empty part there. -/
def padded (ps : List JsString) : List JsString := if ps = [] then [[]] else ps

theorem padded_ne_nil (ps : List JsString) : padded ps ≠ [] := by
  rw [padded]
  split
  · exact List.cons_ne_nil _ _
  · assumption

theorem joined_padded (ps : List JsString) : joined (padded ps) = joined ps := by
  rw [padded]
  split
  · next h =>
    rw [h]
    rfl
  · rfl

theorem joined_append {ps qs : List JsString} (hps : ps ≠ []) (hqs : qs ≠ []) :
    joined (ps ++ qs) = joined ps ++ colon :: joined qs := by
  induction qs generalizing ps with
  | nil => exact absurd rfl hqs
  | cons q qs ih =>
    rcases eq_or_ne qs [] with rfl | hne
    · rw [joined_snoc hps, joined, joined, List.intercalate_singleton]
    · rw [List.append_cons, ih (by simp) hne, joined_snoc hps, List.append_assoc, joined, joined,
        joined, List.intercalate_cons_of_ne_nil hne, List.cons_append, List.append_assoc]
      rfl

/-- A text with `::`, as parts between colons. -/
theorem joined_compressed (ps qs : List JsString) :
    joined ps ++ [colon, colon] ++ joined qs = joined (padded ps ++ [] :: padded qs) := by
  rw [joined_append (padded_ne_nil ps) (List.cons_ne_nil _ _), joined_padded]
  have hright : joined ([] :: padded qs) = colon :: joined qs := by
    rw [joined, List.intercalate_cons_of_ne_nil (padded_ne_nil qs)]
    show colon :: joined (padded qs) = _
    rw [joined_padded]
  rw [hright, List.append_assoc]
  rfl

/-! ## Characters -/

theorem forall_ascii {P : CodeUnit → Prop} (h : ∀ k < 128, P (UInt16.ofNat k)) {c : CodeUnit}
    (hc : c < 0x80) : P c := by
  have hlt : c.toNat < 128 := UInt16.lt_iff_toNat_lt.mp hc
  have hP := h c.toNat hlt
  rwa [UInt16.ofNat_toNat] at hP

theorem asciiLower_of_le {c : CodeUnit} (h : 0x80 ≤ c) : asciiLower c = c := by
  have hle : 128 ≤ c.toNat := UInt16.le_iff_toNat_le.mp h
  rw [asciiLower, if_neg]
  rw [Bool.and_eq_true, decide_eq_true_eq, decide_eq_true_eq]
  rintro ⟨-, hz⟩
  have hz : c.toNat ≤ 90 := UInt16.le_iff_toNat_le.mp hz
  omega

/-- A fact about a character and its lower-case form that holds where the two agree. -/
theorem forall_lower {P : CodeUnit → CodeUnit → Prop}
    (h : ∀ k < 128, P (UInt16.ofNat k) (asciiLower (UInt16.ofNat k)))
    (hsame : ∀ c, 0x80 ≤ c → P c c) (c : CodeUnit) : P c (asciiLower c) := by
  rcases UInt16.lt_or_le c 0x80 with hc | hc
  · exact forall_ascii (P := fun c => P c (asciiLower c)) h hc
  · rw [asciiLower_of_le hc]
    exact hsame c hc

theorem hexValue_asciiLower (c : CodeUnit) : hexValue (asciiLower c) = hexValue c :=
  forall_lower (P := fun c c' => hexValue c' = hexValue c) (by decide) (fun _ _ => rfl) c

theorem hexValue_of_le {c : CodeUnit} (h : 0x80 ≤ c) : hexValue c = none := by
  have hle : 128 ≤ c.toNat := UInt16.le_iff_toNat_le.mp h
  have hbound : ∀ {u : CodeUnit}, u.toNat < 128 → ¬ c ≤ u := fun hu hc => by
    have hc := UInt16.le_iff_toNat_le.mp hc
    omega
  rw [hexValue, if_neg fun h => hbound (by decide) h.2, if_neg fun h => hbound (by decide) h.2,
    if_neg fun h => hbound (by decide) h.2]

theorem isHexDigit_asciiLower {c : CodeUnit} {d : Nat} (h : hexValue c = some d) :
    isHexDigit (asciiLower c) = true := by
  refine forall_lower (P := fun c c' => (hexValue c).isSome = true → isHexDigit c' = true)
    (by decide) (fun c hc hsome => ?_) c (by rw [h]; rfl)
  rw [hexValue_of_le hc] at hsome
  cases hsome

theorem hexValue_lt {c : CodeUnit} {d : Nat} (h : hexValue c = some d) : d < 16 := by
  rcases UInt16.lt_or_le c 0x80 with hc | hc
  · exact forall_ascii (P := fun c => ∀ d, hexValue c = some d → d < 16) (by decide +kernel) hc d h
  · rw [hexValue_of_le hc] at h
    cases h

/-! ## Hextets -/

section

variable {s : JsString} {n : Nat}

theorem Hextet.ne_nil (h : Hextet s n) : s ≠ [] := by
  rintro rfl
  exact absurd h.length.1 (by decide)

theorem Hextet.hexValue_of_mem (h : Hextet s n) {c : CodeUnit} (hc : c ∈ s) :
    ∃ d, hexValue c = some d := by
  obtain ⟨ds, hds, -⟩ := h.value
  obtain ⟨d, -, hd⟩ := forall₂_mem_left (mapM_eq_some_iff.mp hds) hc
  exact ⟨d, hd⟩

theorem Hextet.not_mem (h : Hextet s n) {c : CodeUnit} (hc : hexValue c = none) : c ∉ s := by
  intro hmem
  obtain ⟨d, hd⟩ := h.hexValue_of_mem hmem
  rw [hc] at hd
  cases hd

theorem Hextet.part (h : Hextet s n) : s ≠ [] ∧ colon ∉ s := ⟨h.ne_nil, h.not_mem (by decide)⟩

theorem Hextet.lt (h : Hextet s n) : n < 65536 := by
  obtain ⟨ds, hds, rfl⟩ := h.value
  have hforall := mapM_eq_some_iff.mp hds
  have hlen : ds.length ≤ 4 := hforall.length_eq ▸ h.length.2
  have hdigit : ∀ d ∈ ds.reverse, d < 16 := by
    intro d hd
    obtain ⟨c, -, hc⟩ := forall₂_mem_right hforall (List.mem_reverse.mp hd)
    exact hexValue_lt hc
  calc Nat.ofDigits 16 ds.reverse < 16 ^ ds.reverse.length :=
        Nat.ofDigits_lt_base_pow_length (by decide) hdigit
    _ ≤ 16 ^ 4 := Nat.pow_le_pow_right (by decide) (by rwa [List.length_reverse])

theorem hextet_of_parseHextet (h : parseHextet s = some n) : Hextet s n := by
  rw [parseHextet] at h
  split at h
  · next hs =>
    obtain ⟨ds, hds, hn⟩ := Option.map_eq_some_iff.mp h
    exact ⟨⟨hs.1, hs.2.1⟩, ds, hds, hn.symm⟩
  · cases h

theorem mapM_hexValue_lower (s : JsString) :
    (s.map asciiLower).mapM hexValue = s.mapM hexValue := by
  rw [List.mapM_map]
  congr 1
  funext c
  exact hexValue_asciiLower c

theorem hextet_lower_iff : Hextet (s.map asciiLower) n ↔ Hextet s n := by
  constructor
  · rintro ⟨hlen, hvalue⟩
    rw [List.length_map] at hlen
    rw [mapM_hexValue_lower] at hvalue
    exact ⟨hlen, hvalue⟩
  · rintro ⟨hlen, hvalue⟩
    refine ⟨by rwa [List.length_map], ?_⟩
    rwa [mapM_hexValue_lower]

theorem parseHextet_lower (h : Hextet s n) : parseHextet (s.map asciiLower) = some n := by
  obtain ⟨ds, hds, hn⟩ := h.value
  rw [parseHextet, if_pos, mapM_hexValue_lower, hds, hn]
  · rfl
  · rw [List.length_map]
    refine ⟨h.length.1, h.length.2, List.all_eq_true.mpr fun c hc => ?_⟩
    obtain ⟨c, hmem, rfl⟩ := List.mem_map.mp hc
    obtain ⟨d, hd⟩ := h.hexValue_of_mem hmem
    exact isHexDigit_asciiLower hd

theorem hexDigit_spec : ∀ k < 16, hexValue (hexDigit k) = some k ∧
    asciiLower (hexDigit k) = hexDigit k := by decide

theorem hexText_lower (n : Nat) : (hexText n).map asciiLower = hexText n := by
  rw [hexText]
  split
  · rfl
  · rw [List.map_reverse, List.map_map]
    congr 1
    refine List.map_congr_left fun d hd => ?_
    exact (hexDigit_spec d (Nat.digits_lt_base (by decide) hd)).2

theorem hextet_hexText (hn : n < 65536) : Hextet (hexText n) n := by
  rcases Nat.eq_zero_or_pos n with rfl | hpos
  · exact ⟨by decide, [0], rfl, rfl⟩
  have htext : hexText n = ((Nat.digits 16 n).map hexDigit).reverse := if_neg (by omega)
  refine ⟨?_, (Nat.digits 16 n).reverse, ?_, ?_⟩
  · rw [htext, List.length_reverse, List.length_map]
    refine ⟨List.length_pos_iff.mpr (Nat.digits_ne_nil_iff_ne_zero.mpr (by omega)), ?_⟩
    exact (Nat.digits_length_le_iff (by decide) n).mpr hn
  · rw [htext, mapM_eq_some_iff, List.forall₂_reverse_iff, List.forall₂_map_left_iff]
    refine List.forall₂_same.mpr fun d hd => ?_
    exact (hexDigit_spec d (Nat.digits_lt_base (by decide) hd)).1
  · rw [List.reverse_reverse, Nat.ofDigits_digits]

end

/-! ## Dotted quads -/

/-- The characters of a dotted quad. -/
def isQuadUnit (c : CodeUnit) : Bool := isDigit c || c == dot

theorem asciiLower_of_quad {c : CodeUnit} (h : isQuadUnit (asciiLower c) = true) :
    asciiLower c = c :=
  forall_lower (P := fun c c' => isQuadUnit c' = true → c' = c) (by decide) (fun _ _ _ => rfl) c h

theorem octet_iff {s : JsString} {n : Nat} : Octet s n ↔ decimalGroup? s = some n ∧ n ≤ 255 := by
  rw [decimalGroup?]
  constructor
  · rintro ⟨hlen, hdigits, hvalue, hle⟩
    rw [if_pos ⟨hlen.1, hlen.2, List.all_eq_true.mpr hdigits⟩, hvalue]
    exact ⟨rfl, hvalue ▸ hle⟩
  · rintro ⟨h, hle⟩
    split at h
    · next hs =>
      cases h
      exact ⟨⟨hs.1, hs.2.1⟩, List.all_eq_true.mp hs.2.2, rfl, hle⟩
    · cases h

theorem Octets.tooBig_iff {o : Octets} :
    o.tooBig = false ↔ o.a ≤ 255 ∧ o.b ≤ 255 ∧ o.c ≤ 255 ∧ o.d ≤ 255 := by
  simp only [Octets.tooBig, Bool.or_eq_false_iff, decide_eq_false_iff_not, Nat.not_lt, and_assoc]

theorem Octet.dot_not_mem {s : JsString} {n : Nat} (h : Octet s n) : dot ∉ s := by
  intro hdot
  have hdigit := h.digits dot hdot
  revert hdigit
  decide

section

variable {s : JsString} {o : Octets}

theorem quad_iff : Quad s o ↔ quad? s = some o ∧ o.tooBig = false := by
  constructor
  · intro h
    obtain @⟨s₁, s₂, s₃, s₄, _, h₁, h₂, h₃, h₄⟩ := h
    have hdots : ∀ part ∈ [s₁, s₂, s₃, s₄], dot ∉ part := by
      simpa using ⟨h₁.dot_not_mem, h₂.dot_not_mem, h₃.dot_not_mem, h₄.dot_not_mem⟩
    have hsplit := List.splitOn_intercalate dot hdots (List.cons_ne_nil _ _)
    refine ⟨?_, Octets.tooBig_iff.mpr ⟨h₁.le, h₂.le, h₃.le, h₄.le⟩⟩
    simp only [quad?, hsplit, (octet_iff.mp h₁).1, (octet_iff.mp h₂).1, (octet_iff.mp h₃).1,
      (octet_iff.mp h₄).1]
    rfl
  · rintro ⟨h, hbig⟩
    obtain ⟨ha, hb, hc, hd⟩ := Octets.tooBig_iff.mp hbig
    rw [quad?] at h
    split at h
    · next s₁ s₂ s₃ s₄ hsplit =>
      obtain ⟨a, h₁, h⟩ := Option.bind_eq_some_iff.mp h
      obtain ⟨b, h₂, h⟩ := Option.bind_eq_some_iff.mp h
      obtain ⟨c, h₃, h⟩ := Option.bind_eq_some_iff.mp h
      obtain ⟨d, h₄, h⟩ := Option.bind_eq_some_iff.mp h
      cases h
      have hs : s = [dot].intercalate [s₁, s₂, s₃, s₄] := by
        rw [← hsplit, List.intercalate_splitOn]
      rw [hs]
      exact ⟨octet_iff.mpr ⟨h₁, ha⟩, octet_iff.mpr ⟨h₂, hb⟩, octet_iff.mpr ⟨h₃, hc⟩,
        octet_iff.mpr ⟨h₄, hd⟩⟩
    · cases h

theorem Quad.isQuadUnit_of_mem (h : Quad s o) {c : CodeUnit} (hc : c ∈ s) :
    isQuadUnit c = true := by
  obtain ⟨h₁, h₂, h₃, h₄⟩ := h
  have hdigit : ∀ {p n}, Octet p n → c ∈ p → isQuadUnit c = true := fun hp hmem => by
    rw [isQuadUnit, hp.digits c hmem, Bool.true_or]
  simp only [List.intercalate_cons_cons, List.intercalate_singleton, List.mem_append,
    List.mem_singleton] at hc
  rcases hc with (hc | rfl) | (hc | rfl) | (hc | rfl) | hc
  · exact hdigit h₁ hc
  · rfl
  · exact hdigit h₂ hc
  · rfl
  · exact hdigit h₃ hc
  · rfl
  · exact hdigit h₄ hc

theorem Quad.dot_mem (h : Quad s o) : dot ∈ s := by
  obtain ⟨h₁, h₂, h₃, h₄⟩ := h
  rw [List.intercalate_cons_cons]
  exact List.mem_append_left _ (List.mem_append_right _ List.mem_cons_self)

theorem Quad.not_mem (h : Quad s o) {c : CodeUnit} (hc : isQuadUnit c = false) : c ∉ s :=
  fun hmem => by
    rw [h.isQuadUnit_of_mem hmem] at hc
    cases hc

theorem map_lower_of_quad (h : ∀ c ∈ s, isQuadUnit (asciiLower c) = true) :
    s.map asciiLower = s := by
  refine (List.map_congr_left fun c hc => ?_).trans (List.map_id s)
  exact asciiLower_of_quad (h c hc)

theorem quad_lower_iff : Quad (s.map asciiLower) o ↔ Quad s o := by
  constructor
  · intro h
    have hsame := map_lower_of_quad fun c hc => h.isQuadUnit_of_mem (List.mem_map_of_mem hc)
    rwa [hsame] at h
  · intro h
    rwa [map_lower_of_quad fun c hc => ?_]
    have hunit := h.isQuadUnit_of_mem hc
    exact forall_lower (P := fun c c' => isQuadUnit c = true → isQuadUnit c' = true) (by decide)
      (fun _ _ hc => hc) c hunit

/-- The two hextets a dotted quad stands for. -/
theorem quad_hextets (h : Quad s o) : Hextet (hexText (o.a <<< 8 ||| o.b)) (o.a * 256 + o.b) ∧
    Hextet (hexText (o.c <<< 8 ||| o.d)) (o.c * 256 + o.d) := by
  obtain ⟨ha, hb, hc, hd⟩ := Octets.tooBig_iff.mp (quad_iff.mp h).2
  have hor : ∀ {x y : Nat}, x ≤ 255 → y ≤ 255 →
      Hextet (hexText (x <<< 8 ||| y)) (x * 256 + y) := fun {x y} hx hy => by
    have heq : x <<< 8 ||| y = x * 256 + y := by
      rw [← Nat.shiftLeft_add_eq_or_of_lt (i := 8) (by omega), Nat.shiftLeft_eq]
    rw [heq]
    exact hextet_hexText (by omega)
  exact ⟨hor ha hb, hor hc hd⟩

end

/-! ## Literals without a quad -/

/-- A literal of hextets only. -/
inductive Plain6 : JsString → List Nat → Prop
  | full {ps gs} (h : List.Forall₂ Hextet ps gs) (hlen : gs.length = 8) : Plain6 (joined ps) gs
  | compressed {ps gs qs ts} (hl : List.Forall₂ Hextet ps gs) (hr : List.Forall₂ Hextet qs ts)
      (hlen : gs.length + ts.length ≤ 7) :
      Plain6 (joined ps ++ [colon, colon] ++ joined qs)
        (gs ++ List.replicate (8 - (gs.length + ts.length)) 0 ++ ts)

theorem Plain6.literal {s : JsString} {gs : List Nat} (h : Plain6 s gs) : Literal6 s gs := by
  cases h with
  | full h hlen => exact .full (.hextets h) hlen
  | compressed hl hr hlen => exact .compressed hl (.hextets hr) hlen

theorem parts_of_hextets {ps : List JsString} {gs : List Nat} (h : List.Forall₂ Hextet ps gs) :
    ∀ p ∈ ps, p ≠ [] ∧ colon ∉ p := by
  intro p hp
  obtain ⟨g, -, hg⟩ := forall₂_mem_left h hp
  exact hg.part

theorem hextets_of_mapM {ps : List JsString} {gs : List Nat} (h : ps.mapM parseHextet = some gs) :
    List.Forall₂ Hextet ps gs :=
  (mapM_eq_some_iff.mp h).imp fun _ _ hp => hextet_of_parseHextet hp

/-- The parts in lower case. -/
def lowered (ps : List JsString) : List JsString := ps.map (List.map asciiLower)

theorem mapM_lowered {ps : List JsString} {gs : List Nat} (h : List.Forall₂ Hextet ps gs) :
    (lowered ps).mapM parseHextet = some gs := by
  rw [mapM_eq_some_iff, lowered, List.forall₂_map_left_iff]
  exact h.imp fun _ _ hp => parseHextet_lower hp

theorem hextets_lowered_iff {ps : List JsString} {gs : List Nat} :
    List.Forall₂ Hextet (lowered ps) gs ↔ List.Forall₂ Hextet ps gs := by
  rw [lowered, List.forall₂_map_left_iff]
  constructor
  · exact fun h => h.imp fun _ _ hp => hextet_lower_iff.mp hp
  · exact fun h => h.imp fun _ _ hp => hextet_lower_iff.mpr hp

theorem map_joined (ps : List JsString) : (joined ps).map asciiLower = joined (lowered ps) := by
  induction ps with
  | nil => rfl
  | cons p ps ih =>
    rcases eq_or_ne ps [] with rfl | hne
    · rw [joined, lowered, List.map_cons, List.map_nil, List.intercalate_singleton, joined,
        List.intercalate_singleton]
    · have ih : ([colon].intercalate ps).map asciiLower =
          [colon].intercalate (ps.map (List.map asciiLower)) := ih
      rw [joined, List.intercalate_cons_of_ne_nil hne, List.map_append, List.map_append, ih]
      show _ = [colon].intercalate (p.map asciiLower :: ps.map (List.map asciiLower))
      rw [List.intercalate_cons_of_ne_nil (by simpa using hne)]
      rfl

theorem expandGroups_sound {ip : JsString} {gs : List Nat} (h : expandGroups ip = some gs) :
    Plain6 ip gs := by
  have hspec := splitPair_spec ip
  rw [expandGroups] at h
  split at h
  · next half hsplit =>
    split at h
    · cases h
    · next hlen =>
      rw [hsplit, List.intercalate_singleton] at hspec
      have hgroups := hextets_of_mapM h
      rw [← hspec, ← joined_groupsOf half]
      refine .full hgroups ?_
      rw [← hgroups.length_eq]
      exact Decidable.of_not_not hlen
  · next half half' hsplit =>
    dsimp only at h
    split at h
    · cases h
    · next hlen =>
      obtain ⟨gs, hl, h⟩ := Option.bind_eq_some_iff.mp h
      obtain ⟨ts, hr, h⟩ := Option.bind_eq_some_iff.mp h
      cases h
      have hl := hextets_of_mapM hl
      have hr := hextets_of_mapM hr
      rw [hsplit, List.intercalate_cons_cons, List.intercalate_singleton] at hspec
      rw [← hspec, hl.length_eq, hr.length_eq]
      have hcompressed := Plain6.compressed hl hr (by
        rw [← hl.length_eq, ← hr.length_eq]
        omega)
      rwa [joined_groupsOf, joined_groupsOf] at hcompressed
  · cases h

theorem expandGroups_lower {ip : JsString} {gs : List Nat} (h : Plain6 ip gs) :
    expandGroups (ip.map asciiLower) = some gs := by
  cases h with
  | @full ps gs hps hlen =>
    have hparts := parts_of_hextets (hextets_lowered_iff.mpr hps)
    have hsplit := splitPair_joined hparts []
    have hlen' : (lowered ps).length = 8 := by rw [lowered, List.length_map, hps.length_eq, hlen]
    rw [List.append_nil] at hsplit
    rw [map_joined, expandGroups, hsplit]
    simp only [splitPair, List.modifyHead_cons, List.append_nil, groupsOf_joined hparts]
    rw [if_neg fun hne => hne hlen']
    exact mapM_lowered hps
  | @compressed ps gs qs ts hl hr hlen =>
    have hleft := parts_of_hextets (hextets_lowered_iff.mpr hl)
    have hright := parts_of_hextets (hextets_lowered_iff.mpr hr)
    have htail : splitPair (joined (lowered qs)) = [joined (lowered qs)] := by
      have hsplit := splitPair_joined hright []
      rw [List.append_nil] at hsplit
      rw [hsplit]
      simp only [splitPair, List.modifyHead_cons, List.append_nil]
    have hsplit : splitPair ((joined ps ++ [colon, colon] ++ joined qs).map asciiLower) =
        [joined (lowered ps), joined (lowered qs)] := by
      rw [List.map_append, List.map_append, map_joined, map_joined, List.append_assoc,
        splitPair_joined hleft]
      have hpair : splitPair ([colon, colon].map asciiLower ++ joined (lowered qs)) =
          [] :: splitPair (joined (lowered qs)) := rfl
      rw [hpair, htail, List.modifyHead_cons, List.append_nil]
    have hlengths : (lowered ps).length = gs.length ∧ (lowered qs).length = ts.length := by
      rw [lowered, lowered, List.length_map, List.length_map]
      exact ⟨hl.length_eq, hr.length_eq⟩
    rw [expandGroups, hsplit]
    simp only [groupsOf_joined hleft, groupsOf_joined hright, hlengths.1, hlengths.2]
    rw [if_neg (by omega), mapM_lowered hl, mapM_lowered hr]
    rfl

/-! ## The last colon -/

section

variable {p q : JsString}

theorem beforeLast_append (hq : colon ∉ q) : beforeLast (p ++ colon :: q) = p ++ [colon] := by
  have hall : ∀ c ∈ q.reverse, (c != colon) = true := fun c hc => by
    rw [bne_iff_ne]
    rintro rfl
    exact hq (List.mem_reverse.mp hc)
  rw [beforeLast, List.rdropWhile, List.reverse_append, List.reverse_cons, List.append_assoc,
    List.dropWhile_append_of_pos hall, List.singleton_append, List.dropWhile_cons_of_neg (by simp),
    List.reverse_cons, List.reverse_reverse]

theorem afterLast_append (hq : colon ∉ q) : afterLast (p ++ colon :: q) = q := by
  have hall : ∀ c ∈ q.reverse, (c != colon) = true := fun c hc => by
    rw [bne_iff_ne]
    rintro rfl
    exact hq (List.mem_reverse.mp hc)
  rw [afterLast, List.rtakeWhile, List.reverse_append, List.reverse_cons, List.append_assoc,
    List.takeWhile_append_of_pos hall, List.singleton_append, List.takeWhile_cons_of_neg (by simp),
    List.append_nil, List.reverse_reverse]

theorem beforeLast_of_not_mem (hp : colon ∉ p) : beforeLast p = [] := by
  refine List.rdropWhile_eq_nil_iff.mpr fun c hc => ?_
  rw [bne_iff_ne]
  rintro rfl
  exact hp hc

theorem exists_last_colon (hp : colon ∈ p) : ∃ p' q, p = p' ++ colon :: q ∧ colon ∉ q := by
  obtain ⟨as, bs, heq, has⟩ := List.eq_append_cons_of_mem (List.mem_reverse.mpr hp)
  refine ⟨bs.reverse, as.reverse, ?_, fun h => has (List.mem_reverse.mp h)⟩
  rw [← List.reverse_reverse p, heq, List.reverse_append, List.reverse_cons, List.append_assoc]
  rfl

theorem embedQuad_of_no_dot (hp : dot ∉ p) : embedQuad p = some p := by
  rw [embedQuad, if_pos]
  exact .inr fun h => hp ((List.rtakeWhile_suffix _ _).mem h)

/-- The text with the hextets in the place of the quad. -/
def withHextets (p : JsString) (o : Octets) : JsString :=
  p ++ colon :: (hexText (o.a <<< 8 ||| o.b) ++ colon :: hexText (o.c <<< 8 ||| o.d))

theorem embedQuad_quad {o : Octets} (hq : Quad q o) :
    embedQuad (p ++ colon :: q) = some (withHextets p o) := by
  have hcolon : colon ∉ q := hq.not_mem (by decide)
  obtain ⟨hquad, hbig⟩ := quad_iff.mp hq
  rw [embedQuad, beforeLast_append hcolon, afterLast_append hcolon, if_neg, hquad]
  · simp only [hbig, Bool.false_eq_true, if_false]
    rw [withHextets, List.append_assoc, List.append_assoc, List.append_assoc]
    rfl
  · rintro (h | h)
    · exact absurd h (by simp)
    · exact h hq.dot_mem

/-- What the rewriting can be. -/
theorem embedQuad_cases {ip ip' : JsString} (h : embedQuad ip = some ip') :
    ip' = ip ∨ ∃ p q o, ip = p ++ colon :: q ∧ Quad q o ∧ ip' = withHextets p o := by
  by_cases hmem : colon ∈ ip
  · obtain ⟨p, q, rfl, hq⟩ := exists_last_colon hmem
    by_cases hdot : dot ∈ q
    · right
      rw [embedQuad, beforeLast_append hq, afterLast_append hq, if_neg] at h
      · cases hquad : quad? q with
        | none =>
          rw [hquad] at h
          cases h
        | some o =>
          rw [hquad] at h
          by_cases hbig : o.tooBig = true
          · simp only [hbig, if_true] at h
            cases h
          · have hq' : Quad q o := quad_iff.mpr ⟨hquad, by simpa using hbig⟩
            refine ⟨p, q, o, rfl, hq', ?_⟩
            simp only [hbig, Bool.false_eq_true, if_false] at h
            cases h
            rw [withHextets, List.append_assoc, List.append_assoc, List.append_assoc]
            rfl
      · rintro (h | h)
        · exact absurd h (by simp)
        · exact h hdot
    · left
      rw [embedQuad, if_pos (.inr (by rwa [afterLast_append hq]))] at h
      cases h
      rfl
  · left
    rw [embedQuad, if_pos (.inl (beforeLast_of_not_mem hmem))] at h
    cases h
    rfl

end

/-! ## Quads and hextets -/

theorem Hextet.unique {s : JsString} {m n : Nat} (h : Hextet s m) (h' : Hextet s n) : m = n := by
  obtain ⟨ds, hds, rfl⟩ := h.value
  obtain ⟨ds', hds', rfl⟩ := h'.value
  rw [hds] at hds'
  cases hds'
  rfl

theorem splitOn_joined {ps : List JsString} (hps : ∀ p ∈ ps, colon ∉ p) (hne : ps ≠ []) :
    (joined ps).splitOn colon = ps :=
  List.splitOn_intercalate colon hps hne

theorem colon_not_mem_padded {ps : List JsString} (hps : ∀ p ∈ ps, p ≠ [] ∧ colon ∉ p) :
    ∀ p ∈ padded ps, colon ∉ p := by
  intro p hp
  rw [padded] at hp
  split at hp
  · rw [List.mem_singleton.mp hp]
    exact List.not_mem_nil
  · exact (hps p hp).2

theorem hextets_behind {S P qs : List JsString} {x y : JsString} (hx : x ≠ []) (hy : y ≠ [])
    (h : S ++ [x, y] = P ++ [] :: padded qs) :
    ∃ qs₀, qs = qs₀ ++ [x, y] ∧ S = P ++ [] :: qs₀ := by
  have hy' : (S ++ [x]) ++ [y] = P ++ [] :: padded qs := by rwa [List.append_assoc]
  rcases List.eq_nil_or_concat qs with rfl | ⟨qs₁, y', rfl⟩
  · have hnil : (S ++ [x]) ++ [y] = (P ++ [[]]) ++ [[]] := by rwa [List.append_assoc P]
    exact absurd (List.singleton_inj.mp (List.append_inj' hnil rfl).2) hy
  have hpadded : padded (qs₁.concat y') = qs₁ ++ [y'] := by
    rw [padded, if_neg (by simp), List.concat_eq_append]
  rw [hpadded, ← List.cons_append, ← List.append_assoc] at hy'
  obtain ⟨hx', hlast⟩ := List.append_inj' hy' rfl
  rcases List.eq_nil_or_concat qs₁ with rfl | ⟨qs₀, x', rfl⟩
  · exact absurd (List.singleton_inj.mp (List.append_inj' hx' rfl).2) hx
  rw [List.concat_eq_append, ← List.cons_append, ← List.append_assoc] at hx'
  obtain ⟨hS, hlast'⟩ := List.append_inj' hx' rfl
  refine ⟨qs₀, ?_, hS⟩
  rw [List.singleton_inj.mp hlast, List.singleton_inj.mp hlast', List.concat_eq_append,
    List.concat_eq_append, List.append_assoc]
  rfl

theorem splitOn_withHextets {p q : JsString} {o : Octets} (hq : Quad q o) :
    (withHextets p o).splitOn colon =
      p.splitOn colon ++ [hexText (o.a <<< 8 ||| o.b), hexText (o.c <<< 8 ||| o.d)] := by
  obtain ⟨hhi, hlo⟩ := quad_hextets hq
  rw [withHextets, List.splitOn_append_cons_self, List.splitOn_append_cons_self,
    List.splitOn_eq_singleton hhi.part.2, List.splitOn_eq_singleton hlo.part.2]
  rfl

theorem joined_splitOn_snoc (p q : JsString) :
    joined (p.splitOn colon ++ [q]) = p ++ colon :: q := by
  rw [joined_snoc (List.splitOn_ne_nil colon p)]
  exact congrArg (· ++ colon :: q) (List.intercalate_splitOn colon)

/-- With the quad in the place of its hextets the text denotes what it denoted with them. -/
theorem literal6_of_withHextets {p q : JsString} {o : Octets} {gs : List Nat} (hq : Quad q o)
    (h : Plain6 (withHextets p o) gs) : Literal6 (p ++ colon :: q) gs := by
  obtain ⟨hhi, hlo⟩ := quad_hextets hq
  have hsplit := splitOn_withHextets (p := p) hq
  -- the numbers of the last two hextets
  have hpair : ∀ {ts : List Nat}, List.Forall₂ Hextet
      [hexText (o.a <<< 8 ||| o.b), hexText (o.c <<< 8 ||| o.d)] ts →
      ts = [o.a * 256 + o.b, o.c * 256 + o.d] := by
    intro ts hts
    cases hts with
    | cons hm hts =>
      cases hts with
      | cons hn hts =>
        cases hts
        rw [hm.unique hhi, hn.unique hlo]
  generalize htext : withHextets p o = text at h hsplit
  cases h with
  | @full ps gs hps hlen =>
    have hne : ps ≠ [] := by
      rintro rfl
      cases hps
      cases hlen
    rw [splitOn_joined (fun p hp => (parts_of_hextets hps p hp).2) hne] at hsplit
    rw [hsplit] at hps
    obtain ⟨gs, ts, rfl, hps, hts⟩ := forall₂_append_left hps
    rw [hpair hts] at hlen ⊢
    rw [← joined_splitOn_snoc]
    exact .full (.quad hps hq) hlen
  | @compressed ps gs qs ts hl hr hlen =>
    have hparts : ∀ r ∈ padded ps ++ [] :: padded qs, colon ∉ r := by
      intro r hr'
      rcases List.mem_append.mp hr' with hr' | hr'
      · exact colon_not_mem_padded (parts_of_hextets hl) r hr'
      rcases List.mem_cons.mp hr' with rfl | hr'
      · exact List.not_mem_nil
      · exact colon_not_mem_padded (parts_of_hextets hr) r hr'
    rw [joined_compressed, splitOn_joined hparts (by simp)] at hsplit
    obtain ⟨qs₀, rfl, hS⟩ := hextets_behind hhi.ne_nil hlo.ne_nil hsplit.symm
    obtain ⟨ts₀, ts', rfl, hqs, hts⟩ := forall₂_append_left hr
    rw [hpair hts] at hlen ⊢
    have hpadded : ∀ r : JsString, padded (qs₀ ++ [r]) = qs₀ ++ [r] := fun r => by
      rw [padded, if_neg (by simp)]
    have htext : p ++ colon :: q = joined ps ++ [colon, colon] ++ joined (qs₀ ++ [q]) := by
      rw [joined_compressed, hpadded, ← joined_splitOn_snoc, hS, List.append_assoc]
      rfl
    rw [htext]
    exact .compressed hl (.quad hqs hq) hlen

theorem dot_not_mem_joined {ps : List JsString} {gs : List Nat} (h : List.Forall₂ Hextet ps gs) :
    dot ∉ joined ps := by
  induction h with
  | nil => exact List.not_mem_nil
  | @cons p g ps gs hp hps ih =>
    have hdot : dot ∉ p := hp.not_mem (by decide)
    rcases eq_or_ne ps [] with rfl | hne
    · rwa [joined, List.intercalate_singleton]
    · rw [joined, List.intercalate_cons_of_ne_nil hne, List.mem_append, List.mem_append]
      rintro ((h | h) | h)
      · exact hdot h
      · exact absurd (List.mem_singleton.mp h) (by decide)
      · exact ih h

theorem dot_not_mem_lower {s : JsString} (h : dot ∉ s) : dot ∉ s.map asciiLower := by
  intro hmem
  obtain ⟨c, hc, hlower⟩ := List.mem_map.mp hmem
  have hsame : asciiLower c = c := asciiLower_of_quad (by rw [hlower]; rfl)
  rw [hsame] at hlower
  exact h (hlower ▸ hc)

theorem embedQuad_lower {P : List JsString} {q : JsString} {o : Octets} (hP : P ≠ [])
    (hq : Quad q o) : embedQuad ((joined (P ++ [q])).map asciiLower) =
      some ((joined (P ++ [hexText (o.a <<< 8 ||| o.b), hexText (o.c <<< 8 ||| o.d)])).map
        asciiLower) := by
  have hcolon : asciiLower colon = colon := rfl
  rw [joined_snoc hP, List.map_append, List.map_cons, hcolon,
    embedQuad_quad (quad_lower_iff.mpr hq), withHextets, List.append_cons P, joined_snoc (by simp),
    joined_snoc hP, List.map_append, List.map_append, List.map_cons, List.map_cons, hexText_lower,
    hexText_lower, hcolon, List.append_assoc]
  rfl

theorem Literal6.embed {ip : JsString} {gs : List Nat} (h : Literal6 ip gs) :
    ∃ ip', embedQuad (ip.map asciiLower) = some (ip'.map asciiLower) ∧ Plain6 ip' gs := by
  cases h with
  | @full ps gs hps hlen =>
    cases hps with
    | hextets h => exact ⟨_, embedQuad_of_no_dot (dot_not_mem_lower (dot_not_mem_joined h)),
        .full h hlen⟩
    | @quad ps gs q o h hq =>
      obtain ⟨hhi, hlo⟩ := quad_hextets hq
      have hne : ps ≠ [] := by
        rintro rfl
        cases h
        cases hlen
      refine ⟨_, embedQuad_lower hne hq, .full ?_ hlen⟩
      exact List.rel_append h (.cons hhi (.cons hlo .nil))
  | @compressed ps gs qs ts hl hr hlen =>
    cases hr with
    | hextets hr =>
      refine ⟨_, embedQuad_of_no_dot (dot_not_mem_lower fun h => ?_), .compressed hl hr hlen⟩
      rcases List.mem_append.mp h with h | h
      · rcases List.mem_append.mp h with h | h
        · exact dot_not_mem_joined hl h
        · exact absurd h (by decide)
      · exact dot_not_mem_joined hr h
    | @quad qs ts q o hr hq =>
      obtain ⟨hhi, hlo⟩ := quad_hextets hq
      refine ⟨_, ?_, .compressed hl (List.rel_append hr (.cons hhi (.cons hlo .nil))) hlen⟩
      rw [joined_compressed, joined_compressed]
      have hpadded : ∀ r, r ≠ [] → padded (qs ++ r) = qs ++ r := fun r hr => by
        rw [padded, if_neg (by simp [hr])]
      rw [hpadded _ (List.cons_ne_nil _ _), hpadded _ (List.cons_ne_nil _ _), ← List.cons_append,
        ← List.append_assoc, ← List.cons_append, ← List.append_assoc]
      exact embedQuad_lower (by simp) hq

/-! ## Literals in any case -/

theorem ascii_of_isLiteralUnit {c : CodeUnit} (h : isLiteralUnit c = true) : c < 0x80 := by
  rcases UInt16.lt_or_le c 0x80 with hlt | hle
  · exact hlt
  · rw [isLiteralUnit, hexValue_of_le hle, Bool.or_eq_true, Bool.or_eq_true, beq_iff_eq,
      beq_iff_eq] at h
    rcases h with (h | rfl) | rfl
    · cases h
    · decide
    · decide

theorem isLiteralUnit_of_quad {c : CodeUnit} (h : isQuadUnit c = true) :
    isLiteralUnit c = true := by
  rw [isQuadUnit, Bool.or_eq_true, isDigit, Bool.and_eq_true, decide_eq_true_eq,
    decide_eq_true_eq, beq_iff_eq] at h
  rcases h with h | rfl
  · rw [isLiteralUnit, hexValue, if_pos h]
    rfl
  · rfl

theorem isLiteralUnit_of_joined {ps : List JsString}
    (h : ∀ p ∈ ps, ∀ c ∈ p, isLiteralUnit c = true) : ∀ c ∈ joined ps, isLiteralUnit c = true := by
  induction ps with
  | nil => exact fun c hc => absurd hc List.not_mem_nil
  | cons p ps ih =>
    have ih := ih fun p hp => h p (List.mem_cons_of_mem _ hp)
    intro c hc
    rcases eq_or_ne ps [] with rfl | hne
    · rw [joined, List.intercalate_singleton] at hc
      exact h p List.mem_cons_self c hc
    · rw [joined, List.intercalate_cons_of_ne_nil hne, List.mem_append, List.mem_append] at hc
      rcases hc with (hc | hc) | hc
      · exact h p List.mem_cons_self c hc
      · rw [List.mem_singleton.mp hc]
        rfl
      · exact ih c hc

theorem isLiteralUnit_of_hextets {ps : List JsString} {gs : List Nat}
    (h : List.Forall₂ Hextet ps gs) : ∀ p ∈ ps, ∀ c ∈ p, isLiteralUnit c = true := by
  intro p hp c hc
  obtain ⟨g, -, hg⟩ := forall₂_mem_left h hp
  obtain ⟨d, hd⟩ := hg.hexValue_of_mem hc
  rw [isLiteralUnit, hd]
  rfl

theorem Groups.isLiteralUnit {ps : List JsString} {gs : List Nat} (h : Groups ps gs) :
    ∀ p ∈ ps, ∀ c ∈ p, isLiteralUnit c = true := by
  cases h with
  | hextets h => exact isLiteralUnit_of_hextets h
  | quad h hq =>
    intro p hp c hc
    rcases List.mem_append.mp hp with hp | hp
    · exact isLiteralUnit_of_hextets h p hp c hc
    · rw [List.mem_singleton.mp hp] at hc
      exact isLiteralUnit_of_quad (hq.isQuadUnit_of_mem hc)

theorem Literal6.isLiteralUnit {s : JsString} {gs : List Nat} (h : Literal6 s gs) :
    ∀ c ∈ s, isLiteralUnit c = true := by
  cases h with
  | full h => exact isLiteralUnit_of_joined h.isLiteralUnit
  | compressed hl hr =>
    intro c hc
    rcases List.mem_append.mp hc with hc | hc
    · rcases List.mem_append.mp hc with hc | hc
      · exact isLiteralUnit_of_joined (isLiteralUnit_of_hextets hl) c hc
      · rw [List.mem_pair, or_self] at hc
        rw [hc]
        rfl
    · exact isLiteralUnit_of_joined hr.isLiteralUnit c hc

theorem joined_of_map {s : JsString} {ps : List JsString} (h : s.map asciiLower = joined ps)
    (hne : ps ≠ []) : ∃ ps', s = joined ps' ∧ lowered ps' = ps := by
  induction ps generalizing s with
  | nil => exact absurd rfl hne
  | cons p ps ih =>
    rcases eq_or_ne ps [] with rfl | hps
    · rw [joined, List.intercalate_singleton] at h
      refine ⟨[s], ?_, ?_⟩
      · rw [joined, List.intercalate_singleton]
      · rw [← h]
        rfl
    · rw [joined, List.intercalate_cons_of_ne_nil hps, List.append_assoc] at h
      obtain ⟨a, b, rfl, ha, hb⟩ := List.map_eq_append_iff.mp h
      obtain ⟨c, b, rfl, hc, hb⟩ := List.map_eq_cons_iff.mp hb
      obtain ⟨ps', rfl, rfl⟩ := ih hb hps
      have hcolon : c = colon :=
        forall_lower (P := fun c c' => c' = colon → c = colon) (by decide) (fun _ _ hc => hc) c hc
      refine ⟨a :: ps', ?_, ?_⟩
      · have hne' : ps' ≠ [] := by
          rintro rfl
          exact hps rfl
        show a ++ c :: joined ps' = [colon].intercalate (a :: ps')
        rw [List.intercalate_cons_of_ne_nil hne', hcolon, List.append_assoc]
        rfl
      · rw [← ha]
        rfl

theorem Groups.of_lowered {ps : List JsString} {gs : List Nat} (h : Groups (lowered ps) gs) :
    Groups ps gs := by
  generalize hps : lowered ps = ps' at h
  cases h with
  | hextets h =>
    subst hps
    exact .hextets (hextets_lowered_iff.mp h)
  | @quad qs gs q o h hq =>
    obtain ⟨a, b, rfl, rfl, hb⟩ := List.map_eq_append_iff.mp hps
    obtain ⟨r, b', rfl, rfl, hnil⟩ := List.map_eq_cons_iff.mp hb
    obtain rfl := List.map_eq_nil_iff.mp hnil
    exact .quad (hextets_lowered_iff.mp h) (quad_lower_iff.mp hq)

theorem Literal6.of_lower {s : JsString} {gs : List Nat} (h : Literal6 (s.map asciiLower) gs) :
    Literal6 s gs := by
  generalize hs : s.map asciiLower = s' at h
  cases h with
  | @full ps gs h hlen =>
    have hne : ps ≠ [] := by
      rintro rfl
      generalize hps : ([] : List JsString) = ps at h
      cases h with
      | hextets h =>
        subst hps
        cases h
        cases hlen
      | quad => exact absurd hps (by simp)
    obtain ⟨ps, rfl, rfl⟩ := joined_of_map hs hne
    exact .full h.of_lowered hlen
  | @compressed ps gs qs ts hl hr hlen =>
    -- an empty side is an empty text
    have hside : ∀ {a : JsString} {rs : List JsString}, a.map asciiLower = joined rs →
        ∃ rs', a = joined rs' ∧ lowered rs' = rs := by
      intro a rs ha
      rcases eq_or_ne rs [] with rfl | hne
      · refine ⟨[], ?_, rfl⟩
        exact List.map_eq_nil_iff.mp ha
      · exact joined_of_map ha hne
    obtain ⟨ab, b, rfl, hab, hb⟩ := List.map_eq_append_iff.mp hs
    obtain ⟨a, c, rfl, ha, hc⟩ := List.map_eq_append_iff.mp hab
    obtain ⟨ps, rfl, rfl⟩ := hside ha
    obtain ⟨qs, rfl, rfl⟩ := hside hb
    have hcolon : ∀ {u : CodeUnit}, asciiLower u = colon → u = colon := fun {u} hu =>
      forall_lower (P := fun c c' => c' = colon → c = colon) (by decide) (fun _ _ hc => hc) u hu
    obtain ⟨u, c, rfl, hu, hc⟩ := List.map_eq_cons_iff.mp hc
    obtain ⟨v, c, rfl, hv, hnil⟩ := List.map_eq_cons_iff.mp hc
    rw [List.map_eq_nil_iff.mp hnil, hcolon hu, hcolon hv]
    exact .compressed (hextets_lowered_iff.mp hl) hr.of_lowered hlen

/-! ## What `toLowerCase` does to a literal -/

section

variable {s : JsString} {ps : List JsString}

theorem flatten_of_ascii (h : List.Forall₂ Lowered s ps) (hs : ∀ c ∈ s, c < 0x80) :
    ps.flatten = s.map asciiLower := by
  induction h with
  | nil => rfl
  | @cons c piece s ps hc _ ih =>
    have ih := ih fun c hc => hs c (List.mem_cons_of_mem _ hc)
    rw [List.flatten_cons, ih, List.map_cons]
    cases hc with
    | ascii => rfl
    | other _ hle => exact absurd (hs c List.mem_cons_self) (UInt16.not_lt.mpr hle)

theorem ascii_of_literal (h : List.Forall₂ Lowered s ps)
    (hps : ∀ u ∈ ps.flatten, isLiteralUnit u = true) : ∀ c ∈ s, c < 0x80 := by
  intro c hc
  obtain ⟨piece, hpiece, hlowered⟩ := forall₂_mem_left h hc
  cases hlowered with
  | ascii hlt => exact hlt
  | other _ _ hne hfree =>
    obtain ⟨u, hu⟩ := List.exists_mem_of_ne_nil piece hne
    have hunit := hps u (List.mem_flatten_of_mem hpiece hu)
    rw [(hfree u hu).1] at hunit
    cases hunit

theorem withoutZone_flatten (h : List.Forall₂ Lowered s ps) :
    ∃ qs, List.Forall₂ Lowered (withoutZone s) qs ∧ withoutZone ps.flatten = qs.flatten := by
  induction h with
  | nil => exact ⟨[], .nil, rfl⟩
  | @cons c piece s ps hc _ ih =>
    obtain ⟨qs, hqs, heq⟩ := ih
    by_cases hpercent : c = percent
    · subst hpercent
      refine ⟨[], .nil, ?_⟩
      cases hc with
      | ascii => rfl
      | other _ hle => exact absurd hle (by decide)
    · refine ⟨piece :: qs, ?_, ?_⟩
      · rw [withoutZone, List.takeWhile_cons_of_pos (by simpa using hpercent)]
        exact .cons hc hqs
      · have hfree : ∀ u ∈ piece, (u != percent) = true := by
          intro u hu
          rw [bne_iff_ne]
          rintro rfl
          cases hc with
          | ascii =>
            have hlower := (List.mem_singleton.mp hu).symm
            exact hpercent (forall_lower (P := fun c c' => c' = percent → c = percent) (by decide)
              (fun _ _ hc => hc) c hlower)
          | other _ _ _ hfree => exact absurd rfl (hfree percent hu).2
        rw [List.flatten_cons, List.flatten_cons, withoutZone, List.takeWhile_append_of_pos hfree]
        exact congrArg (piece ++ ·) heq

end

section

variable (L : LowerCasing) (s : JsString)

theorem quad?_lower_iff {o : Octets} :
    (quad? (L.lower s) = some o ∧ o.tooBig = false) ↔ Quad s o := by
  obtain ⟨ps, hps, hlower⟩ := L.pieces s
  rw [← quad_iff, hlower]
  constructor
  · intro h
    have hascii := ascii_of_literal hps fun u hu => isLiteralUnit_of_quad (h.isQuadUnit_of_mem hu)
    rw [flatten_of_ascii hps hascii] at h
    exact quad_lower_iff.mp h
  · intro h
    have hascii : ∀ c ∈ s, c < 0x80 := fun c hc =>
      ascii_of_isLiteralUnit (isLiteralUnit_of_quad (h.isQuadUnit_of_mem hc))
    rw [flatten_of_ascii hps hascii]
    exact quad_lower_iff.mpr h

/-- The parser accepts the literals, whatever zone stands behind them, and expands them. -/
theorem parseIpv6_lower_iff {gs : List Nat} :
    parseIpv6 (L.lower s) = some gs ↔ Literal6 (withoutZone s) gs := by
  obtain ⟨ps, hps, hlower⟩ := L.pieces s
  obtain ⟨qs, hqs, hzone⟩ := withoutZone_flatten hps
  rw [parseIpv6, hlower, hzone]
  constructor
  · intro h
    obtain ⟨ip, hembed, hexpand⟩ := Option.bind_eq_some_iff.mp h
    have hplain := expandGroups_sound hexpand
    have hliteral : Literal6 qs.flatten gs := by
      rcases embedQuad_cases hembed with rfl | ⟨p, q, o, heq, hq, rfl⟩
      · exact hplain.literal
      · rw [heq]
        exact literal6_of_withHextets hq hplain
    have hascii := ascii_of_literal hqs hliteral.isLiteralUnit
    rw [flatten_of_ascii hqs hascii] at hliteral
    exact hliteral.of_lower
  · intro h
    have hascii : ∀ c ∈ withoutZone s, c < 0x80 := fun c hc =>
      ascii_of_isLiteralUnit (h.isLiteralUnit c hc)
    obtain ⟨ip, hembed, hplain⟩ := h.embed
    rw [flatten_of_ascii hqs hascii, hembed]
    exact expandGroups_lower hplain

end

end InvisibleString.Net
