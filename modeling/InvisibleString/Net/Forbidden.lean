import InvisibleString.Net.Literals

/- # `Net.Forbidden` — addresses the control plane never dials

`isForbiddenIp` refuses the private, the loopback and the link-local ranges, and everything that
is no address.  It compares octets and masked hextets; what it is for is said in terms of numbers
of 32 and of 128 bits and of prefixes of them (`Forbidden4`, `Forbidden6`).

The text is trimmed first, so an address between blanks is taken for the address.

**Proved here.**

    the verdict on a text is the one on the number it denotes; a text that denotes none is
      forbidden  (`isForbiddenIp_exact`)
-/

namespace InvisibleString.Net

open Checks Json

/-! ## The filter -/

/-- `none` where the text is no dotted quad. -/
def isForbiddenIpv4 (ip : JsString) : Option Bool :=
  match quad? ip with
  | none => none
  | some o =>
    if o.tooBig then none
    else if o.a = 0 ∨ o.a = 10 ∨ o.a = 127 then some true
    else if o.a = 172 ∧ 16 ≤ o.b ∧ o.b ≤ 31 then some true
    else if o.a = 192 ∧ o.b = 168 then some true
    else if o.a = 169 ∧ o.b = 254 then some true
    else if o.a = 100 ∧ 64 ≤ o.b ∧ o.b ≤ 127 then some true
    else some false

/-- The verdict on eight hextets. -/
def isForbiddenIpv6 (hextets : List Nat) : Bool :=
  let group := fun i => hextets.getD i 0
  if (hextets.take 5).all (· = 0) ∧ group 5 = 0xffff then
    let mapped := printNat (group 6 >>> 8) ++ [dot] ++ printNat (group 6 &&& 0xff) ++ [dot] ++
      printNat (group 7 >>> 8) ++ [dot] ++ printNat (group 7 &&& 0xff)
    (isForbiddenIpv4 mapped).getD true
  else if (hextets.take 7).all (· = 0) ∧ (group 7 = 0 ∨ group 7 = 1) then true
  else if group 0 &&& 0xfe00 = 0xfc00 then true
  else decide (group 0 &&& 0xffc0 = 0xfe80)

def isForbiddenIp (L : LowerCasing) (ip : JsString) : Bool :=
  let normalized := L.lower (trim ip)
  match isForbiddenIpv4 normalized with
  | some verdict => verdict
  | none =>
    match parseIpv6 normalized with
    | none => true
    | some hextets => isForbiddenIpv6 hextets

/-! ## Addresses as numbers -/

/-- The addresses that agree with `base` in their first `length` bits. -/
structure Range where
  base : Nat
  length : Nat
  deriving DecidableEq

/-- Among the numbers of `width` bits. -/
def Range.Contains (r : Range) (width v : Nat) : Prop :=
  v / 2 ^ (width - r.length) = r.base / 2 ^ (width - r.length)

def Octets.value (o : Octets) : Nat := ((o.a * 256 + o.b) * 256 + o.c) * 256 + o.d

def groupsValue (gs : List Nat) : Nat := gs.foldl (fun n g => n * 65536 + g) 0

def forbiddenRanges4 : List Range :=
  [⟨(Octets.mk 0 0 0 0).value, 8⟩, ⟨(Octets.mk 10 0 0 0).value, 8⟩,
    ⟨(Octets.mk 127 0 0 0).value, 8⟩, ⟨(Octets.mk 172 16 0 0).value, 12⟩,
    ⟨(Octets.mk 192 168 0 0).value, 16⟩, ⟨(Octets.mk 169 254 0 0).value, 16⟩,
    ⟨(Octets.mk 100 64 0 0).value, 10⟩]

def Forbidden4 (v : Nat) : Prop := ∃ r ∈ forbiddenRanges4, r.Contains 32 v

def uniqueLocal : Range := ⟨groupsValue [0xfc00, 0, 0, 0, 0, 0, 0, 0], 7⟩

def linkLocal : Range := ⟨groupsValue [0xfe80, 0, 0, 0, 0, 0, 0, 0], 10⟩

def ipv4Mapped : Range := ⟨groupsValue [0, 0, 0, 0, 0, 0xffff, 0, 0], 96⟩

def Forbidden6 (v : Nat) : Prop :=
  v = 0 ∨ v = 1 ∨ uniqueLocal.Contains 128 v ∨ linkLocal.Contains 128 v ∨
    ipv4Mapped.Contains 128 v ∧ Forbidden4 (v % 2 ^ 32)

/-- The text is a dotted quad for this number. -/
def Denotes4 (s : JsString) (v : Nat) : Prop := ∃ o, Quad s o ∧ v = o.value

/-- The text is an IPv6 literal for this number, with or without a zone. -/
inductive Denotes6 : JsString → Nat → Prop
  | plain {s gs} (h : Literal6 s gs) : Denotes6 s (groupsValue gs)
  | zone {s gs} (h : Literal6 s gs) (id : JsString) :
      Denotes6 (s ++ percent :: id) (groupsValue gs)

/-! ## IPv4 -/

theorem forbidden4_iff {o : Octets} (ho : o.tooBig = false) : Forbidden4 o.value ↔
    (o.a = 0 ∨ o.a = 10 ∨ o.a = 127) ∨ (o.a = 172 ∧ 16 ≤ o.b ∧ o.b ≤ 31) ∨
      (o.a = 192 ∧ o.b = 168) ∨ (o.a = 169 ∧ o.b = 254) ∨ (o.a = 100 ∧ 64 ≤ o.b ∧ o.b ≤ 127) := by
  obtain ⟨ha, hb, hc, hd⟩ := Octets.tooBig_iff.mp ho
  simp only [Forbidden4, forbiddenRanges4, Range.Contains, Octets.value, List.mem_cons,
    List.not_mem_nil, or_false, exists_eq_or_imp, exists_eq_left]
  omega

theorem isForbiddenIpv4_of_quad {s : JsString} {o : Octets} (h : Quad s o) :
    ∃ verdict, isForbiddenIpv4 s = some verdict ∧ (verdict = true ↔ Forbidden4 o.value) := by
  obtain ⟨hquad, hbig⟩ := quad_iff.mp h
  rw [forbidden4_iff hbig]
  simp only [isForbiddenIpv4, hquad, hbig, Bool.false_eq_true, if_false]
  split
  · next h₁ => exact ⟨true, rfl, iff_of_true rfl (.inl h₁)⟩
  next h₁ =>
  split
  · next h₂ => exact ⟨true, rfl, iff_of_true rfl (.inr (.inl h₂))⟩
  next h₂ =>
  split
  · next h₃ => exact ⟨true, rfl, iff_of_true rfl (.inr (.inr (.inl h₃)))⟩
  next h₃ =>
  split
  · next h₄ => exact ⟨true, rfl, iff_of_true rfl (.inr (.inr (.inr (.inl h₄))))⟩
  next h₄ =>
  split
  · next h₅ => exact ⟨true, rfl, iff_of_true rfl (.inr (.inr (.inr (.inr h₅))))⟩
  next h₅ =>
  refine ⟨false, rfl, iff_of_false Bool.false_ne_true ?_⟩
  rintro (h | h | h | h | h)
  · exact h₁ h
  · exact h₂ h
  · exact h₃ h
  · exact h₄ h
  · exact h₅ h

theorem isForbiddenIpv4_none_iff {s : JsString} :
    isForbiddenIpv4 s = none ↔ ¬ ∃ o, Quad s o := by
  constructor
  · rintro h ⟨o, ho⟩
    obtain ⟨verdict, hv, -⟩ := isForbiddenIpv4_of_quad ho
    rw [hv] at h
    cases h
  · intro h
    rw [isForbiddenIpv4]
    cases hquad : quad? s with
    | none => rfl
    | some o =>
      by_cases hbig : o.tooBig = true
      · simp only [hbig, if_true]
      · exact absurd ⟨o, quad_iff.mpr ⟨hquad, by simpa using hbig⟩⟩ h

/-! ## IPv6 -/

/-- The numbers of eight groups of sixteen bits. -/
structure Eight (gs : List Nat) : Prop where
  length : gs.length = 8
  lt : ∀ g ∈ gs, g < 65536

theorem hextets_lt {ps : List JsString} {gs : List Nat} (h : List.Forall₂ Hextet ps gs) :
    ∀ g ∈ gs, g < 65536 := by
  intro g hg
  obtain ⟨p, -, hp⟩ := forall₂_mem_right h hg
  exact hp.lt

theorem Groups.lt {ps : List JsString} {gs : List Nat} (h : Groups ps gs) :
    ∀ g ∈ gs, g < 65536 := by
  cases h with
  | hextets h => exact hextets_lt h
  | quad h hq =>
    intro g hg
    obtain ⟨hhi, hlo⟩ := quad_hextets hq
    rcases List.mem_append.mp hg with hg | hg
    · exact hextets_lt h g hg
    rcases List.mem_pair.mp hg with rfl | rfl
    · exact hhi.lt
    · exact hlo.lt

theorem Literal6.eight {s : JsString} {gs : List Nat} (h : Literal6 s gs) : Eight gs := by
  cases h with
  | full h hlen => exact ⟨hlen, h.lt⟩
  | @compressed ps gs qs ts hl hr hlen =>
    refine ⟨?_, ?_⟩
    · rw [List.length_append, List.length_append, List.length_replicate]
      omega
    · intro g hg
      rcases List.mem_append.mp hg with hg | hg
      · rcases List.mem_append.mp hg with hg | hg
        · exact hextets_lt hl g hg
        · rw [List.eq_of_mem_replicate hg]
          decide
      · exact hr.lt g hg

/-- A mask of the upper bits leaves the prefix. -/
theorem mask_eq_iff {g q k : Nat} (hg : g < 2 ^ 16) (hk : k ≤ 16) :
    g &&& (2 ^ 16 - 2 ^ k) = q * 2 ^ k ↔ g / 2 ^ k = q := by
  have hpos : 0 < 2 ^ k := Nat.two_pow_pos k
  have hmask : 2 ^ 16 - 2 ^ k = (2 ^ (16 - k) - 1) * 2 ^ k := by
    rw [Nat.sub_mul, ← Nat.pow_add, Nat.sub_add_cancel hk, Nat.one_mul]
  have hdiv : (g &&& (2 ^ 16 - 2 ^ k)) / 2 ^ k = g / 2 ^ k := by
    rw [Nat.and_div_two_pow, hmask, Nat.mul_div_cancel _ hpos, Nat.and_two_pow_sub_one_eq_mod]
    refine Nat.mod_eq_of_lt (Nat.div_lt_of_lt_mul ?_)
    rwa [← Nat.pow_add, Nat.add_sub_cancel' hk]
  have hmod : (g &&& (2 ^ 16 - 2 ^ k)) % 2 ^ k = 0 := by
    rw [Nat.and_mod_two_pow, hmask, Nat.mul_mod_left, Nat.and_zero]
  constructor
  · intro h
    rw [← hdiv, h, Nat.mul_div_cancel _ hpos]
  · rintro rfl
    rw [← hdiv]
    exact (Nat.div_mul_cancel (Nat.dvd_of_mod_eq_zero hmod)).symm

theorem octet_printNat : ∀ n < 256, Octet (printNat n) n := by
  have h : ∀ n < 256, decimalGroup? (printNat n) = some n := by decide +kernel
  intro n hn
  exact octet_iff.mpr ⟨h n hn, by omega⟩

theorem quad_mapped {hi lo : Nat} (hhi : hi < 65536) (hlo : lo < 65536) :
    Quad (printNat (hi >>> 8) ++ [dot] ++ printNat (hi &&& 0xff) ++ [dot] ++ printNat (lo >>> 8) ++
      [dot] ++ printNat (lo &&& 0xff)) ⟨hi / 256, hi % 256, lo / 256, lo % 256⟩ := by
  have hshift : ∀ n : Nat, n >>> 8 = n / 256 := fun n => Nat.shiftRight_eq_div_pow n 8
  have hmask : ∀ n : Nat, n &&& 0xff = n % 256 := fun n => Nat.and_two_pow_sub_one_eq_mod n 8
  have hquad := Quad.mk (o := ⟨hi / 256, hi % 256, lo / 256, lo % 256⟩)
    (octet_printNat (hi / 256) (by omega)) (octet_printNat (hi % 256) (by omega))
    (octet_printNat (lo / 256) (by omega)) (octet_printNat (lo % 256) (by omega))
  rw [hshift, hshift, hmask, hmask]
  simpa only [List.intercalate_cons_cons, List.intercalate_singleton, List.append_assoc] using hquad

theorem Eight.exists_eq {gs : List Nat} (h : gs.length = 8) :
    ∃ a b c d e f g i, gs = [a, b, c, d, e, f, g, i] := by
  match gs, h with
  | [a, b, c, d, e, f, g, i], _ => exact ⟨a, b, c, d, e, f, g, i, rfl⟩

section

variable {a b c d e f g i : Nat}

theorem groupsValue_eight : groupsValue [a, b, c, d, e, f, g, i] =
    ((((((a * 65536 + b) * 65536 + c) * 65536 + d) * 65536 + e) * 65536 + f) * 65536 + g) * 65536 +
      i := by
  simp only [groupsValue, List.foldl_cons, List.foldl_nil, Nat.zero_mul, Nat.zero_add]

theorem contains_iff (h : Eight [a, b, c, d, e, f, g, i]) :
    (uniqueLocal.Contains 128 (groupsValue [a, b, c, d, e, f, g, i]) ↔ a / 512 = 126) ∧
      (linkLocal.Contains 128 (groupsValue [a, b, c, d, e, f, g, i]) ↔ a / 64 = 1018) ∧
      (ipv4Mapped.Contains 128 (groupsValue [a, b, c, d, e, f, g, i]) ↔
        (a = 0 ∧ b = 0 ∧ c = 0 ∧ d = 0 ∧ e = 0) ∧ f = 0xffff) := by
  have hlt := h.lt
  simp only [List.forall_mem_cons, List.not_mem_nil, false_implies, implies_true, and_true] at hlt
  obtain ⟨ha, hb, hc, hd, he, hf, hg, hi⟩ := hlt
  simp only [Range.Contains, uniqueLocal, linkLocal, ipv4Mapped, groupsValue_eight]
  refine ⟨?_, ?_, ?_⟩
  · omega
  · omega
  · omega

theorem isForbiddenIpv6_eight : isForbiddenIpv6 [a, b, c, d, e, f, g, i] =
    if (a = 0 ∧ b = 0 ∧ c = 0 ∧ d = 0 ∧ e = 0) ∧ f = 0xffff then
      (isForbiddenIpv4 (printNat (g >>> 8) ++ [dot] ++ printNat (g &&& 0xff) ++ [dot] ++
        printNat (i >>> 8) ++ [dot] ++ printNat (i &&& 0xff))).getD true
    else if (a = 0 ∧ b = 0 ∧ c = 0 ∧ d = 0 ∧ e = 0 ∧ f = 0 ∧ g = 0) ∧ (i = 0 ∨ i = 1) then true
    else if a &&& 0xfe00 = 0xfc00 then true
    else decide (a &&& 0xffc0 = 0xfe80) := by
  simp [isForbiddenIpv6]

end

theorem isForbiddenIpv6_iff {gs : List Nat} (h : Eight gs) :
    isForbiddenIpv6 gs = true ↔ Forbidden6 (groupsValue gs) := by
  obtain ⟨a, b, c, d, e, f, g, i, rfl⟩ := Eight.exists_eq h.length
  obtain ⟨hlocal, hlink, hmapped⟩ := contains_iff h
  have hlt := h.lt
  simp only [List.forall_mem_cons, List.not_mem_nil, false_implies, implies_true, and_true] at hlt
  obtain ⟨ha, hb, hc, hd, he, hf, hg, hi⟩ := hlt
  have hlocalMask : a &&& 0xfe00 = 0xfc00 ↔ a / 512 = 126 :=
    mask_eq_iff (q := 126) (k := 9) ha (by decide)
  have hlinkMask : a &&& 0xffc0 = 0xfe80 ↔ a / 64 = 1018 :=
    mask_eq_iff (q := 1018) (k := 6) ha (by decide)
  rw [isForbiddenIpv6_eight, Forbidden6, hlocal, hlink, hmapped, groupsValue_eight]
  split
  · next hprefix =>
    -- the last two groups are looked at as an IPv4 address
    obtain ⟨verdict, hverdict, hiff⟩ := isForbiddenIpv4_of_quad (quad_mapped hg hi)
    obtain ⟨⟨rfl, rfl, rfl, rfl, rfl⟩, rfl⟩ := hprefix
    have hlow : (((((((0 * 65536 + 0) * 65536 + 0) * 65536 + 0) * 65536 + 0) * 65536 + 0xffff) *
        65536 + g) * 65536 + i) % 2 ^ 32 =
          (Octets.mk (g / 256) (g % 256) (i / 256) (i % 256)).value := by
      show _ = ((g / 256 * 256 + g % 256) * 256 + i / 256) * 256 + i % 256
      omega
    rw [hverdict, Option.getD_some, hiff, hlow]
    constructor
    · exact fun h => .inr (.inr (.inr (.inr ⟨⟨⟨rfl, rfl, rfl, rfl, rfl⟩, rfl⟩, h⟩)))
    · rintro (h | h | h | h | h)
      · omega
      · omega
      · omega
      · omega
      · exact h.2
  next hprefix =>
  split
  · next hzero =>
    refine iff_of_true rfl ?_
    omega
  next hzero =>
  split
  · next hl => exact iff_of_true rfl (.inr (.inr (.inl (hlocalMask.mp hl))))
  next hl =>
  rw [decide_eq_true_eq, hlinkMask]
  constructor
  · exact fun h => .inr (.inr (.inr (.inl h)))
  · rintro (h | h | h | h | h)
    · omega
    · omega
    · exact absurd (hlocalMask.mpr h) hl
    · exact h
    · exact absurd h.1 hprefix

/-! ## Texts -/

theorem denotes6_iff {s : JsString} {v : Nat} :
    Denotes6 s v ↔ ∃ gs, Literal6 (withoutZone s) gs ∧ v = groupsValue gs := by
  have hall : ∀ {s gs}, Literal6 s gs → ∀ c ∈ s, (c != percent) = true := by
    intro s gs h c hc
    rw [bne_iff_ne]
    rintro rfl
    exact absurd (h.isLiteralUnit percent hc) (by decide)
  constructor
  · intro h
    cases h with
    | plain h =>
      refine ⟨_, ?_, rfl⟩
      rwa [withoutZone, List.takeWhile_eq_self_iff.mpr (hall h)]
    | zone h id =>
      refine ⟨_, ?_, rfl⟩
      rwa [withoutZone, List.takeWhile_append_of_pos (hall h),
        List.takeWhile_cons_of_neg (by simp), List.append_nil]
  · rintro ⟨gs, h, rfl⟩
    have hsplit : withoutZone s ++ s.dropWhile (· != percent) = s := List.takeWhile_append_dropWhile
    cases hdrop : s.dropWhile (· != percent) with
    | nil =>
      rw [hdrop, List.append_nil] at hsplit
      rw [← hsplit]
      exact .plain h
    | cons c id =>
      have hc : c = percent := by
        have hne : s.dropWhile (· != percent) ≠ [] := by
          rw [hdrop]
          exact List.cons_ne_nil _ _
        simpa [hdrop] using List.head_dropWhile_not (· != percent) hne
      rw [← hsplit, hdrop, hc]
      exact .zone h id

theorem Literal6.colon_mem {s : JsString} {gs : List Nat} (h : Literal6 s gs) : colon ∈ s := by
  cases h with
  | @full ps gs h hlen =>
    have htwo : 2 ≤ ps.length := by
      cases h with
      | hextets h =>
        have := h.length_eq
        omega
      | @quad ps gs q o h hq =>
        have := h.length_eq
        rw [List.length_append, List.length_cons, List.length_cons, List.length_nil] at hlen
        rw [List.length_append, List.length_singleton]
        omega
    match ps, htwo with
    | p :: q :: ps, _ =>
      rw [joined, List.intercalate_cons_cons]
      exact List.mem_append_left _ (List.mem_append_right _ List.mem_cons_self)
  | compressed => exact List.mem_append_left _ (List.mem_append_right _ List.mem_cons_self)

/-- For every text: the verdict is the one on the number that the text between its blanks denotes,
and where it denotes none, the text is forbidden. -/
theorem isForbiddenIp_exact (L : LowerCasing) (ip : JsString) :
    (∀ v, Denotes4 (trim ip) v → (isForbiddenIp L ip = true ↔ Forbidden4 v)) ∧
    (∀ v, Denotes6 (trim ip) v → (isForbiddenIp L ip = true ↔ Forbidden6 v)) ∧
    ((¬ ∃ v, Denotes4 (trim ip) v ∨ Denotes6 (trim ip) v) → isForbiddenIp L ip = true) := by
  have hquad : ∀ o, Quad (L.lower (trim ip)) o ↔ Quad (trim ip) o := fun o => by
    rw [quad_iff]
    exact quad?_lower_iff L (trim ip)
  have hnone : (¬ ∃ o, Quad (trim ip) o) → isForbiddenIpv4 (L.lower (trim ip)) = none := by
    intro h
    exact isForbiddenIpv4_none_iff.mpr fun ⟨o, ho⟩ => h ⟨o, (hquad o).mp ho⟩
  refine ⟨?_, ?_, ?_⟩
  · rintro v ⟨o, ho, rfl⟩
    obtain ⟨verdict, hverdict, hiff⟩ := isForbiddenIpv4_of_quad ((hquad o).mpr ho)
    rw [isForbiddenIp]
    simp only [hverdict]
    exact hiff
  · intro v hv
    obtain ⟨gs, hgs, rfl⟩ := denotes6_iff.mp hv
    have hno : ¬ ∃ o, Quad (trim ip) o := by
      rintro ⟨o, ho⟩
      exact ho.not_mem (c := colon) (by decide) ((List.takeWhile_prefix _).mem hgs.colon_mem)
    rw [isForbiddenIp]
    simp only [hnone hno, (parseIpv6_lower_iff L (trim ip)).mpr hgs]
    exact isForbiddenIpv6_iff hgs.eight
  · intro h
    have hno : ¬ ∃ o, Quad (trim ip) o := fun ⟨o, ho⟩ => h ⟨o.value, .inl ⟨o, ho, rfl⟩⟩
    rw [isForbiddenIp]
    cases hparse : parseIpv6 (L.lower (trim ip)) with
    | none => simp only [hnone hno]
    | some gs =>
      have hgs := (parseIpv6_lower_iff L (trim ip)).mp hparse
      exact absurd ⟨groupsValue gs, .inr (denotes6_iff.mpr ⟨gs, hgs, rfl⟩)⟩ h

/-- `toLowerCase` where nothing but the letters of ASCII has two cases. -/
def asciiCasing : LowerCasing where
  lower s := s.map asciiLower
  pieces s := by
    refine ⟨s.map fun c => [asciiLower c], ?_, ?_⟩
    · rw [List.forall₂_map_right_iff]
      refine List.forall₂_same.mpr fun c _ => ?_
      rcases UInt16.lt_or_le c 0x80 with hlt | hle
      · exact .ascii c hlt
      · rw [asciiLower_of_le hle]
        refine .other c _ hle (List.cons_ne_nil _ _) fun u hu => ?_
        rw [List.mem_singleton.mp hu]
        refine ⟨?_, ?_⟩
        · rw [← Bool.not_eq_true]
          exact fun h => UInt16.not_lt.mpr hle (ascii_of_isLiteralUnit h)
        · rintro rfl
          exact absurd hle (by decide)
    · induction s with
      | nil => rfl
      | cons c s ih =>
        rw [List.map_cons, List.map_cons, List.flatten_cons, ← ih]
        rfl

/-- A loopback address in the clothes of IPv6, with capital letters and a zone. -/
theorem isForbiddenIp_exact_mapped :
    isForbiddenIp asciiCasing (ascii "::FFFF:127.0.0.1%lo") = true := by
  have hliteral : Literal6 (withoutZone (trim (ascii "::FFFF:127.0.0.1%lo")))
      [0, 0, 0, 0, 0, 0xffff, 0x7f00, 1] :=
    (parseIpv6_lower_iff asciiCasing _).mp (by decide +kernel)
  have hloopback : Forbidden4 (groupsValue [0, 0, 0, 0, 0, 0xffff, 0x7f00, 1] % 2 ^ 32) :=
    ⟨⟨(Octets.mk 127 0 0 0).value, 8⟩, by decide, rfl⟩
  exact ((isForbiddenIp_exact asciiCasing _).2.1 _ (denotes6_iff.mpr ⟨_, hliteral, rfl⟩)).mpr
    (.inr (.inr (.inr (.inr ⟨rfl, hloopback⟩))))

/-- With a blank in front it is no address any more, but it is not forbidden. -/
theorem padded_address_allowed : isForbiddenIp asciiCasing (ascii " 8.8.8.8") = false ∧
    ¬ ∃ v, Denotes4 (ascii " 8.8.8.8") v ∨ Denotes6 (ascii " 8.8.8.8") v := by
  refine ⟨by decide +kernel, ?_⟩
  rintro ⟨v, ⟨o, ho, -⟩ | h⟩
  · exact absurd (ho.isQuadUnit_of_mem (c := unit ' ') (by decide)) (by decide)
  · obtain ⟨gs, hgs, -⟩ := denotes6_iff.mp h
    exact absurd (hgs.isLiteralUnit (unit ' ') (by decide)) (by decide)

end InvisibleString.Net
