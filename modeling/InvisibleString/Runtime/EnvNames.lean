import InvisibleString.Lib.Json

/- # `Runtime.EnvNames` — the environment variables that carry a connection's secrets

A connection's name is slugged, and slug and header names are upper-cased and folded into the
name of a variable: `MCP_<SLUG>_TOKEN` for a bearer token, `MCP_<SLUG>_HEADER_<HEADER>` for
the value of a header.  The dispatcher and the code generator both go this way.

The folding of a slug loses nothing, but what stands behind it may be read as a part of it:
`_HEADER_` of one variable is a piece of another connection's slug.

**Proved here.**

    a slug is made of `[a-z0-9-]` and its segment gives it back  (`slugSegment_injective`)
    exactly when two secrets share a variable  (`secretEnvName_eq_iff`)
-/

namespace InvisibleString.Runtime

open Json

/-! ## Text -/

/-- The upper-case form of an ASCII unit. -/
def asciiUpper (c : CodeUnit) : CodeUnit :=
  if unit 'a' ≤ c && c ≤ unit 'z' then c - 32 else c

/-- Case mapping of strings.  Beyond ASCII it is what the Unicode tables of the platform say. -/
structure CaseMapping where
  lower : JsString → JsString
  upper : JsString → JsString
  upper_ascii : ∀ s, (∀ c ∈ s, c < 0x80) → upper s = s.map asciiUpper

/-- The case mapping of ASCII text. -/
def asciiCase : CaseMapping where
  lower s := s.map fun c => if unit 'A' ≤ c && c ≤ unit 'Z' then c + 32 else c
  upper s := s.map asciiUpper
  upper_ascii _ _ := rfl

/-- `s.replace(/[^keep]+/g, sep)`; `inRun` while a run is being dropped. -/
def foldRuns (keep : CodeUnit → Bool) (sep : CodeUnit) (inRun : Bool) : JsString → JsString
  | [] => []
  | c :: s =>
    if keep c then c :: foldRuns keep sep false s
    else if inRun then foldRuns keep sep true s
    else sep :: foldRuns keep sep true s

/-- `s.replace(/sep+$/g, "")`. -/
def trimEnd (sep : CodeUnit) (s : JsString) : JsString :=
  (s.reverse.dropWhile (· == sep)).reverse

/-- `s.replace(/^sep+|sep+$/g, "")`. -/
def trimBoth (sep : CodeUnit) (s : JsString) : JsString := trimEnd sep (s.dropWhile (· == sep))

def hyphen : CodeUnit := unit '-'

def underscore : CodeUnit := unit '_'

/-! ## Names -/

def isSlugUnit (c : CodeUnit) : Bool :=
  (unit 'a' ≤ c && c ≤ unit 'z') || (unit '0' ≤ c && c ≤ unit '9')

def isEnvUnit (c : CodeUnit) : Bool :=
  (unit 'A' ≤ c && c ≤ unit 'Z') || (unit '0' ≤ c && c ≤ unit '9')

variable (U : CaseMapping)

def slugifyName (name : JsString) : JsString :=
  trimEnd hyphen
    ((trimBoth hyphen (foldRuns isSlugUnit hyphen false (U.lower name))).take 64)

/-- `my-conn` becomes `MY_CONN`. -/
def slugToEnvSegment (slug : JsString) : JsString :=
  (U.upper slug).map fun c => if c = hyphen then underscore else c

/-- The variable the generated bearer-token connection reads. -/
def connectionTokenEnvVar (slug : JsString) : JsString :=
  ascii "MCP_" ++ slugToEnvSegment U slug ++ ascii "_TOKEN"

def mcpConnectionSlug (connectionName : JsString) : JsString :=
  if slugifyName U connectionName = [] then ascii "connection" else slugifyName U connectionName

def mcpTokenEnvName (connectionName : JsString) : JsString :=
  connectionTokenEnvVar U (mcpConnectionSlug U connectionName)

/-- A header's name, as it stands in its variable. -/
def headerSegment (header : JsString) : JsString :=
  trimBoth underscore (foldRuns isEnvUnit underscore false (U.upper header))

def mcpHeaderEnvName (connectionName header : JsString) : JsString :=
  ascii "MCP_" ++ slugToEnvSegment U (mcpConnectionSlug U connectionName) ++ ascii "_HEADER_" ++
    headerSegment U header

/-- What a connection keeps secret. -/
inductive SecretName where
  | token
  | header (name : JsString)
  deriving DecidableEq

/-- What stands behind the slug in the secret's variable. -/
def SecretName.tail : SecretName → JsString
  | .token => ascii "TOKEN"
  | .header name => ascii "HEADER_" ++ headerSegment U name

/-- The variable of a secret of the connection of this name. -/
def SecretName.envName (connectionName : JsString) : SecretName → JsString
  | .token => mcpTokenEnvName U connectionName
  | .header name => mcpHeaderEnvName U connectionName name

/-! ## Slugs -/

def isSlugOrHyphen (c : CodeUnit) : Bool := isSlugUnit c || c == hyphen

theorem mem_foldRuns {keep : CodeUnit → Bool} {sep : CodeUnit} {inRun : Bool} {s : JsString}
    {c : CodeUnit} (h : c ∈ foldRuns keep sep inRun s) : keep c = true ∨ c = sep := by
  induction s generalizing inRun with
  | nil => exact absurd h List.not_mem_nil
  | cons x s ih =>
    rw [foldRuns] at h
    split at h
    · next hx =>
      rcases List.mem_cons.mp h with rfl | h
      · exact Or.inl hx
      · exact ih h
    · split at h
      · exact ih h
      · rcases List.mem_cons.mp h with rfl | h
        · exact Or.inr rfl
        · exact ih h

theorem mem_trimEnd {sep c : CodeUnit} {s : JsString} (h : c ∈ trimEnd sep s) : c ∈ s := by
  rw [trimEnd, List.mem_reverse] at h
  exact List.mem_reverse.mp ((List.dropWhile_suffix _).mem h)

theorem mem_trimBoth {sep c : CodeUnit} {s : JsString} (h : c ∈ trimBoth sep s) : c ∈ s :=
  (List.dropWhile_suffix _).mem (mem_trimEnd h)

theorem isSlugOrHyphen_of_mem_slugifyName {name : JsString} {c : CodeUnit}
    (h : c ∈ slugifyName U name) : isSlugOrHyphen c = true := by
  rcases mem_foldRuns (mem_trimBoth (List.mem_of_mem_take (mem_trimEnd h))) with hc | rfl
  · rw [isSlugOrHyphen, hc, Bool.true_or]
  · decide

theorem isSlugOrHyphen_of_mem_slug {name : JsString} {c : CodeUnit}
    (h : c ∈ mcpConnectionSlug U name) : isSlugOrHyphen c = true := by
  rw [mcpConnectionSlug] at h
  split at h
  · have hall : (ascii "connection").all isSlugOrHyphen = true := by decide
    exact List.all_eq_true.mp hall c h
  · exact isSlugOrHyphen_of_mem_slugifyName U h

/-- One unit of a slug in a variable's name. -/
def envUnit (c : CodeUnit) : CodeUnit := if c = hyphen then underscore else asciiUpper c

def slugUnit (c : CodeUnit) : CodeUnit :=
  if c = underscore then hyphen else if unit 'A' ≤ c && c ≤ unit 'Z' then c + 32 else c

theorem toNat_lt_of_isSlugOrHyphen {c : CodeUnit} (h : isSlugOrHyphen c = true) :
    c.toNat < 123 := by
  simp only [isSlugOrHyphen, isSlugUnit, Bool.or_eq_true, Bool.and_eq_true, decide_eq_true_eq,
    beq_iff_eq] at h
  rcases h with (⟨-, h⟩ | ⟨-, h⟩) | rfl
  · exact Nat.lt_succ_of_le (UInt16.le_iff_toNat_le.mp h)
  · exact Nat.lt_of_le_of_lt (UInt16.le_iff_toNat_le.mp h) (by decide)
  · decide

theorem slugUnit_envUnit {c : CodeUnit} (h : isSlugOrHyphen c = true) : slugUnit (envUnit c) = c := by
  have hall : ∀ n < 123, isSlugOrHyphen (UInt16.ofNat n) = true →
      slugUnit (envUnit (UInt16.ofNat n)) = UInt16.ofNat n := by decide
  have hc := hall c.toNat (toNat_lt_of_isSlugOrHyphen h)
  rw [UInt16.ofNat_toNat] at hc
  exact hc h

/-- A slug made of the units of slugs. -/
def IsSlug (slug : JsString) : Prop := ∀ c ∈ slug, isSlugOrHyphen c = true

theorem isSlug_of_all {s : JsString} (h : s.all isSlugOrHyphen = true) : IsSlug s :=
  List.all_eq_true.mp h

theorem isSlug_mcpConnectionSlug (name : JsString) : IsSlug (mcpConnectionSlug U name) :=
  fun _ h => isSlugOrHyphen_of_mem_slug U h

theorem slugToEnvSegment_eq {slug : JsString} (h : IsSlug slug) :
    slugToEnvSegment U slug = slug.map envUnit := by
  have hascii : ∀ c ∈ slug, c < 0x80 := fun c hc =>
    UInt16.lt_iff_toNat_lt.mpr (Nat.lt_trans (toNat_lt_of_isSlugOrHyphen (h c hc)) (by decide))
  rw [slugToEnvSegment, U.upper_ascii slug hascii, List.map_map]
  refine List.map_congr_left fun c hc => ?_
  have hall : ∀ n < 123, isSlugOrHyphen (UInt16.ofNat n) = true →
      (if asciiUpper (UInt16.ofNat n) = hyphen then underscore else asciiUpper (UInt16.ofNat n)) =
        envUnit (UInt16.ofNat n) := by decide
  have hn := hall c.toNat (toNat_lt_of_isSlugOrHyphen (h c hc))
  rw [UInt16.ofNat_toNat] at hn
  exact hn (h c hc)

/-- The segment of a slug gives the slug back. -/
theorem slugSegment_injective {slug slug' : JsString} (h : IsSlug slug) (h' : IsSlug slug')
    (heq : slug.map envUnit = slug'.map envUnit) : slug = slug' := by
  have hback : ∀ {s : JsString}, IsSlug s → (s.map envUnit).map slugUnit = s := by
    intro s hs
    rw [List.map_map]
    refine (List.map_congr_left fun c hc => ?_).trans (List.map_id s)
    exact slugUnit_envUnit (hs c hc)
  rw [← hback h, heq, hback h']

/-! ## Shared variables -/

theorem underscore_append_eq {A B s t : JsString} :
    A ++ underscore :: s = B ++ underscore :: t ↔ (A = B ∧ s = t) ∨
      (∃ r, A = B ++ underscore :: r ∧ t = r ++ underscore :: s) ∨
      ∃ r, B = A ++ underscore :: r ∧ s = r ++ underscore :: t := by
  constructor
  · intro h
    rcases List.append_eq_append_iff.mp h with ⟨r, hB, hs⟩ | ⟨r, hA, ht⟩
    · cases r with
      | nil => exact Or.inl ⟨by rw [hB, List.append_nil], (List.cons.inj hs).2⟩
      | cons c r =>
        rw [List.cons_append] at hs
        obtain ⟨rfl, hs'⟩ := List.cons.inj hs
        exact Or.inr (Or.inr ⟨r, hB, hs'⟩)
    · cases r with
      | nil => exact Or.inl ⟨by rw [hA, List.append_nil], (List.cons.inj ht).2.symm⟩
      | cons c r =>
        rw [List.cons_append] at ht
        obtain ⟨rfl, ht'⟩ := List.cons.inj ht
        exact Or.inr (Or.inl ⟨r, hA, ht'⟩)
  · rintro (⟨rfl, rfl⟩ | ⟨r, rfl, rfl⟩ | ⟨r, rfl, rfl⟩)
    · rfl
    · simp
    · simp

theorem tail_eq_iff {r s : JsString} (t : SecretName) :
    t.tail U = r ++ underscore :: s ↔ ∃ name, t = .header name ∧
      ((r = ascii "HEADER" ∧ headerSegment U name = s) ∨
        ∃ z, r = ascii "HEADER" ++ underscore :: z ∧ headerSegment U name = z ++ underscore :: s) := by
  have hno : ∀ {A B : JsString}, underscore ∉ A → A ≠ B ++ underscore :: s := by
    rintro A B hA rfl
    exact hA (List.mem_append_right _ List.mem_cons_self)
  cases t with
  | token =>
    constructor
    · intro h
      exact absurd h (hno (show underscore ∉ ascii "TOKEN" by decide))
    · rintro ⟨_, ⟨⟩, _⟩
  | header name =>
    have htail : (SecretName.header name).tail U =
        ascii "HEADER" ++ underscore :: headerSegment U name := rfl
    rw [htail, underscore_append_eq]
    constructor
    · rintro (⟨rfl, h⟩ | ⟨z, hz, -⟩ | ⟨z, rfl, h⟩)
      · exact ⟨name, rfl, Or.inl ⟨rfl, h⟩⟩
      · have hmem : underscore ∈ ascii "HEADER" :=
          hz ▸ List.mem_append_right _ List.mem_cons_self
        exact absurd hmem (by decide)
      · exact ⟨name, rfl, Or.inr ⟨z, rfl, h⟩⟩
    · rintro ⟨_, ⟨⟩, ⟨rfl, h⟩ | ⟨z, rfl, h⟩⟩
      · exact Or.inl ⟨rfl, h⟩
      · exact Or.inr (Or.inr ⟨z, rfl, h⟩)

/-- The secret `s` behind `slug` reads like the header `header` behind `slug'`: `slug` goes on
where `slug'` ends, with what the header's variable goes on with. -/
def GoesOn (slug : JsString) (s : SecretName) (slug' header : JsString) : Prop :=
  (slug = slug' ++ ascii "-header" ∧ headerSegment U header = s.tail U) ∨
    ∃ z, slug = slug' ++ ascii "-header-" ++ z ∧
      headerSegment U header = z.map envUnit ++ underscore :: s.tail U

/-- The two secrets share a variable. -/
def Alike (slug : JsString) (s : SecretName) (slug' : JsString) (t : SecretName) : Prop :=
  (slug = slug' ∧ s.tail U = t.tail U) ∨ (∃ header, t = .header header ∧ GoesOn U slug s slug' header) ∨
    ∃ header, s = .header header ∧ GoesOn U slug' t slug header

theorem envName_eq (name : JsString) (s : SecretName) :
    s.envName U name = ascii "MCP_" ++
      ((mcpConnectionSlug U name).map envUnit ++ underscore :: s.tail U) := by
  have hseg := slugToEnvSegment_eq U (isSlug_mcpConnectionSlug U name)
  cases s with
  | token =>
    rw [SecretName.envName, mcpTokenEnvName, connectionTokenEnvVar, hseg, List.append_assoc]
    rfl
  | header header =>
    rw [SecretName.envName, mcpHeaderEnvName, hseg, List.append_assoc, List.append_assoc]
    rfl

/-- A slug whose segment begins with another's. -/
theorem map_envUnit_eq_append {slug slug' z r : JsString} (h : IsSlug slug) (h' : IsSlug slug')
    (hz : IsSlug z) (heq : slug.map envUnit = slug'.map envUnit ++ (z.map envUnit ++ r)) :
    ∃ w, slug = slug' ++ (z ++ w) ∧ w.map envUnit = r := by
  obtain ⟨a, b, rfl, ha, hb⟩ := List.map_eq_append_iff.mp heq
  obtain ⟨c, w, rfl, hc, hw⟩ := List.map_eq_append_iff.mp hb
  have ha' : a = slug' :=
    slugSegment_injective (fun x hx => h x (List.mem_append_left _ hx)) h' ha
  have hc' : c = z := slugSegment_injective
    (fun x hx => h x (List.mem_append_right _ (List.mem_append_left _ hx))) hz hc
  exact ⟨w, by rw [ha', hc'], hw⟩

theorem goesOn_iff {slug slug' : JsString} {s t : SecretName} (h : IsSlug slug)
    (h' : IsSlug slug') :
    (∃ r, slug.map envUnit = slug'.map envUnit ++ underscore :: r ∧
      t.tail U = r ++ underscore :: s.tail U) ↔
      ∃ header, t = .header header ∧ GoesOn U slug s slug' header := by
  have hseg : underscore :: ascii "HEADER" = (ascii "-header").map envUnit := by decide
  have hseg' : underscore :: (ascii "HEADER" ++ [underscore]) = (ascii "-header-").map envUnit := by
    decide
  constructor
  · rintro ⟨r, hslug, htail⟩
    obtain ⟨header, rfl, ⟨rfl, hh⟩ | ⟨z, rfl, hh⟩⟩ := (tail_eq_iff U t).mp htail
    · rw [hseg, ← List.append_nil (List.map envUnit (ascii "-header"))] at hslug
      obtain ⟨w, hw, hnil⟩ := map_envUnit_eq_append h h' (isSlug_of_all (by decide)) hslug
      rw [List.map_eq_nil_iff.mp hnil, List.append_nil] at hw
      exact ⟨header, rfl, Or.inl ⟨hw, hh⟩⟩
    · have hcut : underscore :: (ascii "HEADER" ++ underscore :: z) =
          (ascii "-header-").map envUnit ++ z := by
        rw [← hseg', List.cons_append, List.append_assoc]
        rfl
      rw [hcut] at hslug
      obtain ⟨w, hw, hz⟩ := map_envUnit_eq_append h h' (isSlug_of_all (by decide)) hslug
      rw [← List.append_assoc] at hw
      exact ⟨header, rfl, Or.inr ⟨w, hw, by rw [hz, hh]⟩⟩
  · rintro ⟨header, rfl, ⟨rfl, hh⟩ | ⟨z, rfl, hh⟩⟩
    · refine ⟨ascii "HEADER", by rw [List.map_append, hseg], ?_⟩
      exact (tail_eq_iff U _).mpr ⟨header, rfl, Or.inl ⟨rfl, hh⟩⟩
    · refine ⟨ascii "HEADER" ++ underscore :: z.map envUnit, ?_, ?_⟩
      · rw [List.map_append, List.map_append, ← hseg', List.append_assoc, List.cons_append,
          List.append_assoc]
        rfl
      · exact (tail_eq_iff U _).mpr ⟨header, rfl, Or.inr ⟨_, rfl, hh⟩⟩

theorem secretEnvName_eq_iff {name name' : JsString} {s t : SecretName} :
    s.envName U name = t.envName U name' ↔
      Alike U (mcpConnectionSlug U name) s (mcpConnectionSlug U name') t := by
  have h := isSlug_mcpConnectionSlug U name
  have h' := isSlug_mcpConnectionSlug U name'
  rw [envName_eq, envName_eq, List.append_cancel_left_eq, underscore_append_eq, goesOn_iff U h h',
    goesOn_iff U h' h, Alike]
  refine or_congr_left (and_congr_left fun _ => ⟨fun heq => slugSegment_injective h h' heq, ?_⟩)
  intro heq
  rw [heq]

end InvisibleString.Runtime
