import InvisibleString.Lib.Spans
import InvisibleString.Shared.Scope

/- # `Shared.Markdown` — rendering a markdown template in one pass

The reference grammar is a regular expression: an `@` that nothing blocks, then the longest
dotted name.  The renderer splices the replacements into the text from the last reference to
the first.

**Proved here.**

    the references are the matches of the grammar, in order and disjoint  (`parseReferences_spec`)
    the rendered text is the text between the references with their replacements in place, read
      once  (`markdown_single_pass`)
-/

namespace InvisibleString.Shared

open Json Spans

/-! ## The grammar -/

/-- `[A-Za-z0-9_-]*(?:\.[A-Za-z0-9_-]+)*`. -/
inductive NameTail : JsString → Prop
  | nil : NameTail []
  | cons {c : CodeUnit} {s : JsString} : isNameUnit c = true → NameTail s → NameTail (c :: s)
  | dot {c : CodeUnit} {s : JsString} : isNameUnit c = true → NameTail s →
      NameTail (unit '.' :: c :: s)

/-- A letter, and such a tail. -/
def IsDottedName : JsString → Prop
  | [] => False
  | c :: s => isLetter c = true ∧ NameTail s

/-- The longest dotted name at the beginning of `s`. -/
structure LongestName (s name : JsString) : Prop where
  dotted : IsDottedName name
  begins : name <+: s
  longest : ∀ name', IsDottedName name' → name' <+: s → name' <+: name

theorem isNameUnit_dot : isNameUnit (unit '.') = false := by decide

theorem NameTail.tail_of_cons {c : CodeUnit} {s : JsString} (h : NameTail (c :: s))
    (hc : isNameUnit c = true) : NameTail s := by
  cases h with
  | cons _ h => exact h
  | dot _ _ =>
    rw [isNameUnit_dot] at hc
    cases hc

theorem nameTail_unit {c : CodeUnit} {s : JsString} (hc : isNameUnit c = true) :
    nameTail (c :: s) = c :: nameTail s := by
  rw [nameTail, hc, Bool.true_or, if_pos rfl]

theorem nameTail_dot {c : CodeUnit} {s : JsString} (hc : isNameUnit c = true) :
    nameTail (unit '.' :: c :: s) = unit '.' :: c :: nameTail s := by
  rw [nameTail, isNameUnit_dot, Bool.false_or, beq_self_eq_true, Bool.true_and,
    if_pos (show (c :: s).head?.any isNameUnit = true from hc), nameTail_unit hc]

/-- What the scan takes is of the grammar. -/
theorem nameTail_spec (s : JsString) : NameTail (nameTail s) ∧ nameTail s <+: s := by
  induction s with
  | nil => exact ⟨.nil, List.prefix_refl _⟩
  | cons c s ih =>
    obtain ⟨htail, hstart⟩ := ih
    cases hc : isNameUnit c with
    | true =>
      rw [nameTail_unit hc]
      exact ⟨.cons hc htail, List.cons_prefix_cons.mpr ⟨rfl, hstart⟩⟩
    | false =>
      rw [nameTail, hc, Bool.false_or]
      split
      · next hdot =>
        obtain ⟨hc', hnext⟩ := Bool.and_eq_true_iff.mp hdot
        cases eq_of_beq hc'
        refine ⟨?_, List.cons_prefix_cons.mpr ⟨rfl, hstart⟩⟩
        cases s with
        | nil => cases hnext
        | cons d s =>
          have hd : isNameUnit d = true := hnext
          rw [nameTail_unit hd] at htail ⊢
          exact .dot hd (htail.tail_of_cons hd)
      · exact ⟨.nil, List.nil_prefix⟩

theorem nameTail_longest {t s : JsString} (h : NameTail t) (hstart : t <+: s) :
    t <+: nameTail s := by
  induction h generalizing s with
  | nil => exact List.nil_prefix
  | @cons c t hc _ ih =>
    obtain ⟨rest, rfl⟩ := hstart
    rw [List.cons_append, nameTail_unit hc]
    exact List.cons_prefix_cons.mpr ⟨rfl, ih (List.prefix_append _ _)⟩
  | @dot c t hc _ ih =>
    obtain ⟨rest, rfl⟩ := hstart
    rw [List.cons_append, List.cons_append, nameTail_dot hc]
    refine List.cons_prefix_cons.mpr ⟨rfl, List.cons_prefix_cons.mpr ⟨rfl, ?_⟩⟩
    exact ih (List.prefix_append _ _)

theorem dottedName_eq_some {s name : JsString} : dottedName s = some name ↔ LongestName s name := by
  cases s with
  | nil =>
    constructor
    · nofun
    · intro h
      have hnil := List.prefix_nil.mp h.begins
      exact absurd h.dotted (by rw [hnil]; exact id)
  | cons c s =>
    obtain ⟨htail, hstart⟩ := nameTail_spec s
    rw [dottedName]
    constructor
    · intro h
      split at h
      · next hc =>
        cases h
        refine ⟨⟨hc, htail⟩, List.cons_prefix_cons.mpr ⟨rfl, hstart⟩, ?_⟩
        intro name' hdotted hbegins
        cases name' with
        | nil => exact List.nil_prefix
        | cons c' t =>
          obtain ⟨rfl, ht⟩ := List.cons_prefix_cons.mp hbegins
          exact List.cons_prefix_cons.mpr ⟨rfl, nameTail_longest hdotted.2 ht⟩
      · cases h
    · intro h
      cases name with
      | nil => exact absurd h.dotted id
      | cons c' t =>
        obtain ⟨rfl, ht⟩ := List.cons_prefix_cons.mp h.begins
        rw [if_pos h.dotted.1]
        -- either is a prefix of the other
        have hle := nameTail_longest h.dotted.2 ht
        have hge := h.longest (c' :: nameTail s) ⟨h.dotted.1, htail⟩
          (List.cons_prefix_cons.mpr ⟨rfl, hstart⟩)
        have hge := (List.cons_prefix_cons.mp hge).2
        rw [hge.eq_of_length (Nat.le_antisymm hge.length_le hle.length_le)]

theorem isNameUnit_at : isNameUnit (unit '@') = false := by decide

theorem NameTail.at_not_mem {t : JsString} (h : NameTail t) : unit '@' ∉ t := by
  induction h with
  | nil => exact List.not_mem_nil
  | @cons c t hc _ ih =>
    refine List.not_mem_cons_of_ne_of_not_mem ?_ ih
    rintro rfl
    rw [isNameUnit_at] at hc
    cases hc
  | @dot c t hc _ ih =>
    refine List.not_mem_cons_of_ne_of_not_mem (by decide)
      (List.not_mem_cons_of_ne_of_not_mem ?_ ih)
    rintro rfl
    rw [isNameUnit_at] at hc
    cases hc

theorem IsDottedName.at_not_mem {name : JsString} (h : IsDottedName name) : unit '@' ∉ name := by
  cases name with
  | nil => exact absurd h id
  | cons c t =>
    refine List.not_mem_cons_of_ne_of_not_mem ?_ h.2.at_not_mem
    rintro rfl
    exact absurd h.1 (by decide)

/-! ## One reference -/

/-- The first segment of a name. -/
def headOf (name : JsString) : JsString := (name.splitOn (unit '.')).headD []

/-- References that take no path: their span ends behind the first segment. -/
def ReferenceKind.truncates : ReferenceKind → Bool
  | .now | .connection _ => true
  | _ => false

theorem headOf_prefix (name : JsString) : headOf name <+: name := by
  have hjoin : [unit '.'].intercalate (name.splitOn (unit '.')) = name :=
    List.intercalate_splitOn (unit '.')
  rw [headOf]
  cases hsplit : name.splitOn (unit '.') with
  | nil => exact List.nil_prefix
  | cons head tail =>
    rw [hsplit] at hjoin
    rw [← hjoin]
    cases tail with
    | nil =>
      rw [List.intercalate_singleton]
      exact List.prefix_refl _
    | cons next tail =>
      rw [List.intercalate_cons_cons, List.append_assoc]
      exact List.prefix_append _ _

theorem classify_start (start : Nat) (name : JsString) : (classify start name).start = start := by
  rw [classify]
  repeat' split
  all_goals rfl

/-- The raw text is the at-sign with the name, or with its head. -/
theorem classify_raw (start : Nat) (name : JsString) :
    (classify start name).raw =
      unit '@' :: if (classify start name).kind.truncates then headOf name else name := by
  rw [classify]
  split
  · rfl
  · split
    · rfl
    · split
      · rfl
      · split
        · rfl
        · split
          · next hnow =>
            show ascii "@now" = unit '@' :: headOf name
            rw [headOf, hnow]
            rfl
          · split
            · rfl
            · rfl

theorem classify_stop (start : Nat) (name : JsString) :
    (classify start name).stop = start + (classify start name).raw.length := by
  rw [classify]
  repeat' split
  all_goals rfl

theorem classify_raw_start (start : Nat) (name : JsString) :
    (classify start name).raw <+: unit '@' :: name := by
  rw [classify_raw]
  refine List.cons_prefix_cons.mpr ⟨rfl, ?_⟩
  split
  · exact headOf_prefix name
  · exact List.prefix_refl _

/-! ## The scan -/

/-- Where a reference stands: behind a text whose last unit does not block it, with the longest
name of what follows. -/
structure Stands (markdown before : JsString) (name : JsString) : Prop where
  follows : ∃ after, markdown = before ++ unit '@' :: after ∧ LongestName after name
  free : before.getLast?.any isBlocking = false

/-- The first unit behind `done` is the at-sign, or stands before it. -/
theorem Stands.cases {done s before name : JsString} {c : CodeUnit}
    (h : Stands (done ++ c :: s) (done ++ before) name) :
    (before = [] ∧ c = unit '@' ∧ LongestName s name) ∨ ∃ before', before = c :: before' := by
  obtain ⟨after, hsplit, hname⟩ := h.follows
  rw [List.append_assoc] at hsplit
  have hsplit := List.append_cancel_left hsplit
  cases before with
  | nil =>
    obtain ⟨rfl, rfl⟩ := List.cons.inj hsplit
    exact .inl ⟨rfl, rfl, hname⟩
  | cons d before' =>
    obtain ⟨rfl, -⟩ := List.cons.inj hsplit
    exact .inr ⟨before', rfl⟩

/-- The scan behind `done`, whose last match covers the next `skip` units. -/
theorem mem_scanReferences {s : JsString} (done : JsString) (skip : Nat)
    (hskip : unit '@' ∉ s.take skip) (ref : ParsedReference) :
    ref ∈ scanReferences skip done.getLast? done.length s ↔
      ∃ before name, Stands (done ++ s) (done ++ before) name ∧
        ref = classify (done ++ before).length name := by
  induction s generalizing done skip with
  | nil =>
    constructor
    · nofun
    · rintro ⟨before, name, ⟨⟨after, h, -⟩, -⟩, -⟩
      have hlength := congrArg List.length h
      simp only [List.append_nil, List.length_append, List.length_cons] at hlength
      omega
  | cons c s ih =>
    -- behind `c` it is the induction hypothesis, with one unit more that is done
    have hrest (skip' : Nat) (hskip' : unit '@' ∉ s.take skip') :
        ref ∈ scanReferences skip' (some c) (done.length + 1) s ↔
          ∃ before name, Stands (done ++ c :: s) (done ++ c :: before) name ∧
            ref = classify (done ++ c :: before).length name := by
      have h := ih (done ++ [c]) skip' hskip'
      rw [List.getLast?_concat, List.length_append, List.length_singleton] at h
      simp only [List.append_assoc, List.singleton_append] at h
      exact h
    -- so a reference at `c` is left to compare
    have hsplit (hhere : ¬ ∃ name, Stands (done ++ c :: s) done name) :
        (∃ before name, Stands (done ++ c :: s) (done ++ before) name ∧
            ref = classify (done ++ before).length name) ↔
          ∃ before name, Stands (done ++ c :: s) (done ++ c :: before) name ∧
            ref = classify (done ++ c :: before).length name := by
      constructor
      · rintro ⟨before, name, hstands, heq⟩
        rcases hstands.cases with ⟨rfl, -⟩ | ⟨before', rfl⟩
        · rw [List.append_nil] at hstands
          exact absurd ⟨name, hstands⟩ hhere
        · exact ⟨before', name, hstands, heq⟩
      · rintro ⟨before, h⟩
        exact ⟨c :: before, h⟩
    have hnil {name : JsString} (h : Stands (done ++ c :: s) done name) :
        c = unit '@' ∧ LongestName s name := by
      rw [← List.append_nil done] at h
      rw [List.append_assoc] at h
      rcases h.cases with ⟨-, hc, hname⟩ | ⟨before', h⟩
      · exact ⟨hc, hname⟩
      · cases h
    cases skip with
    | succ skip =>
      have hmem := List.not_mem_of_not_mem_cons (show unit '@' ∉ c :: s.take skip from hskip)
      rw [scanReferences, hrest skip hmem, hsplit]
      rintro ⟨name, hstands⟩
      rw [(hnil hstands).1] at hskip
      exact hskip List.mem_cons_self
    | zero =>
      rw [scanReferences]
      cases hmatch : (if c == unit '@' && !done.getLast?.any isBlocking then dottedName s
        else none) with
      | none =>
        dsimp only
        rw [hrest 0 List.not_mem_nil, hsplit]
        rintro ⟨name, hstands⟩
        obtain ⟨rfl, hname⟩ := hnil hstands
        rw [if_pos (by rw [hstands.free]; rfl), dottedName_eq_some.mpr hname] at hmatch
        cases hmatch
      | some name =>
        split at hmatch
        · next hhere =>
          obtain ⟨hc, hfree⟩ := Bool.and_eq_true_iff.mp hhere
          cases eq_of_beq hc
          rw [Bool.not_eq_true'] at hfree
          have hname := dottedName_eq_some.mp hmatch
          have hstands : Stands (done ++ unit '@' :: s) done name := ⟨⟨s, rfl, hname⟩, hfree⟩
          have htake : s.take name.length = name :=
            (List.prefix_iff_eq_take.mp hname.begins).symm
          rw [List.mem_cons, hrest name.length (by rw [htake]; exact hname.dotted.at_not_mem)]
          constructor
          · rintro (rfl | ⟨before, h⟩)
            · refine ⟨[], name, ?_, ?_⟩
              · rw [List.append_nil]
                exact hstands
              · rw [List.append_nil]
            · exact ⟨unit '@' :: before, h⟩
          · rintro ⟨before, name', hstands', heq⟩
            rcases hstands'.cases with ⟨rfl, -, hname'⟩ | ⟨before', rfl⟩
            · have hsame := (dottedName_eq_some.mpr hname').symm.trans hmatch
              cases hsame
              rw [List.append_nil] at heq
              exact .inl heq
            · exact .inr ⟨before', name', hstands', heq⟩
        · cases hmatch

/-- The scan goes forward: each reference begins behind what is skipped and behind the last
one's name. -/
theorem scanReferences_ordered (s : JsString) (skip : Nat) (before : Option CodeUnit)
    (start : Nat) :
    (∀ ref ∈ scanReferences skip before start s, start + skip ≤ ref.start) ∧
      (scanReferences skip before start s).Pairwise fun a b => a.stop ≤ b.start := by
  induction s generalizing skip before start with
  | nil => exact ⟨nofun, .nil⟩
  | cons c s ih =>
    cases skip with
    | succ skip =>
      obtain ⟨hstart, horder⟩ := ih skip (some c) (start + 1)
      refine ⟨fun ref href => ?_, horder⟩
      have := hstart ref href
      omega
    | zero =>
      rw [scanReferences]
      split
      · next name _ =>
        obtain ⟨hstart, horder⟩ := ih name.length (some c) (start + 1)
        constructor
        · intro ref href
          rcases List.mem_cons.mp href with rfl | href
          · rw [classify_start]
            exact Nat.le_refl _
          · have := hstart ref href
            omega
        · refine List.pairwise_cons.mpr ⟨fun ref href => ?_, horder⟩
          have hle := (classify_raw_start start name).length_le
          have := hstart ref href
          rw [classify_stop]
          rw [List.length_cons] at hle
          omega
      · obtain ⟨hstart, horder⟩ := ih 0 (some c) (start + 1)
        refine ⟨fun ref href => ?_, horder⟩
        have := hstart ref href
        omega

/-! ## The references of a text -/

/-- The references are those of the grammar. -/
structure ReferencesOf (markdown : JsString) (refs : List ParsedReference) : Prop where
  each : ∀ ref, ref ∈ refs ↔
    ∃ before name, Stands markdown before name ∧ ref = classify before.length name
  /-- one for each at-sign that nothing blocks and a letter follows -/
  one : ∀ before after, markdown = before ++ unit '@' :: after →
    ((∃! ref, ref ∈ refs ∧ ref.start = before.length) ↔
      before.getLast?.any isBlocking = false ∧ after.head?.any isLetter = true)
  disjoint : refs.Pairwise fun a b => a.stop ≤ b.start
  proper : ∀ ref ∈ refs, ref.start < ref.stop ∧ ref.stop ≤ markdown.length
  raw : ∀ ref ∈ refs, (markdown.drop ref.start).take (ref.stop - ref.start) = ref.raw

theorem dottedName_isSome (s : JsString) : (dottedName s).isSome = s.head?.any isLetter := by
  cases s with
  | nil => rfl
  | cons c s =>
    show (if isLetter c then some (c :: nameTail s) else none).isSome = isLetter c
    cases isLetter c with
    | true => rfl
    | false => rfl

/-- At one position stands one reference at most. -/
theorem Stands.unique {markdown before after name : JsString}
    (hsplit : markdown = before ++ unit '@' :: after) {before' : JsString}
    (h : Stands markdown before' name) (hstart : before'.length = before.length) :
    before' = before ∧ dottedName after = some name := by
  obtain ⟨after', hsplit', hname⟩ := h.follows
  obtain ⟨rfl, heq⟩ := List.append_inj (hsplit'.symm.trans hsplit) hstart
  obtain ⟨-, rfl⟩ := List.cons.inj heq
  exact ⟨rfl, dottedName_eq_some.mpr hname⟩

theorem Stands.raw {markdown before name : JsString} (h : Stands markdown before name) :
    (classify before.length name).raw <+: markdown.drop before.length ∧
      (classify before.length name).stop ≤ markdown.length := by
  obtain ⟨after, rfl, hname⟩ := h.follows
  have hraw : (classify before.length name).raw <+: unit '@' :: after :=
    (classify_raw_start before.length name).trans
      (List.cons_prefix_cons.mpr ⟨rfl, hname.begins⟩)
  rw [List.drop_left]
  refine ⟨hraw, ?_⟩
  rw [classify_stop, List.length_append]
  exact Nat.add_le_add_left hraw.length_le _

theorem parseReferences_spec (markdown : JsString) :
    ReferencesOf markdown (parseReferences markdown) := by
  have heach (ref : ParsedReference) : ref ∈ parseReferences markdown ↔
      ∃ before name, Stands markdown before name ∧ ref = classify before.length name :=
    mem_scanReferences [] 0 List.not_mem_nil ref
  refine ⟨heach, ?_, (scanReferences_ordered markdown 0 none 0).2, ?_, ?_⟩
  · intro before after hsplit
    constructor
    · rintro ⟨ref, ⟨href, hstart⟩, -⟩
      obtain ⟨before', name, hstands, rfl⟩ := (heach ref).mp href
      rw [classify_start] at hstart
      obtain ⟨rfl, hname⟩ := hstands.unique hsplit hstart
      refine ⟨hstands.free, ?_⟩
      rw [← dottedName_isSome, hname]
      rfl
    · rintro ⟨hfree, hletter⟩
      rw [← dottedName_isSome] at hletter
      obtain ⟨name, hname⟩ := Option.isSome_iff_exists.mp hletter
      have hstands : Stands markdown before name :=
        ⟨⟨after, hsplit, dottedName_eq_some.mp hname⟩, hfree⟩
      refine ⟨classify before.length name, ⟨(heach _).mpr ⟨before, name, hstands, rfl⟩,
        classify_start _ _⟩, ?_⟩
      rintro ref ⟨href, hstart⟩
      obtain ⟨before', name', hstands', rfl⟩ := (heach ref).mp href
      rw [classify_start] at hstart
      obtain ⟨rfl, hname'⟩ := hstands'.unique hsplit hstart
      rw [hname] at hname'
      cases hname'
      rfl
  · intro ref href
    obtain ⟨before, name, hstands, rfl⟩ := (heach ref).mp href
    refine ⟨?_, hstands.raw.2⟩
    rw [classify_start, classify_stop, classify_raw, List.length_cons]
    omega
  · intro ref href
    obtain ⟨before, name, hstands, rfl⟩ := (heach ref).mp href
    rw [classify_start, classify_stop, Nat.add_sub_cancel_left]
    exact (List.prefix_iff_eq_take.mp hstands.raw.1).symm

/-! ## Rendering -/

variable (F : NumberFormat Rat)

/-- Every reference is rewritten in place, from the end so that earlier spans stay valid. -/
def renderMarkdownTemplate (markdown : JsString) (scope : PipelineScope) : JsString :=
  (parseReferences markdown).reverse.foldl
    (fun resolved ref =>
      resolved.take ref.start ++ replacement F scope ref.kind ++ resolved.drop ref.stop)
    markdown

/-- The span of a reference, and what comes in its place. -/
def spanOf (scope : PipelineScope) (ref : ParsedReference) : Span CodeUnit :=
  ⟨ref.start, ref.stop, replacement F scope ref.kind⟩

theorem ordered_of_referencesOf {markdown : JsString} {refs : List ParsedReference} {pos : Nat}
    (scope : PipelineScope) (hpos : pos ≤ markdown.length) (hstart : ∀ ref ∈ refs, pos ≤ ref.start)
    (hdisjoint : refs.Pairwise fun a b => a.stop ≤ b.start)
    (hproper : ∀ ref ∈ refs, ref.start < ref.stop ∧ ref.stop ≤ markdown.length) :
    Ordered markdown.length pos (refs.map (spanOf F scope)) := by
  induction refs generalizing pos with
  | nil => exact hpos
  | cons ref refs ih =>
    obtain ⟨hnext, hdisjoint⟩ := List.pairwise_cons.mp hdisjoint
    obtain ⟨⟨hlt, hle⟩, hproper⟩ := List.forall_mem_cons.mp hproper
    exact ⟨hstart ref List.mem_cons_self, Nat.le_of_lt hlt, ih hle hnext hdisjoint hproper⟩

/-- The references are those of the grammar, and the rendered text is the template read once with
each reference replaced. -/
theorem markdown_single_pass (markdown : JsString) :
    ReferencesOf markdown (parseReferences markdown) ∧
      ∀ scope, renderMarkdownTemplate F markdown scope =
        onePass markdown 0 ((parseReferences markdown).map (spanOf F scope)) := by
  have hspec := parseReferences_spec markdown
  refine ⟨hspec, fun scope => ?_⟩
  rw [← spliceAll_eq_onePass (ordered_of_referencesOf F scope (Nat.zero_le _)
    (fun ref _ => Nat.zero_le _) hspec.disjoint hspec.proper)]
  rw [spliceAll, ← List.map_reverse, List.foldl_map]
  rfl

end InvisibleString.Shared
