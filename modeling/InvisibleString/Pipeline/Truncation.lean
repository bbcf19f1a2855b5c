import InvisibleString.Lib.Utf8

/- # `Pipeline.Truncation` — texts cut to a number of bytes

A completed step's event carries the first bytes of its output's JSON text, and a tool step the
first bytes of what the tool said.  Both cut the UTF-8 form, decode what is left and take the
replacement characters off its end, which a cut code point leaves there.

**Proved here.**

    the text left is the longest prefix that fits, and ends at a code point,
    if and only if this prefix is read back as it is and ends with no
    replacement character of its own  (`truncation_exact`)
-/

namespace InvisibleString.Pipeline

open Json Utf8

/-- `new TextDecoder().decode(bytes).replace(/\uFFFD+$/, "")`. -/
def decodeHead (bytes : List Byte) : JsString := dropReplacements (TextDecoder.fresh.finish bytes)

def PIPELINE_STEP_OUTPUT_PREVIEW_MAX_BYTES : Nat := 2048

/-- What `JSON.stringify` answers is given, `none` where it throws or answers `undefined`. -/
def buildStepOutputPreview : Option JsString → Option JsString
  | none => none
  | some json =>
    if json.length = 0 then none
    else if (encode json).length ≤ PIPELINE_STEP_OUTPUT_PREVIEW_MAX_BYTES then some json
    else some (decodeHead ((encode json).take PIPELINE_STEP_OUTPUT_PREVIEW_MAX_BYTES))

def MAX_TOOL_TEXT_BYTES : Nat := 262144

/-- Appended to a text that was cut. -/
def TOOL_TEXT_TRUNCATION_MARKER : JsString := ascii "\n… [truncated]"

def budget : Nat := MAX_TOOL_TEXT_BYTES - (encode TOOL_TEXT_TRUNCATION_MARKER).length

/-- The text, and whether it was cut. -/
def truncateText (raw : JsString) : JsString × Bool :=
  if (encode raw).length ≤ MAX_TOOL_TEXT_BYTES then (raw, false)
  else (decodeHead ((encode raw).take budget) ++ TOOL_TEXT_TRUNCATION_MARKER, true)

/-! ## The law -/

/-- The text itself where it fits, and else its longest prefix that does. -/
def KeepsPreview (json : JsString) : Prop :=
  if (encode json).length ≤ PIPELINE_STEP_OUTPUT_PREVIEW_MAX_BYTES then
    buildStepOutputPreview (some json) = some json
  else
    ∃ part, buildStepOutputPreview (some json) = some part ∧
      LongestPrefix PIPELINE_STEP_OUTPUT_PREVIEW_MAX_BYTES json part

/-- The same of a tool's text, with the marker behind the prefix. -/
def KeepsText (raw : JsString) : Prop :=
  if (encode raw).length ≤ MAX_TOOL_TEXT_BYTES then truncateText raw = (raw, false)
  else
    ∃ head, truncateText raw = (head ++ TOOL_TEXT_TRUNCATION_MARKER, true) ∧
      LongestPrefix budget raw head

/-- The longest prefix is read back as it is. -/
def CutIntact (cap : Nat) (text : JsString) : Prop :=
  ∃ part, LongestPrefix cap text part ∧ Intact part

theorem decodeHead_longest (cap : Nat) (text : JsString) :
    LongestPrefix cap text (decodeHead ((encode text).take cap)) ↔ CutIntact cap text := by
  have hfits := longestPrefix_fits cap text
  constructor
  · intro h
    have heq := h.eq hfits
    exact ⟨_, hfits, (decode_take_iff cap text).mp heq⟩
  · rintro ⟨part, hpart, hintact⟩
    have heq := hpart.eq hfits
    subst heq
    have hread := (decode_take_iff cap text).mpr hintact
    rw [decodeHead, hread]
    exact hfits

theorem keepsPreview_iff {json : JsString} (h : json ≠ []) : KeepsPreview json ↔
    (encode json).length ≤ PIPELINE_STEP_OUTPUT_PREVIEW_MAX_BYTES ∨
      CutIntact PIPELINE_STEP_OUTPUT_PREVIEW_MAX_BYTES json := by
  have hlength : json.length ≠ 0 := mt List.length_eq_zero_iff.mp h
  rw [KeepsPreview, buildStepOutputPreview, if_neg hlength, ← decodeHead_longest]
  by_cases hfits : (encode json).length ≤ PIPELINE_STEP_OUTPUT_PREVIEW_MAX_BYTES
  · rw [if_pos hfits, if_pos hfits]
    exact iff_of_true rfl (.inl hfits)
  · rw [if_neg hfits, if_neg hfits, or_iff_right hfits]
    constructor
    · rintro ⟨part, hpart, hlongest⟩
      rw [Option.some.inj hpart]
      exact hlongest
    · exact fun hlongest => ⟨_, rfl, hlongest⟩

theorem keepsText_iff (raw : JsString) : KeepsText raw ↔
    (encode raw).length ≤ MAX_TOOL_TEXT_BYTES ∨ CutIntact budget raw := by
  rw [KeepsText, truncateText, ← decodeHead_longest]
  by_cases hfits : (encode raw).length ≤ MAX_TOOL_TEXT_BYTES
  · rw [if_pos hfits, if_pos hfits]
    exact iff_of_true rfl (.inl hfits)
  · rw [if_neg hfits, if_neg hfits, or_iff_right hfits]
    constructor
    · rintro ⟨head, hhead, hlongest⟩
      rw [List.append_cancel_right (Prod.mk.inj hhead).1]
      exact hlongest
    · exact fun hlongest => ⟨_, rfl, hlongest⟩

/-- A cut leaves the longest prefix that fits where that reads back and does not end with a
replacement character, and there alone; no JSON text is empty. -/
theorem truncation_exact (json raw : JsString) (h : json ≠ []) :
    (KeepsPreview json ↔ (encode json).length ≤ PIPELINE_STEP_OUTPUT_PREVIEW_MAX_BYTES ∨
      CutIntact PIPELINE_STEP_OUTPUT_PREVIEW_MAX_BYTES json) ∧
    (KeepsText raw ↔ (encode raw).length ≤ MAX_TOOL_TEXT_BYTES ∨ CutIntact budget raw) :=
  ⟨keepsPreview_iff h, keepsText_iff raw⟩

theorem truncation_exact_short : KeepsPreview (ascii "[]") ∧ KeepsText (ascii "ok") := by
  obtain ⟨hpreview, htext⟩ := truncation_exact (ascii "[]") (ascii "ok") (by decide)
  exact ⟨hpreview.mpr (.inl (by decide)), htext.mpr (.inl (by decide))⟩

/-! ## A replacement character of the text's own -/

/-- `JSON.stringify` of `n` letters, a replacement character and another letter. -/
def letteredJson (n : Nat) : JsString :=
  quote (List.replicate n (unit 'a') ++ [replacement, unit 'b'])

def letteredPoints (n : Nat) : List JsString :=
  [unit '"'] :: List.replicate n [unit 'a']

theorem quoteBody_letter (s : JsString) :
    quoteBody (unit 'a' :: s) = unit 'a' :: quoteBody s := by
  cases s with
  | nil => rfl
  | cons d s => rfl

theorem quoteBody_replicate (n : Nat) (s : JsString) :
    quoteBody (List.replicate n (unit 'a') ++ s) =
      List.replicate n (unit 'a') ++ quoteBody s := by
  induction n with
  | zero => rfl
  | succ n ih => rw [List.replicate_succ, List.cons_append, quoteBody_letter, ih]; rfl

theorem letteredJson_eq (n : Nat) : letteredJson n =
    unit '"' :: (List.replicate n (unit 'a') ++ [replacement, unit 'b', unit '"']) := by
  rw [letteredJson, quote, quoteBody_replicate, List.append_assoc]
  rfl

theorem points_letteredJson (n : Nat) : points (letteredJson n) =
    letteredPoints n ++ [[replacement], [unit 'b'], [unit '"']] := by
  rw [letteredJson_eq, points_of_forall]
  · rw [List.map_cons, List.map_append, List.map_replicate]
    rfl
  · intro c hc
    rcases List.mem_cons.mp hc with rfl | hc
    · rfl
    rcases List.mem_append.mp hc with hc | hc
    · rw [List.eq_of_mem_replicate hc]
      rfl
    · simp only [List.mem_cons, List.not_mem_nil, or_false] at hc
      rcases hc with rfl | rfl | rfl
      all_goals rfl

theorem length_letteredPoints (n : Nat) : (encodePoints (letteredPoints n)).length = n + 1 := by
  have hletters : (encodePoints (List.replicate n [unit 'a'])).length = n := by
    induction n with
    | zero => rfl
    | succ n ih =>
      rw [List.replicate_succ, encodePoints_cons, List.length_append, ih, Nat.add_comm]
      rfl
  rw [letteredPoints, encodePoints_cons, List.length_append, hletters, Nat.add_comm]
  rfl

theorem encode_letteredJson (n : Nat) : (encode (letteredJson n)).length = n + 6 := by
  have happend : ∀ ps qs, encodePoints (ps ++ qs) = encodePoints ps ++ encodePoints qs :=
    fun _ _ => List.flatMap_append
  rw [encode, points_letteredJson, happend, List.length_append, length_letteredPoints]
  rfl

/-- The text cut behind its own replacement character loses that too. -/
theorem own_replacement_lost : ¬ KeepsPreview (letteredJson 2044) := by
  have hlength := encode_letteredJson 2044
  have hcap : PIPELINE_STEP_OUTPUT_PREVIEW_MAX_BYTES = 2048 := rfl
  have hfits : fits 2048 (points (letteredJson 2044)) =
      letteredPoints 2044 ++ [[replacement]] := by
    rw [points_letteredJson, fits_append (by rw [length_letteredPoints]; omega),
      length_letteredPoints]
    rfl
  have hsome : letteredJson 2044 ≠ [] := List.cons_ne_nil _ _
  rw [keepsPreview_iff hsome, hlength, hcap, or_iff_right (by omega)]
  rintro ⟨part, hpart, hintact⟩
  rw [hpart.eq (longestPrefix_fits 2048 _), hfits, List.flatten_append] at hintact
  exact hintact.ended List.getLast?_concat

end InvisibleString.Pipeline
