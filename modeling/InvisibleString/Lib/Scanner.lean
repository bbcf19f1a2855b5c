import InvisibleString.Lib.Text

/- # `Scanner` — code, literals and comments of an ECMAScript text

A text is read unit by unit in modes: code, comments, string literals, templates with code in
them.  A string literal is one piece, told by the string that it denotes.  Text that does not end
in code, or has an escape that is not known here, has no reading.  A slash that starts no comment
is code: regular expressions are not told from divisions.

A quoted string is also a scalar of YAML, whose escapes are other ones.

**Proved here.**

    what `JSON.stringify` makes of a string is read as one literal of it, in ECMAScript and in
      YAML  (`run_quote`, `readQuoted_quoteBody`)
    a text of code and quoted strings is read with each string as one piece  (`run_render`)
    the strings do not show in the rest  (`runSegments_blank`)
-/

namespace Scanner

open Json

/-! ## String literals -/

/-- The escapes of a language, and what may stand in its literals as it is. -/
structure Escapes where
  simple : CodeUnit → Option CodeUnit
  raw : CodeUnit → Bool

/-- A literal behind its opening quote: the value so far, and where the reading stands. -/
inductive Inside where
  | plain
  | escaped
  /-- in `\uXXXX`: the digits behind the next one, and the number so far -/
  | hex (left code : Nat)
  deriving DecidableEq

structure OpenLiteral where
  value : JsString
  inside : Inside
  deriving DecidableEq

inductive LiteralStep where
  | more (literal : OpenLiteral)
  | closed (value : JsString)
  deriving DecidableEq

def OpenLiteral.step (E : Escapes) (closing : CodeUnit) (literal : OpenLiteral) (c : CodeUnit) :
    Option LiteralStep :=
  match literal.inside with
  | .plain =>
    if c = closing then some (.closed literal.value)
    else if c = unit '\\' then some (.more ⟨literal.value, .escaped⟩)
    else if E.raw c then some (.more ⟨literal.value ++ [c], .plain⟩)
    else none
  | .escaped =>
    if c = unit 'u' then some (.more ⟨literal.value, .hex 3 0⟩)
    else (E.simple c).map fun d => .more ⟨literal.value ++ [d], .plain⟩
  | .hex left code =>
    (hexValue c).map fun d => match left with
      | 0 => .more ⟨literal.value ++ [UInt16.ofNat (code * 16 + d)], .plain⟩
      | left + 1 => .more ⟨literal.value, .hex left (code * 16 + d)⟩

/-- The rest of a literal: its value, and what is behind it. -/
def readQuoted (E : Escapes) (closing : CodeUnit) :
    OpenLiteral → JsString → Option (JsString × JsString)
  | _, [] => none
  | literal, c :: text =>
    match literal.step E closing c with
    | some (.more literal') => readQuoted E closing literal' text
    | some (.closed value) => some (value, text)
    | none => none

/-- A language that knows the escapes of JSON and lets stand what JSON lets stand. -/
structure Escapes.CoversJson (E : Escapes) : Prop where
  simple : ∀ c ∈ [unit '"', unit '\\', unit 'b', unit 't', unit 'n', unit 'f', unit 'r'],
    E.simple c = simpleEscape c
  raw : ∀ c : CodeUnit, 0x20 ≤ c → E.raw c = true

section

variable {E : Escapes} (hE : E.CoversJson)

include hE

theorem readQuoted_raw {c : CodeUnit} (hge : 0x20 ≤ c) (hquote : c ≠ unit '"')
    (hslash : c ≠ unit '\\') (value rest : JsString) :
    readQuoted E (unit '"') ⟨value, .plain⟩ (c :: rest) =
      readQuoted E (unit '"') ⟨value ++ [c], .plain⟩ rest := by
  rw [readQuoted, OpenLiteral.step]
  simp only [if_neg hquote, if_neg hslash, hE.raw c hge, if_true]

theorem readQuoted_simple {e c : CodeUnit}
    (he : e ∈ [unit '"', unit '\\', unit 'b', unit 't', unit 'n', unit 'f', unit 'r'])
    (hc : simpleEscape e = some c) (value rest : JsString) :
    readQuoted E (unit '"') ⟨value, .plain⟩ (unit '\\' :: e :: rest) =
      readQuoted E (unit '"') ⟨value ++ [c], .plain⟩ rest := by
  have hu : e ≠ unit 'u' := by
    rintro rfl
    exact absurd he (by decide)
  have hquote : unit '\\' ≠ unit '"' := by decide
  rw [readQuoted, OpenLiteral.step]
  simp only [if_neg hquote, if_true]
  rw [readQuoted, OpenLiteral.step]
  simp only [if_neg hu, hE.simple e he, hc, Option.map_some]

omit hE in
theorem readQuoted_unicode (c : CodeUnit) (value rest : JsString) :
    readQuoted E (unit '"') ⟨value, .plain⟩ (unicodeEscape c ++ rest) =
      readQuoted E (unit '"') ⟨value ++ [c], .plain⟩ rest := by
  have hlt : c.toNat < 65536 := UInt16.toNat_lt c
  have hquote : unit '\\' ≠ unit '"' := by decide
  have hcode : UInt16.ofNat ((((0 * 16 + c.toNat / 4096) * 16 + c.toNat / 256 % 16) * 16 +
      c.toNat / 16 % 16) * 16 + c.toNat % 16) = c := by
    have hnat : (((0 * 16 + c.toNat / 4096) * 16 + c.toNat / 256 % 16) * 16 +
        c.toNat / 16 % 16) * 16 + c.toNat % 16 = c.toNat := by omega
    rw [hnat, UInt16.ofNat_toNat]
  show readQuoted E (unit '"') ⟨value, .plain⟩ (unit '\\' :: unit 'u' ::
    hexDigit (c.toNat / 4096) :: hexDigit (c.toNat / 256 % 16) :: hexDigit (c.toNat / 16 % 16) ::
      hexDigit (c.toNat % 16) :: rest) = _
  rw [readQuoted, OpenLiteral.step]
  simp only [if_neg hquote, if_true]
  rw [readQuoted, OpenLiteral.step]
  simp only [if_true]
  rw [readQuoted, OpenLiteral.step, hexValue_hexDigit _ (by omega)]
  simp only [Option.map_some]
  rw [readQuoted, OpenLiteral.step, hexValue_hexDigit _ (by omega)]
  simp only [Option.map_some]
  rw [readQuoted, OpenLiteral.step, hexValue_hexDigit _ (by omega)]
  simp only [Option.map_some]
  rw [readQuoted, OpenLiteral.step, hexValue_hexDigit _ (by omega)]
  simp only [Option.map_some, hcode]

/-- A quoted unit denotes the unit. -/
theorem readQuoted_quoteUnit (c : CodeUnit) (value rest : JsString) :
    readQuoted E (unit '"') ⟨value, .plain⟩ (quoteUnit c ++ rest) =
      readQuoted E (unit '"') ⟨value ++ [c], .plain⟩ rest := by
  unfold quoteUnit
  split
  · subst_vars; exact readQuoted_simple hE (by decide) rfl value rest
  split
  · subst_vars; exact readQuoted_simple hE (by decide) rfl value rest
  split
  · subst_vars; exact readQuoted_simple hE (by decide) rfl value rest
  split
  · subst_vars; exact readQuoted_simple hE (by decide) rfl value rest
  split
  · subst_vars; exact readQuoted_simple hE (by decide) rfl value rest
  split
  · subst_vars; exact readQuoted_simple hE (by decide) rfl value rest
  split
  · subst_vars; exact readQuoted_simple hE (by decide) rfl value rest
  split
  · exact readQuoted_unicode c value rest
  · rename_i hquote hslash hraw
    simp only [Bool.or_eq_true, decide_eq_true_eq, not_or, UInt16.not_lt] at hraw
    exact readQuoted_raw hE hraw.1.1 hquote hslash value rest

theorem readQuoted_quoteBody (s value rest : JsString) :
    readQuoted E (unit '"') ⟨value, .plain⟩ (quoteBody s ++ unit '"' :: rest) =
      some (value ++ s, rest) := by
  induction s using quoteBody.induct generalizing value with
  | case1 =>
    rw [List.append_nil]
    show readQuoted E (unit '"') ⟨value, .plain⟩ (unit '"' :: rest) = _
    rw [readQuoted, OpenLiteral.step]
    simp only [if_true]
  | case2 c =>
    rw [quoteBody, readQuoted_quoteUnit hE, readQuoted, OpenLiteral.step]
    simp only [if_true]
  | case3 c d s hpair ih =>
    rw [Bool.and_eq_true] at hpair
    obtain ⟨-, hcq⟩ := readUnit_surrogate (Or.inl hpair.1) []
    obtain ⟨-, hdq⟩ := readUnit_surrogate (Or.inr hpair.2) []
    have hslash : ∀ e : CodeUnit, isLeading e = true ∨ isTrailing e = true → e ≠ unit '\\' := by
      rintro e he rfl
      exact absurd he (by decide)
    rw [quoteBody, if_pos (by rw [hpair.1, hpair.2]; rfl), List.cons_append, List.cons_append,
      readQuoted_raw hE (isLeading_or_isTrailing_ge (Or.inl hpair.1)) hcq
        (hslash c (Or.inl hpair.1)),
      readQuoted_raw hE (isLeading_or_isTrailing_ge (Or.inr hpair.2)) hdq
        (hslash d (Or.inr hpair.2)), ih]
    simp only [List.append_assoc, List.cons_append, List.nil_append]
  | case4 c d s hpair ih =>
    rw [quoteBody, if_neg hpair, List.append_assoc, readQuoted_quoteUnit hE, ih]
    simp only [List.append_assoc, List.cons_append, List.nil_append]

end

/-! ## ECMAScript -/

def isLineTerminator (c : CodeUnit) : Bool :=
  c == 0x0A || c == 0x0D || c == 0x2028 || c == 0x2029

/-- The characters with a meaning behind a backslash; most others stand for themselves. -/
def ecmaScriptEscape (c : CodeUnit) : Option CodeUnit :=
  if c = unit 'b' then some 0x08
  else if c = unit 't' then some 0x09
  else if c = unit 'n' then some 0x0A
  else if c = unit 'v' then some 0x0B
  else if c = unit 'f' then some 0x0C
  else if c = unit 'r' then some 0x0D
  else if isDigit c || c == unit 'x' || isLineTerminator c then none
  else some c

/-- U+2028 and U+2029 may stand in a literal. -/
def ecmaScript : Escapes where
  simple := ecmaScriptEscape
  raw c := c != 0x0A && c != 0x0D

theorem not_control {c d : CodeUnit} (hd : d < 0x20) (hc : 0x20 ≤ c) : c ≠ d := by
  rintro rfl
  exact absurd (UInt16.lt_of_lt_of_le hd hc) (UInt16.lt_irrefl c)

theorem ecmaScript_coversJson : ecmaScript.CoversJson where
  simple c hc := by
    simp only [List.mem_cons, List.not_mem_nil, or_false] at hc
    rcases hc with rfl | rfl | rfl | rfl | rfl | rfl | rfl
    all_goals rfl
  raw c hc := by
    show (c != 0x0A && c != 0x0D) = true
    rw [Bool.and_eq_true, bne_iff_ne, bne_iff_ne]
    exact ⟨not_control (by decide) hc, not_control (by decide) hc⟩

/-- What a text is made of.  The parts of templates between the codes are chunks. -/
inductive Piece where
  | code (c : CodeUnit)
  | string (value : JsString)
  | comment
  | chunk (c : CodeUnit)
  deriving DecidableEq

inductive Mode where
  | code
  /-- behind a slash in code -/
  | slash
  | line
  | block (star : Bool)
  | string (closing : CodeUnit) (literal : OpenLiteral)
  | template
  | templateEscape
  | templateDollar
  deriving DecidableEq

/-- A mode, and for each template around the code how many braces are open in it. -/
structure State where
  mode : Mode
  nested : List Nat
  deriving DecidableEq

def codeStep (nested : List Nat) (c : CodeUnit) : List Piece × State :=
  if c = unit '/' then ([], ⟨.slash, nested⟩)
  else if c = unit '"' ∨ c = 0x27 then ([], ⟨.string c ⟨[], .plain⟩, nested⟩)
  else if c = 0x60 then ([.code c], ⟨.template, nested⟩)
  else if c = unit '\x7b' then ([.code c], ⟨.code, nested.modifyHead (· + 1)⟩)
  else if c = unit '\x7d' then
    match nested with
    | 0 :: rest => ([.code c], ⟨.template, rest⟩)
    | (k + 1) :: rest => ([.code c], ⟨.code, k :: rest⟩)
    | [] => ([.code c], ⟨.code, []⟩)
  else ([.code c], ⟨.code, nested⟩)

def templateStep (nested : List Nat) (c : CodeUnit) : List Piece × State :=
  if c = 0x60 then ([.code c], ⟨.code, nested⟩)
  else if c = unit '\\' then ([], ⟨.templateEscape, nested⟩)
  else if c = unit '$' then ([], ⟨.templateDollar, nested⟩)
  else ([.chunk c], ⟨.template, nested⟩)

def State.step (state : State) (c : CodeUnit) : Option (List Piece × State) :=
  match state.mode with
  | .code => some (codeStep state.nested c)
  | .slash =>
    if c = unit '/' then some ([], ⟨.line, state.nested⟩)
    else if c = unit '*' then some ([], ⟨.block false, state.nested⟩)
    else
      let next := codeStep state.nested c
      some (.code (unit '/') :: next.1, next.2)
  | .line =>
    if isLineTerminator c then some ([.comment, .code c], ⟨.code, state.nested⟩)
    else some ([], state)
  | .block star =>
    if star = true ∧ c = unit '/' then some ([.comment], ⟨.code, state.nested⟩)
    else some ([], ⟨.block (c = unit '*'), state.nested⟩)
  | .string closing literal =>
    match literal.step ecmaScript closing c with
    | some (.more literal') => some ([], ⟨.string closing literal', state.nested⟩)
    | some (.closed value) => some ([.string value], ⟨.code, state.nested⟩)
    | none => none
  | .template => some (templateStep state.nested c)
  | .templateEscape => some ([.chunk (unit '\\'), .chunk c], ⟨.template, state.nested⟩)
  | .templateDollar =>
    if c = unit '\x7b' then some ([.code (unit '$'), .code c], ⟨.code, 0 :: state.nested⟩)
    else
      let next := templateStep state.nested c
      some (.chunk (unit '$') :: next.1, next.2)

def run : State → JsString → Option (List Piece × State)
  | state, [] => some ([], state)
  | state, c :: text => do
    let (pieces, state) ← state.step c
    let (rest, state) ← run state text
    some (pieces ++ rest, state)

/-- Code that is in no template. -/
def State.ready : State := ⟨.code, []⟩

/-- In a comment between `/*` and `*/`. -/
def State.comment : State := ⟨.block false, []⟩

def State.lineComment : State := ⟨.line, []⟩

/-- The pieces of a text that begins and ends in code. -/
def finished : Option (List Piece × State) → Option (List Piece)
  | some (pieces, state) => if state = .ready then some pieces else none
  | none => none

def scan (text : JsString) : Option (List Piece) := finished (run .ready text)

theorem run_cons {state state' : State} {c : CodeUnit} {pieces : List Piece}
    (h : state.step c = some (pieces, state')) (text : JsString) :
    run state (c :: text) = (run state' text).map fun r => (pieces ++ r.1, r.2) := by
  rw [run, h]
  cases hrest : run state' text with
  | none =>
    simp only [Option.bind_eq_bind, Option.bind_some, hrest, Option.bind_none, Option.map_none]
  | some r => simp only [Option.bind_eq_bind, Option.bind_some, hrest, Option.map_some]

theorem run_append (state : State) (a b : JsString) : run state (a ++ b) =
    (run state a).bind fun r => (run r.2 b).map fun r' => (r.1 ++ r'.1, r'.2) := by
  induction a generalizing state with
  | nil =>
    rw [List.nil_append, run, Option.bind_some]
    cases run state b <;> rfl
  | cons c a ih =>
    rw [List.cons_append, run, run]
    cases state.step c with
    | none => rfl
    | some r =>
      simp only [Option.bind_eq_bind, Option.bind_some, ih]
      cases run r.2 a with
      | none => rfl
      | some r' =>
        simp only [Option.bind_some]
        cases run r'.2 b with
        | none => rfl
        | some r'' => simp only [Option.map_some, Option.bind_some, List.append_assoc]

theorem run_append_some {state state' : State} {a : JsString} {pieces : List Piece}
    (h : run state a = some (pieces, state')) (b : JsString) :
    run state (a ++ b) = (run state' b).map fun r => (pieces ++ r.1, r.2) := by
  rw [run_append, h]
  rfl

/-- A literal that can be read is one piece. -/
theorem run_string {closing : CodeUnit} {literal : OpenLiteral} {text value rest : JsString}
    (h : readQuoted ecmaScript closing literal text = some (value, rest)) (nested : List Nat) :
    run ⟨.string closing literal, nested⟩ text =
      (run ⟨.code, nested⟩ rest).map fun r => (.string value :: r.1, r.2) := by
  induction text generalizing literal with
  | nil => cases h
  | cons c text ih =>
    rw [readQuoted] at h
    have hstring : State.step ⟨.string closing literal, nested⟩ c =
        match literal.step ecmaScript closing c with
        | some (.more literal') => some ([], ⟨.string closing literal', nested⟩)
        | some (.closed value) => some ([.string value], ⟨.code, nested⟩)
        | none => none := rfl
    cases hstep : literal.step ecmaScript closing c with
    | none =>
      rw [hstep] at h
      cases h
    | some next =>
      rw [hstep] at h hstring
      cases next with
      | more literal' =>
        rw [run_cons hstring, ih h]
        cases run ⟨.code, nested⟩ rest <;> rfl
      | closed value' =>
        cases h
        exact run_cons hstring rest

theorem run_quote (nested : List Nat) (value rest : JsString) :
    run ⟨.code, nested⟩ (quote value ++ rest) =
      (run ⟨.code, nested⟩ rest).map fun r => (.string value :: r.1, r.2) := by
  have hread := readQuoted_quoteBody ecmaScript_coversJson value [] rest
  have hquote : quote value ++ rest = unit '"' :: (quoteBody value ++ unit '"' :: rest) := by
    simp only [quote, List.cons_append, List.append_assoc, List.nil_append]
  rw [List.nil_append] at hread
  have hopen : State.step ⟨.code, nested⟩ (unit '"') =
      some ([], ⟨.string (unit '"') ⟨[], .plain⟩, nested⟩) := rfl
  rw [hquote, run_cons hopen, run_string hread]
  cases run ⟨.code, nested⟩ rest <;> rfl

/-! ## Code and quoted strings -/

/-- A part of a text that is to be written: code as it is, or a string for a literal. -/
inductive Segment where
  | code (text : JsString)
  | literal (value : JsString)

def Segment.text : Segment → JsString
  | .code text => text
  | .literal value => quote value

def render (segments : List Segment) : JsString := segments.flatMap Segment.text

/-- The pieces of the text, each literal a piece that the reading does not look into. -/
def runSegments : State → List Segment → Option (List Piece × State)
  | state, [] => some ([], state)
  | state, .code text :: segments => do
    let (pieces, state) ← run state text
    let (rest, state) ← runSegments state segments
    some (pieces ++ rest, state)
  | state, .literal value :: segments =>
    if state.mode = .code then do
      let (rest, state) ← runSegments state segments
      some (.string value :: rest, state)
    else none

def scanSegments (segments : List Segment) : Option (List Piece) :=
  finished (runSegments .ready segments)

/-- The text is read with each quoted string as one piece. -/
theorem run_render {state : State} {segments : List Segment} {r : List Piece × State}
    (h : runSegments state segments = some r) : run state (render segments) = some r := by
  induction segments generalizing state r with
  | nil => exact h
  | cons segment segments ih =>
    have hcons : render (segment :: segments) = segment.text ++ render segments := rfl
    cases segment with
    | code text =>
      rw [runSegments] at h
      cases htext : run state text with
      | none =>
        rw [htext] at h
        cases h
      | some r' =>
        rw [htext] at h
        cases hrest : runSegments r'.2 segments with
        | none =>
          simp only [Option.bind_eq_bind, Option.bind_some, hrest] at h
          cases h
        | some r'' =>
          simp only [Option.bind_eq_bind, Option.bind_some, hrest] at h
          cases h
          rw [hcons, Segment.text, run_append_some htext, ih hrest]
          rfl
    | literal value =>
      rw [runSegments] at h
      split at h
      · rename_i hmode
        obtain ⟨mode, nested⟩ := state
        cases hmode
        cases hrest : runSegments ⟨.code, nested⟩ segments with
        | none =>
          rw [hrest] at h
          cases h
        | some r' =>
          rw [hrest] at h
          cases h
          rw [hcons, Segment.text, run_quote, ih hrest]
          rfl
      · cases h

theorem scan_render {segments : List Segment} {pieces : List Piece}
    (h : scanSegments segments = some pieces) : scan (render segments) = some pieces := by
  rw [scanSegments] at h
  cases hrun : runSegments .ready segments with
  | none =>
    rw [hrun] at h
    cases h
  | some r =>
    rw [scan, run_render hrun, ← hrun]
    exact h

/-! ## The code around the strings -/

def Segment.blank : Segment → Segment
  | .code text => .code text
  | .literal _ => .literal []

def Piece.blank : Piece → Piece
  | .string _ => .string []
  | piece => piece

theorem runSegments_blank (state : State) (segments : List Segment) :
    (runSegments state (segments.map Segment.blank)).map
        (fun r => (r.1.map Piece.blank, r.2)) =
      (runSegments state segments).map fun r => (r.1.map Piece.blank, r.2) := by
  induction segments generalizing state with
  | nil => rfl
  | cons segment segments ih =>
    cases segment with
    | code text =>
      rw [List.map_cons, Segment.blank, runSegments, runSegments]
      cases run state text with
      | none => rfl
      | some r =>
        have hrest := ih r.2
        simp only [Option.bind_eq_bind, Option.bind_some]
        cases hleft : runSegments r.2 (segments.map Segment.blank) with
        | none =>
          cases hright : runSegments r.2 segments with
          | none => rfl
          | some r' =>
            rw [hleft, hright] at hrest
            cases hrest
        | some r' =>
          cases hright : runSegments r.2 segments with
          | none =>
            rw [hleft, hright] at hrest
            cases hrest
          | some r'' =>
            rw [hleft, hright] at hrest
            obtain ⟨hpieces, hstate⟩ := Prod.mk.inj (Option.some.inj hrest)
            simp only [Option.bind_some, Option.map_some, List.map_append, hpieces, hstate]
    | literal value =>
      have hrest := ih state
      rw [List.map_cons, Segment.blank, runSegments, runSegments]
      split
      · cases hleft : runSegments state (segments.map Segment.blank) with
        | none =>
          cases hright : runSegments state segments with
          | none => rfl
          | some r' =>
            rw [hleft, hright] at hrest
            cases hrest
        | some r' =>
          cases hright : runSegments state segments with
          | none =>
            rw [hleft, hright] at hrest
            cases hrest
          | some r'' =>
            rw [hleft, hright] at hrest
            obtain ⟨hpieces, hstate⟩ := Prod.mk.inj (Option.some.inj hrest)
            simp only [Option.bind_eq_bind, Option.bind_some, Option.map_some, List.map_cons,
              hpieces, hstate, Piece.blank]
      · rfl

theorem scanSegments_blank (segments : List Segment) :
    (scanSegments (segments.map Segment.blank)).map (List.map Piece.blank) =
      (scanSegments segments).map (List.map Piece.blank) := by
  have hfinished : ∀ r : Option (List Piece × State), (finished r).map (List.map Piece.blank) =
      finished (r.map fun r => (r.1.map Piece.blank, r.2)) := by
    intro r
    cases r with
    | none => rfl
    | some r =>
      rw [Option.map_some, finished, finished]
      split <;> rfl
  rw [scanSegments, scanSegments, hfinished, hfinished, runSegments_blank]

/-! ## Where a text ends -/

def endState : State → JsString → Option State
  | state, [] => some state
  | state, c :: text =>
    match state.step c with
    | some (_, state') => endState state' text
    | none => none

def endSegments : State → List Segment → Option State
  | state, [] => some state
  | state, .code text :: segments =>
    match endState state text with
    | some state' => endSegments state' segments
    | none => none
  | state, .literal _ :: segments =>
    if state.mode = .code then endSegments state segments else none

theorem run_of_endState {state state' : State} {text : JsString}
    (h : endState state text = some state') : ∃ pieces, run state text = some (pieces, state') := by
  induction text generalizing state with
  | nil =>
    cases h
    exact ⟨[], rfl⟩
  | cons c text ih =>
    rw [endState] at h
    cases hstep : state.step c with
    | none =>
      rw [hstep] at h
      cases h
    | some r =>
      rw [hstep] at h
      obtain ⟨pieces, hrun⟩ := ih h
      rw [run_cons hstep, hrun]
      exact ⟨_, rfl⟩

theorem endState_append {state middle : State} {a : JsString}
    (h : endState state a = some middle) (b : JsString) :
    endState state (a ++ b) = endState middle b := by
  induction a generalizing state with
  | nil =>
    cases h
    rfl
  | cons c a ih =>
    rw [endState] at h
    rw [List.cons_append, endState]
    cases hstep : state.step c with
    | none =>
      rw [hstep] at h
      cases h
    | some r =>
      rw [hstep] at h
      exact ih h

theorem endState_append_some {state middle state' : State} {a b : JsString}
    (ha : endState state a = some middle) (hb : endState middle b = some state') :
    endState state (a ++ b) = some state' := by
  rw [endState_append ha, hb]

theorem endState_code_append {a b : JsString} (ha : endState .ready a = some .ready)
    (hb : endState .ready b = some .ready) : endState .ready (a ++ b) = some .ready :=
  endState_append_some ha hb

theorem runSegments_of_end {state state' : State} {segments : List Segment}
    (h : endSegments state segments = some state') :
    ∃ pieces, runSegments state segments = some (pieces, state') := by
  induction segments generalizing state with
  | nil =>
    cases h
    exact ⟨[], rfl⟩
  | cons segment segments ih =>
    cases segment with
    | code text =>
      rw [endSegments] at h
      cases hend : endState state text with
      | none =>
        rw [hend] at h
        cases h
      | some middle =>
        rw [hend] at h
        obtain ⟨first, hfirst⟩ := run_of_endState hend
        obtain ⟨rest, hrest⟩ := ih h
        refine ⟨first ++ rest, ?_⟩
        rw [runSegments, hfirst]
        simp only [Option.bind_eq_bind, Option.bind_some, hrest]
    | literal value =>
      rw [endSegments] at h
      split at h
      · rename_i hmode
        obtain ⟨rest, hrest⟩ := ih h
        refine ⟨.string value :: rest, ?_⟩
        rw [runSegments, if_pos hmode, hrest]
        rfl
      · cases h

theorem endSegments_append {state middle : State} {a : List Segment}
    (h : endSegments state a = some middle) (b : List Segment) :
    endSegments state (a ++ b) = endSegments middle b := by
  induction a generalizing state with
  | nil =>
    cases h
    rfl
  | cons segment a ih =>
    cases segment with
    | code text =>
      rw [endSegments] at h
      rw [List.cons_append, endSegments]
      cases hend : endState state text with
      | none =>
        rw [hend] at h
        cases h
      | some state' =>
        rw [hend] at h
        exact ih h
    | literal value =>
      rw [endSegments] at h
      rw [List.cons_append, endSegments]
      split at h
      · rename_i hmode
        rw [if_pos hmode]
        exact ih h
      · cases h

/-- The text ends as it begins, in code. -/
def Closed (segments : List Segment) : Prop := endSegments .ready segments = some .ready

theorem closed_nil : Closed [] := rfl

theorem Closed.append {a b : List Segment} (ha : Closed a) (hb : Closed b) : Closed (a ++ b) := by
  rw [Closed, endSegments_append ha]
  exact hb

theorem closed_code {text : JsString} (h : endState .ready text = some .ready) :
    Closed [.code text] := by
  rw [Closed, endSegments, h]
  rfl

theorem closed_literal (value : JsString) : Closed [.literal value] := rfl

theorem Closed.code {text : JsString} {segments : List Segment}
    (h : endState .ready text = some .ready) (hs : Closed segments) :
    Closed (.code text :: segments) :=
  (closed_code h).append hs

theorem Closed.literal (value : JsString) {segments : List Segment} (hs : Closed segments) :
    Closed (.literal value :: segments) :=
  (closed_literal value).append hs

theorem Closed.scan {segments : List Segment} (h : Closed segments) :
    ∃ pieces, scanSegments segments = some pieces := by
  obtain ⟨pieces, hrun⟩ := runSegments_of_end h
  refine ⟨pieces, ?_⟩
  rw [scanSegments, hrun, finished, if_pos rfl]

theorem render_nil : render [] = [] := rfl

theorem render_append (a b : List Segment) : render (a ++ b) = render a ++ render b :=
  List.flatMap_append

theorem render_cons (segment : Segment) (segments : List Segment) :
    render (segment :: segments) = segment.text ++ render segments := rfl

/-- Texts with a separator between. -/
def joinSegments (sep : JsString) : List (List Segment) → List Segment
  | [] => []
  | [part] => part
  | part :: parts => part ++ .code sep :: joinSegments sep parts

theorem render_joinSegments (sep : JsString) (parts : List (List Segment)) :
    render (joinSegments sep parts) = join sep (parts.map render) := by
  induction parts with
  | nil => rfl
  | cons part parts ih =>
    cases parts with
    | nil => rfl
    | cons part' parts =>
      rw [joinSegments, render_append, render_cons, ih]
      · show _ = render part ++ sep ++ join sep (render part' :: parts.map render)
        rw [List.append_assoc]
        rfl
      · exact List.cons_ne_nil _ _

theorem closed_joinSegments {sep : JsString} (hsep : endState .ready sep = some .ready)
    {parts : List (List Segment)} (h : ∀ part ∈ parts, Closed part) :
    Closed (joinSegments sep parts) := by
  induction parts with
  | nil => exact closed_nil
  | cons part parts ih =>
    have hpart := h part List.mem_cons_self
    have hparts := ih fun part' hmem => h part' (List.mem_cons_of_mem _ hmem)
    cases parts with
    | nil => exact hpart
    | cons part' parts => exact hpart.append (hparts.code hsep)

/-- A comment goes on over text without a star. -/
theorem endState_comment {text : JsString} (h : unit '*' ∉ text) :
    endState .comment text = some .comment := by
  induction text with
  | nil => rfl
  | cons c text ih =>
    rw [List.mem_cons, not_or] at h
    have hstep : State.comment.step c = some ([], .comment) := by
      rw [State.step, State.comment]
      dsimp only
      rw [if_neg fun hc => absurd hc.1 Bool.false_ne_true, decide_eq_false (Ne.symm h.1)]
    rw [endState, hstep]
    exact ih h.2

theorem codeStep_digit {c : CodeUnit} (h : unit '0' ≤ c ∧ c ≤ unit '9') (nested : List Nat) :
    codeStep nested c = ([.code c], ⟨.code, nested⟩) := by
  have hne : ∀ d : CodeUnit, ¬ (unit '0' ≤ d ∧ d ≤ unit '9') → c ≠ d := by
    rintro d hd rfl
    exact hd h
  have hquote : ¬ (c = unit '"' ∨ c = 0x27) := by
    rintro (heq | heq)
    · exact hne _ (by decide) heq
    · exact hne _ (by decide) heq
  unfold codeStep
  rw [if_neg (hne _ (by decide)), if_neg hquote, if_neg (hne _ (by decide)),
    if_neg (hne _ (by decide)), if_neg (hne _ (by decide))]

theorem endState_printNat (n : Nat) : endState .ready (printNat n) = some .ready := by
  have hdigits : ∀ text : JsString, (∀ c ∈ text, unit '0' ≤ c ∧ c ≤ unit '9') →
      endState .ready text = some .ready := by
    intro text
    induction text with
    | nil => exact fun _ => rfl
    | cons c text ih =>
      intro h
      have hstep : State.ready.step c = some ([.code c], .ready) :=
        congrArg some (codeStep_digit (h c List.mem_cons_self) [])
      rw [endState, hstep]
      exact ih fun d hd => h d (List.mem_cons_of_mem _ hd)
  exact hdigits _ fun c hc => mem_printNat hc

/-! ## Long texts -/

theorem endState_ascii {chars : List Char} {state state' : State}
    (h : endState state (chars.map unit) = some state') :
    endState state (ascii (String.ofList chars)) = some state' := by
  rw [ascii, String.toList_ofList]
  exact h

/-- Lines, with line breaks between. -/
def passage (lines : List String) : JsString := join (ascii "\n") (lines.map ascii)

/-- The strings by their characters. -/
inductive Spelled : List String → List (List Char) → Prop
  | nil : Spelled [] []
  | cons {chars : List Char} {lines : List String} {spellings : List (List Char)}
      (h : Spelled lines spellings) : Spelled (String.ofList chars :: lines) (chars :: spellings)

theorem endState_passage {lines : List String} {spellings : List (List Char)}
    {state state' : State} (h : Spelled lines spellings)
    (hend : endState state (join [unit '\n'] (spellings.map fun chars => chars.map unit)) =
      some state') : endState state (passage lines) = some state' := by
  have hlines : lines.map ascii = spellings.map fun chars => chars.map unit := by
    clear hend
    induction h with
    | nil => rfl
    | cons h ih => rw [List.map_cons, List.map_cons, ih, ascii, String.toList_ofList]
  rw [passage, hlines]
  exact hend

/-! ## YAML -/

/-- The escapes of a double-quoted scalar. -/
def yamlEscape (c : CodeUnit) : Option CodeUnit :=
  if c = unit '0' then some 0x00
  else if c = unit 'a' then some 0x07
  else if c = unit 'b' then some 0x08
  else if c = unit 't' ∨ c = 0x09 then some 0x09
  else if c = unit 'n' then some 0x0A
  else if c = unit 'v' then some 0x0B
  else if c = unit 'f' then some 0x0C
  else if c = unit 'r' then some 0x0D
  else if c = unit 'e' then some 0x1B
  else if c = unit ' ' ∨ c = unit '"' ∨ c = unit '/' ∨ c = unit '\\' then some c
  else if c = unit 'N' then some 0x85
  else if c = unit '_' then some 0xA0
  else if c = unit 'L' then some 0x2028
  else if c = unit 'P' then some 0x2029
  else none

/-- A scalar on one line: a tab, or no control character. -/
def yaml : Escapes where
  simple := yamlEscape
  raw c := c == 0x09 || 0x20 ≤ c

theorem yaml_coversJson : yaml.CoversJson where
  simple c hc := by
    simp only [List.mem_cons, List.not_mem_nil, or_false] at hc
    rcases hc with rfl | rfl | rfl | rfl | rfl | rfl | rfl
    all_goals rfl
  raw c hc := by
    show (c == 0x09 || decide (0x20 ≤ c)) = true
    rw [decide_eq_true hc, Bool.or_true]

/-- The text behind another one. -/
def behind (start text : JsString) : Option JsString :=
  if start.isPrefixOf text then some (text.drop start.length) else none

theorem behind_append (start rest : JsString) : behind start (start ++ rest) = some rest := by
  have hprefix : start.isPrefixOf (start ++ rest) = true := by
    rw [List.isPrefixOf_iff_prefix]
    exact List.prefix_append start rest
  rw [behind, if_pos hprefix, List.drop_left]

/-- A front matter with one double-quoted scalar under the key, and the text behind it. -/
def readFrontMatter (key text : JsString) : Option (JsString × JsString) := do
  let text ← behind (ascii "---\n" ++ key ++ ascii ": \"") text
  let (value, text) ← readQuoted yaml (unit '"') ⟨[], .plain⟩ text
  let text ← behind (ascii "\n---\n") text
  some (value, text)

/-- Whatever the string is, it is read back, and so is what follows. -/
theorem readFrontMatter_quote (key value body : JsString) :
    readFrontMatter key (ascii "---\n" ++ key ++ ascii ": " ++ quote value ++
      ascii "\n---\n" ++ body) = some (value, body) := by
  have htext : ascii "---\n" ++ key ++ ascii ": " ++ quote value ++ ascii "\n---\n" ++ body =
      (ascii "---\n" ++ key ++ ascii ": \"") ++
        (quoteBody value ++ unit '"' :: (ascii "\n---\n" ++ body)) := by
    have hcolon : ascii ": \"" = ascii ": " ++ [unit '"'] := rfl
    rw [hcolon]
    simp only [quote, List.append_assoc, List.cons_append, List.nil_append]
  have hread := readQuoted_quoteBody yaml_coversJson value [] (ascii "\n---\n" ++ body)
  rw [htext, readFrontMatter, behind_append, Option.bind_eq_bind, Option.bind_some, hread]
  simp only [Option.bind_eq_bind, Option.bind_some, behind_append, List.nil_append]

end Scanner
