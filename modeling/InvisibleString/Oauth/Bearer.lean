import InvisibleString.Oauth.Challenge
import Mathlib.Data.List.TakeWhile

/- # `Oauth.Bearer` — the header as its grammar has it

A `WWW-Authenticate` header is a list of challenges: a scheme alone, a scheme with a token68, or a
scheme with parameters, whose values are tokens or quoted strings.  Schemes and parameters share
one list of items between commas, so an item's place says which challenge it belongs to.

**Proved here.**

    an item stays in one piece and is read as what it is  (`ItemText.whole`, `collect_item`)
    the header of one Bearer challenge is read as its parameters if and only if
    the challenge is no padded token68 that looks like one  (`bearerParams_iff`)
-/

namespace InvisibleString.Oauth

open Json

/-! ## Challenges -/

structure HeaderToken where
  text : JsString
  ne_nil : text ≠ []
  units : ∀ c ∈ text, isTokenUnit c = true

/-- What a token68 consists of, its padding aside. -/
def isToken68Unit (c : CodeUnit) : Bool :=
  isDigit c || (unit 'A' ≤ c && c ≤ unit 'Z') || (unit 'a' ≤ c && c ≤ unit 'z') ||
    (ascii "-._~+/").contains c

structure Token68 where
  body : JsString
  padding : Nat
  ne_nil : body ≠ []
  units : ∀ c ∈ body, isToken68Unit c = true

def Token68.text (t : Token68) : JsString := t.body ++ List.replicate t.padding (unit '=')

/-- A parameter's value, a quoted string by what it says. -/
inductive ParamValue where
  | token (t : HeaderToken)
  | quoted (content : JsString)

def ParamValue.content : ParamValue → JsString
  | .token t => t.text
  | .quoted content => content

structure Param where
  name : HeaderToken
  value : ParamValue

inductive Details where
  | alone
  | token68 (t : Token68)
  | params (first : Param) (rest : List Param)

structure Challenge where
  scheme : HeaderToken
  details : Details

def Challenge.isBearer (c : Challenge) : Bool := lowerToken c.scheme.text == ascii "bearer"

def Details.params? : Details → List Param
  | .params first rest => first :: rest
  | _ => []

/-- The parameters under their names in lower case, the last of a name. -/
def Challenge.paramMap (c : Challenge) : List (JsString × JsString) :=
  OrderedMap.setAll
    (c.details.params?.map fun p => (lowerToken p.name.text, p.value.content)) []

/-! ## The header -/

/-- What stands between two commas. -/
inductive Item where
  | scheme (scheme : HeaderToken)
  | token68 (scheme : HeaderToken) (t : Token68)
  | first (scheme : HeaderToken) (p : Param)
  | param (p : Param)

def Challenge.items (c : Challenge) : List Item :=
  match c.details with
  | .alone => [.scheme c.scheme]
  | .token68 t => [.token68 c.scheme t]
  | .params first rest => .first c.scheme first :: rest.map .param

/-- Optional white space. -/
def Blank (s : JsString) : Prop := ∀ c ∈ s, c = unit ' ' ∨ c = unit '\t'

theorem blank_nil : Blank [] := fun _ h => absurd h List.not_mem_nil

/-- A quoted string's content behind escapes; quotes and backslashes must be escaped. -/
inductive Escaped : JsString → JsString → Prop
  | nil : Escaped [] []
  | plain {c : CodeUnit} {content text : JsString} (hquote : c ≠ unit '"')
      (hslash : c ≠ unit '\\') (h : Escaped content text) : Escaped (c :: content) (c :: text)
  | pair {c : CodeUnit} {content text : JsString} (h : Escaped content text) :
      Escaped (c :: content) (unit '\\' :: c :: text)

inductive ValueText : ParamValue → JsString → Prop
  | token (t : HeaderToken) : ValueText (.token t) t.text
  | quoted {content text : JsString} (h : Escaped content text) :
      ValueText (.quoted content) (unit '"' :: (text ++ [unit '"']))

inductive ParamText (p : Param) : JsString → Prop
  | intro {before after value : JsString} (hbefore : Blank before) (hafter : Blank after)
      (hvalue : ValueText p.value value) :
      ParamText p (p.name.text ++ (before ++ unit '=' :: (after ++ value)))

inductive ItemText : Item → JsString → Prop
  | scheme (scheme : HeaderToken) : ItemText (.scheme scheme) scheme.text
  | token68 {scheme : HeaderToken} {t : Token68} {space : JsString} (hspace : Blank space)
      (hsome : space ≠ []) : ItemText (.token68 scheme t) (scheme.text ++ (space ++ t.text))
  | first {scheme : HeaderToken} {p : Param} {space text : JsString} (hspace : Blank space)
      (hsome : space ≠ []) (h : ParamText p text) :
      ItemText (.first scheme p) (scheme.text ++ (space ++ text))
  | param {p : Param} {text : JsString} (h : ParamText p text) : ItemText (.param p) text

/-- The pieces between the commas; a piece may be empty. -/
inductive Pieces : List Item → List JsString → Prop
  | nil : Pieces [] []
  | blank {items : List Item} {piece : JsString} {pieces : List JsString} (hpiece : Blank piece)
      (h : Pieces items pieces) : Pieces items (piece :: pieces)
  | item {item : Item} {items : List Item} {before text after : JsString}
      {pieces : List JsString} (hbefore : Blank before) (hafter : Blank after)
      (htext : ItemText item text) (h : Pieces items pieces) :
      Pieces (item :: items) ((before ++ (text ++ after)) :: pieces)

/-- `header` renders the challenges. -/
def Renders (challenges : List Challenge) (header : JsString) : Prop :=
  ∃ pieces, Pieces (challenges.flatMap Challenge.items) pieces ∧
    header = Json.join [unit ','] pieces

/-! ## Code units -/

theorem isTokenUnit_ne {c d : CodeUnit} (h : isTokenUnit c = true) (hd : isTokenUnit d = false) :
    c ≠ d := by
  rintro rfl
  exact Bool.false_ne_true (hd.symm.trans h)

theorem mem_between {c low high : CodeUnit} (h : (low ≤ c && c ≤ high) = true) :
    low.toNat ≤ c.toNat ∧ c.toNat ≤ high.toNat := by
  rw [Bool.and_eq_true, decide_eq_true_eq, decide_eq_true_eq] at h
  exact ⟨UInt16.le_iff_toNat_le.mp h.1, UInt16.le_iff_toNat_le.mp h.2⟩

theorem isTokenUnit_range {c : CodeUnit} (h : isTokenUnit c = true) :
    0x21 ≤ c.toNat ∧ c.toNat ≤ 0x7E := by
  rw [isTokenUnit, Bool.or_eq_true, Bool.or_eq_true, Bool.or_eq_true] at h
  rcases h with ((h | h) | h) | h
  · obtain ⟨hlow, hhigh⟩ := mem_between h
    exact ⟨Nat.le_trans (by decide) hlow, Nat.le_trans hhigh (by decide)⟩
  · obtain ⟨hlow, hhigh⟩ := mem_between h
    exact ⟨Nat.le_trans (by decide) hlow, Nat.le_trans hhigh (by decide)⟩
  · obtain ⟨hlow, hhigh⟩ := mem_between h
    exact ⟨Nat.le_trans (by decide) hlow, Nat.le_trans hhigh (by decide)⟩
  · have hall : (ascii "!#$%&'*+.^_\x60|~-").all
        (fun c => decide (0x21 ≤ c.toNat) && decide (c.toNat ≤ 0x7E)) = true := by decide
    have hc := List.all_eq_true.mp hall c (List.contains_iff_mem.mp h)
    rw [Bool.and_eq_true, decide_eq_true_eq, decide_eq_true_eq] at hc
    exact hc

theorem isTokenUnit_of_token68 {c : CodeUnit} (h : isToken68Unit c = true)
    (hslash : c ≠ unit '/') : isTokenUnit c = true := by
  rw [isToken68Unit, Bool.or_eq_true] at h
  rw [isTokenUnit, Bool.or_eq_true]
  rcases h with h | h
  · exact .inl h
  · refine .inr ?_
    have hall : (ascii "-._~+/").all
        (fun c => c == unit '/' || (ascii "!#$%&'*+.^_\x60|~-").contains c) = true := by decide
    have hc := List.all_eq_true.mp hall c (List.contains_iff_mem.mp h)
    rw [Bool.or_eq_true, beq_iff_eq] at hc
    exact hc.resolve_left hslash

theorem isWhite_of_blank {s : JsString} (h : Blank s) : ∀ c ∈ s, isWhite c = true := by
  intro c hc
  rcases h c hc with rfl | rfl
  · rfl
  · rfl

/-! ## One piece -/

/-- The splitter passes over `text` and is where it was. -/
def Whole (text : JsString) : Prop :=
  ∀ current items rest, splitQuoted false current items (text ++ rest) =
    splitQuoted false (text.reverse ++ current) items rest

theorem splitQuoted_plain {c : CodeUnit} (hquote : c ≠ unit '"') (hcomma : c ≠ unit ',')
    (current : JsString) (items : List JsString) (rest : JsString) :
    splitQuoted false current items (c :: rest) = splitQuoted false (c :: current) items rest := by
  have hq : (c == unit '"') = false := beq_eq_false_iff_ne.mpr hquote
  have hc : (c == unit ',') = false := beq_eq_false_iff_ne.mpr hcomma
  cases rest with
  | nil =>
    rw [splitQuoted, splitQuoted, hc]
    rfl
  | cons d rest =>
    rw [splitQuoted, hq, hc]
    rfl

theorem splitQuoted_open (current : JsString) (items : List JsString) (rest : JsString) :
    splitQuoted false current items (unit '"' :: rest) =
      splitQuoted true (unit '"' :: current) items rest := by
  cases rest with
  | nil => rfl
  | cons d rest => rfl

theorem splitQuoted_close (current : JsString) (items : List JsString) (rest : JsString) :
    splitQuoted true current items (unit '"' :: rest) =
      splitQuoted false (unit '"' :: current) items rest := by
  cases rest with
  | nil => rfl
  | cons d rest => rfl

theorem splitQuoted_comma (current : JsString) (items : List JsString) (rest : JsString) :
    splitQuoted false current items (unit ',' :: rest) =
      splitQuoted false [] (current.reverse :: items) rest := by
  cases rest with
  | nil => rfl
  | cons d rest => rfl

theorem splitQuoted_escaped {content text : JsString} (h : Escaped content text)
    (current : JsString) (items : List JsString) (rest : JsString) :
    splitQuoted true current items (text ++ unit '"' :: rest) =
      splitQuoted true (text.reverse ++ current) items (unit '"' :: rest) := by
  induction h generalizing current with
  | nil => rfl
  | @plain c content text hquote hslash h ih =>
    have hq : (c != unit '"') = true := bne_iff_ne.mpr hquote
    have hs : (c == unit '\\') = false := beq_eq_false_iff_ne.mpr hslash
    have hstep : splitQuoted true current items (c :: (text ++ unit '"' :: rest)) =
        splitQuoted true (c :: current) items (text ++ unit '"' :: rest) := by
      cases htail : text ++ unit '"' :: rest with
      | nil => exact absurd htail (List.append_ne_nil_of_right_ne_nil _ (List.cons_ne_nil _ _))
      | cons d tail =>
        rw [splitQuoted, hq, hs]
        rfl
    rw [List.cons_append, hstep, ih, List.reverse_cons, List.append_assoc]
    rfl
  | @pair c content text h ih =>
    have hstep : splitQuoted true current items (unit '\\' :: c :: (text ++ unit '"' :: rest)) =
        splitQuoted true (c :: unit '\\' :: current) items (text ++ unit '"' :: rest) := rfl
    rw [List.cons_append, List.cons_append, hstep, ih, List.reverse_cons, List.reverse_cons,
      List.append_assoc, List.append_assoc]
    rfl

theorem Whole.append {s t : JsString} (hs : Whole s) (ht : Whole t) : Whole (s ++ t) := by
  intro current items rest
  rw [List.append_assoc, hs, ht, List.reverse_append, List.append_assoc]

theorem whole_of_plain {s : JsString} (h : ∀ c ∈ s, c ≠ unit '"' ∧ c ≠ unit ',') : Whole s := by
  induction s with
  | nil => exact fun _ _ _ => rfl
  | cons c s ih =>
    intro current items rest
    obtain ⟨hquote, hcomma⟩ := h c List.mem_cons_self
    rw [List.cons_append, splitQuoted_plain hquote hcomma,
      ih fun d hd => h d (List.mem_cons_of_mem _ hd), List.reverse_cons, List.append_assoc]
    rfl

theorem whole_quoted {content text : JsString} (h : Escaped content text) :
    Whole (unit '"' :: (text ++ [unit '"'])) := by
  intro current items rest
  rw [List.cons_append, List.append_assoc, splitQuoted_open, List.singleton_append,
    splitQuoted_escaped h, splitQuoted_close, List.reverse_cons, List.reverse_append]
  simp

theorem HeaderToken.whole (t : HeaderToken) : Whole t.text :=
  whole_of_plain fun c hc =>
    ⟨isTokenUnit_ne (t.units c hc) rfl, isTokenUnit_ne (t.units c hc) rfl⟩

theorem Blank.whole {s : JsString} (h : Blank s) : Whole s := by
  refine whole_of_plain fun c hc => ?_
  rcases h c hc with rfl | rfl
  · exact ⟨by decide, by decide⟩
  · exact ⟨by decide, by decide⟩

theorem Token68.whole (t : Token68) : Whole t.text := by
  refine whole_of_plain fun c hc => ?_
  rcases List.mem_append.mp hc with hc | hc
  · by_cases hslash : c = unit '/'
    · subst hslash
      exact ⟨by decide, by decide⟩
    · have htoken := isTokenUnit_of_token68 (t.units c hc) hslash
      exact ⟨isTokenUnit_ne htoken rfl, isTokenUnit_ne htoken rfl⟩
  · rw [List.eq_of_mem_replicate hc]
    exact ⟨by decide, by decide⟩

/-- No white space at either end, and something between. -/
structure Solid (s : JsString) : Prop where
  head : ∃ c rest, s = c :: rest ∧ isWhite c = false
  last : ∃ front c, s = front ++ [c] ∧ isWhite c = false

theorem Solid.around {s t : JsString} (hs : Solid s) (ht : Solid t) (middle : JsString) :
    Solid (s ++ (middle ++ t)) := by
  obtain ⟨c, rest, rfl, hc⟩ := hs.head
  obtain ⟨front, d, rfl, hd⟩ := ht.last
  refine ⟨⟨c, _, rfl, hc⟩, ⟨c :: rest ++ (middle ++ front), d, ?_, hd⟩⟩
  rw [List.append_assoc, List.append_assoc]

theorem solid_of_forall {s : JsString} (hne : s ≠ []) (h : ∀ c ∈ s, isWhite c = false) :
    Solid s where
  head := by
    obtain ⟨c, rest, rfl⟩ := List.exists_cons_of_ne_nil hne
    exact ⟨c, rest, rfl, h c List.mem_cons_self⟩
  last := by
    refine ⟨s.dropLast, s.getLast hne, (List.dropLast_append_getLast hne).symm, ?_⟩
    exact h _ (List.getLast_mem hne)

theorem dropWhile_white {before s : JsString} (h : Blank before) (hs : Solid s)
    (rest : JsString) : (before ++ (s ++ rest)).dropWhile isWhite = s ++ rest := by
  obtain ⟨c, tail, rfl, hc⟩ := hs.head
  rw [List.dropWhile_append_of_pos (isWhite_of_blank h), List.cons_append,
    List.dropWhile_cons_of_neg (ne_true_of_eq_false hc)]

theorem trim_solid {before s after : JsString} (hbefore : Blank before) (hs : Solid s)
    (hafter : Blank after) : trim (before ++ (s ++ after)) = s := by
  have hreverse : ∀ c ∈ after.reverse, isWhite c = true :=
    fun c hc => isWhite_of_blank hafter c (List.mem_reverse.mp hc)
  obtain ⟨front, c, heq, hc⟩ := hs.last
  rw [trim, dropWhile_white hbefore hs, List.reverse_append,
    List.dropWhile_append_of_pos hreverse, heq, List.reverse_append, List.reverse_singleton,
    List.singleton_append, List.dropWhile_cons_of_neg (ne_true_of_eq_false hc), List.reverse_cons,
    List.reverse_reverse]

theorem Solid.trim_eq {s : JsString} (h : Solid s) : trim s = s := by
  have := trim_solid blank_nil h blank_nil
  rwa [List.nil_append, List.append_nil] at this

theorem trim_blank {s : JsString} (h : Blank s) : trim s = [] := by
  rw [trim, List.dropWhile_eq_nil_iff.mpr (isWhite_of_blank h)]
  rfl

theorem HeaderToken.not_white (t : HeaderToken) : ∀ c ∈ t.text, isWhite c = false := by
  intro c hc
  obtain ⟨hlow, hhigh⟩ := isTokenUnit_range (t.units c hc)
  exact isWhite_eq_false hlow hhigh

theorem HeaderToken.solid (t : HeaderToken) : Solid t.text := solid_of_forall t.ne_nil t.not_white

theorem Token68.solid (t : Token68) : Solid t.text := by
  refine solid_of_forall (List.append_ne_nil_of_left_ne_nil t.ne_nil _) fun c hc => ?_
  rcases List.mem_append.mp hc with hc | hc
  · by_cases hslash : c = unit '/'
    · rw [hslash]
      rfl
    · obtain ⟨hlow, hhigh⟩ := isTokenUnit_range (isTokenUnit_of_token68 (t.units c hc) hslash)
      exact isWhite_eq_false hlow hhigh
  · rw [List.eq_of_mem_replicate hc]
    rfl

/-! ## Values -/

theorem unescape_escaped {content text : JsString} (h : Escaped content text) :
    unescape text = content := by
  induction h with
  | nil => rfl
  | @plain c content text hquote hslash h ih =>
    cases text with
    | nil => rw [← ih]; rfl
    | cons d text => rw [unescape, if_neg (by rwa [beq_iff_eq]), ih]
  | @pair c content text h ih =>
    rw [← ih]
    rfl

/-- What a value's text is: one piece that is read as the value. -/
structure ReadBack (text content : JsString) : Prop where
  whole : Whole text
  solid : Solid text
  read : unquote text = content

theorem ValueText.readBack {v : ParamValue} {text : JsString} (h : ValueText v text) :
    ReadBack text v.content := by
  cases h with
  | token t =>
    refine ⟨t.whole, t.solid, ?_⟩
    obtain ⟨c, rest, htext, -⟩ := t.solid.head
    have hc : c ≠ unit '"' :=
      isTokenUnit_ne (t.units c (htext ▸ List.mem_cons_self)) rfl
    show unquote t.text = t.text
    rw [unquote, t.solid.trim_eq]
    refine if_neg fun hquoted => ?_
    rw [Bool.and_eq_true, Bool.and_eq_true, beq_iff_eq, htext] at hquoted
    exact hc (Option.some.inj hquoted.1.2)
  | @quoted content text h =>
    have hsolid : Solid (unit '"' :: (text ++ [unit '"'])) :=
      ⟨⟨unit '"', _, rfl, rfl⟩, ⟨unit '"' :: text, unit '"', rfl, rfl⟩⟩
    refine ⟨whole_quoted h, hsolid, ?_⟩
    rw [unquote, hsolid.trim_eq]
    show (if _ then unescape (text ++ [unit '"']).dropLast else _) = content
    rw [List.dropLast_concat, unescape_escaped h]
    refine if_pos ?_
    rw [Bool.and_eq_true, Bool.and_eq_true, beq_iff_eq, beq_iff_eq, decide_eq_true_eq]
    refine ⟨⟨?_, rfl⟩, ?_⟩
    · rw [List.length_cons, List.length_append, List.length_singleton]
      omega
    · exact List.getLast?_concat (l := unit '"' :: text)

/-! ## Items -/

theorem takeWhile_token (t : HeaderToken) {c : CodeUnit} (hc : isTokenUnit c = false)
    (rest : JsString) :
    (t.text ++ c :: rest).takeWhile isTokenUnit = t.text ∧
      (t.text ++ c :: rest).dropWhile isTokenUnit = c :: rest := by
  have hneg : ¬ isTokenUnit c = true := ne_true_of_eq_false hc
  constructor
  · rw [List.takeWhile_append_of_pos t.units, List.takeWhile_cons_of_neg hneg, List.append_nil]
  · rw [List.dropWhile_append_of_pos t.units, List.dropWhile_cons_of_neg hneg]

/-- What stands behind a token. -/
theorem exists_break {space : JsString} (h : Blank space) (hsome : space ≠ []) (rest : JsString) :
    ∃ c tail, space ++ rest = c :: (tail ++ rest) ∧ isTokenUnit c = false ∧ isWhite c = true ∧
      Blank tail := by
  obtain ⟨c, tail, rfl⟩ := List.exists_cons_of_ne_nil hsome
  have hc : isTokenUnit c = false ∧ isWhite c = true := by
    rcases h c List.mem_cons_self with rfl | rfl
    · exact ⟨rfl, rfl⟩
    · exact ⟨rfl, rfl⟩
  exact ⟨c, tail, rfl, hc.1, hc.2, fun d hd => h d (List.mem_cons_of_mem _ hd)⟩

theorem ParamText.matched {p : Param} {text : JsString} (h : ParamText p text) :
    ∃ value, matchParam text = some (p.name.text, value) ∧ unquote value = p.value.content := by
  obtain ⟨hbefore, hafter, hvalue⟩ := h
  rename_i before after value
  have hread := hvalue.readBack
  refine ⟨value, ?_, hread.read⟩
  have hname : (p.name.text != []) = true := bne_iff_ne.mpr p.name.ne_nil
  have hvalue : (after ++ value).dropWhile isWhite = value := by
    have := dropWhile_white hafter hread.solid []
    rwa [List.append_nil] at this
  have hbreak : ∃ c tail, before ++ unit '=' :: (after ++ value) = c :: tail ∧
      isTokenUnit c = false := by
    by_cases hsome : before = []
    · exact ⟨unit '=', after ++ value, by rw [hsome]; rfl, rfl⟩
    · obtain ⟨c, tail, heq, hc, -, -⟩ := exists_break hbefore hsome (unit '=' :: (after ++ value))
      exact ⟨c, _, heq, hc⟩
  obtain ⟨c, tail, heq, hc⟩ := hbreak
  obtain ⟨htake, hdrop⟩ := takeWhile_token p.name hc tail
  rw [matchParam, heq, htake, hdrop, ← heq,
    List.dropWhile_append_of_pos (isWhite_of_blank hbefore)]
  show (if _ then some (p.name.text, (after ++ value).dropWhile isWhite) else none) = _
  rw [hvalue, hname]
  rfl

theorem ParamText.whole {p : Param} {text : JsString} (h : ParamText p text) : Whole text := by
  obtain ⟨hbefore, hafter, hvalue⟩ := h
  have hequals : Whole [unit '='] := whole_of_plain fun c hc => by
    rw [List.mem_singleton.mp hc]
    exact ⟨by decide, by decide⟩
  exact p.name.whole.append (hbefore.whole.append
    (hequals.append (hafter.whole.append hvalue.readBack.whole)))

theorem ParamText.solid {p : Param} {text : JsString} (h : ParamText p text) : Solid text := by
  obtain ⟨hbefore, hafter, hvalue⟩ := h
  rename_i before after value
  have := p.name.solid.around hvalue.readBack.solid (before ++ unit '=' :: after)
  rwa [List.append_assoc, List.cons_append] at this

theorem ItemText.whole {item : Item} {text : JsString} (h : ItemText item text) :
    Whole text := by
  cases h with
  | scheme scheme => exact scheme.whole
  | @token68 scheme t space hspace hsome => exact scheme.whole.append (hspace.whole.append t.whole)
  | @first scheme p space text hspace hsome h =>
    exact scheme.whole.append (hspace.whole.append h.whole)
  | param h => exact h.whole

theorem ItemText.solid {item : Item} {text : JsString} (h : ItemText item text) : Solid text := by
  cases h with
  | scheme scheme => exact scheme.solid
  | @token68 scheme t space hspace hsome => exact scheme.solid.around t.solid space
  | @first scheme p space text hspace hsome h => exact scheme.solid.around h.solid space
  | param h => exact h.solid

/-- A token68 that reads as a parameter. -/
def Token68.imitates (t : Token68) : Bool := 0 < t.padding && !t.body.contains (unit '/')

def HeaderToken.isBearer (scheme : HeaderToken) : Bool := lowerToken scheme.text == ascii "bearer"

/-- Whether the items are the Bearer challenge's now, and its parameters so far. -/
abbrev Reading := Bool × List (JsString × JsString)

def Reading.set (r : Reading) (p : Param) : Reading :=
  (r.1, if r.1 then OrderedMap.set (lowerToken p.name.text) p.value.content r.2 else r.2)

/-- What an item does to the loop. -/
def Item.read (r : Reading) : Item → Reading
  | .scheme s => (s.isBearer, r.2)
  | .token68 s t =>
    (s.isBearer, if s.isBearer && t.imitates then
      OrderedMap.set (lowerToken t.body) (unquote (List.replicate (t.padding - 1) (unit '='))) r.2
      else r.2)
  | .first s p => Reading.set (s.isBearer, r.2) p
  | .param p => r.set p

/-- A text without an equals sign behind its first token is no parameter. -/
theorem matchParam_none {s : HeaderToken} {c : CodeUnit} {rest : JsString}
    (hc : isTokenUnit c = false)
    (hrest : ∀ d ∈ ((c :: rest).dropWhile isWhite).head?, d ≠ unit '=') :
    matchParam (s.text ++ c :: rest) = none := by
  obtain ⟨htake, hdrop⟩ := takeWhile_token s hc rest
  rw [matchParam, htake, hdrop]
  cases htail : (c :: rest).dropWhile isWhite with
  | nil => rfl
  | cons d tail =>
    rw [htail] at hrest
    have hd : (d == unit '=') = false := beq_eq_false_iff_ne.mpr (hrest d rfl)
    show (if (s.text != [] && d == unit '=') = true then _ else none) = none
    rw [hd, Bool.and_false]
    rfl

theorem matchParam_token (s : HeaderToken) : matchParam s.text = none := by
  have hdrop : s.text.dropWhile isTokenUnit = [] := List.dropWhile_eq_nil_iff.mpr s.units
  rw [matchParam, hdrop]
  rfl

theorem matchScheme_token (s : HeaderToken) : matchScheme s.text = some (s.text, none) := by
  have hdrop : s.text.dropWhile isTokenUnit = [] := List.dropWhile_eq_nil_iff.mpr s.units
  have htake : s.text.takeWhile isTokenUnit = s.text := List.takeWhile_eq_self_iff.mpr s.units
  have hname : (s.text != []) = true := bne_iff_ne.mpr s.ne_nil
  rw [matchScheme, hdrop, htake]
  show (if (s.text != []) = true then _ else none) = _
  rw [hname]
  rfl

theorem matchScheme_rest (s : HeaderToken) {space rest : JsString} (hspace : Blank space)
    (hsome : space ≠ []) (hrest : Solid rest) :
    matchScheme (s.text ++ (space ++ rest)) = some (s.text, some rest) := by
  obtain ⟨c, tail, heq, hc, hwhite, htail⟩ := exists_break hspace hsome rest
  obtain ⟨htake, hdrop⟩ := takeWhile_token s hc (tail ++ rest)
  have hname : (s.text != []) = true := bne_iff_ne.mpr s.ne_nil
  have hsolid : (tail ++ rest).dropWhile isWhite = rest := by
    have := dropWhile_white htail hrest []
    rwa [List.append_nil] at this
  rw [matchScheme, heq, htake, hdrop]
  show (if (s.text != [] && isWhite c) = true then
    some (s.text, some ((tail ++ rest).dropWhile isWhite)) else none) = _
  rw [hname, hwhite, hsolid]
  rfl

theorem matchParam_rest (s : HeaderToken) {space rest : JsString} (hspace : Blank space)
    (hsome : space ≠ []) (hrest : Solid rest) (hhead : ∀ d ∈ rest.head?, d ≠ unit '=') :
    matchParam (s.text ++ (space ++ rest)) = none := by
  obtain ⟨c, tail, heq, hc, -, -⟩ := exists_break hspace hsome rest
  rw [heq]
  refine matchParam_none hc ?_
  have hdrop : (c :: (tail ++ rest)).dropWhile isWhite = rest := by
    rw [← heq]
    have := dropWhile_white hspace hrest []
    rwa [List.append_nil] at this
  rw [hdrop]
  exact hhead

/-- A token68 is read as a parameter where it is padded and has no slash. -/
theorem matchParam_token68 (t : Token68) : matchParam t.text =
    if t.imitates then some (t.body, List.replicate (t.padding - 1) (unit '=')) else none := by
  by_cases hslash : unit '/' ∈ t.body
  · -- the name would end at the slash
    obtain ⟨front, back, hbody, hfirst⟩ := List.eq_append_cons_of_mem hslash
    have hfront : ∀ c ∈ front, isTokenUnit c = true := by
      intro c hc
      have hmem : c ∈ t.body := hbody ▸ List.mem_append_left _ hc
      exact isTokenUnit_of_token68 (t.units c hmem) fun heq => hfirst (heq ▸ hc)
    have himitates : t.imitates = false := by
      rw [Token68.imitates, List.contains_iff_mem.mpr hslash]
      exact Bool.and_false _
    have hdrop : t.text.dropWhile isTokenUnit =
        unit '/' :: (back ++ List.replicate t.padding (unit '=')) := by
      rw [Token68.text, hbody, List.append_assoc, List.dropWhile_append_of_pos hfront]
      rfl
    rw [himitates, matchParam, hdrop]
    show (if (_ && unit '/' == unit '=') = true then _ else none) = none
    exact if_neg (by rw [show (unit '/' == unit '=') = false from rfl, Bool.and_false]; decide)
  · have hunits : ∀ c ∈ t.body, isTokenUnit c = true :=
      fun c hc => isTokenUnit_of_token68 (t.units c hc) fun heq => hslash (heq ▸ hc)
    have hcontains : t.body.contains (unit '/') = false :=
      Bool.eq_false_iff.mpr fun h => hslash (List.contains_iff_mem.mp h)
    rw [Token68.imitates, hcontains, Token68.text]
    cases t.padding with
    | zero =>
      have hdrop : (t.body ++ []).dropWhile isTokenUnit = [] := by
        rw [List.append_nil]
        exact List.dropWhile_eq_nil_iff.mpr hunits
      rw [List.replicate_zero, matchParam, hdrop]
      rfl
    | succ n =>
      have hname : (t.body != []) = true := bne_iff_ne.mpr t.ne_nil
      obtain ⟨htake, hdrop⟩ := takeWhile_token ⟨t.body, t.ne_nil, hunits⟩ (c := unit '=') rfl
        (List.replicate n (unit '='))
      have hvalue : (List.replicate n (unit '=')).dropWhile isWhite =
          List.replicate n (unit '=') := by
        cases n with
        | zero => rfl
        | succ n => rfl
      rw [List.replicate_succ, matchParam, htake, hdrop]
      show (if (t.body != [] && true) = true then
        some (t.body, (List.replicate n (unit '=')).dropWhile isWhite) else none) = _
      rw [hname, hvalue]
      rfl

theorem HeaderToken.head_ne (t : HeaderToken) (rest : JsString) :
    ∀ d ∈ (t.text ++ rest).head?, d ≠ unit '=' := by
  intro d hd
  obtain ⟨c, tail, htext, -⟩ := t.solid.head
  rw [htext, List.cons_append, List.head?_cons, Option.mem_some_iff] at hd
  rw [← hd]
  exact isTokenUnit_ne (t.units c (htext ▸ List.mem_cons_self)) rfl

theorem Token68.head_ne (t : Token68) : ∀ d ∈ t.text.head?, d ≠ unit '=' := by
  intro d hd
  obtain ⟨c, tail, hbody⟩ := List.exists_cons_of_ne_nil t.ne_nil
  rw [Token68.text, hbody, List.cons_append, List.head?_cons, Option.mem_some_iff] at hd
  have hunit := t.units c (hbody ▸ List.mem_cons_self)
  rw [← hd]
  rintro rfl
  exact Bool.false_ne_true hunit

theorem ParamText.head_ne {p : Param} {text : JsString} (h : ParamText p text) :
    ∀ d ∈ text.head?, d ≠ unit '=' := by
  obtain ⟨hbefore, hafter, hvalue⟩ := h
  exact p.name.head_ne _

theorem collect_item {item : Item} {text : JsString} (h : ItemText item text) (r : Reading)
    (pieces : List JsString) : collectParams r.1 r.2 (text :: pieces) =
      collectParams (item.read r).1 (item.read r).2 pieces := by
  cases h with
  | scheme s =>
    rw [collectParams, matchParam_token, matchScheme_token]
    rfl
  | @token68 s t space hspace hsome =>
    have hbind : (some t.text).bind (fun value => matchParam (trim value)) = matchParam t.text := by
      rw [Option.bind_some, t.solid.trim_eq]
    rw [collectParams, matchParam_rest s hspace hsome t.solid t.head_ne,
      matchScheme_rest s hspace hsome t.solid]
    dsimp only
    rw [hbind, matchParam_token68, Item.read, HeaderToken.isBearer]
    cases t.imitates with
    | true => rw [Bool.and_true]; rfl
    | false => rw [Bool.and_false]; rfl
  | @first s p space text hspace hsome h =>
    obtain ⟨value, hmatch, hvalue⟩ := h.matched
    have hbind : (some text).bind (fun value => matchParam (trim value)) =
        some (p.name.text, value) := by
      rw [Option.bind_some, h.solid.trim_eq, hmatch]
    rw [collectParams, matchParam_rest s hspace hsome h.solid h.head_ne,
      matchScheme_rest s hspace hsome h.solid]
    dsimp only
    rw [hbind, Item.read, Reading.set, ← hvalue]
    rfl
  | @param p text h =>
    obtain ⟨value, hmatch, hvalue⟩ := h.matched
    rw [collectParams, hmatch, Item.read, Reading.set, ← hvalue]
    rfl

/-! ## The header read -/

theorem splitQuoted_join {pieces : List JsString} (h : ∀ piece ∈ pieces, Whole piece)
    (hsome : pieces ≠ []) (items : List JsString) :
    splitQuoted false [] items (join [unit ','] pieces) = items.reverse ++ pieces := by
  induction pieces generalizing items with
  | nil => exact absurd rfl hsome
  | cons piece pieces ih =>
    have hpiece := h piece List.mem_cons_self
    cases pieces with
    | nil =>
      have hwhole := hpiece [] items []
      rw [List.append_nil, List.append_nil] at hwhole
      rw [join, hwhole, splitQuoted, List.reverse_reverse, List.reverse_cons]
    | cons next pieces =>
      have hjoin : join [unit ','] (piece :: next :: pieces) =
          piece ++ [unit ','] ++ join [unit ','] (next :: pieces) := rfl
      rw [hjoin, List.append_assoc, hpiece, List.append_nil, List.singleton_append,
        splitQuoted_comma, List.reverse_reverse,
        ih (fun q hq => h q (List.mem_cons_of_mem _ hq)) (List.cons_ne_nil _ _),
        List.reverse_cons, List.append_assoc]
      rfl

theorem splitOutsideQuotes_join {pieces : List JsString} (h : ∀ piece ∈ pieces, Whole piece) :
    splitOutsideQuotes (join [unit ','] pieces) = (pieces.map trim).filter (· != []) := by
  cases pieces with
  | nil => rfl
  | cons piece pieces =>
    rw [splitOutsideQuotes, splitQuoted_join h (List.cons_ne_nil _ _)]
    rfl

theorem Pieces.whole {items : List Item} {pieces : List JsString} (h : Pieces items pieces) :
    ∀ piece ∈ pieces, Whole piece := by
  induction h with
  | nil => exact fun _ hpiece => absurd hpiece List.not_mem_nil
  | blank hblank h ih => exact List.forall_mem_cons.mpr ⟨hblank.whole, ih⟩
  | item hbefore hafter htext h ih =>
    exact List.forall_mem_cons.mpr
      ⟨hbefore.whole.append (htext.whole.append hafter.whole), ih⟩

theorem Pieces.collect {items : List Item} {pieces : List JsString} (h : Pieces items pieces)
    (r : Reading) : collectParams r.1 r.2 ((pieces.map trim).filter (· != [])) =
      (items.foldl Item.read r).2 := by
  induction h generalizing r with
  | nil => rfl
  | blank hblank h ih =>
    rw [List.map_cons, trim_blank hblank]
    exact ih r
  | @item item items before text after pieces hbefore hafter htext h ih =>
    obtain ⟨c, rest, heq, -⟩ := htext.solid.head
    have hsome : (text != []) = true := bne_iff_ne.mpr (heq ▸ List.cons_ne_nil _ _)
    have hfilter : (text :: pieces.map trim).filter (· != []) =
        text :: (pieces.map trim).filter (· != []) := List.filter_cons_of_pos hsome
    rw [List.map_cons, trim_solid hbefore htext.solid hafter, hfilter, collect_item htext, ih,
      List.foldl_cons]

/-- What the loop takes of a challenge, whatever came before. -/
def Challenge.read (params : List (JsString × JsString)) (c : Challenge) :
    List (JsString × JsString) :=
  if c.scheme.isBearer then
    match c.details with
    | .alone => params
    | .token68 t =>
      if t.imitates then
        OrderedMap.set (lowerToken t.body) (unquote (List.replicate (t.padding - 1) (unit '=')))
          params
      else params
    | .params first rest =>
      OrderedMap.setAll
        ((first :: rest).map fun p => (lowerToken p.name.text, p.value.content)) params
  else params

theorem foldl_param (bearer : Bool) (ps : List Param) (params : List (JsString × JsString)) :
    (ps.map Item.param).foldl Item.read (bearer, params) =
      (bearer, if bearer then
        OrderedMap.setAll (ps.map fun p => (lowerToken p.name.text, p.value.content)) params
        else params) := by
  induction ps generalizing params with
  | nil => cases bearer <;> rfl
  | cons p ps ih =>
    rw [List.map_cons, List.foldl_cons, Item.read, Reading.set, ih]
    cases bearer with
    | true => rfl
    | false => rfl

/-- The items of a challenge. -/
theorem foldl_items (c : Challenge) (r : Reading) :
    c.items.foldl Item.read r = (c.scheme.isBearer, c.read r.2) := by
  obtain ⟨scheme, details⟩ := c
  cases details with
  | alone =>
    show (scheme.isBearer, r.2) = (scheme.isBearer, if scheme.isBearer then r.2 else r.2)
    rw [ite_self]
  | token68 t =>
    rw [Challenge.items, List.foldl_cons, List.foldl_nil, Item.read, Challenge.read]
    cases scheme.isBearer with
    | true => rw [Bool.true_and]; rfl
    | false => rfl
  | params first rest =>
    rw [Challenge.items, List.foldl_cons, Item.read, Reading.set, foldl_param, Challenge.read]
    cases scheme.isBearer with
    | true => rfl
    | false => rfl

theorem foldl_challenges (challenges : List Challenge) (r : Reading) :
    ((challenges.flatMap Challenge.items).foldl Item.read r).2 =
      challenges.foldl Challenge.read r.2 := by
  induction challenges generalizing r with
  | nil => rfl
  | cons c challenges ih => rw [List.flatMap_cons, List.foldl_append, foldl_items, ih]; rfl

theorem foldl_filter_bearer (challenges : List Challenge) (params : List (JsString × JsString)) :
    challenges.foldl Challenge.read params =
      (challenges.filter Challenge.isBearer).foldl Challenge.read params := by
  induction challenges generalizing params with
  | nil => rfl
  | cons c challenges ih =>
    rw [List.foldl_cons, ih]
    cases hc : c.isBearer with
    | true => rw [List.filter_cons_of_pos hc, List.foldl_cons]
    | false =>
      have hread : c.read params = params := if_neg (ne_true_of_eq_false hc)
      rw [List.filter_cons_of_neg (ne_true_of_eq_false hc), hread]

theorem bearerParams_renders {challenges : List Challenge} {header : JsString}
    (h : Renders challenges header) : bearerParams header =
      (challenges.filter Challenge.isBearer).foldl Challenge.read [] := by
  obtain ⟨pieces, hpieces, rfl⟩ := h
  rw [bearerParams, splitOutsideQuotes_join hpieces.whole]
  have hcollect := hpieces.collect (false, [])
  rw [foldl_challenges, foldl_filter_bearer] at hcollect
  exact hcollect

/-- A token68 with padding and without a slash. -/
def Challenge.Imitates (c : Challenge) : Prop :=
  ∃ t, c.details = .token68 t ∧ 0 < t.padding ∧ unit '/' ∉ t.body

theorem Challenge.not_imitates {c : Challenge} (h : ∀ t, c.details ≠ .token68 t) :
    ¬ c.Imitates := by
  rintro ⟨t, ht, -⟩
  exact h t ht

theorem Token68.imitates_iff (t : Token68) :
    t.imitates = true ↔ 0 < t.padding ∧ unit '/' ∉ t.body := by
  rw [Token68.imitates, Bool.and_eq_true, decide_eq_true_eq, Bool.not_eq_true',
    List.contains_eq_mem, decide_eq_false_iff_not]

/-- The Bearer challenge is read as its parameters, and nothing of the others is, if and only if
it is no padded token68 that looks like a parameter. -/
theorem bearerParams_iff {challenges : List Challenge} {bearer : Challenge} {header : JsString}
    (hone : challenges.filter Challenge.isBearer = [bearer])
    (hrenders : Renders challenges header) :
    bearerParams header = bearer.paramMap ↔ ¬ bearer.Imitates := by
  have hbearer : bearer.scheme.isBearer = true := by
    have hmem : bearer ∈ challenges.filter Challenge.isBearer := hone ▸ List.mem_singleton_self _
    exact (List.mem_filter.mp hmem).2
  rw [bearerParams_renders hrenders, hone, List.foldl_cons, List.foldl_nil, Challenge.read,
    if_pos hbearer]
  obtain ⟨scheme, details⟩ := bearer
  cases details with
  | alone => exact iff_of_true rfl (Challenge.not_imitates fun _ h => Details.noConfusion h)
  | params first rest =>
    exact iff_of_true rfl (Challenge.not_imitates fun _ h => Details.noConfusion h)
  | token68 t =>
    have himitates : Challenge.Imitates ⟨scheme, .token68 t⟩ ↔ t.imitates = true := by
      rw [t.imitates_iff]
      constructor
      · rintro ⟨u, hu, hpadding, hslash⟩
        rw [Details.token68.inj hu]
        exact ⟨hpadding, hslash⟩
      · exact fun h => ⟨t, rfl, h⟩
    rw [himitates]
    dsimp only
    cases t.imitates with
    | true => exact iff_of_false (List.cons_ne_nil _ _) (not_not_intro rfl)
    | false => exact iff_of_true rfl Bool.false_ne_true

theorem blank_space : Blank (ascii " ") := by
  intro c hc
  rw [List.mem_singleton.mp hc]
  exact .inl rfl

/-- A token of letters. -/
def word (text : JsString) (hne : text ≠ []) (hunits : text.all isTokenUnit = true) : HeaderToken :=
  ⟨text, hne, List.all_eq_true.mp hunits⟩

def errorNone : Param :=
  ⟨word (ascii "error") (by decide) (by decide),
    .token (word (ascii "none") (by decide) (by decide))⟩

/-- Another scheme's token68. -/
def basicChallenge : Challenge :=
  ⟨word (ascii "Basic") (by decide) (by decide),
    .token68 ⟨ascii "abc", 1, by decide, List.all_eq_true.mp (by decide)⟩⟩

def errorChallenge : Challenge :=
  ⟨word (ascii "bEaReR") (by decide) (by decide), .params errorNone []⟩

theorem renders_two :
    Renders [basicChallenge, errorChallenge] (ascii "Basic abc=,bEaReR error=none") := by
  have hbasic : ItemText (.token68 (word (ascii "Basic") (by decide) (by decide))
      ⟨ascii "abc", 1, by decide, List.all_eq_true.mp (by decide)⟩)
      (ascii "Basic" ++ (ascii " " ++ ascii "abc=")) := .token68 blank_space (by decide)
  have hparam : ParamText errorNone (ascii "error" ++ ([] ++ unit '=' :: ([] ++ ascii "none"))) :=
    .intro blank_nil blank_nil (.token (word (ascii "none") (by decide) (by decide)))
  have herror : ItemText (.first (word (ascii "bEaReR") (by decide) (by decide)) errorNone)
      (ascii "bEaReR" ++ (ascii " " ++
        (ascii "error" ++ ([] ++ unit '=' :: ([] ++ ascii "none"))))) :=
    .first blank_space (by decide) hparam
  exact ⟨_, .item blank_nil blank_nil hbasic (.item blank_nil blank_nil herror .nil), by decide⟩

theorem bearerParams_iff_two :
    bearerParams (ascii "Basic abc=,bEaReR error=none") = [(ascii "error", ascii "none")] := by
  have hone : [basicChallenge, errorChallenge].filter Challenge.isBearer = [errorChallenge] := rfl
  exact (bearerParams_iff hone renders_two).mpr
    (Challenge.not_imitates fun _ h => Details.noConfusion h)

/-- `Bearer abc==`. -/
def paddedBearer : Challenge :=
  ⟨word (ascii "Bearer") (by decide) (by decide),
    .token68 ⟨ascii "abc", 2, by decide, List.all_eq_true.mp (by decide)⟩⟩

/-- A token68 taken for a parameter. -/
theorem padded_bearer_misread :
    [paddedBearer].filter Challenge.isBearer = [paddedBearer] ∧
      Renders [paddedBearer] (ascii "Bearer abc==") ∧
      bearerParams (ascii "Bearer abc==") = [(ascii "abc", ascii "=")] ∧
      paddedBearer.paramMap = [] := by
  refine ⟨rfl, ?_, by decide, rfl⟩
  have htext : ItemText (.token68 (word (ascii "Bearer") (by decide) (by decide))
      ⟨ascii "abc", 2, by decide, List.all_eq_true.mp (by decide)⟩)
      (ascii "Bearer" ++ (ascii " " ++ ascii "abc==")) := .token68 blank_space (by decide)
  exact ⟨_, Pieces.item blank_nil blank_nil htext .nil, by decide⟩

end InvisibleString.Oauth
