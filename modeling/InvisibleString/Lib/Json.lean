import InvisibleString.Lib.OrderedMap
import Mathlib.Data.Nat.Digits.Lemmas

/- # `Json` — JSON text over UTF-16 code units

A string is the list of its 16-bit code units, lone surrogates included, which is what a
JavaScript string is.  `stringify` and `parse` are `JSON.stringify` (without indentation)
and `JSON.parse` on these.  What a number is, and how it is printed, is a parameter
(`NumberFormat`): the laws asked of it are that printing uses the characters of a number
token and that reading takes back what was printed.

An object is the list of its members, in order; reading a key a second time replaces its
value in place.

**Proved here.**

    parse (stringify v) = v,  no object of v listing a key twice  (`parse_stringify`)
    a printed text has no control character  (`ge_of_mem_stringify`)
    a unit beyond ASCII that is no surrogate stands in the text
      exactly where a string or a key of v has it  (`Raw.mem_stringify`)
-/

namespace Json

/-- A UTF-16 code unit. -/
abbrev CodeUnit := UInt16

abbrev JsString := List CodeUnit

instance : LawfulBEq JsString := inferInstance

/-- The code unit of an ASCII character. -/
def unit (c : Char) : CodeUnit := UInt16.ofNat c.toNat

/-- An ASCII text. -/
def ascii (s : String) : JsString := s.toList.map unit

/-- The characters of a number token. -/
def isNumberUnit (c : CodeUnit) : Bool :=
  (unit '0' ≤ c && c ≤ unit '9') || c == unit '-' || c == unit '+' || c == unit '.' ||
    c == unit 'e' || c == unit 'E'

/-- Printing and reading of numbers. -/
structure NumberFormat (N : Type) where
  print : N → JsString
  read : JsString → Option N
  read_print : ∀ n, read (print n) = some n
  print_ne_nil : ∀ n, print n ≠ []
  isNumberUnit_of_mem : ∀ n, ∀ c ∈ print n, isNumberUnit c = true

inductive Value (N : Type) where
  | null
  | bool (b : Bool)
  | num (n : N)
  | str (s : JsString)
  | arr (items : List (Value N))
  | obj (members : List (JsString × Value N))

variable {N : Type} (F : NumberFormat N)

/-! ## Writing -/

def isLeading (c : CodeUnit) : Bool := 0xD800 ≤ c && c ≤ 0xDBFF

def isTrailing (c : CodeUnit) : Bool := 0xDC00 ≤ c && c ≤ 0xDFFF

/-- The digit of a number below 16. -/
def hexDigit (n : Nat) : CodeUnit :=
  if n < 10 then UInt16.ofNat (48 + n) else UInt16.ofNat (87 + n)

/-- `\uXXXX`. -/
def unicodeEscape (c : CodeUnit) : JsString :=
  [unit '\\', unit 'u', hexDigit (c.toNat / 4096), hexDigit (c.toNat / 256 % 16),
    hexDigit (c.toNat / 16 % 16), hexDigit (c.toNat % 16)]

/-- How a code unit stands in a string that no pair explains. -/
def quoteUnit (c : CodeUnit) : JsString :=
  if c = 0x08 then [unit '\\', unit 'b']
  else if c = 0x09 then [unit '\\', unit 't']
  else if c = 0x0A then [unit '\\', unit 'n']
  else if c = 0x0C then [unit '\\', unit 'f']
  else if c = 0x0D then [unit '\\', unit 'r']
  else if c = unit '"' then [unit '\\', unit '"']
  else if c = unit '\\' then [unit '\\', unit '\\']
  else if c < 0x20 || isLeading c || isTrailing c then unicodeEscape c
  else [c]

/-- A surrogate pair stands as it is. -/
def quoteBody : JsString → JsString
  | [] => []
  | [c] => quoteUnit c
  | c :: d :: rest =>
    if isLeading c && isTrailing d then c :: d :: quoteBody rest
    else quoteUnit c ++ quoteBody (d :: rest)

def quote (s : JsString) : JsString :=
  unit '"' :: (quoteBody s ++ [unit '"'])

mutual

/-- `JSON.stringify`. -/
def stringify : Value N → JsString
  | .null => ascii "null"
  | .bool true => ascii "true"
  | .bool false => ascii "false"
  | .num n => F.print n
  | .str s => quote s
  | .arr [] => ascii "[]"
  | .arr (v :: vs) => unit '[' :: (stringify v ++ stringifyItems vs)
  | .obj [] => ascii "\x7b\x7d"
  | .obj ((k, v) :: ms) =>
    unit '\x7b' :: (quote k ++ unit ':' :: (stringify v ++ stringifyMembers ms))

/-- The items behind the first one, with the closing bracket. -/
def stringifyItems : List (Value N) → JsString
  | [] => [unit ']']
  | v :: vs => unit ',' :: (stringify v ++ stringifyItems vs)

/-- The members behind the first one, with the closing brace. -/
def stringifyMembers : List (JsString × Value N) → JsString
  | [] => [unit '\x7d']
  | (k, v) :: ms => unit ',' :: (quote k ++ unit ':' :: (stringify v ++ stringifyMembers ms))

end

/-! ## Reading -/

def isSpace (c : CodeUnit) : Bool := c == 0x20 || c == 0x0A || c == 0x0D || c == 0x09

def skipSpace (s : JsString) : JsString := s.dropWhile isSpace

def hexValue (c : CodeUnit) : Option Nat :=
  if unit '0' ≤ c ∧ c ≤ unit '9' then some (c.toNat - 48)
  else if unit 'a' ≤ c ∧ c ≤ unit 'f' then some (c.toNat - 87)
  else if unit 'A' ≤ c ∧ c ≤ unit 'F' then some (c.toNat - 55)
  else none

def readHex : JsString → Option (CodeUnit × JsString)
  | a :: b :: c :: d :: rest => do
    let a ← hexValue a
    let b ← hexValue b
    let c ← hexValue c
    let d ← hexValue d
    some (UInt16.ofNat (4096 * a + 256 * b + 16 * c + d), rest)
  | _ => none

/-- The two-character escapes. -/
def simpleEscape (c : CodeUnit) : Option CodeUnit :=
  if c = unit '"' then some (unit '"')
  else if c = unit '\\' then some (unit '\\')
  else if c = unit '/' then some (unit '/')
  else if c = unit 'b' then some 0x08
  else if c = unit 't' then some 0x09
  else if c = unit 'n' then some 0x0A
  else if c = unit 'f' then some 0x0C
  else if c = unit 'r' then some 0x0D
  else none

def readEscape : JsString → Option (CodeUnit × JsString)
  | [] => none
  | c :: rest =>
    if c = unit 'u' then readHex rest else (simpleEscape c).map fun u => (u, rest)

/-- One code unit of a string's body. -/
def readUnit : JsString → Option (CodeUnit × JsString)
  | [] => none
  | c :: rest =>
    if c = unit '\\' then readEscape rest
    else if c < 0x20 || c == unit '"' then none
    else some (c, rest)

/-- A string behind its opening quote. -/
def readBody : Nat → JsString → Option (JsString × JsString)
  | 0, _ => none
  | _ + 1, [] => none
  | n + 1, c :: rest =>
    if c = unit '"' then some ([], rest)
    else do
      let (u, rest) ← readUnit (c :: rest)
      let (us, rest) ← readBody n rest
      some (u :: us, rest)

/-- `true`, `false`, `null` and numbers. -/
def readScalar (s : JsString) : Option (Value N × JsString) :=
  if (ascii "true").isPrefixOf s then some (.bool true, s.drop 4)
  else if (ascii "false").isPrefixOf s then some (.bool false, s.drop 5)
  else if (ascii "null").isPrefixOf s then some (.null, s.drop 4)
  else if s.takeWhile isNumberUnit = [] then none
  else (F.read (s.takeWhile isNumberUnit)).map fun n => (.num n, s.dropWhile isNumberUnit)

/-- A key and the colon behind it. -/
def readKey (n : Nat) (s : JsString) : Option (JsString × JsString) :=
  match skipSpace s with
  | [] => none
  | c :: rest =>
    if c = unit '"' then do
      let (k, rest) ← readBody n rest
      match skipSpace rest with
      | [] => none
      | c :: rest => if c = unit ':' then some (k, rest) else none
    else none

mutual

/-- A value and what stands behind it. -/
def readValue : Nat → JsString → Option (Value N × JsString)
  | 0, _ => none
  | n + 1, s =>
    match skipSpace s with
    | [] => none
    | c :: rest =>
      if c = unit '"' then (readBody n rest).map fun r => (.str r.1, r.2)
      else if c = unit '[' then readArray n rest
      else if c = unit '\x7b' then readObject n rest
      else readScalar F (c :: rest)

/-- An array behind its opening bracket. -/
def readArray : Nat → JsString → Option (Value N × JsString)
  | 0, _ => none
  | n + 1, s =>
    if (skipSpace s).head? = some (unit ']') then some (.arr [], (skipSpace s).tail)
    else do
      let (v, rest) ← readValue n s
      let (vs, rest) ← readItems n rest
      some (.arr (v :: vs), rest)

def readItems : Nat → JsString → Option (List (Value N) × JsString)
  | 0, _ => none
  | n + 1, s =>
    match skipSpace s with
    | [] => none
    | c :: rest =>
      if c = unit ']' then some ([], rest)
      else if c = unit ',' then do
        let (v, rest) ← readValue n rest
        let (vs, rest) ← readItems n rest
        some (v :: vs, rest)
      else none

/-- An object behind its opening brace. -/
def readObject : Nat → JsString → Option (Value N × JsString)
  | 0, _ => none
  | n + 1, s =>
    if (skipSpace s).head? = some (unit '\x7d') then some (.obj [], (skipSpace s).tail)
    else do
      let (k, rest) ← readKey n s
      let (v, rest) ← readValue n rest
      readMembers n [(k, v)] rest

/-- The members behind those read so far. -/
def readMembers : Nat → List (JsString × Value N) → JsString → Option (Value N × JsString)
  | 0, _, _ => none
  | n + 1, members, s =>
    match skipSpace s with
    | [] => none
    | c :: rest =>
      if c = unit '\x7d' then some (.obj members, rest)
      else if c = unit ',' then do
        let (k, rest) ← readKey n rest
        let (v, rest) ← readValue n rest
        readMembers n (OrderedMap.set k v members) rest
      else none

end

/-- `JSON.parse`; `none` where it throws. -/
def parse (s : JsString) : Option (Value N) := do
  let (v, rest) ← readValue F (2 * s.length + 1) s
  if skipSpace rest = [] then some v else none

/-! ## Strings -/

theorem hexValue_hexDigit : ∀ k < 16, hexValue (hexDigit k) = some k := by decide

theorem readHex_unicodeEscape (c : CodeUnit) (rest : JsString) :
    readHex ((unicodeEscape c).drop 2 ++ rest) = some (c, rest) := by
  have hlt : c.toNat < 65536 := UInt16.toNat_lt c
  have ha := hexValue_hexDigit (c.toNat / 4096) (by omega)
  have hb := hexValue_hexDigit (c.toNat / 256 % 16) (by omega)
  have hc := hexValue_hexDigit (c.toNat / 16 % 16) (by omega)
  have hd := hexValue_hexDigit (c.toNat % 16) (by omega)
  have hsum : 4096 * (c.toNat / 4096) + 256 * (c.toNat / 256 % 16) +
      16 * (c.toNat / 16 % 16) + c.toNat % 16 = c.toNat := by omega
  show readHex (hexDigit _ :: hexDigit _ :: hexDigit _ :: hexDigit _ :: rest) = _
  rw [readHex, ha, hb, hc, hd]
  show some (UInt16.ofNat _, rest) = _
  rw [hsum, UInt16.ofNat_toNat]

theorem readUnit_escaped (e : CodeUnit) (rest : JsString) :
    readUnit (unit '\\' :: e :: rest) = readEscape (e :: rest) := by
  rw [readUnit, if_pos rfl]

theorem readUnit_quoteUnit (c : CodeUnit) (rest : JsString) :
    readUnit (quoteUnit c ++ rest) = some (c, rest) := by
  unfold quoteUnit
  split
  · subst_vars; rfl
  split
  · subst_vars; rfl
  split
  · subst_vars; rfl
  split
  · subst_vars; rfl
  split
  · subst_vars; rfl
  split
  · subst_vars; rfl
  split
  · subst_vars; rfl
  split
  · show readUnit (unit '\\' :: unit 'u' :: ((unicodeEscape c).drop 2 ++ rest)) = _
    rw [readUnit_escaped, readEscape, if_pos rfl, readHex_unicodeEscape]
  · rename_i hq hb hraw
    show readUnit (c :: rest) = _
    rw [readUnit, if_neg hb, if_neg]
    intro h
    simp only [Bool.or_eq_true, decide_eq_true_eq, beq_iff_eq] at h hraw
    rcases h with h | h
    · exact hraw (Or.inl (Or.inl h))
    · exact hq h

theorem quoteUnit_eq_cons (c : CodeUnit) :
    ∃ d s, quoteUnit c = d :: s ∧ d ≠ unit '"' := by
  have hb : unit '\\' ≠ unit '"' := by decide
  unfold quoteUnit
  split
  · exact ⟨_, _, rfl, hb⟩
  split
  · exact ⟨_, _, rfl, hb⟩
  split
  · exact ⟨_, _, rfl, hb⟩
  split
  · exact ⟨_, _, rfl, hb⟩
  split
  · exact ⟨_, _, rfl, hb⟩
  split
  · exact ⟨_, _, rfl, hb⟩
  split
  · exact ⟨_, _, rfl, hb⟩
  split
  · exact ⟨_, _, rfl, hb⟩
  · exact ⟨_, _, rfl, by assumption⟩

/-- One unit off a string's body. -/
theorem readBody_step {n : Nat} {c : CodeUnit} {s rest tail : JsString}
    (hread : readUnit s = some (c, rest)) (hhead : ∃ d s', s = d :: s' ∧ d ≠ unit '"')
    {us : JsString} (hrest : readBody n rest = some (us, tail)) :
    readBody (n + 1) s = some (c :: us, tail) := by
  obtain ⟨d, s', rfl, hd⟩ := hhead
  rw [readBody, if_neg hd, hread]
  simp [hrest]

theorem readUnit_surrogate {c : CodeUnit} (h : isLeading c ∨ isTrailing c) (rest : JsString) :
    readUnit (c :: rest) = some (c, rest) ∧ c ≠ unit '"' := by
  have hge : 0xD800 ≤ c := by
    simp only [isLeading, isTrailing, Bool.and_eq_true, decide_eq_true_eq] at h
    rcases h with h | h
    · exact h.1
    · exact UInt16.le_trans (by decide) h.1
  have hne : ∀ d : CodeUnit, d < 0xD800 → c ≠ d := by
    rintro d hd rfl
    exact absurd (UInt16.lt_of_lt_of_le hd hge) (UInt16.lt_irrefl c)
  refine ⟨?_, hne _ (by decide)⟩
  rw [readUnit, if_neg (hne _ (by decide)), if_neg]
  intro h'
  simp only [Bool.or_eq_true, decide_eq_true_eq, beq_iff_eq] at h'
  rcases h' with h' | h'
  · exact absurd (UInt16.lt_of_lt_of_le h' (UInt16.le_trans (by decide) hge)) (UInt16.lt_irrefl c)
  · exact hne _ (by decide) h'

theorem readBody_quoteBody (s rest : JsString) (n : Nat) (hn : s.length < n) :
    readBody n (quoteBody s ++ unit '"' :: rest) = some (s, rest) := by
  induction s using quoteBody.induct generalizing n with
  | case1 =>
    obtain ⟨n, rfl⟩ := Nat.exists_eq_succ_of_ne_zero (Nat.ne_of_gt (Nat.zero_lt_of_lt hn))
    rfl
  | case2 c =>
    obtain ⟨n, rfl⟩ := Nat.exists_eq_add_of_lt hn
    obtain ⟨d, s', hs, hd⟩ := quoteUnit_eq_cons c
    rw [quoteBody]
    refine readBody_step (readUnit_quoteUnit c _) ⟨d, s' ++ unit '"' :: rest, by rw [hs]; rfl, hd⟩ ?_
    rw [List.length_singleton, Nat.add_comm 1 n]
    rfl
  | case3 c d s hpair ih =>
    obtain ⟨n, rfl⟩ := Nat.exists_eq_add_of_lt hn
    rw [Bool.and_eq_true] at hpair
    obtain ⟨hc, hcq⟩ := readUnit_surrogate (Or.inl hpair.1) (d :: (quoteBody s ++ unit '"' :: rest))
    obtain ⟨hd, hdq⟩ := readUnit_surrogate (Or.inr hpair.2) (quoteBody s ++ unit '"' :: rest)
    rw [quoteBody, if_pos (by rw [hpair.1, hpair.2]; rfl)]
    refine readBody_step hc ⟨_, _, rfl, hcq⟩ ?_
    rw [show (c :: d :: s).length + n = (s.length + n + 1) + 1 by simp only [List.length_cons]; omega]
    exact readBody_step hd ⟨_, _, rfl, hdq⟩ (ih _ (by omega))
  | case4 c d s hpair ih =>
    obtain ⟨n, rfl⟩ := Nat.exists_eq_add_of_lt hn
    obtain ⟨e, s', hs, he⟩ := quoteUnit_eq_cons c
    rw [quoteBody, if_neg hpair, List.append_assoc]
    refine readBody_step (readUnit_quoteUnit c _)
      ⟨e, s' ++ (quoteBody (d :: s) ++ unit '"' :: rest), by rw [hs]; rfl, he⟩ (ih _ ?_)
    simp only [List.length_cons]
    omega

theorem length_le_quoteBody (s : JsString) : s.length ≤ (quoteBody s).length := by
  induction s using quoteBody.induct with
  | case1 => exact Nat.le_refl _
  | case2 c =>
    obtain ⟨d, s', hs, -⟩ := quoteUnit_eq_cons c
    rw [quoteBody, hs]
    simp
  | case3 c d s hpair ih =>
    rw [quoteBody, if_pos hpair]
    simp only [List.length_cons]
    omega
  | case4 c d s hpair ih =>
    obtain ⟨e, s', hs, -⟩ := quoteUnit_eq_cons c
    rw [quoteBody, if_neg hpair, List.length_append, hs]
    simp only [List.length_cons] at ih ⊢
    omega

theorem readBody_quote {s rest : JsString} {n : Nat} (hn : (quoteBody s ++ unit '"' :: rest).length ≤ n) :
    readBody n (quoteBody s ++ unit '"' :: rest) = some (s, rest) := by
  refine readBody_quoteBody s rest n ?_
  have := length_le_quoteBody s
  simp only [List.length_append, List.length_cons] at hn
  omega

theorem skipSpace_cons {c : CodeUnit} (h : isSpace c = false) (s : JsString) :
    skipSpace (c :: s) = c :: s := by
  rw [skipSpace, List.dropWhile_cons, if_neg (by rw [h]; exact Bool.false_ne_true)]

theorem readKey_quote {k rest : JsString} {n : Nat} (hn : (quote k ++ unit ':' :: rest).length ≤ n) :
    readKey n (quote k ++ unit ':' :: rest) = some (k, rest) := by
  have hq : quote k ++ unit ':' :: rest =
      unit '"' :: (quoteBody k ++ unit '"' :: unit ':' :: rest) := by simp [quote]
  rw [hq] at hn ⊢
  rw [readKey, skipSpace_cons (by decide)]
  simp only [if_true]
  rw [readBody_quote (Nat.le_of_succ_le hn)]
  simp only [Option.bind_eq_bind, Option.bind_some]
  rw [skipSpace_cons (by decide)]
  simp

/-! ## Round trip -/

mutual

/-- No object in the value lists a key twice. -/
def Value.KeysOnce : Value N → Prop
  | .null => True
  | .bool _ => True
  | .num _ => True
  | .str _ => True
  | .arr vs => KeysOnceItems vs
  | .obj ms => OrderedMap.UniqueKeys ms ∧ KeysOnceMembers ms

def KeysOnceItems : List (Value N) → Prop
  | [] => True
  | v :: vs => v.KeysOnce ∧ KeysOnceItems vs

def KeysOnceMembers : List (JsString × Value N) → Prop
  | [] => True
  | (_, v) :: ms => v.KeysOnce ∧ KeysOnceMembers ms

end

theorem keysOnceMembers_of_forall {ms : List (JsString × Value N)}
    (h : ∀ k v, (k, v) ∈ ms → v.KeysOnce) : KeysOnceMembers ms := by
  induction ms with
  | nil => trivial
  | cons m ms ih =>
    exact ⟨h m.1 m.2 List.mem_cons_self, ih fun k v hm => h k v (List.mem_cons_of_mem _ hm)⟩

/-- `rest` does not go on with a number token. -/
def Delimited (rest : JsString) : Prop := ∀ c ∈ rest.head?, isNumberUnit c = false

theorem delimited_cons {c : CodeUnit} {rest : JsString} (h : isNumberUnit c = false) :
    Delimited (c :: rest) := by
  intro d hd
  rw [List.head?_cons, Option.mem_some_iff] at hd
  rw [← hd]
  exact h

theorem readScalar_print (n : N) {rest : JsString} (h : Delimited rest) :
    readScalar F (F.print n ++ rest) = some (.num n, rest) := by
  have htake : (F.print n ++ rest).takeWhile isNumberUnit = F.print n := by
    rw [List.takeWhile_append_of_pos (F.isNumberUnit_of_mem n)]
    cases rest with
    | nil => simp
    | cons c rest => simp [h c rfl]
  have hdrop : (F.print n ++ rest).dropWhile isNumberUnit = rest := by
    rw [List.dropWhile_append_of_pos (F.isNumberUnit_of_mem n)]
    cases rest with
    | nil => rfl
    | cons c rest => simp [h c rfl]
  have hhead : ∀ (w : JsString), (∃ c w', w = c :: w' ∧ isNumberUnit c = false) →
      w.isPrefixOf (F.print n ++ rest) = false := by
    rintro w ⟨c, w', rfl, hc⟩
    rcases hp : F.print n with _ | ⟨d, ds⟩
    · exact absurd hp (F.print_ne_nil n)
    · have hd := F.isNumberUnit_of_mem n d (by rw [hp]; exact List.mem_cons_self)
      rw [List.cons_append, List.isPrefixOf_cons_cons]
      have hcd : (c == d) = false := by
        rw [beq_eq_false_iff_ne]
        rintro rfl
        rw [hc] at hd
        exact Bool.false_ne_true hd
      rw [hcd, Bool.false_and]
  rw [readScalar, hhead (ascii "true") ⟨unit 't', _, rfl, by decide⟩,
    hhead (ascii "false") ⟨unit 'f', _, rfl, by decide⟩,
    hhead (ascii "null") ⟨unit 'n', _, rfl, by decide⟩, htake, hdrop, if_neg (F.print_ne_nil n),
    F.read_print]
  rfl

theorem isNumberUnit_ne {c d : CodeUnit} (hc : isNumberUnit c = true)
    (hd : isNumberUnit d = false) : c ≠ d := by
  rintro rfl
  rw [hc] at hd
  exact Bool.false_ne_true hd.symm

theorem isSpace_eq_false_of_isNumberUnit {c : CodeUnit} (hc : isNumberUnit c = true) :
    isSpace c = false := by
  have h : ∀ d : CodeUnit, isNumberUnit d = false → (c == d) = false :=
    fun d hd => beq_eq_false_iff_ne.mpr (isNumberUnit_ne hc hd)
  rw [isSpace, h _ (by decide), h _ (by decide), h _ (by decide), h _ (by decide)]
  rfl

/-- How a printed value begins. -/
theorem stringify_eq_cons (v : Value N) :
    ∃ c s, stringify F v = c :: s ∧ isSpace c = false ∧ c ≠ unit ']' := by
  cases v with
  | null => exact ⟨unit 'n', _, by rw [stringify]; rfl, by decide, by decide⟩
  | bool b =>
    cases b with
    | false => exact ⟨unit 'f', _, by rw [stringify]; rfl, by decide, by decide⟩
    | true => exact ⟨unit 't', _, by rw [stringify]; rfl, by decide, by decide⟩
  | num n =>
    rcases hp : F.print n with _ | ⟨d, ds⟩
    · exact absurd hp (F.print_ne_nil n)
    · have hd := F.isNumberUnit_of_mem n d (by rw [hp]; exact List.mem_cons_self)
      exact ⟨d, ds, by rw [stringify, hp], isSpace_eq_false_of_isNumberUnit hd,
        isNumberUnit_ne hd (by decide)⟩
  | str s => exact ⟨unit '"', _, by rw [stringify]; rfl, by decide, by decide⟩
  | arr vs =>
    cases vs with
    | nil => exact ⟨unit '[', _, by rw [stringify]; rfl, by decide, by decide⟩
    | cons v vs => exact ⟨unit '[', _, by rw [stringify], by decide, by decide⟩
  | obj ms =>
    cases ms with
    | nil => exact ⟨unit '\x7b', _, by rw [stringify]; rfl, by decide, by decide⟩
    | cons m ms => exact ⟨unit '\x7b', _, by rw [stringify], by decide, by decide⟩

theorem readValue_readScalar {n : Nat} {s : JsString} {c : CodeUnit} {s' : JsString}
    (hs : s = c :: s') (hspace : isSpace c = false) (hq : c ≠ unit '"') (ha : c ≠ unit '[')
    (ho : c ≠ unit '\x7b') : readValue F (n + 1) s = readScalar F s := by
  subst hs
  rw [readValue, skipSpace_cons hspace]
  simp only [if_neg hq, if_neg ha, if_neg ho]

theorem delimited_stringifyItems (vs : List (Value N)) (rest : JsString) :
    Delimited (stringifyItems F vs ++ rest) := by
  cases vs with
  | nil => rw [stringifyItems]; exact delimited_cons (by decide)
  | cons v vs => rw [stringifyItems]; exact delimited_cons (by decide)

theorem delimited_stringifyMembers (ms : List (JsString × Value N)) (rest : JsString) :
    Delimited (stringifyMembers F ms ++ rest) := by
  cases ms with
  | nil => rw [stringifyMembers]; exact delimited_cons (by decide)
  | cons m ms => rw [stringifyMembers]; exact delimited_cons (by decide)

mutual

theorem readValue_stringify (v : Value N) (hv : v.KeysOnce) {rest : JsString}
    (hrest : Delimited rest) {n : Nat} (hn : 2 * (stringify F v ++ rest).length < n) :
    readValue F n (stringify F v ++ rest) = some (v, rest) := by
  obtain ⟨n, rfl⟩ : ∃ k, n = k + 1 := ⟨n - 1, by omega⟩
  cases v with
  | null =>
    rw [stringify, readValue_readScalar F (s := ascii "null" ++ rest) (c := unit 'n') rfl
      (by decide) (by decide) (by decide) (by decide)]
    rfl
  | bool b =>
    cases b with
    | false =>
      rw [stringify, readValue_readScalar F (s := ascii "false" ++ rest) (c := unit 'f') rfl
        (by decide) (by decide) (by decide) (by decide)]
      rfl
    | true =>
      rw [stringify, readValue_readScalar F (s := ascii "true" ++ rest) (c := unit 't') rfl
        (by decide) (by decide) (by decide) (by decide)]
      rfl
  | num k =>
    rcases hp : F.print k with _ | ⟨d, ds⟩
    · exact absurd hp (F.print_ne_nil k)
    · have hd := F.isNumberUnit_of_mem k d (by rw [hp]; exact List.mem_cons_self)
      rw [stringify, readValue_readScalar F (by rw [hp]; rfl) (isSpace_eq_false_of_isNumberUnit hd)
        (isNumberUnit_ne hd (by decide)) (isNumberUnit_ne hd (by decide))
        (isNumberUnit_ne hd (by decide))]
      exact readScalar_print F k hrest
  | str s =>
    have hs : stringify F (.str s) ++ rest = unit '"' :: (quoteBody s ++ unit '"' :: rest) := by
      simp [stringify, quote]
    rw [hs] at hn ⊢
    rw [readValue, skipSpace_cons (by decide)]
    simp only [if_true]
    rw [readBody_quote (by simp only [List.length_cons] at hn ⊢; omega)]
    rfl
  | arr vs =>
    cases vs with
    | nil =>
      rw [stringify] at *
      rw [show ascii "[]" ++ rest = unit '[' :: unit ']' :: rest from rfl] at hn ⊢
      simp only [List.length_cons] at hn
      obtain ⟨n, rfl⟩ : ∃ k, n = k + 1 := ⟨n - 1, by omega⟩
      rw [readValue, skipSpace_cons (by decide)]
      simp only [if_true, if_neg (show unit '[' ≠ unit '"' by decide)]
      rw [readArray, skipSpace_cons (by decide)]
      rfl
    | cons v vs =>
      rw [Value.KeysOnce, KeysOnceItems] at hv
      have hs : stringify F (.arr (v :: vs)) ++ rest =
          unit '[' :: (stringify F v ++ (stringifyItems F vs ++ rest)) := by
        rw [stringify, List.cons_append, List.append_assoc]
      rw [hs] at hn ⊢
      simp only [List.length_cons] at hn
      obtain ⟨n, rfl⟩ : ∃ k, n = k + 1 := ⟨n - 1, by omega⟩
      rw [readValue, skipSpace_cons (by decide)]
      simp only [if_true, if_neg (show unit '[' ≠ unit '"' by decide)]
      obtain ⟨c, s, hc, hspace, hclose⟩ := stringify_eq_cons F v
      have hhead : (skipSpace (stringify F v ++ (stringifyItems F vs ++ rest))).head? ≠
          some (unit ']') := by
        rw [hc, List.cons_append, skipSpace_cons hspace, List.head?_cons]
        exact fun h => hclose (Option.some.inj h)
      rw [readArray, if_neg hhead,
        readValue_stringify v hv.1 (delimited_stringifyItems F vs rest) (by omega)]
      simp only [Option.bind_eq_bind, Option.bind_some]
      have hlen : 1 ≤ (stringify F v).length := by rw [hc]; simp
      rw [readItems_stringifyItems vs hv.2 (by simp only [List.length_append] at hn ⊢; omega)]
      rfl
  | obj ms =>
    cases ms with
    | nil =>
      rw [stringify] at *
      rw [show ascii "\x7b\x7d" ++ rest = unit '\x7b' :: unit '\x7d' :: rest from rfl] at hn ⊢
      simp only [List.length_cons] at hn
      obtain ⟨n, rfl⟩ : ∃ k, n = k + 1 := ⟨n - 1, by omega⟩
      rw [readValue, skipSpace_cons (by decide)]
      simp only [if_true, if_neg (show unit '\x7b' ≠ unit '"' by decide),
        if_neg (show unit '\x7b' ≠ unit '[' by decide)]
      rw [readObject, skipSpace_cons (by decide)]
      rfl
    | cons m ms =>
      rcases m with ⟨k, v⟩
      rw [Value.KeysOnce, KeysOnceMembers] at hv
      have hs : stringify F (.obj ((k, v) :: ms)) ++ rest = unit '\x7b' ::
          (quote k ++ unit ':' :: (stringify F v ++ (stringifyMembers F ms ++ rest))) := by
        rw [stringify]
        simp only [List.cons_append, List.append_assoc]
      rw [hs] at hn ⊢
      have hlen := hn
      simp only [List.length_cons, List.length_append] at hlen
      obtain ⟨n, rfl⟩ : ∃ k, n = k + 1 := ⟨n - 1, by omega⟩
      rw [readValue, skipSpace_cons (by decide)]
      simp only [if_true, if_neg (show unit '\x7b' ≠ unit '"' by decide),
        if_neg (show unit '\x7b' ≠ unit '[' by decide)]
      have hhead : (skipSpace (quote k ++
          unit ':' :: (stringify F v ++ (stringifyMembers F ms ++ rest)))).head? ≠
          some (unit '\x7d') := by
        rw [quote, List.cons_append, skipSpace_cons (by decide), List.head?_cons]
        decide
      rw [readObject, if_neg hhead,
        readKey_quote (by simp only [List.length_cons, List.length_append]; omega)]
      simp only [Option.bind_eq_bind, Option.bind_some]
      rw [readValue_stringify v hv.2.1 (delimited_stringifyMembers F ms rest)
        (by simp only [List.length_append]; omega)]
      simp only [Option.bind_some]
      exact readMembers_stringifyMembers ms [(k, v)] hv.1 hv.2.2
        (by simp only [List.length_append]; omega)

theorem readItems_stringifyItems (vs : List (Value N)) (hvs : KeysOnceItems vs) {rest : JsString}
    {n : Nat} (hn : 2 * (stringifyItems F vs ++ rest).length < n) :
    readItems F n (stringifyItems F vs ++ rest) = some (vs, rest) := by
  obtain ⟨n, rfl⟩ : ∃ k, n = k + 1 := ⟨n - 1, by omega⟩
  cases vs with
  | nil =>
    rw [stringifyItems, List.singleton_append, readItems, skipSpace_cons (by decide)]
    rfl
  | cons v vs =>
    rw [KeysOnceItems] at hvs
    have hs : stringifyItems F (v :: vs) ++ rest =
        unit ',' :: (stringify F v ++ (stringifyItems F vs ++ rest)) := by
      rw [stringifyItems, List.cons_append, List.append_assoc]
    rw [hs] at hn ⊢
    simp only [List.length_cons, List.length_append] at hn
    rw [readItems, skipSpace_cons (by decide)]
    simp only [if_true, if_neg (show unit ',' ≠ unit ']' by decide)]
    rw [readValue_stringify v hvs.1 (delimited_stringifyItems F vs rest)
      (by simp only [List.length_append]; omega)]
    simp only [Option.bind_eq_bind, Option.bind_some]
    rw [readItems_stringifyItems vs hvs.2 (by simp only [List.length_append]; omega)]
    rfl

theorem readMembers_stringifyMembers (ms members : List (JsString × Value N))
    (hkeys : OrderedMap.UniqueKeys (members ++ ms)) (hms : KeysOnceMembers ms) {rest : JsString}
    {n : Nat} (hn : 2 * (stringifyMembers F ms ++ rest).length < n) :
    readMembers F n members (stringifyMembers F ms ++ rest) = some (.obj (members ++ ms), rest) := by
  obtain ⟨n, rfl⟩ : ∃ k, n = k + 1 := ⟨n - 1, by omega⟩
  cases ms with
  | nil =>
    rw [stringifyMembers, List.singleton_append, readMembers, skipSpace_cons (by decide),
      List.append_nil]
    rfl
  | cons m ms =>
    rcases m with ⟨k, v⟩
    rw [KeysOnceMembers] at hms
    have hs : stringifyMembers F ((k, v) :: ms) ++ rest = unit ',' ::
        (quote k ++ unit ':' :: (stringify F v ++ (stringifyMembers F ms ++ rest))) := by
      rw [stringifyMembers]
      simp only [List.cons_append, List.append_assoc]
    rw [hs] at hn ⊢
    simp only [List.length_cons, List.length_append] at hn
    rw [readMembers, skipSpace_cons (by decide)]
    simp only [if_true, if_neg (show unit ',' ≠ unit '\x7d' by decide)]
    rw [readKey_quote (by simp only [List.length_cons, List.length_append]; omega)]
    simp only [Option.bind_eq_bind, Option.bind_some]
    rw [readValue_stringify v hms.1 (delimited_stringifyMembers F ms rest)
      (by simp only [List.length_append]; omega)]
    simp only [Option.bind_some]
    have hset : OrderedMap.set k v members = members ++ [(k, v)] :=
      OrderedMap.set_of_not_mem (OrderedMap.UniqueKeys.not_mem_of_append hkeys)
    rw [hset, readMembers_stringifyMembers ms (members ++ [(k, v)]) (by simpa using hkeys) hms.2
      (by simp only [List.length_append]; omega)]
    simp

end

theorem parse_stringify (v : Value N) (hv : v.KeysOnce) : parse F (stringify F v) = some v := by
  have hnil : Delimited [] := fun c hc => absurd hc (by simp)
  have h := readValue_stringify F v hv hnil (Nat.lt_succ_self _)
  rw [List.append_nil] at h
  rw [parse, h]
  rfl

/-! ## The units of a printed text -/

/-- A unit of an ASCII text without control characters. -/
def isPrintable (c : CodeUnit) : Bool := 0x20 ≤ c && c < 0x7F

theorem isPrintable_hexDigit : ∀ k < 16, isPrintable (hexDigit k) = true := by decide

theorem isPrintable_of_mem_unicodeEscape {c d : CodeUnit} (h : d ∈ unicodeEscape c) :
    isPrintable d = true := by
  have hlt : c.toNat < 65536 := UInt16.toNat_lt c
  simp only [unicodeEscape, List.mem_cons, List.not_mem_nil, or_false] at h
  rcases h with rfl | rfl | rfl | rfl | rfl | rfl
  · decide
  · decide
  · exact isPrintable_hexDigit _ (by omega)
  · exact isPrintable_hexDigit _ (by omega)
  · exact isPrintable_hexDigit _ (by omega)
  · exact isPrintable_hexDigit _ (by omega)

/-- A unit is quoted in printable ASCII, or it stands as it is. -/
theorem quoteUnit_cases (c : CodeUnit) :
    (∀ d ∈ quoteUnit c, isPrintable d = true) ∧
        (c < 0x7F ∨ isLeading c = true ∨ isTrailing c = true) ∨
      quoteUnit c = [c] ∧ 0x20 ≤ c := by
  have hpair : ∀ e : CodeUnit, isPrintable e = true →
      ∀ d ∈ [unit '\\', e], isPrintable d = true := by
    intro e he d hd
    simp only [List.mem_cons, List.not_mem_nil, or_false] at hd
    rcases hd with rfl | rfl
    · decide
    · exact he
  unfold quoteUnit
  split
  · subst_vars; exact Or.inl ⟨hpair _ (by decide), by decide⟩
  split
  · subst_vars; exact Or.inl ⟨hpair _ (by decide), by decide⟩
  split
  · subst_vars; exact Or.inl ⟨hpair _ (by decide), by decide⟩
  split
  · subst_vars; exact Or.inl ⟨hpair _ (by decide), by decide⟩
  split
  · subst_vars; exact Or.inl ⟨hpair _ (by decide), by decide⟩
  split
  · subst_vars; exact Or.inl ⟨hpair _ (by decide), by decide⟩
  split
  · subst_vars; exact Or.inl ⟨hpair _ (by decide), by decide⟩
  split
  · rename_i h
    refine Or.inl ⟨fun d hd => isPrintable_of_mem_unicodeEscape hd, ?_⟩
    simp only [Bool.or_eq_true, decide_eq_true_eq] at h
    rcases h with (h | h) | h
    · exact Or.inl (UInt16.lt_of_lt_of_le h (by decide))
    · exact Or.inr (Or.inl h)
    · exact Or.inr (Or.inr h)
  · rename_i h
    refine Or.inr ⟨rfl, ?_⟩
    simp only [Bool.or_eq_true, decide_eq_true_eq, not_or, UInt16.not_lt] at h
    exact h.1.1

theorem not_isPrintable_of_ge {c : CodeUnit} (h : 0x7F ≤ c) : isPrintable c = false := by
  rw [isPrintable, Bool.and_eq_false_iff]
  exact Or.inr (by simpa using h)

theorem isPrintable_ge {c : CodeUnit} (h : isPrintable c = true) : 0x20 ≤ c := by
  simp only [isPrintable, Bool.and_eq_true, decide_eq_true_eq] at h
  exact h.1

theorem ge_of_printable {s : JsString} (h : s.all isPrintable = true) {c : CodeUnit}
    (hc : c ∈ s) : 0x20 ≤ c :=
  isPrintable_ge (List.all_eq_true.mp h c hc)

theorem isLeading_or_isTrailing_ge {c : CodeUnit} (h : isLeading c ∨ isTrailing c) :
    0x20 ≤ c := by
  simp only [isLeading, isTrailing, Bool.and_eq_true, decide_eq_true_eq] at h
  rcases h with h | h
  · exact UInt16.le_trans (by decide) h.1
  · exact UInt16.le_trans (by decide) h.1

theorem ge_of_mem_quoteBody {s : JsString} {c : CodeUnit} (h : c ∈ quoteBody s) : 0x20 ≤ c := by
  have hunit : ∀ {c d : CodeUnit}, d ∈ quoteUnit c → 0x20 ≤ d := by
    intro c d hd
    rcases quoteUnit_cases c with ⟨hall, -⟩ | ⟨heq, hge⟩
    · exact isPrintable_ge (hall d hd)
    · rw [heq, List.mem_singleton] at hd
      exact hd ▸ hge
  induction s using quoteBody.induct with
  | case1 => simp [quoteBody] at h
  | case2 d => exact hunit h
  | case3 d e s hpair ih =>
    rw [quoteBody, if_pos hpair] at h
    rw [Bool.and_eq_true] at hpair
    rcases List.mem_cons.mp h with rfl | h
    · exact isLeading_or_isTrailing_ge (Or.inl hpair.1)
    rcases List.mem_cons.mp h with rfl | h
    · exact isLeading_or_isTrailing_ge (Or.inr hpair.2)
    · exact ih h
  | case4 d e s hpair ih =>
    rw [quoteBody, if_neg hpair, List.mem_append] at h
    rcases h with h | h
    · exact hunit h
    · exact ih h

theorem ge_of_mem_quote {s : JsString} {c : CodeUnit} (h : c ∈ quote s) : 0x20 ≤ c := by
  rw [quote, List.mem_cons, List.mem_append, List.mem_singleton] at h
  rcases h with rfl | h | rfl
  · decide
  · exact ge_of_mem_quoteBody h
  · decide

/-- Beyond ASCII a unit that is no surrogate is printed as it is. -/
structure Raw (c : CodeUnit) : Prop where
  ge : 0x7F ≤ c
  leading : isLeading c = false
  trailing : isTrailing c = false

theorem Raw.mem_quoteUnit {c d : CodeUnit} (h : Raw c) : c ∈ quoteUnit d ↔ c = d := by
  rcases quoteUnit_cases d with ⟨hall, hd⟩ | ⟨heq, -⟩
  · constructor
    · intro hc
      have := hall c hc
      rw [not_isPrintable_of_ge h.ge] at this
      exact absurd this Bool.false_ne_true
    · rintro rfl
      rcases hd with hd | hd | hd
      · exact absurd (UInt16.lt_of_lt_of_le hd h.ge) (UInt16.lt_irrefl c)
      · rw [h.leading] at hd
        exact absurd hd Bool.false_ne_true
      · rw [h.trailing] at hd
        exact absurd hd Bool.false_ne_true
  · rw [heq, List.mem_singleton]

theorem Raw.mem_quoteBody {c : CodeUnit} (h : Raw c) (s : JsString) :
    c ∈ quoteBody s ↔ c ∈ s := by
  induction s using quoteBody.induct with
  | case1 => simp [quoteBody]
  | case2 d => rw [quoteBody, h.mem_quoteUnit, List.mem_singleton]
  | case3 d e s hpair ih => rw [quoteBody, if_pos hpair, List.mem_cons, List.mem_cons, ih,
      List.mem_cons, List.mem_cons]
  | case4 d e s hpair ih => rw [quoteBody, if_neg hpair, List.mem_append, h.mem_quoteUnit, ih,
      List.mem_cons (a := c) (b := d)]

theorem Raw.ne_unit {c : CodeUnit} (h : Raw c) {d : CodeUnit} (hd : d < 0x7F) : c ≠ d := by
  rintro rfl
  exact absurd (UInt16.lt_of_lt_of_le hd h.ge) (UInt16.lt_irrefl c)

theorem Raw.mem_quote {c : CodeUnit} (h : Raw c) (s : JsString) : c ∈ quote s ↔ c ∈ s := by
  rw [quote, List.mem_cons, List.mem_append, List.mem_singleton, h.mem_quoteBody]
  have hq : c ≠ unit '"' := h.ne_unit (by decide)
  simp [hq]

mutual

/-- A string of the value, or a key, has the unit `c`. -/
def Value.Mentions (c : CodeUnit) : Value N → Prop
  | .null => False
  | .bool _ => False
  | .num _ => False
  | .str s => c ∈ s
  | .arr vs => MentionsItems c vs
  | .obj ms => MentionsMembers c ms

def MentionsItems (c : CodeUnit) : List (Value N) → Prop
  | [] => False
  | v :: vs => v.Mentions c ∨ MentionsItems c vs

def MentionsMembers (c : CodeUnit) : List (JsString × Value N) → Prop
  | [] => False
  | (k, v) :: ms => c ∈ k ∨ v.Mentions c ∨ MentionsMembers c ms

end

theorem isPrintable_of_isNumberUnit {c : CodeUnit} (h : isNumberUnit c = true) :
    isPrintable c = true := by
  simp only [isNumberUnit, Bool.or_eq_true, Bool.and_eq_true, decide_eq_true_eq,
    beq_iff_eq] at h
  rcases h with ((((⟨hlo, hhi⟩ | rfl) | rfl) | rfl) | rfl) | rfl
  · rw [isPrintable, Bool.and_eq_true, decide_eq_true_eq, decide_eq_true_eq]
    exact ⟨UInt16.le_trans (by decide) hlo, UInt16.lt_of_le_of_lt hhi (by decide)⟩
  · decide
  · decide
  · decide
  · decide
  · decide

mutual

theorem ge_of_mem_stringify (v : Value N) : ∀ c ∈ stringify F v, 0x20 ≤ c := by
  intro c hc
  cases v with
  | null =>
    rw [stringify] at hc
    exact ge_of_printable (by decide) hc
  | bool b =>
    cases b with
    | false =>
      rw [stringify] at hc
      exact ge_of_printable (by decide) hc
    | true =>
      rw [stringify] at hc
      exact ge_of_printable (by decide) hc
  | num n =>
    rw [stringify] at hc
    exact isPrintable_ge (isPrintable_of_isNumberUnit (F.isNumberUnit_of_mem n c hc))
  | str s =>
    rw [stringify] at hc
    exact ge_of_mem_quote hc
  | arr vs =>
    cases vs with
    | nil =>
      rw [stringify] at hc
      exact ge_of_printable (by decide) hc
    | cons v vs =>
      rw [stringify, List.mem_cons, List.mem_append] at hc
      rcases hc with rfl | hc | hc
      · decide
      · exact ge_of_mem_stringify v c hc
      · exact ge_of_mem_stringifyItems vs c hc
  | obj ms =>
    cases ms with
    | nil =>
      rw [stringify] at hc
      exact ge_of_printable (by decide) hc
    | cons m ms =>
      rcases m with ⟨k, v⟩
      rw [stringify, List.mem_cons, List.mem_append, List.mem_cons, List.mem_append] at hc
      rcases hc with rfl | hc | rfl | hc | hc
      · decide
      · exact ge_of_mem_quote hc
      · decide
      · exact ge_of_mem_stringify v c hc
      · exact ge_of_mem_stringifyMembers ms c hc

theorem ge_of_mem_stringifyItems (vs : List (Value N)) : ∀ c ∈ stringifyItems F vs, 0x20 ≤ c := by
  intro c hc
  cases vs with
  | nil =>
    rw [stringifyItems] at hc
    exact ge_of_printable (by decide) hc
  | cons v vs =>
    rw [stringifyItems, List.mem_cons, List.mem_append] at hc
    rcases hc with rfl | hc | hc
    · decide
    · exact ge_of_mem_stringify v c hc
    · exact ge_of_mem_stringifyItems vs c hc

theorem ge_of_mem_stringifyMembers (ms : List (JsString × Value N)) :
    ∀ c ∈ stringifyMembers F ms, 0x20 ≤ c := by
  intro c hc
  cases ms with
  | nil =>
    rw [stringifyMembers] at hc
    exact ge_of_printable (by decide) hc
  | cons m ms =>
    rcases m with ⟨k, v⟩
    rw [stringifyMembers, List.mem_cons, List.mem_append, List.mem_cons, List.mem_append] at hc
    rcases hc with rfl | hc | rfl | hc | hc
    · decide
    · exact ge_of_mem_quote hc
    · decide
    · exact ge_of_mem_stringify v c hc
    · exact ge_of_mem_stringifyMembers ms c hc

end

mutual

/-- What is printed as it is stands in the text exactly where a string of the value has it. -/
theorem Raw.mem_stringify {c : CodeUnit} (h : Raw c) (v : Value N) :
    c ∈ stringify F v ↔ v.Mentions c := by
  have hascii : ∀ s : JsString, s.all isPrintable = true → c ∉ s := by
    intro s hs hc
    have hp := List.all_eq_true.mp hs c hc
    rw [not_isPrintable_of_ge h.ge] at hp
    exact Bool.false_ne_true hp
  cases v with
  | null =>
    rw [stringify, Value.Mentions]
    exact iff_false_intro (hascii _ (by decide))
  | bool b =>
    cases b with
    | false =>
      rw [stringify, Value.Mentions]
      exact iff_false_intro (hascii _ (by decide))
    | true =>
      rw [stringify, Value.Mentions]
      exact iff_false_intro (hascii _ (by decide))
  | num n =>
    rw [stringify, Value.Mentions]
    refine iff_false_intro fun hc => ?_
    have := isPrintable_of_isNumberUnit (F.isNumberUnit_of_mem n c hc)
    rw [not_isPrintable_of_ge h.ge] at this
    exact Bool.false_ne_true this
  | str s => rw [stringify, Value.Mentions, h.mem_quote]
  | arr vs =>
    cases vs with
    | nil =>
      rw [stringify, Value.Mentions, MentionsItems]
      exact iff_false_intro (hascii _ (by decide))
    | cons v vs =>
      rw [stringify, Value.Mentions, MentionsItems, List.mem_cons, List.mem_append,
        Raw.mem_stringify h v, Raw.mem_stringifyItems h vs]
      exact or_iff_right (h.ne_unit (by decide))
  | obj ms =>
    cases ms with
    | nil =>
      rw [stringify, Value.Mentions, MentionsMembers]
      exact iff_false_intro (hascii _ (by decide))
    | cons m ms =>
      rcases m with ⟨k, v⟩
      rw [stringify, Value.Mentions, MentionsMembers, List.mem_cons, List.mem_append,
        List.mem_cons, List.mem_append, h.mem_quote, Raw.mem_stringify h v,
        Raw.mem_stringifyMembers h ms]
      have hb : c ≠ unit '\x7b' := h.ne_unit (by decide)
      have hc : c ≠ unit ':' := h.ne_unit (by decide)
      simp only [hb, hc, false_or]

theorem Raw.mem_stringifyItems {c : CodeUnit} (h : Raw c) (vs : List (Value N)) :
    c ∈ stringifyItems F vs ↔ MentionsItems c vs := by
  cases vs with
  | nil =>
    rw [stringifyItems, MentionsItems, List.mem_singleton]
    exact iff_false_intro (h.ne_unit (by decide))
  | cons v vs =>
    rw [stringifyItems, MentionsItems, List.mem_cons, List.mem_append,
      Raw.mem_stringify h v, Raw.mem_stringifyItems h vs]
    exact or_iff_right (h.ne_unit (by decide))

theorem Raw.mem_stringifyMembers {c : CodeUnit} (h : Raw c) (ms : List (JsString × Value N)) :
    c ∈ stringifyMembers F ms ↔ MentionsMembers c ms := by
  cases ms with
  | nil =>
    rw [stringifyMembers, MentionsMembers, List.mem_singleton]
    exact iff_false_intro (h.ne_unit (by decide))
  | cons m ms =>
    rcases m with ⟨k, v⟩
    rw [stringifyMembers, MentionsMembers, List.mem_cons, List.mem_append, List.mem_cons,
      List.mem_append, h.mem_quote, Raw.mem_stringify h v, Raw.mem_stringifyMembers h ms]
    have hb : c ≠ unit ',' := h.ne_unit (by decide)
    have hc : c ≠ unit ':' := h.ne_unit (by decide)
    simp only [hb, hc, false_or]

end

/-! ## Decimal integers -/

def digitUnit (d : Nat) : CodeUnit := UInt16.ofNat (48 + d)

/-- A natural number in decimal digits. -/
def printNat (n : Nat) : JsString :=
  if n = 0 then [unit '0'] else ((Nat.digits 10 n).map digitUnit).reverse

def printInt : Int → JsString
  | .ofNat n => printNat n
  | .negSucc n => unit '-' :: printNat (n + 1)

def readNat (s : JsString) : Option Nat :=
  if s = [] then none
  else (s.reverse.mapM fun c =>
    if unit '0' ≤ c ∧ c ≤ unit '9' then some (c.toNat - 48) else none).map (Nat.ofDigits 10)

def readInt : JsString → Option Int
  | [] => none
  | c :: s =>
    if c = unit '-' then (readNat s).map fun n => -(n : Int)
    else (readNat (c :: s)).map fun n => (n : Int)

theorem digitUnit_spec : ∀ d < 10, (unit '0' ≤ digitUnit d ∧ digitUnit d ≤ unit '9') ∧
    (digitUnit d).toNat - 48 = d := by decide

theorem printNat_ne_nil (n : Nat) : printNat n ≠ [] := by
  unfold printNat
  split
  · exact List.cons_ne_nil _ _
  · rename_i h
    rw [ne_eq, List.reverse_eq_nil_iff, List.map_eq_nil_iff]
    exact Nat.digits_ne_nil_iff_ne_zero.mpr h

theorem mem_printNat {n : Nat} {c : CodeUnit} (h : c ∈ printNat n) :
    unit '0' ≤ c ∧ c ≤ unit '9' := by
  unfold printNat at h
  split at h
  · rw [List.mem_singleton.mp h]
    decide
  · rw [List.mem_reverse] at h
    obtain ⟨d, hd, rfl⟩ := List.mem_map.mp h
    exact (digitUnit_spec d (Nat.digits_lt_base (by decide) hd)).1

theorem readNat_printNat (n : Nat) : readNat (printNat n) = some n := by
  rw [readNat, if_neg (printNat_ne_nil n)]
  unfold printNat
  split
  · subst_vars
    decide
  · rw [List.reverse_reverse, List.mapM_map]
    have hread : ∀ l : List Nat, (∀ d ∈ l, d < 10) →
        l.mapM (fun d => if unit '0' ≤ digitUnit d ∧ digitUnit d ≤ unit '9' then
          some ((digitUnit d).toNat - 48) else none) = some l := by
      intro l hl
      induction l with
      | nil => rfl
      | cons d l ih =>
        obtain ⟨hd, hv⟩ := digitUnit_spec d (hl d List.mem_cons_self)
        rw [List.mapM_cons, if_pos hd, hv, ih fun e he => hl e (List.mem_cons_of_mem d he)]
        rfl
    have := hread (Nat.digits 10 n) fun d hd => Nat.digits_lt_base (by decide) hd
    rw [show (_ ∘ digitUnit) = (fun d => if unit '0' ≤ digitUnit d ∧ digitUnit d ≤ unit '9' then
      some ((digitUnit d).toNat - 48) else none) from rfl, this]
    show some (Nat.ofDigits 10 (Nat.digits 10 n)) = some n
    rw [Nat.ofDigits_digits]

theorem readInt_printInt (n : Int) : readInt (printInt n) = some n := by
  cases n with
  | ofNat n =>
    rcases hp : printNat n with _ | ⟨c, s⟩
    · exact absurd hp (printNat_ne_nil n)
    · have hc : c ≠ unit '-' := by
        rintro rfl
        exact absurd (mem_printNat (n := n) (by rw [hp]; exact List.mem_cons_self)) (by decide)
      rw [printInt, hp, readInt, if_neg hc, ← hp, readNat_printNat]
      rfl
  | negSucc n =>
    rw [printInt, readInt, if_pos rfl, readNat_printNat]
    rfl

theorem isNumberUnit_of_digit {c : CodeUnit} (h : unit '0' ≤ c ∧ c ≤ unit '9') :
    isNumberUnit c = true := by
  simp only [isNumberUnit, Bool.or_eq_true, Bool.and_eq_true, decide_eq_true_eq]
  exact Or.inl (Or.inl (Or.inl (Or.inl (Or.inl h))))

/-- Integers in decimal digits. -/
def decimal : NumberFormat Int where
  print := printInt
  read := readInt
  read_print := readInt_printInt
  print_ne_nil n := by
    cases n with
    | ofNat n => exact printNat_ne_nil n
    | negSucc n => exact List.cons_ne_nil _ _
  isNumberUnit_of_mem n c hc := by
    cases n with
    | ofNat n => exact isNumberUnit_of_digit (mem_printNat hc)
    | negSucc n =>
      rcases List.mem_cons.mp hc with rfl | hc
      · decide
      · exact isNumberUnit_of_digit (mem_printNat hc)

end Json
