import InvisibleString.Lib.SortBy
import InvisibleString.Lib.Text
import InvisibleString.Lib.Checks

/- # `Compiler.Canonical` — the canonical text of a value

`canonicalJson` writes a value with the keys of every object sorted and the members without a
value left out; what JSON has no word for makes it throw.

**Proved here.**

    it is `JSON.stringify` of the normal form  (`canonicalJson_eq_stringify`)
    two values have one text exactly when they are the same up to the order of keys and
      members left out  (`canonicalJson_eq_iff`)
-/

namespace InvisibleString.Compiler

open Json
open Checks (bind_eq_ok bind_of_eq_ok mapM_cons_ok)

variable {N : Type} (F : NumberFormat N)

/-- A value as the language has it; an object lists its own enumerable members in their order. -/
inductive JsValue (N : Type) where
  | undefined
  | null
  | bool (b : Bool)
  | num (n : N)
  /-- A number that is not finite, with its text. -/
  | nonFinite (text : JsString)
  | str (s : JsString)
  /-- A function, a symbol or a bigint. -/
  | other (type : JsString)
  | arr (items : List (JsValue N))
  | obj (members : List (JsString × JsValue N))

/-! ## The text -/

mutual

/-- An error is the message of a `TypeError`. -/
def canonicalJson : JsValue N → Except JsString JsString
  | .null => .ok (ascii "null")
  | .str s => .ok (quote s)
  | .bool true => .ok (ascii "true")
  | .bool false => .ok (ascii "false")
  | .num n => .ok (F.print n)
  | .nonFinite text => .error (ascii "cannot canonicalize non-finite number " ++ text)
  | .undefined => .error (ascii "cannot canonicalize value of type undefined")
  | .other type => .error (ascii "cannot canonicalize value of type " ++ type)
  | .arr items => do
    let texts ← canonicalItems items
    .ok (ascii "[" ++ join (ascii ",") texts ++ ascii "]")
  | .obj members => do
    let entries ← (sortBy Prod.fst (canonicalMembers members)).mapM Prod.snd
    .ok (ascii "\x7b" ++ join (ascii ",") entries ++ ascii "\x7d")

/-- In an array `undefined` stands as `null`. -/
def canonicalItems : List (JsValue N) → Except JsString (List JsString)
  | [] => .ok []
  | .undefined :: items => do
    let texts ← canonicalItems items
    .ok (ascii "null" :: texts)
  | item :: items => do
    let text ← canonicalJson item
    let texts ← canonicalItems items
    .ok (text :: texts)

/-- Each key that has a value, with the text of its entry. -/
def canonicalMembers : List (JsString × JsValue N) → List (JsString × Except JsString JsString)
  | [] => []
  | (_, .undefined) :: members => canonicalMembers members
  | (key, value) :: members =>
    (key, (canonicalJson value).map fun text => quote key ++ ascii ":" ++ text) ::
      canonicalMembers members

end

/-! ## The normal form -/

/-- The entry of a key, if its value has one. -/
def entryOf (e : JsString × Except JsString (Value N)) : Except JsString (JsString × Value N) :=
  e.2.map (Prod.mk e.1)

mutual

/-- The JSON value that the text is of. -/
def normalize : JsValue N → Except JsString (Value N)
  | .null => .ok .null
  | .str s => .ok (.str s)
  | .bool b => .ok (.bool b)
  | .num n => .ok (.num n)
  | .nonFinite text => .error (ascii "cannot canonicalize non-finite number " ++ text)
  | .undefined => .error (ascii "cannot canonicalize value of type undefined")
  | .other type => .error (ascii "cannot canonicalize value of type " ++ type)
  | .arr items => (normalizeItems items).map .arr
  | .obj members =>
    ((sortBy Prod.fst (normalizeMembers members)).mapM entryOf).map .obj

def normalizeItems : List (JsValue N) → Except JsString (List (Value N))
  | [] => .ok []
  | .undefined :: items => do
    let values ← normalizeItems items
    .ok (.null :: values)
  | item :: items => do
    let value ← normalize item
    let values ← normalizeItems items
    .ok (value :: values)

def normalizeMembers : List (JsString × JsValue N) → List (JsString × Except JsString (Value N))
  | [] => []
  | (_, .undefined) :: members => normalizeMembers members
  | (key, value) :: members => (key, normalize value) :: normalizeMembers members

end

theorem normalizeItems_cons {item : JsValue N} {items : List (JsValue N)} (h : item ≠ .undefined) :
    normalizeItems (item :: items) = (do
      let value ← normalize item
      let values ← normalizeItems items
      .ok (value :: values)) := by
  cases item <;> first | rfl | exact absurd rfl h

theorem normalizeMembers_cons {key : JsString} {value : JsValue N}
    {members : List (JsString × JsValue N)} (h : value ≠ .undefined) :
    normalizeMembers ((key, value) :: members) =
      (key, normalize value) :: normalizeMembers members := by
  cases value <;> first | rfl | exact absurd rfl h

theorem canonicalItems_cons {item : JsValue N} {items : List (JsValue N)} (h : item ≠ .undefined) :
    canonicalItems F (item :: items) = (do
      let text ← canonicalJson F item
      let texts ← canonicalItems F items
      .ok (text :: texts)) := by
  cases item <;> first | rfl | exact absurd rfl h

theorem canonicalMembers_cons {key : JsString} {value : JsValue N}
    {members : List (JsString × JsValue N)} (h : value ≠ .undefined) :
    canonicalMembers F ((key, value) :: members) =
      (key, (canonicalJson F value).map fun text => quote key ++ ascii ":" ++ text) ::
        canonicalMembers F members := by
  cases value <;> first | rfl | exact absurd rfl h

theorem stringify_arr (vs : List (Value N)) :
    stringify F (.arr vs) =
      ascii "[" ++ join (ascii ",") (vs.map (stringify F)) ++ ascii "]" := by
  have hitems : ∀ (v : Value N) (vs : List (Value N)),
      stringify F v ++ stringifyItems F vs =
        join (ascii ",") ((v :: vs).map (stringify F)) ++ ascii "]" := by
    intro v vs
    induction vs generalizing v with
    | nil => rfl
    | cons w vs ih =>
      rw [stringifyItems, List.map_cons, List.map_cons, join, ← List.map_cons, ih w]
      · simp only [List.append_assoc]
        rfl
      · simp
  cases vs with
  | nil => rfl
  | cons v vs =>
    rw [stringify, hitems v vs]
    rfl

/-- The text of one member. -/
def stringifyMember (member : JsString × Value N) : JsString :=
  quote member.1 ++ ascii ":" ++ stringify F member.2

theorem stringify_obj (ms : List (JsString × Value N)) :
    stringify F (.obj ms) =
      ascii "\x7b" ++ join (ascii ",") (ms.map (stringifyMember F)) ++ ascii "\x7d" := by
  have hmembers : ∀ (k : JsString) (v : Value N) (ms : List (JsString × Value N)),
      quote k ++ unit ':' :: (stringify F v ++ stringifyMembers F ms) =
        join (ascii ",") (((k, v) :: ms).map (stringifyMember F)) ++ ascii "\x7d" := by
    intro k v ms
    induction ms generalizing k v with
    | nil =>
      change _ = (quote k ++ ascii ":" ++ stringify F v) ++ ascii "\x7d"
      simp only [List.append_assoc]
      rfl
    | cons m ms ih =>
      rw [stringifyMembers, List.map_cons, List.map_cons, join, ← List.map_cons, ih m.1 m.2]
      · simp only [stringifyMember, List.append_assoc]
        rfl
      · simp
  cases ms with
  | nil => rfl
  | cons m ms =>
    rw [stringify, hmembers m.1 m.2 ms]
    rfl

/-- Entries read one after the other and then written, and written right away. -/
theorem mapM_entry (l : List (JsString × Except JsString (Value N))) :
    (l.map fun e => (e.1, e.2.map fun w => quote e.1 ++ ascii ":" ++ stringify F w)).mapM Prod.snd =
      (l.mapM entryOf).map (List.map (stringifyMember F)) := by
  induction l with
  | nil => rfl
  | cons e l ih =>
    rcases e with ⟨k, r⟩
    rw [List.map_cons, List.mapM_cons, List.mapM_cons, ih]
    cases r with
    | error e => rfl
    | ok w => cases l.mapM entryOf <;> rfl

mutual

theorem canonicalJson_eq_stringify (v : JsValue N) :
    canonicalJson F v = (normalize v).map (stringify F) := by
  cases v with
  | undefined | null | num | nonFinite | str | other => rfl
  | bool b => cases b <;> rfl
  | arr items =>
    rw [canonicalJson, normalize, canonicalItems_eq_stringify items]
    cases normalizeItems items with
    | error e => rfl
    | ok vs => exact congrArg Except.ok (stringify_arr F vs).symm
  | obj members =>
    have hsort : sortBy Prod.fst ((normalizeMembers members).map fun e =>
        (e.1, e.2.map fun w => quote e.1 ++ ascii ":" ++ stringify F w)) =
        (sortBy Prod.fst (normalizeMembers members)).map fun e =>
          (e.1, e.2.map fun w => quote e.1 ++ ascii ":" ++ stringify F w) :=
      sortBy_map fun _ _ => rfl
    rw [canonicalJson, normalize, canonicalMembers_eq_stringify members, hsort, mapM_entry]
    cases (sortBy Prod.fst (normalizeMembers members)).mapM entryOf with
    | error e => rfl
    | ok ms => exact congrArg Except.ok (stringify_obj F ms).symm

theorem canonicalItems_eq_stringify (items : List (JsValue N)) :
    canonicalItems F items = (normalizeItems items).map (List.map (stringify F)) := by
  cases items with
  | nil => rfl
  | cons item items =>
    have ih := canonicalItems_eq_stringify items
    by_cases hu : item = .undefined
    · subst hu
      rw [canonicalItems, normalizeItems, ih]
      cases normalizeItems items <;> rfl
    · rw [canonicalItems_cons F hu, normalizeItems_cons hu, ih, canonicalJson_eq_stringify item]
      cases normalize item with
      | error e => rfl
      | ok v => cases normalizeItems items <;> rfl

theorem canonicalMembers_eq_stringify (members : List (JsString × JsValue N)) :
    canonicalMembers F members = (normalizeMembers members).map fun e =>
      (e.1, e.2.map fun w => quote e.1 ++ ascii ":" ++ stringify F w) := by
  cases members with
  | nil => rfl
  | cons m members =>
    rcases m with ⟨key, value⟩
    have ih := canonicalMembers_eq_stringify members
    by_cases hu : value = .undefined
    · subst hu
      exact ih
    · rw [canonicalMembers_cons F hu, normalizeMembers_cons hu, ih, List.map_cons,
        canonicalJson_eq_stringify value]
      cases normalize value <;> rfl

end

theorem canonicalJson_toBool (v : JsValue N) :
    (canonicalJson F v).toBool = (normalize v).toBool := by
  rw [canonicalJson_eq_stringify]
  cases normalize v <;> rfl

theorem mapM_entryOf {l : List (JsString × Except JsString (Value N))} {ms : List (JsString × Value N)} :
    l.mapM entryOf = .ok ms ↔ l = ms.map fun m => (m.1, .ok m.2) := by
  induction l generalizing ms with
  | nil =>
    cases ms with
    | nil => exact ⟨fun _ => rfl, fun _ => rfl⟩
    | cons m ms => exact ⟨nofun, nofun⟩
  | cons e l ih =>
    rcases e with ⟨k, r⟩
    constructor
    · intro h
      obtain ⟨m, ms', hm, hms, rfl⟩ := mapM_cons_ok h
      cases r with
      | error e => cases hm
      | ok w =>
        cases hm
        rw [List.map_cons, ih.mp hms]
    · intro h
      cases ms with
      | nil => cases h
      | cons m ms =>
        obtain ⟨he, hl⟩ := List.cons.inj h
        cases he
        rw [List.mapM_cons, ih.mpr hl]
        rfl

theorem mem_normalizeMembers {members : List (JsString × JsValue N)} {key : JsString}
    {r : Except JsString (Value N)} :
    (key, r) ∈ normalizeMembers members ↔
      ∃ value, (key, value) ∈ members ∧ value ≠ .undefined ∧ r = normalize value := by
  induction members with
  | nil => exact ⟨nofun, nofun⟩
  | cons m members ih =>
    rcases m with ⟨k, v⟩
    by_cases hu : v = .undefined
    · subst hu
      rw [normalizeMembers, ih]
      constructor
      · rintro ⟨value, hm, hd, hr⟩
        exact ⟨value, List.mem_cons_of_mem _ hm, hd, hr⟩
      · rintro ⟨value, hm, hd, hr⟩
        rcases List.mem_cons.mp hm with h | h
        · cases h
          exact absurd rfl hd
        · exact ⟨value, h, hd, hr⟩
    · rw [normalizeMembers_cons hu, List.mem_cons, ih]
      constructor
      · rintro (h | ⟨value, hm, hd, hr⟩)
        · cases h
          exact ⟨v, List.mem_cons_self, hu, rfl⟩
        · exact ⟨value, List.mem_cons_of_mem _ hm, hd, hr⟩
      · rintro ⟨value, hm, hd, hr⟩
        rcases List.mem_cons.mp hm with h | h
        · cases h
          exact .inl (by rw [hr])
        · exact .inr ⟨value, h, hd, hr⟩

theorem keys_normalizeMembers (members : List (JsString × JsValue N)) :
    ((normalizeMembers members).map Prod.fst).Sublist (members.map Prod.fst) := by
  induction members with
  | nil => exact List.Sublist.slnil
  | cons m members ih =>
    rcases m with ⟨k, v⟩
    by_cases hu : v = .undefined
    · subst hu
      exact ih.trans (List.sublist_cons_self _ _)
    · rw [normalizeMembers_cons hu]
      exact ih.cons_cons k

/-! ## Objects with each key once -/

mutual

/-- No object in the value lists a key twice. -/
def JsValue.KeysOnce : JsValue N → Prop
  | .arr items => ItemsOnce items
  | .obj members => OrderedMap.UniqueKeys members ∧ MembersOnce members
  | _ => True

def ItemsOnce : List (JsValue N) → Prop
  | [] => True
  | item :: items => item.KeysOnce ∧ ItemsOnce items

def MembersOnce : List (JsString × JsValue N) → Prop
  | [] => True
  | (_, value) :: members => value.KeysOnce ∧ MembersOnce members

end

theorem membersOnce_iff {members : List (JsString × JsValue N)} :
    MembersOnce members ↔ ∀ key value, (key, value) ∈ members → value.KeysOnce := by
  induction members with
  | nil => exact ⟨nofun, fun _ => trivial⟩
  | cons m members ih =>
    rcases m with ⟨k, v⟩
    rw [MembersOnce, ih]
    constructor
    · rintro ⟨hv, h⟩ key value hm
      rcases List.mem_cons.mp hm with heq | hm
      · cases heq
        exact hv
      · exact h key value hm
    · intro h
      exact ⟨h k v List.mem_cons_self, fun key value hm => h key value (List.mem_cons_of_mem _ hm)⟩

/-- The members of a normal form: those that have a value, each normal. -/
theorem normalize_obj {members : List (JsString × JsValue N)} {w : Value N}
    (h : normalize (.obj members) = .ok w) :
    ∃ ms, w = .obj ms ∧
      sortBy Prod.fst (normalizeMembers members) = ms.map fun m => (m.1, .ok m.2) := by
  rw [normalize] at h
  cases hm : (sortBy Prod.fst (normalizeMembers members)).mapM entryOf with
  | error e =>
    rw [hm] at h
    cases h
  | ok ms =>
    rw [hm] at h
    cases h
    exact ⟨ms, rfl, mapM_entryOf.mp hm⟩

theorem mem_of_normalize_obj {members : List (JsString × JsValue N)} {ms : List (JsString × Value N)}
    (h : sortBy Prod.fst (normalizeMembers members) = ms.map fun m => (m.1, .ok m.2))
    {key : JsString} {r : Except JsString (Value N)} :
    (key, r) ∈ normalizeMembers members ↔ ∃ u, (key, u) ∈ ms ∧ r = .ok u := by
  have hsorted : (key, r) ∈ sortBy Prod.fst (normalizeMembers members) ↔
      (key, r) ∈ normalizeMembers members := mem_sortBy
  rw [← hsorted, h, List.mem_map]
  constructor
  · rintro ⟨m, hm, heq⟩
    cases heq
    exact ⟨m.2, hm, rfl⟩
  · rintro ⟨u, hm, rfl⟩
    exact ⟨(key, u), hm, rfl⟩

theorem normalize_arr {items : List (JsValue N)} {w : Value N} (h : normalize (.arr items) = .ok w) :
    ∃ vs, w = .arr vs ∧ normalizeItems items = .ok vs := by
  rw [normalize] at h
  cases hi : normalizeItems items with
  | error e =>
    rw [hi] at h
    cases h
  | ok vs =>
    rw [hi] at h
    cases h
    exact ⟨vs, rfl, rfl⟩

theorem normalizeItems_ok {item : JsValue N} {items : List (JsValue N)} {ws : List (Value N)}
    (h : normalizeItems (item :: items) = .ok ws) :
    ∃ v vs, ws = v :: vs ∧ normalizeItems items = .ok vs ∧
      (item = .undefined ∧ v = .null ∨ item ≠ .undefined ∧ normalize item = .ok v) := by
  by_cases hu : item = .undefined
  · subst hu
    obtain ⟨vs, hvs, h⟩ := bind_eq_ok h
    cases h
    exact ⟨.null, vs, rfl, hvs, .inl ⟨rfl, rfl⟩⟩
  · rw [normalizeItems_cons hu] at h
    obtain ⟨v, hv, h⟩ := bind_eq_ok h
    obtain ⟨vs, hvs, h⟩ := bind_eq_ok h
    cases h
    exact ⟨v, vs, rfl, hvs, .inr ⟨hu, hv⟩⟩

mutual

theorem keysOnce_normalize (v : JsValue N) (hv : v.KeysOnce) {w : Value N}
    (h : normalize v = .ok w) : w.KeysOnce := by
  cases v with
  | undefined | nonFinite | other => cases h
  | null | bool | num | str => cases h; trivial
  | arr items =>
    obtain ⟨vs, rfl, hvs⟩ := normalize_arr h
    exact keysOnce_normalizeItems items hv hvs
  | obj members =>
    obtain ⟨ms, rfl, hms⟩ := normalize_obj h
    have hnodup : ((normalizeMembers members).map Prod.fst).Nodup :=
      hv.1.sublist (keys_normalizeMembers members)
    have hkeys : ms.map Prod.fst = (sortBy Prod.fst (normalizeMembers members)).map Prod.fst := by
      rw [hms, List.map_map]
      rfl
    refine ⟨?_, keysOnceMembers_of_forall fun key u hu => ?_⟩
    · change (ms.map Prod.fst).Nodup
      rw [hkeys]
      exact ((sortBy_perm Prod.fst (normalizeMembers members)).map Prod.fst).nodup_iff.mpr hnodup
    · exact keysOnce_normalizeMembers members hv.2 ((mem_of_normalize_obj hms).mpr ⟨u, hu, rfl⟩)

theorem keysOnce_normalizeItems (items : List (JsValue N)) (hv : ItemsOnce items)
    {ws : List (Value N)} (h : normalizeItems items = .ok ws) : KeysOnceItems ws := by
  cases items with
  | nil => cases h; trivial
  | cons item items =>
    obtain ⟨v, vs, rfl, hvs, hitem⟩ := normalizeItems_ok h
    refine ⟨?_, keysOnce_normalizeItems items hv.2 hvs⟩
    rcases hitem with ⟨_, rfl⟩ | ⟨_, hitem⟩
    · trivial
    · exact keysOnce_normalize item hv.1 hitem

theorem keysOnce_normalizeMembers (members : List (JsString × JsValue N)) (hv : MembersOnce members)
    {key : JsString} {u : Value N} (h : (key, .ok u) ∈ normalizeMembers members) : u.KeysOnce := by
  cases members with
  | nil => cases h
  | cons m members =>
    rcases m with ⟨k, v⟩
    by_cases hu : v = .undefined
    · subst hu
      exact keysOnce_normalizeMembers members hv.2 h
    · rw [normalizeMembers_cons hu] at h
      rcases List.mem_cons.mp h with heq | hm
      · exact keysOnce_normalize v hv.1 (Prod.mk.inj heq).2.symm
      · exact keysOnce_normalizeMembers members hv.2 hm

end

/-! ## The same value -/

mutual

/-- The two values differ at most in the order of keys and in members without a value; an
array's `undefined` counts as `null`. -/
def Same : JsValue N → JsValue N → Prop
  | .undefined, w => w = .undefined
  | .null, w => w = .null
  | .bool b, w => w = .bool b
  | .num n, w => w = .num n
  | .nonFinite text, w => w = .nonFinite text
  | .str s, w => w = .str s
  | .other type, w => w = .other type
  | .arr items, w => ∃ items', w = .arr items' ∧ SameItems items items'
  | .obj members, w => ∃ members', w = .obj members' ∧ Within members members' ∧
      ∀ key value', (key, value') ∈ members' → value' ≠ .undefined →
        ∃ value, (key, value) ∈ members ∧ value ≠ .undefined

def SameItems : List (JsValue N) → List (JsValue N) → Prop
  | [], items' => items' = []
  | item :: items, items' => ∃ item' rest, items' = item' :: rest ∧ SameItems items rest ∧
      (Same item item' ∨ item = .undefined ∧ item' = .null ∨ item = .null ∧ item' = .undefined)

/-- Each member with a value is among the others, the same. -/
def Within : List (JsString × JsValue N) → List (JsString × JsValue N) → Prop
  | [], _ => True
  | (key, value) :: members, members' =>
    (value ≠ .undefined → ∃ value', (key, value') ∈ members' ∧ Same value value') ∧
      Within members members'

end

theorem Same.undefined_iff {v w : JsValue N} (h : Same v w) : v = .undefined ↔ w = .undefined := by
  constructor
  · rintro rfl
    exact h
  · rintro rfl
    cases v with
    | undefined => rfl
    | null | bool | num | nonFinite | str | other => cases h
    | arr | obj =>
      obtain ⟨_, h, _⟩ := h
      cases h

theorem Same.ne_undefined {v w : JsValue N} (h : Same v w) (hv : v ≠ .undefined) :
    w ≠ .undefined := mt h.undefined_iff.mpr hv

theorem within_iff {members members' : List (JsString × JsValue N)} :
    Within members members' ↔ ∀ key value, (key, value) ∈ members → value ≠ .undefined →
      ∃ value', (key, value') ∈ members' ∧ Same value value' := by
  induction members with
  | nil => exact ⟨nofun, fun _ => trivial⟩
  | cons m members ih =>
    rcases m with ⟨k, v⟩
    rw [Within, ih]
    constructor
    · rintro ⟨hv, h⟩ key value hm
      rcases List.mem_cons.mp hm with heq | hm
      · cases heq
        exact hv
      · exact h key value hm
    · intro h
      exact ⟨h k v List.mem_cons_self, fun key value hm => h key value (List.mem_cons_of_mem _ hm)⟩

theorem eq_null_of_normalize {v : JsValue N} (h : normalize v = .ok .null) : v = .null := by
  cases v with
  | undefined | nonFinite | other | bool | num | str => cases h
  | null => rfl
  | arr =>
    obtain ⟨_, h, _⟩ := normalize_arr h
    cases h
  | obj =>
    obtain ⟨_, h, _⟩ := normalize_obj h
    cases h

mutual

/-- Values with one normal form are the same. -/
theorem same_of_normalize (v : JsValue N) {w : JsValue N} (hw : w.KeysOnce) {u : Value N}
    (hv : normalize v = .ok u) (hwu : normalize w = .ok u) : Same v w := by
  cases v with
  | undefined | nonFinite | other => cases hv
  | null | bool b | num n | str s =>
    cases hv
    cases w with
    | undefined | nonFinite | other => cases hwu
    | null | bool | num | str => cases hwu <;> rfl
    | arr =>
      obtain ⟨_, h, _⟩ := normalize_arr hwu
      cases h
    | obj =>
      obtain ⟨_, h, _⟩ := normalize_obj hwu
      cases h
  | arr items =>
    obtain ⟨vs, rfl, hvs⟩ := normalize_arr hv
    cases w with
    | undefined | nonFinite | other | null | bool | num | str => cases hwu
    | arr items' =>
      obtain ⟨vs', heq, hvs'⟩ := normalize_arr hwu
      cases heq
      exact ⟨items', rfl, sameItems_of_normalize items hw hvs hvs'⟩
    | obj =>
      obtain ⟨_, h, _⟩ := normalize_obj hwu
      cases h
  | obj members =>
    obtain ⟨ms, rfl, hms⟩ := normalize_obj hv
    cases w with
    | undefined | nonFinite | other | null | bool | num | str => cases hwu
    | arr =>
      obtain ⟨_, h, _⟩ := normalize_arr hwu
      cases h
    | obj members' =>
      obtain ⟨ms', heq, hms'⟩ := normalize_obj hwu
      cases heq
      have hmem : ∀ key r, (key, r) ∈ normalizeMembers members ↔
          (key, r) ∈ normalizeMembers members' := by
        intro key r
        rw [mem_of_normalize_obj hms, mem_of_normalize_obj hms']
      refine ⟨members', rfl, within_of_normalize members hw.2 ?_, ?_⟩
      · intro key r hr
        obtain ⟨u, _, rfl⟩ := (mem_of_normalize_obj hms).mp hr
        exact ⟨(hmem key _).mp hr, u, rfl⟩
      · intro key value' hm hd
        obtain ⟨value, hm, hd, _⟩ := mem_normalizeMembers.mp
          ((hmem key _).mpr (mem_normalizeMembers.mpr ⟨value', hm, hd, rfl⟩))
        exact ⟨value, hm, hd⟩

theorem sameItems_of_normalize (items : List (JsValue N)) {items' : List (JsValue N)}
    (hw : ItemsOnce items') {us : List (Value N)} (hv : normalizeItems items = .ok us)
    (hwu : normalizeItems items' = .ok us) : SameItems items items' := by
  cases items with
  | nil =>
    cases hv
    cases items' with
    | nil => rfl
    | cons item' items' =>
      obtain ⟨_, _, h, _⟩ := normalizeItems_ok hwu
      cases h
  | cons item items =>
    obtain ⟨v, vs, rfl, hvs, hitem⟩ := normalizeItems_ok hv
    cases items' with
    | nil => cases hwu
    | cons item' items' =>
      obtain ⟨v', vs', heq, hvs', hitem'⟩ := normalizeItems_ok hwu
      cases heq
      refine ⟨item', items', rfl, sameItems_of_normalize items hw.2 hvs hvs', ?_⟩
      rcases hitem with ⟨rfl, rfl⟩ | ⟨hd, hitem⟩ <;> rcases hitem' with ⟨rfl, h'⟩ | ⟨hd', hitem'⟩
      · exact .inl rfl
      · exact .inr (.inl ⟨rfl, eq_null_of_normalize hitem'⟩)
      · subst h'
        exact .inr (.inr ⟨eq_null_of_normalize hitem, rfl⟩)
      · exact .inl (same_of_normalize item hw.1 hitem hitem')

theorem within_of_normalize (members : List (JsString × JsValue N))
    {members' : List (JsString × JsValue N)} (hw : MembersOnce members')
    (h : ∀ key r, (key, r) ∈ normalizeMembers members →
      (key, r) ∈ normalizeMembers members' ∧ ∃ u, r = .ok u) : Within members members' := by
  cases members with
  | nil => trivial
  | cons m members =>
    rcases m with ⟨k, v⟩
    refine ⟨fun hd => ?_, within_of_normalize members hw fun key r hr => ?_⟩
    · obtain ⟨hm, u, hu⟩ := h k (normalize v)
        (mem_normalizeMembers.mpr ⟨v, List.mem_cons_self, hd, rfl⟩)
      obtain ⟨value', hm, _, heq⟩ := mem_normalizeMembers.mp hm
      exact ⟨value', hm,
        same_of_normalize v (membersOnce_iff.mp hw k value' hm) hu (heq.symm.trans hu)⟩
    · obtain ⟨value, hm, hd, rfl⟩ := mem_normalizeMembers.mp hr
      exact h key _ (mem_normalizeMembers.mpr ⟨value, List.mem_cons_of_mem _ hm, hd, rfl⟩)

end

mutual

theorem normalize_of_same (v : JsValue N) {w : JsValue N} (hv : v.KeysOnce) (hw : w.KeysOnce)
    {u : Value N} (h : normalize v = .ok u) (hs : Same v w) : normalize w = .ok u := by
  cases v with
  | undefined | nonFinite | other => cases h
  | null | bool b | num n | str s =>
    cases hs
    exact h
  | arr items =>
    obtain ⟨vs, rfl, hvs⟩ := normalize_arr h
    obtain ⟨items', rfl, hs⟩ := hs
    rw [normalize, normalizeItems_of_same items hv hw hvs hs]
    rfl
  | obj members =>
    obtain ⟨ms, rfl, hms⟩ := normalize_obj h
    obtain ⟨members', rfl, hwithin, hback⟩ := hs
    have hok : ∀ key r, (key, r) ∈ normalizeMembers members → ∃ u, r = .ok u := by
      intro key r hr
      obtain ⟨u, _, hu⟩ := (mem_of_normalize_obj hms).mp hr
      exact ⟨u, hu⟩
    have hto : ∀ key r, (key, r) ∈ normalizeMembers members →
        (key, r) ∈ normalizeMembers members' :=
      normalizeMembers_of_same members hv.2 hw.2 hok hwithin
    have hfrom : ∀ key r, (key, r) ∈ normalizeMembers members' →
        (key, r) ∈ normalizeMembers members := by
      intro key r hr
      obtain ⟨value', hm', hd', rfl⟩ := mem_normalizeMembers.mp hr
      obtain ⟨value, hm, hd⟩ := hback key value' hm' hd'
      have hmem := mem_normalizeMembers.mpr ⟨value, hm, hd, rfl⟩
      obtain ⟨value'', hm'', _, heq⟩ := mem_normalizeMembers.mp (hto key _ hmem)
      have hone : (key, value') = (key, value'') := eq_of_key_eq hw.1 hm' hm'' rfl
      cases hone
      exact heq ▸ hmem
    have hnodup : ((normalizeMembers members).map Prod.fst).Nodup :=
      hv.1.sublist (keys_normalizeMembers members)
    have hnodup' : ((normalizeMembers members').map Prod.fst).Nodup :=
      hw.1.sublist (keys_normalizeMembers members')
    have hperm : (normalizeMembers members).Perm (normalizeMembers members') :=
      (List.perm_ext_iff_of_nodup hnodup.of_map hnodup'.of_map).mpr fun e =>
        ⟨hto e.1 e.2, hfrom e.1 e.2⟩
    rw [normalize, ← sortBy_eq_of_perm hperm hnodup]
    exact h

theorem normalizeItems_of_same (items : List (JsValue N)) {items' : List (JsValue N)}
    (hv : ItemsOnce items) (hw : ItemsOnce items') {us : List (Value N)}
    (h : normalizeItems items = .ok us) (hs : SameItems items items') :
    normalizeItems items' = .ok us := by
  cases items with
  | nil =>
    cases hs
    exact h
  | cons item items =>
    obtain ⟨v, vs, rfl, hvs, hitem⟩ := normalizeItems_ok h
    obtain ⟨item', items', rfl, hs, hsame⟩ := hs
    have ih := normalizeItems_of_same items hv.2 hw.2 hvs hs
    rcases hsame with hsame | ⟨rfl, rfl⟩ | ⟨rfl, rfl⟩
    · rcases hitem with ⟨rfl, rfl⟩ | ⟨hd, hitem⟩
      · cases hsame
        rw [normalizeItems, ih]
        rfl
      · rw [normalizeItems_cons (hsame.ne_undefined hd), ih,
          normalize_of_same item hv.1 hw.1 hitem hsame]
        rfl
    · rcases hitem with ⟨_, rfl⟩ | ⟨hd, _⟩
      · rw [normalizeItems_cons (fun h => by cases h), ih]
        rfl
      · exact absurd rfl hd
    · rcases hitem with ⟨hd, _⟩ | ⟨_, hitem⟩
      · cases hd
      · cases hitem
        rw [normalizeItems, ih]
        rfl

theorem normalizeMembers_of_same (members : List (JsString × JsValue N))
    {members' : List (JsString × JsValue N)} (hv : MembersOnce members) (hw : MembersOnce members')
    (hok : ∀ key r, (key, r) ∈ normalizeMembers members → ∃ u, r = .ok u)
    (hs : Within members members') :
    ∀ key r, (key, r) ∈ normalizeMembers members → (key, r) ∈ normalizeMembers members' := by
  intro key r hr
  cases members with
  | nil => cases hr
  | cons m members =>
    rcases m with ⟨k, v⟩
    by_cases hu : v = .undefined
    · subst hu
      exact normalizeMembers_of_same members hv.2 hw hok hs.2 key r hr
    · rw [normalizeMembers_cons hu] at hr hok
      rcases List.mem_cons.mp hr with heq | hm
      · cases heq
        obtain ⟨u, hu'⟩ := hok key _ List.mem_cons_self
        obtain ⟨value', hm, hsame⟩ := hs.1 hu
        refine mem_normalizeMembers.mpr ⟨value', hm, hsame.ne_undefined hu, ?_⟩
        rw [hu', normalize_of_same v hv.1 (membersOnce_iff.mp hw key value' hm) hu' hsame]
      · exact normalizeMembers_of_same members hv.2 hw
          (fun key r hr => hok key r (List.mem_cons_of_mem _ hr)) hs.2 key r hm

end

theorem canonicalJson_ok {v : JsValue N} {text : JsString} (h : canonicalJson F v = .ok text) :
    ∃ u, normalize v = .ok u ∧ stringify F u = text := by
  rw [canonicalJson_eq_stringify] at h
  cases hv : normalize v with
  | error e =>
    rw [hv] at h
    cases h
  | ok u =>
    rw [hv] at h
    exact ⟨u, rfl, Except.ok.inj h⟩

theorem canonicalJson_eq_iff {v w : JsValue N} (hv : v.KeysOnce) (hw : w.KeysOnce)
    {text : JsString} (h : canonicalJson F v = .ok text) :
    canonicalJson F w = .ok text ↔ Same v w := by
  obtain ⟨u, hu, htext⟩ := canonicalJson_ok F h
  constructor
  · intro h'
    obtain ⟨u', hu', htext'⟩ := canonicalJson_ok F h'
    have hp := parse_stringify F u (keysOnce_normalize v hv hu)
    have hp' := parse_stringify F u' (keysOnce_normalize w hw hu')
    rw [htext] at hp
    rw [htext', hp] at hp'
    cases hp'
    exact same_of_normalize v hw hu hu'
  · intro hs
    rw [canonicalJson_eq_stringify, normalize_of_same v hv hw hu hs]
    exact congrArg Except.ok htext

/-! ## Building and reading -/

mutual

theorem Same.refl (v : JsValue N) : Same v v := by
  cases v with
  | undefined | null | bool | num | nonFinite | str | other => rfl
  | arr items => exact ⟨items, rfl, SameItems.refl items⟩
  | obj members =>
    exact ⟨members, rfl, Within.refl members members (fun _ h => h), fun key value hm hd =>
      ⟨value, hm, hd⟩⟩

theorem SameItems.refl (items : List (JsValue N)) : SameItems items items := by
  cases items with
  | nil => rfl
  | cons item items => exact ⟨item, items, rfl, SameItems.refl items, .inl (Same.refl item)⟩

theorem Within.refl (members members' : List (JsString × JsValue N))
    (h : ∀ m ∈ members, m ∈ members') : Within members members' := by
  cases members with
  | nil => trivial
  | cons m members =>
    rcases m with ⟨key, value⟩
    exact ⟨fun _ => ⟨value, h _ List.mem_cons_self, Same.refl value⟩,
      Within.refl members members' fun m hm => h m (List.mem_cons_of_mem _ hm)⟩

end

theorem same_obj_of_mem {members members' : List (JsString × JsValue N)}
    (h : ∀ m, m ∈ members ↔ m ∈ members') : Same (.obj members) (.obj members') :=
  ⟨members', rfl, Within.refl members members' fun m hm => (h m).mp hm,
    fun key value hm hd => ⟨value, (h (key, value)).mpr hm, hd⟩⟩

theorem same_obj_of_forall₂ {members members' : List (JsString × JsValue N)}
    (h : List.Forall₂ (fun m m' => m.1 = m'.1 ∧ Same m.2 m'.2) members members') :
    Same (.obj members) (.obj members') := by
  refine ⟨members', rfl, within_iff.mpr fun key value hm _ => ?_, fun key value' hm hd => ?_⟩
  · induction h with
    | nil => cases hm
    | @cons m m' _ _ hhead _ ih =>
      rcases m' with ⟨key', value'⟩
      rcases List.mem_cons.mp hm with rfl | hm
      · obtain ⟨rfl, hsame⟩ := hhead
        exact ⟨value', List.mem_cons_self, hsame⟩
      · obtain ⟨value', hm, hsame⟩ := ih hm
        exact ⟨value', List.mem_cons_of_mem _ hm, hsame⟩
  · induction h with
    | nil => cases hm
    | @cons m m' _ _ hhead _ ih =>
      rcases m with ⟨key', value⟩
      rcases List.mem_cons.mp hm with rfl | hm
      · obtain ⟨rfl, hsame⟩ := hhead
        exact ⟨value, List.mem_cons_self, mt hsame.undefined_iff.mp hd⟩
      · obtain ⟨value, hm, hd⟩ := ih hm
        exact ⟨value, List.mem_cons_of_mem _ hm, hd⟩

theorem sameItems_of_forall₂ {items items' : List (JsValue N)} (h : List.Forall₂ Same items items') :
    SameItems items items' := by
  induction h with
  | nil => rfl
  | cons hhead _ ih => exact ⟨_, _, rfl, ih, .inl hhead⟩

theorem SameItems.forall₂ {items items' : List (JsValue N)} (h : SameItems items items')
    (hd : ∀ item ∈ items, item ≠ .undefined ∧ item ≠ .null) : List.Forall₂ Same items items' := by
  induction items generalizing items' with
  | nil =>
    cases h
    exact .nil
  | cons item items ih =>
    obtain ⟨item', items', rfl, h, hitem⟩ := h
    refine .cons ?_ (ih h fun item hm => hd item (List.mem_cons_of_mem _ hm))
    obtain ⟨hdef, hnull⟩ := hd item List.mem_cons_self
    rcases hitem with hitem | ⟨hu, _⟩ | ⟨hn, _⟩
    · exact hitem
    · exact absurd hu hdef
    · exact absurd hn hnull

/-- `value[key]`. -/
def JsValue.field (key : JsString) : JsValue N → JsValue N
  | .obj members => (OrderedMap.get? key members).getD .undefined
  | _ => .undefined

theorem field_of_mem {members : List (JsString × JsValue N)} (h : OrderedMap.UniqueKeys members)
    {key : JsString} {value : JsValue N} (hm : (key, value) ∈ members) :
    (JsValue.obj members).field key = value := by
  rw [JsValue.field, OrderedMap.get?_of_mem h hm]
  rfl

theorem field_cases (members : List (JsString × JsValue N)) (key : JsString) :
    (key, (JsValue.obj members).field key) ∈ members ∨
      (JsValue.obj members).field key = .undefined := by
  rw [JsValue.field]
  cases h : OrderedMap.get? key members with
  | none => exact .inr rfl
  | some value => exact .inl (OrderedMap.mem_of_get? h)

theorem keysOnce_field {v : JsValue N} (hv : v.KeysOnce) (key : JsString) :
    (v.field key).KeysOnce := by
  cases v with
  | obj members =>
    rcases field_cases members key with hm | hu
    · exact membersOnce_iff.mp hv.2 key _ hm
    · rw [hu]
      trivial
  | _ => trivial

/-- A property of the same value is the same. -/
theorem Same.field {v w : JsValue N} (h : Same v w) (hv : v.KeysOnce) (hw : w.KeysOnce)
    (key : JsString) : Same (v.field key) (w.field key) := by
  cases v with
  | undefined | null | bool | num | nonFinite | str | other =>
    cases h
    exact rfl
  | arr items =>
    obtain ⟨items', rfl, _⟩ := h
    exact rfl
  | obj members =>
    obtain ⟨members', rfl, hwithin, hback⟩ := h
    by_cases hu : (JsValue.obj members).field key = .undefined
    · rw [hu]
      rcases field_cases members' key with hm' | hu'
      · by_contra hne
        obtain ⟨value, hm, hd⟩ := hback key _ hm' hne
        exact hd ((field_of_mem hv.1 hm).symm.trans hu)
      · exact hu'
    · have hm := (field_cases members key).resolve_right hu
      obtain ⟨value', hm', hsame⟩ := within_iff.mp hwithin key _ hm hu
      rwa [field_of_mem hw.1 hm']

end InvisibleString.Compiler
