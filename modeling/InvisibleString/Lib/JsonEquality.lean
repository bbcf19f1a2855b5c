import InvisibleString.Lib.Json
import Mathlib.Data.List.Nodup
import Mathlib.Data.List.Perm.Subperm

/- # `JsonEquality` — when two JSON values are the same

A JSON value stands for a tree in which an object is a function from names; two values are equal
when they stand for the same tree.  The order in which an object lists its members does not count.

**Proved here.**

    an object's members as a function are its lookups  (`denoteMembers_eq`)
    equality is an equivalence, and blind to the order of members  (`jsonEq_equivalence`,
                                                                        `jsonEq_of_perm`)
    two objects of the same size are equal when every member of the one is equal to the other's
      member of that name  (`jsonEq_obj`)
-/

namespace Json

variable {N : Type}

inductive JsonTree (N : Type) where
  | null
  | bool (b : Bool)
  | num (n : N)
  | str (s : JsString)
  | arr (items : List (JsonTree N))
  | obj (members : JsString → Option (JsonTree N))

mutual

/-- The tree a value stands for. -/
def denote : Value N → JsonTree N
  | .null => .null
  | .bool b => .bool b
  | .num n => .num n
  | .str s => .str s
  | .arr items => .arr (denoteItems items)
  | .obj members => .obj (denoteMembers members)

def denoteItems : List (Value N) → List (JsonTree N)
  | [] => []
  | item :: items => denote item :: denoteItems items

def denoteMembers : List (JsString × Value N) → JsString → Option (JsonTree N)
  | [], _ => none
  | (key, value) :: members, name =>
    if name = key then some (denote value) else denoteMembers members name

end

/-- JSON's structural equality. -/
def JsonEq (v w : Value N) : Prop := denote v = denote w

theorem jsonEq_equivalence : Equivalence (JsonEq (N := N)) :=
  ⟨fun _ => rfl, Eq.symm, Eq.trans⟩

theorem denoteItems_eq (items : List (Value N)) : denoteItems items = items.map denote := by
  induction items with
  | nil => rfl
  | cons item items ih => rw [denoteItems, ih, List.map_cons]

theorem denoteMembers_eq (members : List (JsString × Value N)) (name : JsString) :
    denoteMembers members name = (OrderedMap.get? name members).map denote := by
  induction members with
  | nil => rfl
  | cons member members ih =>
    obtain ⟨key, value⟩ := member
    rw [denoteMembers, ih, OrderedMap.get?_cons]
    by_cases hname : name = key
    · rw [if_pos hname, if_pos hname.symm]
      rfl
    · rw [if_neg hname, if_neg fun h => hname h.symm]

theorem keysOnce_of_mem_items {items : List (Value N)} (h : KeysOnceItems items)
    {item : Value N} (hmem : item ∈ items) : item.KeysOnce := by
  induction items with
  | nil => cases hmem
  | cons item' items ih =>
    rcases List.mem_cons.mp hmem with rfl | hmem
    · exact h.1
    · exact ih h.2 hmem

theorem keysOnce_of_mem_members {members : List (JsString × Value N)}
    (h : KeysOnceMembers members) {key : JsString} {value : Value N}
    (hmem : (key, value) ∈ members) : value.KeysOnce := by
  induction members with
  | nil => cases hmem
  | cons member members ih =>
    rcases List.mem_cons.mp hmem with rfl | hmem
    · exact h.1
    · exact ih h.2 hmem

section Objects

variable {members members' : List (JsString × Value N)}

theorem jsonEq_obj_iff : JsonEq (.obj members) (.obj members') ↔
    ∀ name, (OrderedMap.get? name members).map denote =
      (OrderedMap.get? name members').map denote := by
  show JsonTree.obj _ = JsonTree.obj _ ↔ _
  rw [JsonTree.obj.injEq]
  constructor
  · intro h name
    rw [← denoteMembers_eq, ← denoteMembers_eq, h]
  · intro h
    funext name
    rw [denoteMembers_eq, denoteMembers_eq, h]

/-- The order of the members does not count. -/
theorem jsonEq_of_perm (hunique : OrderedMap.UniqueKeys members) (h : members.Perm members') :
    JsonEq (.obj members) (.obj members') := by
  have hunique' : OrderedMap.UniqueKeys members' := (h.map Prod.fst).nodup_iff.mp hunique
  rw [jsonEq_obj_iff]
  intro name
  cases hget : OrderedMap.get? name members with
  | some value =>
    rw [OrderedMap.get?_of_mem hunique' (h.mem_iff.mp (OrderedMap.mem_of_get? hget))]
  | none =>
    have hkey := OrderedMap.get?_eq_none.mp hget
    rw [OrderedMap.get?_eq_none.mpr fun hmem => hkey ((h.map Prod.fst).mem_iff.mpr hmem)]

theorem key_mem_of_jsonEq (h : JsonEq (.obj members) (.obj members')) {key : JsString}
    (hkey : key ∈ members.map Prod.fst) : key ∈ members'.map Prod.fst := by
  by_contra habsent
  have hsame := jsonEq_obj_iff.mp h key
  rw [OrderedMap.get?_eq_none.mpr habsent] at hsame
  exact OrderedMap.get?_eq_none.mp (Option.map_eq_none_iff.mp hsame) hkey

theorem jsonEq_obj (hunique : OrderedMap.UniqueKeys members)
    (hunique' : OrderedMap.UniqueKeys members') :
    JsonEq (.obj members) (.obj members') ↔ members.length = members'.length ∧
      ∀ key value, (key, value) ∈ members →
        ∃ value', OrderedMap.get? key members' = some value' ∧ JsonEq value value' := by
  constructor
  · intro h
    constructor
    · have hle := (hunique.subperm fun key => key_mem_of_jsonEq h).length_le
      have hge := (hunique'.subperm fun key => key_mem_of_jsonEq h.symm).length_le
      rw [List.length_map, List.length_map] at hle hge
      exact Nat.le_antisymm hle hge
    · intro key value hmem
      have hsame := jsonEq_obj_iff.mp h key
      rw [OrderedMap.get?_of_mem hunique hmem] at hsame
      obtain ⟨value', hget, hdenote⟩ := Option.map_eq_some_iff.mp hsame.symm
      exact ⟨value', hget, hdenote.symm⟩
  · rintro ⟨hlength, h⟩
    have hsub : members.map Prod.fst ⊆ members'.map Prod.fst := by
      intro key hkey
      obtain ⟨⟨_, value⟩, hmem, rfl⟩ := List.mem_map.mp hkey
      obtain ⟨value', hget, -⟩ := h _ _ hmem
      exact List.mem_map.mpr ⟨_, OrderedMap.mem_of_get? hget, rfl⟩
    have hperm : (members.map Prod.fst).Perm (members'.map Prod.fst) := by
      refine (hunique.subperm hsub).perm_of_length_le ?_
      rw [List.length_map, List.length_map, hlength]
    rw [jsonEq_obj_iff]
    intro name
    cases hget : OrderedMap.get? name members with
    | some value =>
      obtain ⟨value', hget', heq⟩ := h name value (OrderedMap.mem_of_get? hget)
      rw [hget']
      exact congrArg some heq
    | none =>
      have hkey := OrderedMap.get?_eq_none.mp hget
      rw [OrderedMap.get?_eq_none.mpr fun hmem => hkey (hperm.mem_iff.mpr hmem)]

end Objects

theorem jsonEq_arr {items items' : List (Value N)} :
    JsonEq (.arr items) (.arr items') ↔ List.Forall₂ JsonEq items items' := by
  show JsonTree.arr _ = JsonTree.arr _ ↔ _
  rw [JsonTree.arr.injEq, denoteItems_eq, denoteItems_eq]
  induction items generalizing items' with
  | nil =>
    cases items' with
    | nil => exact iff_of_true rfl .nil
    | cons => exact iff_of_false nofun nofun
  | cons item items ih =>
    cases items' with
    | nil => exact iff_of_false nofun nofun
    | cons item' items' =>
      rw [List.map_cons, List.map_cons, List.cons.injEq, List.forall₂_cons, ih]
      rfl

end Json
