import InvisibleString.Lib.Json
import Mathlib.Data.List.Sort

/- # `SortBy` — sorting by a key in code-unit order

`entries.sort((a, b) => (a.key < b.key ? -1 : 1))`.  Where no key stands twice the outcome does
not depend on the order before.
-/

namespace Json

variable {A B : Type}

def sortBy (key : A → JsString) (l : List A) : List A :=
  l.insertionSort fun a b => key a ≤ key b

variable {key : A → JsString} {l l' : List A}

theorem sortBy_perm (key : A → JsString) (l : List A) : (sortBy key l).Perm l :=
  List.perm_insertionSort _ l

theorem mem_sortBy {a : A} : a ∈ sortBy key l ↔ a ∈ l := (sortBy_perm key l).mem_iff

theorem sortBy_map {key' : B → JsString} {f : A → B} {l : List A}
    (h : ∀ a ∈ l, key' (f a) = key a) : sortBy key' (l.map f) = (sortBy key l).map f := by
  rw [sortBy, sortBy]
  refine (List.map_insertionSort _ _ f l fun a ha b hb => ?_).symm
  rw [h a ha, h b hb]

theorem sortBy_forall₂ {key' : B → JsString} {R : A → B → Prop} {l : List A} {l' : List B}
    (h : List.Forall₂ R l l') (hkey : ∀ a b, R a b → key' b = key a) :
    List.Forall₂ R (sortBy key l) (sortBy key' l') := by
  obtain ⟨pairs, rfl, rfl, hR⟩ : ∃ pairs : List (A × B), pairs.map Prod.fst = l ∧
      pairs.map Prod.snd = l' ∧ ∀ p ∈ pairs, R p.1 p.2 := by
    induction h with
    | nil => exact ⟨[], rfl, rfl, nofun⟩
    | @cons a b _ _ hab _ ih =>
      obtain ⟨pairs, hfst, hsnd, hR⟩ := ih
      exact ⟨(a, b) :: pairs, by rw [List.map_cons, hfst], by rw [List.map_cons, hsnd],
        List.forall_mem_cons.mpr ⟨hab, hR⟩⟩
  have hfst : sortBy key (pairs.map Prod.fst) = (sortBy (fun p => key p.1) pairs).map Prod.fst :=
    sortBy_map fun _ _ => rfl
  have hsnd : sortBy key' (pairs.map Prod.snd) = (sortBy (fun p => key p.1) pairs).map Prod.snd :=
    sortBy_map fun p hp => hkey p.1 p.2 (hR p hp)
  rw [hfst, hsnd, List.forall₂_map_left_iff, List.forall₂_map_right_iff]
  exact List.forall₂_same.mpr fun p hp => hR p (mem_sortBy.mp hp)

theorem pairwise_sortBy (key : A → JsString) (l : List A) :
    (sortBy key l).Pairwise fun a b => key a ≤ key b := by
  have htotal : Std.Total fun a b : A => key a ≤ key b :=
    ⟨fun a b => Std.Total.total (key a) (key b)⟩
  have htrans : IsTrans A fun a b : A => key a ≤ key b := ⟨fun _ _ _ => List.le_trans⟩
  exact List.pairwise_insertionSort _ l

theorem eq_of_key_eq (h : (l.map key).Nodup) {a b : A} (ha : a ∈ l) (hb : b ∈ l)
    (hab : key a = key b) : a = b :=
  List.inj_on_of_nodup_map h ha hb hab

theorem sortBy_eq_of_perm (h : l.Perm l') (hk : (l.map key).Nodup) :
    sortBy key l = sortBy key l' := by
  refine List.Perm.eq_of_pairwise (fun a b ha hb hab hba => ?_) (pairwise_sortBy key l)
    (pairwise_sortBy key l') (((sortBy_perm key l).trans h).trans (sortBy_perm key l').symm)
  exact eq_of_key_eq hk (mem_sortBy.mp ha) (h.mem_iff.mpr (mem_sortBy.mp hb))
    (List.le_antisymm hab hba)

end Json
