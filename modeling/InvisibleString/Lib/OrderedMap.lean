import Mathlib.Data.List.Nodup
import Mathlib.Data.List.Induction

/- # `OrderedMap` — a map that lists its entries in the order of their first insertion

Entries as a list of pairs.  `set` replaces the value of a key in place, or puts a new key
last.
-/

namespace OrderedMap

variable {K V : Type} [DecidableEq K]

def set (k : K) (v : V) : List (K × V) → List (K × V)
  | [] => [(k, v)]
  | (k', v') :: rest => if k' = k then (k, v) :: rest else (k', v') :: set k v rest

def get? (k : K) (entries : List (K × V)) : Option V :=
  (entries.find? fun e => e.1 == k).map Prod.snd

def erase (k : K) (entries : List (K × V)) : List (K × V) := entries.filter fun e => e.1 ≠ k

/-- No key stands twice. -/
def UniqueKeys (entries : List (K × V)) : Prop := (entries.map Prod.fst).Nodup

variable {k k' : K} {v v' : V} {entries : List (K × V)}

instance : Decidable (UniqueKeys entries) := inferInstanceAs (Decidable (List.Nodup _))

theorem keys_set : (set k v entries).map Prod.fst =
    if k ∈ entries.map Prod.fst then entries.map Prod.fst else entries.map Prod.fst ++ [k] := by
  induction entries with
  | nil => simp [set]
  | cons e rest ih =>
    rcases e with ⟨k', v'⟩
    by_cases h : k' = k
    · subst h
      simp [set]
    · have h' : ¬ k = k' := fun hk => h hk.symm
      rw [set, if_neg h, List.map_cons, ih, List.map_cons]
      by_cases hk : k ∈ rest.map Prod.fst
      · rw [if_pos hk, if_pos (List.mem_cons_of_mem _ hk)]
      · rw [if_neg hk, if_neg (by simp only [List.mem_cons, not_or]; exact ⟨h', hk⟩)]
        rfl

theorem set_of_not_mem (h : k ∉ entries.map Prod.fst) : set k v entries = entries ++ [(k, v)] := by
  induction entries with
  | nil => rfl
  | cons e rest ih =>
    rw [List.map_cons, List.mem_cons, not_or] at h
    rw [set, if_neg (Ne.symm h.1), ih h.2]
    rfl

omit [DecidableEq K] in
theorem UniqueKeys.not_mem_of_append {rest : List (K × V)}
    (h : UniqueKeys (entries ++ (k, v) :: rest)) : k ∉ entries.map Prod.fst := by
  unfold UniqueKeys at h
  rw [List.map_append, List.nodup_append] at h
  exact fun hk => h.2.2 k hk k (by simp) rfl

theorem UniqueKeys.set (h : UniqueKeys entries) : UniqueKeys (set k v entries) := by
  unfold UniqueKeys
  rw [keys_set]
  split
  · exact h
  · rename_i hk
    rw [List.nodup_append]
    refine ⟨h, List.nodup_singleton _, ?_⟩
    intro a ha b hb hab
    rw [List.mem_singleton.mp hb] at hab
    exact hk (hab ▸ ha)

omit [DecidableEq K] in
theorem UniqueKeys.filter (h : UniqueKeys entries) (p : K × V → Bool) :
    UniqueKeys (entries.filter p) :=
  h.sublist (List.filter_sublist.map _)

theorem mem_set (h : UniqueKeys entries) :
    (k', v') ∈ set k v entries ↔ if k' = k then v' = v else (k', v') ∈ entries := by
  induction entries with
  | nil =>
    by_cases hk : k' = k
    · simp [set, hk]
    · simp [set, hk]
  | cons e rest ih =>
    rcases e with ⟨k₀, v₀⟩
    obtain ⟨hnot, hrest⟩ := List.nodup_cons.mp h
    have hfresh : ∀ v₁, (k₀, v₁) ∉ rest := by
      intro v₁ hmem
      exact hnot (List.mem_map.mpr ⟨_, hmem, rfl⟩)
    rw [OrderedMap.set]
    by_cases hk₀ : k₀ = k
    · subst hk₀
      rw [if_pos rfl, List.mem_cons]
      by_cases hk : k' = k₀
      · subst hk
        rw [if_pos rfl]
        constructor
        · rintro (heq | hmem)
          · exact (Prod.mk.inj heq).2
          · exact absurd hmem (hfresh _)
        · rintro rfl
          exact Or.inl rfl
      · rw [if_neg hk, List.mem_cons]
        simp [hk]
    · rw [if_neg hk₀, List.mem_cons, ih hrest]
      by_cases hk : k' = k
      · subst hk
        simp [Ne.symm hk₀]
      · simp [hk]

theorem eq_or_mem_of_mem_set {e : K × V} (h : e ∈ set k v entries) : e = (k, v) ∨ e ∈ entries := by
  induction entries with
  | nil => exact .inl (List.mem_singleton.mp h)
  | cons e' rest ih =>
    rw [set] at h
    split at h
    · exact (List.mem_cons.mp h).imp id (List.mem_cons_of_mem _)
    · rcases List.mem_cons.mp h with rfl | h
      · exact .inr List.mem_cons_self
      · exact (ih h).imp id (List.mem_cons_of_mem _)

theorem get?_cons {e : K × V} :
    get? k (e :: entries) = if e.1 = k then some e.2 else get? k entries := by
  rw [get?, List.find?_cons]
  by_cases he : e.1 = k
  · rw [beq_iff_eq.mpr he, if_pos he]
    rfl
  · rw [beq_eq_false_iff_ne.mpr he, if_neg he]
    rfl

theorem get?_set : get? k' (set k v entries) = if k' = k then some v else get? k' entries := by
  induction entries with
  | nil =>
    rw [set, get?_cons]
    simp only [eq_comm]
  | cons e rest ih =>
    rcases e with ⟨k₀, v₀⟩
    rw [set]
    by_cases hk : k₀ = k
    · subst hk
      rw [if_pos rfl, get?_cons, get?_cons]
      by_cases hk' : k₀ = k'
      · rw [if_pos hk', if_pos hk'.symm]
      · rw [if_neg hk', if_neg (Ne.symm hk'), if_neg hk']
    · rw [if_neg hk, get?_cons, get?_cons, ih]
      by_cases hk' : k' = k
      · subst hk'
        rw [if_neg hk, if_pos rfl, if_pos rfl]
      · rw [if_neg hk', if_neg hk']

theorem mem_of_get? (h : get? k entries = some v) : (k, v) ∈ entries := by
  induction entries with
  | nil => cases h
  | cons e rest ih =>
    rw [get?_cons] at h
    by_cases hk : e.1 = k
    · rw [if_pos hk] at h
      cases h
      exact List.mem_cons.mpr (.inl (by rw [← hk]))
    · rw [if_neg hk] at h
      exact List.mem_cons_of_mem _ (ih h)

theorem get?_eq_none : get? k entries = none ↔ k ∉ entries.map Prod.fst := by
  induction entries with
  | nil => simp [get?]
  | cons e rest ih =>
    rw [get?_cons, List.map_cons, List.mem_cons, not_or, ← ih]
    by_cases he : e.1 = k
    · rw [if_pos he]
      simp [he]
    · rw [if_neg he]
      simp [Ne.symm he]

theorem get?_erase :
    get? k' (erase k entries) = if k' = k then none else get? k' entries := by
  induction entries with
  | nil => rw [erase, List.filter_nil, get?, List.find?_nil, Option.map_none, ite_self]
  | cons e entries ih =>
    rw [erase] at ih
    rw [erase, List.filter_cons, get?_cons]
    by_cases he : e.1 = k
    · rw [if_neg (by rw [decide_eq_true_eq]; exact fun h => h he), ih]
      by_cases hk : k' = k
      · rw [if_pos hk, if_pos hk]
      · rw [if_neg hk, if_neg hk, if_neg fun h => hk (h.symm.trans he)]
    · rw [if_pos (decide_eq_true he), get?_cons, ih]
      by_cases hk : k' = k
      · rw [if_pos hk, if_pos hk, if_neg fun h => he (h.trans hk)]
      · rw [if_neg hk, if_neg hk]

theorem get?_append {rest : List (K × V)} :
    get? k (entries ++ rest) = (get? k entries).or (get? k rest) := by
  induction entries with
  | nil => rfl
  | cons e entries ih =>
    rw [List.cons_append, get?_cons, get?_cons, ih]
    by_cases he : e.1 = k
    · rw [if_pos he, if_pos he]
      rfl
    · rw [if_neg he, if_neg he]

/-- The last entry of a key. -/
theorem get?_reverse_eq_some : get? k entries.reverse = some v ↔
    ∃ before after, entries = before ++ (k, v) :: after ∧ ∀ e ∈ after, e.1 ≠ k := by
  constructor
  · induction entries using List.reverseRecOn with
    | nil => exact fun h => by cases h
    | append_singleton entries e ih =>
      intro h
      rw [List.reverse_append] at h
      change get? k (e :: entries.reverse) = some v at h
      rw [get?_cons] at h
      by_cases he : e.1 = k
      · rw [if_pos he] at h
        cases h
        exact ⟨entries, [], by rw [← he], fun _ hm => absurd hm List.not_mem_nil⟩
      · rw [if_neg he] at h
        obtain ⟨before, after, rfl, hafter⟩ := ih h
        refine ⟨before, after ++ [e], by rw [List.append_assoc]; rfl, fun e' hm => ?_⟩
        rcases List.mem_append.mp hm with hm | hm
        · exact hafter e' hm
        · exact (List.mem_singleton.mp hm) ▸ he
  · rintro ⟨before, after, rfl, hafter⟩
    have hnone : get? k after.reverse = none := by
      rw [get?_eq_none, List.map_reverse, List.mem_reverse]
      intro hm
      obtain ⟨e, he, hk⟩ := List.mem_map.mp hm
      exact hafter e he hk
    rw [List.reverse_append, List.reverse_cons, get?_append, get?_append, hnone, get?_cons,
      if_pos rfl]
    rfl

theorem get?_reverse_flatMap {A : Type*} {l : List A} {f : A → List (K × V)}
    (h : get? k (l.flatMap f).reverse = some v) : ∃ a ∈ l, get? k (f a).reverse = some v := by
  induction l with
  | nil => cases h
  | cons a l ih =>
    rw [List.flatMap_cons, List.reverse_append, get?_append] at h
    cases hl : get? k (l.flatMap f).reverse with
    | none =>
      rw [hl] at h
      exact ⟨a, List.mem_cons_self, h⟩
    | some v' =>
      rw [hl] at h
      cases h
      obtain ⟨b, hb, hv⟩ := ih hl
      exact ⟨b, List.mem_cons_of_mem _ hb, hv⟩

/-- Write a list of entries, one after the other. -/
def setAll (news : List (K × V)) (entries : List (K × V)) : List (K × V) :=
  news.foldl (fun entries e => set e.1 e.2 entries) entries

theorem setAll_append (news news' : List (K × V)) :
    setAll (news ++ news') entries = setAll news' (setAll news entries) :=
  List.foldl_append

/-- The last write of a key counts. -/
theorem get?_setAll {news : List (K × V)} :
    get? k (setAll news entries) = (get? k news.reverse).or (get? k entries) := by
  induction news using List.reverseRecOn with
  | nil => rfl
  | append_singleton news e ih =>
    rw [setAll_append, List.reverse_append]
    show get? k (set e.1 e.2 (setAll news entries)) = (get? k (e :: news.reverse)).or _
    rw [get?_set, get?_cons, ih]
    by_cases hk : k = e.1
    · rw [if_pos hk, if_pos hk.symm]
      rfl
    · rw [if_neg hk, if_neg (Ne.symm hk)]

theorem get?_of_mem (h : UniqueKeys entries) (hm : (k, v) ∈ entries) : get? k entries = some v := by
  induction entries with
  | nil => exact absurd hm List.not_mem_nil
  | cons e rest ih =>
    obtain ⟨hnot, hrest⟩ := List.nodup_cons.mp h
    rw [get?_cons]
    rcases List.mem_cons.mp hm with rfl | hm
    · exact if_pos rfl
    · rw [if_neg, ih hrest hm]
      rintro rfl
      exact hnot (List.mem_map.mpr ⟨_, hm, rfl⟩)

theorem get?_setAll_of_mem {news : List (K × V)} (h : UniqueKeys news) (hm : (k, v) ∈ news) :
    get? k (setAll news entries) = some v := by
  have hrev : UniqueKeys news.reverse := by
    unfold UniqueKeys
    rw [List.map_reverse, List.nodup_reverse]
    exact h
  rw [get?_setAll, get?_of_mem hrev (List.mem_reverse.mpr hm)]
  rfl

theorem setAll_nil_of_unique {news : List (K × V)} (h : UniqueKeys news) :
    setAll news [] = news := by
  induction news using List.reverseRecOn with
  | nil => rfl
  | append_singleton news e ih =>
    have hnot : e.1 ∉ news.map Prod.fst := by
      have h' : UniqueKeys (news ++ (e.1, e.2) :: []) := h
      exact h'.not_mem_of_append
    unfold UniqueKeys at h
    rw [List.map_append, List.nodup_append] at h
    rw [setAll_append, ih h.1]
    exact set_of_not_mem hnot

/-! ## Entries in any order -/

theorem UniqueKeys.erase (h : UniqueKeys entries) : UniqueKeys (erase k entries) := h.filter _

theorem set_of_none (h : get? k entries = none) : set k v entries = entries ++ [(k, v)] :=
  set_of_not_mem (get?_eq_none.mp h)

theorem map_set {W : Type} {f : V → W} (hget : get? k entries = some v) (hf : f v' = f v) :
    (set k v' entries).map (fun e => (e.1, f e.2)) = entries.map fun e => (e.1, f e.2) := by
  induction entries with
  | nil => cases hget
  | cons e rest ih =>
    rcases e with ⟨k₀, v₀⟩
    rw [get?_cons] at hget
    rw [set]
    split
    · next heq =>
      rw [if_pos heq] at hget
      cases hget
      rw [List.map_cons, List.map_cons, hf, heq]
    · next hne =>
      rw [if_neg hne] at hget
      rw [List.map_cons, List.map_cons, ih hget]

theorem get?_map {W : Type} (f : V → W) :
    get? k (entries.map fun e => (e.1, f e.2)) = (get? k entries).map f := by
  induction entries with
  | nil => rfl
  | cons e rest ih =>
    rw [List.map_cons, get?_cons, get?_cons, ih]
    split
    · rfl
    · rfl

theorem get?_filter (p : K → Bool) :
    get? k (entries.filter fun e => p e.1) = if p k then get? k entries else none := by
  induction entries with
  | nil =>
    rw [List.filter_nil]
    split
    · rfl
    · rfl
  | cons e rest ih =>
    rw [List.filter_cons, get?_cons]
    by_cases he : e.1 = k
    · subst he
      rw [if_pos rfl]
      split
      · rw [get?_cons, if_pos rfl]
      · next h =>
        rw [ih, if_neg h]
    · rw [if_neg he, ← ih]
      split
      · rw [get?_cons, if_neg he]
      · rfl

theorem erase_of_not_mem (h : k ∉ entries.map Prod.fst) : erase k entries = entries := by
  refine List.filter_eq_self.mpr fun e he => decide_eq_true ?_
  rintro rfl
  exact h (List.mem_map_of_mem he)

theorem perm_erase (h : UniqueKeys entries) (hget : get? k entries = some v) :
    entries.Perm ((k, v) :: erase k entries) := by
  induction entries with
  | nil => cases hget
  | cons e rest ih =>
    obtain ⟨hnot, hrest⟩ := List.nodup_cons.mp h
    rw [get?_cons] at hget
    by_cases he : e.1 = k
    · rw [if_pos he] at hget
      cases hget
      have hrest' : erase k (e :: rest) = rest := by
        rw [erase, List.filter_cons, if_neg (by rw [decide_eq_true_eq]; exact fun h => h he)]
        exact erase_of_not_mem (he ▸ hnot)
      rw [hrest', ← he]
    · rw [if_neg he] at hget
      rw [erase, List.filter_cons, if_pos (decide_eq_true he)]
      exact ((ih hrest hget).cons e).trans (.swap _ _ _)

theorem erase_set : erase k (set k v entries) = erase k entries := by
  induction entries with
  | nil =>
    rw [set, erase, List.filter_cons, if_neg (by rw [decide_eq_true_eq]; exact fun h => h rfl)]
    rfl
  | cons e rest ih =>
    rcases e with ⟨k₀, v₀⟩
    rw [set]
    by_cases hk : k₀ = k
    · subst hk
      rw [if_pos rfl, erase, erase, List.filter_cons, List.filter_cons]
      rw [if_neg (by rw [decide_eq_true_eq]; exact fun h => h rfl),
        if_neg (by rw [decide_eq_true_eq]; exact fun h => h rfl)]
    · rw [if_neg hk, erase, erase, List.filter_cons, List.filter_cons, if_pos (decide_eq_true hk),
        if_pos (decide_eq_true hk)]
      exact congrArg _ ih

theorem perm_set (h : UniqueKeys entries) : (set k v entries).Perm ((k, v) :: erase k entries) := by
  have hget : get? k (set k v entries) = some v := by
    rw [get?_set, if_pos rfl]
  have hperm := perm_erase h.set hget
  rwa [erase_set] at hperm

end OrderedMap
