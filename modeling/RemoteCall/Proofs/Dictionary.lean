import Mathlib.Data.List.Dedup
import Mathlib.Data.List.Induction
import Mathlib.Data.List.Perm.Basic
import RemoteCall.Dictionary

/-!
# Dictionaries by their values

A dictionary is known by the values under its keys. One that is made of pairs has as many keys as there are different
ones among the pairs, and all pairs if none of their keys is given twice.

* `eq_of_lookup`: a dictionary is known by the values under its keys.
* `mem_iff_lookup`: what stands in a dictionary is what is found there.
* `perm_ofPairs`, `length_ofPairs`: what is left of pairs.
-/

namespace RemoteCall.Dictionary

variable {α : Type} {d d' : Dictionary α} {key : String} {value : α} {pairs : List (String × α)}

/-! ## What is found -/

/-- The value under a key of pairs in any order is the last one that stands under it. -/
theorem lookup_ofPairs (pairs : List (String × α)) (key : String) :
    (ofPairs pairs).lookup key = pairs.reverse.lookup key := by
  induction pairs using List.reverseRecOn with
  | nil => rfl
  | append_singleton pairs p ih =>
    obtain ⟨k, v⟩ := p
    rw [ofPairs_concat, lookup_insert, ih, List.reverse_append, List.reverse_singleton, List.singleton_append,
      List.lookup_cons]
    by_cases h : key = k
    · simp [h]
    · have hb : (key == k) = false := by simpa using h
      rw [if_neg h, hb]

theorem mem_of_lookup (h : d.lookup key = some value) : (key, value) ∈ d := by
  obtain ⟨first, rest, rfl, -⟩ := List.lookup_eq_some_iff.mp h
  exact List.mem_append_right _ List.mem_cons_self

/-- Below its first key a dictionary holds nothing. -/
theorem lookup_of_lt (h : ∀ e ∈ d, key < e.1) : d.lookup key = none := by
  refine List.lookup_eq_none_iff.mpr fun e he => ?_
  have hne : key ≠ e.1 := fun heq => String.lt_irrefl e.1 (heq ▸ h e he)
  simpa using hne

/-- Two dictionaries with the same values under all keys are the same. -/
theorem eq_of_lookup (hd : d.Sorted) (hd' : d'.Sorted) (h : ∀ key, d.lookup key = d'.lookup key) : d = d' := by
  induction d generalizing d' with
  | nil =>
    cases d' with
    | nil => rfl
    | cons e rest =>
      have hfirst := h e.1
      rw [List.lookup_nil, List.lookup_cons_self] at hfirst
      cases hfirst
  | cons e rest ih =>
    cases d' with
    | nil =>
      have hfirst := h e.1
      rw [List.lookup_nil, List.lookup_cons_self] at hfirst
      cases hfirst
    | cons e' rest' =>
      obtain ⟨k, v⟩ := e
      obtain ⟨k', v'⟩ := e'
      obtain ⟨hhead, htail⟩ := List.pairwise_cons.mp hd
      obtain ⟨hhead', htail'⟩ := List.pairwise_cons.mp hd'
      have hk : k = k' := by
        by_contra hne
        have hin : (k, v) ∈ (k', v') :: rest' := mem_of_lookup (by rw [← h k, List.lookup_cons_self])
        have hin' : (k', v') ∈ (k, v) :: rest := mem_of_lookup (by rw [h k', List.lookup_cons_self])
        have hlt : k' < k := hhead' _ ((List.mem_cons.mp hin).resolve_left fun heq => hne (congrArg Prod.fst heq))
        have hlt' : k < k' :=
          hhead _ ((List.mem_cons.mp hin').resolve_left fun heq => hne (congrArg Prod.fst heq).symm)
        exact String.lt_irrefl k (String.lt_trans hlt' hlt)
      subst hk
      have hv : v = v' := by simpa using h k
      subst hv
      refine congrArg ((k, v) :: ·) (ih htail htail' fun key => ?_)
      by_cases hkey : key = k
      · subst hkey
        rw [lookup_of_lt hhead, lookup_of_lt hhead']
      · have hb : (key == k) = false := by simpa using hkey
        simpa only [List.lookup_cons, hb] using h key

/-- In a dictionary whose keys ascend, what stands under a key is what is found there. -/
theorem mem_iff_lookup (hd : d.Sorted) : (key, value) ∈ d ↔ d.lookup key = some value := by
  refine ⟨fun h => ?_, mem_of_lookup⟩
  induction d with
  | nil => cases h
  | cons e rest ih =>
    obtain ⟨hhead, htail⟩ := List.pairwise_cons.mp hd
    rcases List.mem_cons.mp h with rfl | h
    · exact List.lookup_cons_self
    · have hne : key ≠ e.1 := fun heq => String.lt_irrefl key (by simpa [heq] using hhead _ h)
      have hb : (key == e.1) = false := by simpa using hne
      rw [List.lookup_cons, hb]
      exact ih htail h

theorem mem_insert_iff (hd : d.Sorted) {other : String} {value' : α} :
    (other, value') ∈ insert key value d ↔ if other = key then value' = value else (other, value') ∈ d := by
  rw [mem_iff_lookup (sorted_insert hd key value), lookup_insert]
  split
  · rw [Option.some.injEq, eq_comm]
  · rw [mem_iff_lookup hd]

theorem nodup_keys (hd : d.Sorted) : (d.map Prod.fst).Nodup := by
  refine List.pairwise_map.mpr (hd.imp fun h heq => ?_)
  rw [heq] at h
  exact String.lt_irrefl _ h

/-! ## What is left of pairs -/

/-- What is put under a new key stands beside all that was there. -/
theorem perm_insert (h : key ∉ d.map Prod.fst) (value : α) : (insert key value d).Perm ((key, value) :: d) := by
  induction d with
  | nil => exact .refl _
  | cons e rest ih =>
    obtain ⟨k, v⟩ := e
    rw [List.map_cons, List.mem_cons, not_or] at h
    obtain ⟨hne, hrest⟩ := h
    unfold insert
    rw [if_neg hne]
    split
    · exact .refl _
    · exact ((ih hrest).cons _).trans (.swap _ _ _)

/-- A dictionary made of pairs with different keys has all of them. -/
theorem perm_ofPairs (h : (pairs.map Prod.fst).Nodup) : (ofPairs pairs).Perm pairs := by
  induction pairs using List.reverseRecOn with
  | nil => exact .refl _
  | append_singleton pairs p ih =>
    rw [List.map_append, List.map_singleton, List.nodup_append] at h
    obtain ⟨hpairs, -, hne⟩ := h
    have hnew : p.1 ∉ (ofPairs pairs).map Prod.fst := by
      intro hin
      obtain ⟨e, he, heq⟩ := List.mem_map.mp hin
      exact hne e.1 (List.mem_map_of_mem (mem_of_mem_ofPairs he)) p.1 List.mem_cons_self heq
    rw [ofPairs_concat]
    exact (perm_insert hnew p.2).trans (((ih hpairs).cons p).trans (List.perm_append_singleton p pairs).symm)

theorem not_mem_keys_iff : key ∉ d.map Prod.fst ↔ d.lookup key = none := by
  rw [List.lookup_eq_none_iff, List.mem_map, not_exists]
  simp only [not_and, bne_iff_ne, ne_comm, ne_eq]

theorem mem_keys_ofPairs : key ∈ (ofPairs pairs).map Prod.fst ↔ key ∈ pairs.map Prod.fst := by
  rw [← not_iff_not, not_mem_keys_iff, lookup_ofPairs, ← not_mem_keys_iff, List.map_reverse, List.mem_reverse]

/-- A dictionary made of pairs has each of their keys once. -/
theorem length_ofPairs (pairs : List (String × α)) :
    (ofPairs pairs).length = (pairs.map Prod.fst).dedup.length := by
  have hperm : ((ofPairs pairs).map Prod.fst).Perm (pairs.map Prod.fst).dedup := by
    refine (List.perm_ext_iff_of_nodup (nodup_keys (sorted_ofPairs pairs)) (List.nodup_dedup _)).mpr fun key => ?_
    rw [mem_keys_ofPairs, List.mem_dedup]
  simpa using hperm.length_eq

end RemoteCall.Dictionary
