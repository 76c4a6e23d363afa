/-!
# Dictionaries

Values under texts, one for each text, in ascending order of their keys by code points. Main
statements: `lookup_insert`, a key that was put has the value that was put last, and others keep theirs;
`sorted_ofPairs`, the keys of a dictionary made of pairs are in ascending order.
-/

namespace RemoteCall

/-- Values under keys, in ascending order of the keys. -/
abbrev Dictionary (α : Type) := List (String × α)

namespace Dictionary

variable {α : Type}

/-- Puts a value at the place of its key, over the value that the key had. -/
def insert (key : String) (value : α) : Dictionary α → Dictionary α
  | [] => [(key, value)]
  | (k, v) :: rest =>
    if key < k then (key, value) :: (k, v) :: rest
    else if key = k then (key, value) :: rest
    else (k, v) :: insert key value rest

/-- The dictionary of pairs in any order; the last of equal keys counts. -/
def ofPairs (pairs : List (String × α)) : Dictionary α :=
  pairs.foldl (fun d p => insert p.1 p.2 d) []

/-- The keys that satisfy a condition with their values. -/
def keep (p : α → Bool) (d : Dictionary α) : Dictionary α := d.filter fun e => p e.2

/-- All keys that stand in ascending order. -/
def Sorted (d : Dictionary α) : Prop := d.Pairwise fun a b => a.1 < b.1

@[simp] theorem ofPairs_nil : ofPairs ([] : List (String × α)) = [] := rfl

theorem ofPairs_concat (pairs : List (String × α)) (p : String × α) :
    ofPairs (pairs ++ [p]) = insert p.1 p.2 (ofPairs pairs) := by
  simp [ofPairs, List.foldl_append]

theorem lookup_insert_self (key : String) (value : α) (d : Dictionary α) :
    (insert key value d).lookup key = some value := by
  induction d with
  | nil => simp [insert]
  | cons e rest ih =>
    obtain ⟨k, v⟩ := e
    unfold insert
    split
    · simp
    · split
      · simp
      · rename_i hne
        have hk : (key == k) = false := by simpa using hne
        rw [List.lookup_cons, hk]
        exact ih

theorem lookup_insert_of_ne {key other : String} (h : other ≠ key) (value : α) (d : Dictionary α) :
    (insert key value d).lookup other = d.lookup other := by
  have hb : (other == key) = false := by simpa using h
  induction d with
  | nil => simp [insert, List.lookup_cons, hb]
  | cons e rest ih =>
    obtain ⟨k, v⟩ := e
    unfold insert
    split
    · simp [List.lookup_cons, hb]
    · split
      · rename_i heq
        subst heq
        simp [List.lookup_cons, hb]
      · simp [List.lookup_cons, ih]

/-- The value under a key after another was put. -/
theorem lookup_insert (key other : String) (value : α) (d : Dictionary α) :
    (insert key value d).lookup other = if other = key then some value else d.lookup other := by
  by_cases h : other = key
  · subst h
    rw [if_pos rfl, lookup_insert_self]
  · rw [if_neg h, lookup_insert_of_ne h]

/-! ### The order of the keys -/

theorem mem_insert {key : String} {value : α} {d : Dictionary α} {e : String × α}
    (h : e ∈ insert key value d) : e = (key, value) ∨ e ∈ d := by
  induction d with
  | nil => simpa [insert] using h
  | cons f rest ih =>
    obtain ⟨k, v⟩ := f
    unfold insert at h
    split at h
    · exact List.mem_cons.mp h
    · split at h
      · rcases List.mem_cons.mp h with rfl | h
        · exact .inl rfl
        · exact .inr (List.mem_cons_of_mem _ h)
      · rcases List.mem_cons.mp h with rfl | h
        · exact .inr List.mem_cons_self
        · exact (ih h).imp id (List.mem_cons_of_mem _)

theorem sorted_insert {d : Dictionary α} (hd : d.Sorted) (key : String) (value : α) :
    (insert key value d).Sorted := by
  induction d with
  | nil => exact List.pairwise_singleton _ _
  | cons e rest ih =>
    obtain ⟨k, v⟩ := e
    obtain ⟨hhead, htail⟩ := List.pairwise_cons.mp hd
    unfold insert
    split
    · rename_i hlt
      refine List.pairwise_cons.mpr ⟨fun f hf => ?_, hd⟩
      rcases List.mem_cons.mp hf with rfl | hf
      · exact hlt
      · exact String.lt_trans hlt (hhead f hf)
    · split
      · rename_i heq
        subst heq
        exact List.pairwise_cons.mpr ⟨hhead, htail⟩
      · rename_i hle hne
        refine List.pairwise_cons.mpr ⟨fun f hf => ?_, ih htail⟩
        rcases mem_insert hf with rfl | hf
        · exact Decidable.byContradiction fun hn =>
            hne (String.le_antisymm (String.not_lt.mp hn) (String.not_lt.mp hle))
        · exact hhead f hf

/-- The keys of a dictionary made of pairs are in ascending order. -/
theorem sorted_ofPairs (pairs : List (String × α)) : (ofPairs pairs).Sorted := by
  have keeps (d : Dictionary α) (hd : d.Sorted) :
      (pairs.foldl (fun d p => insert p.1 p.2 d) d).Sorted := by
    induction pairs generalizing d with
    | nil => exact hd
    | cons p pairs ih => exact ih _ (sorted_insert hd p.1 p.2)
  exact keeps [] List.Pairwise.nil

theorem mem_of_mem_ofPairs {pairs : List (String × α)} {e : String × α} : e ∈ ofPairs pairs → e ∈ pairs := by
  have keeps (d : Dictionary α) (h : e ∈ pairs.foldl (fun d p => insert p.1 p.2 d) d) : e ∈ d ∨ e ∈ pairs := by
    induction pairs generalizing d with
    | nil => exact .inl h
    | cons p pairs ih =>
      rcases ih _ h with hd | hp
      · rcases mem_insert hd with rfl | hd
        · exact .inr List.mem_cons_self
        · exact .inl hd
      · exact .inr (List.mem_cons_of_mem _ hp)
  exact fun h => (keeps [] h).resolve_left List.not_mem_nil

/-- A key above all others is put at the end. -/
theorem insert_of_gt {key : String} {d : Dictionary α} (h : ∀ e ∈ d, e.1 < key) (value : α) :
    insert key value d = d ++ [(key, value)] := by
  induction d with
  | nil => rfl
  | cons e rest ih =>
    obtain ⟨k, v⟩ := e
    obtain ⟨hk, hrest⟩ := List.forall_mem_cons.mp h
    have hne : key ≠ k := fun heq => String.lt_irrefl k (heq ▸ hk)
    rw [insert, if_neg (String.lt_asymm hk), if_neg hne, ih hrest]
    rfl

/-- The dictionary of pairs that are in ascending order has them as they are. -/
theorem ofPairs_of_sorted {d : Dictionary α} (h : d.Sorted) : ofPairs d = d := by
  have keeps (front back : Dictionary α) (h : (front ++ back).Sorted) :
      back.foldl (fun d p => insert p.1 p.2 d) front = front ++ back := by
    induction back generalizing front with
    | nil => rw [List.append_nil, List.foldl_nil]
    | cons p back ih =>
      have hfront : ∀ e ∈ front, e.1 < p.1 := fun e he => (List.pairwise_append.mp h).2.2 e he p List.mem_cons_self
      rw [List.append_cons] at h
      rw [List.foldl_cons, insert_of_gt hfront, ih _ h, List.append_assoc, List.singleton_append]
  exact keeps [] d h

end Dictionary

end RemoteCall
