import RemoteCall.Json.Reader

/-!
# What stands inside JSON values

Values are exact if no float stands inside them, and they are kept with the fields of each object in ascending order of
their keys. Whatever is read is kept in that way, and is nested no deeper than the reader allows.

* `Within`: what stands inside a value.
* `FloatFree`, `Ordered`: no float stands inside, and all objects inside have their keys in order.
* `kept_of_readValue`: a value that is read is ordered, and not too deep.
-/

namespace RemoteCall.Json

section Defs

/-- A value stands inside itself, inside a list that has it inside an item, and inside an object that has it inside the
value of a field. -/
inductive Within (w : Json) : Json → Prop
  | self : Within w w
  | item {items : List Json} {v : Json} (hv : v ∈ items) (h : Within w v) : Within w (list items)
  | field {fields : List (String × Json)} {f : String × Json} (hf : f ∈ fields) (h : Within w f.2) :
    Within w (object fields)

/-- No float stands inside a value. -/
def FloatFree (v : Json) : Prop := ∀ x, ¬ Within (float x) v

/-- All objects inside a value have their fields in ascending order of their keys. -/
def Ordered (v : Json) : Prop := ∀ fields, Within (object fields) v → Dictionary.Sorted fields

/-- A value that is neither a list nor an object. -/
inductive Leaf : Json → Prop
  | null : Leaf null
  | bool (b : Bool) : Leaf (bool b)
  | whole (n : Whole) : Leaf (whole n)
  | float (x : Float) : Leaf (float x)
  | text (s : String) : Leaf (text s)

end Defs

variable {v : Json} {items : List Json} {fields : List (String × Json)} {d : Nat}

/-! ## Lists and objects -/

theorem within_list_iff {w : Json} : Within w (list items) ↔ w = list items ∨ ∃ v ∈ items, Within w v := by
  constructor
  · intro h
    cases h with
    | self => exact .inl rfl
    | item hv h => exact .inr ⟨_, hv, h⟩
  · rintro (rfl | ⟨v, hv, h⟩)
    · exact .self
    · exact .item hv h

theorem within_object_iff {w : Json} :
    Within w (object fields) ↔ w = object fields ∨ ∃ f ∈ fields, Within w f.2 := by
  constructor
  · intro h
    cases h with
    | self => exact .inl rfl
    | field hf h => exact .inr ⟨_, hf, h⟩
  · rintro (rfl | ⟨f, hf, h⟩)
    · exact .self
    · exact .field hf h

theorem floatFree_list_iff : (list items).FloatFree ↔ ∀ v ∈ items, v.FloatFree := by
  simp only [FloatFree, within_list_iff, reduceCtorEq, false_or, not_exists, not_and]
  exact ⟨fun h v hv x => h x v hv, fun h x v hv => h v hv x⟩

theorem floatFree_object_iff : (object fields).FloatFree ↔ ∀ f ∈ fields, f.2.FloatFree := by
  simp only [FloatFree, within_object_iff, reduceCtorEq, false_or, not_exists, not_and]
  exact ⟨fun h f hf x => h x f hf, fun h x f hf => h f hf x⟩

@[simp] theorem floatFree_null : null.FloatFree := nofun

@[simp] theorem floatFree_bool (b : Bool) : (bool b).FloatFree := nofun

@[simp] theorem floatFree_whole (n : Whole) : (whole n).FloatFree := nofun

@[simp] theorem floatFree_text (s : String) : (text s).FloatFree := nofun

theorem not_floatFree_float (x : Float) : ¬ (float x).FloatFree := fun h => h x .self

@[simp] theorem ordered_null : null.Ordered := nofun

@[simp] theorem ordered_bool (b : Bool) : (bool b).Ordered := nofun

@[simp] theorem ordered_whole (n : Whole) : (whole n).Ordered := nofun

@[simp] theorem ordered_float (x : Float) : (float x).Ordered := nofun

@[simp] theorem ordered_text (s : String) : (text s).Ordered := nofun

theorem ordered_list_iff : (list items).Ordered ↔ ∀ v ∈ items, v.Ordered := by
  simp only [Ordered, within_list_iff, reduceCtorEq, false_or]
  exact ⟨fun h v hv fields hin => h fields ⟨v, hv, hin⟩, fun h fields ⟨v, hv, hin⟩ => h v hv fields hin⟩

theorem ordered_object_iff :
    (object fields).Ordered ↔ Dictionary.Sorted fields ∧ ∀ f ∈ fields, f.2.Ordered := by
  constructor
  · intro h
    exact ⟨h fields .self, fun f hf fields' hin => h fields' (.field hf hin)⟩
  · rintro ⟨hsorted, hall⟩ fields' hin
    rcases within_object_iff.mp hin with heq | ⟨f, hf, hin⟩
    · cases heq
      exact hsorted
    · exact hall f hf fields' hin

theorem kept_of_leaf (h : v.Leaf) (d : Nat) : v.depth ≤ d ∧ v.Ordered := by
  cases h with
  | _ => exact ⟨Nat.zero_le d, by simp⟩

theorem itemsDepth_le_iff : itemsDepth items ≤ d ↔ ∀ v ∈ items, v.depth ≤ d := by
  induction items with
  | nil => simp [itemsDepth]
  | cons v items ih => rw [itemsDepth, Nat.max_le, ih, List.forall_mem_cons]

theorem fieldsDepth_le_iff : fieldsDepth fields ≤ d ↔ ∀ f ∈ fields, f.2.depth ≤ d := by
  induction fields with
  | nil => simp [fieldsDepth]
  | cons f fields ih => rw [fieldsDepth, Nat.max_le, ih, List.forall_mem_cons]

theorem depth_list_le_iff : (list items).depth ≤ d + 1 ↔ ∀ v ∈ items, v.depth ≤ d := by
  rw [← itemsDepth_le_iff, depth]
  omega

theorem depth_object_le_iff : (object fields).depth ≤ d + 1 ↔ ∀ f ∈ fields, f.2.depth ≤ d := by
  rw [← fieldsDepth_le_iff, depth]
  omega

/-! ## What is read -/

section Reading

variable {α : Type} {part : Part α} {p : α → Prop} {close : Char} {cs rest : List Char}

theorem all_of_readMore (hpart : ∀ cs a rest, part cs = some (a, rest) → p a) {fuel : Nat} {acc as : List α}
    (hacc : ∀ a ∈ acc, p a) (h : readMore part close fuel acc cs = some (as, rest)) : ∀ a ∈ as, p a := by
  induction fuel generalizing acc cs with
  | zero => cases h
  | succ fuel ih =>
    rw [readMore] at h
    split at h
    · cases h
    · rename_i a cs' ha
      have hmore : ∀ b ∈ a :: acc, p b := List.forall_mem_cons.mpr ⟨hpart _ _ _ ha, hacc⟩
      split at h
      · cases h
      · split at h
        · exact ih hmore h
        · split at h
          · cases h
            exact fun b hb => hmore b (List.mem_reverse.mp hb)
          · cases h

/-- What holds of each part holds of all that are read. -/
theorem all_of_readUpTo (hpart : ∀ cs a rest, part cs = some (a, rest) → p a) {as : List α}
    (h : readUpTo part close cs = some (as, rest)) : ∀ a ∈ as, p a := by
  unfold readUpTo at h
  split at h
  · cases h
  · split at h
    · cases h
      simp
    · exact all_of_readMore hpart (by simp) h

theorem value_of_readField (hpart : ∀ cs a rest, part cs = some (a, rest) → p a) {f : String × α}
    (h : readField part cs = some (f, rest)) : p f.2 := by
  unfold readField at h
  split at h
  · simp only [Option.bind_eq_bind, Option.bind_eq_some_iff] at h
    obtain ⟨⟨key, cs⟩, -, h⟩ := h
    split at h
    · simp only [Option.bind_eq_some_iff] at h
      obtain ⟨⟨value, cs⟩, hvalue, h⟩ := h
      cases h
      exact hpart _ _ _ hvalue
    · cases h
  · cases h

theorem Numeral.leaf_of_value? {l : Numeral} (h : l.value? = some v) : v.Leaf := by
  have hfloat (h : l.float? = some v) : v.Leaf := by
    obtain ⟨x, -, rfl⟩ := Option.map_eq_some_iff.mp h
    exact .float _
  unfold value? at h
  split at h
  · dsimp only at h
    split at h
    · exact hfloat h
    · split at h
      · cases h
        exact .whole _
      · exact hfloat h
  · exact hfloat h

theorem leaf_of_readScalar (h : readScalar cs = some (v, rest)) : v.Leaf := by
  unfold readScalar at h
  split at h
  · cases h
    exact .null
  · cases h
    exact .bool true
  · cases h
    exact .bool false
  · simp only [Option.bind_eq_bind, Option.bind_eq_some_iff] at h
    obtain ⟨⟨s, cs⟩, -, h⟩ := h
    cases h
    exact .text s
  · simp only [Option.bind_eq_bind, Option.bind_eq_some_iff] at h
    obtain ⟨⟨l, cs⟩, -, v', hvalue, h⟩ := h
    cases h
    exact Numeral.leaf_of_value? hvalue

/-- The object of fields in any order is kept in order, and is no deeper than they are. -/
theorem kept_ofFields (h : ∀ f ∈ fields, f.2.depth ≤ d ∧ f.2.Ordered) :
    (ofFields fields).depth ≤ d + 1 ∧ (ofFields fields).Ordered := by
  have hall : ∀ f ∈ Dictionary.ofPairs fields, f.2.depth ≤ d ∧ f.2.Ordered :=
    fun f hf => h f (Dictionary.mem_of_mem_ofPairs hf)
  exact ⟨depth_object_le_iff.mpr fun f hf => (hall f hf).1,
    ordered_object_iff.mpr ⟨Dictionary.sorted_ofPairs fields, fun f hf => (hall f hf).2⟩⟩

/-- A value that is read is ordered, and not too deep. -/
theorem kept_of_readValue (h : readValue d cs = some (v, rest)) : v.depth ≤ d ∧ v.Ordered := by
  induction d generalizing v cs rest with
  | zero =>
    exact kept_of_leaf (leaf_of_readScalar h) 0
  | succ d ih =>
    simp only [readValue] at h
    split at h
    · simp only [Option.bind_eq_bind, Option.bind_eq_some_iff] at h
      obtain ⟨⟨items, cs⟩, hitems, h⟩ := h
      cases h
      have hall := all_of_readUpTo (p := fun v => v.depth ≤ d ∧ v.Ordered) (fun _ _ _ h => ih h) hitems
      exact ⟨depth_list_le_iff.mpr fun v hv => (hall v hv).1, ordered_list_iff.mpr fun v hv => (hall v hv).2⟩
    · simp only [Option.bind_eq_bind, Option.bind_eq_some_iff] at h
      obtain ⟨⟨fields, cs⟩, hfields, h⟩ := h
      cases h
      exact kept_ofFields (all_of_readUpTo (p := fun f => f.2.depth ≤ d ∧ f.2.Ordered)
        (fun _ _ _ h => value_of_readField (p := fun v => v.depth ≤ d ∧ v.Ordered) (fun _ _ _ h => ih h) h) hfields)
    · exact kept_of_leaf (leaf_of_readScalar h) (d + 1)

end Reading

end RemoteCall.Json
