import RemoteCall.Proofs.Dictionary
import RemoteCall.Service.Facade

/-!
# Arguments under their names

The arguments of a call travel as an object that has them under the names of the parameters. As many of them arrive as
there are different names. A parameter without a declared name is named for its place, and nothing keeps another
parameter from declaring that name.

* `Facade.UnderNames`: an object has each argument under the name in its place, and nothing else.
* `Method.Clashes`: the name for the place of a parameter is declared for another one.
* `declared_names_distinct`: the names of a method differ just if none of them clash. Then each argument has a key of
  its own, and otherwise there are fewer keys than arguments.
-/

namespace RemoteCall

section Defs

/-- The fields of an object that has the arguments under their names, and nothing else. -/
structure Facade.UnderNames (names : List String) (args : List Json) (fields : Dictionary Json) : Prop where
  sorted : fields.Sorted
  perm : fields.Perm (names.zip args)

/-- The names that are declared. -/
def Method.declared (m : Method) : List String := m.params.filterMap id

/-- A parameter is named for its place, and another one declares this name. -/
def Method.Clashes (m : Method) : Prop := ∃ i : Nat, m.params[i]? = some none ∧ some s!"arg{i}" ∈ m.params

/-- Whenever the declared names differ, all names differ and the object of arguments has a key for each argument. -/
def DeclaredNamesSuffice : Prop :=
  ∀ m : Method, m.declared.Nodup → (declaredNames m).Nodup ∧ ∀ args : List Json, args.length = m.arity →
    ∃ fields, Facade.arguments (declaredNames m) args = .object fields ∧ fields.length = args.length

end Defs

/-- The second of two parameters has no name, and the first one declares the name that the second gets. -/
theorem not_declaredNamesSuffice : ¬ DeclaredNamesSuffice := by
  intro h
  obtain ⟨hnames, -⟩ := h ⟨"put", [some "arg1", none], false⟩ (by decide)
  revert hnames
  decide

/-! ## The object of arguments -/

namespace Facade

variable {f : Facade} {method : String} {route : Route} {names : List String} {args : List Json}
  {fields : Dictionary Json}

/-- Arguments under different names stand there each. -/
theorem names_of_nodup (hnames : names.Nodup) (hlen : args.length = names.length) :
    UnderNames names args (.ofPairs (names.zip args)) := by
  refine ⟨Dictionary.sorted_ofPairs _, Dictionary.perm_ofPairs ?_⟩
  rwa [List.map_fst_zip (Nat.le_of_eq hlen.symm)]

/-- As many arguments arrive as there are different names. -/
theorem length_arguments (hlen : args.length = names.length) (h : arguments names args = .object fields) :
    fields.length = names.dedup.length := by
  cases h
  rw [Dictionary.length_ofPairs, List.map_fst_zip (Nat.le_of_eq hlen.symm)]

theorem UnderNames.length_eq (h : UnderNames names args fields) (hlen : args.length = names.length) :
    fields.length = args.length := by
  rw [h.perm.length_eq, List.length_zip, hlen, Nat.min_self]

/-- What stands under a name is the argument in the place of the name. -/
theorem UnderNames.lookup_iff (h : UnderNames names args fields) {name : String} {arg : Json} :
    fields.lookup name = some arg ↔ ∃ i : Nat, names[i]? = some name ∧ args[i]? = some arg := by
  rw [← Dictionary.mem_iff_lookup h.sorted, h.perm.mem_iff, List.mem_iff_getElem?]
  simp only [List.getElem?_zip_eq_some]

/-- The call of a method that there is, with as many arguments as it takes. -/
theorem outgoing_of_route (hroute : f.routes.lookup method = some route) (hlen : args.length = route.names.length) :
    f.outgoing method args = ((f.codec.encode (arguments route.names args)).mapError CallError.payload).map
      fun data => ⟨f.service, method, data, route.ack, f.timeoutMs⟩ := by
  simp only [outgoing, hroute, hlen, ne_eq, not_true_eq_false, if_false]
  cases f.codec.encode (arguments route.names args) <;> rfl

end Facade

/-! ## Declared names -/

theorem eq_of_repr {i j : Nat} (h : i.repr = j.repr) : i = j := by
  rw [Nat.repr_eq_ofList_toDigits, Nat.repr_eq_ofList_toDigits, String.ofList_inj] at h
  have hread (n : Nat) : Nat.ofDigitChars 10 (Nat.toDigits 10 n) 0 = n :=
    Nat.ofDigitChars_toDigits (by decide) (by decide)
  rw [← hread i, h, hread]

theorem eq_of_placeName {i j : Nat} (h : s!"arg{i}" = s!"arg{j}") : i = j :=
  eq_of_repr ((String.append_right_inj "arg").mp h)

variable {m : Method}

theorem getElem?_declaredNames (m : Method) (i : Nat) :
    (declaredNames m)[i]? = m.params[i]?.map fun p => p.getD s!"arg{i}" := by
  simp only [declaredNames, List.getElem?_map, List.getElem?_zipIdx, Option.map_map, Nat.zero_add]
  rfl

theorem ne_of_declared (h : m.declared.Nodup) {i j : Nat} {a b : String} (hij : i < j)
    (ha : m.params[i]? = some (some a)) (hb : m.params[j]? = some (some b)) : a ≠ b := by
  obtain ⟨hi, hia⟩ := List.getElem?_eq_some_iff.mp ha
  obtain ⟨hj, hjb⟩ := List.getElem?_eq_some_iff.mp hb
  exact List.pairwise_iff_getElem.mp (List.pairwise_filterMap.mp h) i j hi hj hij a hia b hjb

theorem not_clashes_of_nodup (h : (declaredNames m).Nodup) : ¬ m.Clashes := by
  rintro ⟨i, hi, hin⟩
  obtain ⟨j, hj⟩ := List.mem_iff_getElem?.mp hin
  obtain ⟨hlt, -⟩ := List.getElem?_eq_some_iff.mp hi
  have hsame : (declaredNames m)[i]? = (declaredNames m)[j]? := by
    rw [getElem?_declaredNames, getElem?_declaredNames, hi, hj]
    rfl
  have hij : i = j := (List.getElem?_inj (by rwa [length_declaredNames]) h).mp hsame
  subst hij
  rw [hi] at hj
  cases hj

/-- Two parameters of one name both declare it, or one of them has it for its place. -/
theorem nodup_of_not_clashes (h : m.declared.Nodup) (hno : ¬ m.Clashes) : (declaredNames m).Nodup := by
  rw [List.nodup_iff_getElem?_ne_getElem?]
  intro i j hij hj heq
  rw [length_declaredNames] at hj
  obtain ⟨p, hp⟩ : ∃ p, m.params[i]? = some p := ⟨_, List.getElem?_eq_getElem (Nat.lt_trans hij hj)⟩
  obtain ⟨q, hq⟩ : ∃ q, m.params[j]? = some q := ⟨_, List.getElem?_eq_getElem hj⟩
  rw [getElem?_declaredNames, getElem?_declaredNames, hp, hq, Option.map_some, Option.map_some,
    Option.some.injEq] at heq
  cases p with
  | none =>
    cases q with
    | none => exact Nat.ne_of_lt hij (eq_of_placeName heq)
    | some b =>
      simp only [Option.getD_none, Option.getD_some] at heq
      exact hno ⟨i, hp, heq ▸ List.mem_of_getElem? hq⟩
  | some a =>
    cases q with
    | none =>
      simp only [Option.getD_none, Option.getD_some] at heq
      exact hno ⟨j, hq, heq ▸ List.mem_of_getElem? hp⟩
    | some b => exact ne_of_declared h hij hp hq heq

/-! ## Main statement -/

/-- **Each argument has a key of its own unless names clash.** If the names that a method declares differ, then all
names of its parameters differ just if no parameter gets a name for its place that another one declares. Then the object
that a call encodes has each of the arguments under the name in its place, and nothing else. Otherwise it has fewer keys
than there are arguments. -/
theorem declared_names_distinct (m : Method) (h : m.declared.Nodup) :
    ((declaredNames m).Nodup ↔ ¬ m.Clashes) ∧
    ∀ (f : Facade) (method : String) (ack : Ack), f.routes.lookup method = some ⟨declaredNames m, ack⟩ →
      ∀ args : List Json, args.length = m.arity → ∃ fields : Dictionary Json,
        Facade.arguments (declaredNames m) args = .object fields ∧
        f.outgoing method args = ((f.codec.encode (.object fields)).mapError CallError.payload).map
          (fun data => ⟨f.service, method, data, ack, f.timeoutMs⟩) ∧
        (¬ m.Clashes → Facade.UnderNames (declaredNames m) args fields ∧ fields.length = args.length) ∧
        (m.Clashes → fields.length < args.length) := by
  have hiff : (declaredNames m).Nodup ↔ ¬ m.Clashes := ⟨not_clashes_of_nodup, nodup_of_not_clashes h⟩
  refine ⟨hiff, fun f method ack hroute args hlen => ?_⟩
  rw [← length_declaredNames m] at hlen
  refine ⟨.ofPairs ((declaredNames m).zip args), rfl, Facade.outgoing_of_route hroute hlen, fun hno => ?_,
    fun hclash => ?_⟩
  · have hnamed := Facade.names_of_nodup (hiff.mpr hno) hlen
    exact ⟨hnamed, hnamed.length_eq hlen⟩
  · have hsub := List.dedup_sublist (declaredNames m)
    rw [Facade.length_arguments hlen rfl, hlen]
    refine Nat.lt_of_le_of_ne hsub.length_le fun heq => ?_
    exact hiff.mp (List.dedup_eq_self.mp (hsub.eq_of_length heq)) hclash

/-- Two parameters without declared names among others that are declared. -/
theorem mixed_names_distinct :
    let m : Method := ⟨"put", [some "key", none, some "group", none], false⟩
    let f : Facade := ⟨"/cache", 1000, .ofPairs [("put", ⟨declaredNames m, .yes⟩)], .json⟩
    m.declared.Nodup ∧ ¬ m.Clashes ∧ f.routes.lookup "put" = some ⟨declaredNames m, .yes⟩ ∧
      ∃ fields, Facade.arguments (declaredNames m) [.text "a", .null, .text "b", .bool true] = .object fields ∧
        fields.length = 4 ∧ fields.lookup "arg1" = some .null ∧ fields.lookup "arg3" = some (.bool true) := by
  intro m f
  have hdeclared : m.declared.Nodup := by decide
  have hroute : f.routes.lookup "put" = some ⟨declaredNames m, .yes⟩ := by decide
  obtain ⟨hiff, hcalls⟩ := declared_names_distinct m hdeclared
  have hno : ¬ m.Clashes := hiff.mp (by decide)
  obtain ⟨fields, hobject, -, hnamed, -⟩ := hcalls f "put" .yes hroute [.text "a", .null, .text "b", .bool true] rfl
  obtain ⟨hunder, hcount⟩ := hnamed hno
  exact ⟨hdeclared, hno, hroute, fields, hobject, hcount, hunder.lookup_iff.mpr ⟨1, by decide, rfl⟩,
    hunder.lookup_iff.mpr ⟨3, by decide, rfl⟩⟩

end RemoteCall
