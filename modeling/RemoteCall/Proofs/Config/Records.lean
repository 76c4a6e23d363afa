import RemoteCall.Config.Field
import RemoteCall.Proofs.Json.Skipping

/-!
# Records from some of their fields

An object may give any of the fields of a record, in any order and beside other things. What is then known of the record
is settled by which keys there are.

* `Takes`: a reader takes a text for a part, also after blanks.
* `Names`: an object names some fields, each at most once. What else it names is of no matter.
* `Tells`: what is known of a record for each list of keys.
* `readRecord_object`: an object is read as the record that its keys tell.
-/

namespace RemoteCall.Config

open Json

section Defs

variable {α σ : Type}

/-- A reader takes a text for a part, after any blanks and whatever delimits it. -/
def Takes (part : Json.Part α) (text : List Char) (a : α) : Prop :=
  ∀ pad, Blank pad → Reads part (pad ++ text) a

/-- An object names some of the fields with the names `names`, each at most once and in any order. `Gives` tells which
texts give a field its value. What else the object names has any value. -/
structure Names (names : List String) (Gives : String → List Char → Prop) (entries : List Entry) : Prop where
  once : ((entries.map Entry.key).filter (· ∈ names)).Nodup
  gives : ∀ e ∈ entries, e.key ∈ names → Gives e.key e.value.text
  other : ∀ e ∈ entries, e.key ∉ names → IsValue e.value.text

/-- What is known of a record is told by the keys that have been read: for the keys in `keys` it is `known keys`. -/
structure Tells (fields : List (Field σ)) (Gives : String → List Char → Prop) (known : List String → σ) : Prop where
  other {keys : List String} {key : String} (h : key ∉ fields.map Field.name) : known (keys ++ [key]) = known keys
  known_iff {keys : List String} {f : Field σ} (hf : f ∈ fields) : f.known (known keys) = true ↔ f.name ∈ keys
  takes {keys : List String} {f : Field σ} {t : List Char} (hf : f ∈ fields) (h : Gives f.name t) :
    Takes (f.ofJson (known keys)) t (known (keys ++ [f.name]))

/-- What is known of a part once some keys have been read. -/
def found {α : Type} (keys : List String) (name : String) (a : α) : Option α := if name ∈ keys then some a else none

end Defs

section Found

variable {α : Type} {keys : List String} {name key : String} {a d : α}

@[simp] theorem isSome_found : (found keys name a).isSome = true ↔ name ∈ keys := by
  unfold found
  split <;> simpa

@[simp] theorem getD_found : (found keys name a).getD d = if name ∈ keys then a else d := by
  unfold found
  split <;> rfl

theorem found_snoc : found (keys ++ [key]) name a = if key = name then some a else found keys name a := by
  by_cases h : key = name
  · simp [found, h]
  · simp [found, h, Ne.symm h]

end Found

section Settings

variable {s : String} {t : List Char}

/-! ## Single settings -/

theorem Takes.of_eq {α : Type} {part : Json.Part α} {a b : α} (h : Takes part t a) (hab : a = b) : Takes part t b :=
  hab ▸ h

theorem takes_text (h : Spells s t) : Takes (Setting.ofJson (α := String)) t s := by
  intro pad hpad rest _
  obtain ⟨body, htext, hread⟩ := readText_spelled h rest
  simp only [Setting.ofJson, List.append_assoc, skipBlank_append hpad, htext]
  exact hread

theorem takes_bool (b : Bool) : Takes (Setting.ofJson (α := Bool)) (chars (.bool b)) b := by
  intro pad hpad rest _
  simp only [Setting.ofJson, List.append_assoc, skipBlank_append hpad]
  cases b <;> rfl

theorem begins_wholeText (i : Int) : Begins (wholeText i) := by
  obtain ⟨c, cs, heq, hc⟩ := wholeText_eq_cons i
  rw [heq]
  exact begins_of_numeric hc cs

theorem takes_number (n : UInt64) : Takes (Setting.ofJson (α := UInt64)) (wholeText n.toNat) n := by
  intro pad hpad rest hrest
  have hread := Numeral.read_wholeText n.toNat hrest
  have hnat : Numeral.natural (Nat.toDigits 10 n.toNat) = n.toNat :=
    Nat.ofDigitChars_toDigits (by decide) (by decide)
  change ((Numeral.read (skipBlank ((pad ++ wholeText n.toNat) ++ rest))).bind fun r =>
    if r.1.negative ∨ r.1.fraction.isSome ∨ r.1.exponent.isSome ∨ UInt64.size ≤ Numeral.natural r.1.whole then none
    else some (UInt64.ofNat (Numeral.natural r.1.whole), r.2)) = _
  rw [List.append_assoc, skipBlank_append hpad, (begins_wholeText _).skipBlank, hread, Option.bind_some]
  simp [Numeral.ofInt, hnat, n.toNat_lt]

end Settings

section Fields

variable {α σ : Type} [Setting α] {fields : List (Field σ)} {Gives : String → List Char → Prop}
  {known : List String → σ} {keys : List String} {entries : List Entry} {e : Entry} {t rest : List Char}

theorem takes_of {name : String} {get : σ → Option α} {set : σ → α → σ} {a : α}
    (h : Takes (Setting.ofJson (α := α)) t a) (s : σ) : Takes ((Field.of name get set).ofJson s) t (set s a) := by
  intro pad hpad rest hrest
  change (Setting.ofJson ((pad ++ t) ++ rest)).map (fun r : α × List Char => (set s r.1, r.2)) = _
  rw [h pad hpad rest hrest]
  rfl

/-! ## Keys with their values -/

theorem takes_chars {α : Type} {part : Json.Part α} {p : Padded} {a : α} (h : Takes part p.text a)
    (hrest : Delimits rest) : part (p.chars ++ rest) = some (a, p.after ++ rest) := by
  have hpart := h p.before p.blank_before (p.after ++ rest) (delimits_append p.blank_after hrest)
  rw [List.append_assoc] at hpart
  rw [Padded.chars, List.append_assoc, List.append_assoc]
  exact hpart

/-- What comes of a key and its value. -/
theorem readKeyed_entry (e : Entry) (s : σ) (rest : List Char) :
    readKeyed fields s (e.chars ++ rest) =
      (fields.find? (·.name = e.key)).elim ((skipValue (e.value.chars ++ rest)).map fun cs => (s, cs))
        fun f => if f.known s then none else f.ofJson s (e.value.chars ++ rest) := by
  obtain ⟨body, htext, hread⟩ := readText_spelled e.spelled (e.name.after ++ ':' :: (e.value.chars ++ rest))
  have hchars : skipBlank (e.chars ++ rest) = '"' :: body := by
    rw [Entry.chars, Padded.fieldChars, List.append_assoc, e.name.skipBlank_chars, List.cons_append, htext]
    rfl
  have hcolon : skipBlank (e.name.after ++ ':' :: (e.value.chars ++ rest)) = ':' :: (e.value.chars ++ rest) :=
    skipBlank_append e.name.blank_after _
  simp only [readKeyed, hchars, hread, Option.bind_eq_bind, Option.bind_some, hcolon]
  cases fields.find? (·.name = e.key) <;> rfl

/-- A key that has not been read yet adds what it tells. -/
theorem readKeyed_tells (h : Tells fields Gives known) (hfresh : e.key ∈ fields.map Field.name → e.key ∉ keys)
    (hgives : e.key ∈ fields.map Field.name → Gives e.key e.value.text)
    (hother : e.key ∉ fields.map Field.name → IsValue e.value.text) (hrest : Delimits rest) :
    readKeyed fields (known keys) (e.chars ++ rest) = some (known (keys ++ [e.key]), e.value.after ++ rest) := by
  rw [readKeyed_entry]
  cases hfind : fields.find? (·.name = e.key) with
  | none =>
    have hkey : e.key ∉ fields.map Field.name := by
      rintro hkey
      obtain ⟨f, hf, hname⟩ := List.mem_map.mp hkey
      exact List.find?_eq_none.mp hfind f hf (decide_eq_true hname)
    simp only [Option.elim_none, skipValue_padded (hother hkey) hrest, Option.map_some, h.other hkey]
  | some f =>
    have hf : f ∈ fields := List.mem_of_find?_eq_some hfind
    have hname : f.name = e.key := by simpa using List.find?_some hfind
    have hkey : e.key ∈ fields.map Field.name := hname ▸ List.mem_map_of_mem hf
    have hknown : ¬ f.known (known keys) = true := by
      rw [h.known_iff hf, hname]
      exact hfresh hkey
    have htakes : Takes (f.ofJson (known keys)) e.value.text (known (keys ++ [f.name])) :=
      h.takes hf (hname ▸ hgives hkey)
    rw [Option.elim_some, if_neg hknown, takes_chars htakes hrest, hname]

/-! ## Objects -/

theorem readKeys_comma {s s' : σ} {cs pad : List Char} (hread : readKeyed fields s cs = some (s', pad ++ ',' :: rest))
    (hpad : Blank pad) (fuel : Nat) : readKeys fields (fuel + 1) s cs = readKeys fields fuel s' rest := by
  simp only [readKeys, hread, Option.bind_eq_bind, Option.bind_some, skipBlank_append hpad]
  rfl

theorem readKeys_closing {s s' : σ} {cs pad : List Char}
    (hread : readKeyed fields s cs = some (s', pad ++ '\x7d' :: rest)) (hpad : Blank pad) (fuel : Nat) :
    readKeys fields (fuel + 1) s cs = some (s', rest) := by
  simp only [readKeys, hread, Option.bind_eq_bind, Option.bind_some, skipBlank_append hpad]
  rfl

theorem not_mem_of_nodup_filter {names later : List String} {key : String}
    (h : ((keys ++ key :: later).filter (· ∈ names)).Nodup) (hkey : key ∈ names) : key ∉ keys := by
  intro hmem
  rw [List.filter_append] at h
  exact (List.nodup_append.mp h).2.2 key (by simp [hmem, hkey]) key (by simp [hkey]) rfl

/-- All keys up to the end of an object add what they tell. -/
theorem readKeys_tells (h : Tells fields Gives known) {es : List Entry}
    (honce : ((keys ++ (e :: es).map Entry.key).filter (· ∈ fields.map Field.name)).Nodup)
    (hgives : ∀ d ∈ e :: es, d.key ∈ fields.map Field.name → Gives d.key d.value.text)
    (hother : ∀ d ∈ e :: es, d.key ∉ fields.map Field.name → IsValue d.value.text) {fuel : Nat}
    (hfuel : es.length < fuel) (rest : List Char) :
    readKeys fields fuel (known keys) (joined Entry.chars (e :: es) ++ '\x7d' :: rest) =
      some (known (keys ++ (e :: es).map Entry.key), rest) := by
  obtain ⟨fuel, rfl⟩ : ∃ n, fuel = n + 1 := ⟨fuel - 1, by omega⟩
  induction es generalizing e keys fuel with
  | nil =>
    have hend : Delimits ('\x7d' :: rest) := delimits_cons (by decide) rest
    have hread := readKeyed_tells h (not_mem_of_nodup_filter honce) (hgives e List.mem_cons_self)
      (hother e List.mem_cons_self) hend
    exact readKeys_closing hread e.value.blank_after fuel
  | cons e' es ih =>
    have hcomma : Delimits (',' :: (joined Entry.chars (e' :: es) ++ '\x7d' :: rest)) := delimits_cons (.inl rfl) _
    have hread := readKeyed_tells h (not_mem_of_nodup_filter honce) (hgives e List.mem_cons_self)
      (hother e List.mem_cons_self) hcomma
    have hfuel' : es.length < fuel := Nat.lt_of_succ_lt_succ hfuel
    obtain ⟨fuel, rfl⟩ : ∃ n, fuel = n + 1 := ⟨fuel - 1, by omega⟩
    have honce' : ((keys ++ [e.key] ++ (e' :: es).map Entry.key).filter (· ∈ fields.map Field.name)).Nodup := by
      simpa using honce
    have hmore := ih honce' (fun d hd => hgives d (List.mem_cons_of_mem _ hd))
      (fun d hd => hother d (List.mem_cons_of_mem _ hd)) fuel hfuel'
    rw [joined, List.append_assoc, List.cons_append, readKeys_comma hread e.value.blank_after, hmore,
      List.append_assoc, List.singleton_append]
    rfl

/-- An object is read as the record that its keys tell. -/
theorem readRecord_object (h : Tells fields Gives known) (hnames : Names (fields.map Field.name) Gives entries)
    (ht : IsObject entries t) : Takes (readRecord fields (known [])) t (known (entries.map Entry.key)) := by
  intro pad hpad rest hrest
  obtain ⟨inner, hinner, rfl⟩ := ht
  have hopening (cs : List Char) : skipBlank (pad ++ '\x7b' :: cs) = '\x7b' :: cs := skipBlank_append hpad _
  simp only [readRecord, List.append_assoc, List.cons_append, List.nil_append, hopening, skipBlank_append hinner]
  cases entries with
  | nil => rfl
  | cons e es =>
    obtain ⟨hskip, hbegins⟩ := skipBlank_joined e es ('\x7d' :: rest)
    have hfuel : es.length < (joined Entry.chars (e.flush :: es) ++ '\x7d' :: rest).length + 1 := by
      have hlength : es.length ≤ (joined Entry.chars (e.flush :: es)).length := length_joined e.flush es
      rw [List.length_append]
      omega
    rw [hskip]
    split
    · rename_i heq
      obtain ⟨c, cs, htext, -, -, hne⟩ := hbegins
      rw [htext] at heq
      exact absurd (List.cons.inj heq).1 hne
    · have honce : (([] ++ (e.flush :: es).map Entry.key).filter (· ∈ fields.map Field.name)).Nodup := hnames.once
      exact readKeys_tells h honce
        (List.forall_mem_cons.mpr (List.forall_mem_cons.mp hnames.gives))
        (List.forall_mem_cons.mpr (List.forall_mem_cons.mp hnames.other)) hfuel rest

end Fields

end RemoteCall.Config
