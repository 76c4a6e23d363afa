import Mathlib
import RemoteCall.Payload
import RemoteCall.Proofs.Json.Tokens
import RemoteCall.Proofs.Json.Values
import RemoteCall.Proofs.Text.Utf8

/-!
# Values as data and back

What is written of a value without floats is read as that value. So the data of such a value determine it, and a value
that came from data has one form that is written for it.

* `joined`: parts with commas between them, as lists and objects are written.
* `Reads`: a reader takes a text for a part, whatever delimits it.
* `readUpTo_joined`: parts with commas between them are read if each of them is.
* `reads_chars`: the text of a value is read as that value.
* `payload_round_trip`: values go through their data, and never as no data at all.
-/

namespace RemoteCall

namespace Json

section Defs

variable {α : Type}

/-- Parts with commas between them. -/
def joined (text : α → List Char) : List α → List Char
  | [] => []
  | [a] => text a
  | a :: b :: rest => text a ++ ',' :: joined text (b :: rest)

/-- The text of a field. -/
def fieldChars (f : String × Json) : List Char := quote f.1 ++ ':' :: chars f.2

/-- A reader takes a text for a part, whatever delimits it. -/
def Reads (part : Part α) (text : List Char) (a : α) : Prop :=
  ∀ rest, Delimits rest → part (text ++ rest) = some (a, rest)

/-- A text begins with a character that a reader neither skips nor takes for the end of what is open. -/
def Begins (text : List Char) : Prop := ∃ c cs, text = c :: cs ∧ isBlank c = false ∧ c ≠ ']' ∧ c ≠ '\x7d'

end Defs

variable {v : Json} {d : Nat} {c : Char} {cs rest : List Char}

theorem skipBlank_cons (h : isBlank c = false) (cs : List Char) : skipBlank (c :: cs) = c :: cs := by
  simp [skipBlank, h]

theorem Begins.skipBlank {text : List Char} (h : Begins text) (rest : List Char) :
    skipBlank (text ++ rest) = text ++ rest := by
  obtain ⟨c, cs, rfl, hblank, -, -⟩ := h
  exact skipBlank_cons hblank _

/-! ## Parts with commas between them -/

section Joined

variable {α : Type} {part : Part α} {text : α → List Char} {close : Char}

theorem length_joined (a : α) (as : List α) : as.length ≤ (joined text (a :: as)).length := by
  induction as generalizing a with
  | nil => exact Nat.zero_le _
  | cons b as ih =>
    have := ih b
    rw [joined, List.length_append, List.length_cons, List.length_cons]
    omega

theorem itemsChars_eq (items : List Json) : itemsChars items = joined chars items := by
  induction items with
  | nil => rfl
  | cons v items ih =>
    cases items with
    | nil => rfl
    | cons w items => rw [itemsChars, joined, ih]

theorem fieldsChars_eq (fields : List (String × Json)) : fieldsChars fields = joined fieldChars fields := by
  induction fields with
  | nil => rfl
  | cons f fields ih =>
    cases fields with
    | nil => rfl
    | cons g fields => rw [fieldsChars, joined, ih, fieldChars]

theorem chars_list_append (items : List Json) (rest : List Char) :
    chars (list items) ++ rest = '[' :: (joined chars items ++ ']' :: rest) := by
  simp [chars, itemsChars_eq]

theorem chars_object_append (fields : List (String × Json)) (rest : List Char) :
    chars (object fields) ++ rest = '\x7b' :: (joined fieldChars fields ++ '\x7d' :: rest) := by
  simp [chars, fieldsChars_eq]

/-- What closes a list or an object. -/
theorem closes (hclose : close = ']' ∨ close = '\x7d') (rest : List Char) :
    Delimits (close :: rest) ∧ isBlank close = false ∧ close ≠ ',' := by
  rcases hclose with rfl | rfl
  · exact ⟨delimits_cons (by decide) rest, by decide, by decide⟩
  · exact ⟨delimits_cons (by decide) rest, by decide, by decide⟩

theorem readMore_joined (hclose : close = ']' ∨ close = '\x7d') {a : α} {as : List α}
    (h : ∀ b ∈ a :: as, Reads part (text b) b) {fuel : Nat} (hfuel : as.length < fuel) (acc : List α)
    (rest : List Char) :
    readMore part close fuel acc (joined text (a :: as) ++ close :: rest) =
      some (acc.reverse ++ a :: as, rest) := by
  obtain ⟨hdelimits, hblank, hcomma⟩ := closes hclose rest
  induction as generalizing a fuel acc with
  | nil =>
    cases fuel with
    | zero => cases hfuel
    | succ fuel =>
      have ha := h a List.mem_cons_self _ hdelimits
      simp [readMore, joined, ha, skipBlank_cons hblank, hcomma]
  | cons b as ih =>
    cases fuel with
    | zero => cases hfuel
    | succ fuel =>
      have hrest := ih (fun b hb => h b (List.mem_cons_of_mem _ hb)) (Nat.lt_of_succ_lt_succ hfuel) (a :: acc)
      have ha := h a List.mem_cons_self (',' :: (joined text (b :: as) ++ close :: rest))
        (delimits_cons (.inl rfl) _)
      rw [joined, List.append_assoc, List.cons_append, readMore, ha]
      simp only [skipBlank_cons (c := ',') (by decide), if_true]
      rw [hrest, List.reverse_cons, List.append_assoc, List.singleton_append]

theorem begins_joined {a : α} (h : Begins (text a)) (as : List α) : Begins (joined text (a :: as)) := by
  cases as with
  | nil => exact h
  | cons b as =>
    obtain ⟨c, cs, htext, hc⟩ := h
    exact ⟨c, _, by rw [joined, htext, List.cons_append], hc⟩

/-- Parts with commas between them are read if each of them is. -/
theorem readUpTo_joined (hclose : close = ']' ∨ close = '\x7d') {as : List α}
    (h : ∀ a ∈ as, Reads part (text a) a ∧ Begins (text a)) (rest : List Char) :
    readUpTo part close (joined text as ++ close :: rest) = some (as, rest) := by
  obtain ⟨-, hblank, -⟩ := closes hclose rest
  cases as with
  | nil => simp [readUpTo, joined, skipBlank_cons hblank]
  | cons a as =>
    have hbegins := begins_joined (h a List.mem_cons_self).2 as
    have hskip := hbegins.skipBlank (close :: rest)
    obtain ⟨c, cs, htext, -, hlist, hobject⟩ := hbegins
    have hne : c ≠ close := by rcases hclose with rfl | rfl <;> assumption
    have hfuel : as.length < (cs ++ close :: rest).length + 1 := by
      have hlength : as.length ≤ (joined text (a :: as)).length := length_joined a as
      rw [htext, List.length_cons] at hlength
      rw [List.length_append, List.length_cons]
      omega
    have hmore := readMore_joined hclose (fun b hb => (h b hb).1) hfuel [] rest
    rw [htext, List.cons_append] at hskip hmore ⊢
    simp only [readUpTo, hskip, if_neg hne]
    exact hmore

end Joined

/-! ## Values -/

theorem quote_append (s : String) (rest : List Char) :
    quote s ++ rest = '"' :: (s.toList.flatMap escapeChar ++ '"' :: rest) := by
  simp [quote]

/-- A character that begins a number is none that has a sign or digit for its opposite. -/
theorem ne_of_numeric {x : Char} (h : c = '-' ∨ c.isDigit = true) (hminus : x ≠ '-') (hdigit : x.isDigit = false) :
    c ≠ x := by
  rintro rfl
  rcases h with h | h
  · exact hminus h
  · rw [hdigit] at h
    cases h

/-- A whole number begins with its sign or with a digit. -/
theorem wholeText_eq_cons (i : Int) : ∃ c cs, wholeText i = c :: cs ∧ (c = '-' ∨ c.isDigit = true) := by
  unfold wholeText
  split
  · exact ⟨'-', _, rfl, .inl rfl⟩
  · obtain ⟨c, cs, heq, hdigit⟩ := toDigits_eq_cons i.natAbs
    exact ⟨c, cs, heq, .inr hdigit⟩

theorem begins_of_numeric (h : c = '-' ∨ c.isDigit = true) (cs : List Char) : Begins (c :: cs) := by
  have hne (x : Char) (hminus : x ≠ '-') (hdigit : x.isDigit = false) : c ≠ x := ne_of_numeric h hminus hdigit
  have hblank : isBlank c = false := by
    simp only [isBlank, decide_eq_false_iff_not, not_or]
    exact ⟨hne ' ' (by decide) rfl, hne '\t' (by decide) rfl, hne '\n' (by decide) rfl, hne '\r' (by decide) rfl⟩
  exact ⟨c, cs, rfl, hblank, hne ']' (by decide) rfl, hne '\x7d' (by decide) rfl⟩

/-- The first character of a value tells whether it is a list or an object. -/
theorem chars_eq_cons (h : v.FloatFree) : ∃ c cs, chars v = c :: cs ∧
    (isBlank c = false ∧ c ≠ ']' ∧ c ≠ '\x7d') ∧ (v.Leaf → c ≠ '[' ∧ c ≠ '\x7b') := by
  cases v with
  | null => exact ⟨'n', _, rfl, by decide, fun _ => by decide⟩
  | bool b =>
    cases b with
    | true => exact ⟨'t', _, rfl, by decide, fun _ => by decide⟩
    | false => exact ⟨'f', _, rfl, by decide, fun _ => by decide⟩
  | whole n =>
    obtain ⟨c, cs, heq, hc⟩ := wholeText_eq_cons n.val
    obtain ⟨c, cs, hcons, hbegins⟩ := begins_of_numeric hc cs
    obtain ⟨rfl, rfl⟩ := List.cons.inj hcons
    exact ⟨_, _, heq, hbegins, fun _ => ⟨ne_of_numeric hc (by decide) rfl, ne_of_numeric hc (by decide) rfl⟩⟩
  | float x => exact absurd h (not_floatFree_float x)
  | text s => exact ⟨'"', _, rfl, by decide, fun _ => by decide⟩
  | list items => exact ⟨'[', _, rfl, by decide, nofun⟩
  | object fields => exact ⟨'\x7b', _, rfl, by decide, nofun⟩

theorem begins_chars (h : v.FloatFree) : Begins (chars v) := by
  obtain ⟨c, cs, heq, hc, -⟩ := chars_eq_cons h
  exact ⟨c, cs, heq, hc⟩

theorem readScalar_of_numeric (hc : c = '-' ∨ c.isDigit = true) (cs : List Char) :
    readScalar (c :: cs) = (Numeral.read (c :: cs)).bind fun r => r.1.value?.bind fun v => some (v, r.2) := by
  have hn := ne_of_numeric hc (x := 'n') (by decide) (by decide)
  have ht := ne_of_numeric hc (x := 't') (by decide) (by decide)
  have hf := ne_of_numeric hc (x := 'f') (by decide) (by decide)
  have hq := ne_of_numeric hc (x := '"') (by decide) (by decide)
  unfold readScalar
  split
  · exact absurd (List.cons.inj ‹_›).1 hn
  · exact absurd (List.cons.inj ‹_›).1 ht
  · exact absurd (List.cons.inj ‹_›).1 hf
  · exact absurd (List.cons.inj ‹_›).1 hq
  · rfl

/-- The text of a value that is neither a list nor an object is read as that value. -/
theorem reads_leaf (hv : v.Leaf) (h : v.FloatFree) : Reads readScalar (chars v) v := by
  intro rest hrest
  cases hv with
  | null => rfl
  | bool b => cases b <;> rfl
  | whole n =>
    obtain ⟨c, cs, heq, hc⟩ := wholeText_eq_cons n.val
    have hread := Numeral.read_wholeText n.val hrest
    rw [chars, heq, List.cons_append] at *
    rw [readScalar_of_numeric hc, hread, Option.bind_some, Numeral.value?_ofInt, Option.bind_some]
  | float x => exact absurd h (not_floatFree_float x)
  | text s =>
    rw [chars, quote_append]
    simp [readScalar, readText_quote]

/-- A value that is neither a list nor an object is read at any depth. -/
theorem reads_leaf_at (hv : v.Leaf) (h : v.FloatFree) (d : Nat) : Reads (readValue d) (chars v) v := by
  intro rest hrest
  have hscalar := reads_leaf hv h rest hrest
  obtain ⟨c, cs, heq, ⟨hblank, -⟩, hleaf⟩ := chars_eq_cons h
  obtain ⟨hlist, hobject⟩ := hleaf hv
  rw [heq, List.cons_append] at hscalar ⊢
  cases d with
  | zero =>
    simp only [readValue, skipBlank_cons hblank]
    exact hscalar
  | succ d =>
    simp only [readValue, skipBlank_cons hblank]
    split
    · exact absurd (List.cons.inj ‹_›).1 hlist
    · exact absurd (List.cons.inj ‹_›).1 hobject
    · exact hscalar

theorem reads_field {f : String × Json} (h : Reads (readValue d) (chars f.2) f.2) :
    Reads (readField (readValue d)) (fieldChars f) f := by
  intro rest hrest
  have hvalue := h rest hrest
  rw [fieldChars, List.append_assoc, quote_append]
  simp [readField, skipBlank_cons, isBlank, readText_quote, hvalue]

/-- The text of a value is read as that value. -/
theorem reads_chars (hexact : v.FloatFree) (hordered : v.Ordered) (hdepth : v.depth ≤ d) :
    Reads (readValue d) (chars v) v := by
  induction d generalizing v with
  | zero =>
    cases v with
    | list items => simp [depth] at hdepth
    | object fields => simp [depth] at hdepth
    | _ => exact reads_leaf_at (by constructor) hexact 0
  | succ d ih =>
    cases v with
    | list items =>
      intro rest hrest
      have hitems (v : Json) (hv : v ∈ items) : Reads (readValue d) (chars v) v ∧ Begins (chars v) :=
        ⟨ih (floatFree_list_iff.mp hexact v hv) (ordered_list_iff.mp hordered v hv) (depth_list_le_iff.mp hdepth v hv),
          begins_chars (floatFree_list_iff.mp hexact v hv)⟩
      have hread : readUpTo (readValue d) ']' (joined chars items ++ ']' :: rest) = some (items, rest) :=
        readUpTo_joined (.inl rfl) hitems rest
      rw [chars_list_append]
      simp [readValue, skipBlank_cons, isBlank, hread]
    | object fields =>
      intro rest hrest
      obtain ⟨hsorted, hfields⟩ := ordered_object_iff.mp hordered
      have hfields (f : String × Json) (hf : f ∈ fields) :
          Reads (readField (readValue d)) (fieldChars f) f ∧ Begins (fieldChars f) :=
        ⟨reads_field (ih (floatFree_object_iff.mp hexact f hf) (hfields f hf) (depth_object_le_iff.mp hdepth f hf)),
          '"', _, rfl, by decide⟩
      have hread : readUpTo (readField (readValue d)) '\x7d' (joined fieldChars fields ++ '\x7d' :: rest) =
          some (fields, rest) := readUpTo_joined (.inr rfl) hfields rest
      rw [chars_object_append]
      simp [readValue, skipBlank_cons, isBlank, hread, ofFields, Dictionary.ofPairs_of_sorted hsorted]
    | _ => exact reads_leaf_at (by constructor) hexact (d + 1)

/-! ## Data -/

/-- The octets of a value are read as that value. -/
theorem ofBytes?_bytes (hexact : v.FloatFree) (hordered : v.Ordered) (hdepth : v.depth ≤ maxDepth) :
    ofBytes? v.bytes = some v := by
  have hread := reads_chars hexact hordered hdepth [] delimits_nil
  rw [List.append_nil] at hread
  have htext : Utf8.text v.bytes = .ok v.print := Utf8.text_eq_ok_iff.mpr rfl
  simp [ofBytes?, htext, parse, print, hread, skipBlank]

/-- A value that octets are read as is ordered, and not too deep. -/
theorem kept_of_ofBytes? {bs : Bytes} (h : ofBytes? bs = some v) : v.depth ≤ maxDepth ∧ v.Ordered := by
  unfold ofBytes? parse at h
  split at h
  · split at h
    · cases h
    · rename_i hread
      split at h
      · cases h
        exact kept_of_readValue hread
      · cases h
  · cases h

theorem chars_ne_nil (v : Json) : chars v ≠ [] := by
  cases v with
  | float x =>
    have htext (l : Decimal.Layout) (n : Decimal.Digits) : l.text n ≠ [] := by
      unfold Decimal.Layout.text
      simp only
      split
      · split
        · simp
        · split
          · simp
          · simp
      · simp
    simp only [chars, floatText, ne_eq, List.append_eq_nil_iff, not_and]
    intro _
    split
    · simp
    · exact htext _ _
  | bool b => cases b <;> simp [chars]
  | whole n =>
    obtain ⟨c, cs, heq, -⟩ := wholeText_eq_cons n.val
    simp [chars, heq]
  | _ => simp [chars, quote]

/-- Every value is carried by some data. -/
theorem bytes_ne_nil (v : Json) : v.bytes ≠ [] := by
  intro h
  have hempty : v.print = "" := Utf8.octets_injective h
  exact chars_ne_nil v (by simpa [print] using congrArg String.toList hempty)

end Json

namespace Codec

variable {v : Json} {bs : Bytes}

/-- The data of a text that is read as a value. -/
theorem decode_octets {s : String} (h : Json.parse s.toList = some v) : json.decode (Utf8.octets s) = .ok v := by
  have hne : Utf8.octets s ≠ [] := by
    intro hempty
    rw [Utf8.octets_injective (t := "") hempty] at h
    cases h
  have htext : Utf8.text (Utf8.octets s) = .ok s := Utf8.text_eq_ok_iff.mpr rfl
  simp [json, hne, Json.ofBytes?, htext, h]

theorem decode_bytes (hexact : v.FloatFree) (hordered : v.Ordered) (hdepth : v.depth ≤ Json.maxDepth) :
    json.decode v.bytes = .ok v := by
  simp [json, Json.bytes_ne_nil v, Json.ofBytes?_bytes hexact hordered hdepth]

/-- A value that comes from data is ordered, and not too deep. -/
theorem kept_of_decode (h : json.decode bs = .ok v) : v.depth ≤ Json.maxDepth ∧ v.Ordered := by
  simp only [json] at h
  split at h
  · cases h
    exact Json.kept_of_leaf .null Json.maxDepth
  · split at h
    · cases h
      exact Json.kept_of_ofBytes? ‹_›
    · cases h

/-! ## Main statement -/

/-- **Values without floats go through their data.** A value with at most 127 lists and objects inside each other is
carried by data, which give it back. A value that came from any data is carried by data of one form: they give the value
back, and what they give is carried by them again. No value at all is carried by no data, which stand for null. -/
theorem payload_round_trip :
    (∀ v : Json, v.FloatFree → v.Ordered → v.depth ≤ 127 →
      ∃ bs, json.encode v = .ok bs ∧ bs ≠ [] ∧ json.decode bs = .ok v) ∧
    (∀ (bs : Bytes) (v : Json), json.decode bs = .ok v → v.FloatFree →
      ∃ form, json.encode v = .ok form ∧ json.decode form = .ok v ∧
        ∀ w, json.decode form = .ok w → json.encode w = .ok form) ∧
    (∀ (v : Json) (bs : Bytes), json.encode v = .ok bs → bs ≠ []) ∧ json.decode [] = .ok .null := by
  refine ⟨?_, ?_, ?_, rfl⟩
  · intro v hexact hordered hdepth
    exact ⟨v.bytes, rfl, Json.bytes_ne_nil v, decode_bytes hexact hordered hdepth⟩
  · intro bs v h hexact
    obtain ⟨hdepth, hordered⟩ := kept_of_decode h
    have hback := decode_bytes hexact hordered hdepth
    refine ⟨v.bytes, rfl, hback, fun w hw => ?_⟩
    rw [hback] at hw
    cases hw
    rfl
  · intro v bs h
    cases h
    exact Json.bytes_ne_nil v

/-- A value with the least and the greatest whole number and with texts that need escapes, and its data with blanks,
another order of the fields and a key that is given twice. -/
theorem escaped_value_round_trip :
    let v : Json := .object [("", .list [.whole ⟨-9223372036854775808, by decide, by decide⟩,
        .whole ⟨18446744073709551615, by decide, by decide⟩, .list [], .null]), ("é\n", .text "\x01\"𝄞\\")]
    let s := "\x7b \"\\u00e9\\n\":\"\\u0001\\\"\\ud834\\udd1e\\\\\", \"\": 0, \"\":[-9223372036854775808,18446744073709551615,[],null]\x7d"
    (v.FloatFree ∧ v.Ordered ∧ v.depth ≤ 127 ∧ ∃ form, json.encode v = .ok form ∧ form ≠ [] ∧
      json.decode form = .ok v) ∧
    json.decode (Utf8.octets s) = .ok v ∧ ∃ form, json.encode v = .ok form ∧ json.decode form = .ok v ∧
      ∀ w, json.decode form = .ok w → json.encode w = .ok form := by
  intro v s
  have hexact : v.FloatFree := by simp [v, Json.floatFree_object_iff, Json.floatFree_list_iff]
  have hordered : v.Ordered := by
    have hkeys : List.Pairwise (fun a b : String => a < b) ["", "é\n"] := List.pairwise_pair.mpr (by decide)
    refine Json.ordered_object_iff.mpr ⟨List.pairwise_map.mp hkeys, ?_⟩
    simp [Json.ordered_list_iff]
  have hdepth : v.depth ≤ 127 := by decide +kernel
  have hread : Json.parse s.toList = some v := by
    unfold s v
    cbv
  have hdata : json.decode (Utf8.octets s) = .ok v := decode_octets hread
  exact ⟨⟨hexact, hordered, hdepth, payload_round_trip.1 v hexact hordered hdepth⟩, hdata,
    payload_round_trip.2.1 _ v hdata hexact⟩

end Codec

end RemoteCall
