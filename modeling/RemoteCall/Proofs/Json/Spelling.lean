import RemoteCall.Json.Skip
import RemoteCall.Proofs.Json.RoundTrip

/-!
# The ways to write JSON

One value has many texts. A character stands for itself or is escaped, and blanks may stand around each part. What is
read is the value, however it is written, and what is passed over is any value at all.

* `Spells`: a text between quotes stands for a text. `readText_spelled`: it is read as that.
* `IsNumber`, `IsText`: any number, and any text between quotes, also with halves of pairs on their own.
* `Padded`: a text with blanks around it.
* `IsValue`: the text of any value, nested as deep as may be.
* `Entry`, `IsObject`: an object with its fields in some order, each as it is written.
-/

namespace RemoteCall.Json

section Defs

/-- The ways to write a character between quotes: by itself, by a letter after a backslash, by its number, and by the
numbers of the two halves of a pair. -/
inductive SpellsChar : Char → List Char → Prop
  | plain {c : Char} (hlarge : 0x20 ≤ c.toNat) (hquote : c ≠ '"') (hslash : c ≠ '\\') : SpellsChar c [c]
  | short {c letter : Char} (h : unescape? letter = some c) : SpellsChar c ['\\', letter]
  | number {c x y z w : Char} (h : hexQuad? x y z w = some c.toNat) : SpellsChar c ['\\', 'u', x, y, z, w]
  | pair {c x y z w x' y' z' w' : Char} {high low : Nat} (hhigh : hexQuad? x y z w = some high)
      (hlow : hexQuad? x' y' z' w' = some low) (hh : 0xD800 ≤ high ∧ high < 0xDC00)
      (hl : 0xDC00 ≤ low ∧ low < 0xE000) (h : c.toNat = 0x10000 + 1024 * (high - 0xD800) + (low - 0xDC00)) :
      SpellsChar c ['\\', 'u', x, y, z, w, '\\', 'u', x', y', z', w']

/-- The ways to write characters one after another. -/
inductive SpellsChars : List Char → List Char → Prop
  | nil : SpellsChars [] []
  | cons {c : Char} {text part body : List Char} (hc : SpellsChar c part) (h : SpellsChars text body) :
      SpellsChars (c :: text) (part ++ body)

/-- A text between quotes stands for a text. -/
def Spells (s : String) (t : List Char) : Prop := ∃ body, SpellsChars s.toList body ∧ t = '"' :: (body ++ ['"'])

/-- What may stand between quotes. -/
inductive TextBody : List Char → Prop
  | nil : TextBody []
  | plain {c : Char} {cs : List Char} (hlarge : 0x20 ≤ c.toNat) (hquote : c ≠ '"') (hslash : c ≠ '\\')
      (h : TextBody cs) : TextBody (c :: cs)
  | short {letter : Char} {cs : List Char} (hc : (unescape? letter).isSome) (h : TextBody cs) :
      TextBody ('\\' :: letter :: cs)
  | number {x y z w : Char} {cs : List Char} (hn : (hexQuad? x y z w).isSome) (h : TextBody cs) :
      TextBody ('\\' :: 'u' :: x :: y :: z :: w :: cs)

/-- Any text between quotes. -/
def IsText (t : List Char) : Prop := ∃ body, TextBody body ∧ t = '"' :: (body ++ ['"'])

/-- At least one digit, and nothing else. -/
def IsDigits (ds : List Char) : Prop := ds ≠ [] ∧ ∀ c ∈ ds, c.isDigit = true

/-- The digits before a point: a zero stands alone. -/
def IsWhole (ds : List Char) : Prop := ds = ['0'] ∨ IsDigits ds ∧ ds.head? ≠ some '0'

/-- The digits after a point, if there is one. -/
def IsFraction (t : List Char) : Prop := t = [] ∨ ∃ ds, IsDigits ds ∧ t = '.' :: ds

/-- An exponent, if there is one. -/
def IsExponent (t : List Char) : Prop := t = [] ∨ ∃ (mark : Char) (sign ds : List Char), (mark = 'e' ∨ mark = 'E') ∧
  (sign = [] ∨ sign = ['+'] ∨ sign = ['-']) ∧ IsDigits ds ∧ t = mark :: (sign ++ ds)

/-- Any number, whatever its size. -/
def IsNumber (t : List Char) : Prop := ∃ sign whole fraction exponent : List Char, (sign = [] ∨ sign = ['-']) ∧
  IsWhole whole ∧ IsFraction fraction ∧ IsExponent exponent ∧ t = sign ++ (whole ++ (fraction ++ exponent))

/-- Nothing but blanks. -/
def Blank (cs : List Char) : Prop := ∀ c ∈ cs, isBlank c = true

theorem blank_nil : Blank [] := List.forall_mem_nil _

/-- A text with blanks around it. -/
structure Padded where
  before : List Char
  text : List Char
  after : List Char
  blank_before : Blank before
  blank_after : Blank after

/-- The text with its blanks. -/
def Padded.chars (p : Padded) : List Char := p.before ++ (p.text ++ p.after)

/-- The text with no blanks around it. -/
def Padded.bare (text : List Char) : Padded := ⟨[], text, [], blank_nil, blank_nil⟩

/-- A field as it is written: its name, and its value. -/
def Padded.fieldChars (f : Padded × Padded) : List Char := f.1.chars ++ ':' :: f.2.chars

/-- Parts between two brackets, with commas between them. Between brackets without parts there may be blanks. -/
def Encloses {α : Type} (opening closing : Char) (text : α → List Char) (as : List α) (t : List Char) : Prop :=
  ∃ pad, Blank pad ∧ t = opening :: (pad ++ (joined text as ++ [closing]))

/-- The text of any value. -/
inductive IsValue : List Char → Prop
  | null : IsValue ['n', 'u', 'l', 'l']
  | true : IsValue ['t', 'r', 'u', 'e']
  | false : IsValue ['f', 'a', 'l', 's', 'e']
  | number {t : List Char} (h : IsNumber t) : IsValue t
  | text {t : List Char} (h : IsText t) : IsValue t
  | list {t : List Char} {items : List Padded} (ht : Encloses '[' ']' Padded.chars items t)
      (h : ∀ i ∈ items, IsValue i.text) : IsValue t
  | object {t : List Char} {fields : List (Padded × Padded)} (ht : Encloses '\x7b' '\x7d' Padded.fieldChars fields t)
      (hkeys : ∀ f ∈ fields, IsText f.1.text) (h : ∀ f ∈ fields, IsValue f.2.text) : IsValue t

/-- A field of an object as it is written. Its name may be escaped, and there may be blanks around it and around the
value. -/
structure Entry where
  key : String
  name : Padded
  value : Padded
  spelled : Spells key name.text

/-- The text of a field. -/
def Entry.chars (e : Entry) : List Char := Padded.fieldChars (e.name, e.value)

/-- An entry with no blanks before it. -/
def Entry.flush (e : Entry) : Entry :=
  { e with name := { e.name with before := [], blank_before := blank_nil }, spelled := e.spelled }

/-- The text of an object with its fields in the order given. -/
def IsObject (entries : List Entry) (t : List Char) : Prop := Encloses '\x7b' '\x7d' Entry.chars entries t

end Defs

variable {c : Char} {s : String} {t body cs rest : List Char}

/-! ## Blanks -/

theorem skipBlank_append (h : Blank cs) (rest : List Char) : skipBlank (cs ++ rest) = skipBlank rest := by
  rw [skipBlank, skipBlank, List.dropWhile_append_of_pos h]

theorem skipBlank_of_blank (h : Blank cs) : skipBlank cs = [] := by
  rw [← List.append_nil cs, skipBlank_append h]
  rfl

theorem delimits_append (h : Blank cs) (hrest : Delimits rest) : Delimits (cs ++ rest) := by
  cases cs with
  | nil => exact hrest
  | cons c cs => exact delimits_cons (.inr (.inr (.inr (h c List.mem_cons_self)))) _

theorem Padded.skipBlank_chars (p : Padded) (rest : List Char) :
    skipBlank (p.chars ++ rest) = skipBlank (p.text ++ (p.after ++ rest)) := by
  rw [Padded.chars, List.append_assoc, List.append_assoc, skipBlank_append p.blank_before]

/-! ## Texts between quotes -/

theorem readText_short {letter : Char} (h : unescape? letter = some c) (acc cs : List Char) :
    readText acc ('\\' :: letter :: cs) = readText (c :: acc) cs := by
  unfold unescape? at h
  split at h <;> cases h <;> rfl

theorem readText_pair {x y z w x' y' z' w' : Char} {high low : Nat} (hhigh : hexQuad? x y z w = some high)
    (hlow : hexQuad? x' y' z' w' = some low) (hh : isHighHalf high = true) (hl : isLowHalf low = true)
    (acc cs : List Char) :
    readText acc ('\\' :: 'u' :: x :: y :: z :: w :: '\\' :: 'u' :: x' :: y' :: z' :: w' :: cs) =
      readText (pairChar high low :: acc) cs := by
  have hno : isLowHalf high = false := by
    simp only [isHighHalf, isLowHalf, decide_eq_true_eq, decide_eq_false_iff_not] at hh ⊢
    omega
  rw [readText, hhigh]
  simp [hno, hh, hlow, hl]

theorem toNat_no_half (c : Char) : isLowHalf c.toNat = false ∧ isHighHalf c.toNat = false := by
  have hvalid : c.toNat < 0xD800 ∨ 0xDFFF < c.toNat ∧ c.toNat < 0x110000 := c.valid
  simp only [isHighHalf, isLowHalf, decide_eq_false_iff_not]
  omega

/-- However a character is written, it is read as that. -/
theorem readText_spellsChar {part : List Char} (h : SpellsChar c part) (acc cs : List Char) :
    readText acc (part ++ cs) = readText (c :: acc) cs := by
  cases h with
  | plain hlarge hquote hslash => exact readText_plain hquote hslash (Nat.not_lt.mpr hlarge) acc cs
  | short h => exact readText_short h acc cs
  | number h =>
    have hread := readText_unicode h (toNat_no_half c).1 (toNat_no_half c).2 acc cs
    rw [Char.ofNat_toNat] at hread
    exact hread
  | pair hhigh hlow hh hl h =>
    have hread := readText_pair hhigh hlow (decide_eq_true hh) (decide_eq_true hl) acc cs
    rw [pairChar, ← h, Char.ofNat_toNat] at hread
    exact hread

theorem readText_spellsChars {text : List Char} (h : SpellsChars text body) (acc cs : List Char) :
    readText acc (body ++ '"' :: cs) = some (String.ofList (acc.reverse ++ text), cs) := by
  induction h generalizing acc with
  | nil => simp [readText]
  | @cons c text part body hc _ ih =>
    rw [List.append_assoc, readText_spellsChar hc, ih, List.reverse_cons, List.append_assoc, List.singleton_append]

/-- However a text is written, it is read as that. -/
theorem readText_spelled (h : Spells s t) (cs : List Char) :
    ∃ body, t ++ cs = '"' :: body ∧ readText [] body = some (s, cs) := by
  obtain ⟨body, hbody, rfl⟩ := h
  refine ⟨body ++ '"' :: cs, by simp, ?_⟩
  rw [readText_spellsChars hbody, List.reverse_nil, List.nil_append, String.ofList_toList]

/-- The text that is printed for a character is one of the ways to write it. -/
theorem spellsChar_escapeChar (c : Char) : SpellsChar c (escapeChar c) := by
  unfold escapeChar
  split
  any_goals exact .short rfl
  rename_i hquote hslash _ _ _ _ _
  split
  · rename_i hcontrol
    exact .number (hexQuad?_control hcontrol)
  · rename_i hlarge
    exact .plain (Nat.le_of_not_lt hlarge) hquote hslash

theorem spells_quote (s : String) : Spells s (quote s) := by
  refine ⟨s.toList.flatMap escapeChar, ?_, rfl⟩
  induction s.toList with
  | nil => exact .nil
  | cons c text ih =>
    rw [List.flatMap_cons]
    exact .cons (spellsChar_escapeChar c) ih

/-! ## Objects -/

/-- The first key of an object is where the blanks before it end. -/
theorem skipBlank_joined (e : Entry) (es : List Entry) (rest : List Char) :
    skipBlank (joined Entry.chars (e :: es) ++ rest) = joined Entry.chars (e.flush :: es) ++ rest ∧
      Begins (joined Entry.chars (e.flush :: es)) := by
  have hbegins : Begins (joined Entry.chars (e.flush :: es)) := by
    obtain ⟨body, -, htext⟩ := e.spelled
    have hchars : e.flush.chars = e.name.text ++ (e.name.after ++ ':' :: e.value.chars) := by
      simp [Entry.chars, Padded.fieldChars, Padded.chars, Entry.flush]
    exact begins_joined ⟨'"', _, by rw [hchars, htext, List.cons_append], by decide, by decide, by decide⟩ es
  have hchars : e.chars = e.name.before ++ e.flush.chars := by
    simp [Entry.chars, Padded.fieldChars, Padded.chars, Entry.flush]
  have hjoined : joined Entry.chars (e :: es) = e.name.before ++ joined Entry.chars (e.flush :: es) := by
    cases es with
    | nil => exact hchars
    | cons e' es => rw [joined, joined, hchars, List.append_assoc]
  refine ⟨?_, hbegins⟩
  rw [hjoined, List.append_assoc, skipBlank_append e.name.blank_before, hbegins.skipBlank]

end RemoteCall.Json
