import RemoteCall.Json.Reader

/-!
# Numbers and texts in JSON text

What is written of a whole number and of a text is read as that, whatever follows. After a number there must be
something that is no part of one.

* `Delimits`: what follows can be no part of a number.
* `Numeral.read_wholeText`, `Numeral.value?_ofInt`: the digits of a whole number are read as that number.
* `readText_escapeChar`: what is written for a character is read as that character.
* `readText_quote`: a text between quotes is read as that text.
-/

namespace RemoteCall.Json

/-- What follows a value: nothing, a blank, or what stands between values or closes what is open around them. -/
def Delimits (rest : List Char) : Prop := ∀ c ∈ rest.head?, c = ',' ∨ c = ']' ∨ c = '\x7d' ∨ isBlank c = true

variable {rest : List Char} {c : Char} {n : Nat}

theorem delimits_nil : Delimits [] := nofun

theorem isBlank_iff : isBlank c = true ↔ c = ' ' ∨ c = '\t' ∨ c = '\n' ∨ c = '\r' := by simp [isBlank]

theorem delimits_cons (h : c = ',' ∨ c = ']' ∨ c = '\x7d' ∨ isBlank c = true) (rest : List Char) :
    Delimits (c :: rest) := by
  intro d hd
  obtain rfl := Option.some.inj hd
  exact h

/-! ## Whole numbers -/

theorem toDigits_eq_cons (n : Nat) : ∃ d ds, Nat.toDigits 10 n = d :: ds ∧ d.isDigit = true := by
  cases hd : Nat.toDigits 10 n with
  | nil => exact absurd hd Nat.toDigits_ne_nil
  | cons d ds =>
    exact ⟨d, ds, rfl, Nat.isDigit_of_mem_toDigits (b := 10) (n := n) (by decide) (by decide) (by simp [hd])⟩

/-- Only zero has a zero as its first digit. -/
theorem eq_zero_of_toDigits {cs : List Char} (h : Nat.toDigits 10 n = '0' :: cs) : n = 0 := by
  induction n using Nat.strongRecOn generalizing cs with
  | _ n ih =>
    by_cases hn : n < 10
    · rw [Nat.toDigits_of_lt_base hn] at h
      obtain ⟨hdigit, -⟩ := List.cons.inj h
      have hall : ∀ m < 10, Nat.digitChar m = '0' → m = 0 := by decide
      exact hall n hn hdigit
    · rw [Nat.toDigits_of_base_le (by decide) (by omega)] at h
      obtain ⟨d, ds, hfront, -⟩ := toDigits_eq_cons (n / 10)
      rw [hfront] at h
      obtain ⟨rfl, -⟩ := List.cons.inj h
      have := ih (n / 10) (by omega) hfront
      omega

namespace Numeral

/-- The numeral of a whole number. -/
def ofInt (i : Int) : Numeral := ⟨decide (i < 0), Nat.toDigits 10 i.natAbs, none, none⟩

theorem takeDigits_append {digits : List Char} (hd : ∀ c ∈ digits, c.isDigit = true)
    (hr : ∀ c ∈ rest.head?, c.isDigit = false) : takeDigits (digits ++ rest) = (digits, rest) := by
  have hrest : rest.takeWhile Char.isDigit = [] ∧ rest.dropWhile Char.isDigit = rest := by
    cases rest with
    | nil => exact ⟨rfl, rfl⟩
    | cons c rest => simp [hr c rfl]
  rw [takeDigits, List.takeWhile_append_of_pos hd, List.dropWhile_append_of_pos hd, hrest.1, hrest.2, List.append_nil]

theorem isDigit_of_delimits (h : Delimits rest) : ∀ c ∈ rest.head?, c.isDigit = false := by
  intro c hc
  rcases h c hc with rfl | rfl | rfl | hblank
  · rfl
  · rfl
  · rfl
  · rcases isBlank_iff.mp hblank with rfl | rfl | rfl | rfl <;> rfl

theorem readWhole_toDigits (n : Nat) (h : Delimits rest) :
    readWhole (Nat.toDigits 10 n ++ rest) = some (Nat.toDigits 10 n, rest) := by
  have hdigits : takeDigits (Nat.toDigits 10 n ++ rest) = (Nat.toDigits 10 n, rest) := takeDigits_append
    (fun c hc => Nat.isDigit_of_mem_toDigits (by decide) (by decide) hc) (isDigit_of_delimits h)
  obtain ⟨d, ds, hd, -⟩ := toDigits_eq_cons n
  by_cases hzero : d = '0'
  · subst hzero
    rw [eq_zero_of_toDigits hd]
    rfl
  · rw [hd, List.cons_append] at hdigits ⊢
    rw [readWhole, readDigits, hdigits]
    simpa using hzero

theorem readFraction_of_delimits (h : Delimits rest) : readFraction rest = some (none, rest) := by
  unfold readFraction
  split
  · exact absurd (h _ rfl) (by decide)
  · rfl

theorem readExponent_of_delimits (h : Delimits rest) : readExponent rest = some (none, rest) := by
  cases rest with
  | nil => rfl
  | cons c rest =>
    have hne : ¬ (c = 'e' ∨ c = 'E') := by
      rintro (rfl | rfl) <;> exact absurd (h _ rfl) (by decide)
    simp [readExponent, hne]

/-- The numeral after its sign. -/
def readUnsigned (negative : Bool) (cs : List Char) : Option (Numeral × List Char) := do
  let (whole, cs) ← readWhole cs
  let (fraction, cs) ← readFraction cs
  let (exponent, cs) ← readExponent cs
  return (⟨negative, whole, fraction, exponent⟩, cs)

theorem read_minus (cs : List Char) : read ('-' :: cs) = readUnsigned true cs := rfl

theorem read_of_ne (h : c ≠ '-') (cs : List Char) : read (c :: cs) = readUnsigned false (c :: cs) := by
  unfold read
  split
  rename_i hsign
  split at hsign
  · rename_i heq
    exact absurd (List.cons.inj heq).1 h
  · cases hsign
    rfl

theorem readUnsigned_toDigits (negative : Bool) (n : Nat) (h : Delimits rest) :
    readUnsigned negative (Nat.toDigits 10 n ++ rest) = some (⟨negative, Nat.toDigits 10 n, none, none⟩, rest) := by
  simp [readUnsigned, readWhole_toDigits n h, readFraction_of_delimits h, readExponent_of_delimits h]

/-- The digits of a whole number are read to their end. -/
theorem read_wholeText (i : Int) (h : Delimits rest) : read (wholeText i ++ rest) = some (ofInt i, rest) := by
  by_cases hneg : i < 0
  · rw [wholeText, if_pos hneg, List.cons_append, read_minus, readUnsigned_toDigits true i.natAbs h, ofInt,
      decide_eq_true hneg]
  · obtain ⟨d, ds, hd, hdigit⟩ := toDigits_eq_cons i.natAbs
    have hminus : d ≠ '-' := by
      rintro rfl
      cases hdigit
    have hread := readUnsigned_toDigits false i.natAbs h
    rw [hd, List.cons_append] at hread
    rw [wholeText, if_neg hneg, hd, List.cons_append, read_of_ne hminus, hread, ofInt, hd, decide_eq_false hneg]

/-- The numeral of a whole number that is kept has that value. -/
theorem value?_ofInt (w : Whole) : (ofInt w.val).value? = some (.whole w) := by
  have hnat : natural (Nat.toDigits 10 w.val.natAbs) = w.val.natAbs :=
    Nat.ofDigitChars_toDigits (by decide) (by decide)
  have hval : (if w.val < 0 then -(w.val.natAbs : Int) else w.val.natAbs) = w.val := by
    split <;> omega
  simp only [value?, ofInt, hnat, decide_eq_true_eq, hval, Whole.ofInt?_val]
  rw [if_neg (by omega)]

end Numeral

/-! ## Texts -/

/-- An escape that stands for no half of a pair is read on its own, whatever follows. -/
theorem readText_unicode {a b c d : Char} (hn : hexQuad? a b c d = some n) (hlow : isLowHalf n = false)
    (hhigh : isHighHalf n = false) (acc cs : List Char) :
    readText acc ('\\' :: 'u' :: a :: b :: c :: d :: cs) = readText (Char.ofNat n :: acc) cs := by
  by_cases hnext : ∃ e f g h rest, cs = '\\' :: 'u' :: e :: f :: g :: h :: rest
  · obtain ⟨e, f, g, h, rest, rfl⟩ := hnext
    rw [readText, hn]
    simp only [hlow, hhigh, Bool.false_eq_true, if_false]
  · rw [readText, hn]
    · simp only [hlow, hhigh, Bool.false_eq_true, or_self, if_false]
    · intro e f g h rest heq
      exact hnext ⟨e, f, g, h, rest, heq⟩

/-- A character that needs no escape is read as it is. -/
theorem readText_plain (hquote : c ≠ '"') (hslash : c ≠ '\\') (hlarge : ¬ c.toNat < 0x20) (acc cs : List Char) :
    readText acc (c :: cs) = readText (c :: acc) cs := by
  rw [readText, if_neg hlarge] <;> simp_all

theorem hexQuad?_control (h : n < 0x20) : hexQuad? '0' '0' (hexDigit (n / 16)) (hexDigit n) = some n := by
  have hall : ∀ m < 0x20, hexQuad? '0' '0' (hexDigit (m / 16)) (hexDigit m) = some m := by decide
  exact hall n h

/-- What is written for a character is read as that character. -/
theorem readText_escapeChar (c : Char) (acc cs : List Char) :
    readText acc (escapeChar c ++ cs) = readText (c :: acc) cs := by
  unfold escapeChar
  split
  any_goals rfl
  rename_i hquote hslash _ _ _ _ _
  split
  · rename_i hcontrol
    rw [List.cons_append, List.cons_append, List.cons_append, List.cons_append, List.cons_append, List.cons_append,
      readText_unicode (hexQuad?_control hcontrol), Char.ofNat_toNat]
    · rfl
    · simp [isLowHalf]; omega
    · simp [isHighHalf]; omega
  · rename_i hlarge
    exact readText_plain hquote hslash hlarge acc cs

theorem readText_escaped (text acc cs : List Char) :
    readText acc (text.flatMap escapeChar ++ '"' :: cs) = some (String.ofList (acc.reverse ++ text), cs) := by
  induction text generalizing acc with
  | nil => simp [readText]
  | cons c text ih =>
    rw [List.flatMap_cons, List.append_assoc, readText_escapeChar, ih, List.reverse_cons, List.append_assoc,
      List.singleton_append]

/-- A text between quotes is read to the closing quote. -/
theorem readText_quote (s : String) (cs : List Char) :
    readText [] (s.toList.flatMap escapeChar ++ '"' :: cs) = some (s, cs) := by
  rw [readText_escaped, List.reverse_nil, List.nil_append, String.ofList_toList]

end RemoteCall.Json
