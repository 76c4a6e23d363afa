import RemoteCall.Proofs.Json.Spelling

/-!
# Any value is passed over

A value that nobody asked for is passed over to its end, whatever it is, however deep it is nested and however it is
written. The brackets around it are on a stack, so what is said of a value is what is left to do after it.

* `goOn`: what is left to do after a value.
* `Skips`: a text is passed over, whatever is open around it. `IsValue.skips`: the text of a value is.
* `skipValue_padded`: after a value comes what follows it.
-/

namespace RemoteCall.Json

section Defs

/-- Goes on inside the brackets that are open, or ends with none. -/
def resume (fuel : Nat) : List Bracket × List Char → Option (List Char)
  | ([], cs) => some cs
  | (stack, cs) => skipOpen fuel stack cs

/-- What is left to do after a value inside brackets. -/
def goOn (fuel : Nat) (stack : List Bracket) (cs : List Char) : Option (List Char) :=
  (skipClosing stack cs).bind (resume fuel)

/-- A text is passed over as a value, whatever is open around it. It takes no more fuel than the text has characters. -/
def Skips (t : List Char) : Prop := ∃ n, n ≤ t.length ∧ ∀ fuel stack rest, Delimits rest →
  skipOpen (fuel + n) stack (t ++ rest) = goOn fuel stack rest

/-- What opens a bracket. -/
def Bracket.opening : Bracket → Char
  | list => '['
  | object => '\x7b'

/-- What closes a bracket. -/
def Bracket.closing : Bracket → Char
  | list => ']'
  | object => '\x7d'

/-- A part inside a bracket is the way to a value, and the value. -/
structure Leads (b : Bracket) (text : List Char) (value : Padded) : Prop where
  enter (rest : List Char) : b.enter (text ++ rest) = some (value.chars ++ rest)
  begins (rest : List Char) : b.close? (skipBlank (text ++ rest)) = none
  length_le : value.text.length ≤ text.length

end Defs

variable {c : Char} {t body ds cs rest : List Char} {b : Bracket}

/-! ## Numbers -/

theorem IsDigits.eq_cons (h : IsDigits ds) : ∃ d rest, ds = d :: rest ∧ d.isDigit = true := by
  cases ds with
  | nil => exact absurd rfl h.1
  | cons d rest => exact ⟨d, rest, rfl, h.2 d List.mem_cons_self⟩

theorem IsWhole.eq_cons (h : IsWhole ds) : ∃ d rest, ds = d :: rest ∧ d.isDigit = true := by
  rcases h with rfl | ⟨h, -⟩
  · exact ⟨'0', [], rfl, rfl⟩
  · exact h.eq_cons

namespace Numeral

theorem readDigits_append (hds : IsDigits ds) (hrest : ∀ c ∈ rest.head?, c.isDigit = false) :
    readDigits (ds ++ rest) = some (ds, rest) := by
  obtain ⟨d, ds, rfl, -⟩ := hds.eq_cons
  rw [readDigits, takeDigits_append hds.2 hrest]

theorem readWhole_append (hds : IsWhole ds) (hrest : ∀ c ∈ rest.head?, c.isDigit = false) :
    readWhole (ds ++ rest) = some (ds, rest) := by
  rcases hds with rfl | ⟨hds, hhead⟩
  · rfl
  · have hread := readDigits_append hds hrest
    obtain ⟨d, ds, rfl, -⟩ := hds.eq_cons
    have hzero : d ≠ '0' := fun h => hhead (congrArg some h)
    rw [List.cons_append] at hread ⊢
    rw [readWhole, hread]
    simpa using hzero

theorem no_digit_exponent (ht : IsExponent t) (hrest : Delimits rest) :
    ∀ c ∈ (t ++ rest).head?, c.isDigit = false ∧ c ≠ '.' := by
  intro c hc
  rcases ht with rfl | ⟨mark, sign, ds, hmark, -, -, rfl⟩
  · refine ⟨isDigit_of_delimits hrest c hc, ?_⟩
    rintro rfl
    exact absurd (hrest _ hc) (by decide)
  · obtain rfl : mark = c := Option.some.inj hc
    rcases hmark with rfl | rfl <;> decide

theorem no_digit_fraction (ht : IsFraction t) (hrest : ∀ c ∈ rest.head?, c.isDigit = false ∧ c ≠ '.') :
    ∀ c ∈ (t ++ rest).head?, c.isDigit = false := by
  intro c hc
  rcases ht with rfl | ⟨ds, -, rfl⟩
  · exact (hrest c hc).1
  · obtain rfl : '.' = c := Option.some.inj hc
    rfl

theorem readFraction_append (ht : IsFraction t) (hrest : ∀ c ∈ rest.head?, c.isDigit = false ∧ c ≠ '.') :
    ∃ fraction, readFraction (t ++ rest) = some (fraction, rest) := by
  rcases ht with rfl | ⟨ds, hds, rfl⟩
  · refine ⟨none, ?_⟩
    unfold readFraction
    split
    · rename_i heq
      exact absurd rfl (hrest '.' (by rw [List.nil_append] at heq; rw [heq]; rfl)).2
    · rfl
  · exact ⟨some ds, by rw [List.cons_append, readFraction, readDigits_append hds fun c hc => (hrest c hc).1]; rfl⟩

theorem readExponent_append (ht : IsExponent t) (hrest : Delimits rest) :
    ∃ exponent, readExponent (t ++ rest) = some (exponent, rest) := by
  rcases ht with rfl | ⟨mark, sign, ds, hmark, hsign, hds, rfl⟩
  · exact ⟨none, readExponent_of_delimits hrest⟩
  · have hread := readDigits_append hds (isDigit_of_delimits hrest)
    obtain ⟨d, ds, rfl, hdigit⟩ := hds.eq_cons
    rw [List.cons_append] at hread
    rw [List.cons_append, List.append_assoc, List.cons_append]
    refine ⟨some (sign = ['-'], d :: ds), ?_⟩
    unfold readExponent
    rcases hsign with rfl | rfl | rfl
    · simp only [hmark, if_true, List.nil_append]
      split
      · rename_i heq
        cases (List.cons.inj heq).1
        cases hdigit
      · rename_i heq
        cases (List.cons.inj heq).1
        cases hdigit
      · simp [hread]
    · simp [hmark, hread]
    · simp [hmark, hread]

/-- Any number is read to its end. -/
theorem read_number (ht : IsNumber t) (hrest : Delimits rest) : ∃ l, read (t ++ rest) = some (l, rest) := by
  obtain ⟨sign, whole, fraction, exponent, hsign, hwhole, hfraction, hexponent, rfl⟩ := ht
  have hafter := no_digit_exponent hexponent hrest
  obtain ⟨e, he⟩ := readExponent_append hexponent hrest
  obtain ⟨f, hf⟩ := readFraction_append hfraction hafter
  have hw := readWhole_append hwhole (no_digit_fraction hfraction hafter)
  have hunsigned (negative : Bool) : readUnsigned negative (whole ++ (fraction ++ (exponent ++ rest))) =
      some (⟨negative, whole, f, e⟩, rest) := by simp [readUnsigned, hw, hf, he]
  simp only [List.append_assoc]
  rcases hsign with rfl | rfl
  · refine ⟨⟨false, whole, f, e⟩, ?_⟩
    obtain ⟨d, ds, rfl, hdigit⟩ := hwhole.eq_cons
    have hminus : d ≠ '-' := by
      rintro rfl
      cases hdigit
    rw [List.nil_append, ← hunsigned]
    exact read_of_ne hminus _
  · exact ⟨⟨true, whole, f, e⟩, by rw [List.singleton_append, read_minus, hunsigned]⟩

end Numeral

/-! ## Texts between quotes -/

theorem skipText_short {letter : Char} (h : (unescape? letter).isSome) (cs : List Char) :
    skipText ('\\' :: letter :: cs) = skipText cs := by
  obtain ⟨c, hc⟩ := Option.isSome_iff_exists.mp h
  unfold unescape? at hc
  split at hc <;> cases hc <;> rfl

theorem skipText_plain (hlarge : 0x20 ≤ c.toNat) (hquote : c ≠ '"') (hslash : c ≠ '\\') (cs : List Char) :
    skipText (c :: cs) = skipText cs := by
  rw [skipText, if_neg (Nat.not_lt.mpr hlarge)] <;> simp_all

theorem skipText_body (h : TextBody body) (cs : List Char) : skipText (body ++ '"' :: cs) = some cs := by
  induction h with
  | nil => rfl
  | plain hlarge hquote hslash _ ih => rw [List.cons_append, skipText_plain hlarge hquote hslash, ih]
  | short hc _ ih => rw [List.cons_append, List.cons_append, skipText_short hc, ih]
  | number hn _ ih => simpa [skipText, hn] using ih

/-! ## What values begin with -/

theorem IsNumber.eq_cons (h : IsNumber t) : ∃ c cs, t = c :: cs ∧ (c = '-' ∨ c.isDigit = true) := by
  obtain ⟨sign, whole, fraction, exponent, hsign, hwhole, -, -, rfl⟩ := h
  rcases hsign with rfl | rfl
  · obtain ⟨d, ds, rfl, hdigit⟩ := hwhole.eq_cons
    exact ⟨d, _, rfl, .inr hdigit⟩
  · exact ⟨'-', _, rfl, .inl rfl⟩

theorem IsNumber.begins (h : IsNumber t) : Begins t := by
  obtain ⟨c, cs, rfl, hc⟩ := h.eq_cons
  exact begins_of_numeric hc cs

theorem IsText.begins (h : IsText t) : Begins t := by
  obtain ⟨body, -, rfl⟩ := h
  exact ⟨'"', _, rfl, by decide, by decide, by decide⟩

/-- A value begins with no blank and with nothing that closes a bracket. -/
theorem IsValue.begins (h : IsValue t) : Begins t := by
  cases h with
  | null => exact ⟨'n', _, rfl, by decide, by decide, by decide⟩
  | true => exact ⟨'t', _, rfl, by decide, by decide, by decide⟩
  | false => exact ⟨'f', _, rfl, by decide, by decide, by decide⟩
  | number h => exact h.begins
  | text h => exact h.begins
  | list ht =>
    obtain ⟨pad, -, rfl⟩ := ht
    exact ⟨'[', _, rfl, by decide, by decide, by decide⟩
  | object ht =>
    obtain ⟨pad, -, rfl⟩ := ht
    exact ⟨'\x7b', _, rfl, by decide, by decide, by decide⟩

theorem Begins.close?_eq_none (h : Begins t) (b : Bracket) (rest : List Char) : b.close? (t ++ rest) = none := by
  obtain ⟨c, cs, rfl, -, hlist, hobject⟩ := h
  rw [List.cons_append, Bracket.close?] <;> simp_all

/-! ## One value after another -/

@[simp] theorem Bracket.close?_closing (b : Bracket) (cs : List Char) : b.close? (b.closing :: cs) = some cs := by
  cases b <;> rfl

@[simp] theorem Bracket.opens?_opening (b : Bracket) (cs : List Char) : opens? (b.opening :: cs) = some (b, cs) := by
  cases b <;> rfl

@[simp] theorem Bracket.skipBlank_closing (b : Bracket) (cs : List Char) :
    skipBlank (b.closing :: cs) = b.closing :: cs := by
  cases b <;> rfl

@[simp] theorem Bracket.skipBlank_opening (b : Bracket) (cs : List Char) :
    skipBlank (b.opening :: cs) = b.opening :: cs := by
  cases b <;> rfl

theorem Bracket.delimits_closing (b : Bracket) (cs : List Char) : Delimits (b.closing :: cs) := by
  cases b <;> exact delimits_cons (by decide) cs

/-- What the end of a value leads to. -/
theorem bind_resume (fuel : Nat) (r : Option (List Bracket × List Char)) :
    (r.bind fun x => match x.1 with
      | [] => some x.2
      | stack => skipOpen fuel stack x.2) = r.bind (resume fuel) := by
  rcases r with _ | ⟨_ | ⟨b, stack⟩, cs⟩ <;> rfl

theorem skipOpen_eq (fuel : Nat) (stack : List Bracket) (cs : List Char) :
    skipOpen (fuel + 1) stack cs = (match opens? (skipBlank cs) with
      | some (b, cs) =>
        match b.close? (skipBlank cs) with
        | some cs => goOn fuel stack cs
        | none => (b.enter cs).bind (skipOpen fuel (b :: stack))
      | none => (skipScalar (skipBlank cs)).bind (goOn fuel stack)) := by
  rw [skipOpen]
  cases opens? (skipBlank cs) with
  | none =>
    cases skipScalar (skipBlank cs) with
    | none => rfl
    | some cs => exact bind_resume fuel (skipClosing stack cs)
  | some opened =>
    obtain ⟨b, cs⟩ := opened
    dsimp only
    cases b.close? (skipBlank cs) with
    | none => cases b.enter cs <;> rfl
    | some cs => exact bind_resume fuel (skipClosing stack cs)

theorem skipOpen_blank (h : Blank cs) (fuel : Nat) (stack : List Bracket) (rest : List Char) :
    skipOpen fuel stack (cs ++ rest) = skipOpen fuel stack rest := by
  cases fuel with
  | zero => rfl
  | succ fuel => rw [skipOpen_eq, skipOpen_eq, skipBlank_append h]

theorem goOn_comma (h : Blank cs) (fuel : Nat) (stack : List Bracket) (rest : List Char) :
    goOn fuel (b :: stack) (cs ++ ',' :: rest) = (b.enter rest).bind (skipOpen fuel (b :: stack)) := by
  rw [goOn, skipClosing, skipBlank_append h, skipBlank_cons (by decide)]
  change ((b.enter rest).map fun cs => (b :: stack, cs)).bind (resume fuel) = _
  cases b.enter rest <;> rfl

theorem goOn_closing (h : Blank cs) (fuel : Nat) (stack : List Bracket) (rest : List Char) :
    goOn fuel (b :: stack) (cs ++ b.closing :: rest) = goOn fuel stack rest := by
  rw [goOn, skipClosing, skipBlank_append h]
  cases b <;> rfl

/-! ## Values without brackets -/

theorem skips_of_skipScalar (hbegins : Begins t) (hopens : ∀ rest, opens? (t ++ rest) = none)
    (h : ∀ rest, Delimits rest → skipScalar (t ++ rest) = some rest) : Skips t := by
  have hlength : 1 ≤ t.length := by
    obtain ⟨c, cs, rfl, -⟩ := hbegins
    exact Nat.le_add_left 1 cs.length
  refine ⟨1, hlength, fun fuel stack rest hrest => ?_⟩
  rw [skipOpen_eq, hbegins.skipBlank, hopens, h rest hrest]
  rfl

theorem skips_number (h : IsNumber t) : Skips t := by
  have hread (rest : List Char) (hrest : Delimits rest) := Numeral.read_number h hrest
  have hbegins := h.begins
  obtain ⟨c, cs, rfl, hc⟩ := h.eq_cons
  have hne (x : Char) (hminus : x ≠ '-') (hdigit : x.isDigit = false) : c ≠ x := ne_of_numeric hc hminus hdigit
  refine skips_of_skipScalar hbegins (fun rest => ?_) fun rest hrest => ?_
  · rw [List.cons_append, opens?] <;> simp [hne]
  · obtain ⟨l, hl⟩ := hread rest hrest
    rw [List.cons_append] at hl ⊢
    rw [skipScalar, hl] <;> simp [hne]

theorem skips_text (h : IsText t) : Skips t := by
  have hbegins := h.begins
  obtain ⟨body, hbody, rfl⟩ := h
  refine skips_of_skipScalar hbegins (fun _ => rfl) fun rest _ => ?_
  rw [List.cons_append, List.append_assoc]
  exact skipText_body hbody rest

/-! ## Values with brackets -/

theorem leads_item {p : Padded} (h : Begins p.text) : Leads .list p.chars p where
  enter _ := rfl
  begins rest := by rw [p.skipBlank_chars, h.skipBlank, h.close?_eq_none]
  length_le := by simp [Padded.chars]; omega

theorem skipKey_field {f : Padded × Padded} (h : IsText f.1.text) (rest : List Char) :
    skipKey (Padded.fieldChars f ++ rest) = some (f.2.chars ++ rest) := by
  have hskip := h.begins.skipBlank
  obtain ⟨body, hbody, htext⟩ := h
  rw [Padded.fieldChars, List.append_assoc, skipKey, f.1.skipBlank_chars, hskip, htext, List.cons_append,
    List.append_assoc]
  change (skipText (body ++ '"' :: (f.1.after ++ ':' :: (f.2.chars ++ rest)))).bind _ = _
  rw [skipText_body hbody, Option.bind_some, skipBlank_append f.1.blank_after]
  rfl

theorem leads_field {f : Padded × Padded} (h : IsText f.1.text) : Leads .object (Padded.fieldChars f) f.2 where
  enter := skipKey_field h
  begins rest := by
    rw [Padded.fieldChars, List.append_assoc, f.1.skipBlank_chars, h.begins.skipBlank, h.begins.close?_eq_none]
  length_le := by simp [Padded.fieldChars, Padded.chars]; omega

theorem enter_blank (h : Blank cs) (b : Bracket) (fuel : Nat) (stack : List Bracket) (rest : List Char) :
    (b.enter (cs ++ rest)).bind (skipOpen fuel stack) = (b.enter rest).bind (skipOpen fuel stack) := by
  cases b with
  | list => exact skipOpen_blank h fuel stack rest
  | object => rw [Bracket.enter, Bracket.enter, skipKey, skipKey, skipBlank_append h]

section Parts

variable {α : Type} {text : α → List Char} {value : α → Padded}

/-- What follows a part inside a bracket is what follows its value. -/
theorem skips_part {a : α} (hlead : Leads b (text a) (value a)) (h : Skips (value a).text) : ∃ n, n ≤ (text a).length ∧
    ∀ fuel stack rest, Delimits rest →
      (b.enter (text a ++ rest)).bind (skipOpen (fuel + n) stack) = goOn fuel stack ((value a).after ++ rest) := by
  obtain ⟨n, hn, hskip⟩ := h
  refine ⟨n, hn.trans hlead.length_le, fun fuel stack rest hrest => ?_⟩
  rw [hlead.enter, Padded.chars, List.append_assoc, List.append_assoc]
  exact (skipOpen_blank (value a).blank_before _ _ _).trans
    (hskip fuel stack _ (delimits_append (value a).blank_after hrest))

/-- Parts with commas between them are passed over up to what closes their bracket. -/
theorem skips_joined {a : α} {as : List α} (hlead : ∀ x ∈ a :: as, Leads b (text x) (value x))
    (h : ∀ x ∈ a :: as, Skips (value x).text) : ∃ n, n ≤ (joined text (a :: as)).length ∧ ∀ fuel stack rest,
      (b.enter (joined text (a :: as) ++ b.closing :: rest)).bind (skipOpen (fuel + n) (b :: stack)) =
        goOn fuel stack rest := by
  obtain ⟨n, hn, hpart⟩ := skips_part (hlead a List.mem_cons_self) (h a List.mem_cons_self)
  induction as generalizing a n with
  | nil =>
    refine ⟨n, hn, fun fuel stack rest => ?_⟩
    rw [joined, hpart fuel _ _ (b.delimits_closing rest), goOn_closing (value a).blank_after]
  | cons a' as ih =>
    obtain ⟨n', hn', hpart'⟩ := skips_part (hlead a' (by simp)) (h a' (by simp))
    obtain ⟨m, hm, hmore⟩ := ih (fun x hx => hlead x (List.mem_cons_of_mem _ hx))
      (fun x hx => h x (List.mem_cons_of_mem _ hx)) n' hn' hpart'
    refine ⟨m + n, ?_, fun fuel stack rest => ?_⟩
    · rw [joined, List.length_append, List.length_cons]
      omega
    · rw [joined, List.append_assoc, List.cons_append, ← Nat.add_assoc,
        hpart _ _ _ (delimits_cons (.inl rfl) _), goOn_comma (value a).blank_after, hmore]

/-- What stands in brackets is passed over if each part of it leads to a value that is. -/
theorem skips_of_encloses {as : List α} (ht : Encloses b.opening b.closing text as t)
    (hlead : ∀ x ∈ as, Leads b (text x) (value x)) (h : ∀ x ∈ as, Skips (value x).text) : Skips t := by
  obtain ⟨pad, hpad, rfl⟩ := ht
  cases as with
  | nil =>
    refine ⟨1, by simp, fun fuel stack rest _ => ?_⟩
    simp [skipOpen_eq, joined, skipBlank_append hpad]
  | cons a as =>
    obtain ⟨n, hn, hskip⟩ := skips_joined hlead h
    refine ⟨n + 1, by simp; omega, fun fuel stack rest _ => ?_⟩
    have hclose : b.close? (skipBlank (joined text (a :: as) ++ b.closing :: rest)) = none := by
      cases as with
      | nil => exact (hlead a List.mem_cons_self).begins _
      | cons a' as =>
        rw [joined, List.append_assoc]
        exact (hlead a List.mem_cons_self).begins _
    rw [← Nat.add_assoc, List.cons_append, List.append_assoc, List.append_assoc, List.singleton_append, skipOpen_eq,
      b.skipBlank_opening, b.opens?_opening]
    simp only [skipBlank_append hpad, hclose]
    rw [enter_blank hpad, hskip]

end Parts

/-- Any value is passed over, whatever is open around it. -/
theorem IsValue.skips (h : IsValue t) : Skips t := by
  induction h with
  | null => exact skips_of_skipScalar IsValue.null.begins (fun _ => rfl) fun _ _ => rfl
  | true => exact skips_of_skipScalar IsValue.true.begins (fun _ => rfl) fun _ _ => rfl
  | false => exact skips_of_skipScalar IsValue.false.begins (fun _ => rfl) fun _ _ => rfl
  | number h => exact skips_number h
  | text h => exact skips_text h
  | @list t items ht h ih =>
    have hbrackets : Encloses (Bracket.opening .list) (Bracket.closing .list) Padded.chars items t := ht
    exact skips_of_encloses hbrackets (fun i hi => leads_item (h i hi).begins) ih
  | @object t fields ht hkeys _ ih =>
    have hbrackets : Encloses (Bracket.opening .object) (Bracket.closing .object) Padded.fieldChars fields t := ht
    exact skips_of_encloses hbrackets (fun f hf => leads_field (hkeys f hf)) ih

/-- After a value comes what follows it. -/
theorem skipValue_padded {p : Padded} (h : IsValue p.text) (hrest : Delimits rest) :
    skipValue (p.chars ++ rest) = some (p.after ++ rest) := by
  obtain ⟨n, hn, hskip⟩ := h.skips
  have hfuel : (p.chars ++ rest).length + 1 = (p.chars ++ rest).length + 1 - n + n := by
    simp only [Padded.chars, List.length_append]
    omega
  rw [skipValue, hfuel, Padded.chars, List.append_assoc, List.append_assoc, skipOpen_blank p.blank_before,
    hskip _ _ _ (delimits_append p.blank_after hrest)]
  rfl

end RemoteCall.Json
