import Mathlib.Algebra.Group.Nat.Defs
import RemoteCall.Text.Utf8

/-!
# Octets that are a text

The reader of texts takes exactly the octets that some text has.

* `trail`: all octets of a character but the first.
* `scan_trail` and `trail_of_scan`: what is read from inside a character on.
* `scan_char` and `char_of_scan`: the same for a whole character.
* `text_eq_ok_iff`: a text is read from its own octets and from no others.
-/

namespace RemoteCall.Utf8

section Defs

/-- The last octets of a character with some value, six bits in each. -/
def trail : (count value : Nat) → Bytes
  | 0, _ => []
  | count + 1, value => UInt8.ofNat (value / 64 ^ count % 64 + 0x80) :: trail count value

/-- The octet that comes next of a character with some value is in the range that is open for it. -/
def Sequence.Admits (q : Sequence) (value : Nat) : Prop :=
  value / 64 ^ q.missing = q.value ∧ q.low ≤ value / 64 ^ (q.missing - 1) % 64 + 0x80 ∧
    value / 64 ^ (q.missing - 1) % 64 + 0x80 ≤ q.high

end Defs

variable {start : Nat} {chars cs : List Char} {b : UInt8} {bs : Bytes} {q : Sequence} {v : Nat}

/-! ## One octet -/

theorem scan_single (h : b.toNat < 0x80) :
    scan start none chars (b :: bs) = scan (start + 1) none (Char.ofNat b.toNat :: chars) bs := by
  simp [scan, h]

theorem scan_lead (h : ¬ b.toNat < 0x80) (hq : Sequence.ofLead? b.toNat = some q) :
    scan start none chars (b :: bs) = scan start (some q) chars bs := by
  simp [scan, h, hq]

theorem scan_last (hlow : q.low ≤ b.toNat) (hhigh : b.toNat ≤ q.high) (hm : q.missing = 1) :
    scan start (some q) chars (b :: bs) =
      scan (start + q.taken + 1) none (Char.ofNat (64 * q.value + (b.toNat - 0x80)) :: chars) bs := by
  simp [scan, hlow, hhigh, hm]

theorem scan_inner (hlow : q.low ≤ b.toNat) (hhigh : b.toNat ≤ q.high) (hm : q.missing ≠ 1) :
    scan start (some q) chars (b :: bs) = scan start
      (some ⟨q.taken + 1, 64 * q.value + (b.toNat - 0x80), q.missing - 1, 0x80, 0xBF⟩) chars bs := by
  simp [scan, hlow, hhigh, hm]

/-- Inside a character only an octet in range is read on from. -/
theorem inRange_of_scan (h : scan start (some q) chars bs = .ok cs) :
    ∃ b rest, bs = b :: rest ∧ q.low ≤ b.toNat ∧ b.toNat ≤ q.high := by
  cases bs with
  | nil => simp [scan] at h
  | cons b rest =>
    by_cases hr : q.low ≤ b.toNat ∧ b.toNat ≤ q.high
    · exact ⟨b, rest, rfl, hr.1, hr.2⟩
    · simp [scan, hr] at h

/-! ## From inside a character -/

theorem toNat_trail (v m : Nat) : (UInt8.ofNat (v / 64 ^ m % 64 + 0x80)).toNat = v / 64 ^ m % 64 + 0x80 := by
  have : v / 64 ^ m % 64 < 64 := Nat.mod_lt _ (by decide)
  rw [UInt8.toNat_ofNat', Nat.mod_eq_of_lt (by omega)]

@[simp] theorem length_trail (m v : Nat) : (trail m v).length = m := by
  induction m with
  | zero => rfl
  | succ m ih => rw [trail, List.length_cons, ih]

theorem div_pow_succ (v m : Nat) : v / 64 ^ m = 64 * (v / 64 ^ (m + 1)) + v / 64 ^ m % 64 := by
  rw [Nat.pow_succ, ← Nat.div_div_eq_div_mul]
  omega

theorem Sequence.Admits.step {m : Nat} (hm : q.missing = m + 1) (hv : q.Admits v) :
    q.low ≤ v / 64 ^ m % 64 + 0x80 ∧ v / 64 ^ m % 64 + 0x80 ≤ q.high ∧
      64 * q.value + (v / 64 ^ m % 64 + 0x80 - 0x80) = v / 64 ^ m := by
  obtain ⟨hvalue, hlow, hhigh⟩ := hv
  rw [hm] at hvalue hlow hhigh
  rw [Nat.add_sub_cancel] at hlow hhigh
  refine ⟨hlow, hhigh, ?_⟩
  rw [← hvalue, Nat.add_sub_cancel, ← div_pow_succ]

/-- The octets that are missing of a character are read to its end. -/
theorem scan_trail (m : Nat) (hm : q.missing = m + 1) (hv : q.Admits v) :
    scan start (some q) chars (trail (m + 1) v ++ bs) =
      scan (start + q.taken + (m + 1)) none (Char.ofNat v :: chars) bs := by
  induction m generalizing q with
  | zero =>
    obtain ⟨hlow, hhigh, hnext⟩ := hv.step hm
    rw [trail, trail, List.cons_append, List.nil_append]
    rw [← toNat_trail] at hlow hhigh hnext
    rw [scan_last hlow hhigh hm, hnext, Nat.pow_zero, Nat.div_one]
  | succ m ih =>
    obtain ⟨hlow, hhigh, hnext⟩ := hv.step hm
    rw [trail, List.cons_append]
    rw [← toNat_trail] at hlow hhigh hnext
    have hmod : v / 64 ^ m % 64 < 64 := Nat.mod_lt _ (by decide)
    have hadmits : Sequence.Admits ⟨q.taken + 1, v / 64 ^ (m + 1), m + 1, 0x80, 0xBF⟩ v := by
      refine ⟨rfl, ?_, ?_⟩
      · exact Nat.le_add_left _ _
      · show v / 64 ^ m % 64 + 0x80 ≤ 0xBF
        omega
    rw [scan_inner hlow hhigh (by omega), hnext, hm, Nat.add_sub_cancel, ih rfl hadmits]
    simp only [Nat.add_assoc, Nat.add_comm 1]

/-- What is read on from inside a character is the rest of one. -/
theorem trail_of_scan (m : Nat) (hm : q.missing = m + 1) (hlow : 0x80 ≤ q.low) (hhigh : q.high ≤ 0xBF)
    (h : scan start (some q) chars bs = .ok cs) :
    ∃ v rest, bs = trail (m + 1) v ++ rest ∧ q.Admits v ∧
      scan (start + q.taken + (m + 1)) none (Char.ofNat v :: chars) rest = .ok cs := by
  obtain ⟨b, bs, rfl, hb, hb'⟩ := inRange_of_scan h
  induction m generalizing q start b bs with
  | zero =>
    rw [scan_last hb hb' hm] at h
    have hlast : (64 * q.value + (b.toNat - 0x80)) / 64 ^ 0 % 64 + 0x80 = b.toNat := by omega
    refine ⟨64 * q.value + (b.toNat - 0x80), bs, ?_, ⟨?_, ?_⟩, h⟩
    · rw [trail, trail, hlast, UInt8.ofNat_toNat]
      rfl
    · rw [hm]
      omega
    · rw [hm, Nat.add_sub_cancel, hlast]
      exact ⟨hb, hb'⟩
  | succ m ih =>
    rw [scan_inner hb hb' (by omega)] at h
    obtain ⟨c, bs', rfl, hc, hc'⟩ := inRange_of_scan h
    obtain ⟨v, rest, hrest, ⟨hvalue, -, -⟩, hscan⟩ := ih (by simp [hm]) (by simp) (by simp) c bs' h hc hc'
    simp only [hm, Nat.add_sub_cancel] at hvalue
    refine ⟨v, rest, ?_, ?_, ?_⟩
    · have hfirst : v / 64 ^ (m + 1) % 64 + 0x80 = b.toNat := by omega
      rw [trail, List.cons_append, hfirst, UInt8.ofNat_toNat, hrest]
    · have hdiv := div_pow_succ v (m + 1)
      refine ⟨?_, ?_, ?_⟩ <;> rw [hm]
      · omega
      · rw [Nat.add_sub_cancel]
        omega
      · rw [Nat.add_sub_cancel]
        omega
    · rw [← hscan]
      congr 1
      simp only
      omega

/-! ## Whole characters -/

theorem utf8EncodeChar_of_single {c : Char} (h : c.toNat < 0x80) :
    String.utf8EncodeChar c = [UInt8.ofNat c.toNat] := by
  have hle : c.val.toNat ≤ 0x7f := Nat.le_of_lt_succ h
  simp only [String.utf8EncodeChar, if_pos hle]
  rfl

/-- The octets of a character by its value: the first tells how many follow. -/
theorem utf8EncodeChar_of_more {c : Char} (h : 0x80 ≤ c.toNat) :
    String.utf8EncodeChar c =
      if c.toNat < 0x800 then UInt8.ofNat (c.toNat / 64 + 0xC0) :: trail 1 c.toNat
      else if c.toNat < 0x10000 then UInt8.ofNat (c.toNat / 4096 + 0xE0) :: trail 2 c.toNat
      else UInt8.ofNat (c.toNat / 262144 + 0xF0) :: trail 3 c.toNat := by
  have hval : c.val.toNat = c.toNat := rfl
  have hvalid : c.toNat < 0xD800 ∨ 0xDFFF < c.toNat ∧ c.toNat < 0x110000 := c.valid
  simp only [String.utf8EncodeChar, hval, trail, Nat.pow_zero, Nat.div_one, Nat.reducePow]
  rw [if_neg (by omega)]
  by_cases h2 : c.toNat < 0x800
  · rw [if_pos (by omega), if_pos h2, Nat.mod_eq_of_lt (by omega : c.toNat / 64 < 32)]
  · rw [if_neg (by omega), if_neg h2]
    by_cases h3 : c.toNat < 0x10000
    · rw [if_pos (by omega), if_pos h3, Nat.mod_eq_of_lt (by omega : c.toNat / 4096 < 16)]
    · rw [if_neg (by omega), if_neg h3, Nat.mod_eq_of_lt (by omega : c.toNat / 262144 < 8)]

/-- What the first octet opens: of two octets, of three, or of four. -/
theorem ofLead?_eq_some_iff {n : Nat} : Sequence.ofLead? n = some q ↔
    (∃ k, n = k + 0xC0 ∧ 2 ≤ k ∧ k < 0x20 ∧ q = ⟨1, k, 1, 0x80, 0xBF⟩) ∨
    (∃ k, n = k + 0xE0 ∧ k < 0x10 ∧
      q = ⟨1, k, 2, if k = 0 then 0xA0 else 0x80, if k = 13 then 0x9F else 0xBF⟩) ∨
    (∃ k, n = k + 0xF0 ∧ k < 5 ∧
      q = ⟨1, k, 3, if k = 0 then 0x90 else 0x80, if k = 4 then 0x8F else 0xBF⟩) := by
  constructor
  · intro h
    unfold Sequence.ofLead? at h
    split at h
    · cases h
    split at h
    · cases h
      exact .inl ⟨n - 0xC0, by omega, by omega, by omega, rfl⟩
    split at h
    · cases h
      obtain ⟨k, rfl⟩ := Nat.exists_eq_add_of_le' (show 0xE0 ≤ n by omega)
      exact .inr (.inl ⟨k, rfl, by omega, by simp⟩)
    split at h
    · cases h
      obtain ⟨k, rfl⟩ := Nat.exists_eq_add_of_le' (show 0xF0 ≤ n by omega)
      exact .inr (.inr ⟨k, rfl, by omega, by simp⟩)
    · cases h
  · rintro (⟨k, rfl, h2, hk, rfl⟩ | ⟨k, rfl, hk, rfl⟩ | ⟨k, rfl, hk, rfl⟩)
    · rw [Sequence.ofLead?, if_neg (by omega), if_pos (by omega), Nat.add_sub_cancel]
    · rw [Sequence.ofLead?, if_neg (by omega), if_neg (by omega), if_pos (by omega)]
      simp
    · rw [Sequence.ofLead?, if_neg (by omega), if_neg (by omega), if_neg (by omega), if_pos (by omega)]
      simp

/-- What the first octet of a character opens admits that character. -/
theorem lead_of_char {c : Char} (h : 0x80 ≤ c.toNat) : ∃ b q m,
    String.utf8EncodeChar c = b :: trail (m + 1) c.toNat ∧ ¬ b.toNat < 0x80 ∧
      Sequence.ofLead? b.toNat = some q ∧ q.missing = m + 1 ∧ q.taken = 1 ∧ q.Admits c.toNat := by
  have hvalid : c.toNat < 0xD800 ∨ 0xDFFF < c.toNat ∧ c.toNat < 0x110000 := c.valid
  have hbyte (n : Nat) (hn : n < 256) : (UInt8.ofNat n).toNat = n := by
    rw [UInt8.toNat_ofNat', Nat.mod_eq_of_lt hn]
  rw [utf8EncodeChar_of_more h]
  generalize c.toNat = v at *
  by_cases h2 : v < 0x800
  · have hb := hbyte (v / 64 + 0xC0) (by omega)
    refine ⟨_, _, 0, if_pos h2, by omega,
      ofLead?_eq_some_iff.mpr (.inl ⟨v / 64, hb, by omega, by omega, rfl⟩), rfl, rfl, ?_⟩
    simp only [Sequence.Admits, Nat.reduceSub, Nat.reducePow, Nat.div_one, true_and]
    omega
  by_cases h3 : v < 0x10000
  · have hb := hbyte (v / 4096 + 0xE0) (by omega)
    refine ⟨_, _, 1, (if_neg h2).trans (if_pos h3), by omega,
      ofLead?_eq_some_iff.mpr (.inr (.inl ⟨v / 4096, hb, by omega, rfl⟩)), rfl, rfl, ?_⟩
    simp only [Sequence.Admits, Nat.reduceSub, Nat.reducePow, true_and]
    constructor <;> split <;> omega
  · have hb := hbyte (v / 262144 + 0xF0) (by omega)
    refine ⟨_, _, 2, (if_neg h2).trans (if_neg h3), by omega,
      ofLead?_eq_some_iff.mpr (.inr (.inr ⟨v / 262144, hb, by omega, rfl⟩)), rfl, rfl, ?_⟩
    simp only [Sequence.Admits, Nat.reduceSub, Nat.reducePow, true_and]
    constructor <;> split <;> omega

theorem toNat_ofNat_of_valid (h : v < 0xD800 ∨ 0xDFFF < v ∧ v < 0x110000) : (Char.ofNat v).toNat = v := by
  rw [Char.ofNat, dif_pos h]
  rfl

/-- Every value that a first octet admits is the value of a character that begins with it. -/
theorem char_of_lead (hq : Sequence.ofLead? b.toNat = some q) :
    0x80 ≤ q.low ∧ q.high ≤ 0xBF ∧ ∃ m, q.missing = m + 1 ∧
      ∀ v, q.Admits v → String.utf8EncodeChar (Char.ofNat v) = b :: trail (m + 1) v := by
  have hof (n : Nat) (hn : b.toNat = n) : UInt8.ofNat n = b := by rw [← hn, UInt8.ofNat_toNat]
  rcases ofLead?_eq_some_iff.mp hq with ⟨k, hk, h2, hk', rfl⟩ | ⟨k, hk, hk', rfl⟩ | ⟨k, hk, hk', rfl⟩
  · refine ⟨Nat.le_refl _, Nat.le_refl _, 0, rfl, fun v hv => ?_⟩
    simp only [Sequence.Admits, Nat.reduceSub, Nat.reducePow, Nat.div_one] at hv
    have hv' := toNat_ofNat_of_valid (v := v) (by omega)
    rw [utf8EncodeChar_of_more (by omega), hv', if_pos (by omega), hof _ (by omega)]
  · refine ⟨?_, ?_, 1, rfl, fun v ⟨hvalue, hlow, hhigh⟩ => ?_⟩
    · simp only
      split <;> omega
    · simp only
      split <;> omega
    · simp only [Nat.reduceSub, Nat.reducePow] at hvalue hlow hhigh
      -- the second octet leaves out overlong forms and surrogates
      have hmin : 0x800 ≤ v := by split at hlow <;> omega
      have hgap : v < 0xD800 ∨ 0xDFFF < v := by split at hhigh <;> omega
      have hv' := toNat_ofNat_of_valid (v := v) (by omega)
      rw [utf8EncodeChar_of_more (by omega), hv', if_neg (by omega), if_pos (by omega), hof _ (by omega)]
  · refine ⟨?_, ?_, 2, rfl, fun v ⟨hvalue, hlow, hhigh⟩ => ?_⟩
    · simp only
      split <;> omega
    · simp only
      split <;> omega
    · simp only [Nat.reduceSub, Nat.reducePow] at hvalue hlow hhigh
      have hmin : 0x10000 ≤ v := by split at hlow <;> omega
      have hmax : v < 0x110000 := by split at hhigh <;> omega
      have hv' := toNat_ofNat_of_valid (v := v) (by omega)
      rw [utf8EncodeChar_of_more (by omega), hv', if_neg (by omega), if_neg (by omega), hof _ (by omega)]

/-- A character is read from its octets. -/
theorem scan_char (c : Char) : scan start none chars (String.utf8EncodeChar c ++ bs) =
    scan (start + (String.utf8EncodeChar c).length) none (c :: chars) bs := by
  by_cases h : c.toNat < 0x80
  · have hb : (UInt8.ofNat c.toNat).toNat = c.toNat := by
      rw [UInt8.toNat_ofNat', Nat.mod_eq_of_lt (by omega)]
    rw [utf8EncodeChar_of_single h, List.singleton_append, scan_single (by rw [hb]; exact h), hb, Char.ofNat_toNat]
    rfl
  · obtain ⟨b, q, m, heq, hb, hq, hm, ht, hv⟩ := lead_of_char (Nat.le_of_not_lt h)
    rw [heq, List.cons_append, scan_lead hb hq, scan_trail m hm hv, ht, Char.ofNat_toNat, List.length_cons,
      length_trail]
    congr 1
    omega

/-- What is read on from between characters begins with one. -/
theorem char_of_scan (h : scan start none chars (b :: bs) = .ok cs) :
    ∃ c rest n, b :: bs = String.utf8EncodeChar c ++ rest ∧ scan n none (c :: chars) rest = .ok cs := by
  by_cases hb : b.toNat < 0x80
  · have hc : (Char.ofNat b.toNat).toNat = b.toNat := toNat_ofNat_of_valid (by omega)
    rw [scan_single hb] at h
    refine ⟨_, bs, _, ?_, h⟩
    rw [utf8EncodeChar_of_single (by rw [hc]; exact hb), hc, UInt8.ofNat_toNat]
    rfl
  · cases hq : Sequence.ofLead? b.toNat with
    | none => simp [scan, hb, hq] at h
    | some q =>
      obtain ⟨hlow, hhigh, m, hm, hchar⟩ := char_of_lead hq
      rw [scan_lead hb hq] at h
      obtain ⟨v, rest, rfl, hv, hscan⟩ := trail_of_scan m hm hlow hhigh h
      exact ⟨_, rest, _, by rw [hchar v hv]; rfl, hscan⟩

/-! ## Texts -/

theorem scan_chars (text : List Char) :
    scan start none chars (text.flatMap String.utf8EncodeChar) = .ok (chars.reverse ++ text) := by
  induction text generalizing start chars with
  | nil => simp [scan]
  | cons c text ih =>
    rw [List.flatMap_cons, scan_char, ih, List.reverse_cons, List.append_assoc, List.singleton_append]

theorem chars_of_scan (h : scan start none chars bs = .ok cs) :
    ∃ text, bs = text.flatMap String.utf8EncodeChar ∧ cs = chars.reverse ++ text := by
  induction hn : bs.length using Nat.strongRecOn generalizing bs start chars with
  | _ n ih =>
    cases bs with
    | nil =>
      simp only [scan, Except.ok.injEq] at h
      exact ⟨[], rfl, by rw [List.append_nil, h]⟩
    | cons b bs =>
      obtain ⟨c, rest, next, heq, hscan⟩ := char_of_scan h
      have hpos : 0 < (String.utf8EncodeChar c).length := by
        rw [String.length_utf8EncodeChar]
        exact c.utf8Size_pos
      have hshort : rest.length < n := by
        rw [← hn, heq, List.length_append]
        omega
      obtain ⟨text, rfl, rfl⟩ := ih rest.length hshort hscan rfl
      exact ⟨c :: text, by rw [heq, List.flatMap_cons], by simp⟩

/-- **A text is read from its own octets and from no others.** -/
theorem text_eq_ok_iff {s : String} : text bs = .ok s ↔ bs = octets s := by
  rw [octets_eq_flatMap]
  constructor
  · intro h
    unfold text at h
    cases hs : scan 0 none [] bs with
    | error e => simp [hs, Except.map] at h
    | ok cs =>
      rw [hs] at h
      obtain ⟨t, rfl, rfl⟩ := chars_of_scan hs
      rw [← Except.ok.inj h]
      simp
  · rintro rfl
    rw [text, scan_chars]
    simp [Except.map]

end RemoteCall.Utf8
