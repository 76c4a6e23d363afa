import RemoteCall.Packet

/-!
# Text as octets

The octets of a text, and the text of octets with the first fault of those that are no text.
Main statement: `octets_eq_flatMap`, the octets of a text are those of its characters one after
the other.
-/

namespace RemoteCall.Utf8

/-- The octets of a text. -/
def octets (s : String) : Bytes := s.toByteArray.data.toList

theorem octets_eq_flatMap (s : String) :
    octets s = s.toList.flatMap String.utf8EncodeChar := by
  have h : s.toByteArray = s.toList.utf8Encode := by
    rw [← String.toByteArray_ofList, String.ofList_toList]
  simp [octets, h, List.utf8Encode]

@[simp] theorem octets_empty : octets "" = [] := rfl

@[simp] theorem length_octets (s : String) : (octets s).length = s.utf8ByteSize := rfl

theorem octets_injective {s t : String} (h : octets s = octets t) : s = t := by
  apply String.toByteArray_inj.mp
  apply ByteArray.ext
  simpa [octets] using h

/-- Where octets stop being text: `start` of them are good. The sequence that begins there has
`length` octets that could still have begun a character, or none is given because the octets end
inside a sequence that was good so far. -/
structure Fault where
  start : Nat
  length : Option Nat
  deriving DecidableEq, Repr

/-- A character of which `taken` octets have been read: their value, how many are still
missing, and the range in which the next one has to be. -/
structure Sequence where
  taken : Nat
  value : Nat
  missing : Nat
  low : Nat
  high : Nat
  deriving DecidableEq, Repr

/-- What an octet from 0x80 on begins. The ranges of the second octet leave out overlong forms,
surrogates and values above 0x10FFFF. -/
def Sequence.ofLead? (b : Nat) : Option Sequence :=
  if b < 0xC2 then none
  else if b < 0xE0 then some ⟨1, b - 0xC0, 1, 0x80, 0xBF⟩
  else if b < 0xF0 then
    some ⟨1, b - 0xE0, 2, if b = 0xE0 then 0xA0 else 0x80, if b = 0xED then 0x9F else 0xBF⟩
  else if b < 0xF5 then
    some ⟨1, b - 0xF0, 3, if b = 0xF0 then 0x90 else 0x80, if b = 0xF4 then 0x8F else 0xBF⟩
  else none

/-- Reads on at a character that starts at `start` and of which `open?` has been read, with the
characters before it in reverse. -/
def scan (start : Nat) (open? : Option Sequence) (chars : List Char) :
    Bytes → Except Fault (List Char)
  | [] =>
    match open? with
    | none => .ok chars.reverse
    | some _ => .error ⟨start, none⟩
  | b :: bs =>
    match open? with
    | none =>
      if b.toNat < 0x80 then scan (start + 1) none (Char.ofNat b.toNat :: chars) bs
      else
        match Sequence.ofLead? b.toNat with
        | none => .error ⟨start, some 1⟩
        | some q => scan start (some q) chars bs
    | some q =>
      if q.low ≤ b.toNat ∧ b.toNat ≤ q.high then
        let value := 64 * q.value + (b.toNat - 0x80)
        if q.missing = 1 then
          scan (start + q.taken + 1) none (Char.ofNat value :: chars) bs
        else scan start (some ⟨q.taken + 1, value, q.missing - 1, 0x80, 0xBF⟩) chars bs
      else .error ⟨start, some q.taken⟩

/-- The text of octets, or the first fault. -/
def text (bs : Bytes) : Except Fault String := (scan 0 none [] bs).map String.ofList

@[simp] theorem text_nil : text [] = .ok "" := rfl

end RemoteCall.Utf8
