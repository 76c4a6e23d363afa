import RemoteCall.Json.Number
import RemoteCall.Text.Utf8

/-!
# Reading JSON text

A strict reader. How deep lists and objects may still stand inside each other is the number on
which it recurses, so that a text nested deeper than the limit is refused.
-/

namespace RemoteCall.Json

/-- The four characters that may stand between the parts of a text. -/
def isBlank (c : Char) : Bool := c = ' ' ∨ c = '\t' ∨ c = '\n' ∨ c = '\r'

/-- The text after its blanks. -/
def skipBlank (cs : List Char) : List Char := cs.dropWhile isBlank

/-! ### Text between quotes -/

/-- The value of a digit of an escape. -/
def hexValue? (c : Char) : Option Nat :=
  if '0' ≤ c ∧ c ≤ '9' then some (c.toNat - '0'.toNat)
  else if 'a' ≤ c ∧ c ≤ 'f' then some (c.toNat - 'a'.toNat + 10)
  else if 'A' ≤ c ∧ c ≤ 'F' then some (c.toNat - 'A'.toNat + 10)
  else none

/-- The number of four digits. -/
def hexQuad? (a b c d : Char) : Option Nat := do
  let a ← hexValue? a
  let b ← hexValue? b
  let c ← hexValue? c
  let d ← hexValue? d
  return 4096 * a + 256 * b + 16 * c + d

/-- The character that follows a backslash as itself or by its letter. -/
def unescape? : Char → Option Char
  | '"' => some '"'
  | '\\' => some '\\'
  | '/' => some '/'
  | 'b' => some '\x08'
  | 'f' => some '\x0c'
  | 'n' => some '\n'
  | 'r' => some '\r'
  | 't' => some '\t'
  | _ => none

/-- Whether a number is the first half of a pair. -/
def isHighHalf (n : Nat) : Bool := 0xD800 ≤ n ∧ n < 0xDC00

/-- Whether a number is the second half of a pair. -/
def isLowHalf (n : Nat) : Bool := 0xDC00 ≤ n ∧ n < 0xE000

/-- The character of a pair. -/
def pairChar (high low : Nat) : Char :=
  Char.ofNat (0x10000 + 1024 * (high - 0xD800) + (low - 0xDC00))

/-- The rest of a text up to its closing quote, after the characters in `acc` (the last one first). -/
def readText (acc : List Char) : List Char → Option (String × List Char)
  | [] => none
  | '"' :: cs => some (String.ofList acc.reverse, cs)
  | '\\' :: 'u' :: a :: b :: c :: d :: '\\' :: 'u' :: e :: f :: g :: h :: cs =>
    match hexQuad? a b c d with
    | none => none
    | some n =>
      if isLowHalf n then none
      else if isHighHalf n then
        match hexQuad? e f g h with
        | none => none
        | some m => if isLowHalf m then readText (pairChar n m :: acc) cs else none
      else readText (Char.ofNat n :: acc) ('\\' :: 'u' :: e :: f :: g :: h :: cs)
  | '\\' :: 'u' :: a :: b :: c :: d :: cs =>
    match hexQuad? a b c d with
    | none => none
    | some n =>
      if isLowHalf n ∨ isHighHalf n then none else readText (Char.ofNat n :: acc) cs
  | '\\' :: c :: cs =>
    match unescape? c with
    | none => none
    | some x => readText (x :: acc) cs
  | c :: cs => if c.toNat < 0x20 then none else readText (c :: acc) cs

/-! ### Values -/

/-- Reading a part off the front of a text. -/
abbrev Part (α : Type) := List Char → Option (α × List Char)

/-- The parts up to `close` after at least one more, with commas between them; `fuel` bounds their number. -/
def readMore {α : Type} (part : Part α) (close : Char) :
    (fuel : Nat) → (acc : List α) → Part (List α)
  | 0, _, _ => none
  | fuel + 1, acc, cs =>
    match part cs with
    | none => none
    | some (a, cs) =>
      match skipBlank cs with
      | [] => none
      | c :: cs =>
        if c = ',' then readMore part close fuel (a :: acc) cs
        else if c = close then some ((a :: acc).reverse, cs)
        else none

/-- The parts up to `close`. -/
def readUpTo {α : Type} (part : Part α) (close : Char) : Part (List α) := fun cs =>
  match skipBlank cs with
  | [] => none
  | c :: rest =>
    if c = close then some ([], rest) else readMore part close (rest.length + 1) [] (c :: rest)

/-- A key, a colon and a value. -/
def readField {α : Type} (part : Part α) : Part (String × α) := fun cs =>
  match skipBlank cs with
  | '"' :: cs => do
    let (key, cs) ← readText [] cs
    match skipBlank cs with
    | ':' :: cs => do
      let (value, cs) ← part cs
      return ((key, value), cs)
    | _ => none
  | _ => none

/-- A value that is neither a list nor an object. -/
def readScalar : Part Json
  | 'n' :: 'u' :: 'l' :: 'l' :: cs => some (null, cs)
  | 't' :: 'r' :: 'u' :: 'e' :: cs => some (bool true, cs)
  | 'f' :: 'a' :: 'l' :: 's' :: 'e' :: cs => some (bool false, cs)
  | '"' :: cs => do
    let (s, cs) ← readText [] cs
    return (text s, cs)
  | cs => do
    let (numeral, cs) ← Numeral.read cs
    let v ← numeral.value?
    return (v, cs)

/-- A value with at most `depth` lists and objects inside each other, after blanks. -/
def readValue : (depth : Nat) → Part Json
  | 0 => fun cs => readScalar (skipBlank cs)
  | depth + 1 => fun cs =>
    match skipBlank cs with
    | '[' :: cs => do
      let (items, cs) ← readUpTo (readValue depth) ']' cs
      return (list items, cs)
    | '\x7b' :: cs => do
      let (fields, cs) ← readUpTo (readField (readValue depth)) '\x7d' cs
      return (ofFields fields, cs)
    | cs => readScalar cs

/-- The most lists and objects that may stand inside each other. -/
def maxDepth : Nat := 127

/-- The value of a text, which holds nothing else. -/
def parse (cs : List Char) : Option Json :=
  match readValue maxDepth cs with
  | none => none
  | some (v, rest) => if skipBlank rest = [] then some v else none

/-- The value of octets. -/
def ofBytes? (bs : Bytes) : Option Json :=
  match Utf8.text bs with
  | .ok s => parse s.toList
  | .error _ => none

/-- The octets of a value. -/
def bytes (v : Json) : Bytes := Utf8.octets v.print

end RemoteCall.Json
