import RemoteCall.Decimal.Shortest
import RemoteCall.Dictionary

/-!
# JSON values and their text

Values as they are kept: whole numbers of 64 bits exactly, all others as floats, and objects with their
keys in ascending order. Their text has no blanks and escapes only what it has to.
-/

namespace RemoteCall

/-- The whole numbers that are kept exactly: those of 64 bits, with or without a sign. -/
structure Whole where
  val : Int
  low : -9223372036854775808 ≤ val
  high : val < 18446744073709551616
  deriving DecidableEq, Repr

namespace Whole

/-- The whole number `i`, if it is kept exactly. -/
def ofInt? (i : Int) : Option Whole :=
  if h : -9223372036854775808 ≤ i ∧ i < 18446744073709551616 then some ⟨i, h.1, h.2⟩ else none

/-- An octet as a whole number. -/
def ofByte (b : UInt8) : Whole :=
  ⟨b.toNat, by omega, by have := b.toNat_lt; omega⟩

/-- A word as a whole number. -/
def ofUInt64 (n : UInt64) : Whole :=
  ⟨n.toNat, by omega, by have := n.toNat_lt; omega⟩

/-- A signed word as a whole number. -/
def ofInt64 (n : Int64) : Whole :=
  ⟨n.toInt, n.le_toInt, by have := n.toInt_lt; omega⟩

theorem ofInt?_val (w : Whole) : ofInt? w.val = some w := by
  rw [ofInt?, dif_pos ⟨w.low, w.high⟩]

end Whole

/-- A JSON value. The fields of an object are meant to be in ascending order of their keys, as
`Json.ofFields` leaves them. -/
inductive Json where
  | null
  | bool (b : Bool)
  | whole (n : Whole)
  | float (x : Float)
  | text (s : String)
  | list (items : List Json)
  | object (fields : List (String × Json))
  deriving Repr, Inhabited

namespace Json

/-- The object of fields in any order; the last of equal keys counts. -/
def ofFields (fields : List (String × Json)) : Json := object (Dictionary.ofPairs fields)

/-- The value of a field. -/
def field? (key : String) : Json → Option Json
  | object fields => fields.lookup key
  | _ => none

/-! ### Text -/

/-- The sixteen digits of an escape. -/
def hexDigit (n : Nat) : Char := Nat.digitChar (n % 16)

/-- A character inside a text. -/
def escapeChar (c : Char) : List Char :=
  match c with
  | '"' => ['\\', '"']
  | '\\' => ['\\', '\\']
  | '\x08' => ['\\', 'b']
  | '\x0c' => ['\\', 'f']
  | '\n' => ['\\', 'n']
  | '\r' => ['\\', 'r']
  | '\t' => ['\\', 't']
  | c =>
    if c.toNat < 0x20 then ['\\', 'u', '0', '0', hexDigit (c.toNat / 16), hexDigit c.toNat]
    else [c]

/-- A text between quotes. -/
def quote (s : String) : List Char := '"' :: s.toList.flatMap escapeChar ++ ['"']

/-- Digits with a point from 0.00001 up to below 10 ^ 16. -/
def floatLayout : Decimal.Layout := ⟨-5, 16⟩

/-- A finite float: the fewest digits that read back. -/
def floatText (x : Float) : List Char :=
  let bits := x.toBits.toNat
  let sign := if bits < Nat.pow 2 63 then [] else ['-']
  let rest := bits % Nat.pow 2 63
  sign ++ (if rest = 0 then ['0', '.', '0']
    else floatLayout.text (Decimal.shortest (.ofBits rest)))

/-- A whole number in digits. -/
def wholeText (n : Int) : List Char :=
  if n < 0 then '-' :: Nat.toDigits 10 n.natAbs else Nat.toDigits 10 n.natAbs

mutual

/-- The text of a value. -/
def chars : Json → List Char
  | null => ['n', 'u', 'l', 'l']
  | bool true => ['t', 'r', 'u', 'e']
  | bool false => ['f', 'a', 'l', 's', 'e']
  | whole n => wholeText n.val
  | float x => floatText x
  | text s => quote s
  | list items => '[' :: itemsChars items ++ [']']
  | object fields => '\x7b' :: fieldsChars fields ++ ['\x7d']

/-- The items of a list with commas between them. -/
def itemsChars : List Json → List Char
  | [] => []
  | [v] => chars v
  | v :: w :: rest => chars v ++ ',' :: itemsChars (w :: rest)

/-- The fields of an object with commas between them. -/
def fieldsChars : List (String × Json) → List Char
  | [] => []
  | [(k, v)] => quote k ++ ':' :: chars v
  | (k, v) :: f :: rest => quote k ++ ':' :: chars v ++ ',' :: fieldsChars (f :: rest)

end

/-- The text of a value as one string. -/
def print (v : Json) : String := String.ofList (chars v)

mutual

/-- How many lists and objects stand inside each other at most. -/
def depth : Json → Nat
  | list items => 1 + itemsDepth items
  | object fields => 1 + fieldsDepth fields
  | _ => 0

/-- The greatest depth of the items of a list. -/
def itemsDepth : List Json → Nat
  | [] => 0
  | v :: rest => max (depth v) (itemsDepth rest)

/-- The greatest depth of the values of an object. -/
def fieldsDepth : List (String × Json) → Nat
  | [] => 0
  | (_, v) :: rest => max (depth v) (fieldsDepth rest)

end

end Json

end RemoteCall
