import RemoteCall.Toml.Value

/-!
# TOML numbers, dates, times and text

Each reader takes one value off the front of a text, or refuses the text.
-/

namespace RemoteCall.Toml

/-- Reading a part off the front of a text. -/
abbrev Part (α : Type) := List Char → Option (α × List Char)

/-! ### Digits -/

def isBinDigit (c : Char) : Bool := c = '0' ∨ c = '1'

def isOctDigit (c : Char) : Bool := '0' ≤ c ∧ c ≤ '7'

def isHexDigit (c : Char) : Bool :=
  c.isDigit ∨ ('a' ≤ c ∧ c ≤ 'f') ∨ ('A' ≤ c ∧ c ≤ 'F')

/-- The value of a digit in any base up to sixteen. -/
def digitValue (c : Char) : Nat :=
  if c.isDigit then c.toNat - '0'.toNat
  else if 'a' ≤ c ∧ c ≤ 'f' then c.toNat - 'a'.toNat + 10
  else c.toNat - 'A'.toNat + 10

/-- The number that digits stand for in a base. -/
def numberIn (base : Nat) (digits : List Char) : Nat :=
  digits.foldl (fun n c => base * n + digitValue c) 0

/-- The digits after a first one. An underscore has a digit on both sides. -/
def moreDigits (ok : Char → Bool) : Part (List Char)
  | '_' :: c :: cs =>
    if ok c then (moreDigits ok cs).map fun r => (c :: r.1, r.2) else none
  | c :: cs =>
    if ok c then (moreDigits ok cs).map fun r => (c :: r.1, r.2)
    else if c = '_' then none else some ([], c :: cs)
  | [] => some ([], [])

/-- At least one digit. -/
def digits (ok : Char → Bool) : Part (List Char)
  | c :: cs => if ok c then (moreDigits ok cs).map fun r => (c :: r.1, r.2) else none
  | [] => none

/-! ### Numbers -/

/-- The whole numbers of 64 bits with a sign. -/
def fits (n : Int) : Bool := -9223372036854775808 ≤ n ∧ n < 9223372036854775808

def integer? (n : Int) : Option Value := if fits n then some (.integer n) else none

/-- A sign; `true` is the negative one. -/
def sign : List Char → Option Bool × List Char
  | '+' :: cs => (some false, cs)
  | '-' :: cs => (some true, cs)
  | cs => (none, cs)

/-- Decimal digits without a zero in front of others. -/
def wholeDigits : Part (List Char)
  | '0' :: cs => some (['0'], cs)
  | cs => digits Char.isDigit cs

/-- Whether `digits · 10 ^ exponent` is over the greatest float: it is from half a unit above
it on. -/
def overflows (number : Nat) (exponent : Int) : Bool :=
  if number = 0 then false
  else
    let length : Int := (Nat.toDigits 10 number).length
    if 400 < length + exponent then true
    else if length + exponent < 300 then false
    else (Nat.pow 2 1024 - Nat.pow 2 970) * Nat.pow 10 (-exponent).toNat ≤ number * Nat.pow 10 exponent.toNat

/-- The digits after a point, if there is one. -/
def fraction : Part (Option (List Char))
  | '.' :: cs => (digits Char.isDigit cs).map fun r => (some r.1, r.2)
  | cs => some (none, cs)

/-- The exponent, if there is one. -/
def exponent : Part (Option Int)
  | [] => some (none, [])
  | c :: cs =>
    if c = 'e' ∨ c = 'E' then
      let (negative, cs) := sign cs
      (digits Char.isDigit cs).map fun r =>
        let n : Int := numberIn 10 r.1
        (some (if negative = some true then -n else n), r.2)
    else some (none, c :: cs)

/-- A decimal number. One that is too large is refused, unless it is negative. -/
def decimal (negative : Bool) : Part Value := fun cs => do
  let (whole, cs) ← wholeDigits cs
  let (places, cs) ← fraction cs
  let (power, cs) ← exponent cs
  if places.isNone ∧ power.isNone then
    let n : Int := numberIn 10 whole
    let v ← integer? (if negative then -n else n)
    return (v, cs)
  else
    let places := places.getD []
    if ¬negative ∧ overflows (numberIn 10 (whole ++ places)) (power.getD 0 - places.length) then
      none
    else return (.real, cs)

/-- A number in another base. -/
def based (base : Nat) (ok : Char → Bool) : Part Value := fun cs => do
  let (ds, cs) ← digits ok cs
  let v ← integer? (numberIn base ds)
  return (v, cs)

/-- A number after its sign. -/
def signed (negative : Bool) : Part Value
  | 'i' :: 'n' :: 'f' :: cs => some (.real, cs)
  | 'n' :: 'a' :: 'n' :: cs => some (.real, cs)
  | cs => decimal negative cs

/-- A number. -/
def number : Part Value
  | '0' :: 'x' :: cs => based 16 isHexDigit cs
  | '0' :: 'o' :: cs => based 8 isOctDigit cs
  | '0' :: 'b' :: cs => based 2 isBinDigit cs
  | cs =>
    match sign cs with
    | (some negative, cs) => signed negative cs
    | (none, cs) => signed false cs

/-! ### Dates and times -/

/-- Exactly `count` digits. -/
def fixed : (count : Nat) → Part (List Char)
  | 0, cs => some ([], cs)
  | count + 1, c :: cs =>
    if c.isDigit then (fixed count cs).map fun r => (c :: r.1, r.2) else none
  | _ + 1, [] => none

/-- A number of `count` digits between two bounds. -/
def bounded (count low high : Nat) : Part Nat := fun cs => do
  let (ds, cs) ← fixed count cs
  let n := numberIn 10 ds
  if low ≤ n ∧ n ≤ high then return (n, cs) else none

/-- A given character. -/
def expect (x : Char) : List Char → Option (List Char)
  | c :: cs => if c = x then some cs else none
  | [] => none

/-- The days of a month. -/
def daysIn (year month : Nat) : Nat :=
  if month = 2 then
    if year % 4 = 0 ∧ (year % 100 ≠ 0 ∨ year % 400 = 0) then 29 else 28
  else if month = 4 ∨ month = 6 ∨ month = 9 ∨ month = 11 then 30 else 31

/-- A day of the calendar. -/
def date (cs : List Char) : Option (List Char) := do
  let (year, cs) ← bounded 4 0 9999 cs
  let cs ← expect '-' cs
  let (month, cs) ← bounded 2 1 12 cs
  let cs ← expect '-' cs
  let (_, cs) ← bounded 2 1 (daysIn year month) cs
  return cs

/-- A time of day; a leap second may be its last. -/
def time (cs : List Char) : Option (List Char) := do
  let (_, cs) ← bounded 2 0 23 cs
  let cs ← expect ':' cs
  let (_, cs) ← bounded 2 0 59 cs
  let cs ← expect ':' cs
  let (_, cs) ← bounded 2 0 60 cs
  match cs with
  | '.' :: rest =>
    match rest.takeWhile Char.isDigit with
    | [] => none
    | _ => return rest.dropWhile Char.isDigit
  | cs => return cs

/-- The distance to universal time, if it is given. -/
def offset (cs : List Char) : Option (List Char) :=
  match cs with
  | [] => some []
  | c :: rest =>
    if c = 'Z' ∨ c = 'z' then some rest
    else if c = '+' ∨ c = '-' then do
      let (_, rest) ← bounded 2 0 23 rest
      let rest ← expect ':' rest
      let (_, rest) ← bounded 2 0 59 rest
      return rest
    else some (c :: rest)

/-- Whether a time begins here. -/
def startsTime : List Char → Bool
  | a :: b :: ':' :: _ => a.isDigit ∧ b.isDigit
  | _ => false

/-- Whether a date begins here. -/
def startsDate : List Char → Bool
  | a :: b :: c :: d :: '-' :: _ => a.isDigit ∧ b.isDigit ∧ c.isDigit ∧ d.isDigit
  | _ => false

/-- A date, a time or both. -/
def moment (cs : List Char) : Option (List Char) :=
  if startsTime cs then time cs
  else do
    let cs ← date cs
    match cs with
    | c :: rest =>
      if (c = 'T' ∨ c = 't' ∨ c = ' ') ∧ startsTime rest then do
        let rest ← time rest
        offset rest
      else return c :: rest
    | [] => return []

/-! ### Text -/

/-- The characters that may stand in a text or a comment: all but the controls other than the tab. -/
def isPlain (c : Char) : Bool := c = '\t' ∨ (0x20 ≤ c.toNat ∧ c.toNat ≠ 0x7f)

/-- The character of an escape in digits. -/
def escaped? (ds : List Char) : Option Char :=
  let n := numberIn 16 ds
  if ds.all isHexDigit ∧ n.isValidChar then some (Char.ofNat n) else none

/-- The character after a backslash. -/
def escape : Part Char
  | 'b' :: cs => some ('\x08', cs)
  | 't' :: cs => some ('\t', cs)
  | 'n' :: cs => some ('\n', cs)
  | 'f' :: cs => some ('\x0c', cs)
  | 'r' :: cs => some ('\r', cs)
  | '"' :: cs => some ('"', cs)
  | '\\' :: cs => some ('\\', cs)
  | 'u' :: a :: b :: c :: d :: cs => (escaped? [a, b, c, d]).map fun x => (x, cs)
  | 'U' :: a :: b :: c :: d :: e :: f :: g :: h :: cs =>
    (escaped? [a, b, c, d, e, f, g, h]).map fun x => (x, cs)
  | _ => none

def isBlank (c : Char) : Bool := c = ' ' ∨ c = '\t'

/-- The text after blanks and a line end, if that is all that comes before it. -/
def lineEnd? (cs : List Char) : Option (List Char) :=
  match cs.dropWhile isBlank with
  | '\n' :: rest => some rest
  | '\r' :: '\n' :: rest => some rest
  | _ => none

/-- The text after blanks and line ends; there are at most as many lines as characters in `bound`. -/
def skipLines : (bound : List Char) → List Char → List Char
  | [], cs => cs
  | _ :: bound, cs =>
    match lineEnd? cs with
    | some rest => skipLines bound rest
    | none => cs.dropWhile isBlank

/-- The rest of a text on one line, up to its quote; `raw` ones know no escapes. The characters so far are
in `acc`, the last one first, and `bound` is as long as what is left or longer. -/
def lineText (quote : Char) (raw : Bool) : (bound acc : List Char) → Part String
  | [], _, _ => none
  | _, _, [] => none
  | _ :: bound, acc, c :: cs =>
    if c = quote then some (String.ofList acc.reverse, cs)
    else if c = '\\' ∧ ¬raw then do
      let (x, cs) ← escape cs
      lineText quote raw bound (x :: acc) cs
    else if isPlain c then lineText quote raw bound (c :: acc) cs
    else none

/-- The rest of a text on many lines, up to three of its quotes. Up to two more may stand before
these. A backslash at the end of a line takes away all blanks and line ends that follow. -/
def blockText (quote : Char) (raw : Bool) : (bound acc : List Char) → Part String
  | [], _, _ => none
  | _, _, [] => none
  | _ :: bound, acc, c :: cs =>
    if c = quote then
      match cs.takeWhile (· = quote) with
      | [] => blockText quote raw bound (c :: acc) cs
      | [_] => blockText quote raw bound (c :: acc) cs
      | more =>
        let kept := min (more.length - 2) 2
        some (String.ofList (acc.reverse ++ List.replicate kept quote), cs.drop (2 + kept))
    else if c = '\\' ∧ ¬raw then
      match lineEnd? cs with
      | some rest => blockText quote raw bound acc (skipLines rest rest)
      | none => do
        let (x, cs) ← escape cs
        blockText quote raw bound (x :: acc) cs
    else if c = '\n' then blockText quote raw bound (c :: acc) cs
    else if c = '\r' then
      match cs with
      | '\n' :: cs => blockText quote raw bound ('\n' :: acc) cs
      | _ => none
    else if isPlain c then blockText quote raw bound (c :: acc) cs
    else none

/-- A line end right after the opening quotes does not count. -/
def skipFirstLineEnd : List Char → List Char
  | '\n' :: cs => cs
  | '\r' :: '\n' :: cs => cs
  | cs => cs

/-- A text of any of the four kinds. -/
def text : Part String
  | '"' :: '"' :: '"' :: cs => blockText '"' false cs [] (skipFirstLineEnd cs)
  | '"' :: cs => lineText '"' false cs [] cs
  | '\'' :: '\'' :: '\'' :: cs => blockText '\'' true cs [] (skipFirstLineEnd cs)
  | '\'' :: cs => lineText '\'' true cs [] cs
  | _ => none

end RemoteCall.Toml
