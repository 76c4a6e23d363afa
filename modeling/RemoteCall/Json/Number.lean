import RemoteCall.Json.Value

/-!
# Numbers in JSON text

A numeral is taken apart into its digits first, and then has a value: a whole number if it has
neither fraction nor exponent and fits, and otherwise a float. A float is made from as many
digits as fit a word, by one multiplication or division with a power of ten.
-/

namespace RemoteCall.Json

/-- The digits at the start of a text, and the text after them. -/
def takeDigits (cs : List Char) : List Char × List Char :=
  (cs.takeWhile Char.isDigit, cs.dropWhile Char.isDigit)

/-- A numeral: its sign, the digits before and after the point, and the exponent with its sign. -/
structure Numeral where
  negative : Bool
  whole : List Char
  fraction : Option (List Char)
  exponent : Option (Bool × List Char)
  deriving DecidableEq, Repr

namespace Numeral

/-- At least one digit. -/
def readDigits (cs : List Char) : Option (List Char × List Char) :=
  match takeDigits cs with
  | ([], _) => none
  | r => some r

/-- The digits after a point, if there is one. -/
def readFraction : List Char → Option (Option (List Char) × List Char)
  | '.' :: cs => (readDigits cs).map fun r => (some r.1, r.2)
  | cs => some (none, cs)

/-- The exponent, if there is one; `true` is the negative sign. -/
def readExponent (cs : List Char) : Option (Option (Bool × List Char) × List Char) :=
  match cs with
  | [] => some (none, [])
  | c :: rest =>
    if c = 'e' ∨ c = 'E' then
      match rest with
      | '+' :: rest => (readDigits rest).map fun r => (some (false, r.1), r.2)
      | '-' :: rest => (readDigits rest).map fun r => (some (true, r.1), r.2)
      | rest => (readDigits rest).map fun r => (some (false, r.1), r.2)
    else some (none, c :: rest)

/-- The digits before the point: a zero stands alone. -/
def readWhole : List Char → Option (List Char × List Char)
  | '0' :: cs => some (['0'], cs)
  | cs => readDigits cs

/-- The numeral at the start of a text. -/
def read (cs : List Char) : Option (Numeral × List Char) := do
  let (negative, cs) := match cs with
    | '-' :: rest => (true, rest)
    | cs => (false, cs)
  let (whole, cs) ← readWhole cs
  let (fraction, cs) ← readFraction cs
  let (exponent, cs) ← readExponent cs
  return (⟨negative, whole, fraction, exponent⟩, cs)

/-- The value of a digit. -/
def digit (c : Char) : Nat := c.toNat - '0'.toNat

/-- The number that digits stand for. -/
def natural (digits : List Char) : Nat := digits.foldl (fun n c => 10 * n + digit c) 0

/-- Appends digits to a significand up to the first that would take it out of a word, and tells the rest. -/
def absorb (significand : Nat) : List Char → Nat × List Char
  | [] => (significand, [])
  | c :: cs =>
    if 10 * significand + digit c < UInt64.size then absorb (10 * significand + digit c) cs
    else (significand, c :: cs)

/-- A power of ten up to the greatest that is finite. -/
def tenTo (n : Nat) : Float := Float.ofScientific 1 false n

/-- Divides by ten `n` times, in steps that stay finite. -/
def shrink (x : Float) (n : Nat) : Float :=
  if n ≤ 308 then x / tenTo n
  else if x == 0 then x
  else shrink (x / tenTo 308) (n - 308)
termination_by n
decreasing_by omega

/-- The float of `significand · 10 ^ exponent`; none if it is too large. -/
def scale (significand : Nat) (exponent : Int) : Option Float :=
  let x := significand.toUInt64.toFloat
  if exponent < 0 then some (shrink x exponent.natAbs)
  else if exponent ≤ 308 then
    let y := x * tenTo exponent.toNat
    if y.isInf then none else some y
  else if x == 0 then some x else none

/-- The size of a numeral as a float. Digits that do not fit count as zeros before the point, and
not at all after it. An exponent that does not fit a signed half word is as good as infinite. -/
def magnitude (l : Numeral) : Option Float :=
  let (whole, beyond) := absorb 0 l.whole
  let (significand, places) := match l.fraction with
    | none => (whole, 0)
    | some digits =>
      let (significand, unused) := absorb whole digits
      (significand, digits.length - unused.length)
  let start : Int := beyond.length - places
  match l.exponent with
  | none => scale significand start
  | some (negative, digits) =>
    let power := natural digits
    if 2147483648 ≤ power then
      if significand ≠ 0 ∧ ¬negative then none else some 0
    else scale significand (if negative then start - power else start + power)

/-- The float of a numeral. -/
def float? (l : Numeral) : Option Json :=
  l.magnitude.map fun x => float (if l.negative then -x else x)

/-- The value of a numeral. The negative zero is a float. -/
def value? (l : Numeral) : Option Json :=
  match l.fraction, l.exponent with
  | none, none =>
    let n := natural l.whole
    if l.negative ∧ n = 0 then l.float?
    else
      match Whole.ofInt? (if l.negative then -n else n) with
      | some w => some (Json.whole w)
      | none => l.float?
  | _, _ => l.float?

end Numeral

end RemoteCall.Json
