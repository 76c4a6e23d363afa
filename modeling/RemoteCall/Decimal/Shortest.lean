/-!
# The fewest digits that read back

A finite float is a whole number times a power of two, and the numbers that round to it form an
interval. Of all decimals in that interval those with the fewest digits are looked for, and of
these the nearest is taken. All of it is arithmetic on natural numbers.
-/

namespace RemoteCall.Decimal

/-- `mantissa · 2 ^ exponent`; below a power of two the floats are half as far apart as above. -/
structure Binary where
  mantissa : Nat
  exponent : Int
  lowerGapHalved : Bool
  deriving DecidableEq, Repr

/-- The parts of the float with these bits, without its sign. -/
def Binary.ofBits (bits : Nat) : Binary :=
  let fraction := bits % Nat.pow 2 52
  let scale : Nat := bits / Nat.pow 2 52 % 2048
  if scale = 0 then ⟨fraction, -1074, false⟩
  else ⟨Nat.pow 2 52 + fraction, (scale : Int) - 1075, fraction = 0 ∧ 1 < scale⟩

/-- The numbers that round to a float, as three fractions over one denominator: the lower end,
the float itself and the upper end. The ends belong to the interval if `closed`. -/
structure Interval where
  low : Nat
  value : Nat
  high : Nat
  denominator : Nat
  closed : Bool
  deriving DecidableEq, Repr

/-- The interval of a float. The gap to each neighbour is counted in quarters of its last place. -/
def Binary.interval (b : Binary) : Interval :=
  let up := Nat.pow 2 (b.exponent - 2).toNat
  let down := Nat.pow 2 (2 - b.exponent).toNat
  let lowerGap := if b.lowerGapHalved then 1 else 2
  ⟨(4 * b.mantissa - lowerGap) * up, 4 * b.mantissa * up, (4 * b.mantissa + 2) * up, down,
    b.mantissa % 2 = 0⟩

/-- Whether `n / d` lies in the interval. -/
def Interval.holds (i : Interval) (n d : Nat) : Bool :=
  let x := n * i.denominator
  if i.closed then i.low * d ≤ x ∧ x ≤ i.high * d else i.low * d < x ∧ x < i.high * d

/-- `digits · 10 ^ exponent`. -/
structure Digits where
  digits : Nat
  exponent : Int
  deriving DecidableEq, Repr

namespace Digits

/-- Takes zeros off the end of the digits, at most `fuel` of them. -/
def trim : (fuel : Nat) → Digits → Digits
  | 0, d => d
  | fuel + 1, d =>
    if d.digits ≠ 0 ∧ d.digits % 10 = 0 then trim fuel ⟨d.digits / 10, d.exponent + 1⟩ else d

/-- How many digits there are. -/
def count (d : Digits) : Nat := (Nat.toDigits 10 d.digits).length

/-- The place of the point, counted from before the first digit. -/
def point (d : Digits) : Int := d.count + d.exponent

/-- The numerator and the denominator of a decimal. -/
def fraction (d : Digits) : Nat × Nat :=
  (d.digits * Nat.pow 10 d.exponent.toNat, Nat.pow 10 (-d.exponent).toNat)

end Digits

/-- The place of the point of `n / d`: the count of digits before it, or less the count of zeros
that follow it. -/
def pointOf (n d : Nat) : Int :=
  if d ≤ n then (Nat.toDigits 10 (n / d)).length
  else -((Nat.toDigits 10 ((d - 1) / n)).length - 1 : Int)

/-- The nearest decimal on the grid `10 ^ exponent` that lies in the interval; the even one of two that are
equally near. -/
def Interval.nearest? (i : Interval) (exponent : Int) : Option Digits :=
  let n := i.value * Nat.pow 10 (-exponent).toNat
  let d := i.denominator * Nat.pow 10 exponent.toNat
  let below : Digits := ⟨n / d, exponent⟩
  let above : Digits := ⟨n / d + 1, exponent⟩
  let lies (x : Digits) := i.holds x.fraction.1 x.fraction.2
  let rest := 2 * (n % d)
  let nearer := if rest < d ∨ rest = d ∧ below.digits % 2 = 0 then below else above
  let farther := if nearer = below then above else below
  if lies nearer then some nearer else if lies farther then some farther else none

/-- The first grid, from `exponent` down, that has a decimal in the interval. -/
def Interval.search (i : Interval) : (fuel : Nat) → (exponent : Int) → Digits
  | 0, exponent => ⟨i.value * Nat.pow 10 (-exponent).toNat / (i.denominator * Nat.pow 10 exponent.toNat), exponent⟩
  | fuel + 1, exponent =>
    match i.nearest? exponent with
    | some d => d
    | none => search i fuel (exponent - 1)

/-- The shortest decimal of a positive float, its last digit not zero. Seventeen digits always
suffice. -/
def shortest (b : Binary) : Digits :=
  let i := b.interval
  (i.search 17 (pointOf i.value i.denominator - 1)).trim 17

/-- How a decimal is laid out: with a point and no exponent while the place of its point is above
`lowest` and at most `highest`, and otherwise with an exponent. -/
structure Layout where
  lowest : Int
  highest : Int
  deriving DecidableEq, Repr

/-- A decimal in words of the layout. A whole number has one zero after its point, and an exponent
always has its sign. -/
def Layout.text (l : Layout) (d : Digits) : List Char :=
  let digits := Nat.toDigits 10 d.digits
  let point := d.point
  if l.lowest < point ∧ point ≤ l.highest then
    if 0 ≤ d.exponent then digits ++ List.replicate d.exponent.toNat '0' ++ ['.', '0']
    else if 0 < point then digits.take point.toNat ++ '.' :: digits.drop point.toNat
    else ['0', '.'] ++ List.replicate (-point).toNat '0' ++ digits
  else
    let power := point - 1
    let mantissa := digits.take 1 ++ (if digits.length = 1 then [] else '.' :: digits.drop 1)
    mantissa ++ ['e', if 0 ≤ power then '+' else '-'] ++ Nat.toDigits 10 power.natAbs

end RemoteCall.Decimal
