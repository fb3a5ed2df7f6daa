import ScriptedRobot.Binary64

/-!
# The shortest decimal text of a number

A finite number is written with the fewest decimal digits that read back as the number itself, and
of those texts of that length with the nearest one, an exact tie going to the even last digit. The
numbers that read back are those of an interval around the number, half-way to its two neighbours;
its ends belong to it when the mantissa is even.
-/

namespace ScriptedRobot.Binary64

/-- Decimal digits with a place for the point: the value `0.d₁d₂… * 10 ^ point`. -/
structure Decimal where
  /-- The digits as one number, without trailing zeros. -/
  digits : Nat
  /-- How many digits stand in front of the point. -/
  point : Int
  deriving DecidableEq, Repr

/-- A positive number `mantissa * 2 ^ exponent` with the ends of its interval, all as numerators over
one denominator. -/
structure Interval where
  value : Nat
  low : Nat
  high : Nat
  denominator : Nat
  /-- Do the ends read back as the number? -/
  closed : Bool

/-- The interval of the reals that read back as a positive number. Below a power of two the numbers
lie twice as close. -/
def interval (mantissa : Nat) (exponent : Int) : Interval :=
  let narrow := mantissa = Nat.pow 2 (precision - 1) ∧ exponent > leastExponent
  let factor := Nat.pow 2 exponent.toNat
  { value := 4 * mantissa * factor
    low := (4 * mantissa - if narrow then 1 else 2) * factor
    high := (4 * mantissa + 2) * factor
    denominator := 4 * Nat.pow 2 (-exponent).toNat
    closed := mantissa % 2 == 0 }

/-- Does the fraction `num / den` read back as the number? -/
def Interval.has (i : Interval) (num den : Nat) : Bool :=
  let x := num * i.denominator
  if i.closed then i.low * den ≤ x && x ≤ i.high * den else i.low * den < x && x < i.high * den

def powerOfTen (place : Int) : Nat × Nat := (Nat.pow 10 place.toNat, Nat.pow 10 (-place).toNat)

/-- The multiple of `10 ^ place` nearest to the number among its two neighbours on that grid, if one
of them reads back as the number. -/
def Interval.onGrid? (i : Interval) (place : Int) : Option Nat :=
  let (up, down) := powerOfTen place
  let below := i.value * down / (i.denominator * up)
  let above := below + 1
  -- twice the distance from `below`, in units of the grid, compared with one
  let twice := 2 * (i.value * down - below * i.denominator * up)
  let unit := i.denominator * up
  let belowFirst := twice < unit || (twice == unit && below % 2 == 0)
  let candidates := if belowFirst then [below, above] else [above, below]
  candidates.find? fun n => n ≠ 0 && i.has (n * up) down

/-- How many digits the number has in front of the point: the least `p` with the number below
`10 ^ p`, looked for near an estimate from the binary exponent. -/
def Interval.point (i : Interval) (exponent : Int) (mantissa : Nat) : Int :=
  let estimate := (((mantissa.log2 : Int) + exponent) * 30103).fdiv 100000
  let isAbove (p : Int) : Bool :=
    let (up, down) := powerOfTen p
    i.value * down < i.denominator * up
  (([estimate - 1, estimate, estimate + 1].find? isAbove).getD (estimate + 2))

def stripZeros : Nat → Nat → Nat
  | 0, n => n
  | fuel + 1, n => if n % 10 = 0 ∧ n ≠ 0 then stripZeros fuel (n / 10) else n

/-- The shortest decimal that reads back as the positive number `mantissa * 2 ^ exponent`. -/
def shortest (mantissa : Nat) (exponent : Int) : Decimal :=
  let i := interval mantissa exponent
  let point := i.point exponent mantissa
  let found := (List.range' 1 17).findSome? fun (count : Nat) =>
    (i.onGrid? (point - count)).map fun n => (n, count)
  match found with
  | none => ⟨0, 0⟩
  | some (n, count) =>
    -- a neighbour that is a power of ten has one digit more in front of the point
    ⟨stripZeros 20 n, point + ((toString n).length - count)⟩

/-- The exponents of ten that are written positionally. -/
def isPositional (point : Int) : Bool := -4 < point && point ≤ 16

/-- An exponent with its sign and at least two digits. -/
def exponentText (e : Int) : String :=
  let size := toString e.natAbs
  (if e < 0 then "-" else "+") ++ (if size.length < 2 then "0" ++ size else size)

/-- Digits laid out with a point: positionally between `10 ^ -4` and `10 ^ 16`, with `.0` after a
whole number, and otherwise with one digit in front of the point and an exponent. -/
def Decimal.text (d : Decimal) : String :=
  let ds := toString d.digits
  let zeros (n : Nat) : String := "".pushn '0' n
  if isPositional d.point then
    if d.point ≤ 0 then "0." ++ zeros (-d.point).toNat ++ ds
    else
      let whole := d.point.toNat
      if ds.length ≤ whole then ds ++ zeros (whole - ds.length) ++ ".0"
      else (ds.take whole).copy ++ "." ++ (ds.drop whole).copy
  else
    let tail := (ds.drop 1).copy
    (ds.take 1).copy ++ (if tail.isEmpty then "" else "." ++ tail) ++ "e" ++ exponentText (d.point - 1)

/-- How the values that are not finite are spelt. -/
structure Spelling where
  nan : String
  infinity : String

def text (spelling : Spelling) : Binary64 → String
  | nan => spelling.nan
  | infinite negative => (if negative then "-" else "") ++ spelling.infinity
  | finite negative mantissa exponent =>
    let size := if mantissa = 0 then "0.0" else (shortest mantissa exponent).text
    (if negative then "-" else "") ++ size

end ScriptedRobot.Binary64
