/-!
# Floating-point numbers

The numbers of the 64-bit binary format, held as mantissa times power of two. Whatever is made into one
of them, a decimal numeral (`ofDecimal`) or a fraction (`ofRatio`), is the exact value rounded to the
nearest, a half going to the even mantissa.
-/

namespace ScriptedRobot

/-- A 64-bit floating-point number. A finite one is `mantissa * 2 ^ exponent` with its sign. -/
inductive Binary64 where
  | nan
  | infinite (negative : Bool)
  /-- A finite number, zero of either sign included. -/
  | finite (negative : Bool) (mantissa : Nat) (exponent : Int)
  deriving DecidableEq, Repr

namespace Binary64

/-- The number of bits of a full mantissa. -/
def precision : Nat := 53

/-- The exponent of the numbers nearest to zero. -/
def leastExponent : Int := -1074

/-- The exponent of the largest numbers. -/
def greatestExponent : Int := 971

/-- The quotient rounded to the nearest integer, a half to the even one. -/
def divRoundEven (num den : Nat) : Nat :=
  let q := num / den
  let r := num % den
  if 2 * r > den ∨ (2 * r = den ∧ q % 2 = 1) then q + 1 else q

/-- The fraction `num / den` times `2 ^ shift`, as numerator and denominator. -/
def scaled (num den : Nat) (shift : Int) : Nat × Nat :=
  if shift ≥ 0 then (num * Nat.pow 2 shift.toNat, den) else (num, den * Nat.pow 2 (-shift).toNat)

/-- The number nearest to a positive fraction. -/
def ofFraction (negative : Bool) (num den : Nat) : Binary64 :=
  let guess : Int := max ((num.log2 : Int) - den.log2 - precision) leastExponent
  let exponent :=
    let (n, d) := scaled num den (-guess)
    if n / d ≥ Nat.pow 2 precision then guess + 1 else guess
  let (n, d) := scaled num den (-exponent)
  let mantissa := divRoundEven n d
  let (mantissa, exponent) :=
    if mantissa = Nat.pow 2 precision then (Nat.pow 2 (precision - 1), exponent + 1)
    else (mantissa, exponent)
  if exponent > greatestExponent then infinite negative else finite negative mantissa exponent

def signedZero (negative : Bool) : Binary64 := finite negative 0 leastExponent

/-- The number nearest to `digits * 10 ^ exponent`. Exponents so far out that the answer is zero or
infinite are not worked out. -/
def ofDecimal (negative : Bool) (digits : Nat) (exponent : Int) : Binary64 :=
  let magnitude : Int := (toString digits).length + exponent
  if digits = 0 ∨ magnitude < -400 then signedZero negative
  else if magnitude > 400 then infinite negative
  else if exponent ≥ 0 then ofFraction negative (digits * Nat.pow 10 exponent.toNat) 1
  else ofFraction negative digits (Nat.pow 10 (-exponent).toNat)

def ofRatio (num : Int) (den : Nat) : Binary64 :=
  if num = 0 then signedZero false else ofFraction (num < 0) num.natAbs den

def ratio? : Binary64 → Option (Int × Nat)
  | finite negative mantissa exponent =>
    let (num, den) := scaled mantissa 1 exponent
    some (if negative then -(num : Int) else num, den)
  | _ => none

def times? (x : Binary64) (factor : Nat) : Option Binary64 :=
  x.ratio?.map fun (num, den) => ofRatio (num * factor) den

/-- The integer nearest to a finite number, a half going to the even one. -/
def nearest? (x : Binary64) : Option Int :=
  x.ratio?.map fun (num, den) =>
    let size := divRoundEven num.natAbs den
    if num < 0 then -(size : Int) else size

/-- Is the number other than zero? That holds of what is not a number, too. -/
def nonzero : Binary64 → Bool
  | finite _ mantissa _ => mantissa != 0
  | _ => true

/-- The integer part of a finite number, rounding towards zero. -/
def truncate? : Binary64 → Option Int
  | finite negative mantissa exponent =>
    let size :=
      if exponent ≥ 0 then mantissa * Nat.pow 2 exponent.toNat
      else mantissa / Nat.pow 2 (-exponent).toNat
    some (if negative then -(size : Int) else size)
  | _ => none

def isWhole : Binary64 → Bool
  | finite _ mantissa exponent => exponent ≥ 0 || mantissa % Nat.pow 2 (-exponent).toNat == 0
  | _ => false

end Binary64

end ScriptedRobot
