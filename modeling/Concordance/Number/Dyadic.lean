/-!
# Binary floating point numbers as exact numbers

A finite double is a signed natural number times a power of two. Decoding gives
that number; rounding gives the double nearest to a quotient of integers, of two
equally near ones the even one. All steps are integer arithmetic, so when a
quotient overflows or vanishes is decided before any double is formed.
-/
namespace Concordance

/-- The number `mantissa * 2 ^ exponent`, with a sign of its own so that there are two zeros. -/
structure Dyadic where
  negative : Bool
  mantissa : Nat
  exponent : Int

/-- The natural number nearest to `num / den`, of two equally near ones the even one. -/
def roundDiv (num den : Nat) : Nat :=
  let whole := num / den
  let rest := num % den
  if 2 * rest < den then whole
  else if den < 2 * rest then whole + 1
  else whole + whole % 2

namespace Dyadic

def minExponent : Int := -1074

/-- The greatest exponent of a double whose mantissa has 53 binary digits. -/
def maxExponent : Int := 971

def ofFloat (x : Float) : Option Dyadic :=
  let bits := x.toBits.toNat
  let negative := decide (Nat.pow 2 63 ≤ bits)
  let biased : Nat := bits / Nat.pow 2 52 % Nat.pow 2 11
  let fraction : Nat := bits % Nat.pow 2 52
  if biased = 2047 then none
  else if biased = 0 then some ⟨negative, fraction, minExponent⟩
  else some ⟨negative, fraction + Nat.pow 2 52, (biased : Int) - 1075⟩

/-- The double of a value whose mantissa has 53 binary digits, or fewer at the least exponent. -/
def toFloat (d : Dyadic) : Float :=
  let sign := if d.negative then Nat.pow 2 63 else 0
  let magnitude :=
    if d.mantissa < Nat.pow 2 52 then d.mantissa
    else (d.exponent + 1075).toNat * Nat.pow 2 52 + (d.mantissa - Nat.pow 2 52)
  Float.ofBits (UInt64.ofNat (sign + magnitude))

/-- `num / den` in units of `2 ^ exponent`, rounded to the nearest number of units. -/
def unitsOf (num den : Nat) (exponent : Int) : Nat :=
  if 0 ≤ exponent then roundDiv num (den * Nat.pow 2 exponent.toNat)
  else roundDiv (num * Nat.pow 2 (-exponent).toNat) den

/-- The exponent at which the quotient of two positive numbers has 53 binary digits, or the
least exponent if that is greater. -/
def exponentOf (num den : Nat) : Int :=
  let guess : Int := (num.log2 : Int) - den.log2
  let reaches : Bool :=
    if 0 ≤ guess then den * Nat.pow 2 guess.toNat ≤ num else den ≤ num * Nat.pow 2 (-guess).toNat
  max minExponent ((if reaches then guess else guess - 1) - 52)

/-- The mantissa and the exponent of the double nearest to a quotient of positive numbers,
were there no greatest exponent. -/
def nearest (num den : Nat) : Nat × Int :=
  let exponent := exponentOf num den
  let mantissa := unitsOf num den exponent
  if mantissa = Nat.pow 2 53 then (Nat.pow 2 52, exponent + 1) else (mantissa, exponent)

/-- The integer part of the value, cut off toward zero. -/
def truncate (d : Dyadic) : Int :=
  let magnitude :=
    if 0 ≤ d.exponent then d.mantissa * Nat.pow 2 d.exponent.toNat
    else d.mantissa / Nat.pow 2 (-d.exponent).toNat
  if d.negative then -(magnitude : Int) else magnitude

def isWhole (d : Dyadic) : Bool :=
  0 ≤ d.exponent || d.mantissa % Nat.pow 2 (-d.exponent).toNat = 0

def floor (d : Dyadic) : Int := if d.negative && !d.isWhole then d.truncate - 1 else d.truncate

def fraction (d : Dyadic) : Nat × Nat :=
  if 0 ≤ d.exponent then (d.mantissa * Nat.pow 2 d.exponent.toNat, 1)
  else (d.mantissa, Nat.pow 2 (-d.exponent).toNat)

end Dyadic

/-- What can go wrong when two integers are divided. -/
inductive QuotientError where
  | byZero
  | overflow
  deriving DecidableEq

/-- The quotient of two integers, rounded to the nearest double in exact arithmetic. -/
def quotient (num den : Int) : Except QuotientError Dyadic :=
  let negative := decide (num < 0) != decide (den < 0)
  if den = 0 then .error .byZero
  else if num = 0 then .ok ⟨negative, 0, Dyadic.minExponent⟩
  else
    let (mantissa, exponent) := Dyadic.nearest num.natAbs den.natAbs
    if Dyadic.maxExponent < exponent then .error .overflow
    else .ok ⟨negative, mantissa, exponent⟩

end Concordance
