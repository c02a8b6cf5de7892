import Concordance.Text
import Concordance.Number.Dyadic

/-!
# Decimal texts of doubles

Two ways to write a double: with a fixed number of places, rounded exactly, and
with the fewest digits that read back as the same double.
-/
namespace Concordance

def unbounded (x : Float) : Text :=
  if x.isNaN then "nan".toText else if x < 0 then "-inf".toText else "inf".toText

/-- The digits of `n`, with zeros in front up to `width` of them. -/
def padded (width n : Nat) : Text :=
  let digits := digitsIn 10 n
  List.replicate (width - digits.length) (.char '0') ++ digits

/-- A double with `places` digits after the point. A half is rounded to the even digit, and a
negative number keeps its sign even when all its digits are zero. -/
def fixedPlaces (places : Nat) (x : Float) : Text :=
  match Dyadic.ofFloat x with
  | none => unbounded x
  | some d =>
    let (num, den) := d.fraction
    let scaled := roundDiv (num * Nat.pow 10 places) den
    (if d.negative then [.char '-'] else []) ++ digitsIn 10 (scaled / Nat.pow 10 places) ++
      .char '.' :: padded places (scaled % Nat.pow 10 places)

/-- A decimal number `digits * 10 ^ scale`. -/
structure Scientific where
  digits : Nat
  scale : Int

def Scientific.fraction (s : Scientific) : Nat × Nat :=
  if 0 ≤ s.scale then (s.digits * Nat.pow 10 s.scale.toNat, 1)
  else (s.digits, Nat.pow 10 (-s.scale).toNat)

/-- Whether the double nearest to a decimal number has the given mantissa and exponent. -/
def Scientific.readsAs (s : Scientific) (d : Dyadic) : Bool :=
  let (num, den) := s.fraction
  num != 0 && Dyadic.nearest num den == (d.mantissa, d.exponent)

/-- The power of ten of the leading digit of a positive double. No double is less than
`10 ^ -340`. -/
def leadingPower (d : Dyadic) : Int :=
  let (num, den) := d.fraction
  ((digitsIn 10 (num * Nat.pow 10 340 / den)).length : Int) - 341

/-- Of the two decimal numbers with `count` digits next to a double the one that reads back as
it, the nearer one if both do. -/
def neighbour? (d : Dyadic) (count : Nat) : Option Scientific :=
  let scale := leadingPower d - (count : Int) + 1
  let (num, den) := d.fraction
  let (num, den) :=
    if 0 ≤ scale then (num, den * Nat.pow 10 scale.toNat)
    else (num * Nat.pow 10 (-scale).toNat, den)
  let nearer := roundDiv num den
  let other := if nearer = num / den then nearer + 1 else num / den
  if (Scientific.mk nearer scale).readsAs d then some ⟨nearer, scale⟩
  else if (Scientific.mk other scale).readsAs d then some ⟨other, scale⟩
  else none

/-- The decimal number with the fewest digits that reads back as a positive double. Seventeen
digits are always enough, so the default is never taken. -/
def shortest (d : Dyadic) : Scientific :=
  ((List.range 17).findSome? fun i => neighbour? d (i + 1)).getD ⟨d.mantissa, 0⟩

/-- Significant digits with the power of ten of the first one: positional from `10 ^ -4` to below
`10 ^ 16`, with at least one digit after the point, and else with an exponent of at least two
digits. -/
def positional (digits : Text) (power : Int) : Text :=
  if -4 ≤ power && power < 16 then
    if power < 0 then "0.".toText ++ List.replicate (-power - 1).toNat (.char '0') ++ digits
    else
      let whole := (power + 1).toNat
      if digits.length ≤ whole then
        digits ++ List.replicate (whole - digits.length) (.char '0') ++ ".0".toText
      else digits.take whole ++ .char '.' :: digits.drop whole
  else
    digits.take 1 ++ (if digits.length = 1 then [] else .char '.' :: digits.drop 1) ++
      .char 'e' :: .char (if power < 0 then '-' else '+') :: padded 2 power.natAbs

def shortestText (x : Float) : Text :=
  match Dyadic.ofFloat x with
  | none => unbounded x
  | some d =>
    let sign : Text := if d.negative then ['-'] else []
    if d.mantissa = 0 then sign ++ "0.0".toText
    else
      let s := shortest d
      let digits := digitsIn 10 s.digits
      let power := s.scale + (digits.length : Int) - 1
      let bare := (digits.reverse.dropWhile (· == .char '0')).reverse
      sign ++ positional bare power

end Concordance
