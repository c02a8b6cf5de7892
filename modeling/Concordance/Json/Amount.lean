import Concordance.Json.Display
import Concordance.Json.Fields
import Concordance.Number.Ratio

/-!
# Amounts

Numbers that count things. An index counts in integers. Counts that were stored may be
any values: then a sum or a comparison is refused where it has no meaning, and a double
in it makes the result a double.
-/
namespace Concordance

/-- Types of values that count things. -/
class Amount (α : Type) where
  whole : Int → α
  plus : α → α → Except Failure α
  divide : α → α → Except Failure Float
  isBelowOne : α → Except Failure Bool
  isPositive : α → Except Failure Bool
  toJson : α → Json
  ofJson : Json → Except Failure α

instance : Amount Int where
  whole n := n
  plus m n := .ok (m + n)
  divide m n := (ratio m n).map Dyadic.toFloat
  isBelowOne n := .ok (n < 1)
  isPositive n := .ok (0 < n)
  toJson n := .int n
  ofJson j := j.wholeNumber

namespace Json

def toDouble : Json → Except Failure Float
  | .float x => .ok x
  | j => do return (← ratio (← j.wholeNumber) 1).toFloat

/-- Whether a value is a number. Truth values count as zero and one. -/
def isNumber : Json → Bool
  | .int _ | .float _ | .bool _ => true
  | _ => false

def toDoubles (a b : Json) : Except Failure (Float × Float) :=
  if a.isNumber && b.isNumber then do return (← a.toDouble, ← b.toDouble)
  else .error .wrongKind

/-- A sum of numbers. Texts are put one behind the other, and a list takes in what the other value
runs through. -/
def plus : Json → Json → Except Failure Json
  | .str s, .str t => .ok (.str (s ++ t))
  | .arr items, b => do return .arr (items ++ (← b.elements))
  | a, b =>
    match a.wholeNumber, b.wholeNumber with
    | .ok m, .ok n => .ok (.int (m + n))
    | _, _ => do
      let (x, y) ← toDoubles a b
      return .float (x + y)

def divide (a b : Json) : Except Failure Float :=
  match a.wholeNumber, b.wholeNumber with
  | .ok m, .ok n => (ratio m n).map Dyadic.toFloat
  | _, _ => do
    let (x, y) ← toDoubles a b
    if y == 0.0 then .error .divisionByZero else return x / y

/-- Whether a number has a property, which is told for integers and for doubles. -/
def test (p : Int → Bool) (q : Float → Bool) : Json → Except Failure Bool
  | .float x => .ok (q x)
  | j => j.wholeNumber.map p

end Json

instance : Amount Json where
  whole n := .int n
  plus := Json.plus
  divide := Json.divide
  isBelowOne := Json.test (· < 1) (· < 1.0)
  isPositive := Json.test (0 < ·) (0.0 < ·)
  toJson j := j
  ofJson j := .ok j

namespace Amount

variable {α : Type} [Amount α]

/-- An amount with another one added, unchanged where there is no sum. -/
def grow (a b : α) : α :=
  match plus a b with
  | .ok c => c
  | .error _ => a

def shown (a : α) : Text := (toJson a).display

@[simp] theorem plus_int (m n : Int) : plus m n = .ok (m + n) := rfl

@[simp] theorem grow_int (m n : Int) : grow m n = m + n := rfl

@[simp] theorem whole_int (n : Int) : (whole n : Int) = n := rfl

@[simp] theorem toJson_int (n : Int) : toJson n = .int n := rfl

@[simp] theorem ofJson_int (n : Int) : (ofJson (.int n) : Except Failure Int) = .ok n := rfl

/-- The mean of `total` over `count` things as it is reported: a double, or a whole zero where
there is nothing to divide by. -/
def reportedMean (total count : α) : Json :=
  match isPositive count with
  | .ok true =>
    match divide total count with
    | .ok x => .float x
    | .error _ => .float (1.0 / 0.0)
  | _ => .int 0

end Amount

end Concordance
