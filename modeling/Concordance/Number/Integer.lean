import Concordance.Text.Blank
import Concordance.Text.Digit

/-!
# Reading integers

The integers that a text spells: digits of any script, single underscores between
them, one sign in front, and blanks around the whole.
-/
namespace Concordance

/-- The most digits that a number in a text may have. -/
def maxDigits : Nat := 4300

/-- Whether an integer can be written as a text: it has no more than `maxDigits` digits. -/
def isWritable (n : Int) : Bool := (digitsIn 10 n.natAbs).length ≤ maxDigits

/-- Whether a character may stand around an integer. The four ASCII separators are blank
but may not. -/
def surroundsInteger (c : CodePoint) : Bool := isBlank c && !(0x1C ≤ c.toNat && c.toNat ≤ 0x1F)

/-- The values of digits with single underscores between them; there is at least one digit,
and no underscore at either end. -/
def digitsOf : Text → Option (List Nat)
  | [] => none
  | [c] => (digitValue? c).map ([·])
  | c :: '_' :: rest => do return (← digitValue? c) :: (← digitsOf rest)
  | c :: rest => do return (← digitValue? c) :: (← digitsOf rest)

/-- The number whose decimal digits are listed, the most significant first. -/
def ofDigits (digits : List Nat) : Nat := digits.foldl (fun n d => 10 * n + d) 0

def readNatural (t : Text) : Option Nat := do
  let digits ← digitsOf t
  if digits.length ≤ maxDigits then some (ofDigits digits) else none

def readInteger (t : Text) : Option Int :=
  match trimBy surroundsInteger t with
  | '-' :: rest => (readNatural rest).map fun n => -(n : Int)
  | '+' :: rest => (readNatural rest).map fun n => (n : Int)
  | rest => (readNatural rest).map fun n => (n : Int)

end Concordance
