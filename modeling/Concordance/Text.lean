/-!
# Texts

A text is the list of its code points. Every rule of the library about words,
queries and documents is stated on such lists; character strings occur only in
messages and at the command line.

Half of a surrogate pair is a code point as well, and may stand by itself. Such a
half is no character and comes from an escape in a JSON text.
-/
namespace Concordance

/-- A code point: a character or half of a surrogate pair. -/
inductive CodePoint where
  | char (c : Char)
  | half (n : Fin 0x800)
  deriving DecidableEq

namespace CodePoint

instance : Coe Char CodePoint := ⟨char⟩

instance : Inhabited CodePoint := ⟨char default⟩

def toNat : CodePoint → Nat
  | char c => c.toNat
  | half n => 0xD800 + n

/-- The code point of a number, the null character if there is none. -/
def ofNat (n : Nat) : CodePoint :=
  if h : 0xD800 ≤ n ∧ n < 0xE000 then half ⟨n - 0xD800, by omega⟩ else char (Char.ofNat n)

instance : LT CodePoint := ⟨fun a b => a.toNat < b.toNat⟩

instance (a b : CodePoint) : Decidable (a < b) := inferInstanceAs (Decidable (a.toNat < b.toNat))

instance : LE CodePoint := ⟨fun a b => a.toNat ≤ b.toNat⟩

instance (a b : CodePoint) : Decidable (a ≤ b) := inferInstanceAs (Decidable (a.toNat ≤ b.toNat))

def isHalf : CodePoint → Bool
  | char _ => false
  | half _ => true

/-- Whether a code point is an ASCII digit. -/
def isDigit : CodePoint → Bool
  | char c => c.isDigit
  | half _ => false

/-- Whether a code point is an ASCII letter or digit. -/
def isAlphanum : CodePoint → Bool
  | char c => c.isAlphanum
  | half _ => false

/-- The small letter of an ASCII capital; anything else stands for itself. -/
def toLower : CodePoint → CodePoint
  | char c => char c.toLower
  | half n => half n

/-- The capital of a small ASCII letter; anything else stands for itself. -/
def toUpper : CodePoint → CodePoint
  | char c => char c.toUpper
  | half n => half n

/-- The number of bytes of a code point, as many for a half as for the characters around it. -/
def utf8Size : CodePoint → Nat
  | char c => c.utf8Size
  | half _ => 3

end CodePoint

abbrev Text := List CodePoint

end Concordance

/-- The text of a string. -/
def String.toText (s : String) : Concordance.Text := s.toList.map .char

namespace Concordance

/-- The string of a text. What is no character is replaced. -/
def stringOf (t : Text) : String :=
  .ofList (t.map fun
    | .char c => c
    | .half _ => '\uFFFD')

/-- The digits of a number in a base. -/
def digitsIn (base n : Nat) : Text := (Nat.toDigits base n).map .char

/-- The text of an integer in decimal, with a leading minus when it is negative. -/
def decimal : Int → Text
  | .ofNat n => digitsIn 10 n
  | .negSucc n => '-' :: digitsIn 10 (n + 1)

/-- The parts one after the other, with `separator` between neighbours. -/
def joinWith (separator : Text) : List Text → Text
  | [] => []
  | [part] => part
  | part :: rest => part ++ separator ++ joinWith separator rest

def utf8Length (t : Text) : Nat := t.foldl (fun n c => n + c.utf8Size) 0

/-- Whether `c` lies in one of the inclusive ranges of code points. -/
def inRanges (ranges : List (Nat × Nat)) (c : CodePoint) : Bool :=
  ranges.any fun range => range.1 ≤ c.toNat && c.toNat ≤ range.2

end Concordance
