import Concordance.Text

/-!
# Surrogate pairs

Two halves are a pair if a high one is followed by a low one. The halves of a pair that
are written side by side are read as the one character that they stand for.
-/
namespace Concordance

/-- Whether a number is the first half of a surrogate pair. -/
def isHighSurrogate (n : Nat) : Bool := 0xD800 ≤ n && n < 0xDC00

/-- Whether a number is the second half of a surrogate pair. -/
def isLowSurrogate (n : Nat) : Bool := 0xDC00 ≤ n && n < 0xE000

/-- The character of a pair. -/
def characterOf (high low : Nat) : Char :=
  Char.ofNat (0x10000 + (high - 0xD800) * 0x400 + (low - 0xDC00))

/-- Whether two code points are the halves of a pair. -/
def isPair (c d : CodePoint) : Bool := isHighSurrogate c.toNat && isLowSurrogate d.toNat

/-- A text in which every pair is the one character. -/
def paired : Text → Text
  | c :: d :: rest =>
    if isPair c d then characterOf c.toNat d.toNat :: paired rest else c :: paired (d :: rest)
  | t => t

/-- Whether a pair stands in a text. -/
def hasPair : Text → Bool
  | c :: d :: rest => isPair c d || hasPair (d :: rest)
  | _ => false

end Concordance
