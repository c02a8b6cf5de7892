import Concordance.Text

/-!
# UTF-8 in pieces

A file is decoded piece by piece. A character whose bytes lie in two pieces comes with
the second of them. A piece with a byte that does not belong where it stands is lost,
and nothing behind it is decoded.
-/
namespace Concordance.Utf8

/-- A character of which not all bytes have been read. -/
structure Begun where
  bits : Nat
  missing : Nat
  /-- The smallest and the greatest byte that may be next. -/
  range : Nat × Nat
  deriving DecidableEq

/-- What the first byte of a character of more than one byte begins. -/
def begin? (b : Nat) : Option Begun :=
  if 0xC2 ≤ b && b < 0xE0 then some ⟨b % 0x20, 1, (0x80, 0xBF)⟩
  else if 0xE0 ≤ b && b < 0xF0 then
    some ⟨b % 0x10, 2, (if b = 0xE0 then 0xA0 else 0x80, 0xBF)⟩
  else if 0xF0 ≤ b && b < 0xF5 then
    some ⟨b % 0x08, 3, (if b = 0xF0 then 0x90 else 0x80, if b = 0xF4 then 0x8F else 0xBF)⟩
  else none

/-- The bytes that may follow where the given bits have been read and one more byte is to come.
Half of a surrogate pair is no character, which is found out with its last byte. -/
def rangeAfter (bits missing : Nat) : Nat × Nat :=
  if missing = 1 && 0x360 ≤ bits && bits < 0x380 then (0x100, 0) else (0x80, 0xBF)

/-- Reads a byte after a part of a character, or after none. Gives the character that it completes,
and the part that is then read. -/
def step? (begun : Option Begun) (b : Nat) : Option (Option CodePoint × Option Begun) :=
  match begun with
  | none =>
    if b < 0x80 then some (some (.char (Char.ofNat b)), none) else (begin? b).map (none, some ·)
  | some p =>
    if b < p.range.1 || p.range.2 < b then none
    else
      let bits := p.bits * 0x40 + b % 0x40
      if p.missing ≤ 1 then some (some (.char (Char.ofNat bits)), none)
      else some (none, some ⟨bits, p.missing - 1, rangeAfter bits (p.missing - 1)⟩)

def pieceSize : Nat := 8192

/-- The text of the remaining bytes. `left` bytes of the present piece are still to come, and
`piece` is its text so far, the last character first. -/
def decodeFrom (begun : Option Begun) (left : Nat) (piece : Text) : List UInt8 → Text
  | [] => piece.reverse
  | b :: rest =>
    match step? begun b.toNat with
    | none => []
    | some (c, begun) =>
      let piece := c.toList ++ piece
      if left ≤ 1 then piece.reverse ++ decodeFrom begun pieceSize [] rest
      else decodeFrom begun (left - 1) piece rest

/-- The text that is known of a file with the given bytes. -/
def decode (bytes : List UInt8) : Text := decodeFrom none pieceSize [] bytes

end Concordance.Utf8
