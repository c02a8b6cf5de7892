import Concordance.Failure
import Concordance.Json
import Concordance.Number.Decimal
import Concordance.Number.Integer
import Concordance.Text.Printable

/-!
# Values in messages

How a value stands in a message: a text as it is, and inside a list or an object
between quotes. An integer of more than `maxDigits` digits has no text, so that a value
with such an integer cannot be shown.
-/
namespace Concordance.Json

def hexDigits (width n : Nat) : Text :=
  let digits := digitsIn 16 n
  List.replicate (width - digits.length) (.char '0') ++ digits

/-- A character of a text that stands between the given quotes. -/
def quotedChar (quote c : CodePoint) : Text :=
  if c = quote || c = '\\' then ['\\', c]
  else if c = '\n' then ['\\', 'n']
  else if c = '\r' then ['\\', 'r']
  else if c = '\t' then ['\\', 't']
  else if isVisible c then [c]
  else if c.toNat < 0x100 then '\\' :: 'x' :: hexDigits 2 c.toNat
  else if c.toNat < 0x10000 then '\\' :: 'u' :: hexDigits 4 c.toNat
  else '\\' :: 'U' :: hexDigits 8 c.toNat

/-- A text between quotes: single ones, unless only single ones occur in it. -/
def quoted (t : Text) : Text :=
  let quote : CodePoint := if t.contains '\'' && !t.contains '"' then '"' else '\''
  quote :: t.flatMap (quotedChar quote) ++ [quote]

mutual

def displayInner : Json → Text
  | .null => "None".toText
  | .bool b => if b then "True".toText else "False".toText
  | .int n => decimal n
  | .float x => shortestText x
  | .str t => quoted t
  | .arr items => "[".toText ++ joinWith ", ".toText (displayItems items) ++ "]".toText
  | .obj members => "\x7b".toText ++ joinWith ", ".toText (displayMembers members) ++ "\x7d".toText

def displayItems : List Json → List Text
  | [] => []
  | item :: rest => displayInner item :: displayItems rest

def displayMembers : List (Text × Json) → List Text
  | [] => []
  | (name, value) :: rest =>
    (quoted name ++ ": ".toText ++ displayInner value) :: displayMembers rest

end

def display : Json → Text
  | .str t => t
  | value => displayInner value

mutual

/-- Whether every integer in a value can be written as a text. -/
def isWritable : Json → Bool
  | .int n => Concordance.isWritable n
  | .arr items => allWritable items
  | .obj members => membersWritable members
  | _ => true

def allWritable : List Json → Bool
  | [] => true
  | item :: rest => item.isWritable && allWritable rest

def membersWritable : List (Text × Json) → Bool
  | [] => true
  | (_, value) :: rest => value.isWritable && membersWritable rest

end

/-- What is shown of a value, if it can be shown. -/
def shown (j : Json) : Except Failure Text :=
  if j.isWritable then .ok j.display else .error .tooManyDigits

end Concordance.Json
