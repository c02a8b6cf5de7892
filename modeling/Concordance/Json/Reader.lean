import Concordance.Json
import Concordance.Number.Integer
import Concordance.Text.Surrogates

/-!
# Reading JSON

A reader for one JSON value. Beyond the standard it accepts the three names of
the numbers that are not finite, and refuses integers of more than `maxDigits`
digits. Control characters may not stand in strings unescaped. Of two members
with one name the later value counts.
-/
namespace Concordance.Json

/-- The characters that may stand between the parts of a value. -/
def isSpace (c : CodePoint) : Bool := c = ' ' || c = '\t' || c = '\n' || c = '\r'

def skipSpace (t : Text) : Text := t.dropWhile isSpace

/-- The rest of a text that begins with the given word. -/
def afterWord? (word t : Text) : Option Text :=
  if word.isPrefixOf t then some (t.drop word.length) else none

def hexValue? (c : CodePoint) : Option Nat :=
  if '0' ≤ c && c ≤ '9' then some (c.toNat - 48)
  else if 'a' ≤ c && c ≤ 'f' then some (c.toNat - 87)
  else if 'A' ≤ c && c ≤ 'F' then some (c.toNat - 55)
  else none

def hexNumber? (a b c d : CodePoint) : Option Nat := do
  return (((← hexValue? a) * 16 + (← hexValue? b)) * 16 + (← hexValue? c)) * 16 + (← hexValue? d)

/-- The character that follows a backslash, where it stands for one character. -/
def simpleEscape? : CodePoint → Option CodePoint
  | '"' => some '"'
  | '\\' => some '\\'
  | '/' => some '/'
  | 'b' => some '\x08'
  | 'f' => some '\x0C'
  | 'n' => some '\n'
  | 'r' => some '\r'
  | 't' => some '\t'
  | _ => none

/-- The contents of a string after its opening quote, and the text after its closing one. -/
def readString : Text → Option (Text × Text)
  | [] => none
  | '"' :: rest => some ([], rest)
  | '\\' :: 'u' :: a :: b :: c :: d :: '\\' :: 'u' :: e :: f :: g :: h :: rest => do
    let first ← hexNumber? a b c d
    let second ← hexNumber? e f g h
    if isHighSurrogate first && isLowSurrogate second then
      let (t, rest) ← readString rest
      return (characterOf first second :: t, rest)
    else
      let (t, rest) ← readString ('\\' :: 'u' :: e :: f :: g :: h :: rest)
      return (.ofNat first :: t, rest)
  | '\\' :: 'u' :: a :: b :: c :: d :: rest => do
    let n ← hexNumber? a b c d
    let (t, rest) ← readString rest
    return (.ofNat n :: t, rest)
  | '\\' :: e :: rest => do
    let c ← simpleEscape? e
    let (t, rest) ← readString rest
    return (c :: t, rest)
  | c :: rest =>
    if c.toNat < 0x20 || c = '\\' then none
    else do
      let (t, rest) ← readString rest
      return (c :: t, rest)

/-- The digits of a text up to its first character that is no ASCII digit, and the rest. -/
def spanDigits (t : Text) : Text × Text := t.span CodePoint.isDigit

/-- The digits after a point, if the text begins with a point and a digit. -/
def readPlaces (t : Text) : Option Text × Text :=
  match t with
  | '.' :: rest =>
    let (digits, after) := spanDigits rest
    if digits.isEmpty then (none, t) else (some digits, after)
  | _ => (none, t)

/-- The exponent, if the text begins with a well-formed one. -/
def readExponent (t : Text) : Option Int × Text :=
  match t with
  | c :: rest =>
    if c = 'e' || c = 'E' then
      let (negative, unsigned) :=
        match rest with
        | '-' :: r => (true, r)
        | '+' :: r => (false, r)
        | r => (false, r)
      let (digits, after) := spanDigits unsigned
      let n : Int := ofDigits (digits.map fun c => c.toNat - 48)
      if digits.isEmpty then (none, t) else (some (if negative then -n else n), after)
    else (none, t)
  | [] => (none, t)

def floatOf (digits : Nat) (exponent : Int) : Float :=
  Float.ofScientific digits (exponent < 0) exponent.natAbs

/-- An unsigned number, with the sign that was read before it. -/
def readNumber (negative : Bool) (t : Text) : Option (Json × Text) :=
  let (whole, rest) := spanDigits t
  let (whole, rest) :=
    match whole with
    | '0' :: more => ("0".toText, more ++ rest)
    | _ => (whole, rest)
  if whole.isEmpty then none
  else
    let (places, rest) := readPlaces rest
    let (exponent, rest) := readExponent rest
    let digitsOf (t : Text) : Nat := ofDigits (t.map fun c => c.toNat - 48)
    match places, exponent with
    | none, none =>
      if maxDigits < whole.length then none
      else
        let n : Int := digitsOf whole
        some (.int (if negative then -n else n), rest)
    | _, _ =>
      let places := places.getD []
      let x := floatOf (digitsOf (whole ++ places)) (exponent.getD 0 - places.length)
      some (.float (if negative then -x else x), rest)

mutual

/-- A value at the front of a text and the text behind it. Every step of the reader takes at
least one character, so the length of the text is enough fuel. -/
def readValue (fuel : Nat) (t : Text) : Option (Json × Text) :=
  match fuel with
  | 0 => none
  | fuel + 1 =>
    match t with
    | [] => none
    | '"' :: rest => (readString rest).map fun (s, rest) => (.str s, rest)
    | '[' :: rest =>
      match skipSpace rest with
      | ']' :: rest => some (.arr [], rest)
      | rest => (readItems fuel rest).map fun (items, rest) => (.arr items, rest)
    | '\x7b' :: rest =>
      match skipSpace rest with
      | '\x7d' :: rest => some (.obj [], rest)
      | rest => (readMembers fuel [] rest).map fun (members, rest) => (.obj members, rest)
    | '-' :: rest =>
      match afterWord? "Infinity".toText rest with
      | some rest => some (.float (-(1.0 / 0.0)), rest)
      | none => readNumber true rest
    | c :: _ =>
      if c.isDigit then readNumber false t
      else
        let words : List (Text × Json) :=
          [("null".toText, .null), ("true".toText, .bool true), ("false".toText, .bool false),
            ("NaN".toText, .float (0.0 / 0.0)), ("Infinity".toText, .float (1.0 / 0.0))]
        words.findSome? fun (word, value) => (afterWord? word t).map (value, ·)

/-- The items of a list after its bracket, up to the closing one. -/
def readItems (fuel : Nat) (t : Text) : Option (List Json × Text) :=
  match fuel with
  | 0 => none
  | fuel + 1 => do
    let (item, rest) ← readValue fuel t
    match skipSpace rest with
    | ']' :: rest => return ([item], rest)
    | ',' :: rest =>
      let (items, rest) ← readItems fuel (skipSpace rest)
      return (item :: items, rest)
    | _ => none

/-- The members of an object after its brace, up to the closing one, added to those read. -/
def readMembers (fuel : Nat) (read : List (Text × Json)) (t : Text) :
    Option (List (Text × Json) × Text) :=
  match fuel with
  | 0 => none
  | fuel + 1 =>
    match t with
    | '"' :: rest => do
      let (name, rest) ← readString rest
      let ':' :: rest := skipSpace rest | none
      let (value, rest) ← readValue fuel (skipSpace rest)
      let read := setMember name value read
      match skipSpace rest with
      | '\x7d' :: rest => return (read, rest)
      | ',' :: rest => readMembers fuel read (skipSpace rest)
      | _ => none
    | _ => none

end

/-- The value that a text writes, with space around it and nothing else. -/
def parse? (t : Text) : Option Json := do
  let (value, rest) ← readValue (t.length + 1) (skipSpace t)
  if (skipSpace rest).isEmpty then some value else none

end Concordance.Json
