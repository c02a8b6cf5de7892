import Concordance.Text

/-!
# Choices

What is chosen in a configuration is written as a text: a plain text with escapes, a
text between quotes, a list between brackets, a table between braces, or a number, a
truth value or nothing. Several values with commas between them offer a choice, and so
does a range of values.
-/
namespace Concordance

/-- What a written choice stands for. -/
inductive Choice where
  | text (t : Text)
  | list (items : List Choice)
  | table
  | scalar
  | several

namespace Choice

def isGap (c : CodePoint) : Bool := c = ' ' || c = '\t'

def skipGaps (t : Text) : Text := t.dropWhile isGap

def isGrouped : Text → Bool
  | [] => false
  | [d] => d.isDigit
  | d :: '_' :: rest => d.isDigit && isGrouped rest
  | d :: rest => d.isDigit && isGrouped rest

/-- Whether a text is an unsigned integer without a leading zero. -/
def isUnsigned (t : Text) : Bool := t = [.char '0'] || (t.head? != some '0' && isGrouped t)

/-- Whether a text is an unsigned number with a point. -/
def isPointed (t : Text) : Bool :=
  let whole := t.takeWhile (· != .char '.')
  match t.dropWhile (· != .char '.') with
  | [] => false
  | [_] => isUnsigned whole
  | _ :: places => (whole.isEmpty || isUnsigned whole) && isGrouped places

def unsigned : Text → Text
  | [] => []
  | c :: rest => if c = '+' || c = '-' then rest else c :: rest

/-- Whether a text is an unsigned number with an exponent. -/
def isScientific (t : Text) : Bool :=
  let isMark (c : CodePoint) : Bool := c = 'e' || c = 'E'
  let front := t.takeWhile (!isMark ·)
  match t.dropWhile (!isMark ·) with
  | [] => false
  | _ :: exponent => (isUnsigned front || isPointed front) && isGrouped (unsigned exponent)

/-- Whether a plain text is a number, a truth value or nothing. -/
def isScalar (t : Text) : Bool :=
  let name := t.map CodePoint.toLower
  let number := unsigned t
  ["true", "false", "null"].any (·.toText = name) ||
    ["inf", "nan"].any (·.toText = unsigned name) ||
    isUnsigned number || isPointed number || isScientific number

/-- The characters that may follow a backslash which is then left out. -/
def isEscapable (c : CodePoint) : Bool := "\\()[]\x7b\x7d:=, \t".toText.contains c

/-- The characters of plain texts. A colon ends the name of a member. -/
def isPlain (inName : Bool) (c : CodePoint) : Bool :=
  c.isAlphanum || isGap c || "_/-\\+.$%*@?|".toText.contains c || (c = ':' && !inName)

/-- The characters of a plain text at the beginning of a text, and the rest. With each character
stands whether it counts as it is: after a backslash, and `inside` a reference in braces. -/
def plainChars (inName : Bool) : Bool → Text → Option (List (CodePoint × Bool) × Text)
  | inside, [] => if inside then none else some ([], [])
  | true, c :: rest => do
    let (chars, rest) ← plainChars inName (c != '\x7d') rest
    return ((c, true) :: chars, rest)
  | false, '$' :: '\x7b' :: rest => do
    let (chars, rest) ← plainChars inName true rest
    return (('$', true) :: ('\x7b', true) :: chars, rest)
  | false, '\\' :: c :: rest =>
    if isEscapable c then do
      let (chars, rest) ← plainChars inName false rest
      return ((c, true) :: chars, rest)
    else do
      let (chars, rest) ← plainChars inName false (c :: rest)
      return (('\\', false) :: chars, rest)
  | false, c :: rest =>
    if isPlain inName c then do
      let (chars, rest) ← plainChars inName false rest
      return ((c, false) :: chars, rest)
    else some ([], c :: rest)

def trimmed (chars : List (CodePoint × Bool)) : List (CodePoint × Bool) :=
  let blank (e : CodePoint × Bool) : Bool := isGap e.1 && !e.2
  ((chars.dropWhile blank).reverse.dropWhile blank).reverse

def ofPlain (chars : List (CodePoint × Bool)) : Choice :=
  let t := chars.map Prod.fst
  if chars.all (!·.2) && isScalar t then scalar else text t

/-- A text up to a quote, after its opening quote and `held` backslashes, and the rest. Two
backslashes before a quote are one, and the quote after a single one belongs to the text. -/
def readQuoted (quote : CodePoint) (held : Nat) : Text → Option (Text × Text)
  | [] => none
  | c :: rest =>
    if c = '\\' then readQuoted quote (held + 1) rest
    else if c = quote then
      let front := List.replicate (held / 2) (.char '\\')
      if held % 2 = 0 then some (front, rest)
      else (readQuoted quote 0 rest).map fun (t, rest) => (front ++ quote :: t, rest)
    else (readQuoted quote 0 rest).map fun (t, rest) =>
      (List.replicate held (.char '\\') ++ c :: t, rest)

def ranges : List Text := ["choice", "range", "interval", "glob"].map String.toText

mutual

/-- Reads a value, and gives the rest of the text. -/
def readValue : Nat → Text → Option (Choice × Text)
  | 0, _ => none
  | fuel + 1, t =>
    match skipGaps t with
    | [] => none
    | c :: rest =>
      if c = '\'' || c = '"' then (readQuoted c 0 rest).map fun (t, rest) => (text t, rest)
      else if c = '[' then
        match skipGaps rest with
        | ']' :: rest => some (list [], rest)
        | rest => (readItems fuel ']' rest).map fun (items, rest) => (list items, rest)
      else if c = '\x7b' then
        match skipGaps rest with
        | '\x7d' :: rest => some (table, rest)
        | rest => (readMembers fuel rest).map fun rest => (table, rest)
      else do
        let (chars, rest) ← plainChars false false (c :: rest)
        let chars := trimmed chars
        match rest with
        | '(' :: rest =>
          if ranges.contains (chars.map Prod.fst) then
            let (_, rest) ← readItems fuel ')' rest
            return (several, rest)
          else none
        | rest => if chars.isEmpty then none else return (ofPlain chars, rest)

/-- Reads values with commas between them up to a closing character. -/
def readItems : Nat → CodePoint → Text → Option (List Choice × Text)
  | 0, _, _ => none
  | fuel + 1, closing, t => do
    let (item, rest) ← readValue fuel t
    match skipGaps rest with
    | [] => none
    | c :: rest =>
      if c = closing then return ([item], rest)
      else if c = ',' then
        let (items, rest) ← readItems fuel closing rest
        return (item :: items, rest)
      else none

/-- Passes over the members of a table and its closing brace. -/
def readMembers : Nat → Text → Option Text
  | 0, _ => none
  | fuel + 1, t => do
    let (name, rest) ← plainChars true false t
    match rest with
    | ':' :: rest =>
      if (trimmed name).isEmpty then none
      else
        let (_, rest) ← readValue fuel rest
        match skipGaps rest with
        | '\x7d' :: rest => return rest
        | ',' :: rest => readMembers fuel rest
        | _ => none
    | _ => none

end

/-- Reads values with commas between them up to the end of the text. -/
def readAll : Nat → Text → Option (List Choice)
  | 0, _ => none
  | fuel + 1, t => do
    let (value, rest) ← readValue (2 * t.length + 2) t
    if rest.isEmpty then return [value]
    else match skipGaps rest with
      | ',' :: rest => return value :: (← readAll fuel rest)
      | _ => none

/-- The choice that a text writes, none if it is malformed. -/
def ofText? (t : Text) : Option Choice :=
  if (skipGaps t).isEmpty then some (text [])
  else match readAll t.length t with
    | none => none
    | some [value] => some value
    | some _ => some several

end Choice

end Concordance
