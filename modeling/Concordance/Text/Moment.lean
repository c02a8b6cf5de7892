import Concordance.Text

/-!
# Dates in texts

Which texts name a moment in the forms of ISO 8601: a calendar date or a week date,
with or without hyphens, and after one further character a time of day with an
optional offset. Only validity is decided; the moment itself is not needed.

Places in the text are counted in bytes of UTF-8, so the rules are stated on the
bytes, each of them as a character. A null character ends a time of day.
-/
namespace Concordance.Moment

/-- The number written by exactly `n` digits, and the text behind them. -/
def digits? (n : Nat) (t : Text) : Option (Nat × Text) :=
  let front := t.take n
  if front.length = n && front.all CodePoint.isDigit then
    some (front.foldl (fun k c => 10 * k + (c.toNat - 48)) 0, t.drop n)
  else none

def isLeapYear (year : Nat) : Bool := year % 4 = 0 && (year % 100 != 0 || year % 400 = 0)

def daysIn (year month : Nat) : Nat :=
  if month = 2 then if isLeapYear year then 29 else 28
  else if month = 4 || month = 6 || month = 9 || month = 11 then 30
  else 31

def isDay (year month day : Nat) : Bool :=
  1 ≤ year && 1 ≤ month && month ≤ 12 && 1 ≤ day && day ≤ daysIn year month

/-- The day of the week on which a year begins, Monday being zero. -/
def firstWeekday (year : Nat) : Nat :=
  let past := year - 1
  (past * 365 + past / 4 - past / 100 + past / 400) % 7

/-- Whether a year has 53 weeks: it begins on a Thursday, or in a leap year on a Wednesday. -/
def isLongYear (year : Nat) : Bool :=
  firstWeekday year = 3 || (firstWeekday year = 2 && isLeapYear year)

/-- Whether there is a day with these numbers in weeks. The last year ends before its last days of
the week, and the first one begins with a Monday. -/
def isWeekDay (year week day : Nat) : Bool :=
  1 ≤ year && 1 ≤ week && (week ≤ 52 || (week = 53 && isLongYear year)) && 1 ≤ day && day ≤ 7 &&
    !(year = 9999 && week = 52 && 5 < day)

def isDate (t : Text) : Bool :=
  match digits? 4 t with
  | none => false
  | some (year, rest) =>
    let (hyphen, rest) := match rest with
      | '-' :: r => (true, r)
      | r => (false, r)
    match rest with
    | 'W' :: r =>
      match digits? 2 r with
      | none => false
      | some (week, []) => isWeekDay year week 1
      | some (week, r) =>
        match
          (if hyphen then if r.head? = some (.char '-') then some r.tail else none else some r) with
        | none => false
        | some r =>
          match digits? 1 r with
          | some (day, []) => isWeekDay year week day
          | _ => false
    | r =>
      match digits? 2 r with
      | none => false
      | some (month, r) =>
        match
          (if hyphen then if r.head? = some (.char '-') then some r.tail else none else some r) with
        | none => false
        | some r =>
          match digits? 2 r with
          | some (day, []) => isDay year month day
          | _ => false

/-- Whether a character ends a clock and begins a fraction. -/
def isPoint (c : CodePoint) : Bool := c = '.' || c = ','

/-- Whether nothing is left of a text, or nothing that counts. -/
def isOver (t : Text) : Bool := t.isEmpty || t.head? = some '\x00'

/-- Reads a fraction, of which six digits count. Says whether the text is over after its digits. -/
def fraction? (t : Text) : Option Bool :=
  if t.isEmpty || !(t.take 6).all CodePoint.isDigit then none
  else some (isOver (t.dropWhile CodePoint.isDigit))

/-- Reads at most `n` numbers of two digits each, with colons between all of them or none, and then
a fraction. `colons` says which, once the first number has been read. Gives the numbers, and whether
the text is over behind them. -/
def numbers? : Nat → Option Bool → Text → Option (List Nat × Bool)
  | 0, _, t => (fraction? t).map ([], ·)
  | n + 1, colons, t => do
    let (number, t) ← digits? 2 t
    match t with
    | [] => some ([number], true)
    | [c] => some ([number], isOver [c])
    | c :: rest =>
      let colons := colons.getD (c = ':')
      if isPoint c then (fraction? rest).map ([number], ·)
      else if colons && c != ':' then none
      else (numbers? n (some colons) (if colons then rest else t)).map fun (numbers, whole) =>
        (number :: numbers, whole)

/-- Hours, minutes and seconds, as many as are given, and whether the text is over behind them. -/
def clock? (t : Text) : Option (Nat × Nat × Nat × Bool) :=
  (numbers? 3 none t).map fun (numbers, whole) =>
    (numbers.headD 0, (numbers.drop 1).headD 0, (numbers.drop 2).headD 0, whole)

/-- Whether a text is a time of day. What follows the time matters only where the text has to end
with it. -/
def isClock (toEnd : Bool) (t : Text) : Bool :=
  match clock? t with
  | some (hour, minute, second, whole) =>
    hour < 24 && minute < 60 && second < 60 && (whole || !toEnd)
  | none => false

/-- Whether a text is an offset of less than a day. -/
def isOffset (t : Text) : Bool :=
  match clock? t with
  | some (hour, minute, second, whole) => hour * 3600 + minute * 60 + second < 86400 && whole
  | none => false

/-- Whether a text is a time of day with an offset, if it names one. -/
def isTime (t : Text) : Bool :=
  let zone (c : CodePoint) : Bool := c = '+' || c = '-' || c = 'Z'
  let clock := t.takeWhile (!zone ·)
  match t.dropWhile (!zone ·) with
  | [] => isClock true clock
  | 'Z' :: rest => isClock false clock && isOver rest
  | _ :: rest => isClock false clock && isOffset rest

/-- Where the date ends and the character before the time stands. -/
def dateLength (t : Text) : Nat :=
  let digitAt (i : Nat) : Bool := (t[i]?.map CodePoint.isDigit).getD false
  if t.length = 7 then 7
  else if t[4]? = some (.char '-') then
    if t[5]? = some (.char 'W') then
      if t[8]? = some (.char '-') then if digitAt 10 then 8 else 10 else 8
    else 10
  else if t[4]? = some (.char 'W') then
    let stop := 7 + ((t.drop 7).takeWhile CodePoint.isDigit).length
    if stop < 9 then stop else if stop % 2 = 0 then 7 else 8
  else 8

/-- A text in which the half between a date and a time, if a half stands there, is a letter. -/
def separated (t : Text) : Text :=
  match [7, 8, 10].find? fun i => (t[i]?.map CodePoint.isHalf).getD false with
  | some i => t.set i 'T'
  | none => t

/-- The bytes of a text, each of them as a character. A text with halves has none. -/
def bytesOf? (t : Text) : Option Text := do
  let bytes ← t.mapM fun
    | .char c => some ((String.utf8EncodeChar c).map fun b => .char (Char.ofNat b.toNat))
    | .half _ => none
  return bytes.flatten

/-- The number of bytes of the character that begins with a byte. -/
def width (first : CodePoint) : Nat :=
  if first.toNat < 0x80 then 1
  else if first.toNat < 0xE0 then 2
  else if first.toNat < 0xF0 then 3
  else 4

/-- Whether a date is followed by a time of day, the first character between them being any. -/
def isBehindDate : Text → Bool
  | [] => true
  | first :: rest => isTime ((first :: rest).drop (width first))

def isMoment (t : Text) : Bool :=
  match bytesOf? (separated t) with
  | none => false
  | some bytes =>
    let n := dateLength bytes
    isDate (bytes.take n) && isBehindDate (bytes.drop n)

end Concordance.Moment
