import Concordance.Text.CaseTables

/-!
# Letter case

The lower-case form of a text, and the capitals in which keywords are compared.
Two letters are not mapped one to one: a capital I with dot keeps its dot as a
combining mark, and a capital sigma takes its final form at the end of a word.
-/
namespace Concordance

/-- Whether a letter has case, the case-ignorable ones left aside. -/
def isCased (c : CodePoint) : Bool := inRanges casedRanges c

/-- Whether a character is passed over when the neighbours of a letter are sought. -/
def isCaseIgnorable (c : CodePoint) : Bool := inRanges caseIgnorableRanges c

/-- Whether the first character that counts is a letter with case. -/
def meetsCased (t : Text) : Bool :=
  ((t.dropWhile isCaseIgnorable).head?.map isCased).getD false

/-- Whether a run of the table has the code point `n`. -/
def CaseRun.covers (run : CaseRun) (n : Nat) : Bool :=
  run.first ≤ n && n ≤ run.last && (n - run.first) % run.step == 0

def lowerChar (c : CodePoint) : CodePoint :=
  if c.toNat < 128 then c.toLower
  else match lowerRuns.find? (·.covers c.toNat) with
    | some run => .ofNat (c.toNat + run.shift).toNat
    | none => c

/-- The lower-case form of `c` between the reversed text `before` and the text `after`. -/
def lowerBetween (before after : Text) (c : CodePoint) : Text :=
  if c = '\u0130' then ['i', '\u0307']
  else if c = '\u03A3' then
    [if meetsCased before && !meetsCased after then '\u03C2' else '\u03C3']
  else [lowerChar c]

/-- The lower-case form of a text that follows the reversed text `before`. -/
def lowerFrom (before : Text) : Text → Text
  | [] => []
  | c :: rest => lowerBetween before rest c ++ lowerFrom (c :: before) rest

def lower (t : Text) : Text := lowerFrom [] t

/-- The capitals of a character whose capitals are ASCII letters; any other character
stands for itself, since it cannot take part in the spelling of a keyword. -/
def capitals (c : CodePoint) : Text :=
  match c with
  | '\u00DF' => ['S', 'S']
  | '\u0131' => ['I']
  | '\u017F' => ['S']
  | '\uFB00' => ['F', 'F']
  | '\uFB01' => ['F', 'I']
  | '\uFB02' => ['F', 'L']
  | '\uFB03' => ['F', 'F', 'I']
  | '\uFB04' => ['F', 'F', 'L']
  | '\uFB05' | '\uFB06' => ['S', 'T']
  | _ => [c.toUpper]

/-- A text in the capitals in which keywords are spelled. -/
def upper (t : Text) : Text := t.flatMap capitals

end Concordance
