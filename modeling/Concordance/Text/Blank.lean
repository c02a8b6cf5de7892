import Concordance.Text

/-!
# Blank characters

The characters that separate words, and the two ways in which a text is cut at
them: trimming both ends, and splitting into the words in between.
-/
namespace Concordance

/-- The code points of the blank characters: the ASCII controls tab to carriage
return and the four separators, the space, next line, and the Unicode spaces. -/
def blankRanges : List (Nat × Nat) :=
  [(0x09, 0x0D), (0x1C, 0x20), (0x85, 0x85), (0xA0, 0xA0), (0x1680, 0x1680), (0x2000, 0x200A),
    (0x2028, 0x2029), (0x202F, 0x202F), (0x205F, 0x205F), (0x3000, 0x3000)]

def isBlank (c : CodePoint) : Bool := inRanges blankRanges c

/-- The text without the characters of a class at its two ends. -/
def trimBy (p : CodePoint → Bool) (t : Text) : Text :=
  ((t.dropWhile p).reverse.dropWhile p).reverse

def trim (t : Text) : Text := trimBy isBlank t

/-- A word that has been collected, if there is one: the empty word is none. -/
def finished (word : Text) : List Text := if word = [] then [] else [word]

/-- The words of a text after the part `current` of a word has been read. -/
def wordsFrom (current : Text) : Text → List Text
  | [] => finished current
  | c :: rest =>
    if isBlank c then finished current ++ wordsFrom [] rest
    else wordsFrom (current ++ [c]) rest

def words (t : Text) : List Text := wordsFrom [] t

end Concordance
