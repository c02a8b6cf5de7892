import Concordance.Text.Case

/-!
# The Porter stemmer

A word is a sequence of vowels and consonants, and its measure counts the places
where a vowel is followed by a consonant. Eight steps take suffixes off, each under
a condition on what stands before the suffix. The conditions that concern short
words, the table of irregular words, and the last two rules of the second step
are additions to Porter's algorithm.

This is the stemmer of the language library that programs run with. What is stated of
indexes and queries holds for any other one too.
-/
namespace Concordance.Porter

/-- Whether `c` is a consonant after a letter of the given kind, if there is a letter before. -/
def consonantAfter (before : Option Bool) (c : CodePoint) : Bool :=
  match c with
  | 'a' | 'e' | 'i' | 'o' | 'u' => false
  | 'y' => !(before.getD false)
  | _ => true

/-- For each letter of a word whether it is a consonant, given the kind of the letter before. -/
def consonantsFrom (before : Option Bool) : Text → List Bool
  | [] => []
  | c :: rest => consonantAfter before c :: consonantsFrom (some (consonantAfter before c)) rest

/-- For each letter of a word whether it is a consonant. -/
def consonants (w : Text) : List Bool := consonantsFrom none w

/-- The number of vowels that are directly followed by a consonant. -/
def steps : List Bool → Nat
  | false :: true :: rest => steps (true :: rest) + 1
  | _ :: rest => steps rest
  | [] => 0

def measure (w : Text) : Nat := steps (consonants w)

def hasVowel (w : Text) : Bool := (consonants w).contains false

/-- Whether a word ends in one consonant written twice. -/
def endsDouble (w : Text) : Bool :=
  match w.reverse, (consonants w).reverse with
  | c :: d :: _, last :: _ => c == d && last
  | _, _ => false

/-- Whether a word ends like a short syllable: consonant, vowel, and a consonant other than w, x
and y. A word of just a vowel and a consonant counts too. -/
def endsShort (w : Text) : Bool :=
  match w.reverse, (consonants w).reverse with
  | [_, _], [true, false] => true
  | c :: _, true :: false :: true :: _ => c != 'w' && c != 'x' && c != 'y'
  | _, _ => false

def before? (suffix w : Text) : Option Text :=
  if suffix.isSuffixOf w then some (w.take (w.length - suffix.length)) else none

/-- A suffix, what takes its place, and the condition on what stands before it. -/
structure Rule where
  suffix : Text
  replacement : Text
  allows : Text → Bool

/-- The first rule whose suffix occurs decides: the suffix is replaced if the condition holds, and
else the word stays as it is. -/
def applyFirst? (w : Text) : List Rule → Option Text
  | [] => none
  | rule :: rest =>
    match before? rule.suffix w with
    | some stem => some (if rule.allows stem then stem ++ rule.replacement else w)
    | none => applyFirst? w rest

/-- The word after the first rule whose suffix occurs, if there is one. -/
def applyFirst (w : Text) (rules : List Rule) : Text := (applyFirst? w rules).getD w

def always (suffix replacement : String) : Rule :=
  ⟨suffix.toText, replacement.toText, fun _ => true⟩

/-- A rule for words whose measure before the suffix is positive. -/
def measured (suffix replacement : String) : Rule :=
  ⟨suffix.toText, replacement.toText, fun stem => 0 < measure stem⟩

/-- A rule that removes a suffix where the measure before it is at least two. -/
def removed (suffix : String) : Rule := ⟨suffix.toText, [], fun stem => 1 < measure stem⟩

def step1a (w : Text) : Text :=
  match before? "ies".toText w with
  | some [c] => [c, 'i', 'e']
  | _ => applyFirst w [always "sses" "ss", always "ies" "i", always "ss" "ss", always "s" ""]

/-- Whether a consonant at the end of a word is written once where a suffix had doubled it. -/
def writtenOnce (c : CodePoint) : Bool := c != 'l' && c != 's' && c != 'z'

/-- What is left of a word without its past or participle ending, made a word again. -/
def mended (stem : Text) : Text :=
  let last : Text := stem.getLast?.toList
  (applyFirst? stem [always "at" "ate", always "bl" "ble", always "iz" "ize"]).getD <|
    if endsDouble stem then if last.all writtenOnce then stem.dropLast else stem
    else applyFirst stem
      [⟨"*d".toText, last, fun _ => last.all writtenOnce⟩,
        ⟨[], ['e'], fun x => measure x == 1 && endsShort x⟩]

def step1b (w : Text) : Text :=
  match before? "ied".toText w with
  | some [c] => [c, 'i', 'e']
  | some stem => stem ++ "i".toText
  | none =>
    match before? "eed".toText w with
    | some stem => if 0 < measure stem then stem ++ "ee".toText else w
    | none =>
      let voiced (ending : String) := (before? ending.toText w).filter hasVowel
      match voiced "ed" <|> voiced "ing" with
      | some stem => mended stem
      | none => w

/-- A final y after a consonant, where more than one letter stands before it. -/
def step1c (w : Text) : Text :=
  let followsConsonant (stem : Text) : Bool :=
    1 < stem.length && (consonants stem).getLast? == some true
  applyFirst w [⟨['y'], ['i'], followsConsonant⟩]

def doubleSuffixes : List Rule :=
  [measured "ational" "ate", measured "tional" "tion", measured "enci" "ence",
    measured "anci" "ance", measured "izer" "ize", measured "bli" "ble", measured "alli" "al",
    measured "entli" "ent", measured "eli" "e", measured "ousli" "ous", measured "ization" "ize",
    measured "ation" "ate", measured "ator" "ate", measured "alism" "al",
    measured "iveness" "ive", measured "fulness" "ful", measured "ousness" "ous",
    measured "aliti" "al", measured "iviti" "ive", measured "biliti" "ble",
    measured "fulli" "ful",
    ⟨"logi".toText, "log".toText, fun stem => 0 < measure (stem ++ "l".toText)⟩]

/-- Double suffixes. An adverb of an adjective in -al is reduced to the adjective first. -/
def step2 (w : Text) : Text :=
  match (before? "alli".toText w).filter fun stem => 0 < measure stem with
  | some stem => applyFirst (stem ++ "al".toText) doubleSuffixes
  | none => applyFirst w doubleSuffixes

def step3 (w : Text) : Text :=
  applyFirst w
    [measured "icate" "ic", measured "ative" "", measured "alize" "al", measured "iciti" "ic",
      measured "ical" "ic", measured "ful" "", measured "ness" ""]

/-- Suffixes that are dropped after a measure of two or more. -/
def step4 (w : Text) : Text :=
  applyFirst w
    [removed "al", removed "ance", removed "ence", removed "er", removed "ic", removed "able",
      removed "ible", removed "ant", removed "ement", removed "ment", removed "ent",
      ⟨"ion".toText, [], fun stem =>
        1 < measure stem && (stem.getLast? == some 's' || stem.getLast? == some 't')⟩,
      removed "ou", removed "ism", removed "ate", removed "iti", removed "ous", removed "ive",
      removed "ize"]

def step5a (w : Text) : Text :=
  applyFirst w
    [⟨['e'], [], fun stem => 1 < measure stem || (measure stem == 1 && !endsShort stem)⟩]

def step5b (w : Text) : Text :=
  applyFirst w [⟨['l', 'l'], ['l'], fun stem => 1 < measure (stem ++ "l".toText)⟩]

/-- Words whose stems the steps would get wrong. -/
def irregular : List (Text × Text) :=
  [("skies", "sky"), ("sky", "sky"), ("dying", "die"), ("lying", "lie"), ("tying", "tie"),
    ("news", "news"), ("innings", "inning"), ("inning", "inning"), ("outings", "outing"),
    ("outing", "outing"), ("cannings", "canning"), ("canning", "canning"), ("howe", "howe"),
    ("proceed", "proceed"), ("exceed", "exceed"), ("succeed", "succeed")].map
      fun (word, stem) => (word.toText, stem.toText)

/-- The stem of a word in lower case. A word of one or two characters is its own stem. -/
def stem (word : Text) : Text :=
  let w := lower word
  match irregular.lookup w with
  | some s => s
  | none =>
    if word.length ≤ 2 then w
    else step5b (step5a (step4 (step3 (step2 (step1c (step1b (step1a w)))))))

end Concordance.Porter
