import Concordance.Failure
import Concordance.Language
import Concordance.Text.Case

/-!
# Stemmers

The ways in which a word is reduced to the term that stands for it in an index. One of
them comes from the language library; the others put the word in lower case.
-/
namespace Concordance

/-- The kinds of stemmers. -/
inductive StemmerKind where
  | porter
  | suffix
  | none
  deriving DecidableEq

def StemmerKind.name : StemmerKind → Text
  | porter => "porter".toText
  | suffix => "suffix".toText
  | none => "none".toText

/-- A way to reduce words to terms. -/
structure Stemmer where
  kind : StemmerKind
  stem : Text → Text

namespace Stemmer

def name (s : Stemmer) : Text := s.kind.name

/-- A lower-case word without its ending -ing, else -ed, else -s, unless it ends in -ss. Words of
one or two characters keep their endings. -/
def withoutEnding (w : Text) : Text :=
  if w.length ≤ 2 then w
  else if "ing".toText.isSuffixOf w then w.take (w.length - 3)
  else if "ed".toText.isSuffixOf w then w.take (w.length - 2)
  else if "s".toText.isSuffixOf w && !("ss".toText.isSuffixOf w) then w.take (w.length - 1)
  else w

def porter (l : Language) : Stemmer := ⟨.porter, l.porterStem⟩

/-- Only the endings -ing, -ed and -s are taken off. -/
def suffix : Stemmer := ⟨.suffix, fun w => withoutEnding (lower w)⟩

def none : Stemmer := ⟨.none, lower⟩

def named (l : Language) (name : Text) : Except Failure Stemmer :=
  match [porter l, suffix, none].find? (·.name = name) with
  | some s => .ok s
  | .none => .error (.unknownStemmer name)

end Stemmer

end Concordance
