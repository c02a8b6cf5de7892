import Concordance.Json.Display
import Concordance.Json.Fields
import Concordance.Stemmer
import Concordance.Text.Blank

/-!
# Text analysis

An analyzer turns the text of a document into the words it is made of, and these
into the terms under which the document is found.
-/
namespace Concordance

/-- How texts are analysed. -/
structure Analyzer where
  lowercase : Bool
  punctuation : Text
  stemmer : Stemmer
  stopwords : List Text

/-- The settings from which an analyzer is made, as they are given, with the library it uses. -/
structure AnalyzerOptions where
  language : Language
  lowercase : Bool
  punctuation : Json
  stemmer : Json
  stemming : Bool
  removeStopwords : Bool
  stopwords : Json

/-- The characters that are taken out of texts unless others are named. -/
def defaultPunctuation : Text := ['.', ',', '!', '?']

namespace Analyzer

def stemmerOf (l : Language) : Json → Except Failure Stemmer
  | .str name => Stemmer.named l name
  | other => do throw (.unknownStemmer (← other.shown))

/-- The stopwords that are listed, those of the language if there are none. Only texts are words. -/
def stopwordsOf (l : Language) (listed : Json) : Except Failure (List Text) :=
  if listed.isEmpty then .ok l.stopwords
  else do
    return (← listed.elements).filterMap fun
      | .str t => some t
      | _ => none

/-- The analyzer with the given settings. The punctuation is looked at first, then the stemmer. -/
def ofOptions (o : AnalyzerOptions) : Except Failure Analyzer := do
  let punctuation ← o.punctuation.text
  let stemmer ← if o.stemming then stemmerOf o.language o.stemmer else pure .none
  let stopwords ← if o.removeStopwords then stopwordsOf o.language o.stopwords else pure []
  return ⟨o.lowercase, punctuation, stemmer, stopwords⟩

/-- The words of a text: it is put in lower case if asked for, loses its punctuation, and is cut at
blanks; stopwords are left out. -/
def tokens (a : Analyzer) (text : Text) : List Text :=
  let folded := if a.lowercase then lower text else text
  (words (folded.filter (· ∉ a.punctuation))).filter (· ∉ a.stopwords)

def stem (a : Analyzer) (word : Text) : Text := a.stemmer.stem word

/-- The terms of a text, one for each of its words. -/
def terms (a : Analyzer) (text : Text) : List Text := (a.tokens text).map a.stem

end Analyzer

end Concordance
