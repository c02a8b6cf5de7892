import Concordance.Text

/-!
# The language library

What the analysis of texts takes from a library for natural languages. It is the same
wherever a program runs, and nothing is known of it.
-/
namespace Concordance

/-- A library for a natural language. -/
class Language where
  /-- The stem of a word by Porter's algorithm. -/
  porterStem : Text → Text
  /-- The words that are too common to tell documents apart. -/
  stopwords : List Text

end Concordance
