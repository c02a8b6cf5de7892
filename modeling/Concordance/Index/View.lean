import Concordance.DocSet
import Concordance.Ranking

/-!
# What a search reads of an index

The counts, the postings and the contents of an index. Every one of them can fail,
since an index may hold nothing yet.
-/
namespace Concordance

/-- What can be read of an index. -/
structure IndexView extends Counts where
  postings : Text → Except Failure DocSet
  content : Int → Except Failure (Option Text)
  documents : Except Failure (List Int)

namespace IndexView

/-- The view of an index of which every part fails in the same way. -/
def failing (e : Failure) : IndexView where
  frequency _ _ := .error e
  length _ := .error e
  documentFrequency _ := .error e
  documentCount := .error e
  postings _ := .error e
  content _ := .error e
  documents := .error e

end IndexView

end Concordance
