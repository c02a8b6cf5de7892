import Concordance.Number.Decimal
import Concordance.Number.Ratio
import Concordance.Order

/-!
# Ranking

Matches are ranked by the sum, over the words of the query, of how large a part of
the document the word makes up, weighted by how rare it is: the logarithm of the
number of all documents over the number of those that have it. Quotients of counts
are rounded exactly; the sum is taken in the order of the words.
-/
namespace Concordance

/-- A document that matches a query, with its score. -/
structure Hit where
  doc : Int
  score : Float

namespace Hit

/-- Whether a hit comes before another one: it has the higher score, or the same score and the
smaller id. -/
def before (a b : Hit) : Bool := b.score < a.score || (a.score == b.score && a.doc < b.doc)

def ranked (hits : List Hit) : List Hit := sortBy (fun a b => !b.before a) hits

def describe (hit : Hit) : Text :=
  "QueryResult(doc_id=".toText ++ decimal hit.doc ++ ", score=".toText ++ fixedPlaces 4 hit.score ++
    [.char ')']

end Hit

/-- The counts of an index on which ranking rests. -/
structure Counts where
  frequency : Text → Int → Except Failure Int
  length : Int → Except Failure Int
  documentFrequency : Text → Except Failure Int
  documentCount : Except Failure Int

namespace Counts

/-- The weight of a term: the natural logarithm of the number of all documents over the number of
those that have the term, and zero where none has it. -/
def weight (counts : Counts) (term : Text) : Except Failure Float := do
  let having ← counts.documentFrequency term
  if having ≤ 0 then return 0.0
  else
    let share ← ratio (← counts.documentCount) having
    if share.mantissa = 0 || share.negative then .error .logarithmDomain
    else return share.toFloat.log

abbrev Weights := List (Text × Float)

/-- The weight of a term, computed unless it is known, and the weights known afterwards. -/
def weightOnce (counts : Counts) (known : Weights) (term : Text) :
    Except Failure (Float × Weights) :=
  match known.lookup term with
  | some weight => .ok (weight, known)
  | none => do
    let weight ← counts.weight term
    return (weight, (term, weight) :: known)

/-- Adds the share of the remaining terms to the score of a document of the given length. A term
that does not occur in it counts nothing, and its weight is not asked for. -/
def addTerms (counts : Counts) (doc length : Int) (known : Weights) (score : Float) :
    List Text → Except Failure (Float × Weights)
  | [] => .ok (score, known)
  | term :: rest => do
    let f ← counts.frequency term doc
    if f ≤ 0 then addTerms counts doc length known score rest
    else
      let (weight, known) ← counts.weightOnce known term
      let part ← ratio f length
      addTerms counts doc length known (score + part.toFloat * weight) rest

/-- The scores of documents, in the order in which they are listed. -/
def scoreEach (counts : Counts) (terms : List Text) (known : Weights) :
    List Int → Except Failure (List Hit)
  | [] => .ok []
  | doc :: rest => do
    let length := max (← counts.length doc) 1
    let (score, known) ← addTerms counts doc length known 0.0 terms
    return ⟨doc, score⟩ :: (← scoreEach counts terms known rest)

/-- The documents of a list with their scores for the given terms, the best first. -/
def score (counts : Counts) (docs : List Int) (terms : List Text) : Except Failure (List Hit) :=
  (counts.scoreEach terms [] docs).map Hit.ranked

end Counts

end Concordance
