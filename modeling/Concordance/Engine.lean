import Concordance.Analyzer
import Concordance.Index.View
import Concordance.Json.Display
import Concordance.Json.Fields
import Concordance.Json.Integer
import Concordance.Query.Evaluation
import Concordance.Text.Surrogates

/-!
# Searching

A query with a connective in capitals is evaluated as a boolean query. Any other one
asks for the documents that have all of its words. The matches are ranked.
-/
namespace Concordance

/-- How queries are answered. -/
structure Engine where
  punctuation : Text
  stemmer : Stemmer
  /-- The greatest depth to which parentheses may nest, as it is given. -/
  maxDepth : Json
  /-- The number of results that are shown unless a query asks for another one. -/
  maxResults : Json

/-- A result as it is shown. -/
structure Result where
  rank : Nat
  doc : Int
  score : Float
  content : Option Text

/-- The answer to a query: the results that are shown, and the number of all matches. -/
structure Answer where
  query : Text
  results : List Result
  total : Nat

/-- The answer as it is read of its text, in which a pair is a character. An id that cannot be
written leaves no text. -/
def Answer.written (a : Answer) : Except Failure Answer :=
  if a.results.all fun r => isWritable r.doc then .ok { a with query := paired a.query }
  else .error .tooManyDigits

/-- The first `k` items of a list, or for a negative `k` all but the last `-k`. -/
def upTo {α : Type} (k : Int) (items : List α) : List α :=
  items.take (if k < 0 then (items.length + k).toNat else k.toNat)

namespace Engine

def tokens (e : Engine) (query : Text) : List Text := queryTokens e.punctuation true query

/-- Whether a query asks for all of its words: it has at most one token, or none of its tokens is a
connective in capitals. -/
def isConjunction (e : Engine) (query : Text) : Bool :=
  (e.tokens query).length ≤ 1 || !(queryTokens e.punctuation false query).any isKeyword

/-- The words of a query that asks for all of its words. -/
def conjunctionWords (tokens : List Text) : List Text :=
  tokens.filter fun token => token != [.char '('] && token != [.char ')'] && !isKeyword token

def conjunction (e : Engine) (v : IndexView) (tokens : List Text) : Except Failure DocSet := do
  let sets ← (conjunctionWords tokens).mapM fun word => v.postings (e.stemmer.stem word)
  return (DocSet.interMany sets).1

/-- The limit of depth for a query of `count` tokens, which cannot nest deeper than that. A double
allows the depths that are not greater. -/
def depthLimit (e : Engine) (count : Nat) : Except Failure DepthLimit := do
  let greatest : Int ← match e.maxDepth with
    | .float x =>
      match Dyadic.ofFloat x with
      | some d => pure d.floor
      | none => pure (if x < 0.0 then -1 else count)
    | value => value.wholeNumber
  return ⟨greatest, e.maxDepth.display⟩

def boolean (e : Engine) (v : IndexView) (tokens : List Text) : Except Failure DocSet := do
  let limit ← e.depthLimit tokens.length
  evaluate (fun word => v.postings (e.stemmer.stem word)) limit tokens

def matching (e : Engine) (v : IndexView) (query : Text) : Except Failure DocSet :=
  if e.isConjunction query then e.conjunction v (e.tokens query) else e.boolean v (e.tokens query)

/-- The matches of a query with their scores, the best first. -/
def search (e : Engine) (v : IndexView) (query : Text) : Except Failure (List Hit) := do
  let docs ← e.matching v query
  v.score docs.ids ((rankingWords (e.tokens query)).map e.stemmer.stem)

/-- The hits that are shown under a limit; an empty limit is none. -/
def shown (limit : Json) (hits : List Hit) : Except Failure (List Hit) :=
  if limit.isEmpty then .ok hits
  else match limit.wholeNumber with
    | .ok k => .ok (upTo k hits)
    | .error e => .error e

/-- Results with the contents of their documents, the first of which has the given rank. -/
def resultsFrom (v : IndexView) (rank : Nat) : List Hit → Except Failure (List Result)
  | [] => .ok []
  | hit :: rest => do
    let content ← v.content hit.doc
    return ⟨rank, hit.doc, hit.score, content⟩ :: (← resultsFrom v (rank + 1) rest)

/-- Answers a query. The limit of the engine counts where the query has none. -/
def answer (e : Engine) (v : IndexView) (query : Text) (limit : Json) : Except Failure Answer := do
  let hits ← e.search v query
  let results ← resultsFrom v 1 (← shown (if limit.isEmpty then e.maxResults else limit) hits)
  return ⟨query, results, hits.length⟩

end Engine

end Concordance
