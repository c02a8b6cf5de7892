import Concordance.Postings
import Concordance.Table

/-!
# The inverted index

For every term the postings of the documents it occurs in, with the number of
documents and of words that have been added. `α` is the type of all counts.
-/
namespace Concordance

variable {α : Type} [Amount α]

/-- The postings of all terms. -/
structure InvertedIndex (α : Type) where
  dictionary : Table Text (Postings α)
  documents : α
  words : α

namespace InvertedIndex

def empty : InvertedIndex α := ⟨.empty, Amount.whole 0, Amount.whole 0⟩

instance : Inhabited (InvertedIndex α) := ⟨empty⟩

/-- The dictionary with `n` more occurrences of a term in a document. -/
def count (doc : Int) (dictionary : Table Text (Postings α)) (entry : Text × Nat) :
    Table Text (Postings α) :=
  dictionary.set entry.1 (((dictionary.get? entry.1).getD .empty).add doc (Amount.whole entry.2))

/-- Adds a document with the given terms, each as often as it is listed. -/
def add (index : InvertedIndex α) (doc : Int) (terms : List Text) : InvertedIndex α where
  dictionary := (Table.tally terms).entries.foldl (count doc) index.dictionary
  documents := Amount.grow index.documents (Amount.whole 1)
  words := Amount.grow index.words (Amount.whole terms.length)

def postings? (index : InvertedIndex α) (term : Text) : Option (Postings α) :=
  index.dictionary.get? term

def docSet (index : InvertedIndex α) (term : Text) : DocSet :=
  ((index.postings? term).map (·.docSet)).getD .empty

def documentFrequency (index : InvertedIndex α) (term : Text) : Nat :=
  ((index.postings? term).map (·.size)).getD 0

def frequency (index : InvertedIndex α) (term : Text) (doc : Int) : α :=
  ((index.postings? term).map (·.frequency doc)).getD (Amount.whole 0)

/-- How often a term occurs in the document with a given id, which may be any number. -/
def frequencyBy (index : InvertedIndex α) (term : Text) (id : Json) : Except Failure α :=
  match index.postings? term with
  | none => .ok (Amount.whole 0)
  | some p => do return ((← p.findBy id).map (·.frequency)).getD (Amount.whole 0)

/-- The ids that stand in the postings of any term. -/
def ids (index : InvertedIndex α) : List Int :=
  index.dictionary.entries.flatMap fun e => e.2.entries.map (·.doc)

def statistics (index : InvertedIndex α) : Json :=
  let vocabulary := index.dictionary.size
  let lengths : Nat := index.dictionary.entries.foldr (fun e n => e.2.size + n) 0
  .obj [("num_documents".toText, Amount.toJson index.documents),
    ("vocabulary_size".toText, .int vocabulary),
    ("total_tokens".toText, Amount.toJson index.words),
    ("avg_document_length".toText, Amount.reportedMean index.words index.documents),
    ("avg_postings_length".toText, Amount.reportedMean (lengths : Int) (vocabulary : Int))]

def toJson (index : InvertedIndex α) : Json :=
  .obj [("dictionary".toText, .obj (index.dictionary.entries.map fun e => (e.1, e.2.toJson))),
    ("statistics".toText, index.statistics)]

def ofJson (j : Json) : Except Failure (InvertedIndex α) := do
  let stored ← (← j.field "dictionary".toText).membersOf
  let entries ← stored.mapM fun (term, value) => return (term, ← Postings.ofJson value)
  let statistics ← j.field "statistics".toText
  let documents ← Amount.ofJson (← statistics.field "num_documents".toText)
  let words ← Amount.ofJson (← statistics.field "total_tokens".toText)
  return ⟨.ofList entries, documents, words⟩

end InvertedIndex

end Concordance
