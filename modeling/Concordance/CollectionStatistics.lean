import Concordance.DocumentStore
import Concordance.Json.Amount

/-!
# Statistics of a collection

The number of words of each document, with their count, their sum and their mean.
`α` is the type of all counts.
-/
namespace Concordance

variable {α : Type} [Amount α]

/-- The lengths of documents, and figures about all of them. -/
structure CollectionStatistics (α : Type) where
  documents : α
  words : α
  /-- The mean length, in the form in which it was computed or stored. -/
  mean : Json
  lengths : Table Int α

namespace CollectionStatistics

def empty : CollectionStatistics α := ⟨Amount.whole 0, Amount.whole 0, .float 0.0, .empty⟩

instance : Inhabited (CollectionStatistics α) := ⟨empty⟩

def length? (s : CollectionStatistics α) (doc : Int) : Option α := s.lengths.get? doc

/-- The mean length, computed anew. When it cannot be computed the old one stays. -/
def withMean (s : CollectionStatistics α) : CollectionStatistics α × Option Failure :=
  match Amount.divide s.words s.documents with
  | .ok mean => ({ s with mean := .float mean }, none)
  | .error e => (s, some e)

def withWords (s : CollectionStatistics α) (length : α) : CollectionStatistics α × Option Failure :=
  match Amount.plus s.words length with
  | .ok words => withMean { s with words := words }
  | .error e => (s, some e)

/-- The statistics with one more document of the given length. -/
def withDocument (s : CollectionStatistics α) (length : α) :
    CollectionStatistics α × Option Failure :=
  match Amount.plus s.documents (Amount.whole 1) with
  | .ok documents => withWords { s with documents := documents } length
  | .error e => (s, some e)

/-- Records the length of a document. Whatever was recorded before a failure stays. -/
def record (s : CollectionStatistics α) (doc : Int) (length : α) :
    CollectionStatistics α × Option Failure :=
  if s.lengths.contains doc then (s, some (.lengthRecorded doc))
  else withDocument { s with lengths := s.lengths.set doc length } length

/-- Statistics as a value, with the ids kept in the given way. -/
def write (keys : IdKeys) (s : CollectionStatistics α) : Json :=
  .obj [("num_documents".toText, Amount.toJson s.documents),
    ("total_terms".toText, Amount.toJson s.words), ("avg_document_length".toText, s.mean),
    ("document_lengths".toText, keys.write Amount.toJson s.lengths)]

/-- The statistics that are kept as a value. -/
def read (keys : IdKeys) (j : Json) : Except Failure (CollectionStatistics α) := do
  let documents ← Amount.ofJson (← j.field "num_documents".toText)
  let words ← Amount.ofJson (← j.field "total_terms".toText)
  let mean ← j.field "avg_document_length".toText
  let lengths ← keys.read Amount.ofJson (← j.field "document_lengths".toText)
  return ⟨documents, words, mean, lengths⟩

/-- Statistics as they stand in text. -/
def toJson (s : CollectionStatistics α) : Json := s.write .names

def ofJson (j : Json) : Except Failure (CollectionStatistics α) := read .names j

end CollectionStatistics

end Concordance
