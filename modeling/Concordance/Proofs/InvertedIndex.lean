import Concordance.InvertedIndex
import Concordance.Proofs.Postings
import Concordance.Proofs.Table

/-!
# Counting terms

What the inverted index says of a term after a document has been added: the document
has the term as often as it is listed, and nothing changes for other documents.
-/
namespace Concordance.InvertedIndex

/-- The postings of a term, none if the term is not there. -/
def postingsOf (index : InvertedIndex Int) (term : Text) : Postings Int :=
  (index.dictionary.get? term).getD .empty

theorem frequency_eq (index : InvertedIndex Int) (term : Text) (doc : Int) :
    index.frequency term doc = (index.postingsOf term).frequency doc := by
  rw [frequency, postings?, postingsOf]
  cases index.dictionary.get? term <;> rfl

theorem docSet_eq (index : InvertedIndex Int) (term : Text) :
    index.docSet term = (index.postingsOf term).docSet := by
  rw [docSet, postings?, postingsOf]
  cases index.dictionary.get? term <;> rfl

theorem documentFrequency_eq (index : InvertedIndex Int) (term : Text) :
    index.documentFrequency term = (index.postingsOf term).size := by
  rw [documentFrequency, postings?, postingsOf]
  cases index.dictionary.get? term <;> rfl

theorem get?_dictionary_add (index : InvertedIndex Int) (doc : Int) (terms : List Text)
    (term : Text) :
    (index.add doc terms).dictionary.get? term =
      if term ∈ terms then some ((index.postingsOf term).add doc (terms.count term : Nat))
      else index.dictionary.get? term :=
  Table.get?_foldl_tally (count doc)
    (fun old n => (old.getD .empty).add doc (Amount.whole (n : Nat))) (fun _ _ => rfl) terms
    index.dictionary term

theorem postingsOf_add (index : InvertedIndex Int) (doc : Int) (terms : List Text)
    (term : Text) :
    (index.add doc terms).postingsOf term =
      if term ∈ terms then (index.postingsOf term).add doc (terms.count term : Nat)
      else index.postingsOf term := by
  rw [postingsOf, get?_dictionary_add]
  split <;> rfl

/-- Every term of the dictionary occurs, in documents that are listed once each and with positive
frequencies. -/
structure Sound (index : InvertedIndex Int) : Prop where
  strict : ∀ term, (index.postingsOf term).Strict
  positive : ∀ term, (index.postingsOf term).Positive
  occurs : ∀ term p, index.dictionary.get? term = some p → p.docs ≠ []

theorem sound_empty : (empty : InvertedIndex Int).Sound where
  strict _ := Postings.strict_empty
  positive _ := Postings.positive_empty
  occurs _ _ h := nomatch h

theorem Sound.add {index : InvertedIndex Int} (h : index.Sound) (doc : Int) (terms : List Text) :
    (index.add doc terms).Sound := by
  constructor
  · intro term
    rw [postingsOf_add]
    split
    · exact (h.strict term).add doc _
    · exact h.strict term
  · intro term
    rw [postingsOf_add]
    split
    · next hmem =>
      have hcount := List.count_pos_iff.mpr hmem
      exact (h.positive term).add (by omega)
    · exact h.positive term
  · intro term p hp
    rw [get?_dictionary_add] at hp
    split at hp
    · cases hp
      have hdoc : doc ∈ ((index.postingsOf term).add doc (terms.count term : Nat)).docs :=
        (h.strict term).mem_docs_add.mpr (.inl rfl)
      exact List.ne_nil_of_mem hdoc
    · exact h.occurs term p hp

theorem Sound.frequency_add {index : InvertedIndex Int} (h : index.Sound) (doc d : Int)
    (terms : List Text) (term : Text) :
    (index.add doc terms).frequency term d =
      index.frequency term d + if d = doc then (terms.count term : Int) else 0 := by
  rw [frequency_eq, frequency_eq, postingsOf_add]
  split
  · rw [(h.strict term).frequency_add]
  · next hmem => simp [List.count_eq_zero_of_not_mem hmem]

theorem Sound.documentFrequency_eq_length {index : InvertedIndex Int} (h : index.Sound)
    (term : Text) : index.documentFrequency term = (index.docSet term).ids.length := by
  rw [documentFrequency_eq, docSet_eq, (h.strict term).size_eq]

/-- A term has a positive frequency in exactly the documents of its set. -/
theorem Sound.frequency_pos {index : InvertedIndex Int} (h : index.Sound) {term : Text} {d : Int} :
    0 < index.frequency term d ↔ d ∈ index.docSet term := by
  rw [frequency_eq, docSet_eq, (h.positive term).frequency_pos, Postings.mem_docSet]

/-- The terms of the dictionary are those that occur. -/
theorem Sound.mem_keys {index : InvertedIndex Int} (h : index.Sound) {term : Text} :
    term ∈ index.dictionary.keys ↔ ∃ d, d ∈ index.docSet term := by
  simp only [Table.mem_keys, docSet_eq, Postings.mem_docSet, postingsOf]
  cases hp : index.dictionary.get? term with
  | none => simp [Postings.docs, Postings.empty]
  | some p =>
    have hdocs := List.exists_mem_of_ne_nil p.docs (h.occurs term p hp)
    simpa using hdocs

end Concordance.InvertedIndex
