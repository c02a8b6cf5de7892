import Concordance.Proofs.InvertedIndex
import Mathlib.Data.Finset.Card
import Mathlib.Data.List.Induction

/-!
# What an inverted index counts

An inverted index is filled by additions, each of an id with terms. An id may come again, and
a term may be listed more than once. All that the index then says of terms and documents is told by
the list of what has been added.
-/
namespace Concordance

/-- A document as it is added to an inverted index: its id and its terms, as often as they occur. -/
abbrev Addition := Int × List Text

namespace Addition

variable (added : List Addition)

/-- How often a term occurs in all that is added under an id. -/
def occurrences (term : Text) (doc : Int) : Nat :=
  ((added.filter fun a => a.1 = doc).map fun a => a.2.count term).sum

/-- The ids under which a term is added. -/
def docs (term : Text) : Finset Int :=
  ((added.filter fun a => a.2.contains term).map Prod.fst).toFinset

def words : Nat := (added.map fun a => a.2.length).sum

variable {added}

theorem occurrences_append (a : Addition) (term : Text) (doc : Int) :
    occurrences (added ++ [a]) term doc =
      occurrences added term doc + if doc = a.1 then a.2.count term else 0 := by
  rw [occurrences, List.filter_append, List.map_append, List.sum_append, occurrences]
  by_cases hdoc : doc = a.1
  · simp [hdoc]
  · simp [hdoc, Ne.symm hdoc]

theorem words_append (a : Addition) : words (added ++ [a]) = words added + a.2.length := by
  simp [words]

theorem mem_docs {term : Text} {doc : Int} :
    doc ∈ docs added term ↔ 0 < occurrences added term doc := by
  rw [docs, occurrences, List.mem_toFinset, List.mem_map, List.sum_pos_iff_exists_pos_nat]
  constructor
  · rintro ⟨a, ha, rfl⟩
    rw [List.mem_filter, List.contains_iff_mem] at ha
    refine ⟨a.2.count term, List.mem_map.mpr ⟨a, ?_, rfl⟩, List.count_pos_iff.mpr ha.2⟩
    simpa using ha.1
  · rintro ⟨n, hn, hpos⟩
    obtain ⟨a, ha, rfl⟩ := List.mem_map.mp hn
    rw [List.mem_filter, decide_eq_true_iff] at ha
    refine ⟨a, ?_, ha.2⟩
    simpa [List.count_pos_iff] using And.intro ha.1 hpos

end Addition

namespace InvertedIndex

open Addition (occurrences docs)

/-- The index after additions, one after the other. -/
def addAll (index : InvertedIndex Int) (added : List Addition) : InvertedIndex Int :=
  added.foldl (fun index a => index.add a.1 a.2) index

theorem addAll_append (index : InvertedIndex Int) (added more : List Addition) :
    index.addAll (added ++ more) = (index.addAll added).addAll more :=
  List.foldl_append

/-- How often all terms of a dictionary occur together. -/
def totalOf (dictionary : Table Text (Postings Int)) : Int :=
  (dictionary.entries.map fun e => e.2.total).sum

theorem totalOf_count (doc : Int) (dictionary : Table Text (Postings Int)) (entry : Text × Nat) :
    totalOf (count doc dictionary entry) = totalOf dictionary + entry.2 := by
  have hset := Table.sum_set Postings.total dictionary entry.1
    (((dictionary.get? entry.1).getD .empty).add doc (entry.2 : Nat))
  -- A term that is new has no occurrences so far.
  have hold : ((dictionary.get? entry.1).map Postings.total).getD 0 =
      ((dictionary.get? entry.1).getD .empty).total := by
    cases dictionary.get? entry.1 <;> rfl
  rw [hold, Postings.total_add] at hset
  show ((dictionary.set entry.1 _).entries.map fun e => e.2.total).sum = _
  rw [totalOf]
  simp only [Amount.whole_int]
  omega

/-- Every word that is added is counted in the postings of its term. -/
theorem totalOf_add (index : InvertedIndex Int) (doc : Int) (terms : List Text) :
    totalOf (index.add doc terms).dictionary = totalOf index.dictionary + terms.length := by
  have hcounted (l : List (Text × Nat)) (dictionary : Table Text (Postings Int)) :
      totalOf (l.foldl (count doc) dictionary) =
        totalOf dictionary + ((l.map Prod.snd).sum : Nat) := by
    induction l generalizing dictionary with
    | nil => simp
    | cons entry rest ih =>
      rw [List.foldl_cons, ih, totalOf_count, List.map_cons, List.sum_cons]
      omega
  exact (hcounted _ _).trans (by rw [Table.sum_tally])

/-- The index is what additions make of an empty one. -/
structure Reflects (added : List Addition) (index : InvertedIndex Int) : Prop where
  sound : index.Sound
  frequency : ∀ term doc, index.frequency term doc = occurrences added term doc
  words : index.words = Addition.words added
  total : totalOf index.dictionary = Addition.words added

theorem reflects_empty : Reflects [] empty where
  sound := sound_empty
  frequency _ _ := rfl
  words := rfl
  total := rfl

theorem Reflects.add {added : List Addition} {index : InvertedIndex Int} (h : Reflects added index)
    (a : Addition) : Reflects (added ++ [a]) (index.add a.1 a.2) where
  sound := h.sound.add a.1 a.2
  frequency term doc := by
    rw [h.sound.frequency_add, h.frequency, Addition.occurrences_append]
    split <;> simp
  words := by
    show index.words + (a.2.length : Int) = _
    rw [h.words, Addition.words_append]
    omega
  total := by
    rw [totalOf_add, h.total, Addition.words_append]
    omega

theorem reflects_addAll (added : List Addition) : Reflects added (empty.addAll added) := by
  induction added using List.reverseRecOn with
  | nil => exact reflects_empty
  | append_singleton added a ih =>
    rw [addAll_append]
    exact ih.add a

namespace Reflects

variable {added : List Addition} {index : InvertedIndex Int}

theorem mem_docSet (h : Reflects added index) {term : Text} {doc : Int} :
    doc ∈ index.docSet term ↔ doc ∈ docs added term := by
  rw [← h.sound.frequency_pos, h.frequency, Addition.mem_docs]
  omega

theorem documentFrequency (h : Reflects added index) (term : Text) :
    index.documentFrequency term = (docs added term).card := by
  have hnodup : (index.docSet term).ids.Nodup :=
    (index.docSet term).increasing.imp fun hlt => by omega
  rw [h.sound.documentFrequency_eq_length, ← List.toFinset_card_of_nodup hnodup]
  congr 1
  ext doc
  rw [List.mem_toFinset, ← h.mem_docSet]
  rfl

theorem mem_keys (h : Reflects added index) {term : Text} :
    term ∈ index.dictionary.keys ↔ 0 < (docs added term).card := by
  rw [h.sound.mem_keys, Finset.card_pos]
  exact exists_congr fun _ => h.mem_docSet

theorem docs_of_postings (h : Reflects added index) {term : Text} {p : Postings Int}
    (hp : index.postings? term = some p) :
    p.docs.Pairwise (· < ·) ∧ ∀ doc, doc ∈ p.docs ↔ doc ∈ docs added term := by
  have heq : index.postingsOf term = p := by rw [postingsOf, ← postings?, hp, Option.getD_some]
  refine ⟨?_, fun doc => ?_⟩
  · rw [← heq]
    exact (h.sound.strict term).docs_increasing
  · rw [← h.mem_docSet, docSet_eq, Postings.mem_docSet, heq]

end Reflects

/-- What is read of an index that has been filled from nothing is the plain count of what has been
added: how often a term occurs under an id, under how many ids, and under which ones, in their
order. No word is lost, neither in the sum of all words nor in the postings of the terms. -/
theorem counts_addAll (added : List Addition) :
    let index := empty.addAll added
    (∀ term doc, index.frequency term doc = occurrences added term doc) ∧
      (∀ term, index.documentFrequency term = (docs added term).card) ∧
      (∀ term, term ∈ index.dictionary.keys ↔ 0 < (docs added term).card) ∧
      (∀ term p, index.postings? term = some p →
        p.docs.Pairwise (· < ·) ∧ ∀ doc, doc ∈ p.docs ↔ doc ∈ docs added term) ∧
      index.words = Addition.words added ∧
      index.words = (index.dictionary.entries.map fun e => e.2.total).sum := by
  intro index
  have h : Reflects added index := reflects_addAll added
  exact ⟨h.frequency, h.documentFrequency, fun _ => h.mem_keys, fun _ _ => h.docs_of_postings,
    h.words, h.words.trans h.total.symm⟩

/-- A term that comes twice in one addition and again under the same id. -/
example : let added : List Addition := [(4, [['b'], ['a'], ['b']]), (-1, [['b']]), (4, [['b']])]
    let index := empty.addAll added
    (index.frequency ['b'] 4, (index.postings? ['b']).map (·.docs), index.words) =
      (3, some [-1, 4], 5) := by
  decide

end InvertedIndex

end Concordance
