import Concordance.Proofs.MemoryIndex
import Mathlib.Algebra.BigOperators.Ring.Finset

/-!
# Tables that fit together

The three tables of an index are kept apart and say much of the same twice. They fit
together when what one of them says follows from what another says. Tables that
represent a collection do.
-/
namespace Concordance

/-- Elements that all lie in a set are counted over the set. -/
theorem sum_count_eq_length {α : Type} [BEq α] [LawfulBEq α] [DecidableEq α] {s : Finset α}
    {l : List α} (h : ∀ a ∈ l, a ∈ s) : ∑ a ∈ s, l.count a = l.length := by
  have hbeq : ‹BEq α› = instBEqOfDecidableEq := lawful_beq_subsingleton _ _
  subst hbeq
  have hsum := Multiset.sum_count_eq_card (m := (l : Multiset α)) (s := s) (by simpa using h)
  simpa using hsum

namespace Tables

def vocabulary (t : Tables) : Finset Text := t.terms.dictionary.keys.toFinset

structure Coherent (t : Tables) : Prop where
  /-- Contents and lengths are those of the same documents. -/
  ids : ∀ d, d ∈ t.statistics.lengths.keys ↔ d ∈ t.contents.contents.keys
  documents : t.statistics.documents = t.contents.size
  terms_documents : t.terms.documents = t.contents.size
  /-- A document is as long as its terms are frequent. -/
  lengths : ∀ d n, t.statistics.length? d = some n →
    n = ∑ term ∈ t.vocabulary, t.terms.frequency term d
  /-- What is not stored has no terms. -/
  absent : ∀ d, d ∉ t.contents.contents.keys →
    ∑ term ∈ t.vocabulary, t.terms.frequency term d = 0
  words : t.statistics.words = (t.statistics.lengths.entries.map Prod.snd).sum
  terms_words : t.terms.words = (t.statistics.lengths.entries.map Prod.snd).sum
  /-- Every term occurs, and in stored documents only. -/
  occurs : ∀ term ∈ t.vocabulary, ∃ d, d ∈ t.terms.docSet term
  stored : ∀ term ∈ t.vocabulary, ∀ d ∈ t.terms.docSet term, d ∈ t.contents.contents.keys
  documentFrequency : ∀ term ∈ t.vocabulary,
    t.terms.documentFrequency term = (t.terms.docSet term).ids.length ∧
      1 ≤ t.terms.documentFrequency term ∧ t.terms.documentFrequency term ≤ t.contents.size

namespace Represents

variable {a : Analyzer} {docs : Collection} {t : Tables}

theorem mem_vocabulary (h : Represents a docs t) {term : Text} :
    term ∈ t.vocabulary ↔ ∃ d, d ∈ t.terms.docSet term := by
  rw [vocabulary, List.mem_toFinset, h.sound.mem_keys]

/-- The frequencies of all terms in a document add up to the number of its words. -/
theorem sum_frequency (h : Represents a docs t) (d : Int) :
    ∑ term ∈ t.vocabulary, t.terms.frequency term d =
      (((docs.get? d).map fun text => (a.terms text).length).getD 0 : Nat) := by
  simp only [h.frequency, ← Nat.cast_sum, Collection.frequency]
  congr 1
  cases hd : docs.get? d with
  | none => simp
  | some text =>
    refine sum_count_eq_length fun term hterm => ?_
    rw [h.mem_vocabulary]
    exact ⟨d, h.mem_docSet.mpr (Collection.mem_having.mpr ⟨text, hd, hterm⟩)⟩

theorem sum_lengths (h : Represents a docs t) :
    (t.statistics.lengths.entries.map Prod.snd).sum = Collection.words a docs := by
  rw [h.lengths, List.map_map, Collection.words, Nat.cast_list_sum, List.map_map]
  rfl

theorem coherent (h : Represents a docs t) : t.Coherent := by
  have hsize : t.contents.size = docs.size := by rw [DocumentStore.size, h.contents]
  constructor
  · intro d
    rw [Table.mem_keys, Table.mem_keys, h.length?, h.contents, Option.isSome_map]
  · rw [h.documents, hsize]
  · rw [h.terms_documents, hsize]
  · intro d n hn
    rw [CollectionStatistics.length?, h.length?] at hn
    obtain ⟨text, htext, hlength⟩ := Option.map_eq_some_iff.mp hn
    rw [h.sum_frequency, htext, ← hlength]
    rfl
  · intro d hd
    rw [h.contents, Table.mem_keys, Option.isSome_iff_ne_none, not_not] at hd
    rw [h.sum_frequency, hd]
    rfl
  · rw [h.words, h.sum_lengths]
  · rw [h.terms_words, h.sum_lengths]
  · intro term hterm
    exact h.mem_vocabulary.mp hterm
  · intro term _ d hd
    obtain ⟨text, htext, -⟩ := Collection.mem_having.mp (h.mem_docSet.mp hd)
    rw [h.contents, Table.mem_keys, htext]
    rfl
  · intro term hterm
    obtain ⟨d, hd⟩ := h.mem_vocabulary.mp hterm
    have hlength := h.sound.documentFrequency_eq_length term
    have hpos := List.length_pos_of_mem (DocSet.mem_iff.mp hd)
    have hle := Collection.length_having_le a docs term
    rw [← h.documentFrequency, ← hsize] at hle
    exact ⟨hlength, by omega, hle⟩

end Represents

end Tables

end Concordance
