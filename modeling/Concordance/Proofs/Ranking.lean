import Concordance.Index.View
import Concordance.Proofs.Collection
import Concordance.Proofs.Except
import Concordance.Proofs.Order
import Concordance.Proofs.Ratio

/-!
# Ranking returns

Counts that fit together are ranked without failure: no length is zero, no term is in
more documents than there are, and all quotients are doubles. The ranked hits are those
of the given documents.
-/
namespace Concordance

namespace Counts

/-- The counts can be read, and no count exceeds the one that it is divided by or divides. -/
structure Sound (c : Counts) : Prop where
  share : ∀ term doc, ∃ f n : Nat,
    c.frequency term doc = .ok f ∧ c.length doc = .ok n ∧ f ≤ max n 1
  spread : ∀ term, ∃ n total : Nat,
    c.documentFrequency term = .ok n ∧ c.documentCount = .ok total ∧ n ≤ total
  length : ∀ doc, ∃ n : Nat, c.length doc = .ok n
  /-- The number of all documents, over any other one, is still a double. -/
  bounded : ∀ total : Nat, c.documentCount = .ok total → total < Nat.pow 2 1023

variable {c : Counts}

/-- The scores of documents are listed as the documents are. -/
theorem map_doc_of_scoreEach {terms : List Text} {known : Weights} {docs : List Int}
    {hits : List Hit} (h : c.scoreEach terms known docs = .ok hits) : hits.map Hit.doc = docs := by
  induction docs generalizing known hits with
  | nil =>
    cases h
    rfl
  | cons doc rest ih =>
    rw [scoreEach, bind_eq_ok_iff] at h
    obtain ⟨n, -, h⟩ := h
    rw [bind_eq_ok_iff] at h
    obtain ⟨⟨score, known'⟩, -, h⟩ := h
    rw [bind_eq_ok_iff] at h
    obtain ⟨hits', hhits', h⟩ := h
    cases h
    rw [List.map_cons, ih hhits']

/-- Ranked documents are the given ones, each as often as it was listed. -/
theorem perm_of_score {docs : List Int} {terms : List Text} {hits : List Hit}
    (h : c.score docs terms = .ok hits) : (hits.map Hit.doc).Perm docs := by
  obtain ⟨listed, hlisted, rfl⟩ := map_eq_ok_iff.mp h
  rw [← map_doc_of_scoreEach hlisted]
  exact (perm_sortBy listed).map Hit.doc

theorem Sound.weight (h : c.Sound) (term : Text) : ∃ w, c.weight term = .ok w := by
  obtain ⟨n, total, hn, htotal, hle⟩ := h.spread term
  rw [Counts.weight, hn, ok_bind]
  by_cases hnone : (n : Int) ≤ 0
  · exact ⟨_, if_pos hnone⟩
  · have hpos : 0 < n := by omega
    obtain ⟨d, hd, hsign, hmantissa⟩ := ratio_eq_ok hpos (.inr (h.bounded total htotal))
    rw [if_neg hnone, htotal, ok_bind, hd, ok_bind]
    simp [hsign, hmantissa hle]

theorem Sound.weightOnce (h : c.Sound) (known : Weights) (term : Text) :
    ∃ r, c.weightOnce known term = .ok r := by
  rw [Counts.weightOnce]
  cases known.lookup term with
  | some w => exact ⟨_, rfl⟩
  | none =>
    obtain ⟨w, hw⟩ := h.weight term
    exact ⟨(w, (term, w) :: known), by rw [hw]; rfl⟩

theorem Sound.addTerms (h : c.Sound) {doc : Int} {n : Nat} (hn : c.length doc = .ok n)
    (terms : List Text) (known : Weights) (score : Float) :
    ∃ r, c.addTerms doc (max (n : Int) 1) known score terms = .ok r := by
  induction terms generalizing known score with
  | nil => exact ⟨_, rfl⟩
  | cons term rest ih =>
    obtain ⟨f, m, hf, hm, hle⟩ := h.share term doc
    have hmn : m = n := by
      rw [hm] at hn
      exact Int.ofNat.inj (Except.ok.inj hn)
    subst hmn
    rw [Counts.addTerms, hf, ok_bind]
    by_cases hnone : (f : Int) ≤ 0
    · rw [if_pos hnone]
      exact ih known score
    · obtain ⟨⟨w, known'⟩, hw⟩ := h.weightOnce known term
      obtain ⟨part, hpart, -⟩ := ratio_eq_ok (by omega : 0 < max m 1) (.inl hle)
      have hlength : max (m : Int) 1 = (max m 1 : Nat) := by omega
      simp only [if_neg hnone, hw, ok_bind, hlength, hpart]
      rw [← hlength]
      exact ih known' _

theorem Sound.scoreEach (h : c.Sound) (terms : List Text) (known : Weights) (docs : List Int) :
    ∃ hits, c.scoreEach terms known docs = .ok hits := by
  induction docs generalizing known with
  | nil => exact ⟨[], rfl⟩
  | cons doc rest ih =>
    obtain ⟨n, hn⟩ := h.length doc
    obtain ⟨⟨score, known'⟩, hscore⟩ := h.addTerms hn terms known 0.0
    obtain ⟨hits, hhits⟩ := ih known'
    refine ⟨⟨doc, score⟩ :: hits, ?_⟩
    simp only [Counts.scoreEach, hn, ok_bind, hscore, hhits]
    rfl

/-- Documents are ranked without failure. -/
theorem Sound.score (h : c.Sound) (docs : List Int) (terms : List Text) :
    ∃ hits, c.score docs terms = .ok hits := by
  obtain ⟨hits, hhits⟩ := h.scoreEach terms [] docs
  exact ⟨Hit.ranked hits, by rw [Counts.score, hhits]; rfl⟩

end Counts

namespace Collection

variable {a : Analyzer} {docs : Collection}

theorem counts_sound (h : docs.size < Nat.pow 2 1023) : (view a docs).toCounts.Sound where
  share term doc := by
    refine ⟨_, _, rfl, rfl, ?_⟩
    unfold frequency
    cases docs.get? doc with
    | none => simp
    | some text =>
      have hcount : (a.terms text).count term ≤ (a.terms text).length := List.count_le_length
      simp only [Option.map_some, Option.getD_some]
      omega
  spread term := ⟨_, _, rfl, rfl, length_having_le a docs term⟩
  length doc := ⟨_, rfl⟩
  bounded total htotal := by
    have heq : (docs.size : Int) = total := Except.ok.inj htotal
    rwa [← Int.ofNat.inj heq]

end Collection

end Concordance
